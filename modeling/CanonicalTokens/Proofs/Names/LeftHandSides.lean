import CanonicalTokens.Proofs.Names.Outermost
import CanonicalTokens.Rules.Go

/-!
# Names on Go left-hand sides

A short declaration, a range clause and a receive statement list expressions on their left. The
search for their names does not stop at these: it finds each identifier in each of them. A listed
name is found as itself, so the names that stand alone are always among the declared ones. They are
all of these as long as no other expression of the list has an identifier in it. An index, a
selector or a call has one, and declares it.
-/

namespace CanonicalTokens.Rules.Go

def leftHandSides : List String :=
  ["short_var_declaration", "range_clause", "receive_statement"]

def listed (tree : Tree) : List Tree :=
  (tree.childrenUnder "left").flatMap Tree.namedChildren

def isBare (expression : Tree) : Bool :=
  expression.kind = "identifier"

def bareNames (source : Source) (tree : Tree) : List String :=
  ((listed tree).filter isBare).map fun name => name.text source

inductive IdentifierAt (tree : Tree) : Place → Tree → Prop
  | intro {index : Nat} {list name : Tree} {way : Place}
      (hlist : tree.children[index]? = some list) (hunder : list.isUnder "left")
      (hname : list.OutermostKindAt ["identifier"] way name) : IdentifierAt tree (index :: way) name

variable {tree : Tree}

/-- The identifiers of a left-hand side are found exactly and in document order. -/
theorem enumerates_assigned (tree : Tree) :
    Tree.Enumerates (assigned tree) (IdentifierAt tree) := by
  refine (Tree.enumerates_outermostUnder "left" ["identifier"] tree).congr ?_
  intro place name
  constructor
  · rintro ⟨hlist, hunder, hname⟩
    exact .intro hlist hunder hname
  · rintro ⟨hlist, hunder, hname⟩
    exact .intro hlist hunder hname

/-! ### Expressions of a list -/

/-- A left-hand side is a list of expressions, and each of them is searched by itself. -/
theorem assigned_eq_flatMap_listed
    (hlists : ∀ list ∈ tree.childrenUnder "left", list.kind = "expression_list") :
    assigned tree = (listed tree).flatMap (Tree.outermost ["identifier"]) := by
  rw [assigned, Tree.outermostUnder, listed, List.flatMap_assoc]
  apply List.flatMap_congr
  intro list hlist
  have hkind : list.kind ∉ ["identifier"] := by
    rw [hlists list hlist]
    decide
  exact Tree.outermost_eq hkind

theorem outermost_of_isBare {expression : Tree} (hbare : isBare expression) :
    expression.outermost ["identifier"] = [expression] := by
  obtain ⟨label, children⟩ := expression
  have hkind : label.kind = "identifier" := of_decide_eq_true hbare
  rw [Tree.outermost, hkind]
  rfl

/-- The bare names of a list are among the identifiers found in it, in the same order. -/
theorem filter_isBare_sublist (expressions : List Tree) :
    (expressions.filter isBare).Sublist (expressions.flatMap (Tree.outermost ["identifier"])) := by
  induction expressions with
  | nil => exact .slnil
  | cons expression rest ih =>
    rw [List.filter_cons, List.flatMap_cons]
    split
    next hbare =>
      rw [outermost_of_isBare hbare]
      exact ih.cons_cons expression
    next => exact ih.trans (List.sublist_append_right _ _)

/-- The search finds nothing else exactly if it finds nothing in the expressions that are no
names. -/
theorem filter_isBare_eq_iff (expressions : List Tree) :
    expressions.filter isBare = expressions.flatMap (Tree.outermost ["identifier"]) ↔
      ∀ expression ∈ expressions, expression.kind ≠ "identifier" →
        expression.outermost ["identifier"] = [] := by
  induction expressions with
  | nil => simp
  | cons expression rest ih =>
    rw [List.filter_cons, List.flatMap_cons, List.forall_mem_cons]
    split
    next hbare =>
      have hkind : expression.kind = "identifier" := of_decide_eq_true hbare
      rw [outermost_of_isBare hbare, List.singleton_append, List.cons.injEq, ih]
      simp [hkind]
    next hbare =>
      -- What the expression adds is not made up for: the rest is no shorter than its bare names.
      constructor
      · intro hsame
        have hlength := congrArg List.length hsame
        have hshorter := (filter_isBare_sublist rest).length_le
        rw [List.length_append] at hlength
        have hnone : expression.outermost ["identifier"] = [] :=
          List.eq_nil_of_length_eq_zero (by omega)
        rw [hnone, List.nil_append] at hsame
        exact ⟨fun _ => hnone, ih.mp hsame⟩
      · rintro ⟨hnone, hrest⟩
        have hkind : expression.kind ≠ "identifier" := fun hkind => hbare (decide_eq_true hkind)
        rw [hnone hkind, List.nil_append]
        exact ih.mpr hrest

/-- A left-hand side declares every identifier in it, in document order. The names that are listed
by themselves are among them, and they are all of them if and only if no other expression of the
list has an identifier in it. -/
theorem spells_left_hand_side (source : Source) (hkind : tree.kind ∈ leftHandSides)
    (hlists : ∀ list ∈ tree.childrenUnder "left", list.kind = "expression_list") :
    Tree.Spells source (go.declaredNames source tree) (IdentifierAt tree) ∧
      (bareNames source tree).Sublist (go.declaredNames source tree) ∧
      (go.declaredNames source tree = bareNames source tree ↔
        ∀ expression ∈ listed tree, expression.kind ≠ "identifier" →
          ∀ way name, ¬ expression.OutermostKindAt ["identifier"] way name) := by
  have hbound : go.bound tree = assigned tree := bound_of_lookups rfl hkind
  have hdeclared : go.declaredNames source tree =
      ((listed tree).flatMap (Tree.outermost ["identifier"])).map fun name => name.text source := by
    rw [Rules.declaredNames, hbound, assigned_eq_flatMap_listed hlists]
  have hsublist := filter_isBare_sublist (listed tree)
  refine ⟨⟨assigned tree, enumerates_assigned tree, ?_⟩, ?_, ?_⟩
  · rw [Rules.declaredNames, hbound]
  · rw [hdeclared]
    exact hsublist.map _
  · have hnone : ∀ expression : Tree, expression.outermost ["identifier"] = [] ↔
        ∀ way name, ¬ expression.OutermostKindAt ["identifier"] way name :=
      fun expression => (Tree.enumerates_outermost ["identifier"] expression).eq_nil_iff
    simp only [← hnone]
    rw [hdeclared, bareNames, ← filter_isBare_eq_iff]
    constructor
    · intro hsame
      have hlength := congrArg List.length hsame
      rw [List.length_map, List.length_map] at hlength
      exact hsublist.eq_of_length hlength.symm
    · intro hsame
      rw [hsame]

/-- The tree of `v, ok := <-c`. -/
def receivedPair : Tree :=
  .node (.sound "receive_statement" true 0 12 none) [
    .node (.sound "expression_list" true 0 5 (some "left")) [
      .node (.sound "identifier" true 0 1 none) [],
      .node (.sound "," false 1 2 none) [],
      .node (.sound "identifier" true 3 5 none) []],
    .node (.sound ":=" false 6 8 none) [],
    .node (.sound "unary_expression" true 9 12 (some "right")) [
      .node (.sound "<-" false 9 11 (some "operator")) [],
      .node (.sound "identifier" true 11 12 (some "operand")) []]]

/-- A received value and its flag are both declared. -/
theorem spells_receivedPair :
    receivedPair.kind ∈ leftHandSides ∧
      (∀ list ∈ receivedPair.childrenUnder "left", list.kind = "expression_list") ∧
      Tree.Spells (.ofString "v, ok := <-c") ["v", "ok"] (IdentifierAt receivedPair) ∧
      ∀ expression ∈ listed receivedPair, expression.kind ≠ "identifier" →
        ∀ way name, ¬ expression.OutermostKindAt ["identifier"] way name := by
  have hkind : receivedPair.kind ∈ leftHandSides := by decide
  have hlists : ∀ list ∈ receivedPair.childrenUnder "left", list.kind = "expression_list" := by
    decide
  obtain ⟨hnames, -, hiff⟩ := spells_left_hand_side (.ofString "v, ok := <-c") hkind hlists
  exact ⟨hkind, hlists, hnames, hiff.mp (by decide)⟩

/-- The tree of `m[f(k)], ok = <-c`. -/
def receivedEntry : Tree :=
  .node (.sound "receive_statement" true 0 17 none) [
    .node (.sound "expression_list" true 0 11 (some "left")) [
      .node (.sound "index_expression" true 0 7 none) [
        .node (.sound "identifier" true 0 1 (some "operand")) [],
        .node (.sound "[" false 1 2 none) [],
        .node (.sound "call_expression" true 2 6 (some "index")) [
          .node (.sound "identifier" true 2 3 (some "function")) [],
          .node (.sound "argument_list" true 3 6 (some "arguments")) [
            .node (.sound "(" false 3 4 none) [],
            .node (.sound "identifier" true 4 5 none) [],
            .node (.sound ")" false 5 6 none) []]],
        .node (.sound "]" false 6 7 none) []],
      .node (.sound "," false 7 8 none) [],
      .node (.sound "identifier" true 9 11 none) []],
    .node (.sound "=" false 12 13 none) [],
    .node (.sound "unary_expression" true 14 17 (some "right")) [
      .node (.sound "<-" false 14 16 (some "operator")) [],
      .node (.sound "identifier" true 16 17 (some "operand")) []]]

/-- The statement declares the map, the function and the key, of which none is listed. -/
theorem receivedEntry_declares_operands :
    receivedEntry.kind ∈ leftHandSides ∧
      (∀ list ∈ receivedEntry.childrenUnder "left", list.kind = "expression_list") ∧
      bareNames (.ofString "m[f(k)], ok = <-c") receivedEntry = ["ok"] ∧
      go.declaredNames (.ofString "m[f(k)], ok = <-c") receivedEntry = ["m", "f", "k", "ok"] := by
  decide

end CanonicalTokens.Rules.Go
