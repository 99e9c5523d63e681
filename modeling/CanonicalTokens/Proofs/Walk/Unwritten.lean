import CanonicalTokens.Proofs.Names.Catalogue
import CanonicalTokens.Proofs.Ranges
import CanonicalTokens.Proofs.Scope.Account
import CanonicalTokens.Proofs.Walk.History

/-!
# Names that are not written

A parser that goes on behind an error puts in nodes that it misses. They cover no source, and the
walk ignores them where it comes to them. The search for the names of a construct does not ask
whether a node was put in: if it finds one, the construct declares a name without text. Such a name
counts as a declaration like any other, although no identifier can ever be it.

As long as every identifier that was read covers some source, these are the only names without
text, but for those of nodes that are no identifiers.
-/

namespace CanonicalTokens

/-- Every node that the parser has put in covers no source, and every identifier that it has read
covers some. -/
structure Tree.IdentifiersCover (rules : Rules) (source : Source) (tree : Tree) : Prop where
  missing : ∀ node ∈ tree.subtrees, node.label.missing → node.label.start = node.label.stop
  identifiers : ∀ node ∈ tree.subtrees, rules.isIdentifier node.kind → ¬ node.label.missing →
    node.text source ≠ ""

/-- A name of the construct is held by a node that the parser has put in, or by one that is no
identifier and covers nothing. -/
def Rules.BindsUnwritten (rules : Rules) (source : Source) (holder : Tree) : Prop :=
  ∃ name ∈ rules.bound holder,
    name.label.missing ∨ ¬ rules.isIdentifier name.kind ∧ name.text source = ""

instance (rules : Rules) (source : Source) (holder : Tree) :
    Decidable (rules.BindsUnwritten source holder) :=
  inferInstanceAs (Decidable (∃ name ∈ rules.bound holder, _))

/-- A node has no text if the parser has put it in, or if it is no identifier and covers nothing. -/
theorem Tree.IdentifiersCover.text_eq_empty_iff {rules : Rules} {source : Source}
    {tree node : Tree} (hcover : tree.IdentifiersCover rules source)
    (hnode : node ∈ tree.subtrees) :
    node.text source = "" ↔
      node.label.missing ∨ ¬ rules.isIdentifier node.kind ∧ node.text source = "" := by
  constructor
  · intro htext
    by_cases hmissing : node.label.missing
    · exact Or.inl hmissing
    · refine Or.inr ⟨?_, htext⟩
      intro hidentifier
      exact hcover.identifiers node hnode hidentifier hmissing htext
  · rintro (hmissing | ⟨-, htext⟩)
    · rw [text, hcover.missing node hnode hmissing, source.slice_self]
    · exact htext

/-- A construct declares the empty name exactly if it binds a node that has no text. -/
theorem Language.empty_mem_declaredNames_iff {language : Language} {source : Source}
    {tree holder : Tree} (hcover : tree.IdentifiersCover language.rules source)
    (hholder : holder ∈ tree.subtrees) :
    "" ∈ language.rules.declaredNames source holder ↔
      language.rules.BindsUnwritten source holder := by
  rw [Rules.declaredNames, List.mem_map]
  apply exists_congr
  intro name
  apply and_congr_right
  intro hname
  obtain ⟨place, hplace⟩ := Tree.exists_at?_of_mem_subtrees hholder
  have hbelow := Tree.subtrees_subset_of_at? hplace (mem_subtrees_of_mem_bound hname)
  exact hcover.text_eq_empty_iff hbelow

namespace Walk

variable {walk : Walk} {tree : Tree} {language : Language}

/-- A construct declares a name without text if and only if it takes a name from a node that the
parser has put in, or from one that is no identifier and covers nothing. The tally of a walk counts
such a name if and only if the walk enters such a construct. -/
theorem declares_empty_iff (hrules : walk.rules = language.rules)
    (hcover : tree.IdentifiersCover walk.rules walk.source) :
    (∀ holder ∈ tree.subtrees,
      "" ∈ walk.rules.declaredNames walk.source holder ↔
        walk.rules.BindsUnwritten walk.source holder) ∧
      (OpenScopes.declarations (walk.history tree)).encard = (walk.run tree).tally.declared ∧
      ((∃ entry ∈ OpenScopes.declarations (walk.history tree), entry.2 = "") ↔
        ∃ place holder, walk.Entered tree place holder ∧
          walk.rules.BindsUnwritten walk.source holder) := by
  have hnames : ∀ holder ∈ tree.subtrees,
      "" ∈ walk.rules.declaredNames walk.source holder ↔
        walk.rules.BindsUnwritten walk.source holder := by
    rw [hrules] at hcover ⊢
    intro holder hholder
    exact Language.empty_mem_declaredNames_iff hcover hholder
  refine ⟨hnames, by rw [OpenScopes.encard_declarations, tally_run], ?_⟩
  rw [OpenScopes.exists_mem_declarations_iff, declare_mem_history_iff]
  apply exists_congr
  intro place
  apply exists_congr
  intro holder
  apply and_congr_right
  intro hentered
  exact hnames holder (Tree.mem_subtrees_of_at? hentered.at_place)

/-- The tree of `int n = 5;`. -/
def namedTree : Tree :=
  .node (.sound "translation_unit" true 0 10 none) [
    .node (.sound "declaration" true 0 10 none) [
      .node (.sound "primitive_type" true 0 3 (some "type")) [],
      .node (.sound "init_declarator" true 4 9 (some "declarator")) [
        .node (.sound "identifier" true 4 5 (some "declarator")) [],
        .node (.sound "=" false 6 7 none) [],
        .node (.sound "number_literal" true 8 9 (some "value")) []],
      .node (.sound ";" false 9 10 none) []]]

def namedWalk : Walk :=
  ⟨.ofString "int n = 5;", Language.cpp.rules, .standard⟩

/-- A declaration with a name declares that name and no empty one. -/
theorem declared_named :
    namedWalk.rules = Language.cpp.rules ∧
      namedTree.IdentifiersCover namedWalk.rules namedWalk.source ∧
      (namedWalk.run namedTree).tally.declared = 1 ∧
      (OpenScopes.declarations (namedWalk.history namedTree)).encard = 1 ∧
      ∀ entry ∈ OpenScopes.declarations (namedWalk.history namedTree), entry.2 ≠ "" := by
  have hcover : namedTree.IdentifiersCover namedWalk.rules namedWalk.source :=
    ⟨by decide, by decide⟩
  have hwritten : ∀ holder ∈ namedTree.subtrees,
      ¬ namedWalk.rules.BindsUnwritten namedWalk.source holder := by decide
  have hdeclared : (namedWalk.run namedTree).tally.declared = 1 := by
    rw [run, Visitor.traverse_eq_fold]
    decide
  have hrules : namedWalk.rules = Language.cpp.rules := rfl
  obtain ⟨-, hcount, hempty⟩ := declares_empty_iff hrules hcover
  rw [hdeclared] at hcount
  refine ⟨hrules, hcover, hdeclared, hcount, ?_⟩
  intro entry hentry htext
  obtain ⟨place, holder, hentered, hbinds⟩ := hempty.mp ⟨entry, hentry, htext⟩
  exact hwritten holder (Tree.mem_subtrees_of_at? hentered.at_place) hbinds

/-- The tree of `int = 5;`, in which the parser has put in the name. -/
def namelessTree : Tree :=
  .node ⟨"translation_unit", true, false, false, true, 0, 8, none⟩ [
    .node ⟨"declaration", true, false, false, true, 0, 8, none⟩ [
      .node (.sound "primitive_type" true 0 3 (some "type")) [],
      .node ⟨"init_declarator", true, false, false, true, 3, 7, some "declarator"⟩ [
        .node ⟨"identifier", true, true, false, true, 3, 3, some "declarator"⟩ [],
        .node (.sound "=" false 4 5 none) [],
        .node (.sound "number_literal" true 6 7 (some "value")) []],
      .node (.sound ";" false 7 8 none) []]]

def namelessWalk : Walk :=
  ⟨.ofString "int = 5;", Language.cpp.rules, .standard⟩

/-- The declaration declares a name without text, and the tally counts it. -/
theorem nameless_declares_empty :
    namelessTree.IdentifiersCover namelessWalk.rules namelessWalk.source ∧
      (namelessTree.subtrees.map fun holder =>
        namelessWalk.rules.declaredNames namelessWalk.source holder) =
          [[], [""], [], [], [], [], [], []] ∧
      (namelessWalk.run namelessTree).tally.declared = 1 := by
  refine ⟨⟨by decide, by decide⟩, by decide, ?_⟩
  rw [run, Visitor.traverse_eq_fold]
  decide

end Walk

end CanonicalTokens
