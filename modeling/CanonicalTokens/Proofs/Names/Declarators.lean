import CanonicalTokens.Proofs.Names.Cpp
import CanonicalTokens.Proofs.Names.Searches

/-!
# Names at the bottom of C++ declarators

A declarator wraps another one, and that a third, down to a name or a structured binding. A wrapper
has the next declarator in a field. The few that have no such field, such as that of a reference,
have it among their named children, which are then all looked at.

The chain goes from declarator to declarator only. So whatever hangs off it is never looked at: the
value of an initializer, the bound of an array, the type, a default argument. At a function
declarator the chain ends without a name. A structured binding is searched as a whole, and this is
the one place where a name may have something else than wrappers above it.
-/

namespace CanonicalTokens.Rules.Cpp

def declarations : List String :=
  ["declaration", "parameter_declaration", "optional_parameter_declaration", "for_range_loop"]

def furnished : List String :=
  ["init_declarator", "array_declarator"]

def linking : List String :=
  furnished ++ ["pointer_declarator", "reference_declarator", "parenthesized_declarator",
    "attributed_declarator"]

/-- No wrapper has two declarators in the field, and those that hold a value or a bound have one. -/
structure WrapsOne (tree : Tree) : Prop where
  at_most_one : ∀ node ∈ tree.subtrees, node.kind ∈ linking →
    (node.childrenUnder "declarator").length ≤ 1
  always_one : ∀ node ∈ tree.subtrees, node.kind ∈ furnished →
    (node.childUnder? "declarator").isSome

/-! ### Chains -/

def wraps (holder child : Tree) : Bool :=
  linking.contains holder.kind &&
    (child.isUnder "declarator" ||
      (holder.childUnder? "declarator").isNone && child.isNamed)

/-- A node to which wrappers lead from one of the declarators of a construct. -/
inductive ChainAt (tree : Tree) : Place → Tree → Prop
  | intro {index : Nat} {way : Place} {declarator node : Tree}
      (hchild : tree.children[index]? = some declarator) (hunder : declarator.isUnder "declarator")
      (hway : declarator.Leads wraps way node) : ChainAt tree (index :: way) node

inductive EndsIn (node : Tree) : Place → Tree → Prop
  | identifier (hkind : node.kind = "identifier") : EndsIn node [] node
  | binding {way : Place} {name : Tree} (hkind : node.kind = "structured_binding_declarator")
      (hname : node.OutermostKindAt ["identifier"] way name) : EndsIn node way name

inductive DeclaredAt (tree : Tree) : Place → Tree → Prop
  | intro {outer inner : Place} {last name : Tree} (hchain : ChainAt tree outer last)
      (hends : EndsIn last inner name) : DeclaredAt tree (outer ++ inner) name

/-- What stands beside the chains of a construct: a function declarator, all but the declarators of
the construct itself, and the value or the bound in a wrapper. -/
inductive Aside (tree : Tree) : Place → Prop
  | function {place : Place} {node : Tree} (hnode : tree.at? place = some node)
      (hkind : node.kind = "function_declarator") : Aside tree place
  | beside {index : Nat} {child : Tree} (hchild : tree.children[index]? = some child)
      (hunder : ¬ child.isUnder "declarator") : Aside tree [index]
  | furniture {outer : Place} {index : Nat} {holder child : Tree}
      (hholder : tree.at? outer = some holder) (hkind : holder.kind ∈ furnished)
      (hchild : holder.children[index]? = some child) (hunder : ¬ child.isUnder "declarator") :
      Aside tree (outer ++ [index])

variable {tree node holder child : Tree} {place outer : Place} {index : Nat}

theorem WrapsOne.of_mem_children (hwraps : WrapsOne tree) (hchild : child ∈ tree.children) :
    WrapsOne child := by
  obtain ⟨label, children⟩ := tree
  constructor
  · intro node hnode
    exact hwraps.at_most_one node (Tree.mem_subtrees_of_mem_children hchild hnode)
  · intro node hnode
    exact hwraps.always_one node (Tree.mem_subtrees_of_mem_children hchild hnode)

/-! ### Names at the bottom -/

def endNames (node : Tree) : List Tree :=
  if node.kind = "identifier" then [node]
  else if node.kind = "structured_binding_declarator" then node.outermost ["identifier"]
  else []

/-- A chain of declarators ends in one name, in the names of a structured binding, or in none. -/
theorem enumerates_endNames (node : Tree) : Tree.Enumerates (endNames node) (EndsIn node) := by
  unfold endNames
  split
  next hkind =>
    refine Tree.enumerates_singleton [] ?_
    intro place name
    constructor
    · rintro (hidentifier | ⟨hbinding, hname⟩)
      · exact ⟨rfl, rfl⟩
      · simp [hkind] at hbinding
    · rintro ⟨rfl, rfl⟩
      exact .identifier hkind
  split
  next hidentifier hkind =>
    refine (Tree.enumerates_outermost ["identifier"] node).congr ?_
    intro place name
    constructor
    · exact .binding hkind
    · rintro (hother | ⟨-, hname⟩)
      · exact absurd hother hidentifier
      · exact hname
  next hidentifier hbinding =>
    refine Tree.enumerates_nil ?_
    rintro place name (hkind | ⟨hkind, -⟩)
    · exact hidentifier hkind
    · exact hbinding hkind

theorem contains_wrappers (kind : String) : wrappers.contains kind = linking.contains kind :=
  contains_eq_of_mem_iff (by decide) (by decide) kind

theorem mem_linking_of_wraps (hwraps : wraps holder child) : holder.kind ∈ linking :=
  List.contains_iff_mem.mp (Bool.and_eq_true_iff.mp hwraps).1

theorem ne_of_mem_linking {kind : String} (hwrapper : kind ∈ linking) :
    kind ≠ "identifier" ∧ kind ≠ "structured_binding_declarator" := by
  have hkinds : ∀ kind ∈ linking,
      kind ≠ "identifier" ∧ kind ≠ "structured_binding_declarator" := by decide
  exact hkinds kind hwrapper

theorem endNames_of_mem_linking (hwrapper : tree.kind ∈ linking) : endNames tree = [] := by
  obtain ⟨hidentifier, hbinding⟩ := ne_of_mem_linking hwrapper
  rw [endNames, if_neg hidentifier, if_neg hbinding]

/-- With at most one declarator in the field, the first one there is all that stands there. -/
theorem toList_childUnder?_eq {field : String} (hone : (tree.childrenUnder field).length ≤ 1) :
    (tree.childUnder? field).toList = tree.childrenUnder field := by
  rw [Tree.childUnder?, ← List.head?_filter]
  change (tree.childrenUnder field).head?.toList = _
  generalize tree.childrenUnder field = under at hone ⊢
  rcases under with _ | ⟨only, _ | ⟨next, rest⟩⟩
  · rfl
  · rfl
  · simp at hone

theorem filter_wraps_of_under (hwrapper : tree.kind ∈ linking)
    (hunder : (tree.childUnder? "declarator").isSome) :
    tree.children.filter (wraps tree) = tree.childrenUnder "declarator" := by
  apply List.filter_congr
  intro child _
  have hnone : (tree.childUnder? "declarator").isNone = false := by
    rw [Option.isNone_eq_false_iff]
    exact hunder
  rw [wraps, List.contains_iff_mem.mpr hwrapper, hnone]
  simp

theorem filter_wraps_of_none (hwrapper : tree.kind ∈ linking)
    (hnone : tree.childUnder? "declarator" = none) :
    tree.children.filter (wraps tree) = tree.namedChildren := by
  apply List.filter_congr
  intro child hchild
  have hunder : child.isUnder "declarator" = false := by
    simpa using List.find?_eq_none.mp hnone child hchild
  rw [wraps, List.contains_iff_mem.mpr hwrapper, hnone, hunder]
  simp

theorem bottom_of_mem_linking (hwrapper : tree.kind ∈ linking) :
    bottom tree =
      if (tree.childUnder? "declarator").isSome then
        (tree.childUnder? "declarator").toList.flatMap bottom
      else tree.namedChildren.flatMap bottom := by
  obtain ⟨label, children⟩ := tree
  have hlabel : label.kind ∈ linking := hwrapper
  obtain ⟨hidentifier, hbinding⟩ := ne_of_mem_linking hlabel
  rw [bottom, if_neg hidentifier, if_neg hbinding, contains_wrappers,
    if_pos (List.contains_iff_mem.mpr hlabel), wrapped_eq, wrappedNamed_eq, ← List.isSome_find?]
  rfl

theorem bottom_of_not_mem_linking (hwrapper : tree.kind ∉ linking) :
    bottom tree = endNames tree := by
  obtain ⟨label, children⟩ := tree
  have hcontains : ¬ linking.contains label.kind := by
    rwa [List.contains_iff_mem]
  rw [bottom, contains_wrappers, if_neg hcontains]
  rfl

/-- A declarator gives the names it ends in, and those that the declarators it wraps end in. -/
theorem bottom_eq (hone : tree.kind ∈ linking → (tree.childrenUnder "declarator").length ≤ 1) :
    bottom tree = endNames tree ++ (tree.children.filter (wraps tree)).flatMap bottom := by
  by_cases hwrapper : tree.kind ∈ linking
  · rw [bottom_of_mem_linking hwrapper, endNames_of_mem_linking hwrapper, List.nil_append]
    split
    next hunder => rw [filter_wraps_of_under hwrapper hunder, toList_childUnder?_eq (hone hwrapper)]
    next hunder =>
      rw [filter_wraps_of_none hwrapper (Option.not_isSome_iff_eq_none.mp hunder)]
  · have hnone : tree.children.filter (wraps tree) = [] := by
      rw [List.filter_eq_nil_iff]
      exact fun child _ hwraps => hwrapper (mem_linking_of_wraps hwraps)
    rw [hnone, List.flatMap_nil, List.append_nil, bottom_of_not_mem_linking hwrapper]

theorem enumerates_bottom (hwraps : WrapsOne tree) :
    Tree.Enumerates (bottom tree) (tree.ReachesBy wraps EndsIn) :=
  Tree.enumerates_search enumerates_endNames
    (fun node hnode => bottom_eq (hwraps.at_most_one node hnode))
    fun _ _ hedge => endNames_of_mem_linking (mem_linking_of_wraps hedge)

/-- A declaration names exactly the ends of its chains of declarators, in document order. -/
theorem enumerates_declared (hwraps : WrapsOne tree) :
    Tree.Enumerates (declared tree) (DeclaredAt tree) := by
  have hdeclarators : ∀ declarator ∈ tree.children, declarator.isUnder "declarator" →
      Tree.Enumerates (bottom declarator) (declarator.ReachesBy wraps EndsIn) :=
    fun declarator hchild _ => enumerates_bottom (hwraps.of_mem_children hchild)
  refine (Tree.enumerates_flatMap hdeclarators).congr ?_
  intro place name
  constructor
  · rintro ⟨index, declarator, _, rfl, hchild, hunder, ⟨hway, hends⟩⟩
    exact .intro (.intro hchild hunder hway) hends
  · rintro ⟨⟨hchild, hunder, hway⟩, hends⟩
    exact ⟨_, _, _, rfl, hchild, hunder, .intro hway hends⟩

/-! ### What stands beside the chains -/

/-- A step of a chain goes to a declarator of the construct, or from a wrapper to the next one. -/
theorem ChainAt.step (hchain : ChainAt tree place node) (hstep : outer ++ [index] <+: place) :
    ∃ holder child, tree.at? outer = some holder ∧ holder.children[index]? = some child ∧
      (outer = [] ∧ child.isUnder "declarator" ∨ outer ≠ [] ∧ wraps holder child) := by
  obtain ⟨hchild, hunder, hway⟩ := hchain
  cases outer with
  | nil =>
    obtain ⟨rfl, -⟩ := List.cons_prefix_cons.mp hstep
    exact ⟨tree, _, rfl, hchild, Or.inl ⟨rfl, hunder⟩⟩
  | cons first outer =>
    obtain ⟨rfl, hbelow⟩ := List.cons_prefix_cons.mp hstep
    obtain ⟨holder, child, hholder, hnext, hwraps⟩ := hway.edge_of_prefix hbelow
    exact ⟨holder, child, Tree.at?_cons_eq_some_iff.mpr ⟨_, hchild, hholder⟩, hnext,
      Or.inr ⟨List.cons_ne_nil _ _, hwraps⟩⟩

theorem ChainAt.at? (hchain : ChainAt tree place node) : tree.at? place = some node := by
  obtain ⟨hchild, -, hway⟩ := hchain
  exact Tree.at?_cons_eq_some_iff.mpr ⟨_, hchild, hway.at?⟩

/-- Above the end of a chain there are the construct and wrappers. -/
theorem ChainAt.kind_of_isAbove (hchain : ChainAt tree place node) (habove : outer.IsAbove place)
    (hholder : tree.at? outer = some holder) : holder = tree ∨ holder.kind ∈ linking := by
  obtain ⟨index, hstep⟩ := habove.exists_step
  obtain ⟨found, child, hfound, -, hedge⟩ := hchain.step hstep
  obtain rfl := Option.some.inj (hholder.symm.trans hfound)
  rcases hedge with ⟨rfl, -⟩ | ⟨-, hwraps⟩
  · exact Or.inl (Option.some.inj hfound).symm
  · exact Or.inr (mem_linking_of_wraps hwraps)

/-- A chain of declarators that does not end at a function passes nothing that stands aside. -/
theorem ChainAt.not_aside (hkind : tree.kind ∈ declarations) (hwraps : WrapsOne tree)
    (hchain : ChainAt tree place node) (hends : node.kind ≠ "function_declarator") {aside : Place}
    (haside : Aside tree aside) : ¬ aside <+: place := by
  intro hinitial
  have hconstruct : ∀ kind ∈ declarations,
      kind ≠ "function_declarator" ∧ kind ∉ furnished := by decide
  obtain ⟨hfunction, hfurnished⟩ := hconstruct _ hkind
  cases haside with
  | @function _ declarator hnode hdeclarator =>
    by_cases hlast : aside = place
    · subst hlast
      obtain rfl := Option.some.inj (hnode.symm.trans hchain.at?)
      exact hends hdeclarator
    · rcases hchain.kind_of_isAbove ⟨hinitial, hlast⟩ hnode with rfl | hwrapper
      · exact hfunction hdeclarator
      · rw [hdeclarator] at hwrapper
        exact absurd hwrapper (by decide)
  | @beside index child hchild hunder =>
    have hstep : [] ++ [index] <+: place := hinitial
    obtain ⟨holder, found, hholder, hfound, ⟨-, hdeclarator⟩ | ⟨hbelow, -⟩⟩ := hchain.step hstep
    · obtain rfl := Option.some.inj hholder
      obtain rfl := Option.some.inj (hchild.symm.trans hfound)
      exact hunder hdeclarator
    · exact hbelow rfl
  | @furniture outer _ furnishing child hholder hfurnishing hchild hunder =>
    obtain ⟨holder, found, hat, hfound, hedge⟩ := hchain.step hinitial
    obtain rfl := Option.some.inj (hholder.symm.trans hat)
    obtain rfl := Option.some.inj (hchild.symm.trans hfound)
    have hone := hwraps.always_one _ (Tree.mem_subtrees_of_at? hholder) hfurnishing
    rcases hedge with ⟨-, hdeclarator⟩ | ⟨-, hfollowed⟩
    · exact hunder hdeclarator
    · have hnone : (furnishing.childUnder? "declarator").isNone = false := by
        rw [Option.isNone_eq_false_iff]
        exact hone
      rw [wraps, hnone, Bool.false_and, Bool.or_false] at hfollowed
      exact hunder (Bool.and_eq_true_iff.mp hfollowed).2

/-- A declaration declares the names at the bottom of its declarators, in document order and with
repeats. None of them stands in a function declarator, in the value of an initializer, in the bound
of an array or in any child that is no declarator, unless all of that is part of a structured
binding. -/
theorem spells_declarators (source : Source) (hkind : tree.kind ∈ declarations)
    (hwraps : WrapsOne tree) :
    Tree.Spells source (cpp.declaredNames source tree) (DeclaredAt tree) ∧
      ∀ place name aside, DeclaredAt tree place name → Aside tree aside → aside <+: place →
        ∃ outer binding, Place.IsAbove outer aside ∧ ChainAt tree outer binding ∧
          binding.kind = "structured_binding_declarator" := by
  have hbound : cpp.bound tree = declared tree := bound_of_lookups rfl hkind
  refine ⟨⟨declared tree, enumerates_declared hwraps, ?_⟩, ?_⟩
  · rw [Rules.declaredNames, hbound]
  · rintro _ name aside @⟨outer, inner, last, _, hchain, hends⟩ haside hinitial
    have hlast : last.kind ≠ "function_declarator" := by
      rcases hends with hend | ⟨hend, -⟩ <;> simp [hend]
    have hnot := hchain.not_aside hkind hwraps hlast haside
    -- Nothing on the chain stands aside, so the place is inside what the chain ends in.
    cases hends with
    | identifier =>
      rw [List.append_nil] at hinitial
      exact absurd hinitial hnot
    | binding hbinding =>
      have houter : outer <+: aside :=
        (List.prefix_or_prefix_of_prefix hinitial (List.prefix_append _ _)).resolve_left hnot
      refine ⟨outer, last, ⟨houter, ?_⟩, hchain, hbinding⟩
      rintro rfl
      exact hnot List.prefix_rfl

/-- The tree of `int *p = q, &r = x, a[n], (*f)(int m);`. -/
def mixedDeclaration : Tree :=
  .node (.sound "declaration" true 0 38 none) [
    .node (.sound "primitive_type" true 0 3 (some "type")) [],
    .node (.sound "init_declarator" true 4 10 (some "declarator")) [
      .node (.sound "pointer_declarator" true 4 6 (some "declarator")) [
        .node (.sound "*" false 4 5 none) [],
        .node (.sound "identifier" true 5 6 (some "declarator")) []],
      .node (.sound "=" false 7 8 none) [],
      .node (.sound "identifier" true 9 10 (some "value")) []],
    .node (.sound "," false 10 11 none) [],
    .node (.sound "init_declarator" true 12 18 (some "declarator")) [
      .node (.sound "reference_declarator" true 12 14 (some "declarator")) [
        .node (.sound "&" false 12 13 none) [],
        .node (.sound "identifier" true 13 14 none) []],
      .node (.sound "=" false 15 16 none) [],
      .node (.sound "identifier" true 17 18 (some "value")) []],
    .node (.sound "," false 18 19 none) [],
    .node (.sound "array_declarator" true 20 24 (some "declarator")) [
      .node (.sound "identifier" true 20 21 (some "declarator")) [],
      .node (.sound "[" false 21 22 none) [],
      .node (.sound "identifier" true 22 23 (some "size")) [],
      .node (.sound "]" false 23 24 none) []],
    .node (.sound "," false 24 25 none) [],
    .node (.sound "function_declarator" true 26 37 (some "declarator")) [
      .node (.sound "parenthesized_declarator" true 26 30 (some "declarator")) [
        .node (.sound "(" false 26 27 none) [],
        .node (.sound "pointer_declarator" true 27 29 none) [
          .node (.sound "*" false 27 28 none) [],
          .node (.sound "identifier" true 28 29 (some "declarator")) []],
        .node (.sound ")" false 29 30 none) []],
      .node (.sound "parameter_list" true 30 37 (some "parameters")) [
        .node (.sound "(" false 30 31 none) [],
        .node (.sound "parameter_declaration" true 31 36 none) [
          .node (.sound "primitive_type" true 31 34 (some "type")) [],
          .node (.sound "identifier" true 35 36 (some "declarator")) []],
        .node (.sound ")" false 36 37 none) []]],
    .node (.sound ";" false 37 38 none) []]

/-- A pointer, a reference and an array are named. A pointer to a function is not, and neither is
its parameter. -/
theorem spells_mixedDeclaration :
    mixedDeclaration.kind ∈ declarations ∧ WrapsOne mixedDeclaration ∧
      Tree.Spells (.ofString "int *p = q, &r = x, a[n], (*f)(int m);") ["p", "r", "a"]
        (DeclaredAt mixedDeclaration) ∧
      ∀ place name, DeclaredAt mixedDeclaration place name → ¬ [7] <+: place := by
  have hkind : mixedDeclaration.kind ∈ declarations := by decide
  have hwraps : WrapsOne mixedDeclaration := ⟨by decide, by decide⟩
  obtain ⟨hnames, hbeside⟩ :=
    spells_declarators (.ofString "int *p = q, &r = x, a[n], (*f)(int m);") hkind hwraps
  refine ⟨hkind, hwraps, hnames, ?_⟩
  intro place name hname hinitial
  have hfunction : Aside mixedDeclaration [7] := .function rfl rfl
  obtain ⟨outer, binding, habove, hchain, -⟩ := hbeside place name [7] hname hfunction hinitial
  rcases outer with _ | ⟨first, rest⟩
  · cases hchain
  · exact Place.not_isAbove_nil (Place.cons_isAbove_cons_iff.mp habove).2

end CanonicalTokens.Rules.Cpp
