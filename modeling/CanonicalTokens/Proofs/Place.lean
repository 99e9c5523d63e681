import CanonicalTokens.Tree

/-!
# Places

Equal subtrees may occur in a tree more than once, so a node is known by its place and not by what
it looks like. A place says which child to take at each level on the way down from the root.

Places are compared as lists: a place comes before another if it lies above it, or if the two ways
part and its own turns off further to the left. That is the order in which the nodes of a tree stand
in a document.
-/

namespace CanonicalTokens

/-- The way from the root of a tree to one of its nodes. -/
abbrev Place := List Nat

def Place.IsAbove (outer inner : Place) : Prop := outer <+: inner ∧ outer ≠ inner

instance (outer inner : Place) : Decidable (outer.IsAbove inner) :=
  inferInstanceAs (Decidable (_ ∧ _))

namespace Place

variable {outer inner : Place} {index : Nat}

theorem not_isAbove_nil : ¬ outer.IsAbove [] := by
  rintro ⟨hinitial, hne⟩
  exact hne (List.prefix_nil.mp hinitial)

theorem nil_isAbove_cons : Place.IsAbove [] (index :: inner) :=
  ⟨List.nil_prefix, (List.cons_ne_nil _ _).symm⟩

theorem cons_isAbove_cons_iff {other : Nat} :
    Place.IsAbove (index :: outer) (other :: inner) ↔ index = other ∧ outer.IsAbove inner := by
  unfold IsAbove
  rw [List.cons_prefix_cons]
  constructor
  · rintro ⟨⟨rfl, hinitial⟩, hne⟩
    exact ⟨rfl, hinitial, fun heq => hne (congrArg _ heq)⟩
  · rintro ⟨rfl, hinitial, hne⟩
    exact ⟨⟨rfl, hinitial⟩, fun heq => hne (List.cons.inj heq).2⟩

theorem isAbove_append_cons (outer rest : Place) : outer.IsAbove (outer ++ index :: rest) :=
  ⟨List.prefix_append _ _, by simp⟩

theorem IsAbove.not_prefix_back (habove : outer.IsAbove inner) : ¬ inner <+: outer := by
  intro hinitial
  exact habove.2 (habove.1.eq_of_length_le hinitial.length_le)

/-- A place above another one comes before it in document order. -/
theorem IsAbove.lt (habove : outer.IsAbove inner) : outer < inner := by
  obtain ⟨⟨rest, rfl⟩, hne⟩ := habove
  cases rest with
  | nil => simp at hne
  | cons index rest =>
    clear hne
    induction outer with
    | nil => exact List.nil_lt_cons index rest
    | cons first outer ih => exact List.cons_lt_cons_iff.mpr (Or.inr ⟨rfl, ih⟩)

theorem append_lt_append_of_lt (base : Place) {left right : Nat} (hlt : left < right)
    (first second : Place) : base ++ left :: first < base ++ right :: second := by
  induction base with
  | nil => exact List.cons_lt_cons_iff.mpr (Or.inl hlt)
  | cons index base ih => exact List.cons_lt_cons_iff.mpr (Or.inr ⟨rfl, ih⟩)

theorem not_append_prefix_append_of_ne (base : Place) {left right : Nat} (hne : left ≠ right)
    (first second : Place) : ¬ base ++ left :: first <+: base ++ right :: second := by
  rw [List.prefix_append_right_inj, List.cons_prefix_cons]
  exact fun hinitial => hne hinitial.1

/-- Of the places at and above a place with a property, if there are any, one lies innermost. -/
theorem exists_innermost (place : Place) (property : Place → Prop) :
    (∀ outer, outer <+: place → ¬ property outer) ∨
      ∃ inner, inner <+: place ∧ property inner ∧
        ∀ outer, outer <+: place → property outer → outer <+: inner := by
  induction place generalizing property with
  | nil =>
    by_cases hroot : property []
    · refine Or.inr ⟨[], List.nil_prefix, hroot, ?_⟩
      intro outer hinitial _
      exact hinitial
    · refine Or.inl ?_
      intro outer hinitial
      rwa [List.prefix_nil.mp hinitial]
  | cons index place ih =>
    rcases ih fun way => property (index :: way) with hnone | ⟨inner, haround, hinner, hinnermost⟩
    · by_cases hroot : property []
      · refine Or.inr ⟨[], List.nil_prefix, hroot, ?_⟩
        rintro (_ | ⟨first, way⟩) hinitial hway
        · exact List.nil_prefix
        · obtain ⟨rfl, hbelow⟩ := List.cons_prefix_cons.mp hinitial
          exact absurd hway (hnone way hbelow)
      · refine Or.inl ?_
        rintro (_ | ⟨first, way⟩) hinitial
        · exact hroot
        · obtain ⟨rfl, hbelow⟩ := List.cons_prefix_cons.mp hinitial
          exact hnone way hbelow
    · refine Or.inr ⟨index :: inner, List.cons_prefix_cons.mpr ⟨rfl, haround⟩, hinner, ?_⟩
      rintro (_ | ⟨first, way⟩) hinitial hway
      · exact List.nil_prefix
      · obtain ⟨rfl, hbelow⟩ := List.cons_prefix_cons.mp hinitial
        exact List.cons_prefix_cons.mpr ⟨rfl, hinnermost way hbelow hway⟩

theorem IsAbove.of_prefix_left {between : Place} (hinitial : outer <+: between)
    (habove : between.IsAbove inner) : outer.IsAbove inner := by
  refine ⟨hinitial.trans habove.1, ?_⟩
  rintro rfl
  exact habove.not_prefix_back hinitial

end Place

namespace Tree

theorem children_induction {motive : Tree → Prop}
    (node : ∀ label children, (∀ child ∈ children, motive child) → motive (.node label children)) :
    ∀ tree, motive tree
  | .node label children => node label children fun child _ => children_induction node child

def at? : Tree → Place → Option Tree
  | tree, [] => some tree
  | tree, index :: place => tree.children[index]?.bind fun child => child.at? place

@[simp]
theorem at?_nil (tree : Tree) : tree.at? [] = some tree := rfl

theorem at?_cons (tree : Tree) (index : Nat) (place : Place) :
    tree.at? (index :: place) = tree.children[index]?.bind fun child => child.at? place := rfl

theorem at?_cons_eq_some_iff {tree node : Tree} {index : Nat} {place : Place} :
    tree.at? (index :: place) = some node ↔
      ∃ child, tree.children[index]? = some child ∧ child.at? place = some node := by
  rw [at?_cons, Option.bind_eq_some_iff]

/-- The way to a node can be taken in two parts. -/
theorem at?_append (tree : Tree) (outer inner : Place) :
    tree.at? (outer ++ inner) = (tree.at? outer).bind fun node => node.at? inner := by
  induction outer generalizing tree with
  | nil => rfl
  | cons index outer ih =>
    rw [List.cons_append, at?_cons, at?_cons]
    cases tree.children[index]? with
    | none => rfl
    | some child => exact ih child

/-- The places next below a node are those of its children. -/
theorem at?_concat {tree node : Tree} {place : Place} (hnode : tree.at? place = some node)
    (index : Nat) : tree.at? (place ++ [index]) = node.children[index]? := by
  rw [at?_append, hnode, Option.bind_some, at?_cons]
  cases node.children[index]? <;> rfl

/-- What holds of all nodes above a place below a child holds of the parent of the child, and of all
nodes above the place in the child. -/
theorem forall_above_cons_iff {tree child : Tree} {index : Nat} {place : Place}
    {property : Tree → Prop} (hchild : tree.children[index]? = some child) :
    (∀ outer holder, outer.IsAbove (index :: place) → tree.at? outer = some holder →
        property holder) ↔
      property tree ∧ ∀ outer holder, outer.IsAbove place → child.at? outer = some holder →
        property holder := by
  constructor
  · intro hall
    refine ⟨hall [] tree Place.nil_isAbove_cons rfl, ?_⟩
    intro outer holder habove hholder
    exact hall (index :: outer) holder (Place.cons_isAbove_cons_iff.mpr ⟨rfl, habove⟩)
      (at?_cons_eq_some_iff.mpr ⟨child, hchild, hholder⟩)
  · rintro ⟨hroot, hall⟩ outer holder habove hholder
    cases outer with
    | nil =>
      obtain rfl := Option.some.inj hholder
      exact hroot
    | cons first outer =>
      obtain ⟨rfl, hbelow⟩ := Place.cons_isAbove_cons_iff.mp habove
      obtain ⟨other, hother, hholder⟩ := at?_cons_eq_some_iff.mp hholder
      obtain rfl := Option.some.inj (hchild.symm.trans hother)
      exact hall outer holder hbelow hholder

mutual

def nodes : Tree → List (Place × Tree)
  | .node label children => ([], .node label children) :: forestNodes 0 children

def forestNodes (index : Nat) : List Tree → List (Place × Tree)
  | [] => []
  | tree :: rest =>
    tree.nodes.map (fun entry => (index :: entry.1, entry.2)) ++ forestNodes (index + 1) rest

end

theorem mem_forestNodes (index : Nat) {forest : List Tree} {tree node : Tree} {offset : Nat}
    {place : Place} (htree : forest[offset]? = some tree) (hnode : (place, node) ∈ tree.nodes) :
    ((index + offset) :: place, node) ∈ forestNodes index forest := by
  induction forest generalizing index offset with
  | nil => simp at htree
  | cons first rest ih =>
    rw [forestNodes]
    cases offset with
    | zero =>
      obtain rfl : first = tree := by simpa using htree
      exact List.mem_append_left _ (List.mem_map.mpr ⟨(place, node), hnode, rfl⟩)
    | succ offset =>
      have hlater := ih (index + 1) htree
      rw [Nat.add_right_comm] at hlater
      exact List.mem_append_right _ hlater

/-- The list of all nodes holds every node at its place. -/
theorem mem_nodes_of_at? {tree node : Tree} {place : Place} (hnode : tree.at? place = some node) :
    (place, node) ∈ tree.nodes := by
  induction place generalizing tree with
  | nil =>
    obtain rfl : tree = node := Option.some.inj hnode
    cases tree
    exact List.mem_cons_self
  | cons index place ih =>
    obtain ⟨child, hchild, hbelow⟩ := at?_cons_eq_some_iff.mp hnode
    cases tree
    have hmem := mem_forestNodes 0 hchild (ih hbelow)
    rw [Nat.zero_add] at hmem
    exact List.mem_cons_of_mem _ hmem

/-! ### Subtrees -/

theorem mem_forestSubtrees_iff {node : Tree} {forest : List Tree} :
    node ∈ forestSubtrees forest ↔ ∃ tree ∈ forest, node ∈ tree.subtrees := by
  induction forest with
  | nil => simp [forestSubtrees]
  | cons tree rest ih =>
    rw [forestSubtrees, List.mem_append, ih]
    simp

theorem mem_subtrees_iff {tree node : Tree} :
    node ∈ tree.subtrees ↔ node = tree ∨ ∃ child ∈ tree.children, node ∈ child.subtrees := by
  cases tree
  rw [subtrees, List.mem_cons, mem_forestSubtrees_iff]
  rfl

theorem self_mem_subtrees (tree : Tree) : tree ∈ tree.subtrees :=
  mem_subtrees_iff.mpr (Or.inl rfl)

theorem mem_subtrees_of_mem_children {tree child node : Tree} (hchild : child ∈ tree.children)
    (hnode : node ∈ child.subtrees) : node ∈ tree.subtrees :=
  mem_subtrees_iff.mpr (Or.inr ⟨child, hchild, hnode⟩)

theorem exists_at?_of_mem_subtrees {tree node : Tree} (hnode : node ∈ tree.subtrees) :
    ∃ place, tree.at? place = some node := by
  induction tree using children_induction with
  | node label children ih =>
    rcases mem_subtrees_iff.mp hnode with rfl | ⟨child, hchild, hbelow⟩
    · exact ⟨[], rfl⟩
    · obtain ⟨place, hplace⟩ := ih child hchild hbelow
      obtain ⟨index, hindex⟩ := List.mem_iff_getElem?.mp hchild
      exact ⟨index :: place, at?_cons_eq_some_iff.mpr ⟨child, hindex, hplace⟩⟩

theorem subtrees_subset_of_at? {tree node : Tree} {place : Place}
    (hnode : tree.at? place = some node) : node.subtrees ⊆ tree.subtrees := by
  induction place generalizing tree with
  | nil =>
    obtain rfl := Option.some.inj hnode
    exact List.Subset.refl _
  | cons index place ih =>
    obtain ⟨child, hchild, hbelow⟩ := at?_cons_eq_some_iff.mp hnode
    intro other hother
    exact mem_subtrees_of_mem_children (List.mem_of_getElem? hchild) (ih hbelow hother)

theorem mem_subtrees_of_at? {tree node : Tree} {place : Place}
    (hnode : tree.at? place = some node) : node ∈ tree.subtrees :=
  subtrees_subset_of_at? hnode node.self_mem_subtrees

end Tree

end CanonicalTokens
