import CanonicalTokens.Proofs.Names.Alike
import Mathlib.Order.Bounds.Basic

/-!
# Where a search for names comes to

A search for names goes down from a node and decides at each one whether a name is there or to which
children it goes on. So the nodes it finds are known by their places: a way that follows only some
edges of the tree leads to a node where the search ends. No place comes twice, and the order is that
of the document, since the search takes the children from left to right.
-/

namespace CanonicalTokens

theorem Place.append_isAbove_append_iff {base outer inner : Place} :
    Place.IsAbove (base ++ outer) (base ++ inner) ↔ outer.IsAbove inner := by
  rw [IsAbove, IsAbove, List.prefix_append_right_inj, Ne, List.append_cancel_left_eq]

theorem Place.IsAbove.exists_step {outer inner : Place} (habove : outer.IsAbove inner) :
    ∃ index, outer ++ [index] <+: inner := by
  obtain ⟨⟨_ | ⟨index, rest⟩, rfl⟩, hne⟩ := habove
  · simp at hne
  · refine ⟨index, rest, ?_⟩
    rw [List.append_assoc, List.singleton_append]

theorem contains_eq_of_mem_iff {kinds others : List String}
    (hinto : ∀ kind ∈ kinds, kind ∈ others) (hback : ∀ kind ∈ others, kind ∈ kinds)
    (kind : String) : kinds.contains kind = others.contains kind := by
  rw [Bool.eq_iff_iff, List.contains_iff_mem, List.contains_iff_mem]
  exact ⟨hinto kind, hback kind⟩

/-- What the constructs of some kinds introduce, if all of them have one entry in the table. -/
theorem Rules.bound_of_lookups {rules : Rules} {kinds : List String} {binder : Binder} {tree : Tree}
    (hlookups : (kinds.map fun kind => rules.declarations.lookup kind) =
      kinds.map fun _ => some binder)
    (hkind : tree.kind ∈ kinds) : rules.bound tree = binder tree :=
  bound_of_lookup (List.map_inj_left.mp hlookups tree.kind hkind)

namespace Tree

variable {tree node child : Tree} {place way : Place} {index : Nat}

/-! ### Ways -/

/-- The way to a node, along edges from parent to child that a search follows. -/
inductive Leads (edge : Tree → Tree → Bool) : Tree → Place → Tree → Prop
  | here (tree : Tree) : Leads edge tree [] tree
  | down {tree child node : Tree} {index : Nat} {way : Place}
      (hchild : tree.children[index]? = some child) (hedge : edge tree child)
      (hway : Leads edge child way node) : Leads edge tree (index :: way) node

section

variable {edge : Tree → Tree → Bool}

theorem Leads.at? (hleads : Leads edge tree place node) : tree.at? place = some node := by
  induction hleads with
  | here => rfl
  | down hchild _ _ ih => exact at?_cons_eq_some_iff.mpr ⟨_, hchild, ih⟩

/-- Every step of a way follows an edge. -/
theorem Leads.edge_of_prefix (hleads : Leads edge tree place node) {outer : Place}
    (hstep : outer ++ [index] <+: place) :
    ∃ holder child, tree.at? outer = some holder ∧ holder.children[index]? = some child ∧
      edge holder child := by
  induction hleads generalizing outer with
  | here =>
    have hnil := List.prefix_nil.mp hstep
    simp at hnil
  | @down tree child node first way hchild hedge hway ih =>
    cases outer with
    | nil =>
      obtain ⟨rfl, -⟩ := List.cons_prefix_cons.mp hstep
      exact ⟨tree, child, rfl, hchild, hedge⟩
    | cons other outer =>
      obtain ⟨rfl, hbelow⟩ := List.cons_prefix_cons.mp hstep
      obtain ⟨holder, next, hholder, hnext, hfollowed⟩ := ih hbelow
      exact ⟨holder, next, at?_cons_eq_some_iff.mpr ⟨child, hchild, hholder⟩, hnext, hfollowed⟩

end

/-! ### Nodes in the order of the document -/

/-- The list has the nodes that are wanted at their places, each once and in document order. -/
def Enumerates (found : List Tree) (wanted : Place → Tree → Prop) : Prop :=
  ∃ entries : List (Place × Tree), entries.map Prod.snd = found ∧
    (entries.Pairwise fun first second => first.1 < second.1) ∧
    ∀ place node, (place, node) ∈ entries ↔ wanted place node

/-- The names are the texts of the nodes that are wanted, in document order and with repeats. -/
def Spells (source : Source) (names : List String) (wanted : Place → Tree → Prop) : Prop :=
  ∃ found, Enumerates found wanted ∧ names = found.map fun node => node.text source

section

variable {found : List Tree} {wanted other : Place → Tree → Prop}

theorem Enumerates.congr (hfound : Enumerates found wanted)
    (hsame : ∀ place node, wanted place node ↔ other place node) : Enumerates found other := by
  obtain ⟨entries, hnodes, hordered, hmem⟩ := hfound
  exact ⟨entries, hnodes, hordered, fun place node => (hmem place node).trans (hsame place node)⟩

theorem Enumerates.mem_iff (hfound : Enumerates found wanted) :
    node ∈ found ↔ ∃ place, wanted place node := by
  obtain ⟨entries, rfl, -, hmem⟩ := hfound
  simp only [List.mem_map, Prod.exists, exists_eq_right, hmem]

/-- An enumeration is empty exactly if there is nothing to enumerate. -/
theorem Enumerates.eq_nil_iff (hfound : Enumerates found wanted) :
    found = [] ↔ ∀ place node, ¬ wanted place node := by
  rw [List.eq_nil_iff_forall_not_mem]
  constructor
  · intro hnone place node hwanted
    exact hnone node (hfound.mem_iff.mpr ⟨place, hwanted⟩)
  · intro hnot node hmem
    obtain ⟨place, hwanted⟩ := hfound.mem_iff.mp hmem
    exact hnot place node hwanted

theorem Spells.text_mem {source : Source} {names : List String}
    (hnames : Spells source names wanted) (hwanted : wanted place node) :
    node.text source ∈ names := by
  obtain ⟨found, hfound, rfl⟩ := hnames
  exact List.mem_map.mpr ⟨node, hfound.mem_iff.mpr ⟨place, hwanted⟩, rfl⟩

theorem enumerates_nil (hnone : ∀ place node, ¬ wanted place node) : Enumerates [] wanted :=
  ⟨[], rfl, .nil, fun place node => by simp [hnone place node]⟩

theorem enumerates_singleton (place : Place)
    (hone : ∀ other found, wanted other found ↔ other = place ∧ found = node) :
    Enumerates [node] wanted := by
  refine ⟨[(place, node)], rfl, List.pairwise_singleton _ _, ?_⟩
  intro other found
  rw [List.mem_singleton, Prod.mk.injEq, hone]

/-- What is found in a child is found below its parent, one step further down. -/
theorem Enumerates.below (hfound : Enumerates found wanted) (index : Nat) :
    Enumerates found fun place node => ∃ way, place = index :: way ∧ wanted way node := by
  obtain ⟨entries, rfl, hordered, hmem⟩ := hfound
  refine ⟨entries.map fun entry => (index :: entry.1, entry.2), ?_, ?_, ?_⟩
  · rw [List.map_map]
    rfl
  · rw [List.pairwise_map]
    exact hordered.imp fun hlt => List.cons_lt_cons_iff.mpr (Or.inr ⟨rfl, hlt⟩)
  · intro place node
    rw [List.mem_map]
    constructor
    · rintro ⟨⟨way, name⟩, hentry, hsame⟩
      obtain ⟨rfl, rfl⟩ := Prod.mk.inj hsame
      exact ⟨way, rfl, (hmem way name).mp hentry⟩
    · rintro ⟨way, rfl, hway⟩
      exact ⟨(way, node), (hmem way node).mpr hway, rfl⟩

/-- Nodes that all stand before others are enumerated before them. -/
theorem Enumerates.append {front back : List Tree} (hfront : Enumerates front wanted)
    (hback : Enumerates back other)
    (hbefore : ∀ place node later next, wanted place node → other later next → place < later) :
    Enumerates (front ++ back) fun place node => wanted place node ∨ other place node := by
  obtain ⟨entries, rfl, hordered, hmem⟩ := hfront
  obtain ⟨others, rfl, hlater, hothers⟩ := hback
  refine ⟨entries ++ others, List.map_append, ?_, ?_⟩
  · rw [List.pairwise_append]
    refine ⟨hordered, hlater, ?_⟩
    rintro ⟨place, node⟩ hentry ⟨later, next⟩ hnext
    exact hbefore place node later next ((hmem place node).mp hentry)
      ((hothers later next).mp hnext)
  · intro place node
    rw [List.mem_append, hmem, hothers]

end

/-- The children that a search enters, each with what is found in it, from left to right. -/
theorem enumerates_flatMap {keep : Tree → Bool} {gather : Tree → List Tree}
    {wanted : Tree → Place → Tree → Prop} {forest : List Tree}
    (hgather : ∀ child ∈ forest, keep child → Enumerates (gather child) (wanted child)) :
    Enumerates ((forest.filter keep).flatMap gather) fun place node =>
      ∃ index child way, place = index :: way ∧ forest[index]? = some child ∧ keep child ∧
        wanted child way node := by
  -- The places of the later children are counted from where they stand in the whole forest.
  suffices hfrom : ∀ start, Enumerates ((forest.filter keep).flatMap gather) fun place node =>
      ∃ index child way, place = (start + index) :: way ∧ forest[index]? = some child ∧
        keep child ∧ wanted child way node by
    simpa only [Nat.zero_add] using hfrom 0
  induction forest with
  | nil =>
    intro start
    exact enumerates_nil (by simp)
  | cons first rest ih =>
    intro start
    have hrest := ih (fun child hchild => hgather child (List.mem_cons_of_mem first hchild))
      (start + 1)
    have hfirst : Enumerates (if keep first then gather first else []) fun place node =>
        ∃ way, place = start :: way ∧ keep first ∧ wanted first way node := by
      split
      next hkeep =>
        refine ((hgather first List.mem_cons_self hkeep).below start).congr ?_
        simp [hkeep]
      next hkeep => exact enumerates_nil (by simp [hkeep])
    have hsplit : ((first :: rest).filter keep).flatMap gather =
        (if keep first then gather first else []) ++ (rest.filter keep).flatMap gather := by
      rw [List.filter_cons]
      split <;> simp
    rw [hsplit]
    refine (hfirst.append hrest ?_).congr ?_
    · rintro place node later next ⟨way, rfl, -, -⟩ ⟨index, child, other, rfl, -, -, -⟩
      exact List.cons_lt_cons_iff.mpr (Or.inl (by omega))
    · intro place node
      constructor
      · rintro (⟨way, rfl, hkeep, hway⟩ | ⟨index, child, way, rfl, hchild, hkeep, hway⟩)
        · exact ⟨0, first, way, rfl, rfl, hkeep, hway⟩
        · exact ⟨index + 1, child, way, by rw [Nat.add_right_comm, Nat.add_assoc], hchild, hkeep,
            hway⟩
      · rintro ⟨_ | index, child, way, rfl, hchild, hkeep, hway⟩
        · obtain rfl : first = child := Option.some.inj hchild
          exact Or.inl ⟨way, rfl, hkeep, hway⟩
        · exact Or.inr ⟨index, child, way, by rw [Nat.add_right_comm, Nat.add_assoc], hchild,
            hkeep, hway⟩

/-! ### The first child under a field -/

structure FirstUnder (field : String) (tree : Tree) (index : Nat) (child : Tree) : Prop where
  child_at : tree.children[index]? = some child
  first : IsLeast {other | ∃ held, tree.children[other]? = some held ∧ held.isUnder field} index

theorem exists_firstUnder {field : String} (hchild : tree.childUnder? field = some child) :
    ∃ index, tree.FirstUnder field index child := by
  obtain ⟨hunder, index, hlt, rfl, hbefore⟩ := List.find?_eq_some_iff_getElem.mp hchild
  refine ⟨index, List.getElem?_eq_getElem hlt, ⟨_, List.getElem?_eq_getElem hlt, hunder⟩, ?_⟩
  rintro other ⟨held, hheld, hother⟩
  by_contra hlater
  obtain ⟨hinside, rfl⟩ := List.getElem?_eq_some_iff.mp hheld
  have hnot := hbefore other (Nat.lt_of_not_le hlater)
  rw [hother] at hnot
  cases hnot

theorem FirstUnder.unique {field : String} {other : Nat} {held : Tree}
    (hfirst : tree.FirstUnder field index child) (hsame : tree.FirstUnder field other held) :
    other = index ∧ held = child := by
  obtain rfl := hfirst.first.unique hsame.first
  exact ⟨rfl, Option.some.inj (hsame.child_at.symm.trans hfirst.child_at)⟩

theorem not_firstUnder {field : String} (hnone : tree.childUnder? field = none) :
    ¬ tree.FirstUnder field index child := by
  intro hfirst
  obtain ⟨held, hheld, hunder⟩ := hfirst.first.1
  exact List.find?_eq_none.mp hnone held (List.mem_of_getElem? hheld) hunder

/-- What is found in the first child under a field. -/
theorem enumerates_childUnder {field : String} {gather : Tree → List Tree}
    {wanted : Tree → Place → Tree → Prop} (tree : Tree)
    (hgather : ∀ child, Enumerates (gather child) (wanted child)) :
    Enumerates ((tree.childUnder? field).toList.flatMap gather) fun place node =>
      ∃ index child way, place = index :: way ∧ tree.FirstUnder field index child ∧
        wanted child way node := by
  cases hchild : tree.childUnder? field with
  | none =>
    refine enumerates_nil ?_
    rintro place node ⟨index, child, way, -, hfirst, -⟩
    exact not_firstUnder hchild hfirst
  | some child =>
    obtain ⟨index, hfirst⟩ := exists_firstUnder hchild
    rw [Option.toList_some, List.flatMap_singleton]
    refine ((hgather child).below index).congr ?_
    intro place node
    constructor
    · rintro ⟨way, rfl, hway⟩
      exact ⟨index, child, way, rfl, hfirst, hway⟩
    · rintro ⟨other, held, way, rfl, hother, hway⟩
      obtain ⟨rfl, rfl⟩ := hfirst.unique hother
      exact ⟨way, rfl, hway⟩

/-! ### Searches -/

inductive ReachesBy (edge : Tree → Tree → Bool) (ends : Tree → Place → Tree → Prop) (tree : Tree) :
    Place → Tree → Prop
  | intro {outer inner : Place} {holder name : Tree} (hway : tree.Leads edge outer holder)
      (hends : ends holder inner name) : ReachesBy edge ends tree (outer ++ inner) name

section

variable {edge : Tree → Tree → Bool} {ends : Tree → Place → Tree → Prop} {name : Tree}

/-- A name is where the search ends at once, or further down in a child that it goes on to. -/
theorem reachesBy_iff :
    ReachesBy edge ends tree place name ↔
      ends tree place name ∨ ∃ index child way, place = index :: way ∧
        tree.children[index]? = some child ∧ edge tree child ∧
        ReachesBy edge ends child way name := by
  constructor
  · rintro ⟨hway, hends⟩
    cases hway with
    | here => exact Or.inl hends
    | down hchild hedge hway => exact Or.inr ⟨_, _, _, rfl, hchild, hedge, .intro hway hends⟩
  · rintro (hends | ⟨index, child, way, rfl, hchild, hedge, ⟨hway, hends⟩⟩)
    · exact .intro (.here tree) hends
    · exact .intro (.down hchild hedge hway) hends

/-- A search that ends at a node with the names there, or else goes on to some of its children,
enumerates the names that it reaches. -/
theorem enumerates_search {own search : Tree → List Tree}
    (hown : ∀ node, Enumerates (own node) (ends node))
    (hsearch : ∀ node ∈ tree.subtrees,
      search node = own node ++ (node.children.filter (edge node)).flatMap search)
    (hapart : ∀ node child, edge node child → own node = []) :
    Enumerates (search tree) (ReachesBy edge ends tree) := by
  induction tree using children_induction with
  | node label children ih =>
    have hchildren : ∀ child ∈ children, edge (node label children) child →
        Enumerates (search child) (ReachesBy edge ends child) := by
      intro child hchild _
      apply ih child hchild
      intro node hnode
      exact hsearch node (mem_subtrees_of_mem_children hchild hnode)
    have hbelow := enumerates_flatMap hchildren
    rw [hsearch _ (self_mem_subtrees _)]
    -- Names are found either here or in the children, so the two parts are never put together.
    by_cases hedges : ∃ child, edge (node label children) child
    · obtain ⟨child, hedge⟩ := hedges
      have hnone := hapart _ child hedge
      have hends := hown (node label children)
      rw [hnone] at hends ⊢
      refine hbelow.congr ?_
      intro place name
      rw [reachesBy_iff, or_iff_right (hends.eq_nil_iff.mp rfl place name)]
      rfl
    · have hnone : children.filter (edge (node label children)) = [] := by
        rw [List.filter_eq_nil_iff]
        exact fun child _ hedge => hedges ⟨child, hedge⟩
      have hends : own (node label children) ++
          ((node label children).children.filter (edge (node label children))).flatMap search =
          own (node label children) := by
        rw [Tree.children, hnone, List.flatMap_nil, List.append_nil]
      rw [hends]
      refine (hown _).congr ?_
      intro place name
      rw [reachesBy_iff, or_iff_left]
      rintro ⟨index, child, way, -, -, hedge, -⟩
      exact hedges ⟨child, hedge⟩

end

/-! ### Outermost nodes of some kinds -/

/-- The place of a node of some kinds that has no node of these kinds above it, and to which named
nodes lead. -/
structure OutermostKindAt (kinds : List String) (tree : Tree) (place : Place) (node : Tree) :
    Prop where
  at_place : tree.at? place = some node
  kind_mem : node.kind ∈ kinds
  outermost : ∀ outer holder, outer.IsAbove place → tree.at? outer = some holder →
    holder.kind ∉ kinds
  named : ∀ inner below, inner ≠ [] → inner <+: place → tree.at? inner = some below →
    below.isNamed

section

variable {kinds : List String}

theorem outermostKindAt_nil_iff :
    OutermostKindAt kinds tree [] node ↔ node = tree ∧ tree.kind ∈ kinds := by
  constructor
  · intro hnode
    obtain rfl := Option.some.inj hnode.at_place
    exact ⟨rfl, hnode.kind_mem⟩
  · rintro ⟨rfl, hkind⟩
    refine ⟨rfl, hkind, ?_, ?_⟩
    · intro outer holder habove
      exact absurd habove Place.not_isAbove_nil
    · intro inner below hne hinitial
      exact absurd (List.prefix_nil.mp hinitial) hne

/-- An outermost node of a kind in a tree is one of a named child, if the tree itself is not of the
kind. -/
theorem outermostKindAt_cons_iff :
    OutermostKindAt kinds tree (index :: way) node ↔
      tree.kind ∉ kinds ∧ ∃ child, tree.children[index]? = some child ∧ child.isNamed ∧
        OutermostKindAt kinds child way node := by
  constructor
  · rintro ⟨hplace, hkind, houtermost, hnamed⟩
    obtain ⟨child, hchild, hbelow⟩ := at?_cons_eq_some_iff.mp hplace
    obtain ⟨hroot, habove⟩ := (forall_above_cons_iff hchild).mp houtermost
    have hinto : ∀ inner below, child.at? inner = some below →
        tree.at? (index :: inner) = some below := by
      intro inner below hinner
      exact at?_cons_eq_some_iff.mpr ⟨child, hchild, hinner⟩
    refine ⟨hroot, child, hchild, ?_, hbelow, hkind, habove, ?_⟩
    · exact hnamed [index] child (List.cons_ne_nil _ _)
        (List.cons_prefix_cons.mpr ⟨rfl, List.nil_prefix⟩) (hinto [] child rfl)
    · intro inner below _ hinitial hinner
      exact hnamed (index :: inner) below (List.cons_ne_nil _ _)
        (List.cons_prefix_cons.mpr ⟨rfl, hinitial⟩) (hinto inner below hinner)
  · rintro ⟨hroot, child, hchild, hnamed, hbelow⟩
    refine ⟨at?_cons_eq_some_iff.mpr ⟨child, hchild, hbelow.at_place⟩, hbelow.kind_mem,
      (forall_above_cons_iff hchild).mpr ⟨hroot, hbelow.outermost⟩, ?_⟩
    rintro (_ | ⟨first, inner⟩) below hne hinitial hinner
    · exact absurd rfl hne
    obtain ⟨rfl, hway⟩ := List.cons_prefix_cons.mp hinitial
    obtain ⟨other, hother, hinner⟩ := at?_cons_eq_some_iff.mp hinner
    obtain rfl := Option.some.inj (hchild.symm.trans hother)
    by_cases htop : inner = []
    · subst htop
      obtain rfl := Option.some.inj hinner
      exact hnamed
    · exact hbelow.named inner below htop hway hinner

/-- The search for the outermost nodes of some kinds finds these and no others. -/
theorem enumerates_outermost (kinds : List String) (tree : Tree) :
    Enumerates (tree.outermost kinds) (OutermostKindAt kinds tree) := by
  induction tree using children_induction with
  | node label children ih =>
    by_cases hkind : (node label children).kind ∈ kinds
    · have hfound : (node label children).outermost kinds = [node label children] := by
        have hlabel : kinds.contains label.kind := List.contains_iff_mem.mpr hkind
        rw [outermost, if_pos hlabel]
      rw [hfound]
      refine enumerates_singleton [] ?_
      rintro (_ | ⟨index, way⟩) found
      · rw [outermostKindAt_nil_iff]
        simp [hkind]
      · rw [outermostKindAt_cons_iff]
        simp [hkind]
    · rw [outermost_eq hkind]
      have hchildren : ∀ child ∈ children, child.isNamed →
          Enumerates (child.outermost kinds) (OutermostKindAt kinds child) :=
        fun child hchild _ => ih child hchild
      refine (enumerates_flatMap hchildren).congr ?_
      rintro (_ | ⟨index, way⟩) found
      · rw [outermostKindAt_nil_iff]
        simp [hkind]
      · rw [outermostKindAt_cons_iff]
        simp [hkind, Tree.children]

end

end Tree

end CanonicalTokens
