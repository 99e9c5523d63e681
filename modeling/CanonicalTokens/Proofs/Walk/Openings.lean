import CanonicalTokens.Proofs.Walk.Nesting
import CanonicalTokens.Proofs.Walk.Reached
import Mathlib.Data.Set.Card
import Mathlib.Order.Bounds.Basic

/-!
# How many scopes a walk opens

Under boundaries by constructs, a walk opens a scope for every node of a certain kind that it
enters, and the greatest depth is reached where most of these nodes are on one path from the root.
So the tally of a walk can be read off the tree.

The kind alone decides, and not whether the node is named. A keyword may share its kind with the
construct that it introduces, as `lambda` does in Python. Such a construct counts for two scopes:
the tally counts constructs exactly if the walk enters no anonymous token of such a kind.
-/

namespace CanonicalTokens

namespace OpenScopes

/-- Declaring names changes nothing in a tally but the number of names declared. -/
theorem tally_declareAll (stack : OpenScopes) (names : List String) :
    ∃ declared, (stack.declareAll names).tally = { stack.tally with declared := declared } := by
  unfold declareAll
  induction names generalizing stack with
  | nil => exact ⟨stack.tally.declared, rfl⟩
  | cons name names ih =>
    obtain ⟨declared, htally⟩ := ih (stack.declare name)
    refine ⟨declared, ?_⟩
    rw [List.foldl_cons, htally]
    unfold declare
    split <;> rfl

@[simp]
theorem depth_declareAll (stack : OpenScopes) (names : List String) :
    (stack.declareAll names).depth = stack.depth := by
  rw [depth, depth, enclosing_declareAll]

@[simp]
theorem opened_pop (stack : OpenScopes) : stack.pop.tally.opened = stack.tally.opened := by
  unfold pop
  split <;> rfl

@[simp]
theorem maxDepth_pop (stack : OpenScopes) : stack.pop.tally.maxDepth = stack.tally.maxDepth := by
  unfold pop
  split <;> rfl

end OpenScopes

namespace Walk

variable {walk : Walk} {kinds : List String} {counts : Tree → Bool} {tree node : Tree}
  {place : Place} {state : State} {scopes : OpenScopes}

/-! ### Nodes that open scopes -/

/-- The places of the nodes of some kinds that the walk enters, of those that count. -/
def openings (walk : Walk) (kinds : List String) (counts : Tree → Bool) (tree : Tree) : Set Place :=
  {place | ∃ node, walk.Entered tree place node ∧ node.kind ∈ kinds ∧ counts node}

/-- A tally counts one scope for each of these nodes, and its greatest depth is that of the root
scope and of those on the path with most of them. -/
structure CountsOpenings (walk : Walk) (kinds : List String) (counts : Tree → Bool) (tree : Tree)
    (tally : ScopeTally) : Prop where
  opened : (walk.openings kinds counts tree).encard = tally.opened
  maxDepth : IsGreatest {depth : ℕ∞ | ∃ place node, tree.at? place = some node ∧
    depth = 1 + {outer ∈ walk.openings kinds counts tree | outer <+: place}.encard} tally.maxDepth

theorem nil_mem_openings_iff :
    [] ∈ walk.openings kinds counts tree ↔
      walk.part tree = .construct ∧ tree.kind ∈ kinds ∧ counts tree := by
  constructor
  · rintro ⟨node, hentered, hcounts⟩
    obtain ⟨rfl, hpart⟩ := entered_nil_iff.mp hentered
    exact ⟨hpart, hcounts⟩
  · rintro ⟨hpart, hcounts⟩
    exact ⟨tree, entered_nil_iff.mpr ⟨rfl, hpart⟩, hcounts⟩

theorem cons_mem_openings_iff {index : Nat} :
    index :: place ∈ walk.openings kinds counts tree ↔
      walk.part tree = .construct ∧ ∃ child, tree.children[index]? = some child ∧
        place ∈ walk.openings kinds counts child := by
  constructor
  · rintro ⟨node, hentered, hcounts⟩
    obtain ⟨hpart, child, hchild, hentered⟩ := entered_cons_iff.mp hentered
    exact ⟨hpart, child, hchild, node, hentered, hcounts⟩
  · rintro ⟨hpart, child, hchild, node, hentered, hcounts⟩
    exact ⟨node, entered_cons_iff.mpr ⟨hpart, child, hchild, hentered⟩, hcounts⟩

def opens (walk : Walk) (kinds : List String) (counts : Tree → Bool) (node : Tree) : Bool :=
  walk.part node = .construct && kinds.contains node.kind && counts node

theorem opens_iff :
    walk.opens kinds counts node ↔
      walk.part node = .construct ∧ node.kind ∈ kinds ∧ counts node := by
  simp [opens, and_assoc]

/-- Each opening is met once on the way of the walk. -/
theorem encard_openings (walk : Walk) (kinds : List String) (counts : Tree → Bool) (tree : Tree) :
    (walk.openings kinds counts tree).encard =
      (walk.reached [] tree).countP fun entry => walk.opens kinds counts entry.2 := by
  have hnodup : (((walk.reached [] tree).filter fun entry =>
      walk.opens kinds counts entry.2).map Prod.fst).Nodup := by
    rw [List.Nodup, List.pairwise_map]
    apply ((pairwise_reached [] tree).filter _).imp
    intro first second hlt hsame
    exact List.lt_irrefl second.1 (hsame ▸ hlt)
  have hset : walk.openings kinds counts tree =
      ↑(((walk.reached [] tree).filter fun entry =>
        walk.opens kinds counts entry.2).map Prod.fst).toFinset := by
    ext place
    rw [List.coe_toFinset]
    constructor
    · rintro ⟨node, hentered, hcounts⟩
      have hmem := mem_reached_iff.mpr hentered.toVisited
      exact List.mem_map.mpr ⟨(place, node),
        List.mem_filter.mpr ⟨hmem, opens_iff.mpr ⟨hentered.construct, hcounts⟩⟩, rfl⟩
    · intro hmem
      obtain ⟨⟨_, node⟩, hentry, rfl⟩ := List.mem_map.mp hmem
      obtain ⟨hmem, hopens⟩ := List.mem_filter.mp hentry
      obtain ⟨hpart, hcounts⟩ := opens_iff.mp hopens
      exact ⟨node, ⟨mem_reached_iff.mp hmem, hpart⟩, hcounts⟩
  rw [hset, Set.encard_coe_eq_coe_finsetCard, List.toFinset_card_of_nodup hnodup, List.length_map,
    List.countP_eq_length_filter]

def openingsAlong (walk : Walk) (kinds : List String) (counts : Tree → Bool) : Tree → Place → Nat
  | tree, [] => (walk.opens kinds counts tree).toNat
  | tree, index :: place =>
    (walk.opens kinds counts tree).toNat +
      if walk.part tree = .construct then
        (tree.children[index]?).elim 0 fun child => openingsAlong walk kinds counts child place
      else 0

theorem openings_along_nil :
    {outer ∈ walk.openings kinds counts tree | outer <+: []} =
      if walk.opens kinds counts tree then {[]} else ∅ := by
  ext outer
  split
  next hopens =>
    constructor
    · rintro ⟨-, hinitial⟩
      exact List.prefix_nil.mp hinitial
    · rintro rfl
      exact ⟨nil_mem_openings_iff.mpr (opens_iff.mp hopens), List.nil_prefix⟩
  next hopens =>
    rw [Set.mem_empty_iff_false, iff_false]
    rintro ⟨hmem, hinitial⟩
    rw [List.prefix_nil.mp hinitial] at hmem
    exact hopens (opens_iff.mpr (nil_mem_openings_iff.mp hmem))

/-- Along a way into a child there are the opening of the tree itself and those inside the child. -/
theorem openings_along_cons {index : Nat} :
    {outer ∈ walk.openings kinds counts tree | outer <+: index :: place} =
      {outer ∈ walk.openings kinds counts tree | outer <+: []} ∪
        (index :: ·) '' {outer | walk.part tree = .construct ∧
          ∃ child, tree.children[index]? = some child ∧
            outer ∈ walk.openings kinds counts child ∧ outer <+: place} := by
  ext outer
  constructor
  · rintro ⟨hmem, hinitial⟩
    cases outer with
    | nil => exact Or.inl ⟨hmem, List.nil_prefix⟩
    | cons first outer =>
      obtain ⟨rfl, hbelow⟩ := List.cons_prefix_cons.mp hinitial
      obtain ⟨hpart, child, hchild, hmem⟩ := cons_mem_openings_iff.mp hmem
      exact Or.inr ⟨outer, ⟨hpart, child, hchild, hmem, hbelow⟩, rfl⟩
  · rintro (⟨hmem, hinitial⟩ | ⟨below, ⟨hpart, child, hchild, hmem, hinitial⟩, rfl⟩)
    · exact ⟨hmem, hinitial.trans List.nil_prefix⟩
    · exact ⟨cons_mem_openings_iff.mpr ⟨hpart, child, hchild, hmem⟩,
        List.cons_prefix_cons.mpr ⟨rfl, hinitial⟩⟩

/-- The openings on a path can be counted step by step. -/
theorem encard_openings_along (walk : Walk) (kinds : List String) (counts : Tree → Bool)
    (tree : Tree) (place : Place) :
    {outer ∈ walk.openings kinds counts tree | outer <+: place}.encard =
      walk.openingsAlong kinds counts tree place := by
  have hroot : ∀ tree, {outer ∈ walk.openings kinds counts tree | outer <+: []}.encard =
      ((walk.opens kinds counts tree).toNat : ℕ∞) := by
    intro tree
    rw [openings_along_nil]
    split
    next hopens => simp [hopens]
    next hopens => simp [hopens]
  induction place generalizing tree with
  | nil => exact hroot tree
  | cons index place ih =>
    rw [openings_along_cons, Set.encard_union_eq, hroot, openingsAlong, Nat.cast_add,
      (List.cons_injective).encard_image]
    · congr 1
      split
      next hpart =>
        cases hchild : tree.children[index]? with
        | none => simp
        | some child =>
          rw [Option.elim_some, ← ih child]
          congr 1
          ext outer
          simp [hpart]
      next hpart => simp [hpart]
    · rw [Set.disjoint_left]
      rintro outer ⟨-, hinitial⟩ ⟨below, -, hcons⟩
      rw [← hcons] at hinitial
      cases List.prefix_nil.mp hinitial

/-! ### The tally of a walk -/

theorem opens_eq_bounds (hboundary : walk.boundary = .constructs kinds)
    (hpart : walk.part node = .construct) :
    walk.opens kinds (fun _ => true) node = walk.bounds node := by
  rw [opens, bounds, hboundary, hpart]
  simp

theorem depth_openConstruct (node : Tree) (scopes : OpenScopes) :
    (walk.openConstruct node scopes).depth = scopes.depth + (walk.bounds node).toNat := by
  rw [openConstruct, OpenScopes.depth_declareAll]
  split <;> simp_all

theorem opened_openConstruct (node : Tree) (scopes : OpenScopes) :
    (walk.openConstruct node scopes).tally.opened =
      scopes.tally.opened + (walk.bounds node).toNat := by
  obtain ⟨declared, htally⟩ := OpenScopes.tally_declareAll
    (if walk.bounds node then scopes.push else scopes)
    (walk.rules.declaredNames walk.source node)
  rw [openConstruct, htally]
  split <;> simp_all [OpenScopes.push]

theorem maxDepth_openConstruct (node : Tree) {scopes : OpenScopes}
    (hdepth : scopes.depth ≤ scopes.tally.maxDepth) :
    (walk.openConstruct node scopes).tally.maxDepth =
      max scopes.tally.maxDepth (scopes.depth + (walk.bounds node).toNat) := by
  obtain ⟨declared, htally⟩ := OpenScopes.tally_declareAll
    (if walk.bounds node then scopes.push else scopes)
    (walk.rules.declaredNames walk.source node)
  rw [openConstruct, htally]
  split <;> simp_all [OpenScopes.push]

theorem opened_leave (node : Tree) (state : State) :
    (walk.leave node state).scopes.tally.opened = state.scopes.tally.opened := by
  unfold leave
  split
  · exact state.scopes.opened_pop
  · rfl

theorem maxDepth_leave (node : Tree) (state : State) :
    (walk.leave node state).scopes.tally.maxDepth = state.scopes.tally.maxDepth := by
  unfold leave
  split
  · exact state.scopes.maxDepth_pop
  · rfl

mutual

/-- Behind a tree, as many more scopes have been opened as the walk has entered nodes that open
one. -/
theorem opened_fold (hboundary : walk.boundary = .constructs kinds) (base : Place) (tree : Tree)
    (state : State) :
    (walk.visitor.fold tree state).scopes.tally.opened = state.scopes.tally.opened +
      (walk.reached base tree).countP fun entry => walk.opens kinds (fun _ => true) entry.2 := by
  match tree with
  | .node label children =>
    by_cases hpart : walk.part (.node label children) = .construct
    · have hforest := opened_foldForest hboundary base 0 children
        (walk.enter (.node label children) state).1
      rw [scopes_enter_of_construct hboundary hpart, opened_openConstruct] at hforest
      rw [fold_of_construct hpart, opened_leave, Tree.children, hforest,
        reached_of_construct hpart, List.countP_cons, Tree.children,
        opens_eq_bounds hboundary hpart]
      cases walk.bounds (.node label children)
      · rfl
      · exact Nat.add_right_comm _ _ _
    · rw [fold_of_part_ne hpart, scopes_enter_of_passed hpart, reached_of_part_ne hpart]
      simp [opens, hpart]

/-- A forest opens one scope for each node that the walk enters in it and that opens one. -/
theorem opened_foldForest (hboundary : walk.boundary = .constructs kinds) (base : Place)
    (start : Nat) (forest : List Tree) (state : State) :
    (walk.visitor.foldForest forest state).scopes.tally.opened = state.scopes.tally.opened +
      (walk.forestReached base start forest).countP
        fun entry => walk.opens kinds (fun _ => true) entry.2 := by
  match forest with
  | [] =>
    rw [Visitor.foldForest, forestReached]
    rfl
  | tree :: rest =>
    rw [Visitor.foldForest, opened_foldForest hboundary base (start + 1) rest,
      opened_fold hboundary (base ++ [start]) tree state, forestReached, List.countP_append,
      Nat.add_assoc]

end

theorem depth_fold (hboundary : walk.boundary = .constructs kinds) (tree : Tree) (state : State) :
    (walk.visitor.fold tree state).scopes.depth = state.scopes.depth := by
  rw [OpenScopes.depth, OpenScopes.depth, (gains_fold hboundary tree state).enclosing]

/-- The openings along the paths in a construct are its own and those along the paths in its
children. -/
theorem forall_openingsAlong_iff (hpart : walk.part tree = .construct) (depth bound : Nat) :
    (∀ place node, tree.at? place = some node →
        depth + walk.openingsAlong kinds counts tree place ≤ bound) ↔
      depth + (walk.opens kinds counts tree).toNat ≤ bound ∧
        ∀ child ∈ tree.children, ∀ place node, child.at? place = some node →
          depth + (walk.opens kinds counts tree).toNat +
            walk.openingsAlong kinds counts child place ≤ bound := by
  constructor
  · intro hall
    refine ⟨hall [] tree rfl, ?_⟩
    intro child hmem place node hnode
    obtain ⟨index, hchild⟩ := List.mem_iff_getElem?.mp hmem
    have hle := hall (index :: place) node (Tree.at?_cons_eq_some_iff.mpr ⟨child, hchild, hnode⟩)
    rw [openingsAlong, if_pos hpart, hchild, Option.elim_some, ← Nat.add_assoc] at hle
    exact hle
  · rintro ⟨hroot, hchildren⟩ (_ | ⟨index, place⟩) node hnode
    · exact hroot
    · obtain ⟨child, hchild, hbelow⟩ := Tree.at?_cons_eq_some_iff.mp hnode
      rw [openingsAlong, if_pos hpart, hchild, Option.elim_some, ← Nat.add_assoc]
      exact hchildren child (List.mem_of_getElem? hchild) place node hbelow

theorem openingsAlong_of_part_ne (hpart : walk.part tree ≠ .construct) (place : Place) :
    walk.openingsAlong kinds counts tree place = 0 := by
  cases place <;> simp [openingsAlong, opens, hpart]

mutual

/-- The greatest depth behind a tree, told by what is no less: it is that in front of the tree or
one that is reached along a path in it. -/
theorem maxDepth_fold_le_iff (hboundary : walk.boundary = .constructs kinds) (tree : Tree)
    {state : State} (hdepth : state.scopes.depth ≤ state.scopes.tally.maxDepth) (bound : Nat) :
    (walk.visitor.fold tree state).scopes.tally.maxDepth ≤ bound ↔
      state.scopes.tally.maxDepth ≤ bound ∧ ∀ place node, tree.at? place = some node →
        state.scopes.depth + walk.openingsAlong kinds (fun _ => true) tree place ≤ bound := by
  match tree with
  | .node label children =>
    by_cases hpart : walk.part (.node label children) = .construct
    · have hentered := @scopes_enter_of_construct walk _ state kinds hboundary hpart
      have hopened := @maxDepth_openConstruct walk (.node label children) _ hdepth
      have hforest := @maxDepth_foldForest_le_iff hboundary children
        (walk.enter (.node label children) state).1
      rw [hentered, depth_openConstruct, hopened] at hforest
      rw [fold_of_construct hpart, maxDepth_leave, forall_openingsAlong_iff hpart, Tree.children,
        hforest (Nat.le_max_right _ _), opens_eq_bounds hboundary hpart, Nat.max_le, and_assoc]
    · rw [fold_of_part_ne hpart, scopes_enter_of_passed hpart]
      simp only [openingsAlong_of_part_ne hpart, Nat.add_zero]
      constructor
      · exact fun hle => ⟨hle, fun _ _ _ => Nat.le_trans hdepth hle⟩
      · exact And.left

/-- The depth in a forest stays within a bound if and only if it does on each path into one of its
trees. -/
theorem maxDepth_foldForest_le_iff (hboundary : walk.boundary = .constructs kinds)
    (forest : List Tree) {state : State}
    (hdepth : state.scopes.depth ≤ state.scopes.tally.maxDepth) (bound : Nat) :
    (walk.visitor.foldForest forest state).scopes.tally.maxDepth ≤ bound ↔
      state.scopes.tally.maxDepth ≤ bound ∧ ∀ tree ∈ forest, ∀ place node,
        tree.at? place = some node →
          state.scopes.depth + walk.openingsAlong kinds (fun _ => true) tree place ≤ bound := by
  match forest with
  | [] =>
    rw [Visitor.foldForest]
    simp
  | tree :: rest =>
    have hfirst := maxDepth_fold_le_iff hboundary tree hdepth
    have hkept : state.scopes.tally.maxDepth ≤
        (walk.visitor.fold tree state).scopes.tally.maxDepth :=
      ((hfirst _).mp (Nat.le_refl _)).1
    have hbehind := depth_fold hboundary tree state
    have hrest := @maxDepth_foldForest_le_iff hboundary rest (walk.visitor.fold tree state)
    rw [hbehind] at hrest
    rw [Visitor.foldForest, hrest (Nat.le_trans hdepth hkept), hfirst, List.forall_mem_cons,
      and_assoc]

end

theorem maxDepth_run_le_iff (hboundary : walk.boundary = .constructs kinds) (tree : Tree)
    (bound : Nat) :
    (walk.run tree).tally.maxDepth ≤ bound ↔ 1 ≤ bound ∧ ∀ place node,
      tree.at? place = some node →
        1 + walk.openingsAlong kinds (fun _ => true) tree place ≤ bound := by
  rw [run, Visitor.traverse_eq_fold]
  exact @maxDepth_fold_le_iff walk kinds hboundary tree .initial (Nat.le_refl 1) bound

/-- Some path reaches the greatest depth. -/
theorem exists_deepest (hboundary : walk.boundary = .constructs kinds) (tree : Tree) :
    ∃ place node, tree.at? place = some node ∧
      (walk.run tree).tally.maxDepth =
        1 + walk.openingsAlong kinds (fun _ => true) tree place := by
  by_contra hnone
  have hreached := ((maxDepth_run_le_iff hboundary tree _).mp (Nat.le_refl _)).2
  -- If no path led to the greatest depth, one less would be a bound as well.
  have hshort : ∀ place node, tree.at? place = some node →
      1 + walk.openingsAlong kinds (fun _ => true) tree place ≤
        (walk.run tree).tally.maxDepth - 1 := by
    intro place node hnode
    have hle := hreached place node hnode
    have hne : (walk.run tree).tally.maxDepth ≠
        1 + walk.openingsAlong kinds (fun _ => true) tree place :=
      fun hsame => hnone ⟨place, node, hnode, hsame⟩
    omega
  have hroot := hshort [] tree rfl
  have hbound := (maxDepth_run_le_iff hboundary tree _).mpr ⟨by omega, hshort⟩
  omega

/-- The tally of a walk counts every node of a kind that bounds scopes, named or not. -/
theorem countsOpenings_run (hboundary : walk.boundary = .constructs kinds) (tree : Tree) :
    walk.CountsOpenings kinds (fun _ => true) tree (walk.run tree).tally := by
  constructor
  · rw [encard_openings, run, Visitor.traverse_eq_fold, opened_fold hboundary [] tree]
    simp [State.initial, OpenScopes.initial]
  · simp only [encard_openings_along]
    constructor
    · obtain ⟨place, node, hnode, hdeepest⟩ := exists_deepest hboundary tree
      exact ⟨place, node, hnode, by exact_mod_cast hdeepest⟩
    · rintro depth ⟨place, node, hnode, rfl⟩
      have hreached := ((maxDepth_run_le_iff hboundary tree _).mp (Nat.le_refl _)).2
      exact_mod_cast hreached place node hnode

/-- What a tally says of a tree: one opened scope for every node of a kind that bounds scopes, and
as great a depth as there are such nodes on one path. These nodes are named, and the tally counts
constructs, if and only if the walk enters no anonymous token of such a kind. -/
theorem tally_counts_openings (hboundary : walk.boundary = .constructs kinds) (tree : Tree) :
    walk.CountsOpenings kinds (fun _ => true) tree (walk.run tree).tally ∧
      (walk.CountsOpenings kinds Tree.isNamed tree (walk.run tree).tally ↔
        ∀ place node, walk.Entered tree place node → node.kind ∈ kinds → node.isNamed) := by
  have hall := countsOpenings_run hboundary tree
  have hsubset : walk.openings kinds Tree.isNamed tree ⊆
      walk.openings kinds (fun _ => true) tree := by
    rintro place ⟨node, hentered, hkind, -⟩
    exact ⟨node, hentered, hkind, rfl⟩
  refine ⟨hall, ?_, ?_⟩
  · intro hnamed place node hentered hkind
    have hsame : walk.openings kinds Tree.isNamed tree =
        walk.openings kinds (fun _ => true) tree :=
      (Set.finite_of_encard_eq_coe hnamed.opened).eq_of_subset_of_encard_le hsubset
        (le_of_eq (hall.opened.trans hnamed.opened.symm))
    have hmem : place ∈ walk.openings kinds (fun _ => true) tree := ⟨node, hentered, hkind, rfl⟩
    rw [← hsame] at hmem
    obtain ⟨other, hother, -, hcounts⟩ := hmem
    obtain rfl := Option.some.inj (hentered.at_place.symm.trans hother.at_place)
    exact hcounts
  · intro hnamed
    have hsame : walk.openings kinds Tree.isNamed tree =
        walk.openings kinds (fun _ => true) tree := by
      apply hsubset.antisymm
      rintro place ⟨node, hentered, hkind, -⟩
      exact ⟨node, hentered, hkind, hnamed place node hentered hkind⟩
    exact ⟨hsame ▸ hall.opened, hsame ▸ hall.maxDepth⟩

/-- The tree of `def f(): [x for x in y]`. -/
def functionTree : Tree :=
  .node (.sound "function_definition" true 0 23 none) [
    .node (.sound "def" false 0 3 none) [],
    .node (.sound "identifier" true 4 5 (some "name")) [],
    .node (.sound "parameters" true 5 7 (some "parameters")) [
      .node (.sound "(" false 5 6 none) [],
      .node (.sound ")" false 6 7 none) []],
    .node (.sound ":" false 7 8 none) [],
    .node (.sound "list_comprehension" true 9 23 (some "body")) [
      .node (.sound "[" false 9 10 none) [],
      .node (.sound "identifier" true 10 11 (some "body")) [],
      .node (.sound "for_in_clause" true 12 22 none) [
        .node (.sound "for" false 12 15 none) [],
        .node (.sound "identifier" true 16 17 (some "left")) [],
        .node (.sound "in" false 18 20 none) [],
        .node (.sound "identifier" true 21 22 (some "right")) []],
      .node (.sound "]" false 22 23 none) []]]

def functionWalk : Walk :=
  ⟨.ofString "def f(): [x for x in y]", Language.python.rules, .standard⟩

/-- A function and a comprehension in it open a scope each, one inside the other. -/
theorem function_opens_once_each :
    functionWalk.boundary = .constructs Language.python.rules.scopes ∧
      (functionWalk.openings Language.python.rules.scopes Tree.isNamed functionTree).encard =
        (functionWalk.run functionTree).tally.opened ∧
      (functionWalk.run functionTree).tally.opened = 2 ∧
      (functionWalk.run functionTree).tally.maxDepth = 3 := by
  have hboundary : functionWalk.boundary = .constructs Language.python.rules.scopes := rfl
  have hnamed : ∀ node ∈ functionTree.subtrees, node.kind ∈ Language.python.rules.scopes →
      node.isNamed := by decide
  have hcounts := (tally_counts_openings hboundary functionTree).2.mpr
    fun place node hentered => hnamed node (Tree.mem_subtrees_of_at? hentered.at_place)
  have htally : (functionWalk.run functionTree).tally = ⟨2, 2, 3, 1, 0⟩ := by
    rw [run, Visitor.traverse_eq_fold]
    decide
  exact ⟨hboundary, hcounts.opened, by rw [htally], by rw [htally]⟩

/-- The construct `lambda x: x` opens one scope as a node, and its keyword opens another. -/
theorem lambda_opens_twice :
    (lambdaWalk.openings Language.python.rules.scopes Tree.isNamed lambdaTree).encard = 1 ∧
      (lambdaWalk.run lambdaTree).tally.opened = 2 ∧
      (lambdaWalk.run lambdaTree).tally.maxDepth = 3 ∧
      ¬ lambdaWalk.CountsOpenings Language.python.rules.scopes Tree.isNamed lambdaTree
        (lambdaWalk.run lambdaTree).tally := by
  have hnamed : (lambdaWalk.openings Language.python.rules.scopes Tree.isNamed lambdaTree).encard =
      1 := by
    rw [encard_openings]
    exact congrArg Nat.cast (by decide)
  have htally : (lambdaWalk.run lambdaTree).tally = ⟨2, 2, 3, 1, 0⟩ := by
    rw [run, Visitor.traverse_eq_fold]
    decide
  refine ⟨hnamed, by rw [htally], by rw [htally], ?_⟩
  intro hcounts
  have hopened := hcounts.opened
  rw [hnamed, htally] at hopened
  exact absurd hopened (by decide)

end Walk

end CanonicalTokens
