import CanonicalTokens.Proofs.Walk.Emissions

/-!
# The nodes that a walk comes to

In document order, with their places: a node comes before the nodes below it, and those come before
the nodes to its right. Which nodes these are does not depend on what is declared.
-/

namespace CanonicalTokens.Walk

variable {walk : Walk} {tree node : Tree} {place : Place}

mutual

def reached (walk : Walk) (place : Place) : Tree → List (Place × Tree)
  | .node label children =>
    (place, .node label children) ::
      if walk.part (.node label children) = .construct then walk.forestReached place 0 children
      else []

def forestReached (walk : Walk) (place : Place) (index : Nat) : List Tree → List (Place × Tree)
  | [] => []
  | tree :: rest =>
    walk.reached (place ++ [index]) tree ++ walk.forestReached place (index + 1) rest

end

theorem reached_of_construct (hpart : walk.part node = .construct) :
    walk.reached place node = (place, node) :: walk.forestReached place 0 node.children := by
  cases node
  rw [reached, if_pos hpart]
  rfl

theorem reached_of_part_ne (hpart : walk.part node ≠ .construct) :
    walk.reached place node = [(place, node)] := by
  cases node
  rw [reached, if_neg hpart]

/-- The nodes below a list of children are those below the children to the left of one of them,
those of this child, and those to the right. -/
theorem forestReached_eq_append {forest : List Tree} {index : Nat} {child : Tree} (start : Nat)
    (hchild : forest[index]? = some child) :
    walk.forestReached place start forest =
      walk.forestReached place start (forest.take index) ++
        (walk.reached (place ++ [start + index]) child ++
          walk.forestReached place (start + index + 1) (forest.drop (index + 1))) := by
  induction forest generalizing start index with
  | nil => simp at hchild
  | cons tree rest ih =>
    cases index with
    | zero =>
      obtain rfl : tree = child := by simpa using hchild
      simp [forestReached]
    | succ index =>
      have hchild : rest[index]? = some child := by simpa using hchild
      have hrest := ih (start + 1) hchild
      have hshift : start + 1 + index = start + (index + 1) := by omega
      rw [forestReached, hrest, List.take_succ_cons, forestReached, List.drop_succ_cons, hshift,
        List.append_assoc]

/-- All nodes that the walk comes to are in the list of those it reaches. -/
theorem mem_reached_of_visited (base : Place) (hvisited : walk.Visited tree place node) :
    (base ++ place, node) ∈ walk.reached base tree := by
  induction place generalizing base tree with
  | nil =>
    obtain rfl := visited_nil_iff.mp hvisited
    cases tree
    rw [List.append_nil, reached]
    exact List.mem_cons_self
  | cons index place ih =>
    obtain ⟨hpart, child, hchild, hbelow⟩ := visited_cons_iff.mp hvisited
    have hmem := ih (base ++ [0 + index]) hbelow
    rw [List.append_assoc, List.singleton_append, Nat.zero_add] at hmem
    rw [reached_of_construct hpart, forestReached_eq_append 0 hchild, Nat.zero_add]
    apply List.mem_cons_of_mem
    apply List.mem_append_right
    exact List.mem_append_left _ hmem

mutual

/-- The walk comes to every node in the list, at its place. -/
theorem visited_of_mem_reached {base : Place} {tree : Tree} {entry : Place × Tree}
    (hmem : entry ∈ walk.reached base tree) :
    ∃ way, entry.1 = base ++ way ∧ walk.Visited tree way entry.2 := by
  match tree with
  | .node label children =>
    by_cases hpart : walk.part (.node label children) = .construct
    · rw [reached_of_construct hpart] at hmem
      rcases List.mem_cons.mp hmem with rfl | hmem
      · exact ⟨[], (List.append_nil base).symm, visited_nil_iff.mpr rfl⟩
      · obtain ⟨index, way, child, hplace, hchild, hvisited⟩ := visited_of_mem_forestReached hmem
        rw [Nat.zero_add] at hplace
        exact ⟨index :: way, hplace, visited_cons_iff.mpr ⟨hpart, child, hchild, hvisited⟩⟩
    · rw [reached_of_part_ne hpart] at hmem
      obtain rfl := List.mem_singleton.mp hmem
      exact ⟨[], (List.append_nil base).symm, visited_nil_iff.mpr rfl⟩

theorem visited_of_mem_forestReached {base : Place} {start : Nat} {forest : List Tree}
    {entry : Place × Tree} (hmem : entry ∈ walk.forestReached base start forest) :
    ∃ index way child, entry.1 = base ++ (start + index) :: way ∧ forest[index]? = some child ∧
      walk.Visited child way entry.2 := by
  match forest with
  | [] => simp [forestReached] at hmem
  | tree :: rest =>
    rw [forestReached] at hmem
    rcases List.mem_append.mp hmem with hmem | hmem
    · obtain ⟨way, hplace, hvisited⟩ := visited_of_mem_reached hmem
      exact ⟨0, way, tree, by simpa using hplace, rfl, hvisited⟩
    · obtain ⟨index, way, child, hplace, hchild, hvisited⟩ := visited_of_mem_forestReached hmem
      refine ⟨index + 1, way, child, ?_, hchild, hvisited⟩
      rw [hplace, ← Nat.add_assoc, Nat.add_right_comm]

end

theorem mem_reached_iff : (place, node) ∈ walk.reached [] tree ↔ walk.Visited tree place node := by
  constructor
  · intro hmem
    obtain ⟨way, hplace, hvisited⟩ := visited_of_mem_reached hmem
    obtain rfl : place = way := hplace
    exact hvisited
  · exact mem_reached_of_visited []

mutual

/-- Nodes are reached in document order. -/
theorem pairwise_reached (base : Place) (tree : Tree) :
    (walk.reached base tree).Pairwise fun first second => first.1 < second.1 := by
  match tree with
  | .node label children =>
    by_cases hpart : walk.part (.node label children) = .construct
    · rw [reached_of_construct hpart, List.pairwise_cons]
      refine ⟨?_, pairwise_forestReached base 0 children⟩
      intro entry hmem
      obtain ⟨index, way, -, hplace, -⟩ := visited_of_mem_forestReached hmem
      rw [hplace]
      exact (base.isAbove_append_cons way).lt
    · rw [reached_of_part_ne hpart]
      exact List.pairwise_singleton _ _

theorem pairwise_forestReached (base : Place) (start : Nat) (forest : List Tree) :
    (walk.forestReached base start forest).Pairwise fun first second => first.1 < second.1 := by
  match forest with
  | [] =>
    rw [forestReached]
    exact List.Pairwise.nil
  | tree :: rest =>
    rw [forestReached, List.pairwise_append]
    refine ⟨pairwise_reached _ tree, pairwise_forestReached base (start + 1) rest, ?_⟩
    intro first hfirst second hsecond
    obtain ⟨way, hplace, -⟩ := visited_of_mem_reached hfirst
    obtain ⟨index, other, -, hlater, -⟩ := visited_of_mem_forestReached hsecond
    have hturn : start < start + 1 + index := by omega
    rw [hplace, hlater, List.append_assoc, List.singleton_append]
    exact base.append_lt_append_of_lt hturn way other

end

mutual

/-- A walk emits at the places of the nodes that it comes to and emits a token for. -/
theorem emissionPlaces_eq_map (base : Place) (tree : Tree) :
    walk.emissionPlaces base tree =
      ((walk.reached base tree).filter fun entry => walk.emits entry.2).map Prod.fst := by
  match tree with
  | .node label children =>
    have hbelow := forestPlaces_eq_map base 0 children
    rw [emissionPlaces, reached, List.filter_cons]
    split <;> split <;> simp_all

theorem forestPlaces_eq_map (base : Place) (start : Nat) (forest : List Tree) :
    walk.forestPlaces base start forest =
      ((walk.forestReached base start forest).filter fun entry => walk.emits entry.2).map
        Prod.fst := by
  match forest with
  | [] => rw [forestPlaces, forestReached, List.filter_nil, List.map_nil]
  | tree :: rest =>
    rw [forestPlaces, forestReached, List.filter_append, List.map_append,
      emissionPlaces_eq_map (base ++ [start]) tree, forestPlaces_eq_map base (start + 1) rest]

end

/-- A token is emitted by the walk when it comes to the node of that place. -/
theorem exists_visited_of_mem_emissions {emission : Emission}
    (hmem : emission ∈ walk.emissions tree) :
    ∃ node, walk.Visited tree emission.place node ∧
      emission.token ∈ written
        (walk.entering emission.place node (walk.arrival tree .initial emission.place)) := by
  have hplace : emission.place ∈ (walk.emissions tree).map Emission.place :=
    List.mem_map_of_mem hmem
  rw [places_emissions, emissionPlaces_eq_map] at hplace
  obtain ⟨⟨place, node⟩, hentry, hsame⟩ := List.mem_map.mp hplace
  obtain rfl : place = emission.place := hsame
  have hvisited := mem_reached_iff.mp (List.mem_filter.mp hentry).1
  have hthere : emission ∈
      (walk.emissions tree).filter fun other => other.place = emission.place := by
    simp [hmem]
  rw [emissions_at_visited hvisited] at hthere
  obtain ⟨token, htoken, hemission⟩ := List.mem_map.mp hthere
  obtain rfl : token = emission.token := congrArg Emission.token hemission
  exact ⟨node, hvisited, htoken⟩

end CanonicalTokens.Walk
