import CanonicalTokens.Proofs.Place

/-!
# Outermost damage

A node is damaged if it is missing or in error. Of the damaged nodes of a tree, those that are in no
other damaged node are outermost: every damaged node is one of them or lies below one, and none of
them lies below another. A search that goes down from the root and stops at each damaged node finds
the outermost ones and nothing else, and the first that it finds is the first damaged node of the
whole tree. A search that also stops where the parser marks no error below misses none of them, if
the marks are right.
-/

namespace CanonicalTokens

def Label.isDamaged (label : Label) : Bool :=
  label.missing || label.error

namespace Tree

variable {tree node : Tree} {place : Place} {enters : Tree → Bool}

def isDamaged (tree : Tree) : Bool := tree.label.isDamaged

/-- The parser marks a node exactly if damage is there or below. -/
def MarksExact (tree : Tree) : Prop :=
  ∀ node ∈ tree.subtrees, node.label.hasError ↔ ∃ below ∈ node.subtrees, below.isDamaged

instance (tree : Tree) : Decidable tree.MarksExact :=
  inferInstanceAs <| Decidable <|
    ∀ node ∈ tree.subtrees, node.label.hasError ↔ ∃ below ∈ node.subtrees, below.isDamaged

mutual

/-- The damaged nodes that a search comes to which does not look inside damaged nodes and enters
another node only if it is told to; with their places, in document order. -/
def damageFound (enters : Tree → Bool) (place : Place) : Tree → List (Place × Tree)
  | .node label children =>
    if label.isDamaged then [(place, .node label children)]
    else if enters (.node label children) then forestDamageFound enters place 0 children
    else []

def forestDamageFound (enters : Tree → Bool) (place : Place) (index : Nat) :
    List Tree → List (Place × Tree)
  | [] => []
  | tree :: rest =>
    tree.damageFound enters (place ++ [index]) ++ forestDamageFound enters place (index + 1) rest

end

def outermostDamage (tree : Tree) : List (Place × Tree) :=
  tree.damageFound (fun _ => true) []

theorem damageFound_of_isDamaged (hdamaged : tree.isDamaged) :
    tree.damageFound enters place = [(place, tree)] := by
  cases tree
  exact if_pos hdamaged

theorem damageFound_of_not_isDamaged (hsound : ¬ tree.isDamaged) :
    tree.damageFound enters place =
      if enters tree then forestDamageFound enters place 0 tree.children else [] := by
  cases tree
  exact if_neg hsound

/-! ### What is found -/

/-- What is found in a forest is found in one of its trees, at a place that starts with the index of
that tree. -/
theorem mem_forestDamageFound_iff {forest : List Tree} {start : Nat} {entry : Place × Tree} :
    entry ∈ forestDamageFound enters place start forest ↔
      ∃ (index : Nat) (child : Tree), forest[index]? = some child ∧
        entry ∈ child.damageFound enters (place ++ [start + index]) := by
  induction forest generalizing start with
  | nil => simp [forestDamageFound]
  | cons tree rest ih =>
    rw [forestDamageFound, List.mem_append, ih]
    constructor
    · rintro (hmem | ⟨index, child, hchild, hmem⟩)
      · exact ⟨0, tree, rfl, hmem⟩
      · refine ⟨index + 1, child, hchild, ?_⟩
        rw [← Nat.add_assoc, Nat.add_right_comm]
        exact hmem
    · rintro ⟨_ | index, child, hchild, hmem⟩
      · obtain rfl : tree = child := by simpa using hchild
        exact Or.inl hmem
      · refine Or.inr ⟨index, child, hchild, ?_⟩
        rw [← Nat.add_assoc, Nat.add_right_comm] at hmem
        exact hmem

/-- A damaged node is found if the search enters all nodes above it and none of them is damaged. -/
theorem mem_damageFound_iff {base : Place} {entry : Place × Tree} :
    entry ∈ tree.damageFound enters base ↔
      ∃ way, entry.1 = base ++ way ∧ tree.at? way = some entry.2 ∧ entry.2.isDamaged ∧
        ∀ outer holder, outer.IsAbove way → tree.at? outer = some holder →
          ¬ holder.isDamaged ∧ enters holder := by
  induction tree using children_induction generalizing base with
  | node label children ih =>
    by_cases hdamaged : (node label children).isDamaged
    · rw [damageFound_of_isDamaged hdamaged, List.mem_singleton]
      constructor
      · rintro rfl
        exact ⟨[], (List.append_nil base).symm, rfl, hdamaged,
          fun outer _ habove => absurd habove Place.not_isAbove_nil⟩
      · rintro ⟨_ | ⟨index, way⟩, hplace, hnode, -, habove⟩
        · rw [List.append_nil] at hplace
          exact Prod.ext hplace (Option.some.inj hnode).symm
        · exact absurd hdamaged (habove [] _ Place.nil_isAbove_cons rfl).1
    · rw [damageFound_of_not_isDamaged hdamaged]
      constructor
      · intro hmem
        split at hmem
        next henters =>
          obtain ⟨index, child, hchild, hmem⟩ := mem_forestDamageFound_iff.mp hmem
          obtain ⟨way, hplace, hnode, hentry, habove⟩ :=
            (ih child (List.mem_of_getElem? hchild)).mp hmem
          rw [Nat.zero_add, List.append_assoc, List.singleton_append] at hplace
          exact ⟨index :: way, hplace, at?_cons_eq_some_iff.mpr ⟨child, hchild, hnode⟩, hentry,
            (forall_above_cons_iff hchild).mpr ⟨⟨hdamaged, henters⟩, habove⟩⟩
        next => cases hmem
      · rintro ⟨_ | ⟨index, way⟩, hplace, hnode, hentry, habove⟩
        · rw [← Option.some.inj hnode] at hentry
          exact absurd hentry hdamaged
        · obtain ⟨child, hchild, hnode⟩ := at?_cons_eq_some_iff.mp hnode
          obtain ⟨⟨-, henters⟩, habove⟩ := (forall_above_cons_iff hchild).mp habove
          rw [if_pos henters, mem_forestDamageFound_iff]
          refine ⟨index, child, hchild, (ih child (List.mem_of_getElem? hchild)).mpr ?_⟩
          refine ⟨way, ?_, hnode, hentry, habove⟩
          rw [hplace, Nat.zero_add, List.append_assoc, List.singleton_append]

theorem mem_outermostDamage_iff :
    (place, node) ∈ tree.outermostDamage ↔
      tree.at? place = some node ∧ node.isDamaged ∧
        ∀ outer holder, outer.IsAbove place → tree.at? outer = some holder →
          ¬ holder.isDamaged := by
  simp [outermostDamage, mem_damageFound_iff]

mutual

/-- Damage is found in document order. -/
theorem pairwise_damageFound (enters : Tree → Bool) (base : Place) (tree : Tree) :
    (tree.damageFound enters base).Pairwise fun first second => first.1 < second.1 := by
  match tree with
  | .node label children =>
    by_cases hdamaged : (node label children).isDamaged
    · rw [damageFound_of_isDamaged hdamaged]
      exact List.pairwise_singleton _ _
    · rw [damageFound_of_not_isDamaged hdamaged]
      split
      · exact pairwise_forestDamageFound enters base 0 children
      · exact List.Pairwise.nil

theorem pairwise_forestDamageFound (enters : Tree → Bool) (base : Place) (start : Nat)
    (forest : List Tree) :
    (forestDamageFound enters base start forest).Pairwise
      fun first second => first.1 < second.1 := by
  match forest with
  | [] =>
    rw [forestDamageFound]
    exact List.Pairwise.nil
  | tree :: rest =>
    rw [forestDamageFound, List.pairwise_append]
    refine ⟨pairwise_damageFound enters _ tree,
      pairwise_forestDamageFound enters base (start + 1) rest, ?_⟩
    intro first hfirst second hsecond
    obtain ⟨index, child, -, hsecond⟩ := mem_forestDamageFound_iff.mp hsecond
    obtain ⟨way, hplace, -⟩ := mem_damageFound_iff.mp hfirst
    obtain ⟨other, hlater, -⟩ := mem_damageFound_iff.mp hsecond
    have hturn : start < start + 1 + index := by omega
    rw [hplace, hlater, List.append_assoc, List.append_assoc, List.singleton_append,
      List.singleton_append]
    exact base.append_lt_append_of_lt hturn way other

end

theorem root_mem_outermostDamage (hdamaged : tree.isDamaged) :
    ([], tree) ∈ tree.outermostDamage := by
  rw [outermostDamage, damageFound_of_isDamaged hdamaged]
  exact List.mem_singleton_self _

/-- Every damaged node is outermost or lies below an outermost one. -/
theorem exists_outermost_around (hnode : tree.at? place = some node) (hdamaged : node.isDamaged) :
    ∃ outer holder, outer <+: place ∧ (outer, holder) ∈ tree.outermostDamage := by
  induction place generalizing tree with
  | nil =>
    obtain rfl := Option.some.inj hnode
    exact ⟨[], tree, List.nil_prefix, root_mem_outermostDamage hdamaged⟩
  | cons index place ih =>
    by_cases hroot : tree.isDamaged
    · exact ⟨[], tree, List.nil_prefix, root_mem_outermostDamage hroot⟩
    · obtain ⟨child, hchild, hbelow⟩ := at?_cons_eq_some_iff.mp hnode
      obtain ⟨outer, holder, haround, hmem⟩ := ih hbelow
      obtain ⟨hholder, houtermost, habove⟩ := mem_outermostDamage_iff.mp hmem
      refine ⟨index :: outer, holder, List.cons_prefix_cons.mpr ⟨rfl, haround⟩, ?_⟩
      exact mem_outermostDamage_iff.mpr ⟨at?_cons_eq_some_iff.mpr ⟨child, hchild, hholder⟩,
        houtermost, (forall_above_cons_iff hchild).mpr ⟨hroot, habove⟩⟩

/-- A tree has damage if and only if it has outermost damage. -/
theorem exists_isDamaged_iff :
    (∃ node ∈ tree.subtrees, node.isDamaged) ↔ tree.outermostDamage ≠ [] := by
  constructor
  · rintro ⟨node, hnode, hdamaged⟩
    obtain ⟨place, hplace⟩ := exists_at?_of_mem_subtrees hnode
    obtain ⟨outer, holder, -, hmem⟩ := exists_outermost_around hplace hdamaged
    exact List.ne_nil_of_mem hmem
  · intro hfound
    obtain ⟨⟨place, node⟩, hmem⟩ := List.exists_mem_of_ne_nil _ hfound
    obtain ⟨hnode, hdamaged, -⟩ := mem_outermostDamage_iff.mp hmem
    exact ⟨node, mem_subtrees_of_at? hnode, hdamaged⟩

/-! ### The first and the number -/

mutual

/-- The first damaged node in document order is the first outermost one, for nothing in front of it
lies above it. -/
theorem find?_subtrees (base : Place) (tree : Tree) :
    tree.subtrees.find? isDamaged =
      (tree.damageFound (fun _ => true) base).head?.map Prod.snd := by
  match tree with
  | .node label children =>
    by_cases hdamaged : (node label children).isDamaged
    · rw [damageFound_of_isDamaged hdamaged, subtrees, List.find?_cons_of_pos hdamaged]
      rfl
    · rw [damageFound_of_not_isDamaged hdamaged, subtrees, List.find?_cons_of_neg hdamaged,
        find?_forestSubtrees base 0 children]
      rfl

theorem find?_forestSubtrees (base : Place) (start : Nat) (forest : List Tree) :
    (forestSubtrees forest).find? isDamaged =
      (forestDamageFound (fun _ => true) base start forest).head?.map Prod.snd := by
  match forest with
  | [] => rfl
  | tree :: rest =>
    rw [forestSubtrees, forestDamageFound, List.find?_append, List.head?_append,
      find?_subtrees (base ++ [start]) tree, find?_forestSubtrees base (start + 1) rest]
    cases (tree.damageFound (fun _ => true) (base ++ [start])).head? <;> rfl

end

mutual

/-- No node is found twice, so a tree has at least as many nodes as are found. -/
theorem length_damageFound_le (enters : Tree → Bool) (base : Place) (tree : Tree) :
    (tree.damageFound enters base).length ≤ tree.size := by
  match tree with
  | .node label children =>
    have hforest := length_forestDamageFound_le enters base 0 children
    by_cases hdamaged : (node label children).isDamaged
    · rw [damageFound_of_isDamaged hdamaged, List.length_singleton]
      exact size_pos _
    · rw [damageFound_of_not_isDamaged hdamaged, size]
      split
      · exact Nat.le_succ_of_le hforest
      · exact Nat.zero_le _

theorem length_forestDamageFound_le (enters : Tree → Bool) (base : Place) (start : Nat)
    (forest : List Tree) : (forestDamageFound enters base start forest).length ≤
      forestSize forest := by
  match forest with
  | [] => exact Nat.le_refl 0
  | tree :: rest =>
    rw [forestDamageFound, List.length_append, forestSize]
    exact Nat.add_le_add (length_damageFound_le enters _ tree)
      (length_forestDamageFound_le enters base (start + 1) rest)

end

/-! ### Marks -/

theorem damageFound_eq_nil (hsound : ∀ node ∈ tree.subtrees, ¬ node.isDamaged) :
    tree.damageFound enters place = [] := by
  rw [List.eq_nil_iff_forall_not_mem]
  intro entry hmem
  obtain ⟨way, -, hnode, hdamaged, -⟩ := mem_damageFound_iff.mp hmem
  exact hsound entry.2 (mem_subtrees_of_at? hnode) hdamaged

theorem forestDamageFound_congr {other : Tree → Bool} {forest : List Tree} {start : Nat}
    (hsame : ∀ child ∈ forest, ∀ place,
      child.damageFound enters place = child.damageFound other place) :
    forestDamageFound enters place start forest = forestDamageFound other place start forest := by
  induction forest generalizing start with
  | nil => rfl
  | cons tree rest ih =>
    rw [forestDamageFound, forestDamageFound, hsame tree List.mem_cons_self,
      ih fun child hchild => hsame child (List.mem_cons_of_mem tree hchild)]

/-- A search that passes only trees without damage finds as much as one that passes none. -/
theorem damageFound_eq (hpassed : ∀ node ∈ tree.subtrees, ¬ enters node →
      ∀ below ∈ node.subtrees, ¬ below.isDamaged) (place : Place) :
    tree.damageFound enters place = tree.damageFound (fun _ => true) place := by
  induction tree using children_induction generalizing place with
  | node label children ih =>
    by_cases hdamaged : (node label children).isDamaged
    · rw [damageFound_of_isDamaged hdamaged, damageFound_of_isDamaged hdamaged]
    by_cases henters : enters (node label children)
    · rw [damageFound_of_not_isDamaged hdamaged, damageFound_of_not_isDamaged hdamaged,
        if_pos henters, if_pos rfl]
      apply forestDamageFound_congr
      intro child hchild
      apply ih child hchild
      exact fun node hnode => hpassed node (mem_subtrees_of_mem_children hchild hnode)
    · have hsound := hpassed _ (self_mem_subtrees _) henters
      rw [damageFound_eq_nil hsound, damageFound_eq_nil hsound]

theorem damageFound_of_marksExact (hmarks : tree.MarksExact) :
    tree.damageFound (fun node => node.label.hasError) [] = tree.outermostDamage := by
  apply damageFound_eq
  intro node hnode hunmarked below hbelow hdamaged
  exact hunmarked ((hmarks node hnode).mpr ⟨below, hbelow, hdamaged⟩)

end Tree

end CanonicalTokens
