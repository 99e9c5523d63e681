import CanonicalTokens.Proofs.Damage.Survey

/-!
# The extent of damage

The damaged nodes that a report counts are in no other damaged node, so none of them lies above
another. If ranges nest, they cover parts of the source apart from each other, in the order in which
they are found, and the bytes in error are no more than the bytes of the source.

What is counted ends where the last of the outermost damaged nodes ends, or before. So a report that
calls the source cut off says that nothing but white space follows this last one. All of this holds
whatever the parser marks: a search that passes damage finds fewer outermost nodes, and no others.
-/

namespace CanonicalTokens

theorem Source.IsBoundary.le_size {source : Source} {offset : Nat}
    (hboundary : source.IsBoundary offset) : offset ≤ source.size := by
  obtain ⟨front, back, hcharacters, rfl⟩ := hboundary
  rw [size, hcharacters, byteCount_append]
  exact Nat.le_add_right _ _

namespace Tree

structure OutermostAt (tree : Tree) (place : Place) (node : Tree) : Prop where
  at? : tree.at? place = some node
  isDamaged : node.isDamaged
  outermost : ∀ outer holder, outer.IsAbove place → tree.at? outer = some holder →
    ¬ holder.isDamaged

variable {source : Source} {tree node other : Tree} {place later : Place} {enters : Tree → Bool}

theorem mem_outermostDamage_iff_outermostAt :
    (place, node) ∈ tree.outermostDamage ↔ tree.OutermostAt place node := by
  rw [mem_outermostDamage_iff]
  exact ⟨fun ⟨hnode, hdamaged, houtermost⟩ => ⟨hnode, hdamaged, houtermost⟩,
    fun houter => ⟨houter.at?, houter.isDamaged, houter.outermost⟩⟩

/-- Every search that stops at damaged nodes finds only outermost ones. -/
theorem outermostAt_of_mem_damageFound {entry : Place × Tree}
    (hmem : entry ∈ tree.damageFound enters []) : tree.OutermostAt entry.1 entry.2 := by
  obtain ⟨way, hplace, hnode, hdamaged, habove⟩ := mem_damageFound_iff.mp hmem
  obtain rfl : entry.1 = way := hplace
  exact ⟨hnode, hdamaged, fun outer holder houter hholder => (habove outer holder houter hholder).1⟩

/-- Of two outermost damaged nodes, the earlier one ends before the later one begins. -/
theorem OutermostAt.stop_le_start (hranges : tree.RangesNest source)
    (hnode : tree.OutermostAt place node) (hother : tree.OutermostAt later other)
    (hlt : place < later) : node.label.stop ≤ other.label.start := by
  refine hranges.stop_le_start hnode.at? hother.at? hlt ?_
  intro hinitial
  have habove : place.IsAbove later := ⟨hinitial, fun hsame => List.lt_irrefl later (hsame ▸ hlt)⟩
  exact hother.outermost place node habove hnode.at? hnode.isDamaged

/-- The lengths of ranges that follow one another within a range add up to no more than its own. -/
theorem sum_lengths_le {found : List (Place × Tree)} {start stop : Nat} (hle : start ≤ stop)
    (hwithin : ∀ entry ∈ found, start ≤ entry.2.label.start ∧
      entry.2.label.start ≤ entry.2.label.stop ∧ entry.2.label.stop ≤ stop)
    (hapart : found.Pairwise fun first second => first.2.label.stop ≤ second.2.label.start) :
    (found.map fun entry => entry.2.label.stop - entry.2.label.start).sum ≤ stop - start := by
  induction found generalizing start with
  | nil => exact Nat.zero_le _
  | cons entry rest ih =>
    obtain ⟨hbehind, hrest⟩ := List.pairwise_cons.mp hapart
    obtain ⟨hstart, hordered, hstop⟩ := hwithin entry List.mem_cons_self
    have hlater : (rest.map fun entry => entry.2.label.stop - entry.2.label.start).sum ≤
        stop - entry.2.label.stop := by
      apply ih hstop _ hrest
      intro other hother
      exact ⟨hbehind other hother, (hwithin other (List.mem_cons_of_mem entry hother)).2⟩
    rw [List.map_cons, List.sum_cons]
    omega

end Tree

namespace DamageReport

variable {source : Source} {tree : Tree} {entry : Place × Tree}

theorem outermostAt_of_mem_noted (hmem : entry ∈ noted tree) :
    tree.OutermostAt entry.1 entry.2 := by
  unfold noted at hmem
  split at hmem
  · exact Tree.outermostAt_of_mem_damageFound hmem
  · cases hmem

theorem pairwise_noted (tree : Tree) :
    (noted tree).Pairwise fun first second => first.1 < second.1 := by
  unfold noted
  split
  · exact Tree.pairwise_damageFound _ [] tree
  · exact List.Pairwise.nil

/-- What a report counts is apart, in the order of the source. -/
theorem apart_noted (hranges : tree.RangesNest source) :
    (noted tree).Pairwise fun first second => first.2.label.stop ≤ second.2.label.start := by
  apply (pairwise_noted tree).imp_of_mem
  intro first second hfirst hsecond hlt
  exact (outermostAt_of_mem_noted hfirst).stop_le_start hranges (outermostAt_of_mem_noted hsecond)
    hlt

/-- Outermost error nodes lie apart from each other in the source, so their lengths add up to no
more than its size. -/
theorem errorBytes_le (hranges : tree.RangesNest source) :
    (ofTree source tree).errorBytes ≤ source.size := by
  have hroot := hranges.ordered tree tree.self_mem_subtrees
  have hsource := (hranges.boundaries tree tree.self_mem_subtrees).2.le_size
  rw [ofTree_eq_ofFound]
  calc _ ≤ tree.label.stop - tree.label.start := by
        apply Tree.sum_lengths_le hroot _ ((apart_noted hranges).filter _)
        intro entry hmem
        have hnode := (outermostAt_of_mem_noted (List.mem_filter.mp hmem).1).at?
        have hwithin := hranges.within hnode
        have hordered := hranges.ordered entry.2 (Tree.mem_subtrees_of_at? hnode)
        exact ⟨hwithin.1, hordered, hwithin.2⟩
    _ ≤ source.size := by omega

/-- The outermost damage stands in document order, so one of it is the last. -/
theorem exists_last_outermost (hmem : entry ∈ tree.outermostDamage) :
    ∃ last ∈ tree.outermostDamage, ∀ other ∈ tree.outermostDamage,
      other = last ∨ other.1 < last.1 := by
  rcases List.eq_nil_or_concat tree.outermostDamage with hnil | ⟨front, last, hlast⟩
  · rw [hnil] at hmem
    cases hmem
  · rw [List.concat_eq_append] at hlast
    have hordered := Tree.pairwise_damageFound (fun _ => true) [] tree
    rw [← Tree.outermostDamage, hlast, List.pairwise_append] at hordered
    refine ⟨last, by simp [hlast], ?_⟩
    intro other hother
    rw [hlast, List.mem_append, List.mem_singleton] at hother
    rcases hother with hfront | hsame
    · exact Or.inr (hordered.2.2 other hfront last (List.mem_singleton_self last))
    · exact Or.inl hsame

/-- If white space alone follows something that is counted, it alone follows the last of the
outermost damaged nodes. -/
theorem allBlank_behind_last (hranges : tree.RangesNest source)
    (htruncated : (ofTree source tree).truncated) :
    ∃ last ∈ tree.outermostDamage, (∀ other ∈ tree.outermostDamage,
      other = last ∨ other.1 < last.1) ∧ Text.allBlank (source.rest last.2.label.stop) := by
  rw [ofTree_eq_ofFound] at htruncated
  obtain ⟨entry, hentry, hblank⟩ := List.any_eq_true.mp htruncated
  have hcounted := outermostAt_of_mem_noted hentry
  have hmem := Tree.mem_outermostDamage_iff_outermostAt.mpr hcounted
  obtain ⟨last, hlast, hothers⟩ := exists_last_outermost hmem
  refine ⟨last, hlast, hothers, ?_⟩
  rcases hothers entry hmem with hsame | hlt
  · rwa [← hsame]
  · have houter := Tree.mem_outermostDamage_iff_outermostAt.mp hlast
    have hnode := Tree.mem_subtrees_of_at? houter.at?
    have hle : entry.2.label.stop ≤ last.2.label.stop :=
      Nat.le_trans (hcounted.stop_le_start hranges houter hlt) (hranges.ordered last.2 hnode)
    obtain ⟨middle, hrest⟩ := Source.exists_rest_eq_append
      (hranges.boundaries entry.2 (Tree.mem_subtrees_of_at? hcounted.at?)).2
      (hranges.boundaries last.2 hnode).2 hle
    rw [hrest, Text.allBlank_append, Bool.and_eq_true] at hblank
    exact hblank.2

/-- Damage never exceeds the source: the bytes in error are no more than those of the source, and a
source that is reported as cut off ends, up to white space, with the last damaged node that is in no
other damaged node. -/
theorem extent_ofTree (hranges : tree.RangesNest source) :
    (ofTree source tree).errorBytes ≤ (ofTree source tree).sourceBytes ∧
      (ofTree source tree).sourceBytes = source.size ∧
      ((ofTree source tree).truncated → ∃ place node, tree.OutermostAt place node ∧
        (∀ other holder, tree.OutermostAt other holder → other = place ∨ other < place) ∧
        Text.allBlank (source.rest node.label.stop)) := by
  have hsize : (ofTree source tree).sourceBytes = source.size := by
    rw [ofTree_eq_ofFound]
    rfl
  refine ⟨?_, hsize, ?_⟩
  · rw [hsize]
    exact errorBytes_le hranges
  · intro htruncated
    obtain ⟨⟨place, node⟩, hlast, hothers, hblank⟩ := allBlank_behind_last hranges htruncated
    refine ⟨place, node, Tree.mem_outermostDamage_iff_outermostAt.mp hlast, ?_, hblank⟩
    intro other holder houter
    rcases hothers _ (Tree.mem_outermostDamage_iff_outermostAt.mpr houter) with hsame | hlt
    · exact Or.inl (congrArg Prod.fst hsame)
    · exact Or.inr hlt

/-- The call that is not closed has one byte in error of six, and it is cut off. -/
theorem extent_unclosedCall :
    unclosedCall.RangesNest unclosedSource ∧
      (ofTree unclosedSource unclosedCall).errorBytes ≤ 6 ∧
      (ofTree unclosedSource unclosedCall).truncated ∧
      ∃ place node, unclosedCall.OutermostAt place node ∧
        Text.allBlank (unclosedSource.rest node.label.stop) := by
  have hranges : unclosedCall.RangesNest unclosedSource := by constructor <;> decide
  obtain ⟨hbytes, hsize, hlast⟩ := extent_ofTree hranges
  rw [hsize] at hbytes
  have htruncated : (ofTree unclosedSource unclosedCall).truncated := by
    rw [ofTree_eq_ofFound]
    decide
  obtain ⟨place, node, houter, -, hblank⟩ := hlast htruncated
  exact ⟨hranges, hbytes, htruncated, place, node, houter, hblank⟩

end DamageReport

end CanonicalTokens
