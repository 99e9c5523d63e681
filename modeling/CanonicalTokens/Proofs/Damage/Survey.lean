import CanonicalTokens.Damage
import CanonicalTokens.Proofs.CursorLoop
import CanonicalTokens.Proofs.Damage.Outermost
import CanonicalTokens.Proofs.Ranges
import Mathlib.Algebra.Ring.Nat

/-!
# What a report says of the whole tree

A report is made without a look at clean subtrees and at the inside of damaged nodes. It says all
the same what a search through every node would say, if the parser's marks are right and the ranges
of nodes nest: nothing damaged is in a clean subtree, the first damaged node is not inside another
one, and what is behind a damaged node is behind all nodes inside it as well.
-/

namespace CanonicalTokens

namespace DamageReport

variable {source : Source} {tree node : Tree} {place : Place} {report : DamageReport}
  {rootIsError : Bool} {seen found : List (Place × Tree)}

/-! ### The report of what was found -/

def ofFound (source : Source) (rootIsError : Bool) (found : List (Place × Tree)) :
    DamageReport where
  errorNodes := found.countP fun entry => !entry.2.label.missing
  missingNodes := found.countP fun entry => entry.2.label.missing
  errorBytes := ((found.filter fun entry => !entry.2.label.missing).map
    fun entry => entry.2.label.stop - entry.2.label.start).sum
  sourceBytes := source.size
  firstError := found.head?.map fun entry => source.position entry.2.label.start
  rootIsError := rootIsError
  truncated := found.any fun entry => Text.allBlank (source.rest entry.2.label.stop)

theorem inspect_of_not_isDamaged (hsound : ¬ node.isDamaged) :
    inspect source node report = (report, node.label.hasError) := by
  obtain ⟨hmissing, herror⟩ : node.label.missing = false ∧ node.label.error = false := by
    simpa [Tree.isDamaged, Label.isDamaged] using hsound
  rw [inspect, hmissing, herror]
  rfl

/-- A damaged node is added to the report of what was seen before it, and its children are not
entered. -/
theorem inspect_ofFound (place : Place) (hdamaged : node.isDamaged) :
    inspect source node (ofFound source rootIsError seen) =
      (ofFound source rootIsError (seen ++ [(place, node)]), false) := by
  have hfirst := Option.getD_map (fun entry : Place × Tree => source.position entry.2.label.start)
    (place, node) seen.head?
  unfold inspect
  split
  next hmissing => simp [noteAt, ofFound, hmissing, hfirst]
  next hpresent =>
    have herror : node.label.error := by
      simpa [Tree.isDamaged, Label.isDamaged, hpresent] using hdamaged
    simp [noteAt, ofFound, hpresent, herror, hfirst]

/-! ### The scan -/

mutual

/-- The scan adds to the report what a search by the marks finds. -/
theorem fold_inspector (base : Place) (tree : Tree) (seen : List (Place × Tree)) :
    (inspector source).fold tree (ofFound source rootIsError seen) =
      ofFound source rootIsError
        (seen ++ tree.damageFound (fun node => node.label.hasError) base) := by
  match tree with
  | .node label children =>
    by_cases hdamaged : (Tree.node label children).isDamaged
    · rw [Visitor.fold_of_passed (inspect_ofFound base hdamaged),
        Tree.damageFound_of_isDamaged hdamaged]
    have hinspect := @inspect_of_not_isDamaged source (.node label children)
      (ofFound source rootIsError seen) hdamaged
    rw [Tree.damageFound_of_not_isDamaged hdamaged]
    cases hmark : (Tree.node label children).label.hasError with
    | false =>
      rw [hmark] at hinspect
      rw [Visitor.fold_of_passed hinspect, if_neg Bool.false_ne_true, List.append_nil]
    | true =>
      rw [hmark] at hinspect
      rw [Visitor.fold_of_entered hinspect, if_pos rfl]
      exact foldForest_inspector base 0 children seen

theorem foldForest_inspector (base : Place) (start : Nat) (forest : List Tree)
    (seen : List (Place × Tree)) :
    (inspector source).foldForest forest (ofFound source rootIsError seen) =
      ofFound source rootIsError
        (seen ++ Tree.forestDamageFound (fun node => node.label.hasError) base start forest) := by
  match forest with
  | [] => rw [Visitor.foldForest, Tree.forestDamageFound, List.append_nil]
  | tree :: rest =>
    rw [Visitor.foldForest, Tree.forestDamageFound, fold_inspector (base ++ [start]) tree,
      foldForest_inspector base (start + 1) rest, List.append_assoc]

end

/-- What the scan of a tree notes, given that it does not start at all if the root is unmarked. -/
def noted (tree : Tree) : List (Place × Tree) :=
  if tree.label.hasError then tree.damageFound (fun node => node.label.hasError) [] else []

theorem ofTree_eq_ofFound (source : Source) (tree : Tree) :
    ofTree source tree = ofFound source tree.label.error (noted tree) := by
  rw [ofTree, noted]
  split
  · rw [Visitor.traverse_eq_fold]
    exact fold_inspector [] tree []
  · rfl

theorem length_noted_le (tree : Tree) : (noted tree).length ≤ tree.size := by
  unfold noted
  split
  · exact Tree.length_damageFound_le _ [] tree
  · exact Nat.zero_le _

/-- If the marks of a tree tell where its damage is, leaving out the unmarked subtrees loses none of
it. -/
theorem noted_of_marksExact (hmarks : tree.MarksExact) : noted tree = tree.outermostDamage := by
  rw [noted, Tree.damageFound_of_marksExact hmarks]
  split
  · rfl
  next hunmarked =>
    have hnone : ¬ tree.outermostDamage ≠ [] := fun hfound =>
      hunmarked ((hmarks tree tree.self_mem_subtrees).mpr (Tree.exists_isDamaged_iff.mpr hfound))
    exact (Classical.not_not.mp hnone).symm

/-! ### Counting -/

/-- Error nodes and missing nodes together, whether this is a word or not. -/
def total (report : DamageReport) : Nat := report.errorNodes + report.missingNodes

/-- If the counters add up to a word, the report can be read, and it says whether anything is
counted. -/
theorem isDamaged_of_total_lt (hfits : report.total < UInt64.size) :
    report.isDamaged = .ok (report.rootIsError || decide (0 < report.total)) := by
  rw [isDamaged, damage, wordSum_of_lt hfits]
  cases report.rootIsError <;> rfl

theorem total_ofFound (source : Source) (rootIsError : Bool) (found : List (Place × Tree)) :
    (ofFound source rootIsError found).total = found.length := by
  rw [List.length_eq_countP_add_countP (fun entry => !entry.2.label.missing)]
  simp [total, ofFound]

/-- A report counts no node twice, so for trees in memory its counters add up to a word. -/
theorem total_ofTree_lt (source : Source) (hsize : tree.size < UInt64.size) :
    (ofTree source tree).total < UInt64.size := by
  rw [ofTree_eq_ofFound, total_ofFound]
  exact Nat.lt_of_le_of_lt (length_noted_le tree) hsize

theorem isDamaged_ofTree (hsize : tree.size < UInt64.size) :
    (ofTree source tree).isDamaged = .ok (tree.label.error || decide (noted tree ≠ [])) := by
  rw [isDamaged_of_total_lt (total_ofTree_lt source hsize), ofTree_eq_ofFound, total_ofFound]
  simp [ofFound, List.length_pos_iff]

/-! ### Trees without damage -/

theorem ofTree_of_noted_nil (hroot : ¬ tree.label.error) (hnoted : noted tree = []) :
    ofTree source tree = undamaged source false := by
  rw [ofTree_eq_ofFound, hnoted, Bool.eq_false_iff.mpr hroot]
  rfl

theorem ofTree_of_sound (hsound : ∀ node ∈ tree.subtrees, ¬ node.isDamaged) :
    ofTree source tree = undamaged source false := by
  apply ofTree_of_noted_nil
  · intro herror
    exact hsound tree tree.self_mem_subtrees (by simp [Tree.isDamaged, Label.isDamaged, herror])
  · rw [noted, Tree.damageFound_eq_nil hsound, ite_self]

theorem ofTree_of_not_isDamaged (hsize : tree.size < UInt64.size)
    (hclean : (ofTree source tree).isDamaged = .ok false) :
    ofTree source tree = undamaged source false := by
  rw [isDamaged_ofTree hsize, Except.ok.injEq, Bool.or_eq_false_iff, decide_eq_false_iff_not,
    Classical.not_not] at hclean
  exact ofTree_of_noted_nil (Bool.eq_false_iff.mp hclean.1) hclean.2

/-! ### The whole tree -/

/-- The report says what there is in the whole tree, at any depth; what it counts are the outermost
damaged nodes. -/
structure Surveys (source : Source) (tree : Tree) (report : DamageReport)
    (outermost : List (Place × Tree)) : Prop where
  outermost_iff : ∀ place node, (place, node) ∈ outermost ↔
    tree.at? place = some node ∧ node.isDamaged ∧
      ∀ outer holder, outer.IsAbove place → tree.at? outer = some holder → ¬ holder.isDamaged
  ordered : outermost.Pairwise fun first second => first.1 < second.1
  /-- There is an answer, since no tree in memory has as many nodes as there are words. -/
  damaged : tree.size < UInt64.size →
    report.isDamaged = .ok (decide (∃ node ∈ tree.subtrees, node.isDamaged))
  firstError : report.firstError =
    (tree.subtrees.find? Tree.isDamaged).map fun node => source.position node.label.start
  truncated : report.truncated ↔
    ∃ node ∈ tree.subtrees, node.isDamaged ∧ Text.allBlank (source.rest node.label.stop)
  missingNodes : report.missingNodes = outermost.countP fun entry => entry.2.label.missing
  errorNodes : report.errorNodes =
    outermost.countP fun entry => entry.2.label.error && !entry.2.label.missing
  errorBytes : report.errorBytes =
    ((outermost.filter fun entry => entry.2.label.error && !entry.2.label.missing).map
      fun entry => entry.2.label.stop - entry.2.label.start).sum

theorem ofTree_of_marksExact (hmarks : tree.MarksExact) :
    ofTree source tree = ofFound source tree.label.error tree.outermostDamage := by
  rw [ofTree_eq_ofFound, noted_of_marksExact hmarks]

/-- The report of a tree in memory says whether it has damage: its counters add up to a word. -/
theorem isDamaged_ofTree_of_marksExact (hmarks : tree.MarksExact)
    (hsize : tree.size < UInt64.size) :
    (ofTree source tree).isDamaged = .ok (decide (∃ node ∈ tree.subtrees, node.isDamaged)) := by
  rw [isDamaged_ofTree hsize, noted_of_marksExact hmarks]
  congr 1
  rw [Bool.eq_iff_iff, Bool.or_eq_true, decide_eq_true_eq, decide_eq_true_eq]
  constructor
  · rintro (herror | hfound)
    · exact ⟨tree, tree.self_mem_subtrees, by simp [Tree.isDamaged, Label.isDamaged, herror]⟩
    · exact Tree.exists_isDamaged_iff.mpr hfound
  · exact fun hdamaged => Or.inr (Tree.exists_isDamaged_iff.mp hdamaged)

/-- If the source ends behind some damaged node, it ends behind the outermost one around it. -/
theorem exists_outermost_truncated_iff (hranges : tree.RangesNest source) :
    (∃ entry ∈ tree.outermostDamage, Text.allBlank (source.rest entry.2.label.stop)) ↔
      ∃ node ∈ tree.subtrees, node.isDamaged ∧ Text.allBlank (source.rest node.label.stop) := by
  constructor
  · rintro ⟨⟨place, node⟩, hmem, hblank⟩
    obtain ⟨hnode, hdamaged, -⟩ := Tree.mem_outermostDamage_iff.mp hmem
    exact ⟨node, Tree.mem_subtrees_of_at? hnode, hdamaged, hblank⟩
  · rintro ⟨node, hnode, hdamaged, hblank⟩
    obtain ⟨place, hplace⟩ := Tree.exists_at?_of_mem_subtrees hnode
    obtain ⟨outer, holder, ⟨inner, rfl⟩, hmem⟩ := Tree.exists_outermost_around hplace hdamaged
    obtain ⟨hholder, -⟩ := Tree.mem_outermostDamage_iff.mp hmem
    rw [Tree.at?_append, hholder, Option.bind_some] at hplace
    have hwithin := ((hranges.of_at? hholder).within hplace).2
    obtain ⟨middle, hrest⟩ := Source.exists_rest_eq_append (hranges.boundaries node hnode).2
      (hranges.boundaries holder (Tree.mem_subtrees_of_at? hholder)).2 hwithin
    rw [hrest, Text.allBlank_append, Bool.and_eq_true] at hblank
    exact ⟨(outer, holder), hmem, hblank.2⟩

theorem error_of_mem_outermostDamage {entry : Place × Tree} (hmem : entry ∈ tree.outermostDamage) :
    (!entry.2.label.missing) = (entry.2.label.error && !entry.2.label.missing) := by
  have hdamaged := (Tree.mem_outermostDamage_iff.mp hmem).2.1
  rw [Tree.isDamaged, Label.isDamaged] at hdamaged
  cases hmissing : entry.2.label.missing <;> simp_all

theorem loopRun_inspector_iff (hmarks : tree.MarksExact) {made : List (Call DamageReport)}
    {final : DamageReport} :
    LoopRun (inspector source) tree (.ahead []) (undamaged source tree.label.error) made final ↔
      made = (inspector source).calls [] tree (undamaged source tree.label.error) ∧
        final = ofTree source tree := by
  have hscan : (inspector source).fold tree (undamaged source tree.label.error) =
      ofTree source tree := by
    rw [ofTree_of_marksExact hmarks, ← Tree.damageFound_of_marksExact hmarks]
    exact fold_inspector [] tree []
  rw [LoopRun.iff_fold, hscan]

/-- The scan ends in just one way, and its report is that of a search through all nodes. -/
theorem surveys_ofTree (hmarks : tree.MarksExact) (hranges : tree.RangesNest source) :
    (∃ calls, ∀ made final,
      LoopRun (inspector source) tree (.ahead []) (undamaged source tree.label.error) made final ↔
        made = calls ∧ final = ofTree source tree) ∧
    Surveys source tree (ofTree source tree) tree.outermostDamage := by
  refine ⟨⟨_, fun made final => loopRun_inspector_iff hmarks⟩, ?_⟩
  have hreport := @ofTree_of_marksExact source tree hmarks
  have herror := fun entry => @error_of_mem_outermostDamage tree entry
  refine
    { outermost_iff := fun place node => Tree.mem_outermostDamage_iff
      ordered := Tree.pairwise_damageFound _ [] tree
      damaged := isDamaged_ofTree_of_marksExact hmarks
      firstError := ?_
      truncated := ?_
      missingNodes := ?_
      errorNodes := ?_
      errorBytes := ?_ }
  · rw [hreport, Tree.find?_subtrees [] tree, Option.map_map]
    rfl
  · rw [← exists_outermost_truncated_iff hranges, hreport]
    exact List.any_eq_true
  · rw [hreport]
    rfl
  · rw [hreport]
    exact List.countP_congr fun entry hmem => Bool.eq_iff_iff.mp (herror entry hmem)
  · rw [hreport, ← List.filter_congr herror]
    rfl

/-- The tree of `f(x ]` and a line end. There is an error, in which an expression is missing, and
the closing parenthesis is missing as well. -/
def unclosedCall : Tree :=
  .node ⟨"module", true, false, false, true, 0, 6, none⟩ [
    .node ⟨"call", true, false, false, true, 0, 5, none⟩ [
      .node (.sound "identifier" true 0 1 (some "function")) [],
      .node ⟨"argument_list", true, false, false, true, 1, 5, some "arguments"⟩ [
        .node (.sound "(" false 1 2 none) [],
        .node (.sound "identifier" true 2 3 none) [],
        .node ⟨"ERROR", true, false, true, true, 4, 5, none⟩ [
          .node ⟨"identifier", true, true, false, true, 4, 4, none⟩ [],
          .node (.sound "]" false 4 5 none) []],
        .node ⟨")", false, true, false, true, 5, 5, none⟩ []]]]

def unclosedSource : Source := .ofString "f(x ]\n"

/-- In `f(x ]` a bracket is missing and another one is in error. The node that is missing inside the
error is not counted. -/
theorem surveys_unclosedCall :
    unclosedCall.MarksExact ∧ unclosedCall.RangesNest unclosedSource ∧
      (ofTree unclosedSource unclosedCall).isDamaged = .ok true ∧
      (ofTree unclosedSource unclosedCall).firstError = some ⟨0, 4⟩ ∧
      (ofTree unclosedSource unclosedCall).missingNodes = 1 ∧
      (ofTree unclosedSource unclosedCall).errorBytes = 1 := by
  have hmarks : unclosedCall.MarksExact := by decide
  have hranges : unclosedCall.RangesNest unclosedSource := by constructor <;> decide
  obtain ⟨-, hsurveys⟩ := surveys_ofTree hmarks hranges
  refine ⟨hmarks, hranges, (hsurveys.damaged (by decide)).trans (by decide), ?_, ?_, ?_⟩
  · exact hsurveys.firstError.trans (by decide)
  · exact hsurveys.missingNodes.trans (by decide)
  · exact hsurveys.errorBytes.trans (by decide)

end DamageReport

end CanonicalTokens
