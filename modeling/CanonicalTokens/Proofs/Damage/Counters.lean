import CanonicalTokens.Parse
import CanonicalTokens.Proofs.Damage.Survey
import CanonicalTokens.Proofs.Failures

/-!
# Counters that add up to too much

A report keeps two counters, of nodes in error and of missing nodes, and is read by their sum: there
is damage if the sum is not zero, and little enough of it if the sum is within a limit. The counters
are words, and their sum need not be one. The addition is made before anything is compared, so a
report with large counters gets no answer at all, although a look at one of them would do.

No answer is wrong, however. Damage that is counted is never read as none, and no report is accepted
beyond the limit. And no report of a tree comes to the point where the sum overflows: it counts no
node twice, and there are more words than nodes in memory. Neither does the place of its first
damage, which is counted from one when the report is put into words.
-/

namespace CanonicalTokens

namespace DamageReport

variable {report : DamageReport}

theorem total_eq_zero_iff :
    report.total = 0 ↔ report.errorNodes = 0 ∧ report.missingNodes = 0 :=
  Nat.add_eq_zero_iff

theorem isDamaged_of_rootIsError (hroot : report.rootIsError) : report.isDamaged = .ok true :=
  if_pos hroot

theorem isDamaged_of_le_total (hroot : ¬ report.rootIsError) (hover : UInt64.size ≤ report.total) :
    report.isDamaged = .error .addition := by
  rw [isDamaged, if_neg hroot, damage, wordSum_of_le hover]
  rfl

/-- The root in error is enough to know; any other answer takes the sum. -/
theorem isDamaged_cases (report : DamageReport) :
    report.rootIsError ∧ report.isDamaged = .ok true ∨
      ¬ report.rootIsError ∧ report.total < UInt64.size ∧
        report.isDamaged = .ok (decide (0 < report.total)) ∨
      ¬ report.rootIsError ∧ UInt64.size ≤ report.total ∧
        report.isDamaged = .error .addition := by
  by_cases hroot : report.rootIsError
  · exact Or.inl ⟨hroot, isDamaged_of_rootIsError hroot⟩
  rcases Nat.lt_or_ge report.total UInt64.size with hfits | hover
  · refine Or.inr (Or.inl ⟨hroot, hfits, ?_⟩)
    rw [isDamaged_of_total_lt hfits, Bool.eq_false_iff.mpr hroot, Bool.false_or]
  · exact Or.inr (Or.inr ⟨hroot, hover, isDamaged_of_le_total hroot hover⟩)

/-- Where there is an answer, it is that of the two counters taken one by one. -/
theorem isDamaged_sound {damaged : Bool} (hanswer : report.isDamaged = .ok damaged) :
    damaged ↔ report.rootIsError ∨ report.errorNodes ≠ 0 ∨ report.missingNodes ≠ 0 := by
  rcases isDamaged_cases report with ⟨hroot, hread⟩ | ⟨hroot, -, hread⟩ | ⟨-, -, hread⟩
  · obtain rfl := Except.ok.inj (hread.symm.trans hanswer)
    exact iff_of_true rfl (Or.inl hroot)
  · obtain rfl := Except.ok.inj (hread.symm.trans hanswer)
    rw [decide_eq_true_eq, Nat.pos_iff_ne_zero, Ne, total_eq_zero_iff]
    simp [hroot, Classical.or_iff_not_imp_left]
  · cases hread.symm.trans hanswer

theorem isDamaged_eq_error_iff :
    report.isDamaged = .error .addition ↔
      ¬ report.rootIsError ∧ UInt64.size ≤ report.total := by
  rcases isDamaged_cases report with ⟨hroot, hread⟩ | ⟨-, hfits, hread⟩ | ⟨hroot, hover, hread⟩
  · simp [hread, hroot]
  · simp [hread, hfits]
  · exact iff_of_true hread ⟨hroot, hover⟩

end DamageReport

/-! ### Places -/

namespace Source

theorem byteCount_reverse (characters : List Char) :
    byteCount characters.reverse = byteCount characters := by
  induction characters with
  | nil => rfl
  | cons character characters ih =>
    rw [List.reverse_cons, byteCount_append, ih, byteCount_cons, byteCount_cons, byteCount_nil,
      Nat.add_zero, Nat.add_comm]

theorem length_le_byteCount (characters : List Char) :
    characters.length ≤ byteCount characters := by
  induction characters with
  | nil => exact Nat.le_refl _
  | cons character characters ih =>
    have hpos := character.utf8Size_pos
    rw [List.length_cons, byteCount_cons]
    omega

theorem byteCount_takeWhile_le (holds : Char → Bool) (characters : List Char) :
    byteCount (characters.takeWhile holds) ≤ byteCount characters := by
  calc byteCount (characters.takeWhile holds)
      ≤ byteCount (characters.takeWhile holds) + byteCount (characters.dropWhile holds) :=
        Nat.le_add_right _ _
    _ = byteCount characters := by rw [← byteCount_append, List.takeWhile_append_dropWhile]

/-- Lines and columns are counted in front of an offset, so they are no more than the bytes of the
source. -/
theorem position_le (source : Source) (offset : Nat) :
    (source.position offset).row ≤ source.size ∧ (source.position offset).column ≤ source.size := by
  have hbefore : byteCount ((takeBytes offset source.characters).getD []) ≤ source.size := by
    cases htake : takeBytes offset source.characters with
    | none => exact Nat.zero_le _
    | some front =>
      obtain ⟨back, hcharacters, -⟩ := eq_append_of_takeBytes htake
      rw [size, hcharacters, byteCount_append]
      exact Nat.le_add_right _ _
  constructor
  · exact Nat.le_trans (Nat.le_trans List.count_le_length (length_le_byteCount _)) hbefore
  · refine Nat.le_trans (byteCount_takeWhile_le _ _) ?_
    rw [byteCount_reverse]
    exact hbefore

end Source

namespace DamageReport

variable {report : DamageReport}

def PlaceFits (report : DamageReport) : Prop :=
  ∀ position, report.firstError = some position →
    position.row + 1 < UInt64.size ∧ position.column + 1 < UInt64.size

theorem placeFits_ofTree {source : Source} (tree : Tree) (hsource : source.size + 1 < UInt64.size) :
    (ofTree source tree).PlaceFits := by
  rw [ofTree_eq_ofFound]
  intro position hposition
  obtain ⟨entry, -, rfl⟩ := Option.map_eq_some_iff.mp hposition
  have hle := source.position_le entry.2.label.start
  omega

/-- The first damage is told in lines and columns from one, so it can be told exactly if both
numbers have a next one. -/
theorem exists_describeFirst_iff {first? : Option Position} :
    (∃ text, describeFirst first? = .ok text) ↔ ∀ position, first? = some position →
      position.row + 1 < UInt64.size ∧ position.column + 1 < UInt64.size := by
  cases first? with
  | none => simp [describeFirst]
  | some position =>
    rcases Nat.lt_or_ge (position.row + 1) UInt64.size with hrow | hrow
    · rcases Nat.lt_or_ge (position.column + 1) UInt64.size with hcolumn | hcolumn
      · simp [describeFirst, wordSum_of_lt, hrow, hcolumn, bind, Except.bind, pure, Except.pure]
      · simp [describeFirst, wordSum_of_lt hrow, wordSum_of_le hcolumn, Nat.not_lt.mpr hcolumn,
          bind, Except.bind]
    · simp [describeFirst, wordSum_of_le hrow, Nat.not_lt.mpr hrow, bind, Except.bind]

/-- A report can be put into words unless its first damage is too far away to be counted. -/
theorem exists_describe_iff : (∃ text, report.describe = .ok text) ↔ report.PlaceFits := by
  rw [PlaceFits, ← exists_describeFirst_iff, describe]
  cases describeFirst report.firstError <;> simp [bind, Except.bind, pure, Except.pure]

end DamageReport

theorem ParseFailure.exists_message_iff {failure : ParseFailure} :
    (∃ message, failure.message = .ok message) ↔
      ∀ report, failure = .tooManyErrors report → report.PlaceFits := by
  cases failure with
  | tooManyErrors report =>
    simp only [tooManyErrors.injEq, forall_eq', ← DamageReport.exists_describe_iff, message]
    cases report.describe <;> simp [bind, Except.bind, pure, Except.pure]
  | timedOut budget => simp [message, pure, Except.pure]
  | grammar text => simp [message, pure, Except.pure]

/-! ### Acceptance -/

namespace ParseLimits

variable {options : ParseLimits} {report : DamageReport}

/-- If the counters add up to a word, the attempt decides, and it goes by their exact sum. -/
theorem accepts_of_total_lt (hfits : report.total < UInt64.size) :
    options.accepts report = .ok (!report.rootIsError && !report.truncated &&
      decide (report.total ≤ options.maxErrorNodes) &&
      report.damagedShare.le options.maxErrorRatio) := by
  rw [accepts, DamageReport.damage, wordSum_of_lt hfits]
  cases report.rootIsError <;> cases report.truncated <;> rfl

/-- If they do not, only what is refused without a look at them is decided. -/
theorem accepts_of_le_total (hover : UInt64.size ≤ report.total) :
    options.accepts report =
      if report.rootIsError || report.truncated then .ok false else .error .addition := by
  rw [accepts, DamageReport.damage, wordSum_of_le hover]
  rfl

theorem accepts_eq_error_iff :
    options.accepts report = .error .addition ↔
      ¬ report.rootIsError ∧ ¬ report.truncated ∧ UInt64.size ≤ report.total := by
  rcases Nat.lt_or_ge report.total UInt64.size with hfits | hover
  · simp [accepts_of_total_lt hfits, hfits]
  · rw [accepts_of_le_total hover]
    cases report.rootIsError <;> cases report.truncated <;> simp [hover]

theorem total_le_of_accepts (haccepts : options.accepts report = .ok true) :
    report.total ≤ options.maxErrorNodes := by
  rcases Nat.lt_or_ge report.total UInt64.size with hfits | hover
  · rw [accepts_of_total_lt hfits, Except.ok.injEq] at haccepts
    simp only [Bool.and_eq_true, decide_eq_true_eq] at haccepts
    exact haccepts.1.2
  · rw [accepts_of_le_total hover] at haccepts
    split at haccepts <;> cases haccepts

end ParseLimits

namespace DamageReport

/-- What is read off a report with counters of any size, and when there is an answer. -/
structure Readings (options : ParseLimits) (report : DamageReport) : Prop where
  damaged_iff :
    (report.isDamaged = .ok true ↔
      report.rootIsError ∨ report.errorNodes ≠ 0 ∨ report.missingNodes ≠ 0) ↔
    report.rootIsError ∨ report.total < UInt64.size
  damaged_sound : ∀ damaged, report.isDamaged = .ok damaged →
    (damaged ↔ report.rootIsError ∨ report.errorNodes ≠ 0 ∨ report.missingNodes ≠ 0)
  damaged_overflows_iff : report.isDamaged = .error .addition ↔
    ¬ report.rootIsError ∧ UInt64.size ≤ report.total
  accepted : options.accepts report = .ok true → report.total ≤ options.maxErrorNodes
  accepts_overflows_iff : options.accepts report = .error .addition ↔
    ¬ report.rootIsError ∧ ¬ report.truncated ∧ UInt64.size ≤ report.total

/-- A report says whether anything is counted exactly as long as its counters add up to a word or
its root is in error; otherwise it says nothing. Its acceptance always keeps to the limit. The
counters of a tree in memory do add up to a word. -/
theorem readings_exact_iff (options : ParseLimits) (report : DamageReport) :
    report.Readings options ∧
      ∀ source tree, tree.size < UInt64.size → (ofTree source tree).total < UInt64.size := by
  refine ⟨⟨?_, fun _ => isDamaged_sound, isDamaged_eq_error_iff, ParseLimits.total_le_of_accepts,
    ParseLimits.accepts_eq_error_iff⟩, fun source tree => total_ofTree_lt source⟩
  constructor
  · intro hexact
    rw [or_iff_not_imp_left]
    intro hroot
    apply Nat.lt_of_not_le
    intro hover
    -- so large a sum has a counter that is not zero
    have hcounted : report.errorNodes ≠ 0 ∨ report.missingNodes ≠ 0 := by
      rw [← not_and_or, ← total_eq_zero_iff]
      intro hzero
      rw [hzero] at hover
      exact absurd hover (by decide)
    cases (isDamaged_of_le_total hroot hover).symm.trans (hexact.mpr (Or.inr hcounted))
  · rintro hreads
    rcases isDamaged_cases report with ⟨hroot, hread⟩ | ⟨-, -, hread⟩ | ⟨hroot, hover, -⟩
    · exact iff_of_true hread (Or.inl hroot)
    · rw [hread, Except.ok.injEq]
      exact isDamaged_sound hread
    · rcases hreads with hnot | hfits
      · exact absurd hnot hroot
      · exact absurd hfits (Nat.not_lt.mpr hover)

/-- As many nodes in error as a word can count, and one missing node. -/
def fullReport : DamageReport := ⟨18446744073709551615, 1, 7, 40, some ⟨0, 4⟩, false, false⟩

/-- Both counters are words and neither is zero, but nothing says that there is damage. -/
theorem fullReport_overflows :
    fullReport.errorNodes < UInt64.size ∧ fullReport.missingNodes < UInt64.size ∧
      fullReport.errorNodes ≠ 0 ∧ fullReport.isDamaged ≠ .ok true ∧
      fullReport.isDamaged = .error .addition :=
  ⟨by decide, by decide, by decide, by decide, by decide⟩

end DamageReport

end CanonicalTokens
