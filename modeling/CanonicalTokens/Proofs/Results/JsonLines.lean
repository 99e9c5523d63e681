import CanonicalTokens.Proofs.Damage.Counters
import CanonicalTokens.Proofs.Json.Reading
import CanonicalTokens.Results

/-!
# Reading printed results back

In the JSON form every file has a line of its own, whatever its path and its tokens contain, and
what the form says about the file can be read off this line. Reports add two entries, of which one
is null: which one tells files that could be parsed from those that could not.

A report needs the words for every failure. They say where the first damage is, with lines and
columns counted from one; nothing is printed if this cannot be counted for one of the files. There
is no other way for printing to fail.
-/

namespace CanonicalTokens

structure FileOutcome.Described (report : Bool) (file : FileOutcome) (json : Json) : Prop where
  path : json.get? "path" = some (.string file.label)
  language : json.get? "language" = some (.string file.language.name)
  tokens : (json.get? "tokens").bind Json.strings? = some
    (match file.result with
    | .ok form => form.tokens
    | .error _ => [])
  strategy : json.get? "strategy" =
    if report then some
      (match file.result with
      | .ok form => .string form.attempt.name
      | .error _ => .null)
    else none
  error_of_ok : ∀ form, report → file.result = .ok form → json.get? "error" = some .null
  error_of_error : ∀ failure, report → file.result = .error failure →
    ∃ message, failure.message = .ok message ∧ json.get? "error" = some (.string message)
  error_none : ¬ report → json.get? "error" = none

/-- There are words for the failure of the file, if it has failed: the place of the first damage is
not too far away to be counted. -/
def FileOutcome.IsTold (file : FileOutcome) : Prop :=
  ∀ report, file.result = .error (.parse (.tooManyErrors report)) → report.PlaceFits

namespace Json

theorem strings?_ofStrings (texts : List String) : (ofStrings texts).strings? = some texts := by
  have hread : (texts.map Json.string).mapM string? = some texts := by
    induction texts with
    | nil => rfl
    | cons text texts ih =>
      rw [List.map_cons, List.mapM_cons, ih]
      rfl
  exact hread

theorem numberFree_ofStrings (texts : List String) : NumberFree (ofStrings texts) := by
  apply NumberFree.array
  intro item hitem
  obtain ⟨text, -, rfl⟩ := List.mem_map.mp hitem
  exact .string text

theorem numberFree_ofOption (text? : Option String) : NumberFree (ofOption .string text?) := by
  cases text? with
  | none => exact .null
  | some text => exact .string text

end Json

namespace FileOutcome

variable {report : Bool} {file : FileOutcome} {json : Json}

/-- Without a report nothing of a failure is told, so only a report needs words for it. -/
theorem exists_toJson_iff : (∃ json, file.toJson report = .ok json) ↔ report → file.IsTold := by
  rw [toJson, exists_map_eq_ok_iff, IsTold]
  unfold failure?
  cases report with
  | false => cases file.result <;> simp
  | true =>
    cases file.result with
    | ok form => simp
    | error failure =>
      cases failure with
      | parse cause =>
        have hmessage : (∃ message, (FormFailure.parse cause).message = .ok message) ↔
            ∀ report, cause = .tooManyErrors report → report.PlaceFits :=
          ParseFailure.exists_message_iff
        simpa [exists_map_eq_ok_iff] using hmessage

theorem numberFree_toObject (report : Bool) (file : FileOutcome) (failure? : Option String) :
    (file.toObject report failure?).NumberFree := by
  apply Json.NumberFree.object
  cases report with
  | false =>
    simp [Json.numberFree_ofStrings, Json.NumberFree.string]
  | true =>
    simp [Json.numberFree_ofStrings, Json.numberFree_ofOption, Json.NumberFree.string]

/-- What a file is described by can be read off its object, entry by entry. -/
theorem described_toObject {failure? : Option String}
    (hfailure : file.failure? report = .ok failure?) :
    file.Described report (file.toObject report failure?) where
  path := by cases report <;> rfl
  language := by cases report <;> rfl
  tokens := by
    have hentry : (file.toObject report failure?).get? "tokens" =
        some (.ofStrings file.tokens) := by
      cases report <;> rfl
    rw [hentry, Option.bind_some, Json.strings?_ofStrings]
    rfl
  strategy := by
    have hentry : (file.toObject report failure?).get? "strategy" =
        if report then some (.ofOption .string file.attempt?) else none := by
      cases report <;> rfl
    rw [hentry, attempt?]
    cases file.result <;> rfl
  error_of_ok := by
    rintro form rfl hform
    rw [FileOutcome.failure?, hform] at hfailure
    obtain rfl : none = failure? := Except.ok.inj hfailure
    rfl
  error_of_error := by
    rintro failure rfl herror
    rw [FileOutcome.failure?, herror] at hfailure
    obtain ⟨message, hmessage, rfl⟩ := map_eq_ok_iff.mp hfailure
    exact ⟨message, hmessage, rfl⟩
  error_none := by
    intro hreport
    rw [Bool.eq_false_iff.mpr hreport]
    rfl

end FileOutcome

namespace Results

variable {report : Bool}

def Tells (report : Bool) (file : FileOutcome) (line : String) : Prop :=
  '\n' ∉ line.toList ∧ ∃ json, Json.read? line = some json ∧ file.Described report json

theorem tells_of_toJson {file : FileOutcome} {json : Json}
    (hjson : file.toJson report = .ok json) : Tells report file json.render := by
  obtain ⟨failure?, hfailure, rfl⟩ := map_eq_ok_iff.mp hjson
  have hfree := file.numberFree_toObject report failure?
  refine ⟨?_, _, Json.read?_render hfree, FileOutcome.described_toObject hfailure⟩
  rw [Json.render, String.toList_ofList]
  exact Json.newline_not_mem_print hfree

theorem exists_print_json_iff {files : List FileOutcome} :
    (∃ text, print files .json report = .ok text) ↔ (report → ∀ file ∈ files, file.IsTold) := by
  rw [print, jsonLines, exists_map_eq_ok_iff, exists_mapM_eq_ok_iff]
  simp only [FileOutcome.exists_toJson_iff]
  exact ⟨fun htold hreport file hfile => htold file hfile hreport,
    fun htold file hfile hreport => htold hreport file hfile⟩

/-- The failures of parses are told, since no source in memory has as many lines or columns as there
are words. -/
theorem isTold_of_parse {file : FileOutcome} {source : Source} {tree : Tree}
    (hsource : source.size + 1 < UInt64.size)
    (hresult : file.result = .error (.parse (.tooManyErrors (.ofTree source tree)))) :
    file.IsTold := by
  intro report hreport
  rw [hresult, Except.error.injEq, FormFailure.parse.injEq, ParseFailure.tooManyErrors.injEq]
    at hreport
  exact hreport ▸ DamageReport.placeFits_ofTree tree hsource

/-- Results are printed as JSON whenever there are words for the failures that are reported, and
there are for those of parses. Every file then has one line, in the order of the files; the line is
ended by the only line end in it, and what is read from it describes the file. -/
theorem print_json (files : List FileOutcome) (report : Bool) :
    ((∃ text, print files .json report = .ok text) ↔ (report → ∀ file ∈ files, file.IsTold)) ∧
    (∀ text, print files .json report = .ok text → ∃ lines : List String,
      text = String.join (lines.map fun line => line ++ "\n") ∧
      List.Forall₂ (Tells report) files lines) ∧
    ∀ (file : FileOutcome) (source : Source) (tree : Tree), source.size + 1 < UInt64.size →
      file.result = .error (.parse (.tooManyErrors (.ofTree source tree))) → file.IsTold := by
  refine ⟨exists_print_json_iff, fun text htext => ?_, fun file source tree => isTold_of_parse⟩
  obtain ⟨objects, hobjects, rfl⟩ := map_eq_ok_iff.mp htext
  refine ⟨objects.map Json.render, by rw [List.map_map]; rfl, ?_⟩
  rw [List.forall₂_map_right_iff]
  exact (mapM_eq_ok_iff.mp hobjects).imp fun _ _ => tells_of_toJson

end Results

end CanonicalTokens
