import CanonicalTokens.Proofs.Config.Defaults
import CanonicalTokens.Proofs.Numeral.Quotient
import CanonicalTokens.Proofs.Parse.Attempts

/-!
# Running out of the first budget

If the first parse runs out of time and the second one makes the same tree, nothing changes but the
name of the attempt. A damaged tree is judged by the forgiving attempt either way. A tree without
damage is taken at once if it comes in time and is judged if it does not. It is never refused then,
because no configuration is built with a share of damage that is below zero or no number.
-/

namespace CanonicalTokens

open Numeral DamageReport

variable {layering : Config.Layering} {config : Config} {options : ParseLimits} {source : Source}
  {file : SourceFile} {tree : Tree} {first second : Nat → Option Tree}

/-! ### Reports without damage -/

theorem DamageReport.damagedShare_undamaged (hsource : source.size < UInt64.size) :
    (undamaged source false).damagedShare = .zero := by
  unfold damagedShare
  split
  · rfl
  · rw [undamaged, Binary64.quotient_zero hsource]
    decide +kernel

theorem ParseLimits.accepts_undamaged (hratio : Binary64.zero.le options.maxErrorRatio)
    (hsource : source.size < UInt64.size) :
    options.accepts (undamaged source false) = .ok true := by
  have htotal : (undamaged source false).total = 0 := rfl
  have hfits : (undamaged source false).total < UInt64.size := by
    rw [htotal]
    decide
  rw [accepts_of_total_lt hfits, damagedShare_undamaged hsource, hratio, htotal]
  simp [undamaged]

/-! ### Two runs -/

namespace CanonicalOptions

structure Outcome where
  accepted : Checked (Except ParseFailure AcceptedTree)
  form : Checked (Except FormFailure CanonicalForm)
  tokens : Checked (List String)

def outcome (options : CanonicalOptions) (file : SourceFile) (calls : Nat → Option Tree) : Outcome
    where
  accepted := (Scripted.play (options.parsing.parse (.scripted calls) file)).1
  form := (Scripted.play (options.canonicalize (.scripted calls) file)).1
  tokens := (Scripted.play (options.tokens (.scripted calls) file)).1

/-- Two outcomes that differ in nothing but the attempt that takes the tree, or agree that the tree
is refused. -/
inductive SameButAttempt (file : SourceFile) (tree : Tree) : Outcome → Outcome → Prop where
  | taken {attempt : Attempt} {form : CanonicalForm} (hattempt : form.attempt = attempt)
      (hreport : form.report = ofTree file.source tree) :
    SameButAttempt file tree
      ⟨.ok (.ok ⟨file, tree, attempt, ofTree file.source tree⟩), .ok (.ok form), .ok form.tokens⟩
      ⟨.ok (.ok ⟨file, tree, .forgiving, ofTree file.source tree⟩),
        .ok (.ok { form with attempt := .forgiving }), .ok form.tokens⟩
  | refused :
    SameButAttempt file tree
      ⟨.ok (.error (.tooManyErrors (ofTree file.source tree))),
        .ok (.error (.parse (.tooManyErrors (ofTree file.source tree)))), .ok []⟩
      ⟨.ok (.error (.tooManyErrors (ofTree file.source tree))),
        .ok (.error (.parse (.tooManyErrors (ofTree file.source tree)))), .ok []⟩

variable {options : CanonicalOptions} {calls : Nat → Option Tree}
  {made : List (Source × Duration)} {result : Except ParseFailure AcceptedTree}

theorem play_canonicalize {grammars : Grammars Scripted}
    (hparse : Scripted.play (options.parsing.parse grammars file) = (.ok result, made)) :
    Scripted.play (options.canonicalize grammars file) = (.ok (options.formed result), made) := by
  unfold Scripted.play at hparse ⊢
  rw [run_canonicalize, StateT.run_map, Id.run_map, hparse]
  rfl

theorem play_tokens {grammars : Grammars Scripted}
    (hparse : Scripted.play (options.parsing.parse grammars file) = (.ok result, made)) :
    Scripted.play (options.tokens grammars file) =
      (.ok (match options.formed result with
        | .ok form => form.tokens
        | .error _ => []), made) := by
  have hformed := play_canonicalize hparse
  unfold Scripted.play at hformed ⊢
  rw [tokens, ExceptT.run_bind, StateT.run_bind, Id.run_bind, hformed]
  cases options.formed result <;> rfl

/-- The parse decides what comes out. -/
theorem outcome_of_ok {accepted : AcceptedTree}
    (hok : Scripted.play (options.parsing.parse (.scripted calls) file) =
      (.ok (.ok accepted), made)) :
    options.outcome file calls = ⟨.ok (.ok accepted), .ok (.ok (options.formOf accepted)),
      .ok (options.formOf accepted).tokens⟩ := by
  rw [outcome, play_tokens hok, play_canonicalize hok, hok]
  rfl

theorem outcome_of_error {failure : ParseFailure}
    (herror : Scripted.play (options.parsing.parse (.scripted calls) file) =
      (.ok (.error failure), made)) :
    options.outcome file calls =
      ⟨.ok (.error failure), .ok (.error (.parse failure)), .ok []⟩ := by
  rw [outcome, play_tokens herror, play_canonicalize herror, herror]
  rfl

/-- A tree that is accepted is taken from either call, by one attempt or the other. -/
theorem sameButAttempt_of_accepts {damaged : Bool}
    (hdamaged : (ofTree file.source tree).isDamaged = .ok damaged)
    (hfirst : first 0 = some tree) (hlate : second 0 = none) (hsecond : second 1 = some tree)
    (haccepts : options.parsing.accepts (ofTree file.source tree) = .ok true) :
    SameButAttempt file tree (options.outcome file first) (options.outcome file second) := by
  have htaken := outcome_of_ok (ParseLimits.play_parse_of_late rfl hlate hsecond haccepts)
  cases damaged with
  | true =>
    rw [htaken, outcome_of_ok (ParseLimits.play_parse_of_damaged rfl hfirst hdamaged haccepts)]
    exact .taken rfl rfl
  | false =>
    rw [htaken, outcome_of_ok (ParseLimits.play_parse_of_sound rfl hfirst hdamaged)]
    exact .taken rfl rfl

theorem sameButAttempt_of_not_accepts
    (hdamaged : (ofTree file.source tree).isDamaged = .ok true)
    (hfirst : first 0 = some tree) (hlate : second 0 = none) (hsecond : second 1 = some tree)
    (hrefuses : options.parsing.accepts (ofTree file.source tree) = .ok false) :
    SameButAttempt file tree (options.outcome file first) (options.outcome file second) := by
  rw [outcome_of_error (ParseLimits.play_parse_of_damaged rfl hfirst hdamaged hrefuses),
    outcome_of_error (ParseLimits.play_parse_of_late rfl hlate hsecond hrefuses)]
  exact .refused

/-- A configuration that is built gives the same to a tree that comes at once and to one that comes
too late for the fast attempt, and it never refuses a tree without damage. Trees and sources are in
memory, so words count what they have. -/
theorem sameButAttempt_of_build (hbuild : layering.build = .ok config)
    (hsize : tree.size < UInt64.size) (hsource : file.source.size < UInt64.size)
    (hfirst : first 0 = some tree) (hlate : second 0 = none) (hsecond : second 1 = some tree) :
    SameButAttempt file tree (config.canonicalOptions.outcome file first)
        (config.canonicalOptions.outcome file second) ∧
      ((∀ node ∈ tree.subtrees, ¬ node.isDamaged) →
        (config.canonicalOptions.outcome file second).accepted =
          .ok (.ok ⟨file, tree, .forgiving, ofTree file.source tree⟩)) := by
  have hratio : Binary64.zero.le config.canonicalOptions.parsing.maxErrorRatio :=
    (Config.Layering.build_eq_ok_iff.mp hbuild).2.1
  have hclean : config.canonicalOptions.parsing.accepts (undamaged file.source false) = .ok true :=
    ParseLimits.accepts_undamaged hratio hsource
  refine ⟨?_, fun hsound => ?_⟩
  · obtain ⟨accepted, haccepts⟩ := ParseLimits.exists_accepts_ofTree
      config.canonicalOptions.parsing file.source hsize
    have hanswer := @isDamaged_ofTree file.source tree hsize
    cases accepted with
    | true => exact sameButAttempt_of_accepts hanswer hfirst hlate hsecond haccepts
    | false =>
      cases hdamaged : (tree.label.error || decide (noted tree ≠ [])) with
      | true =>
        rw [hdamaged] at hanswer
        exact sameButAttempt_of_not_accepts hanswer hfirst hlate hsecond haccepts
      | false =>
        -- a report without damage would be accepted
        rw [hdamaged] at hanswer
        rw [ofTree_of_not_isDamaged hsize hanswer] at haccepts
        cases hclean.symm.trans haccepts
  · rw [← ofTree_of_sound hsound] at hclean
    rw [outcome_of_ok (ParseLimits.play_parse_of_late rfl hlate hsecond hclean)]

/-- The tree of `x = 1` and a line end. -/
def oneAssignment : Tree :=
  .node (.sound "module" true 0 6 none) [
    .node (.sound "assignment" true 0 5 none) [
      .node (.sound "identifier" true 0 1 (some "left")) [],
      .node (.sound "=" false 2 3 none) [],
      .node (.sound "integer" true 4 5 (some "right")) []]]

def assignmentFile : SourceFile := ⟨.python, .ofString "x = 1\n"⟩

def assignmentAtOnce : Outcome :=
  Config.standard.canonicalOptions.outcome assignmentFile fun _ => some oneAssignment

def assignmentLate : Outcome :=
  Config.standard.canonicalOptions.outcome assignmentFile (Parser.onSecondCall oneAssignment)

/-- A tree without damage is taken by the fast attempt if it comes at once, and by the forgiving one
if it comes late. -/
theorem sameButAttempt_oneAssignment :
    Config.Layering.initial.build = .ok .standard ∧
      (∀ node ∈ oneAssignment.subtrees, ¬ node.isDamaged) ∧
      SameButAttempt assignmentFile oneAssignment assignmentAtOnce assignmentLate ∧
      assignmentLate.accepted = .ok (.ok ⟨assignmentFile, oneAssignment, .forgiving,
        ofTree assignmentFile.source oneAssignment⟩) := by
  have hsound : ∀ node ∈ oneAssignment.subtrees, ¬ node.isDamaged := by decide
  obtain ⟨hsame, htaken⟩ := @sameButAttempt_of_build .initial .standard assignmentFile
    oneAssignment (fun _ => some oneAssignment) (Parser.onSecondCall oneAssignment)
    Config.Layering.build_initial (by decide) (by decide) rfl rfl rfl
  exact ⟨Config.Layering.build_initial, hsound, hsame, htaken hsound⟩

end CanonicalOptions

end CanonicalTokens
