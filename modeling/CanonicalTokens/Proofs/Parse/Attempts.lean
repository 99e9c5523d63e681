import CanonicalTokens.Proofs.Parse.Answers

/-!
# What the attempts decide

A parser comes back in time or it does not, call by call. What becomes of a file depends on the
outcomes of two calls at most, and the second is made only if the first runs out of time. The tree
that is judged is the first one there is. The fast attempt takes it if it came at once and has no
damage, and otherwise the forgiving one takes it if its damage is within the limits.
-/

namespace CanonicalTokens

/-- Runs that keep the calls they make of a parser, in order. -/
abbrev Scripted := StateM (List (Source × Duration))

def Scripted.play {Result : Type} (run : CheckedT Scripted Result) :
    Checked Result × List (Source × Duration) :=
  (StateT.run run.run []).run

def Parser.scripted (outcome : Nat → Option Tree) : Parser Scripted :=
  fun source budget => do
    let calls ← get
    set (calls ++ [(source, budget)])
    return outcome calls.length

def Parser.onSecondCall (tree : Tree) (call : Nat) : Option Tree :=
  if call = 0 then none else some tree

def Grammars.scripted (outcome : Nat → Option Tree) : Grammars Scripted :=
  fun _ => .ok (.scripted outcome)

namespace ParseLimits

open DamageReport (ofTree)

variable {options : ParseLimits} {file : SourceFile} {source : Source} {tree : Tree}
  {grammars : Grammars Scripted} {outcome : Nat → Option Tree}

/-! ### Runs -/

section Runs

open Scripted

theorem run_scripted_bind {Result : Type} {budget : Duration} (calls : List (Source × Duration))
    (next : Option Tree → Scripted Result) :
    (Parser.scripted outcome source budget >>= next).run calls =
      (next (outcome calls.length)).run (calls ++ [(source, budget)]) := rfl

variable {accepted : Bool} (hloads : grammars file.language = .ok (.scripted outcome))

include hloads

theorem play_parse :
    play (options.parse grammars file) =
      match outcome 0, outcome 1 with
      | some tree, _ => (options.settle file tree, [(file.source, options.fastTimeout)])
      | none, some tree => (options.settleLate file tree,
          [(file.source, options.fastTimeout), (file.source, options.forgivingTimeout)])
      | none, none => (.ok (.error (.timedOut options.forgivingTimeout)),
          [(file.source, options.fastTimeout), (file.source, options.forgivingTimeout)]) := by
  rw [play, run_parse hloads, run_scripted_bind, List.length_nil, List.nil_append]
  cases outcome 0 with
  | some tree => rfl
  | none =>
    dsimp only
    rw [run_scripted_bind, List.length_singleton]
    cases outcome 1 <;> rfl

theorem play_parse_of_sound (hfirst : outcome 0 = some tree)
    (hsound : (ofTree file.source tree).isDamaged = .ok false) :
    play (options.parse grammars file) =
      (.ok (.ok ⟨file, tree, .fast, ofTree file.source tree⟩),
        [(file.source, options.fastTimeout)]) := by
  rw [play_parse hloads, hfirst]
  dsimp only
  rw [settle_of_not_isDamaged hsound]

theorem play_parse_of_damaged (hfirst : outcome 0 = some tree)
    (hdamaged : (ofTree file.source tree).isDamaged = .ok true)
    (haccepts : options.accepts (ofTree file.source tree) = .ok accepted) :
    play (options.parse grammars file) =
      (.ok (forgive file tree accepted), [(file.source, options.fastTimeout)]) := by
  rw [play_parse hloads, hfirst]
  dsimp only
  rw [settle_of_isDamaged hdamaged, settleLate_of_accepts haccepts]

theorem play_parse_of_late (hfirst : outcome 0 = none) (hsecond : outcome 1 = some tree)
    (haccepts : options.accepts (ofTree file.source tree) = .ok accepted) :
    play (options.parse grammars file) =
      (.ok (forgive file tree accepted),
        [(file.source, options.fastTimeout), (file.source, options.forgivingTimeout)]) := by
  rw [play_parse hloads, hfirst, hsecond]
  dsimp only
  rw [settleLate_of_accepts haccepts]

theorem play_parse_of_none (hfirst : outcome 0 = none) (hsecond : outcome 1 = none) :
    play (options.parse grammars file) =
      (.ok (.error (.timedOut options.forgivingTimeout)),
        [(file.source, options.fastTimeout), (file.source, options.forgivingTimeout)]) := by
  rw [play_parse hloads, hfirst, hsecond]

end Runs

/-! ### What the forgiving attempt takes -/

/-- The damage of a tree is within the limits, and the source goes on behind the given nodes. -/
structure Tolerates (options : ParseLimits) (source : Source) (tree : Tree) (nodes : List Tree) :
    Prop where
  root : ¬ tree.label.error
  continued : ∀ node ∈ nodes, node.isDamaged → ¬ Text.allBlank (source.rest node.label.stop)
  few : tree.outermostDamage.length ≤ options.maxErrorNodes
  share : (ofTree source tree).damagedShare.le options.maxErrorRatio

/-- An attempt that decides on the report of a tree decides by the tree itself. -/
theorem accepts_ofTree_iff {accepted : Bool} (hmarks : tree.MarksExact)
    (hsize : tree.size < UInt64.size)
    (haccepts : options.accepts (ofTree source tree) = .ok accepted) :
    accepted ↔ options.Tolerates source tree (tree.outermostDamage.map Prod.snd) := by
  have hreport : ofTree source tree = .ofFound source tree.label.error tree.outermostDamage :=
    DamageReport.ofTree_of_marksExact hmarks
  have htotal : (ofTree source tree).total = tree.outermostDamage.length := by
    rw [hreport, DamageReport.total_ofFound]
  have hroot : (ofTree source tree).rootIsError = tree.label.error := by rw [hreport]; rfl
  have htruncated : (ofTree source tree).truncated =
      tree.outermostDamage.any fun entry => Text.allBlank (source.rest entry.2.label.stop) := by
    rw [hreport]
    rfl
  have hdamaged : ∀ entry ∈ tree.outermostDamage, entry.2.isDamaged := fun entry hmem =>
    (Tree.mem_outermostDamage_iff.mp hmem).2.1
  rw [accepts_of_total_lt (DamageReport.total_ofTree_lt source hsize), Except.ok.injEq] at haccepts
  simp only [← haccepts, htotal, hroot, htruncated, Bool.and_eq_true, Bool.not_eq_true',
    decide_eq_true_eq, List.any_eq_false]
  constructor
  · rintro ⟨⟨⟨hroot, hcontinued⟩, hfew⟩, hshare⟩
    refine ⟨by simp [hroot], ?_, hfew, hshare⟩
    intro node hnode _
    obtain ⟨entry, hmem, rfl⟩ := List.mem_map.mp hnode
    exact hcontinued entry hmem
  · intro htolerates
    refine ⟨⟨⟨by simpa using htolerates.root, ?_⟩, htolerates.few⟩, htolerates.share⟩
    intro entry hmem
    exact htolerates.continued entry.2 (List.mem_map_of_mem hmem) (hdamaged entry hmem)

/-- Where ranges nest, the source goes on behind all damaged nodes if it does so behind the
outermost ones. -/
theorem tolerates_subtrees_iff (hranges : tree.RangesNest source) :
    options.Tolerates source tree tree.subtrees ↔
      options.Tolerates source tree (tree.outermostDamage.map Prod.snd) := by
  have hends := DamageReport.exists_outermost_truncated_iff hranges
  constructor
  · intro htolerates
    refine { htolerates with continued := ?_ }
    intro node hnode hdamaged hblank
    obtain ⟨entry, hmem, rfl⟩ := List.mem_map.mp hnode
    obtain ⟨inner, hinner, hdamaged, hblank⟩ := hends.mp ⟨entry, hmem, hblank⟩
    exact htolerates.continued inner hinner hdamaged hblank
  · intro htolerates
    refine { htolerates with continued := ?_ }
    intro node hnode hdamaged hblank
    obtain ⟨entry, hmem, hblank⟩ := hends.mpr ⟨node, hnode, hdamaged, hblank⟩
    exact htolerates.continued entry.2 (List.mem_map_of_mem hmem)
      (Tree.mem_outermostDamage_iff.mp hmem).2.1 hblank

/-! ### The decision -/

def SoundInTime (first : Option Tree) : Prop :=
  ∃ tree, first = some tree ∧ ∀ node ∈ tree.subtrees, ¬ node.isDamaged

/-- The result that the outcomes of two calls lead to, with the calls that are made for it. -/
structure Decides (options : ParseLimits) (file : SourceFile) (first second : Option Tree)
    (result : Except ParseFailure AcceptedTree) (calls : List (Source × Duration)) : Prop where
  calls : calls = (file.source, options.fastTimeout) ::
    if first.isSome then [] else [(file.source, options.forgivingTimeout)]
  fast : (∃ accepted, result = .ok accepted ∧ accepted.attempt = .fast) ↔ SoundInTime first
  forgiving : (∃ accepted, result = .ok accepted ∧ accepted.attempt = .forgiving) ↔
    ¬ SoundInTime first ∧ ∃ tree, first.or second = some tree ∧
      options.Tolerates file.source tree (tree.outermostDamage.map Prod.snd)
  forgiving_of_nested : (∀ tree, first.or second = some tree → tree.RangesNest file.source) →
    ((∃ accepted, result = .ok accepted ∧ accepted.attempt = .forgiving) ↔
      ¬ SoundInTime first ∧ ∃ tree, first.or second = some tree ∧
        options.Tolerates file.source tree tree.subtrees)
  timedOut : result = .error (.timedOut options.forgivingTimeout) ↔ first = none ∧ second = none
  tooManyErrors : (∀ accepted, result ≠ .ok accepted) → ¬ (first = none ∧ second = none) →
    ∃ tree, first.or second = some tree ∧
      result = .error (.tooManyErrors (ofTree file.source tree))
  accepted : ∀ accepted, result = .ok accepted → accepted.file = file ∧
    first.or second = some accepted.tree ∧ accepted.report = ofTree file.source accepted.tree

theorem exists_tolerated_iff {judged : Option Tree}
    (hranges : ∀ tree, judged = some tree → tree.RangesNest source) :
    (∃ tree, judged = some tree ∧ options.Tolerates source tree tree.subtrees) ↔
      ∃ tree, judged = some tree ∧
        options.Tolerates source tree (tree.outermostDamage.map Prod.snd) :=
  exists_congr fun tree => and_congr_right fun hjudged =>
    tolerates_subtrees_iff (hranges tree hjudged)

section Decisions

variable {first second : Option Tree} {calls : List (Source × Duration)}

/-- A tree without damage that is made in time is taken by the fast attempt, and no second call is
made. -/
theorem decides_of_sound (hfirst : first = some tree)
    (hsound : ∀ node ∈ tree.subtrees, ¬ node.isDamaged)
    (hcalls : calls = [(file.source, options.fastTimeout)]) :
    options.Decides file first second (.ok ⟨file, tree, .fast, ofTree file.source tree⟩) calls := by
  have hinTime : SoundInTime first := ⟨tree, hfirst, hsound⟩
  have hother : ¬ ∃ accepted, (.ok ⟨file, tree, .fast, ofTree file.source tree⟩ :
      Except ParseFailure AcceptedTree) = .ok accepted ∧ accepted.attempt = .forgiving := by
    rintro ⟨accepted, hok, hattempt⟩
    obtain rfl := Except.ok.inj hok
    cases hattempt
  refine
    { calls := by rw [hcalls, hfirst]; rfl
      fast := iff_of_true ⟨_, rfl, rfl⟩ hinTime
      forgiving := iff_of_false hother fun htolerated => htolerated.1 hinTime
      forgiving_of_nested := fun _ => iff_of_false hother fun htolerated => htolerated.1 hinTime
      timedOut := iff_of_false (by simp) ?_
      tooManyErrors := fun hnone => absurd rfl (hnone _)
      accepted := ?_ }
  · rintro ⟨hlate, -⟩
    rw [hfirst] at hlate
    cases hlate
  · intro accepted hok
    obtain rfl := Except.ok.inj hok
    exact ⟨rfl, by rw [hfirst, Option.some_or], rfl⟩

/-- In the other cases the tree at hand is judged by the forgiving attempt. A second call is made
only if the first one made no tree. -/
theorem decides_of_forgive {accepted : Bool} (hdamaged : ¬ SoundInTime first)
    (hjudged : first.or second = some tree)
    (haccepts : accepted ↔
      options.Tolerates file.source tree (tree.outermostDamage.map Prod.snd))
    (hcalls : calls = (file.source, options.fastTimeout) ::
      if first.isSome then [] else [(file.source, options.forgivingTimeout)]) :
    options.Decides file first second (forgive file tree accepted) calls := by
  have hforgiving : (∃ taken, forgive file tree accepted = .ok taken ∧
      taken.attempt = .forgiving) ↔ ∃ other, first.or second = some other ∧
        options.Tolerates file.source other (other.outermostDamage.map Prod.snd) := by
    constructor
    · rintro ⟨taken, hok, -⟩
      exact ⟨tree, hjudged, haccepts.mp (forgive_eq_ok_iff.mp hok).1⟩
    · rintro ⟨other, hother, htolerates⟩
      obtain rfl := Option.some.inj (hjudged.symm.trans hother)
      exact ⟨_, forgive_eq_ok_iff.mpr ⟨haccepts.mpr htolerates, rfl⟩, rfl⟩
  refine
    { calls := hcalls
      fast := iff_of_false ?_ hdamaged
      forgiving := by rw [hforgiving, and_iff_right hdamaged]
      forgiving_of_nested := fun hranges => by
        rw [hforgiving, and_iff_right hdamaged, exists_tolerated_iff hranges]
      timedOut := iff_of_false ?_ ?_
      tooManyErrors := ?_
      accepted := ?_ }
  · rintro ⟨taken, hok, hattempt⟩
    obtain rfl := (forgive_eq_ok_iff.mp hok).2
    cases hattempt
  · intro hlate
    cases (forgive_eq_error_iff.mp hlate).2
  · rintro ⟨hfirst, hsecond⟩
    rw [hfirst, hsecond] at hjudged
    cases hjudged
  · intro hnone _
    refine ⟨tree, hjudged, forgive_eq_error_iff.mpr ⟨?_, rfl⟩⟩
    intro htaken
    exact hnone _ (forgive_eq_ok_iff.mpr ⟨htaken, rfl⟩)
  · intro taken hok
    obtain rfl := (forgive_eq_ok_iff.mp hok).2
    exact ⟨rfl, hjudged, rfl⟩

theorem decides_of_none (hfirst : first = none) (hsecond : second = none)
    (hcalls : calls =
      [(file.source, options.fastTimeout), (file.source, options.forgivingTimeout)]) :
    options.Decides file first second (.error (.timedOut options.forgivingTimeout)) calls := by
  subst hfirst hsecond
  have hnever : ¬ SoundInTime none := by
    rintro ⟨tree, hnone, -⟩
    cases hnone
  constructor <;> simp_all

end Decisions

/-- Each run decides, for any outcomes of the calls, and each decision is made exactly when it
should be. -/
theorem decides_parse (options : ParseLimits)
    (hloads : grammars file.language = .ok (.scripted outcome))
    (houtcome : ∀ call tree, outcome call = some tree →
      tree.MarksExact ∧ tree.size < UInt64.size) :
    ∃ result calls, Scripted.play (options.parse grammars file) = (.ok result, calls) ∧
      options.Decides file (outcome 0) (outcome 1) result calls := by
  cases hfirst : outcome 0 with
  | some tree =>
    obtain ⟨hmarks, hsize⟩ := houtcome 0 tree hfirst
    obtain ⟨accepted, haccepts⟩ := exists_accepts_ofTree options file.source hsize
    have hreport := @DamageReport.isDamaged_ofTree_of_marksExact file.source tree hmarks hsize
    by_cases hdamaged : ∃ node ∈ tree.subtrees, node.isDamaged
    · rw [decide_eq_true hdamaged] at hreport
      refine ⟨_, _, play_parse_of_damaged hloads hfirst hreport haccepts,
        decides_of_forgive ?_ rfl (accepts_ofTree_iff hmarks hsize haccepts) rfl⟩
      rintro ⟨other, hother, hsound⟩
      obtain rfl := Option.some.inj hother
      obtain ⟨node, hnode, hbad⟩ := hdamaged
      exact hsound node hnode hbad
    · rw [decide_eq_false hdamaged] at hreport
      refine ⟨_, _, play_parse_of_sound hloads hfirst hreport, decides_of_sound rfl ?_ rfl⟩
      intro node hnode hbad
      exact hdamaged ⟨node, hnode, hbad⟩
  | none =>
    cases hsecond : outcome 1 with
    | some tree =>
      obtain ⟨hmarks, hsize⟩ := houtcome 1 tree hsecond
      obtain ⟨accepted, haccepts⟩ := exists_accepts_ofTree options file.source hsize
      refine ⟨_, _, play_parse_of_late hloads hfirst hsecond haccepts,
        decides_of_forgive ?_ rfl (accepts_ofTree_iff hmarks hsize haccepts) rfl⟩
      rintro ⟨other, hother, -⟩
      cases hother
    | none =>
      exact ⟨_, _, play_parse_of_none hloads hfirst hsecond, decides_of_none rfl rfl rfl⟩

/-- The tree of `f(])`, a line end and `g`. The bracket is an error. -/
def strayBracket : Tree :=
  .node ⟨"module", true, false, false, true, 0, 6, none⟩ [
    .node ⟨"call", true, false, false, true, 0, 4, none⟩ [
      .node (.sound "identifier" true 0 1 (some "function")) [],
      .node ⟨"argument_list", true, false, false, true, 1, 4, some "arguments"⟩ [
        .node (.sound "(" false 1 2 none) [],
        .node ⟨"ERROR", true, false, true, true, 2, 3, none⟩ [
          .node (.sound "]" false 2 3 none) []],
        .node (.sound ")" false 3 4 none) []]],
    .node (.sound "identifier" true 5 6 none) []]

def strayFile : SourceFile := ⟨.python, .ofString "f(])\ng"⟩

/-- The first call runs out of time, and the tree of the second one is within the limits. -/
theorem decides_strayBracket :
    (∀ call tree, Parser.onSecondCall strayBracket call = some tree →
      tree.MarksExact ∧ tree.size < UInt64.size) ∧
    ∃ accepted, Scripted.play
        (standard.parse (.scripted (Parser.onSecondCall strayBracket)) strayFile) =
      (.ok (.ok accepted), [(strayFile.source, standard.fastTimeout),
        (strayFile.source, standard.forgivingTimeout)]) ∧ accepted.attempt = .forgiving := by
  have houtcome : ∀ call tree, Parser.onSecondCall strayBracket call = some tree →
      tree.MarksExact ∧ tree.size < UInt64.size := by
    intro call tree houtcome
    unfold Parser.onSecondCall at houtcome
    split at houtcome
    · cases houtcome
    · obtain rfl := Option.some.inj houtcome
      decide
  have hloads : Grammars.scripted (Parser.onSecondCall strayBracket) strayFile.language =
      .ok (.scripted (Parser.onSecondCall strayBracket)) := rfl
  obtain ⟨result, calls, hplay, hdecides⟩ := decides_parse standard hloads houtcome
  have hranges : strayBracket.RangesNest strayFile.source := by constructor <;> decide
  have hnested : ∀ tree, (none : Option Tree).or (some strayBracket) = some tree →
      tree.RangesNest strayFile.source := by
    intro tree hjudged
    obtain rfl : strayBracket = tree := Option.some.inj hjudged
    exact hranges
  have hlate : ¬ SoundInTime none := by
    rintro ⟨tree, hfirst, -⟩
    cases hfirst
  obtain ⟨accepted, rfl, hattempt⟩ := (hdecides.forgiving_of_nested hnested).mpr
    ⟨hlate, strayBracket, rfl, by decide, by decide, by decide, by decide +kernel⟩
  exact ⟨houtcome, accepted, hdecides.calls ▸ hplay, hattempt⟩

end ParseLimits

end CanonicalTokens
