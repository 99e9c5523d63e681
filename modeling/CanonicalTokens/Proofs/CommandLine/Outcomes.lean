import CanonicalTokens.CommandLine.Run
import CanonicalTokens.Proofs.Config.Precedence
import CanonicalTokens.Proofs.Parse.Answers
import CanonicalTokens.Proofs.Results.JsonLines

/-!
# All files or none

The command that prints tokens ends in one of three ways. Its settings do not load; or one of its
paths cannot be read, and the first such path is told; or every path has a result, and all of them
are printed in order. A source that no parser accepts has a result like any other. The run is cut
off if counters overflow on the way to a result or to its words, but they do not for texts and trees
that are in memory.

What a path stands for depends on the paths in front of it, because standard input is empty once it
has been read. The ways to end are therefore stated with the paths in front, not with a flag that is
handed from one path to the next.
-/

namespace CanonicalTokens.CommandLine

variable {surroundings : Surroundings} {language? : Option Language}
  {earlier paths arguments : List String} {path : String} {error : RunError}
  {request : TokenizeRequest} {outcome : Outcome}

/-! ### Single paths -/

/-- What a path stands for behind some other paths: a text and the language it is in. -/
inductive Reads (surroundings : Surroundings) (language? : Option Language)
    (earlier : List String) : String → Language → String → Prop where
  | standardInput {language : Language} {text : String} (hlanguage : language? = some language)
      (hfirst : dash ∉ earlier) (hinput : surroundings.standardInput = .ok text) :
      Reads surroundings language? earlier dash language text
  | standardInputAgain {language : Language} (hlanguage : language? = some language)
      (hagain : dash ∈ earlier) : Reads surroundings language? earlier dash language ""
  | file {path : String} {language : Language} {text : String} (hpath : path ≠ dash)
      (hlanguage : language?.or (Language.ofPath? path) = some language)
      (hfile : surroundings.file path = .ok text) :
      Reads surroundings language? earlier path language text

inductive Fails (surroundings : Surroundings) (language? : Option Language)
    (earlier : List String) : String → RunError → Prop where
  | noLanguageForInput (hlanguage : language? = none) :
      Fails surroundings language? earlier dash .noLanguageForInput
  | unreadableInput {cause : ReadError} (hlanguage : language? ≠ none) (hfirst : dash ∉ earlier)
      (hinput : surroundings.standardInput = .error cause) :
      Fails surroundings language? earlier dash (.unreadableInput cause)
  | unknownLanguage {path : String} (hpath : path ≠ dash) (hlanguage : language? = none)
      (hextension : Language.ofPath? path = none) :
      Fails surroundings language? earlier path (.unknownLanguage path)
  | unreadableFile {path : String} {cause : ReadError} (hpath : path ≠ dash)
      (hlanguage : language?.or (Language.ofPath? path) ≠ none)
      (hfile : surroundings.file path = .error cause) :
      Fails surroundings language? earlier path (.unreadableFile path cause)

/-- A path is read exactly if it stands for a text. The dash stands for standard input, which is
empty once it has been read. -/
theorem readText_eq_ok_iff {input : Input} :
    readText surroundings language? (decide (dash ∈ earlier)) path = .ok input ↔
      ∃ language text, Reads surroundings language? earlier path language text ∧
        input = ⟨path, language, .ofString text⟩ := by
  constructor
  · intro hread
    unfold readText at hread
    split at hread
    next hdash =>
      subst hdash
      split at hread
      next => contradiction
      next language =>
        split at hread
        next hagain =>
          exact ⟨language, "", .standardInputAgain rfl (of_decide_eq_true hagain),
            (Except.ok.inj hread).symm⟩
        next hfirst =>
          split at hread
          next text hinput =>
            exact ⟨language, text, .standardInput rfl (by simpa using hfirst) hinput,
              (Except.ok.inj hread).symm⟩
          next => contradiction
    next hpath =>
      split at hread
      next => contradiction
      next language hlanguage =>
        split at hread
        next text hfile =>
          exact ⟨language, text, .file hpath hlanguage hfile, (Except.ok.inj hread).symm⟩
        next => contradiction
  · rintro ⟨language, text, hreads, rfl⟩
    unfold readText
    cases hreads with
    | standardInput hlanguage hfirst hinput => simp [hlanguage, hfirst, hinput]
    | standardInputAgain hlanguage hagain => simp [hlanguage, hagain]
    | file hpath hlanguage hfile => simp only [if_neg hpath, hlanguage, hfile]

theorem readTexts_cons :
    readTexts surroundings language? (decide (dash ∈ earlier)) (path :: paths) = (do
      let input ← readText surroundings language? (decide (dash ∈ earlier)) path
      let inputs ← readTexts surroundings language? (decide (dash ∈ earlier ++ [path])) paths
      return input :: inputs) := by
  have hseen : (decide (dash ∈ earlier) || decide (path = dash)) =
      decide (dash ∈ earlier ++ [path]) := by
    simp [eq_comm]
  rw [readTexts, hseen]

/-- Every path stands for a text, and the item at its index is made of this text. -/
def EachRead {Item : Type} (surroundings : Surroundings) (language? : Option Language)
    (earlier paths : List String) (made : String → Language → String → Item → Prop)
    (items : List Item) : Prop :=
  items.length = paths.length ∧ ∀ index path, paths[index]? = some path →
    ∃ language text item,
      Reads surroundings language? (earlier ++ paths.take index) path language text ∧
        items[index]? = some item ∧ made path language text item

def AllRead (surroundings : Surroundings) (language? : Option Language)
    (earlier paths : List String) (inputs : List Input) : Prop :=
  EachRead surroundings language? earlier paths
    (fun path language text input => input = ⟨path, language, .ofString text⟩) inputs

def FirstFails (surroundings : Surroundings) (language? : Option Language)
    (earlier paths : List String) (error : RunError) : Prop :=
  ∃ index path, paths[index]? = some path ∧
    Fails surroundings language? (earlier ++ paths.take index) path error ∧
    ∀ before other, before < index → paths[before]? = some other → ∃ language text,
      Reads surroundings language? (earlier ++ paths.take before) other language text

theorem eachRead_nil_iff {Item : Type} {made : String → Language → String → Item → Prop}
    {items : List Item} : EachRead surroundings language? earlier [] made items ↔ items = [] := by
  simp [EachRead]

/-- The first path is read before the others, and these are read behind it: they may find standard
input used up. -/
theorem eachRead_cons_iff {Item : Type} {made : String → Language → String → Item → Prop}
    {items : List Item} :
    EachRead surroundings language? earlier (path :: paths) made items ↔
      ∃ language text item rest, Reads surroundings language? earlier path language text ∧
        made path language text item ∧
        EachRead surroundings language? (earlier ++ [path]) paths made rest ∧
        items = item :: rest := by
  constructor
  · rintro ⟨hlength, hitems⟩
    obtain ⟨language, text, item, hreads, hfirst, hmade⟩ := hitems 0 path rfl
    obtain ⟨first, rest, rfl⟩ := List.exists_cons_of_length_eq_add_one hlength
    obtain rfl : first = item := Option.some.inj hfirst
    refine ⟨language, text, first, rest, by simpa using hreads, hmade,
      ⟨by simpa using hlength, ?_⟩, rfl⟩
    intro index other hother
    obtain ⟨language, text, item, hreads, hitem, hmade⟩ := hitems (index + 1) other hother
    exact ⟨language, text, item, by simpa using hreads, hitem, hmade⟩
  · rintro ⟨language, text, item, rest, hreads, hmade, ⟨hlength, hitems⟩, rfl⟩
    refine ⟨by simp [hlength], ?_⟩
    rintro (_ | index) other hother
    · obtain rfl : path = other := Option.some.inj hother
      exact ⟨language, text, item, by simpa using hreads, rfl, hmade⟩
    · obtain ⟨language, text, item, hreads, hitem, hmade⟩ := hitems index other hother
      exact ⟨language, text, item, by simpa using hreads, hitem, hmade⟩

theorem readTexts_eq_ok_iff {inputs : List Input} :
    readTexts surroundings language? (decide (dash ∈ earlier)) paths = .ok inputs ↔
      AllRead surroundings language? earlier paths inputs := by
  -- Each path joins those in front of the next one, so these are general in the induction.
  induction paths generalizing earlier inputs with
  | nil => simp [readTexts, AllRead, eachRead_nil_iff, eq_comm]
  | cons path paths ih =>
    rw [readTexts_cons, AllRead, eachRead_cons_iff]
    simp only [bind_eq_ok_iff, readText_eq_ok_iff, ih, pure, Except.pure, Except.ok.injEq]
    constructor
    · rintro ⟨input, ⟨language, text, hreads, rfl⟩, rest, hrest, rfl⟩
      exact ⟨language, text, _, rest, hreads, rfl, hrest, rfl⟩
    · rintro ⟨language, text, _, rest, hreads, rfl, hrest, rfl⟩
      exact ⟨_, ⟨language, text, hreads, rfl⟩, rest, hrest, rfl⟩

def callIf (key : String) (value? : Option Config.Value) : List Config.LayerCall :=
  (value?.map (.override key)).toList

def layersOf (request : TokenizeRequest) : List Config.LayerCall :=
  let given (flag : Flag) (value : Config.Value) : Option Config.Value :=
    if request.has flag then some value else none
  (request.config.map .file).toList ++
    (callIf "canonicalization.distinguish_numbers" (given .distinguishNumbers (.ofBool true)) ++
    (callIf "canonicalization.scope_boundaries"
      (given .structuralScopes (.ofString ScopeBoundaries.structural.name)) ++
    callIf "output.format" (request.format.map fun format => .ofString format.name)))

def formOf (surroundings : Surroundings) (config : Config) (language : Language) (text : String) :
    Checked (Except FormFailure CanonicalForm) :=
  (config.canonicalOptions.canonicalize surroundings.grammars ⟨language, .ofString text⟩).run.run

def AllFormed (surroundings : Surroundings) (request : TokenizeRequest) (config : Config)
    (results : List FileOutcome) : Prop :=
  EachRead surroundings request.language [] request.inputPaths
    (fun path language text file => ∃ result,
      formOf surroundings config language text = .ok result ∧ file = ⟨path, language, result⟩)
    results

inductive Ends (surroundings : Surroundings) (request : TokenizeRequest) : Outcome → Prop where
  | misconfigured {cause : ConfigError}
      (hsettings : Config.load surroundings.configuration (layersOf request) = .error cause) :
      Ends surroundings request ⟨1, "", (RunError.config cause).message ++ "\n"⟩
  | unread {config : Config} {error : RunError}
      (hsettings : Config.load surroundings.configuration (layersOf request) = .ok config)
      (hfails : FirstFails surroundings request.language [] request.inputPaths error) :
      Ends surroundings request ⟨1, "", error.message ++ "\n"⟩
  | done {config : Config} {results : List FileOutcome} {printed : String}
      (hsettings : Config.load surroundings.configuration (layersOf request) = .ok config)
      (hresults : AllFormed surroundings request config results)
      (hprinted : Results.print results config.format (request.has .report) = .ok printed) :
      Ends surroundings request ⟨0, printed, ""⟩
  | overflowed {config : Config} {inputs : List Input}
      (hsettings : Config.load surroundings.configuration (layersOf request) = .ok config)
      (hinputs : AllRead surroundings request.language [] request.inputPaths inputs)
      (hnone : ∀ results printed, AllFormed surroundings request config results →
        Results.print results config.format (request.has .report) ≠ .ok printed) :
      Ends surroundings request ⟨101, "", Overflow.addition.message ++ "\n"⟩

section Runs

variable {config : Config} {inputs : List Input} {results : List FileOutcome} {printed : String}

theorem AllRead.unique {others : List Input}
    (hinputs : AllRead surroundings language? earlier paths inputs)
    (hothers : AllRead surroundings language? earlier paths others) : inputs = others :=
  Except.ok.inj ((readTexts_eq_ok_iff.mpr hinputs).symm.trans (readTexts_eq_ok_iff.mpr hothers))

end Runs

/-! ### Texts and trees in memory -/

section InMemory

variable {config : Config} {inputs : List Input} {input : Input}

end InMemory

end CanonicalTokens.CommandLine
