import CanonicalTokens.Config.Layering

/-!
# Building a configuration

A configuration is built from values that can be read, if its share of damage is one. The defaults
are such values: a text in small letters is its own lower-case form, so every choice is read from
its name.
-/

namespace CanonicalTokens

open Numeral

/-! ### Small letters -/

namespace Text

/-- The character comes before the capitals of Latin-1 and is no capital of ASCII. -/
def isSmall (character : Char) : Bool :=
  character.toNat < 0xC0 && !(0x41 ≤ character.toNat && character.toNat ≤ 0x5A)

theorem capitalRuns_all : capitalRuns.toList.all fun (first, last, _) =>
    0xC0 ≤ first || 0x41 ≤ first && last ≤ 0x5A := by
  decide +kernel

theorem lowerCharacter_of_isSmall {character : Char} (hsmall : isSmall character) :
    lowerCharacter character = [character] := by
  simp only [isSmall, Bool.and_eq_true, decide_eq_true_eq, Bool.not_eq_true', Bool.and_eq_false_iff,
    decide_eq_false_iff_not] at hsmall
  have hdotted : (character.toNat == 0x130) = false := by
    rw [beq_eq_false_iff_ne]
    omega
  rw [lowerCharacter, hdotted, Array.find?_eq_none.mpr]
  · rfl
  · intro run hmem
    have hrun := List.all_eq_true.mp capitalRuns_all run (Array.mem_toList_iff.mpr hmem)
    obtain ⟨first, last, step, distance⟩ := run
    simp only [Bool.or_eq_true, Bool.and_eq_true, decide_eq_true_eq] at hrun ⊢
    omega

/-- Small letters, digits and the like are their own lower case, whatever stands before them. -/
theorem lowerAfter_of_isSmall (before : List Char) {characters : List Char}
    (hsmall : ∀ character ∈ characters, isSmall character) :
    lowerAfter before characters = characters := by
  induction characters generalizing before with
  | nil => rfl
  | cons character rest ih =>
    have hfirst := hsmall character List.mem_cons_self
    have hsigma : (character.toNat == 0x3A3) = false := by
      simp only [isSmall, Bool.and_eq_true, decide_eq_true_eq] at hfirst
      rw [beq_eq_false_iff_ne]
      omega
    rw [lowerAfter, hsigma, Bool.false_and, Bool.false_and, if_neg Bool.false_ne_true,
      lowerCharacter_of_isSmall hfirst,
      ih _ fun other hother => hsmall other (List.mem_cons_of_mem _ hother)]
    rfl

theorem lowercase_of_isSmall {text : String}
    (hsmall : ∀ character ∈ text.toList, isSmall character) : lowercase text = text := by
  rw [lowercase, lowerAfter_of_isSmall [] hsmall, String.ofList_toList]

end Text

namespace Config

/-! ### Choices -/

theorem decodeName_of_isSmall {Choice : Type} {enumeration name : String}
    {choices : List (String × Choice)} {choice : Choice}
    (hsmall : name.toList.all Text.isSmall) (hchoice : choices.lookup name = some choice) :
    decodeName enumeration choices name = .ok choice := by
  rw [decodeName, Text.lowercase_of_isSmall (List.all_eq_true.mp hsmall), hchoice]

theorem decodeBoundaries_name (boundaries : ScopeBoundaries) (key : String) :
    decodeBoundaries key (.ofString boundaries.name) = .ok boundaries := by
  apply decodeName_of_isSmall
  · cases boundaries <;> rfl
  · cases boundaries <;> rfl

theorem decodeFormat_name (format : OutputFormat) (key : String) :
    decodeFormat key (.ofString format.name) = .ok format := by
  apply decodeName_of_isSmall
  · cases format <;> rfl
  · cases format <;> rfl

/-! ### Sections -/

theorem Section.field_of_lookup {Content : Type} {part : Section} {origin? : Option String}
    {entries : Entries} {place : Nat} {decode : String → Value → Except ConfigError Content}
    {entry : Value} {content : Content}
    (hentry : entries.lookup (part.fieldName place) = some entry)
    (hcontent : ∀ key, decode key entry = .ok content) :
    part.field (.table origin? entries) place decode = .ok (some content) := by
  rw [field, hentry]
  dsimp only
  rw [hcontent]
  rfl

theorem decodeNat_ofNat (number : Nat) (key : String) :
    decodeNat key (.ofNat number) = .ok number := by
  simp [decodeNat, Value.ofNat]

theorem decodeFloat_ofFloat (number : Binary64) (key : String) :
    decodeFloat key (.ofFloat number) = .ok number := rfl

theorem decodeBool_ofBool (truth : Bool) (key : String) :
    decodeBool key (.ofBool truth) = .ok truth := rfl

def writtenParsing (parsing : Parsing) : Value :=
  .table none [
    ("fast_timeout_ms", .ofNat parsing.fastTimeoutMs),
    ("forgiving_timeout_ms", .ofNat parsing.forgivingTimeoutMs),
    ("max_error_nodes", .ofNat parsing.maxErrorNodes),
    ("max_error_ratio", .ofFloat parsing.maxErrorRatio)]

theorem decodeParsing_written (parsing : Parsing) :
    decodeParsing (writtenParsing parsing) = .ok parsing := by
  rw [decodeParsing, writtenParsing, Section.field_of_lookup rfl (decodeNat_ofNat _),
    Section.field_of_lookup rfl (decodeNat_ofNat _),
    Section.field_of_lookup rfl (decodeNat_ofNat _),
    Section.field_of_lookup rfl (decodeFloat_ofFloat _)]
  rfl

def writtenCanonicalization (canonicalization : Canonicalization) : Value :=
  .table none [
    ("scope_boundaries", .ofString canonicalization.scopeBoundaries.name),
    ("distinguish_numbers", .ofBool canonicalization.distinguishNumbers)]

theorem decodeCanonicalization_written (canonicalization : Canonicalization) :
    decodeCanonicalization (writtenCanonicalization canonicalization) = .ok canonicalization := by
  rw [decodeCanonicalization, writtenCanonicalization,
    Section.field_of_lookup rfl (decodeBoundaries_name _),
    Section.field_of_lookup rfl (decodeBool_ofBool _)]
  rfl

theorem decodeOutput_written (format : OutputFormat) :
    decodeOutput (.table none [("format", .ofString format.name)]) = .ok format := by
  rw [decodeOutput, Section.field_of_lookup rfl (decodeFormat_name _)]
  rfl

def written (config : Config) : Entries :=
  [("parsing", writtenParsing config.parsing),
    ("canonicalization", writtenCanonicalization config.canonicalization),
    ("output", .table none [("format", .ofString config.format.name)])]

/-- A configuration that is written out in full is read back as it was. -/
theorem decode_written (config : Config) : decode (written config) = .ok config := by
  have hparsing : sectionValue (written config) parsingSection =
      .ok (writtenParsing config.parsing) := rfl
  have hcanonicalization : sectionValue (written config) canonicalizationSection =
      .ok (writtenCanonicalization config.canonicalization) := rfl
  have houtput : sectionValue (written config) outputSection =
      .ok (.table none [("format", .ofString config.format.name)]) := rfl
  simp only [decode, hparsing, hcanonicalization, houtput, bind, Except.bind,
    decodeParsing_written, decodeCanonicalization_written, decodeOutput_written]
  rfl

theorem decode_defaults : decode defaults = .ok standard :=
  decode_written standard

/-! ### Building -/

theorem validate_eq_ok_iff {config accepted : Config} :
    config.validate = .ok accepted ↔
      config = accepted ∧ Binary64.zero.le config.parsing.maxErrorRatio ∧
        config.parsing.maxErrorRatio.le .one := by
  unfold validate
  dsimp only
  split
  next hinside => simpa using fun _ => hinside
  next houtside => simpa using fun _ => houtside

namespace Layering

/-- A layering builds a configuration exactly if its merged entries decode to it and its error ratio
is between zero and one. -/
theorem build_eq_ok_iff {layering : Layering} {config : Config} :
    layering.build = .ok config ↔
      (∃ entries, layering.merge = .ok entries ∧ decode entries = .ok config) ∧
        Binary64.zero.le config.parsing.maxErrorRatio ∧
        config.parsing.maxErrorRatio.le .one := by
  unfold build
  cases layering.merge with
  | error failure => simp [bind, Except.bind]
  | ok entries =>
    cases hdecode : decode entries with
    | error failure => simp [bind, Except.bind, hdecode]
    | ok decoded =>
      have hbuild : (Except.ok entries >>= fun entries => decode entries >>= validate) =
          decoded.validate := by simp [bind, Except.bind, hdecode]
      rw [hbuild, validate_eq_ok_iff]
      constructor
      · rintro ⟨rfl, hinside⟩
        exact ⟨⟨entries, rfl, hdecode⟩, hinside⟩
      · rintro ⟨⟨other, hmerge, hother⟩, hinside⟩
        obtain rfl := Except.ok.inj hmerge
        obtain rfl := Except.ok.inj (hdecode.symm.trans hother)
        exact ⟨rfl, hinside⟩

theorem build_initial : initial.build = .ok standard :=
  build_eq_ok_iff.mpr ⟨⟨_, rfl, decode_defaults⟩, by decide +kernel⟩

end Layering

end Config

end CanonicalTokens
