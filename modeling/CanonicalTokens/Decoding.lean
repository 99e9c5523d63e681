import CanonicalTokens.Encoding
import CanonicalTokens.OutputFormat
import CanonicalTokens.Text.Quoted

/-!
# Reading options from JSON

Options are written as names and as records of names and truth values. A name stands alone or as the
only key of an object whose value is null. A record is an object with all its fields, whatever else
it has, or the list of its fields in order.

What cannot be read is explained by the first thing that is wrong with it.
-/

namespace CanonicalTokens.Json

inductive DecodeError where
  | wrongType (found : Json) (expected : String)
  | severalKeys
  | unknownName (name : String) (names : List String)
  | missingField (name : String)
  | tooShort (length : Nat) (expected : String)
  | tooLong (length : Nat)

def describe : Json → String
  | null => "null"
  | bool value => s!"boolean `{value}`"
  | integer value => s!"integer `{value}`"
  | float value => s!"floating point `{value.displayPointed}`"
  | string value => s!"string {Text.quote value}"
  | array _ => "sequence"
  | object _ => "map"

def describeChoice : List String → String
  | [] => "there are no variants"
  | [only] => s!"expected `{only}`"
  | [first, second] => s!"expected `{first}` or `{second}`"
  | names => "expected one of " ++ String.intercalate ", " (names.map fun name => s!"`{name}`")

def DecodeError.message : DecodeError → String
  | wrongType found expected => s!"invalid type: {found.describe}, expected {expected}"
  | severalKeys => "invalid value: map, expected map with a single key"
  | unknownName name names => s!"unknown variant `{name}`, {describeChoice names}"
  | missingField name => s!"missing field `{name}`"
  | tooShort length expected => s!"invalid length {length}, expected {expected}"
  | tooLong length => s!"invalid length {length}, expected fewer elements in array"

/-- The option that a name stands for among those listed. -/
def decodeName {Choice : Type} (choices : List (String × Choice)) (name : String) :
    Except DecodeError Choice :=
  match choices.lookup name with
  | some choice => .ok choice
  | none => .error (.unknownName name (choices.map Prod.fst))

/-- An option given by its name. The name is judged before the value that goes with it. -/
def decodeChoice {Choice : Type} (choices : List (String × Choice)) :
    Json → Except DecodeError Choice
  | string name => decodeName choices name
  | object [(name, value)] => do
    let choice ← decodeName choices name
    match value with
    | null => return choice
    | found => throw (.wrongType found "unit")
  | object _ => .error .severalKeys
  | found => .error (.wrongType found "string or map")

def decodeBool : Json → Except DecodeError Bool
  | bool value => .ok value
  | found => .error (.wrongType found "a boolean")

/-! ### The options -/

/-- The spellings of languages, grouped by language and sorted within each group. -/
def languageChoices : List (String × Language) :=
  [("c++", .cpp), ("cpp", .cpp), ("c#", .csharp), ("cs", .csharp), ("csharp", .csharp),
    ("go", .go), ("golang", .go), ("py", .python), ("py3", .python), ("python", .python),
    ("python3", .python)]

def decodeLanguage : Json → Except DecodeError Language :=
  decodeChoice languageChoices

def decodeBoundaries : Json → Except DecodeError ScopeBoundaries :=
  decodeChoice (ScopeBoundaries.all.map fun boundaries => (boundaries.name, boundaries))

def decodeOutputFormat : Json → Except DecodeError OutputFormat :=
  decodeChoice (OutputFormat.all.map fun format => (format.name, format))

/-- The options of a walk. The values that are there are judged before those that are not. -/
def decodeWalkOptions : Json → Except DecodeError WalkOptions
  | object entries => do
    let boundaries? ← ((object entries).get? "boundaries").mapM decodeBoundaries
    let distinguishNumbers? ← ((object entries).get? "distinguish_numbers").mapM decodeBool
    match boundaries?, distinguishNumbers? with
    | none, _ => throw (.missingField "boundaries")
    | _, none => throw (.missingField "distinguish_numbers")
    | some boundaries, some distinguishNumbers => return ⟨boundaries, distinguishNumbers⟩
  | array items =>
    let short := fun length => DecodeError.tooShort length "struct WalkOptions with 2 elements"
    match items with
    | [] => throw (short 0)
    | first :: rest => do
      let boundaries ← decodeBoundaries first
      match rest with
      | [] => throw (short 1)
      | second :: further =>
        let distinguishNumbers ← decodeBool second
        if further.isEmpty then return ⟨boundaries, distinguishNumbers⟩
        else throw (.tooLong items.length)
  | found => throw (.wrongType found "struct WalkOptions")

end CanonicalTokens.Json
