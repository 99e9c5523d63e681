import CanonicalTokens.Config
import CanonicalTokens.Config.Layers

/-!
# Reading settings from values

The settings are read from the values of a configuration. Scalars are converted where this loses
nothing that matters: numbers, truth values and texts stand for one another. A section is a table
with all its fields, whatever else it has, or the list of its fields in order.
-/

namespace CanonicalTokens

open Numeral Config

inductive ConfigError where
  | badPath (error : KeyPathError)
  | fileNotFound (name : String)
  | fileMalformed (name : String)
  | wrongType (found : Value) (expected key : String)
  | notSection (found : Value) (shape : String)
  | shortSection (length : Nat) (shape : String) (fields : Nat)
  | missingField (name : String)
  | notChoice (enumeration : String)
  | unknownChoice (enumeration name : String)
  | ratioOutside (ratio : Binary64)

namespace ConfigError

def describeFields (fields : Nat) : String :=
  if fields = 1 then "1 element" else s!"{fields} elements"

def describeOrigin : Option String → String
  | some origin => s!" in {origin}"
  | none => ""

def message : ConfigError → String
  | badPath error => error.message
  | fileNotFound name => s!"configuration file \"{name}\" not found"
  | fileMalformed name => s!"configuration file \"{name}\" is malformed"
  | wrongType found expected key =>
    s!"invalid type: {describeFound found}, expected {expected} for key `{key}`" ++
      describeOrigin found.origin?
  | notSection found shape =>
    s!"invalid type: {describePlain found}, expected struct {shape}"
  | shortSection length shape fields =>
    s!"invalid length {length}, expected struct {shape} with {describeFields fields}"
  | missingField name => s!"missing field `{name}`"
  | notChoice enumeration =>
    s!"value of enum {enumeration} should be represented by " ++
      "either string or table with exactly one key"
  | unknownChoice enumeration name =>
    s!"enum {enumeration} does not have variant constructor {name}"
  | ratioOutside ratio =>
    s!"parsing.max_error_ratio must be between 0 and 1, got {ratio.display}"
where
  describeFound (found : Value) : String := found.describe "64-bit integer"
  describePlain (found : Value) : String := found.describe "integer"

end ConfigError

namespace Config

/-! ### Scalars -/

/-- The truth value that a word stands for, in lower case. -/
def truthOfWord? (word : String) : Option Bool :=
  if ["true", "on", "yes"].contains word then some true
  else if ["false", "off", "no"].contains word then some false
  else none

def greatestNat : Nat := UInt64.size - 1

/-- A number of decimal digits with an optional plus sign, within the range of settings. -/
def readNat? (characters : List Char) : Option Nat :=
  let digits := match characters with
    | '+' :: rest => rest
    | digits => digits
  if digits.isEmpty || !digits.all Char.isDigit then none
  else
    let number := digitsFrom 0 digits
    if number ≤ greatestNat then some number else none

/-- A natural number. A double is rounded, and cut off at the ends of the range. -/
def decodeNat (key : String) (value : Value) : Except ConfigError Nat :=
  let wrong (expected : String) : Except ConfigError Nat := .error (.wrongType value expected key)
  match value with
  | .scalar _ (.integer number) =>
    if 0 ≤ number then .ok number.toNat else wrong "an unsigned 64 bit or less integer"
  | .scalar _ (.bool truth) => .ok truth.toNat
  | .scalar _ (.float number) => .ok (number.toNatWithin greatestNat)
  | .scalar _ (.string text) =>
    match truthOfWord? (Text.lowercase text), readNat? text.toList with
    | some truth, _ => .ok truth.toNat
    | none, some number => .ok number
    | none, none => wrong "an integer"
  | _ => wrong "an integer"

def decodeFloat (key : String) (value : Value) : Except ConfigError Binary64 :=
  let wrong : Except ConfigError Binary64 := .error (.wrongType value "a floating point" key)
  match value with
  | .scalar _ (.float number) => .ok number
  | .scalar _ (.integer number) => .ok (.ofInt number)
  | .scalar _ (.bool truth) => .ok (.ofNat truth.toNat)
  | .scalar _ (.string text) =>
    match truthOfWord? (Text.lowercase text), Binary64.read? text.toList with
    | some truth, _ => .ok (.ofNat truth.toNat)
    | none, some number => .ok number
    | none, none => wrong
  | _ => wrong

/-- A truth value. A text that is none is shown in lower case. -/
def decodeBool (key : String) (value : Value) : Except ConfigError Bool :=
  let wrong (found : Value) : Except ConfigError Bool := .error (.wrongType found "a boolean" key)
  match value with
  | .scalar _ (.bool truth) => .ok truth
  | .scalar _ (.integer number) => .ok (number ≠ 0)
  | .scalar _ (.float number) => .ok number.isNonzero
  | .scalar origin? (.string text) =>
    let word := Text.lowercase text
    if word = "1" then .ok true
    else if word = "0" then .ok false
    else
      match truthOfWord? word with
      | some truth => .ok truth
      | none => wrong (.scalar origin? (.string word))
  | found => wrong found

/-- The choice with a name, whatever its case. -/
def decodeName {Choice : Type} (enumeration : String) (choices : List (String × Choice))
    (name : String) : Except ConfigError Choice :=
  match choices.lookup (Text.lowercase name) with
  | some choice => .ok choice
  | none => .error (.unknownChoice enumeration name)

def decodeChoice {Choice : Type} (enumeration : String) (choices : List (String × Choice)) :
    Value → Except ConfigError Choice
  | .scalar _ (.string name) => decodeName enumeration choices name
  | .table _ [(name, _)] => decodeName enumeration choices name
  | _ => .error (.notChoice enumeration)

/-! ### Sections -/

structure Section where
  name : String
  shape : String
  fields : List String

namespace Section

def fieldName (part : Section) (place : Nat) : String :=
  part.fields.getD place ""

/-- Reads a field, which stands under its name in a table and at its place in a list. Only a table
may lack it. -/
def field {Content : Type} (part : Section) (value : Value) (place : Nat)
    (decode : String → Value → Except ConfigError Content) : Except ConfigError (Option Content) :=
  match value with
  | .scalar _ _ => .error (.notSection value part.shape)
  | .list _ items =>
    match items[place]? with
    | some item => (decode s!"{part.name}[{place}]" item).map some
    | none => .error (.shortSection place part.shape part.fields.length)
  | .table _ entries =>
    match entries.lookup (part.fieldName place) with
    | some entry => (decode s!"{part.name}.{part.fieldName place}" entry).map some
    | none => .ok none

def require {Content : Type} (part : Section) (place : Nat) :
    Option Content → Except ConfigError Content
  | some content => .ok content
  | none => .error (.missingField (part.fieldName place))

end Section

def parsingSection : Section :=
  ⟨"parsing", "ParsingConfig",
    ["fast_timeout_ms", "forgiving_timeout_ms", "max_error_nodes", "max_error_ratio"]⟩

def canonicalizationSection : Section :=
  ⟨"canonicalization", "CanonicalizationConfig", ["scope_boundaries", "distinguish_numbers"]⟩

def outputSection : Section :=
  ⟨"output", "OutputConfig", ["format"]⟩

def decodeBoundaries (_ : String) (value : Value) : Except ConfigError ScopeBoundaries :=
  decodeChoice "ScopeBoundaries"
    (ScopeBoundaries.all.map fun boundaries => (boundaries.name, boundaries)) value

def decodeFormat (_ : String) (value : Value) : Except ConfigError OutputFormat :=
  decodeChoice "OutputFormat" (OutputFormat.all.map fun format => (format.name, format)) value

def decodeParsing (value : Value) : Except ConfigError Parsing := do
  let fast? ← parsingSection.field value 0 decodeNat
  let forgiving? ← parsingSection.field value 1 decodeNat
  let nodes? ← parsingSection.field value 2 decodeNat
  let ratio? ← parsingSection.field value 3 decodeFloat
  let fast ← parsingSection.require 0 fast?
  let forgiving ← parsingSection.require 1 forgiving?
  let nodes ← parsingSection.require 2 nodes?
  let ratio ← parsingSection.require 3 ratio?
  return ⟨fast, forgiving, nodes, ratio⟩

def decodeCanonicalization (value : Value) : Except ConfigError Canonicalization := do
  let boundaries? ← canonicalizationSection.field value 0 decodeBoundaries
  let distinguish? ← canonicalizationSection.field value 1 decodeBool
  let boundaries ← canonicalizationSection.require 0 boundaries?
  let distinguish ← canonicalizationSection.require 1 distinguish?
  return ⟨boundaries, distinguish⟩

def decodeOutput (value : Value) : Except ConfigError OutputFormat := do
  outputSection.require 0 (← outputSection.field value 0 decodeFormat)

def sectionValue (entries : Entries) (part : Section) : Except ConfigError Value :=
  match entries.lookup part.name with
  | some value => .ok value
  | none => .error (.missingField part.name)

def decode (entries : Entries) : Except ConfigError Config := do
  let parsing ← decodeParsing (← sectionValue entries parsingSection)
  let canonicalization ← decodeCanonicalization (← sectionValue entries canonicalizationSection)
  let format ← decodeOutput (← sectionValue entries outputSection)
  return ⟨parsing, canonicalization, format⟩

def validate (config : Config) : Except ConfigError Config :=
  let ratio := config.parsing.maxErrorRatio
  if Binary64.zero.le ratio && ratio.le .one then .ok config else .error (.ratioOutside ratio)

end Config

end CanonicalTokens
