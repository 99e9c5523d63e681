import CanonicalTokens.Numeral.Decimal

/-!
# JSON values

The values of the JSON data format. A number without point and exponent that fits into 64 bits,
signed or unsigned, is an integer; every other number is a double. The entries of an object keep
their order.
-/

namespace CanonicalTokens

open Numeral

inductive Json where
  | null
  | bool (value : Bool)
  | integer (value : Int)
  | float (value : Binary64)
  | string (value : String)
  | array (items : List Json)
  | object (entries : List (String × Json))
  deriving Inhabited, BEq

namespace Json

def ofNat (number : Nat) : Json := .integer number

def ofStrings (texts : List String) : Json := .array (texts.map .string)

def ofOption {Content : Type} (encode : Content → Json) : Option Content → Json
  | some content => encode content
  | none => .null

/-- The entry of an object under a name. Of several the last one counts. -/
def get? (name : String) : Json → Option Json
  | .object entries => entries.reverse.lookup name
  | _ => none

def string? : Json → Option String
  | .string value => some value
  | _ => none

def bool? : Json → Option Bool
  | .bool value => some value
  | _ => none

def nat? : Json → Option Nat
  | .integer (.ofNat value) => some value
  | _ => none

def array? : Json → Option (List Json)
  | .array items => some items
  | _ => none

def entries? : Json → Option (List (String × Json))
  | .object entries => some entries
  | _ => none

def strings? (json : Json) : Option (List String) :=
  json.array?.bind fun items => items.mapM string?

end Json

end CanonicalTokens
