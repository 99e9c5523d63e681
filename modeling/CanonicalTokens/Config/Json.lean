import CanonicalTokens.Config.Layering
import CanonicalTokens.Json

/-!
# Configurations in JSON

A configuration file holds an object. Objects are tables, and every other value stands for itself.
-/

namespace CanonicalTokens.Config

mutual

def valueOfJson : Json → Value
  | .null => .nil
  | .bool value => .ofBool value
  | .integer value => .scalar none (.integer value)
  | .float value => .ofFloat value
  | .string value => .ofString value
  | .array items => .list none (itemsOfJson items)
  | .object entries => .table none (entriesOfJson entries)

def itemsOfJson : List Json → List Value
  | [] => []
  | item :: rest => valueOfJson item :: itemsOfJson rest

def entriesOfJson : List (String × Json) → List (String × Value)
  | [] => []
  | (name, value) :: rest => (name, valueOfJson value) :: entriesOfJson rest

end

/-- What a file holds whose text has been read as JSON, if it could be. -/
def FileContent.ofJson : Option Json → FileContent
  | some (.object members) => .entries (entriesOfJson members)
  | _ => .malformed

end CanonicalTokens.Config
