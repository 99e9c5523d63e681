import CanonicalTokens.Numeral.Decimal
import CanonicalTokens.Text.Quoted

/-!
# Configuration values

What a configuration holds before it is known what it is for: scalars, lists and tables. A value
that was read from a file remembers the file, so that a wrong value can be traced back to it.
-/

namespace CanonicalTokens.Config

open Numeral

inductive Scalar where
  | nil
  | bool (value : Bool)
  | integer (value : Int)
  | float (value : Binary64)
  | string (value : String)
  deriving DecidableEq, Repr

inductive Value where
  | scalar (origin? : Option String) (scalar : Scalar)
  | list (origin? : Option String) (items : List Value)
  | table (origin? : Option String) (entries : List (String × Value))
  deriving Inhabited

/-- Named values, each name at most once. -/
abbrev Entries := List (String × Value)

namespace Value

def nil : Value := .scalar none .nil

def ofBool (value : Bool) : Value := .scalar none (.bool value)

def ofNat (value : Nat) : Value := .scalar none (.integer value)

def ofFloat (value : Binary64) : Value := .scalar none (.float value)

def ofString (value : String) : Value := .scalar none (.string value)

def origin? : Value → Option String
  | scalar origin? _ => origin?
  | list origin? _ => origin?
  | table origin? _ => origin?

mutual

def located (origin : String) : Value → Value
  | scalar _ content => .scalar (some origin) content
  | list _ items => .list (some origin) (locatedItems origin items)
  | table _ entries => .table (some origin) (locatedEntries origin entries)

def locatedItems (origin : String) : List Value → List Value
  | [] => []
  | item :: rest => located origin item :: locatedItems origin rest

def locatedEntries (origin : String) : List (String × Value) → List (String × Value)
  | [] => []
  | (name, value) :: rest => (name, located origin value) :: locatedEntries origin rest

end

/-- The value in words, where an integer is called as given. -/
def describe (integer : String) : Value → String
  | scalar _ .nil => "unit value"
  | scalar _ (.bool value) => s!"boolean `{value}`"
  | scalar _ (.integer value) => s!"{integer} `{value}`"
  | scalar _ (.float value) => s!"floating point `{value.displayPointed}`"
  | scalar _ (.string value) => s!"string {Text.quote value}"
  | list _ _ => "sequence"
  | table _ _ => "map"

end Value

end CanonicalTokens.Config
