import CanonicalTokens.Json
import CanonicalTokens.Tree.Rows

/-!
# Reading trees from JSON

A tree in JSON is the list of its rows in document order. A row is a list: the depth, the kind, the
flags, the offsets of the first byte and of the byte behind the last, and the field if there is one.
The flags are the sum of 1 for a named node, 2 for a missing one, 4 for one in error, and 8 if the
node or a descendant is in error or missing.
-/

namespace CanonicalTokens

/-- The label with the given flags and no field. -/
def Label.ofFlags (kind : String) (flags start stop : Nat) : Label :=
  { kind
    named := flags.testBit 0
    missing := flags.testBit 1
    error := flags.testBit 2
    hasError := flags.testBit 3
    start
    stop
    field? := none }

def Row.ofJson? : Json → Option Row
  | .array [depth, kind, flags, start, stop] => do
    return ⟨← depth.nat?, .ofFlags (← kind.string?) (← flags.nat?) (← start.nat?) (← stop.nat?)⟩
  | .array [depth, kind, flags, start, stop, field] => do
    let row ← ofJson? (.array [depth, kind, flags, start, stop])
    return { row with label := { row.label with field? := some (← field.string?) } }
  | _ => none

def Tree.ofJson? (json : Json) : Option Tree := do
  Tree.ofRows? (← (← json.array?).mapM Row.ofJson?)

end CanonicalTokens
