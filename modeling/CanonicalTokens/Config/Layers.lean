import CanonicalTokens.Config.KeyPath
import CanonicalTokens.Config.Value
import CanonicalTokens.Text.Lowercase

/-!
# Layers of a configuration

Laying one configuration over another. A table is laid over a table entry by entry; every other
value replaces what it is laid over, and so does a table that is laid over no table. Names do not
depend on case: they are kept in lower case.

A value can also be put at the end of a key path. What is in the way of the path gives way: where
the path goes on to an entry there is a table afterwards, and where it goes on to an item, a list.
-/

namespace CanonicalTokens.Config

namespace Entries

/-- Gives a name a value, in place of the one it has. -/
def put (name : String) (value : Value) : Entries → Entries
  | [] => [(name, value)]
  | (other, old) :: rest =>
    if other = name then (name, value) :: rest else (other, old) :: put name value rest

theorem lookup_put_self (name : String) (value : Value) (entries : Entries) :
    (put name value entries).lookup name = some value := by
  induction entries with
  | nil => simp [put]
  | cons entry rest ih =>
    obtain ⟨other, old⟩ := entry
    by_cases hsame : other = name
    · simp [put, hsame]
    · have hdifferent : (name == other) = false := by simpa using fun hequal => hsame hequal.symm
      simp [put, hsame, List.lookup_cons, hdifferent, ih]

theorem lookup_put_of_ne {name wanted : String} (hne : wanted ≠ name) (value : Value)
    (entries : Entries) : (put name value entries).lookup wanted = entries.lookup wanted := by
  have hdifferent : (wanted == name) = false := by simpa using hne
  induction entries with
  | nil => simp [put, List.lookup_cons, hdifferent]
  | cons entry rest ih =>
    obtain ⟨other, old⟩ := entry
    by_cases hsame : other = name
    · subst hsame
      simp [put, List.lookup_cons, hdifferent]
    · simp [put, hsame, List.lookup_cons, ih]

end Entries

namespace Value

/-- The entries of a table; nothing else has any. -/
def entries : Value → Entries
  | table _ entries => entries
  | _ => []

/-- The items of a list; nothing else has any. -/
def items : Value → List Value
  | list _ items => items
  | _ => []

/-- A table with other entries, or a new table in the place of something else. -/
def withEntries (entries : Entries) : Value → Value
  | table origin? _ => .table origin? entries
  | _ => .table none entries

/-- A list with other items, or a new list in the place of something else. -/
def withItems (items : List Value) : Value → Value
  | list origin? _ => .list origin? items
  | _ => .list none items

end Value

mutual

/-- Lays a value over the entry with a name. A table without entries changes no entry, and makes one
only where there is none. -/
def layEntry (base : Entries) (name : String) : Value → Entries
  | .table _ [] =>
    let key := Text.lowercase name
    base.put key ((base.lookup key).getD (.table none []))
  | .table _ (entry :: rest) =>
    let key := Text.lowercase name
    let old := (base.lookup key).getD (.table none [])
    base.put key (old.withEntries (layEntries old.entries (entry :: rest)))
  | value => base.put (Text.lowercase name) value

def layEntries (base : Entries) : List (String × Value) → Entries
  | [] => base
  | (name, value) :: rest => layEntries (layEntry base name value) rest

end

def itemPlace (index : Int) (length : Nat) : Nat :=
  match index with
  | .ofNat place => place
  | .negSucc back => length - (back + 1)

/-- Gives an item of a list a value. A list that is too short is filled up with nil. -/
def putItem (items : List Value) (place : Nat) (value : Value) : List Value :=
  (items ++ List.replicate (place + 1 - items.length) Value.nil).set place value

/-- Puts a value at the end of some steps from another value. At the end, an entry is laid over and
an item is replaced. -/
def putAt (value : Value) : List KeyStep → Value → Value
  | [], _ => value
  | [.entry name], old => old.withEntries (layEntry old.entries name value)
  | .entry name :: next :: steps, old =>
    let key := Text.lowercase name
    let inner := (old.entries.lookup key).getD .nil
    old.withEntries (old.entries.put key (putAt value (next :: steps) inner))
  | .item index :: steps, old =>
    let place := itemPlace index old.items.length
    let inner := (old.items[place]?).getD .nil
    old.withItems (putItem old.items place (putAt value steps inner))

def putPath (base : Entries) (path : KeyPath) (value : Value) : Entries :=
  (putAt value (.entry path.name :: path.steps) (.table none base)).entries

/-- Lays an entry of a file over a configuration. Its name is a key path if it can be read as one,
and a plain name otherwise. -/
def layNamed (base : Entries) (entry : String × Value) : Entries :=
  match KeyPath.read entry.1 with
  | .ok path => putPath base path entry.2
  | .error _ => layEntry base entry.1 entry.2

end CanonicalTokens.Config
