import CanonicalTokens.Json

/-!
# Reading JSON texts

Every JSON text has at most one value. Each reader takes the characters that are left and answers
with what it has read and what is left then.
-/

namespace CanonicalTokens.Json

open Numeral

def isSpace (character : Char) : Bool :=
  character = ' ' || character = '\n' || character = '\t' || character = '\r'

def skipSpaces (characters : List Char) : List Char :=
  characters.dropWhile isSpace

/-! ### Strings -/

def hexadecimalValue? (digit : Char) : Option Nat :=
  if '0' ≤ digit ∧ digit ≤ '9' then some (digit.toNat - '0'.toNat)
  else if 'a' ≤ digit ∧ digit ≤ 'f' then some (digit.toNat - 'a'.toNat + 10)
  else if 'A' ≤ digit ∧ digit ≤ 'F' then some (digit.toNat - 'A'.toNat + 10)
  else none

def hexadecimalUnit? (first second third fourth : Char) : Option Nat := do
  let high ← hexadecimalValue? first
  let upper ← hexadecimalValue? second
  let lower ← hexadecimalValue? third
  let low ← hexadecimalValue? fourth
  return ((high * 16 + upper) * 16 + lower) * 16 + low

def unescape? : Char → Option Char
  | '"' => some '"'
  | '\\' => some '\\'
  | '/' => some '/'
  | 'b' => some '\x08'
  | 'f' => some '\x0c'
  | 'n' => some '\n'
  | 'r' => some '\r'
  | 't' => some '\t'
  | _ => none

def joinSurrogates? (high low : Nat) : Option Char :=
  if 0xD800 ≤ high ∧ high < 0xDC00 ∧ 0xDC00 ≤ low ∧ low < 0xE000 then
    some (Char.ofNat (0x10000 + (high - 0xD800) * 0x400 + (low - 0xDC00)))
  else none

/-- The characters of a string up to its closing quote, and what follows the quote. -/
def readString? : List Char → Option (List Char × List Char)
  | [] => none
  | '"' :: rest => some ([], rest)
  | '\\' :: 'u' :: a :: b :: c :: d :: rest => do
    let unit ← hexadecimalUnit? a b c d
    if unit < 0xD800 ∨ 0xE000 ≤ unit then
      let (tail, left) ← readString? rest
      return (Char.ofNat unit :: tail, left)
    else
      match rest with
      | '\\' :: 'u' :: e :: f :: g :: h :: further => do
        let second ← hexadecimalUnit? e f g h
        let character ← joinSurrogates? unit second
        let (tail, left) ← readString? further
        return (character :: tail, left)
      | _ => none
  | '\\' :: letter :: rest => do
    let character ← unescape? letter
    let (tail, left) ← readString? rest
    return (character :: tail, left)
  | character :: rest => do
    if character.toNat < 0x20 then none
    else
      let (tail, left) ← readString? rest
      return (character :: tail, left)

/-! ### Numbers -/

/-- An integer if it fits into 64 bits, else the nearest double. A negative zero is a double. -/
def wholeNumber (negative : Bool) (magnitude : Nat) : Json :=
  if negative then
    if 0 < magnitude ∧ magnitude ≤ 1 <<< 63 then .integer (-magnitude)
    else .float (Decimal.toBinary64 true ⟨magnitude, 0⟩)
  else if magnitude < UInt64.size then .integer magnitude
  else .float (Decimal.toBinary64 false ⟨magnitude, 0⟩)

def isNumberSign (character : Char) : Bool :=
  character.isDigit || character = '.' || character = 'e' || character = 'E' ||
    character = '+' || character = '-'

/-- Whole part and the rest: digits, at least one, and no zero before another digit. -/
def readWhole? (characters : List Char) : Option (Nat × List Char) :=
  let digits := characters.takeWhile Char.isDigit
  match digits with
  | [] => none
  | '0' :: _ :: _ => none
  | _ => some (digitsFrom 0 digits, characters.dropWhile Char.isDigit)

/-- A number without blanks; a point is followed by a digit. -/
def readUnsigned? (negative : Bool) (signs : List Char) : Option Json := do
  let (whole, fraction) ← readWhole? signs
  match fraction with
  | [] => return wholeNumber negative whole
  | '.' :: first :: _ => if first.isDigit then decimal else none
  | '.' :: [] => none
  | _ => decimal
where
  decimal : Option Json :=
    (Decimal.read? signs).map fun number => .float (number.toBinary64 negative)

def readNumber? (characters : List Char) : Option (Json × List Char) :=
  let signs := characters.takeWhile isNumberSign
  let number? := match signs with
    | '-' :: rest => readUnsigned? true rest
    | signs => readUnsigned? false signs
  number?.map fun number => (number, characters.dropWhile isNumberSign)

/-! ### Values -/

mutual

/-- A value. The bound limits the number of nested and successive values. -/
def readValue? : Nat → List Char → Option (Json × List Char)
  | 0, _ => none
  | bound + 1, characters =>
    match skipSpaces characters with
    | 'n' :: 'u' :: 'l' :: 'l' :: rest => some (.null, rest)
    | 't' :: 'r' :: 'u' :: 'e' :: rest => some (.bool true, rest)
    | 'f' :: 'a' :: 'l' :: 's' :: 'e' :: rest => some (.bool false, rest)
    | '"' :: rest => (readString? rest).map fun (text, left) => (.string (String.ofList text), left)
    | '[' :: rest =>
      match skipSpaces rest with
      | ']' :: left => some (.array [], left)
      | _ => (readItems? bound rest).map fun (items, left) => (.array items, left)
    | '\x7b' :: rest =>
      match skipSpaces rest with
      | '\x7d' :: left => some (.object [], left)
      | _ => (readEntries? bound rest).map fun (entries, left) => (.object entries, left)
    | characters => readNumber? characters

/-- The items of a list, at least one, up to the closing bracket. -/
def readItems? : Nat → List Char → Option (List Json × List Char)
  | 0, _ => none
  | bound + 1, characters => do
    let (item, rest) ← readValue? bound characters
    match skipSpaces rest with
    | ']' :: left => return ([item], left)
    | ',' :: further =>
      let (items, left) ← readItems? bound further
      return (item :: items, left)
    | _ => none

/-- The entries of an object, at least one, up to the closing brace. -/
def readEntries? : Nat → List Char → Option (List (String × Json) × List Char)
  | 0, _ => none
  | bound + 1, characters => do
    match skipSpaces characters with
    | '"' :: rest =>
      let (name, rest) ← readString? rest
      match skipSpaces rest with
      | ':' :: rest =>
        let (value, rest) ← readValue? bound rest
        let entry := (String.ofList name, value)
        match skipSpaces rest with
        | '\x7d' :: left => return ([entry], left)
        | ',' :: further =>
          let (entries, left) ← readEntries? bound further
          return (entry :: entries, left)
        | _ => none
      | _ => none
    | _ => none

end

/-- The value of a JSON text. Every second call inside a value has used up a character, so twice
the length of the text bounds them. -/
def read? (text : String) : Option Json := do
  let characters := text.toList
  let (value, rest) ← readValue? (2 * characters.length + 2) characters
  if (skipSpaces rest).isEmpty then return value else none

end CanonicalTokens.Json
