import CanonicalTokens.Json

/-!
# Compact JSON texts

A value on one line without blanks. In a string the quote, the backslash and the controls are
escaped, the controls by a letter where there is one and by four hexadecimal digits otherwise; every
other character stands for itself.
-/

namespace CanonicalTokens.Json

def hexadecimalDigit (value : Nat) : Char :=
  if value < 10 then Char.ofNat ('0'.toNat + value) else Char.ofNat ('a'.toNat + (value - 10))

def escape (character : Char) : List Char :=
  if character = '"' then ['\\', '"']
  else if character = '\\' then ['\\', '\\']
  else if character = '\x08' then ['\\', 'b']
  else if character = '\x0c' then ['\\', 'f']
  else if character = '\n' then ['\\', 'n']
  else if character = '\r' then ['\\', 'r']
  else if character = '\t' then ['\\', 't']
  else if character.toNat < 0x20 then
    ['\\', 'u', '0', '0', hexadecimalDigit (character.toNat / 16),
      hexadecimalDigit (character.toNat % 16)]
  else [character]

def printString (text : String) : List Char :=
  '"' :: (text.toList.flatMap escape ++ ['"'])

mutual

/-- The text of a value. A double that is not finite has no JSON form and is written as null. -/
def print : Json → List Char
  | .null => "null".toList
  | .bool true => "true".toList
  | .bool false => "false".toList
  | .integer value => (toString value).toList
  | .float value => if value.isFinite then value.displayPointed.toList else "null".toList
  | .string value => printString value
  | .array items => '[' :: (printItems items ++ [']'])
  | .object entries => '\x7b' :: (printEntries entries ++ ['\x7d'])

def printItems : List Json → List Char
  | [] => []
  | [item] => print item
  | item :: next :: rest => print item ++ ',' :: printItems (next :: rest)

def printEntries : List (String × Json) → List Char
  | [] => []
  | [(name, value)] => printString name ++ ':' :: print value
  | (name, value) :: next :: rest =>
    printString name ++ ':' :: (print value ++ ',' :: printEntries (next :: rest))

end

def render (json : Json) : String :=
  String.ofList json.print

end CanonicalTokens.Json
