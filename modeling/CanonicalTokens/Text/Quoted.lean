import CanonicalTokens.Text.Hidden

/-!
# Quoted texts

A text between double quotes, written so that every character of it can be told apart on one line.
The quote and the backslash are preceded by a backslash, tab, carriage return, line feed and NUL
have letters of their own, and every other character that would not show is written by its number.
-/

namespace CanonicalTokens.Text

/-- The hexadecimal digits of a number, small letters and no leading zero. -/
def hexadecimal (number : Nat) : List Char :=
  Nat.toDigits 16 number

def quoteCharacter (character : Char) : List Char :=
  if character = '"' then ['\\', '"']
  else if character = '\\' then ['\\', '\\']
  else if character = '\t' then ['\\', 't']
  else if character = '\r' then ['\\', 'r']
  else if character = '\n' then ['\\', 'n']
  else if character = '\x00' then ['\\', '0']
  else if isHidden character then
    ['\\', 'u', '\x7b'] ++ hexadecimal character.toNat ++ ['\x7d']
  else [character]

def quote (text : String) : String :=
  String.ofList ('"' :: (text.toList.flatMap quoteCharacter ++ ['"']))

/-- A list of texts between square brackets, each one quoted. -/
def quoteList (texts : List String) : String :=
  "[" ++ String.intercalate ", " (texts.map quote) ++ "]"

end CanonicalTokens.Text
