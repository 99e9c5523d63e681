/-!
# Source texts

A source text is addressed by the offsets of its bytes in UTF-8. An offset inside a character
addresses nothing, so a range has a text only if it ends where characters do.
-/

namespace CanonicalTokens

/-- Zero-based line and offset within the line, in bytes. -/
structure Position where
  row : Nat
  column : Nat
  deriving DecidableEq, Repr

structure Source where
  characters : List Char
  deriving DecidableEq, Repr

namespace Source

def ofString (text : String) : Source := ⟨text.toList⟩

def text (source : Source) : String := String.ofList source.characters

def byteCount (characters : List Char) : Nat :=
  characters.foldr (fun character bytes => character.utf8Size + bytes) 0

def size (source : Source) : Nat :=
  byteCount source.characters

/-- The characters after the first `count` bytes, if these are whole characters. -/
def dropBytes : Nat → List Char → Option (List Char)
  | 0, characters => some characters
  | _ + 1, [] => none
  | count, character :: rest =>
    if character.utf8Size ≤ count then dropBytes (count - character.utf8Size) rest else none

/-- The characters within the first `count` bytes, if these are whole characters. -/
def takeBytes : Nat → List Char → Option (List Char)
  | 0, _ => some []
  | _ + 1, [] => none
  | count, character :: rest =>
    if character.utf8Size ≤ count then
      (takeBytes (count - character.utf8Size) rest).map (character :: ·)
    else none

def range? (source : Source) (start stop : Nat) : Option (List Char) :=
  if start ≤ stop then (dropBytes start source.characters).bind (takeBytes (stop - start))
  else none

/-- The text of a range of bytes, empty for what is no range of the source. -/
def slice (source : Source) (start stop : Nat) : String :=
  String.ofList ((source.range? start stop).getD [])

/-- The characters from an offset on, none for what is no offset of the source. -/
def rest (source : Source) (start : Nat) : List Char :=
  (dropBytes start source.characters).getD []

def position (source : Source) (offset : Nat) : Position :=
  let before := (takeBytes offset source.characters).getD []
  ⟨before.count '\n', byteCount (before.reverse.takeWhile (· ≠ '\n'))⟩

end Source

end CanonicalTokens
