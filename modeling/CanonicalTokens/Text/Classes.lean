/-!
# Classes of characters

White space in the sense of the Unicode property `White_Space`: the ASCII controls from tab to
carriage return, the space, and the separators outside ASCII. Core's `Char.isWhitespace` knows
four of them, so leaves of a syntax tree, names of languages and emitted tokens are judged by the
class defined here.

Larger classes are given as data: the ranges of code points that have a property, in increasing
order and with both ends included.
-/

namespace CanonicalTokens.Text

/-! ### Tables -/

/-- Ranges of code points, first and last included. -/
abbrev Ranges := Array (Nat × Nat)

def Ranges.contains (table : Ranges) (character : Char) : Bool :=
  table.any fun (first, last) => first ≤ character.toNat && character.toNat ≤ last

/-! ### Blank characters -/

/-- The characters with the property `White_Space`. -/
def isBlank (character : Char) : Bool :=
  let code := character.toNat
  (0x09 ≤ code && code ≤ 0x0D) || code == 0x20 || code == 0x85 || code == 0xA0 ||
    code == 0x1680 || (0x2000 ≤ code && code ≤ 0x200A) || code == 0x2028 || code == 0x2029 ||
    code == 0x202F || code == 0x205F || code == 0x3000

/-- A text is blank if it has no visible character; the empty text is blank. -/
def allBlank (characters : List Char) : Bool :=
  characters.all isBlank

def trim (characters : List Char) : List Char :=
  ((characters.dropWhile isBlank).reverse.dropWhile isBlank).reverse

@[simp]
theorem allBlank_nil : allBlank [] = true := rfl

@[simp]
theorem allBlank_append (front back : List Char) :
    allBlank (front ++ back) = (allBlank front && allBlank back) := by
  simp [allBlank]

end CanonicalTokens.Text
