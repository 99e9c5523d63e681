/-!
# Binary64 numbers

Double-precision numbers as words of 64 bits, with exact arithmetic on what the words stand for. A
finite word stands for a multiple of `2 ^ -1074`, so comparison and rounding are statements about
integers; no machine arithmetic is involved.
-/

namespace CanonicalTokens.Numeral

/-- A double-precision number, given by its word. -/
structure Binary64 where
  bits : UInt64
  deriving DecidableEq, Repr, Inhabited

namespace Binary64

/-- What a word stands for. The magnitude of a finite number is counted in units of
`2 ^ -1074`, the distance of the smallest numbers. -/
inductive Value where
  | notANumber
  | infinite (negative : Bool)
  | finite (negative : Bool) (units : Nat)
  deriving DecidableEq, Repr

def unitsOfOne : Nat := 1 <<< 1074

/-- The word of positive infinity as a number; every greater one up to the sign bit is no
number. -/
def infinityWord : Nat := 0x7FF0000000000000

def signWord : Nat := 1 <<< 63

/-- The leading bit of a significand, which the fraction of a word leaves out. -/
def leadingBit : Nat := 1 <<< 52

/-- The value of a word. The fraction of a number with exponent field zero has no leading bit, and
its exponent is that of field one. -/
def value (number : Binary64) : Value :=
  let word := number.bits.toNat
  let negative := signWord ≤ word
  let magnitude := word % signWord
  let field := magnitude / leadingBit
  let fraction := magnitude % leadingBit
  if infinityWord < magnitude then .notANumber
  else if magnitude = infinityWord then .infinite negative
  else if field = 0 then .finite negative fraction
  else .finite negative ((leadingBit + fraction) <<< (field - 1))

/-- The word whose magnitude is the given number, cut off at infinity. -/
def ofMagnitude (negative : Bool) (magnitude : Nat) : Binary64 :=
  ⟨UInt64.ofNat ((if negative then signWord else 0) + min magnitude infinityWord)⟩

def notANumber : Binary64 := ⟨0x7FF8000000000000⟩

def infinity (negative : Bool) : Binary64 := ofMagnitude negative infinityWord

def zero : Binary64 := ⟨0⟩

def one : Binary64 := ⟨0x3FF0000000000000⟩

/-! ### Rounding -/

/-- The integer nearest to a quotient; halfway between two of them, the even one. -/
def roundHalfEven (numerator denominator : Nat) : Nat :=
  let quotient := numerator / denominator
  let remainder := numerator % denominator
  if 2 * remainder < denominator then quotient
  else if denominator < 2 * remainder then quotient + 1
  else quotient + quotient % 2

/-- The number nearest to a non-negative quotient. On the grid of the exponent chosen here the
significand is below `2 ^ 53`, so word and significand grow together: the word is the sum of both
fields even where rounding carries into the next exponent. -/
def nearest (negative : Bool) (numerator denominator : Nat) : Binary64 :=
  let units := numerator * unitsOfOne
  let whole := units / denominator
  let exponent := whole.log2 - 52
  ofMagnitude negative (exponent * leadingBit + roundHalfEven units (denominator <<< exponent))

def ofNat (number : Nat) : Binary64 :=
  nearest false number 1

def ofInt (number : Int) : Binary64 :=
  nearest (number < 0) number.natAbs 1

def absolute (number : Binary64) : Binary64 :=
  ofMagnitude false (number.bits.toNat % signWord)

/-- The magnitude in units, for what is finite. -/
def units? (number : Binary64) : Option Nat :=
  match number.value with
  | .finite _ units => some units
  | _ => none

/-- The quotient of two magnitudes in units, if both are finite. -/
def quotientOfUnits : Option Nat → Option Nat → Binary64
  | some numerator, some denominator => nearest false numerator denominator
  | _, _ => notANumber

/-- The quotient of two natural numbers, each rounded before the division and the result rounded
again. -/
def quotient (dividend divisor : Nat) : Binary64 :=
  quotientOfUnits (ofNat dividend).units? (ofNat divisor).units?

/-! ### Order -/

/-- Nothing is compared with what is no number; the two zeros are equal. -/
def le (left right : Binary64) : Bool :=
  match left.value, right.value with
  | .notANumber, _ => false
  | _, .notANumber => false
  | .infinite negative, .infinite other => negative || !other
  | .infinite negative, .finite _ _ => negative
  | .finite _ _, .infinite negative => !negative
  | .finite false below, .finite false above => below ≤ above
  | .finite true below, .finite true above => above ≤ below
  | .finite true _, .finite false _ => true
  | .finite false below, .finite true above => below = 0 && above = 0

def cappedAtOne (number : Binary64) : Binary64 :=
  if number.le one then number else one

/-! ### Integers and truth values -/

/-- The nearest integer, half away from zero, kept within `0` and `limit`. What is no number
counts as zero. -/
def toNatWithin (limit : Nat) (number : Binary64) : Nat :=
  match number.value with
  | .notANumber => 0
  | .infinite negative => if negative then 0 else limit
  | .finite true _ => 0
  | .finite false units => min limit ((2 * units + unitsOfOne) / (2 * unitsOfOne))

def isNonzero (number : Binary64) : Bool :=
  match number.value with
  | .finite _ 0 => false
  | _ => true

def isFinite (number : Binary64) : Bool :=
  number.units?.isSome

end Binary64

end CanonicalTokens.Numeral
