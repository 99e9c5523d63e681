import CanonicalTokens.Numeral.Binary64

/-!
# Decimal texts of binary64 numbers

Reading takes the number nearest to a decimal text. Writing takes the fewest digits that read back
as the same number, of those the nearest to it, and never uses an exponent.
-/

namespace CanonicalTokens.Numeral

structure Decimal where
  digits : Nat
  exponent : Int
  deriving DecidableEq, Repr

def digitsFrom (start : Nat) (characters : List Char) : Nat :=
  characters.foldl (fun number digit => 10 * number + (digit.toNat - '0'.toNat)) start

/-- The number of decimal digits; zero has one. -/
def digitCount (number : Nat) : Nat :=
  (Nat.toDigits 10 number).length

namespace Decimal

/-! ### Reading -/

/-- The nearest number. Powers of ten beyond the range are not computed. -/
def toBinary64 (negative : Bool) (decimal : Decimal) : Binary64 :=
  let places := decimal.exponent + digitCount decimal.digits
  if decimal.digits = 0 then .nearest negative 0 1
  else if 400 < places then .infinity negative
  else if places < -400 then .nearest negative 0 1
  else .nearest negative (decimal.digits * Nat.pow 10 decimal.exponent.toNat)
    (Nat.pow 10 (-decimal.exponent).toNat)

/-- A whole number of digits and the rest after an optional sign, as in an exponent. -/
def readInteger? (characters : List Char) : Option Int :=
  let unsigned (body : List Char) : Option Nat :=
    if body.isEmpty || !body.all Char.isDigit then none else some (digitsFrom 0 body)
  match characters with
  | '-' :: body => (unsigned body).map fun number => -number
  | '+' :: body => (unsigned body).map fun number => number
  | body => (unsigned body).map fun number => number

/-- Digits with at most one point among or around them, then an optional exponent. -/
def read? (characters : List Char) : Option Decimal :=
  let whole := characters.takeWhile Char.isDigit
  let afterWhole := characters.dropWhile Char.isDigit
  let (fraction, afterFraction) := match afterWhole with
    | '.' :: rest => (rest.takeWhile Char.isDigit, rest.dropWhile Char.isDigit)
    | rest => ([], rest)
  let exponent? := match afterFraction with
    | [] => some 0
    | mark :: rest => if mark = 'e' || mark = 'E' then readInteger? rest else none
  if whole.isEmpty && fraction.isEmpty then none
  else exponent?.map fun exponent =>
    ⟨digitsFrom (digitsFrom 0 whole) fraction, exponent - fraction.length⟩

/-! ### Fewest digits -/

/-- The power of ten just above a positive quotient. -/
def magnitude (numerator denominator : Nat) : Int :=
  if denominator ≤ numerator then digitCount (numerator / denominator)
  else 1 - digitCount ((denominator - 1) / numerator)

/-- Of the two neighbours of a positive number among the decimals with `count` digits, those that
read back as the number, the nearer one first; of two at the same distance, the greater. -/
def onGrid? (number : Binary64) (units count : Nat) : Option Decimal :=
  let exponent := magnitude units Binary64.unitsOfOne - count
  let numerator := units * Nat.pow 10 (-exponent).toNat
  let denominator := Binary64.unitsOfOne * Nat.pow 10 exponent.toNat
  let below : Decimal := ⟨numerator / denominator, exponent⟩
  let above : Decimal :=
    if below.digits + 1 = Nat.pow 10 count then ⟨1, exponent + count⟩
    else ⟨below.digits + 1, exponent⟩
  let ordered :=
    if 2 * (numerator % denominator) < denominator then [below, above] else [above, below]
  ordered.find? fun candidate => candidate.toBinary64 false == number

/-- The shortest decimal of a positive number. Seventeen digits always suffice. -/
def shortest (number : Binary64) (units : Nat) : Decimal :=
  ((List.range 17).findSome? fun fewer => onGrid? number units (fewer + 1)).getD
    ⟨units, -1074⟩

/-- The digits with the point where the exponent says, without an exponent. -/
def positional (decimal : Decimal) : String :=
  let digits := Nat.toDigits 10 decimal.digits
  let places := (-decimal.exponent).toNat
  if 0 ≤ decimal.exponent then
    String.ofList (digits ++ List.replicate decimal.exponent.toNat '0')
  else if places < digits.length then
    let whole := digits.length - places
    String.ofList (digits.take whole ++ '.' :: digits.drop whole)
  else
    String.ofList ('0' :: '.' :: (List.replicate (places - digits.length) '0' ++ digits))

end Decimal

namespace Binary64

/-- The word of a text in any case that names infinity or what is no number. -/
def named? (negative : Bool) (characters : List Char) : Option Binary64 :=
  match String.ofList (characters.map Char.toLower) with
  | "inf" => some (infinity negative)
  | "infinity" => some (infinity negative)
  | "nan" => some notANumber
  | _ => none

/-- A number read from an optional sign and either a decimal or a name. -/
def read? (characters : List Char) : Option Binary64 :=
  let unsigned (negative : Bool) (body : List Char) : Option Binary64 :=
    (named? negative body).or ((Decimal.read? body).map (Decimal.toBinary64 negative))
  match characters with
  | '-' :: body => unsigned true body
  | '+' :: body => unsigned false body
  | body => unsigned false body

/-- The number in the fewest digits that read back, with no exponent and no point after a whole
number. -/
def display (number : Binary64) : String :=
  match number.value with
  | .notANumber => "NaN"
  | .infinite negative => if negative then "-inf" else "inf"
  | .finite negative units =>
    let digits := if units = 0 then "0" else (Decimal.shortest number.absolute units).positional
    if negative then "-" ++ digits else digits

/-- The same digits, where a whole number keeps a point and a zero. -/
def displayPointed (number : Binary64) : String :=
  let text := number.display
  if number.isFinite && !text.toList.contains '.' then text ++ ".0" else text

end Binary64

end CanonicalTokens.Numeral
