import CanonicalTokens.Numeral.Binary64
import Mathlib.Algebra.Ring.Nat

/-!
# Quotients of words

A number below `2 ^ 64` is in the range of binary64, whatever it is rounded to. So it can divide,
and zero divided by it is zero.
-/

namespace CanonicalTokens.Numeral.Binary64

/-- Rounding goes up by one at most. -/
theorem roundHalfEven_le (numerator denominator : Nat) :
    roundHalfEven numerator denominator ≤ numerator / denominator + 1 := by
  unfold roundHalfEven
  dsimp only
  split
  · omega
  · split
    · exact Nat.le_refl _
    · omega

/-- The significand that a number is rounded to has 53 bits, or is the next power of two. -/
theorem roundHalfEven_significand_le (units : Nat) :
    roundHalfEven units (1 <<< (units.log2 - 52)) ≤ 2 ^ 53 := by
  have hrounded := roundHalfEven_le units (1 <<< (units.log2 - 52))
  have hunits : units < 2 ^ 53 * 2 ^ (units.log2 - 52) := by
    rw [← Nat.pow_add]
    exact Nat.lt_of_lt_of_le Nat.lt_log2_self (Nat.pow_le_pow_right (by decide) (by omega))
  rw [Nat.one_shiftLeft] at hrounded ⊢
  have hquotient := Nat.div_lt_of_lt_mul (Nat.mul_comm _ _ ▸ hunits)
  omega

/-- A word below that of infinity stands for a finite number. -/
theorem exists_units?_ofMagnitude {magnitude : Nat} (hfinite : magnitude < infinityWord) :
    ∃ units, (ofMagnitude false magnitude).units? = some units := by
  have hword : (ofMagnitude false magnitude).bits.toNat = magnitude := by
    simp only [infinityWord] at hfinite
    simp only [ofMagnitude, infinityWord, UInt64.toNat_ofNat', Bool.false_eq_true, if_false]
    omega
  have hmagnitude : magnitude % signWord = magnitude :=
    Nat.mod_eq_of_lt (Nat.lt_trans hfinite (by decide))
  unfold units? value
  rw [hword]
  dsimp only
  rw [hmagnitude, if_neg (Nat.not_lt.mpr (Nat.le_of_lt hfinite)), if_neg (Nat.ne_of_lt hfinite)]
  by_cases hfield : magnitude / leadingBit = 0
  · rw [if_pos hfield]
    exact ⟨_, rfl⟩
  · rw [if_neg hfield]
    exact ⟨_, rfl⟩

theorem log2_mul_shiftLeft_lt {number bits : Nat} (width : Nat) (hnumber : number < 2 ^ bits)
    (hbits : 0 < bits) : (number * 1 <<< width).log2 < bits + width := by
  rw [Nat.one_shiftLeft]
  by_cases hzero : number = 0
  · rw [hzero, Nat.zero_mul, Nat.log2_zero]
    omega
  · have hpos : number * 2 ^ width ≠ 0 :=
      Nat.mul_ne_zero hzero (Nat.ne_of_gt (Nat.two_pow_pos width))
    rw [Nat.log2_lt hpos, Nat.pow_add]
    exact Nat.mul_lt_mul_of_pos_right hnumber (Nat.two_pow_pos width)

/-- Every word is in the range of numbers, which ends far beyond. -/
theorem exists_units?_ofNat {number : Nat} (hword : number < 2 ^ 64) :
    ∃ units, (ofNat number).units? = some units := by
  apply exists_units?_ofMagnitude
  rw [Nat.div_one]
  have hexponent : (number * unitsOfOne).log2 < 64 + 1074 :=
    log2_mul_shiftLeft_lt 1074 hword (by decide)
  have hsignificand := roundHalfEven_significand_le (number * unitsOfOne)
  generalize number * unitsOfOne = units at hexponent hsignificand ⊢
  have hleading : leadingBit = 2 ^ 52 := Nat.one_shiftLeft 52
  rw [hleading, infinityWord]
  omega

theorem nearest_zero (denominator : Nat) : nearest false 0 denominator = zero := by
  have hrounded : ∀ denominator, roundHalfEven 0 denominator = 0 := by
    intro denominator
    simp [roundHalfEven]
  simp [nearest, hrounded, ofMagnitude, zero]

theorem units?_ofNat_zero : (ofNat 0).units? = some 0 := by
  rw [ofNat, nearest_zero]
  decide

theorem quotient_zero {divisor : Nat} (hword : divisor < 2 ^ 64) : quotient 0 divisor = zero := by
  obtain ⟨units, hunits⟩ := exists_units?_ofNat hword
  rw [quotient, units?_ofNat_zero, hunits, quotientOfUnits, nearest_zero]

end CanonicalTokens.Numeral.Binary64
