import Mathlib.Algebra.Group.Nat.Defs
import Mathlib.Tactic.SplitIfs
import Interlink.Number.Double

/-!
# Ratios of moderate size are finite

The exponent of the double nearest to a ratio is bounded by the number of bits
that the numerator has more than the denominator (`Double.exponent_ofRatio_le`).
So a ratio whose numerator is not longer by some hundreds of bits is rounded to
a finite double, and the same holds of its product with one.
-/

namespace Interlink.Double

/-! ## The word -/

/-- The exponent of a word that is made of a sign and a magnitude. -/
theorem exponent_signed {magnitude : Nat} (h : magnitude < 0x8000000000000000)
    (negative : Bool) : (signed negative magnitude).exponent = magnitude / 0x10000000000000 := by
  unfold exponent signed
  rw [UInt64.toNat_ofNat']
  split <;> omega

theorem isFinite_of_exponent_lt {d : Double} (h : d.exponent < 2047) : d.isFinite = true :=
  bne_iff_ne.mpr (Nat.ne_of_lt h)

/-! ## Rounding -/

theorem roundQuotient_le (num den : Nat) : roundQuotient num den ≤ num / den + 1 := by
  unfold roundQuotient
  dsimp only
  split_ifs <;> omega

/-- The power for a ratio is the difference of the lengths, less fifty-three
bits, or one more than that, or the least power. -/
theorem powerFor_bounds (num den : Nat) :
    (num.log2 : Int) - den.log2 - 53 ≤ powerFor num den
      ∧ powerFor num den ≤ max ((num.log2 : Int) - den.log2 - 52) (-1074) := by
  unfold powerFor
  dsimp only
  split_ifs <;> omega

/-- **A significand has at most fifty-four bits**, at the power for its ratio or
a larger one. -/
theorem quotient_lt {num den : Nat} (hden : 0 < den) {power : Int}
    (h : (num.log2 : Int) - den.log2 - 53 ≤ power) :
    num * Nat.pow 2 (-power).toNat / (den * Nat.pow 2 power.toNat) < 2 ^ 54 := by
  have hpos : 0 < den * Nat.pow 2 power.toNat := Nat.mul_pos hden (Nat.two_pow_pos _)
  rw [Nat.div_lt_iff_lt_mul hpos]
  calc num * 2 ^ (-power).toNat
      < 2 ^ (num.log2 + 1) * 2 ^ (-power).toNat :=
        Nat.mul_lt_mul_of_pos_right Nat.lt_log2_self (Nat.two_pow_pos _)
    _ = 2 ^ (num.log2 + 1 + (-power).toNat) := (Nat.pow_add 2 _ _).symm
    _ ≤ 2 ^ (54 + (den.log2 + power.toNat)) := Nat.pow_le_pow_right (by decide) (by omega)
    _ = 2 ^ 54 * (2 ^ den.log2 * 2 ^ power.toNat) := by rw [Nat.pow_add, Nat.pow_add]
    _ ≤ 2 ^ 54 * (den * 2 ^ power.toNat) :=
        Nat.mul_le_mul_left _ (Nat.mul_le_mul_right _ (Nat.log2_self_le (by omega)))

/-- **The exponent of a ratio**, by how much longer its numerator is. -/
theorem exponent_ofRatio_le {num den extra : Nat} (hden : 0 < den)
    (hlength : num.log2 ≤ den.log2 + extra) (hextra : extra ≤ 1000) (negative : Bool) :
    (ofRatio negative num den).exponent ≤ extra + 1026 := by
  unfold ofRatio
  split
  next => rw [exponent_signed (by decide)]; omega
  next =>
    obtain ⟨hlow, hhigh⟩ := powerFor_bounds num den
    have hround : roundAt num den (powerFor num den) ≤ 2 ^ 54 :=
      Nat.le_trans (roundQuotient_le _ _) (quotient_lt hden hlow)
    have hpower : (powerFor num den + 1074).toNat ≤ extra + 1022 := by omega
    dsimp only
    rw [if_pos (by omega), exponent_signed (by omega)]
    omega

/-! ## Products -/

/-- The numerator of a double of moderate size has a moderate length. -/
theorem numerator_lt {d : Double} {extra : Nat} (h : d.exponent ≤ 1075 + extra) :
    d.numerator < 2 ^ (53 + extra) := by
  have hsignificand : d.significand < 2 ^ 53 := by
    have hfraction : d.fraction < 0x10000000000000 := Nat.mod_lt _ (by decide)
    unfold significand
    split <;> omega
  have hpower : d.power.toNat ≤ extra := by
    unfold power
    omega
  calc d.numerator
      < 2 ^ 53 * 2 ^ d.power.toNat :=
        Nat.mul_lt_mul_of_pos_right hsignificand (Nat.two_pow_pos _)
    _ ≤ 2 ^ 53 * 2 ^ extra := Nat.mul_le_mul_left _ (Nat.pow_le_pow_right (by decide) hpower)
    _ = 2 ^ (53 + extra) := (Nat.pow_add 2 _ _).symm

/-- **A double of moderate size times one is finite.** -/
theorem isFinite_scaleUp_one {d : Double} (h : d.exponent ≤ 1100) :
    (d.scaleUp (.tenPow 0)).isFinite = true := by
  have hone : (tenPow 0).numerator = 2 ^ 52 ∧ (tenPow 0).denominator = 2 ^ 52 := by decide
  have hden : 0 < d.denominator * 2 ^ 52 :=
    Nat.mul_pos (Nat.two_pow_pos _) (Nat.two_pow_pos _)
  have hnum : d.numerator * 2 ^ 52 < 2 ^ (130 + 1) := by
    have hlt : d.numerator < 2 ^ (53 + 25) := numerator_lt h
    omega
  have hlength : (d.numerator * 2 ^ 52).log2 ≤ (d.denominator * 2 ^ 52).log2 + 130 := by
    by_cases hzero : d.numerator * 2 ^ 52 = 0
    · rw [hzero]
      exact Nat.zero_le _
    · have hlog := (Nat.log2_lt hzero).mpr hnum
      omega
  unfold scaleUp
  rw [hone.1, hone.2]
  refine isFinite_of_exponent_lt ?_
  have hexponent := exponent_ofRatio_le hden hlength (by decide) d.negative
  omega

end Interlink.Double
