import ProviderMock.Double.Rounding

/-!
# Whole numbers as doubles

A whole number below the largest power of two that a double can be is rounded to a finite double.
-/

namespace ProviderMock

/-- Rounding goes up to the next whole number at most. -/
theorem roundDiv_le (num den : Nat) : roundDiv num den ≤ num / den + 1 := by
  unfold roundDiv
  dsimp only
  split
  · exact Nat.le_refl _
  · exact Nat.le_succ _

namespace Double

/-- Bits below those of the infinities stand for a number. -/
theorem isFinite_ofMagnitude (negative : Bool) {m : Nat} (h : m < 0x7FF0000000000000) :
    (ofMagnitude negative m).isFinite = true := by
  have hmod : (m + if negative then 0x8000000000000000 else 0) % 0x10000000000000000 %
      0x8000000000000000 = m := by
    cases negative
    · simp
      omega
    · simp
      omega
  simp only [isFinite, magnitude, ofMagnitude, UInt64.toNat_ofNat', decide_eq_true_iff]
  rw [hmod]
  exact h

/-- The highest power of two in a whole number. -/
theorem binaryExponent_one {num : Nat} (h : num ≠ 0) : binaryExponent num 1 = Nat.log2 num := by
  have hle : Nat.pow 2 num.log2 ≤ num := Nat.log2_self_le h
  have hlog : Nat.log2 1 = 0 := by decide
  have hneg : (-((num.log2 : Int) - (0 : Nat))).toNat = 0 := by omega
  rw [binaryExponent, hlog, if_pos]
  · omega
  · rw [twoPow, twoPow, hneg]
    simpa using hle

/-- The significand of a whole number has as many bits as a double has room for. -/
theorem mul_twoPow_lt (num : Nat) :
    num * twoPow (-((num.log2 : Int) - 52)) <
      0x20000000000000 * twoPow ((num.log2 : Int) - 52) := by
  have hlt : num < Nat.pow 2 (num.log2 + 1) := Nat.lt_log2_self
  have hexponents : Nat.pow 2 (num.log2 + 1) * twoPow (-((num.log2 : Int) - 52)) =
      0x20000000000000 * twoPow ((num.log2 : Int) - 52) := by
    have hpow : (0x20000000000000 : Nat) = Nat.pow 2 53 := by decide
    rw [hpow, twoPow, twoPow]
    show 2 ^ _ * 2 ^ _ = 2 ^ _ * 2 ^ _
    rw [← Nat.pow_add, ← Nat.pow_add]
    congr 1
    omega
  rw [← hexponents]
  refine Nat.mul_lt_mul_of_pos_right hlt ?_
  exact Nat.pow_pos (by decide)

/-- **A whole number that is not too large has a finite double.** -/
theorem isFinite_ofInt {n : Int} (h : n.natAbs.log2 < 1023) : (ofInt n).isFinite = true := by
  rw [ofInt, ofRatio]
  split
  · exact isFinite_ofMagnitude _ (by decide)
  · rename_i hzero
    refine isFinite_ofMagnitude _ ?_
    rw [binaryExponent_one hzero]
    have hscale : max ((n.natAbs.log2 : Int) - 52) (-1074) = (n.natAbs.log2 : Int) - 52 := by omega
    rw [hscale, Nat.one_mul]
    have hround := roundDiv_le (n.natAbs * twoPow (-((n.natAbs.log2 : Int) - 52)))
      (twoPow ((n.natAbs.log2 : Int) - 52))
    have hquotient : n.natAbs * twoPow (-((n.natAbs.log2 : Int) - 52)) /
        twoPow ((n.natAbs.log2 : Int) - 52) < 0x20000000000000 := by
      refine Nat.div_lt_of_lt_mul ?_
      rw [Nat.mul_comm (twoPow _)]
      exact mul_twoPow_lt n.natAbs
    omega

end Double

end ProviderMock
