import QueryBoard.Number.Binary64

/-!
# Finite floating-point numbers

The floating-point number nearest to an integer of at most 64 bits is finite.
-/

set_option autoImplicit false

namespace QueryBoard.Binary64

theorem isFinite_ofSignMagnitude (negative : Bool) {magnitude : Nat}
    (small : magnitude < 2047 * Nat.pow 2 52) :
    (ofSignMagnitude negative magnitude).isFinite = true := by
  have sixtyThree : Nat.pow 2 63 = 2 ^ 63 := rfl
  have fiftyTwo : Nat.pow 2 52 = 2 ^ 52 := rfl
  have sign : ∃ k < 2, (if negative then Nat.pow 2 63 else 0) = k * 2 ^ 63 := by
    cases negative
    · exact ⟨0, by omega, rfl⟩
    · exact ⟨1, by omega, rfl⟩
  obtain ⟨k, bit, sign⟩ := sign
  have bits : (ofSignMagnitude negative magnitude).bits.toNat = magnitude + k * 2 ^ 63 := by
    rw [ofSignMagnitude, sign]
    refine UInt64.toNat_ofNat_of_lt' ?_
    have : UInt64.size = 2 ^ 64 := rfl
    omega
  have field : (ofSignMagnitude negative magnitude).exponentField < 2047 := by
    rw [exponentField, magnitudeBits, bits, fiftyTwo, sixtyThree]
    omega
  simpa [isFinite] using field

theorem roundHalfEven_le (num den : Nat) : roundHalfEven num den ≤ num / den + 1 := by
  simp only [roundHalfEven]
  split
  · omega
  · split
    · omega
    · split <;> omega

/-- What the shift to fifty-four bits leaves of a number. -/
theorem shiftRatio_lt {num : Nat} {e : Int} (least : (num.log2 : Int) - 53 ≤ e) :
    (shiftRatio num 1 e).1 / (shiftRatio num 1 e).2 < Nat.pow 2 54 := by
  have upper : num < 2 ^ (num.log2 + 1) := Nat.lt_log2_self
  have pow (n : Nat) : Nat.pow 2 n = 2 ^ n := rfl
  unfold shiftRatio
  split
  · next up =>
      rw [Nat.one_mul, pow, pow]
      refine Nat.div_lt_of_lt_mul (Nat.lt_of_lt_of_le upper ?_)
      rw [← Nat.pow_add]
      exact Nat.pow_le_pow_right (by omega) (by omega)
  · next down =>
      rw [Nat.div_one, pow, pow]
      calc num * 2 ^ (-e).toNat
          < 2 ^ (num.log2 + 1) * 2 ^ (-e).toNat :=
            Nat.mul_lt_mul_of_pos_right upper (Nat.pow_pos (by omega))
        _ = 2 ^ (num.log2 + 1 + (-e).toNat) := by rw [← Nat.pow_add]
        _ ≤ 2 ^ 54 := Nat.pow_le_pow_right (by omega) (by omega)

theorem isFinite_ofRatio_one (negative : Bool) {num : Nat} (small : num < Nat.pow 2 65) :
    (ofRatio negative num 1).isFinite = true := by
  have fiftyTwo : Nat.pow 2 52 = 2 ^ 52 := rfl
  have rounded : ∀ e : Int, (num.log2 : Int) - 53 ≤ e → e ≤ 12 →
      (ofSignMagnitude negative (min ((e + 1074).toNat * Nat.pow 2 52 +
        roundHalfEven (shiftRatio num 1 e).1 (shiftRatio num 1 e).2)
          (2047 * Nat.pow 2 52))).isFinite = true := by
    intro e least most
    have significand := roundHalfEven_le (shiftRatio num 1 e).1 (shiftRatio num 1 e).2
    have shifted := shiftRatio_lt least
    refine isFinite_ofSignMagnitude negative ?_
    have fiftyFour : Nat.pow 2 54 = 2 ^ 54 := rfl
    rw [fiftyTwo]
    omega
  unfold ofRatio
  split
  · exact isFinite_ofSignMagnitude negative (by rw [fiftyTwo]; omega)
  · next positive =>
      have bits : num.log2 < 65 := (Nat.log2_lt positive).mpr small
      have unit : Nat.log2 1 = 0 := by decide
      simp only [unit]
      -- The exponent is the least one or the one above it.
      split
      · exact rounded _ (by omega) (by omega)
      · exact rounded _ (by omega) (by omega)

/-- An integer of 64 bits, with a sign or without, has a finite nearest number. -/
theorem isFinite_ofInt {n : Int} (low : -Int.pow 2 63 ≤ n) (high : n < Int.pow 2 64) :
    (ofInt n).isFinite = true := by
  have sixtyThree : Int.pow 2 63 = 2 ^ 63 := rfl
  have sixtyFour : Int.pow 2 64 = 2 ^ 64 := rfl
  have sixtyFive : Nat.pow 2 65 = 2 ^ 65 := rfl
  exact isFinite_ofRatio_one _ (by omega)

end QueryBoard.Binary64
