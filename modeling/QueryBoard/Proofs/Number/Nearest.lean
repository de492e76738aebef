import QueryBoard.Proofs.Number.Finite
import Mathlib.Algebra.Order.Field.Power
import Mathlib.Algebra.Order.Field.Rat
import Mathlib.Tactic.Linarith
import Mathlib.Tactic.NormNum.Pow
import Mathlib.Tactic.Positivity
import Mathlib.Tactic.Ring

/-!
# The number nearest to a large integer

Integers that fit 64 bits only without a sign lie where floating-point numbers stand 2048 apart.
The number of such an integer is the nearest of them, a tie going to the even significand.
-/

set_option autoImplicit false

namespace QueryBoard.Binary64

/-- The value of a finite number. -/
def toRat (x : Binary64) : ℚ := x.signedNumerator / x.ratio.2

/-- Whether a number is what an integer rounds to: no finite number is nearer to the integer, and if
another one is as near, the significand is even. -/
structure Rounds (n : Int) (x : Binary64) : Prop where
  finite : x.isFinite = true
  nearest : ∀ y : Binary64, y.isFinite = true → |x.toRat - n| ≤ |y.toRat - n|
  even : ∀ y : Binary64, y.isFinite = true → |x.toRat - n| = |y.toRat - n| →
    x.toRat ≠ y.toRat → x.significand % 2 = 0

/-! ## The grid -/

theorem significand_lt (x : Binary64) : x.significand < 2 ^ 53 := by
  have fraction : x.fractionField < 2 ^ 52 := Nat.mod_lt _ (by decide)
  have fiftyTwo : Nat.pow 2 52 = 2 ^ 52 := rfl
  unfold significand
  split <;> omega

theorem toRat_eq (x : Binary64) :
    x.toRat = (if x.isNegative then -1 else 1) * x.significand * 2 ^ x.scale := by
  have magnitude : (x.ratio.1 : ℚ) / x.ratio.2 = x.significand * 2 ^ x.scale := by
    unfold ratio
    by_cases up : 0 ≤ x.scale
    · obtain ⟨k, scale⟩ := Int.eq_ofNat_of_zero_le up
      have pow : Nat.pow 2 k = 2 ^ k := rfl
      rw [if_pos up, scale, Int.toNat_natCast, pow, zpow_natCast]
      push_cast
      ring
    · obtain ⟨k, scale⟩ := Int.eq_ofNat_of_zero_le (a := -x.scale) (by omega)
      have pow : Nat.pow 2 k = 2 ^ k := rfl
      have negated : x.scale = -(k : Int) := by omega
      rw [if_neg up, scale, Int.toNat_natCast, pow, negated, zpow_neg, zpow_natCast]
      push_cast
      ring
  unfold toRat signedNumerator
  split
  · push_cast
    rw [neg_div, magnitude]
    ring
  · push_cast
    rw [magnitude]
    ring

/-- Numbers of this size are multiples of 2048. -/
theorem exists_toRat_eq {x : Binary64} (large : 2 ^ 63 ≤ x.toRat) :
    ∃ k : Nat, x.toRat = (2048 * k : Nat) := by
  have small : (x.significand : ℚ) < 2 ^ 53 := by exact_mod_cast x.significand_lt
  have some_ : (0 : ℚ) ≤ x.significand := Nat.cast_nonneg _
  have unit : (0 : ℚ) < 2 ^ x.scale := by positivity
  rw [toRat_eq] at large ⊢
  have positive : x.isNegative = false := by
    by_contra negative
    rw [if_pos (by simpa using negative)] at large
    nlinarith
  rw [positive] at large ⊢
  simp only [Bool.false_eq_true, if_false, one_mul] at large ⊢
  have scale : 11 ≤ x.scale := by
    by_contra below
    have step : (2 : ℚ) ^ x.scale ≤ 2 ^ (10 : Int) := zpow_le_zpow_right₀ (by norm_num) (by omega)
    norm_num at step large
    nlinarith
  obtain ⟨k, above⟩ := Int.eq_ofNat_of_zero_le (a := x.scale - 11) (by omega)
  refine ⟨x.significand * 2 ^ k, ?_⟩
  have split : x.scale = 11 + (k : Int) := by omega
  rw [split, zpow_add₀ (by norm_num), zpow_natCast]
  push_cast
  ring

/-! ## Rounding to the grid -/

/-- A quotient is rounded to the nearest integer, a half to the even one. -/
theorem roundHalfEven_nearest (num k : Nat) {den : Nat} (positive : 0 < den) :
    ((den * roundHalfEven num den : Nat) - num : Int).natAbs ≤
        ((den * k : Nat) - num : Int).natAbs ∧
      (((den * roundHalfEven num den : Nat) - num : Int).natAbs =
          ((den * k : Nat) - num : Int).natAbs →
        roundHalfEven num den ≠ k → roundHalfEven num den % 2 = 0) := by
  have whole := Nat.div_add_mod num den
  have part := Nat.mod_lt num positive
  have next := Nat.mul_succ den (num / den)
  have apart : den * k ≤ den * (num / den) ∧ (k = num / den ∨ den * k + den ≤ den * (num / den)) ∨
      den * (num / den) + den ≤ den * k ∧
        (k = num / den + 1 ∨ den * (num / den) + 2 * den ≤ den * k) := by
    rcases Nat.lt_trichotomy k (num / den) with below | same | above
    · have := Nat.mul_le_mul_left den below
      rw [Nat.mul_succ] at this
      exact .inl ⟨by omega, .inr this⟩
    · exact .inl ⟨by rw [same], .inl same⟩
    · have := Nat.mul_le_mul_left den above
      rw [Nat.mul_succ] at this
      refine .inr ⟨this, ?_⟩
      rcases Nat.lt_or_eq_of_le above with far | close
      · have := Nat.mul_le_mul_left den far
        rw [Nat.mul_succ, Nat.mul_succ] at this
        exact .inr (by omega)
      · exact .inl close.symm
  simp only [roundHalfEven]
  split
  · omega
  · split
    · rw [Nat.mul_succ]
      omega
    · split
      · omega
      · rw [Nat.mul_succ]
        omega

/-- The number of an integer that has 64 bits, the first one set. -/
theorem ofInt_eq {n : Nat} (low : 2 ^ 63 ≤ n) (high : n < 2 ^ 64) :
    ofInt n = ofSignMagnitude false (1085 * 2 ^ 52 + roundHalfEven n 2048) ∧
      2 ^ 52 ≤ roundHalfEven n 2048 ∧ roundHalfEven n 2048 ≤ 2 ^ 53 := by
  have bits : Nat.log2 n = 63 := by
    refine (Nat.log2_eq_iff (by omega)).mpr ⟨low, high⟩
  have unit : Nat.log2 1 = 0 := by decide
  have fiftyTwo : Nat.pow 2 52 = 2 ^ 52 := rfl
  have fiftyThree : Nat.pow 2 53 = 2 ^ 53 := rfl
  have nearest := (roundHalfEven_nearest n (n / 2048) (by decide : 0 < 2048)).1
  have least : 2 ^ 52 ≤ roundHalfEven n 2048 := by omega
  have most := roundHalfEven_le n 2048
  refine ⟨?_, least, by omega⟩
  have sign : decide ((n : Int) < 0) = false := by simp
  have ten : shiftRatio n 1 10 = (n, 1024) := rfl
  have eleven : shiftRatio n 1 11 = (n, 2048) := rfl
  have exponent : max (((63 : Nat) : Int) - (0 : Nat) - 53) (-1074) = 10 := rfl
  rw [ofInt, ofRatio, sign, Int.natAbs_natCast, if_neg (by omega), bits, unit]
  simp only [exponent, ten, fiftyThree]
  rw [if_neg (by omega)]
  simp only [Int.reduceAdd, eleven, fiftyTwo]
  congr 1
  omega

/-! ## The fields of a number -/

theorem fields_of_bits {x : Binary64} {magnitude : Nat} (bits : x.bits.toNat = magnitude)
    (small : magnitude < 2 ^ 63) : x.isNegative = false ∧ x.magnitudeBits = magnitude := by
  have sixtyThree : Nat.pow 2 63 = 2 ^ 63 := rfl
  constructor
  · rw [isNegative, bits, sixtyThree, beq_eq_false_iff_ne]
    omega
  · rw [magnitudeBits, bits, sixtyThree]
    omega

/-- A number with a positive exponent field has the first bit of its significand set. -/
theorem significand_of_fields {x : Binary64} (exponent fraction : Nat)
    (magnitude : x.magnitudeBits = exponent * 2 ^ 52 + fraction) (positive : 0 < exponent)
    (small : fraction < 2 ^ 52) :
    x.significand = 2 ^ 52 + fraction ∧ x.scale = (exponent : Int) - 1075 := by
  have fiftyTwo : Nat.pow 2 52 = 2 ^ 52 := rfl
  have field : x.exponentField = exponent := by
    rw [exponentField, magnitude, fiftyTwo]
    omega
  have rest : x.fractionField = fraction := by
    rw [fractionField, magnitude, fiftyTwo]
    omega
  rw [significand, scale, field, rest, fiftyTwo, if_neg (Nat.ne_of_gt positive),
    Nat.max_eq_left positive, Nat.add_comm]
  exact ⟨rfl, rfl⟩

/-- The number of a large integer is the integer rounded to the grid, and its significand is even
when the place on the grid is. -/
theorem toRat_ofInt {n : Nat} (low : 2 ^ 63 ≤ n) (high : n < 2 ^ 64) :
    (ofInt n).toRat = ((2048 * roundHalfEven n 2048 : Nat) : ℚ) ∧
      (ofInt n).significand % 2 = roundHalfEven n 2048 % 2 := by
  obtain ⟨same, least, most⟩ := ofInt_eq low high
  rw [same]
  generalize roundHalfEven n 2048 = m at least most
  have bits : (ofSignMagnitude false (1085 * 2 ^ 52 + m)).bits.toNat = 1085 * 2 ^ 52 + m := by
    refine UInt64.toNat_ofNat_of_lt' ?_
    have : UInt64.size = 2 ^ 64 := rfl
    simp only [Bool.false_eq_true, if_false]
    omega
  obtain ⟨negative, magnitude⟩ := fields_of_bits bits (by omega)
  rw [toRat_eq, negative]
  simp only [Bool.false_eq_true, if_false, one_mul]
  -- The first bit of the significand is counted in the exponent field, unless it is rounded up.
  rcases Nat.lt_or_eq_of_le most with below | top
  · obtain ⟨significand, scale⟩ := significand_of_fields 1086 (m - 2 ^ 52)
      (magnitude.trans (by omega)) (by decide) (by omega)
    have whole : 2 ^ 52 + (m - 2 ^ 52) = m := by omega
    rw [significand, scale, whole]
    refine ⟨?_, rfl⟩
    push_cast
    ring
  · obtain ⟨significand, scale⟩ := significand_of_fields 1087 0
      (magnitude.trans (by omega)) (by decide) (by decide)
    rw [significand, scale, top]
    refine ⟨?_, by norm_num⟩
    push_cast
    norm_num

/-! ## Large integers -/

theorem abs_grid_sub (a n : Nat) : |(a : ℚ) - n| = ((a - n : Int).natAbs : ℚ) := by
  rw [Nat.cast_natAbs]
  push_cast
  rfl

/-- A number below 2 ^ 63 is further away than 2 ^ 63 is, which is on the grid. -/
theorem ofInt_closer {n : Nat} (low : 2 ^ 63 ≤ n) (high : n < 2 ^ 64) {y : Binary64}
    (small : y.toRat < 2 ^ 63) : |(ofInt n).toRat - n| < |y.toRat - n| := by
  have first := (roundHalfEven_nearest n (2 ^ 52) (by decide : 0 < 2048)).1
  have far : (2 : ℚ) ^ 63 ≤ n := by exact_mod_cast low
  calc |(ofInt n).toRat - n|
      ≤ |((2048 * 2 ^ 52 : Nat) : ℚ) - n| := by
        rw [(toRat_ofInt low high).1, abs_grid_sub, abs_grid_sub]
        exact_mod_cast first
    _ < |y.toRat - n| := by
        rw [abs_of_nonpos (by push_cast; linarith), abs_of_neg (by linarith)]
        push_cast
        linarith

/-- An integer that fits 64 bits only without a sign rounds to its number. -/
theorem rounds_ofInt {n : Int} (low : Int.pow 2 63 ≤ n) (high : n < Int.pow 2 64) :
    Rounds n (ofInt n) := by
  have sixtyThree : Int.pow 2 63 = 2 ^ 63 := rfl
  have sixtyFour : Int.pow 2 64 = 2 ^ 64 := rfl
  have finite : (ofInt n).isFinite = true := isFinite_ofInt (by omega) high
  obtain ⟨n, rfl⟩ := Int.eq_ofNat_of_zero_le (a := n) (by omega)
  have low : 2 ^ 63 ≤ n := by omega
  have high : n < 2 ^ 64 := by omega
  obtain ⟨value, parity⟩ := toRat_ofInt low high
  refine ⟨finite, fun y _ => ?_, fun y _ tie other => ?_⟩
  · rw [Int.cast_natCast]
    rcases lt_or_ge y.toRat (2 ^ 63) with small | large
    · exact (ofInt_closer low high small).le
    · obtain ⟨k, grid⟩ := exists_toRat_eq large
      have near := (roundHalfEven_nearest n k (by decide : 0 < 2048)).1
      rw [value, grid, abs_grid_sub, abs_grid_sub]
      exact_mod_cast near
  · rw [Int.cast_natCast] at tie
    rcases lt_or_ge y.toRat (2 ^ 63) with small | large
    · exact absurd tie (ofInt_closer low high small).ne
    · obtain ⟨k, grid⟩ := exists_toRat_eq large
      have even := (roundHalfEven_nearest n k (by decide : 0 < 2048)).2
      rw [value, grid, abs_grid_sub, abs_grid_sub] at tie
      rw [parity]
      refine even (by exact_mod_cast tie) fun same => other ?_
      rw [value, grid, same]

end QueryBoard.Binary64
