import Mathlib
import RegisterMachine.Proofs.Number.Encoding
import RegisterMachine.Proofs.Number.Nearest

/-!
# Whole numbers in binary64

Up to `2 ^ 53` every natural number is a binary64 number. A counter that starts at zero and goes up
by one takes exactly these values, and stays where it is once it has reached the last of them.

* `value?`: the exact value of a finite number.
* `whole n`: the number nearest to a natural number.
* `exists_normal`: a natural number up to `2 ^ 53` with its leading bit moved to place 52.

Principal results: `value?_whole` (the number nearest to `n` is `n`), `whole_beq_iff` (comparison
with it is comparison of values), `whole_add_one` and `whole_min_add_one` (what counting by one
does, up to `2 ^ 53` and from there on).
-/

set_option autoImplicit false

namespace RegisterMachine.Number

open Float.Model (Format UnpackedFloat)
open Float.Model.UnpackedFloat

/-! ## Exact values -/

/-- The exact value of a finite number; infinities and what is no number have none. -/
def value? (x : Float) : Option ℚ :=
  if pattern x < infinity then
    let magnitude : ℚ := (ratio (pattern x)).1 / (ratio (pattern x)).2
    some (if isNegative x then -magnitude else magnitude)
  else none

theorem ratio_den_pos (b : Nat) : 0 < (ratio b).2 := Nat.two_pow_pos _

theorem eq_nearest_of_ratio {b num den : Nat} (hb : b < infinity) (hd : 0 < den)
    (h : ((ratio b).1 : ℚ) / (ratio b).2 = num / den) : b = nearest num den := by
  have hcross : (ratio b).1 * den = num * (ratio b).2 := by
    have h1 : ((ratio b).2 : ℚ) ≠ 0 := by exact_mod_cast (ratio_den_pos b).ne'
    have h2 : (den : ℚ) ≠ 0 := by exact_mod_cast hd.ne'
    rw [div_eq_div_iff h1 h2] at h
    exact_mod_cast h
  rw [← nearest_congr (ratio_den_pos b) hd hcross, nearest_ratio hb]

/-! ## Whole numbers -/

/-- The number nearest to a natural number. -/
def whole (n : Nat) : Float := ofPattern false (nearest n 1)

/-- The leading bit of a natural number that has at most 53 significant bits, moved to place 52. -/
theorem exists_normal {n : Nat} (h0 : 0 < n) (h : n ≤ 2 ^ 53) :
    ∃ m k, n * 2 ^ 52 = m * 2 ^ k ∧ 2 ^ 52 ≤ m ∧ m < 2 ^ 53 ∧ k ≤ 53 := by
  rcases Nat.lt_or_ge n (2 ^ 53) with hlt | hge
  · have hlog : n.log2 ≤ 52 := by
      have := (Nat.log2_lt (by omega)).2 hlt
      omega
    have hpow : 2 ^ n.log2 * 2 ^ (52 - n.log2) = 2 ^ 52 := by
      rw [← Nat.pow_add]
      congr 1
      omega
    refine ⟨n * 2 ^ (52 - n.log2), n.log2, ?_, ?_, ?_, by omega⟩
    · rw [Nat.mul_assoc, Nat.mul_comm (2 ^ (52 - n.log2)), hpow]
    · rw [← hpow]
      exact Nat.mul_le_mul_right _ (Nat.log2_self_le (by omega))
    · calc n * 2 ^ (52 - n.log2) < 2 ^ (n.log2 + 1) * 2 ^ (52 - n.log2) :=
            Nat.mul_lt_mul_of_pos_right Nat.lt_log2_self (Nat.two_pow_pos _)
        _ = 2 ^ 53 := by rw [Nat.pow_succ, Nat.mul_right_comm, hpow]; rfl
  · exact ⟨2 ^ 52, 53, by rw [Nat.le_antisymm h hge, Nat.mul_comm], Nat.le_refl _, by decide,
      Nat.le_refl _⟩

/-- A natural number as `m * 2 ^ (k - 52)`, the power on the side where it is a whole number. -/
theorem scale_whole {n m k : Nat} (h : n * 2 ^ 52 = m * 2 ^ k) :
    n * 2 ^ (-((k : Int) - 52)).toNat = m * 2 ^ ((k : Int) - 52).toNat := by
  generalize ha : (-((k : Int) - 52)).toNat = a
  generalize hb : ((k : Int) - 52).toNat = b
  refine Nat.eq_of_mul_eq_mul_right (Nat.two_pow_pos k) ?_
  calc n * 2 ^ a * 2 ^ k = n * 2 ^ 52 * 2 ^ b := by
        rw [Nat.mul_assoc, Nat.mul_assoc, ← Nat.pow_add, ← Nat.pow_add]
        congr 2
        omega
    _ = m * 2 ^ b * 2 ^ k := by rw [h, Nat.mul_right_comm]

theorem nearest_whole {n m k : Nat} (h : n * 2 ^ 52 = m * 2 ^ k) (h1 : 2 ^ 52 ≤ m)
    (h2 : m < 2 ^ 53) (hk : k ≤ 53) : nearest n 1 = (k + 1022) * 2 ^ 52 + m := by
  have hscale := scale_whole h
  rw [nearest_congr Nat.one_pos (Nat.two_pow_pos _) (by rw [hscale, Nat.mul_one]),
    nearest_scaled (by omega)]
  · unfold infinity
    omega
  · rw [floorLog2_scaled (k := 52) h1 h2]
    omega

theorem nearest_whole_lt {n : Nat} (h : n ≤ 2 ^ 53) : nearest n 1 < infinity := by
  rcases Nat.eq_zero_or_pos n with rfl | h0
  · decide
  · obtain ⟨m, k, hn, h1, h2, hk⟩ := exists_normal h0 h
    rw [nearest_whole hn h1 h2 hk]
    unfold infinity
    omega

theorem scaled_nearest_whole {n m k : Nat} (h : n * 2 ^ 52 = m * 2 ^ k) (h1 : 2 ^ 52 ≤ m)
    (h2 : m < 2 ^ 53) (hk : k ≤ 53) : scaled (nearest n 1) = (m, (k : Int) - 52) := by
  rw [nearest_whole h h1 h2 hk]
  unfold scaled
  rw [if_neg (by omega), Prod.mk.injEq]
  omega

/-- A natural number up to `2 ^ 53` is the value of the number nearest to it. -/
theorem ratio_nearest_whole {n : Nat} (h : n ≤ 2 ^ 53) :
    (ratio (nearest n 1)).1 = n * (ratio (nearest n 1)).2 := by
  rcases Nat.eq_zero_or_pos n with rfl | h0
  · rw [Nat.zero_mul]
    decide
  · obtain ⟨m, k, hn, h1, h2, hk⟩ := exists_normal h0 h
    unfold ratio
    rw [scaled_nearest_whole hn h1 h2 hk]
    exact (scale_whole hn).symm

theorem value?_whole {n : Nat} (h : n ≤ 2 ^ 53) : value? (whole n) = some (n : ℚ) := by
  have hlt := nearest_whole_lt h
  have hden : ((ratio (nearest n 1)).2 : ℚ) ≠ 0 := by exact_mod_cast (ratio_den_pos _).ne'
  unfold value? whole
  rw [pattern_ofPattern hlt, isNegative_ofPattern hlt, if_pos hlt, ratio_nearest_whole h]
  push_cast
  simp [hden]

theorem negativeZero_eq_ofPattern : (-0.0 : Float) = ofPattern true 0 := by decide +kernel

/-- A number is equal to a natural number if it is the one nearest to it, or negative zero. -/
theorem value?_eq_natCast_iff {x : Float} {n : Nat} (h : n ≤ 2 ^ 53) :
    value? x = some (n : ℚ) ↔ x = whole n ∨ n = 0 ∧ x = -0.0 := by
  constructor
  · intro hx
    unfold value? at hx
    split at hx
    · rename_i hlt
      cases hneg : isNegative x with
      | false =>
        left
        rw [hneg] at hx
        have hval : ((ratio (pattern x)).1 : ℚ) / (ratio (pattern x)).2 = n / 1 := by
          simpa using hx
        rw [← ofPattern_pattern x, hneg, eq_nearest_of_ratio hlt Nat.one_pos (by exact_mod_cast hval)]
        rfl
      | true =>
        -- the value is at most zero, so it is zero
        right
        rw [hneg] at hx
        have hval : -(((ratio (pattern x)).1 : ℚ) / (ratio (pattern x)).2) = n := by simpa using hx
        have hnonneg : 0 ≤ ((ratio (pattern x)).1 : ℚ) / (ratio (pattern x)).2 := by positivity
        have hn : (n : ℚ) = 0 := le_antisymm (by linarith) (Nat.cast_nonneg n)
        have hzero : ((ratio (pattern x)).1 : ℚ) / (ratio (pattern x)).2 = (0 : Nat) / (1 : Nat) := by
          rw [Nat.cast_zero, zero_div]
          linarith
        have hpattern : pattern x = 0 := eq_nearest_of_ratio hlt Nat.one_pos hzero
        refine ⟨by exact_mod_cast hn, ?_⟩
        rw [negativeZero_eq_ofPattern, ← ofPattern_pattern x, hneg, hpattern]
    · cases hx
  · rintro (rfl | ⟨rfl, rfl⟩)
    · exact value?_whole h
    · rw [negativeZero_eq_ofPattern]
      unfold value?
      rw [pattern_ofPattern (by decide), isNegative_ofPattern (by decide), if_pos (by decide)]
      rw [show (ratio 0).1 = 0 by decide, Nat.cast_zero, zero_div]
      simp

/-- The machine's comparison with a natural number is that of values. -/
theorem whole_beq_iff {x : Float} {n : Nat} (h : n ≤ 2 ^ 53) :
    (whole n == x) = true ↔ value? x = some (n : ℚ) := by
  have hnan : ∀ y q, value? y = some q → y ≠ Float.nan := by
    rintro y q hy rfl
    cases hy
  have hsign : isNegative (whole n) = false := isNegative_ofPattern (nearest_whole_lt h) false
  rw [Float.beq_iff_ne_nan_and_eq]
  constructor
  · rintro ⟨-, -, rfl | ⟨hn, rfl⟩ | ⟨hn, -⟩⟩
    · exact value?_whole h
    · rw [← value?_whole h, hn]
      have hneg := (value?_eq_natCast_iff (x := -0) (Nat.zero_le _)).2 (.inr ⟨rfl, by decide +kernel⟩)
      have hpos := (value?_eq_natCast_iff (x := 0) (Nat.zero_le _)).2 (.inl (by decide +kernel))
      rw [hneg, hpos]
    · rw [hn] at hsign
      cases hsign
  · intro hx
    refine ⟨hnan _ _ (value?_whole h), hnan _ _ hx, ?_⟩
    rcases (value?_eq_natCast_iff h).1 hx with rfl | ⟨rfl, rfl⟩
    · exact .inl rfl
    · exact .inr (.inl ⟨by decide +kernel, by decide +kernel⟩)

/-! ## Counting by one -/

theorem unpack_whole {n m k : Nat} (h : n * 2 ^ 52 = m * 2 ^ k) (h1 : 2 ^ 52 ≤ m)
    (h2 : m < 2 ^ 53) (hk : k ≤ 53) :
    ∃ hm, (whole n).toModel.unpack = .finite .positive m ((k : Int) - 52) hm := by
  have hnear := nearest_whole h h1 h2 hk
  have hlt : nearest n 1 < infinity := by
    rw [hnear]
    unfold infinity
    omega
  have hpat : pattern (whole n) = nearest n 1 := pattern_ofPattern hlt false
  have hsign : isNegative (whole n) = false := isNegative_ofPattern hlt false
  have hnormal := unpack_of_normal (x := whole n) (by rw [hpat, hnear]; omega) (by rwa [hpat])
  rwa [hsign, hpat, scaled_nearest_whole h h1 h2 hk] at hnormal

theorem shiftRight_exact (m k : Nat) :
    (ExtendedMantissa.ofMantissaAndAccuracy (m * 2 ^ k) .exact) >>> k =
      ExtendedMantissa.ofMantissaAndAccuracy m .exact := by
  show k.repeat ExtendedMantissa.shiftRightOne ⟨m * 2 ^ k, false, false⟩ = ⟨m, false, false⟩
  induction k generalizing m with
  | zero => simp [Nat.repeat]
  | succ k ih =>
    have hsplit : m * 2 ^ (k + 1) = 2 * m * 2 ^ k := by
      rw [Nat.pow_succ, Nat.mul_comm (2 ^ k), ← Nat.mul_assoc, Nat.mul_comm m]
    rw [Nat.repeat, hsplit, ih]
    simp [ExtendedMantissa.shiftRightOne]

theorem targetExponent_of_normal {m k : Nat} {e : Int} (h1 : 2 ^ 52 ≤ m) (h2 : m < 2 ^ 53)
    (he : -1074 ≤ e) :
    Format.binary64.targetExponent (Float.Model.totalExponent (m * 2 ^ k) (e - k)) = e := by
  have hlog : (m * 2 ^ k).log2 = 52 + k := by
    rw [Nat.log2_eq_iff (Nat.mul_pos (by omega) (Nat.two_pow_pos k)).ne', Nat.pow_add,
      show 52 + k + 1 = 53 + k by omega, Nat.pow_add]
    exact ⟨Nat.mul_le_mul_right _ h1, Nat.mul_lt_mul_of_pos_right h2 (Nat.two_pow_pos k)⟩
  unfold Format.targetExponent Float.Model.totalExponent
  rw [hlog]
  show max (((52 + k : Nat) : Int) + 1 + (e - k) - 53) (-1074) = e
  omega

theorem shiftToTargetExponent_exact {m : Nat} {e : Int} (h1 : 2 ^ 52 ≤ m) (h2 : m < 2 ^ 53)
    (he : -1074 ≤ e) (k : Nat) :
    shiftToTargetExponent Format.binary64 (m * 2 ^ k) (e - k) .exact =
      (.ofMantissaAndAccuracy m .exact, e) := by
  have hk : (e - (e - (k : Int))).toNat = k := by omega
  unfold shiftToTargetExponent shiftToExponent
  rw [targetExponent_of_normal h1 h2 he]
  dsimp only
  rw [hk, shiftRight_exact]
  congr 1
  omega

/-- A value with 53 significant bits is not changed by rounding. -/
theorem round_exact (s : Sign) {m : Nat} {e : Int} (h1 : 2 ^ 52 ≤ m) (h2 : m < 2 ^ 53)
    (he : -1074 ≤ e) (hm : 0 < m) (k : Nat) :
    UnpackedFloat.round Format.binary64 s (m * 2 ^ k) (e - k) = .finite s m e hm := by
  have hnone : decreaseExponent (m * 2 ^ k) (e - k) e = (m * 2 ^ k, e - k) := by
    unfold decreaseExponent
    rw [show (e - k - e).toNat = 0 by omega]
    simp
  -- rounding does not make the mantissa longer, so the second shift is one by no place
  have hagain : shiftToTargetExponent Format.binary64
      (ExtendedMantissa.ofMantissaAndAccuracy m .exact).roundedMantissa e .exact =
        (.ofMantissaAndAccuracy m .exact, e) := by
    have hzero := shiftToTargetExponent_exact h1 h2 he 0
    rwa [Nat.pow_zero, Nat.mul_one, Int.natCast_zero, Int.sub_zero] at hzero
  unfold UnpackedFloat.round roundWithAccuracy
  rw [targetExponent_of_normal h1 h2 he]
  simp only [hnone, shiftToTargetExponent_exact h1 h2 he, hagain]
  exact dif_neg hm.ne'

/-- The sum of two positive numbers, the second in units of the last place of one, is rounded once. -/
theorem add_positive {m m' k : Nat} (hm : 0 < m) (hm' : 0 < m') :
    UnpackedFloat.add Format.binary64 (.finite .positive m ((k : Int) - 52) hm)
        (.finite .positive m' (-52) hm') =
      UnpackedFloat.round Format.binary64 .positive (m * 2 ^ k + m') (-52) := by
  have hmin : min ((k : Int) - 52) (-52) = -52 := by omega
  have hk : ((k : Int) - 52 - -52).toNat = k := by omega
  have hsum : compare (((m <<< k : Nat) : Int) + ((m' <<< 0 : Nat) : Int)) 0 = .gt := by
    have hpos : 0 < m' <<< 0 := hm'
    rw [compare_gt_iff_gt]
    generalize m <<< k = a
    omega
  unfold UnpackedFloat.add decreaseExponent UnpackedFloat.normalize
  simp only [hmin, hk, Int.sub_self, Int.toNat_zero, Sign.apply, hsum]
  congr 1
  rw [← Nat.shiftLeft_eq]
  rfl

/-- The sum of one and a natural number that has at most 53 significant bits. -/
theorem whole_add_one {n : Nat} (h : n < 2 ^ 53) : whole n + 1.0 = whole (n + 1) := by
  have hone : (1.0 : Float) = whole 1 := by decide +kernel
  have hadd : whole n + whole 1 = .ofModel (.pack (UnpackedFloat.add Format.binary64
    (whole n).toModel.unpack (whole 1).toModel.unpack)) := rfl
  rw [hone]
  rcases Nat.eq_zero_or_pos n with rfl | h0
  · decide +kernel
  · obtain ⟨m, k, hn, h1, h2, hk⟩ := exists_normal h0 (Nat.le_of_lt h)
    obtain ⟨m', k', hn', h1', h2', hk'⟩ := exists_normal (Nat.succ_pos n) h
    obtain ⟨hm, hu⟩ := unpack_whole hn h1 h2 hk
    obtain ⟨hm1, hu1⟩ := unpack_whole (n := 1) (m := 2 ^ 52) (k := 0) rfl (Nat.le_refl _)
      (by decide) (by decide)
    obtain ⟨hm', hu'⟩ := unpack_whole hn' h1' h2' hk'
    rw [hadd, hu, hu1, ← ofModel_pack_unpack (whole (n + 1)), hu']
    -- the sum has the value of `n + 1`, whose leading bit may be one place further up
    congr 2
    rw [show ((0 : Nat) : Int) - 52 = -52 by decide, add_positive hm hm1, ← hn, ← Nat.succ_mul, hn',
      show (-52 : Int) = (k' : Int) - 52 - k' by omega]
    exact round_exact .positive h1' h2' (by omega) hm' k'

/-- From `2 ^ 53` on, one is too small to count. -/
theorem whole_limit_add_one : whole (2 ^ 53) + 1.0 = whole (2 ^ 53) := by decide +kernel

/-- A counter that goes up by one takes the values up to `2 ^ 53` and stays there. -/
theorem whole_min_add_one (n : Nat) :
    whole (min n (2 ^ 53)) + 1.0 = whole (min (n + 1) (2 ^ 53)) := by
  rcases Nat.lt_or_ge n (2 ^ 53) with h | h
  · rw [Nat.min_eq_left (Nat.le_of_lt h), Nat.min_eq_left h, whole_add_one h]
  · rw [Nat.min_eq_right h, Nat.min_eq_right (Nat.le_succ_of_le h), whole_limit_add_one]

theorem ofInt?_natCast {n : Nat} (h : n ≤ 2 ^ 53) : ofInt? n = some (whole n) := by
  unfold ofInt?
  rw [Int.natAbs_natCast, if_neg (nearest_whole_lt h).ne,
    decide_eq_false (Int.not_lt.2 (Int.natCast_nonneg n)), whole]

end RegisterMachine.Number
