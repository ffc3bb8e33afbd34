import Mathlib
import RegisterMachine.Proofs.Number.Nearest

/-!
# Rounding to the closest number

Patterns stand for magnitudes in increasing order, that of infinity for the power of two that would
come next. Among them `nearest` finds the closest one, and the even one of two that are equally
close; these two properties determine it, so it is monotone.

* `magnitude b`: what a pattern stands for.
* `IsNearest v b`: no pattern is closer to `v` than `b`, and `b` is even if another is as close.

Principal results: `strictMono_magnitude`, `isNearest_nearest` (`nearest` rounds to the closest
magnitude), `IsNearest.unique`, `IsNearest.mono` (greater values are not rounded to smaller
patterns) and `isNearest_ofDecimal` (so decimals are read by rounding their value).
-/

set_option autoImplicit false

namespace RegisterMachine.Number

/-! ## Magnitudes -/

/-- What a pattern stands for; that of infinity for the next power of two. -/
def magnitude (b : Nat) : ℚ := ((ratio b).1 : ℚ) / (ratio b).2

theorem mul_pow_div_pow (base : Nat) (hbase : 0 < base) (n d : Nat) (x : Int) :
    ((n * base ^ x.toNat : Nat) : ℚ) / ((d * base ^ (-x).toNat : Nat) : ℚ) =
      (n : ℚ) / d * (base : ℚ) ^ x := by
  have hb : (base : ℚ) ≠ 0 := by exact_mod_cast hbase.ne'
  obtain ⟨k, rfl | rfl⟩ := x.eq_nat_or_neg
  · simp
    ring
  · simp [zpow_neg]
    field_simp

theorem magnitude_eq (b : Nat) : magnitude b = (scaled b).1 * (2 : ℚ) ^ (scaled b).2 := by
  have h := mul_pow_div_pow 2 (by decide) (scaled b).1 1 (scaled b).2
  rw [Nat.one_mul, Nat.cast_one, div_one] at h
  exact h

/-- The magnitudes with the unit `2 ^ (i - 1074)` in the last place: multiples of the unit, from the
smallest normal one on if smaller units exist. -/
theorem magnitude_of_unit {i k : Nat} (hk : k ≤ 2 ^ 53) (hi : i = 0 ∨ 2 ^ 52 ≤ k) :
    magnitude (i * 2 ^ 52 + k) = k * (2 : ℚ) ^ ((i : Int) - 1074) := by
  rw [magnitude_eq, scaled]
  split
  · rename_i hlt
    obtain rfl : i = 0 := by omega
    norm_num
  · rename_i hge
    have hk52 : 2 ^ 52 ≤ k := by omega
    rcases Nat.lt_or_ge k (2 ^ 53) with hlt | hge
    · have hm : 2 ^ 52 + (i * 2 ^ 52 + k) % 2 ^ 52 = k := by omega
      have hq : (((i * 2 ^ 52 + k) / 2 ^ 52 : Nat) : Int) - 1075 = i - 1074 := by omega
      dsimp only
      rw [hm, hq]
    · -- the power of two at the end of the stretch has its own unit
      obtain rfl : k = 2 ^ 53 := by omega
      have hm : 2 ^ 52 + (i * 2 ^ 52 + 2 ^ 53) % 2 ^ 52 = 2 ^ 52 := by omega
      have hq : (((i * 2 ^ 52 + 2 ^ 53) / 2 ^ 52 : Nat) : Int) - 1075 = i - 1074 + 1 := by omega
      dsimp only
      rw [hm, hq, zpow_add_one₀ (by norm_num)]
      push_cast
      ring

theorem exists_unit (b : Nat) :
    ∃ i k, b = i * 2 ^ 52 + k ∧ k < 2 ^ 53 ∧ (i = 0 ∨ 2 ^ 52 ≤ k) :=
  ⟨b / 2 ^ 52 - 1, b - (b / 2 ^ 52 - 1) * 2 ^ 52, by omega, by omega, by omega⟩

theorem magnitude_succ {i k : Nat} (hk : k < 2 ^ 53) (hi : i = 0 ∨ 2 ^ 52 ≤ k) :
    magnitude (i * 2 ^ 52 + k + 1) =
      magnitude (i * 2 ^ 52 + k) + (2 : ℚ) ^ ((i : Int) - 1074) := by
  rw [Nat.add_assoc, magnitude_of_unit hk (by omega), magnitude_of_unit hk.le hi]
  push_cast
  ring

/-- **Patterns are ordered as their magnitudes.** -/
theorem strictMono_magnitude : StrictMono magnitude := by
  refine strictMono_nat_of_lt_succ fun b => ?_
  obtain ⟨i, k, rfl, hk, hi⟩ := exists_unit b
  rw [magnitude_succ hk hi]
  exact lt_add_of_pos_right _ (by positivity)

theorem magnitude_zero : magnitude 0 = 0 := by
  have h := magnitude_of_unit (i := 0) (k := 0) (by omega) (.inl rfl)
  simpa using h

/-! ## The closest magnitude -/

/-- Of two numbers on one side of a value the one on the way to the other is closer. -/
theorem abs_sub_lt_of_between {v x y : ℚ} (h : y < x ∧ x ≤ v ∨ v ≤ x ∧ x < y) :
    |v - x| < |v - y| := by
  rcases h with ⟨hyx, hxv⟩ | ⟨hvx, hxy⟩
  · rw [abs_of_nonneg (by linarith), abs_of_pos (by linarith)]
    linarith
  · rw [abs_of_nonpos (by linarith), abs_of_neg (by linarith)]
    linarith

/-- No pattern is closer to a value, and the pattern is even if another one is as close. -/
structure IsNearest (v : ℚ) (b : Nat) : Prop where
  le_infinity : b ≤ infinity
  closest : ∀ c ≤ infinity, |v - magnitude b| ≤ |v - magnitude c|
  even : ∀ c ≤ infinity, |v - magnitude b| = |v - magnitude c| → c = b ∨ Even b

namespace IsNearest

variable {v w : ℚ} {b c : Nat}

/-- Two nearest patterns in order lie on both sides of the middle, or are the same. -/
theorem not_lt (hb : IsNearest v b) (hc : IsNearest v c) : ¬ b < c := by
  intro hlt
  have htie : |v - magnitude b| = |v - magnitude c| :=
    le_antisymm (hb.closest c hc.le_infinity) (hc.closest b hb.le_infinity)
  obtain ⟨i, hi⟩ := (hb.even c hc.le_infinity htie).resolve_left hlt.ne'
  obtain ⟨j, hj⟩ := (hc.even b hb.le_infinity htie.symm).resolve_left hlt.ne
  -- between two even patterns there is a third, which is closer than both
  have h1 : magnitude b < magnitude (b + 1) := strictMono_magnitude (Nat.lt_succ_self b)
  have h2 : magnitude (b + 1) < magnitude c := strictMono_magnitude (by omega)
  have hmiddle := hb.closest (b + 1) (Nat.le_trans hlt hc.le_infinity)
  rcases abs_eq_abs.1 htie with heq | heq
  · linarith
  · have hv : v = (magnitude b + magnitude c) / 2 := by linarith
    rw [hv, abs_of_pos (by linarith : (magnitude b + magnitude c) / 2 - magnitude b > 0)] at hmiddle
    rcases abs_cases ((magnitude b + magnitude c) / 2 - magnitude (b + 1)) with h | h <;> linarith

/-- **A value has one nearest pattern.** -/
theorem unique (hb : IsNearest v b) (hc : IsNearest v c) : b = c :=
  Nat.le_antisymm (Nat.not_lt.1 (hc.not_lt hb)) (Nat.not_lt.1 (hb.not_lt hc))

/-- **Greater values are not rounded to smaller patterns.** -/
theorem mono (hb : IsNearest v b) (hc : IsNearest w c) (h : v ≤ w) : b ≤ c := by
  refine Nat.not_lt.1 fun hlt => ?_
  have hmag := strictMono_magnitude hlt
  have hv := sq_le_sq.2 (hb.closest c hc.le_infinity)
  have hw := sq_le_sq.2 (hc.closest b hb.le_infinity)
  -- the greater value is not past the middle, the smaller one not before it
  have hmiddle : v = w := by nlinarith
  subst hmiddle
  exact hc.not_lt hb hlt

end IsNearest

theorem isNearest_magnitude {b : Nat} (h : b ≤ infinity) : IsNearest (magnitude b) b where
  le_infinity := h
  closest c _ := by simp
  even c _ htie := by
    rw [sub_self, abs_zero, eq_comm, abs_eq_zero, sub_eq_zero] at htie
    exact .inl (strictMono_magnitude.injective htie).symm

/-! ## Rounding -/

/-- A ratio is half a unit away from what it is rounded to at most, and that is even then. -/
theorem abs_sub_roundDiv (num : Nat) {den : Nat} (hd : 0 < den) :
    |(num : ℚ) / den - roundDiv num den| ≤ 1 / 2 ∧
      (|(num : ℚ) / den - roundDiv num den| = 1 / 2 → Even (roundDiv num den)) := by
  have hd' : (0 : ℚ) < den := by exact_mod_cast hd
  have hmod : (num : ℚ) = den * (num / den : Nat) + (num % den : Nat) := by
    exact_mod_cast (Nat.div_add_mod num den).symm
  have hlt : ((num % den : Nat) : ℚ) < den := by exact_mod_cast Nat.mod_lt num hd
  have hrest : (num : ℚ) / den - (num / den : Nat) = ((num % den : Nat) : ℚ) / den := by
    rw [div_sub' hd'.ne']
    congr 1
    linarith
  unfold roundDiv
  generalize num / den = q at hrest
  generalize num % den = r at hrest hlt
  have hr : (0 : ℚ) ≤ r / den := by positivity
  dsimp only
  split
  · rename_i hless
    have hhalf : (r : ℚ) / den < 1 / 2 := by
      rw [div_lt_div_iff₀ hd' two_pos]
      exact_mod_cast (by omega : r * 2 < 1 * den)
    rw [hrest, abs_of_nonneg hr]
    exact ⟨hhalf.le, fun h => absurd h hhalf.ne⟩
  · split
    · rename_i hmore
      have hhalf : 1 / 2 < (r : ℚ) / den := by
        rw [div_lt_div_iff₀ two_pos hd']
        exact_mod_cast (by omega : 1 * den < r * 2)
      have hone : (r : ℚ) / den < 1 := (div_lt_one hd').2 hlt
      have habs : |(num : ℚ) / den - (q + 1 : Nat)| = 1 - r / den := by
        push_cast
        rw [← sub_sub, hrest, abs_of_neg (by linarith)]
        ring
      rw [habs]
      exact ⟨by linarith, fun h => by linarith⟩
    · -- halfway between two whole numbers
      have htie : den = 2 * r := by omega
      have hhalf : (r : ℚ) / den = 1 / 2 := by
        rw [div_eq_div_iff hd'.ne' two_ne_zero, htie]
        push_cast
        ring
      rcases Nat.even_or_odd q with ⟨k, hk⟩ | ⟨k, hk⟩
      · have hq : q + q % 2 = q := by omega
        rw [hq, hrest, hhalf]
        exact ⟨by norm_num, fun _ => ⟨k, hk⟩⟩
      · have hq : q + q % 2 = q + 1 := by omega
        rw [hq]
        push_cast
        rw [← sub_sub, hrest, hhalf]
        exact ⟨by norm_num, fun _ => ⟨k + 1, by omega⟩⟩

theorem reaches_iff_zpow_le {base num den : Nat} (hbase : 0 < base) (hd : 0 < den) (k : Int) :
    reaches base num den k = true ↔ (base : ℚ) ^ k ≤ (num : ℚ) / den := by
  have hb : (0 : ℚ) < base := by exact_mod_cast hbase
  have hd' : (0 : ℚ) < den := by exact_mod_cast hd
  rw [reaches_iff, le_div_iff₀ hd']
  obtain ⟨j, rfl | rfl⟩ := k.eq_nat_or_neg
  · rw [show (-(j : Int)).toNat = 0 by omega, Int.toNat_natCast, Nat.pow_zero, Nat.mul_one,
      zpow_natCast, mul_comm]
    exact_mod_cast Iff.rfl
  · rw [show (-(j : Int)).toNat = 0 by omega, neg_neg, Int.toNat_natCast, Nat.pow_zero, Nat.mul_one,
      zpow_neg, zpow_natCast, inv_mul_le_iff₀ (by positivity), mul_comm]
    exact_mod_cast Iff.rfl

theorem zpow_floorLog2_le {num den : Nat} (hn : 0 < num) (hd : 0 < den) :
    (2 : ℚ) ^ floorLog2 num den ≤ (num : ℚ) / den ∧
      (num : ℚ) / den < (2 : ℚ) ^ (floorLog2 num den + 1) := by
  obtain ⟨hlow, hhigh⟩ := (floorLog2_eq_iff hn hd _).1 rfl
  rw [← Bool.not_eq_true, reaches_iff_zpow_le two_pos hd, not_le] at hhigh
  rw [reaches_iff_zpow_le two_pos hd] at hlow
  exact_mod_cast And.intro hlow hhigh

/-- What `nearest` rounds: a positive ratio as a multiple of the unit that it has. -/
theorem nearest_eq {num den : Nat} (hn : 0 < num) (hd : 0 < den) :
    ∃ (i q : Nat) (t : ℚ), nearest num den = min infinity (i * 2 ^ 52 + q) ∧
      (num : ℚ) / den = t * (2 : ℚ) ^ ((i : Int) - 1074) ∧ t < 2 ^ 53 ∧ (i = 0 ∨ 2 ^ 52 ≤ t) ∧
      |t - q| ≤ 1 / 2 ∧ (|t - q| = 1 / 2 → Even q) := by
  obtain ⟨hlow, hhigh⟩ := zpow_floorLog2_le hn hd
  generalize he : max (-1074) (floorLog2 num den - 52) = e
  have hunit : ((e + 1074).toNat : Int) - 1074 = e := by omega
  have ht : ((num * 2 ^ (-e).toNat : Nat) : ℚ) / ((den * 2 ^ e.toNat : Nat) : ℚ) =
      (num : ℚ) / den * (2 : ℚ) ^ (-e) := by
    have h := mul_pow_div_pow 2 two_pos num den (-e)
    rwa [neg_neg] at h
  have hpos : (0 : ℚ) < (2 : ℚ) ^ (-e) := by positivity
  have hcancel : (2 : ℚ) ^ (-e) * (2 : ℚ) ^ e = 1 := by
    rw [← zpow_add₀ two_ne_zero, neg_add_cancel, zpow_zero]
  have hden : 0 < den * 2 ^ e.toNat := Nat.mul_pos hd (Nat.two_pow_pos _)
  have hround := abs_sub_roundDiv (num * 2 ^ (-e).toNat) hden
  rw [ht] at hround
  refine ⟨(e + 1074).toNat, _, _, nearest_of_unit hn he, ?_, ?_, ?_, hround⟩
  · rw [hunit, mul_assoc, hcancel, mul_one]
  · calc (num : ℚ) / den * (2 : ℚ) ^ (-e)
        < (2 : ℚ) ^ (floorLog2 num den + 1) * (2 : ℚ) ^ (-e) := mul_lt_mul_of_pos_right hhigh hpos
      _ = (2 : ℚ) ^ (floorLog2 num den + 1 - e) := by rw [← zpow_add₀ two_ne_zero, sub_eq_add_neg]
      _ ≤ (2 : ℚ) ^ (53 : Int) := zpow_le_zpow_right₀ (by norm_num) (by omega)
      _ = 2 ^ 53 := by norm_num
  · rcases Int.le_total (floorLog2 num den - 52) (-1074) with hsmall | hlarge
    · exact .inl (by omega)
    · right
      calc (2 : ℚ) ^ 52 = (2 : ℚ) ^ (52 : Int) := by norm_num
        _ = (2 : ℚ) ^ floorLog2 num den * (2 : ℚ) ^ (-e) := by
            rw [← zpow_add₀ two_ne_zero]
            congr 1
            omega
        _ ≤ (num : ℚ) / den * (2 : ℚ) ^ (-e) := mul_le_mul_of_nonneg_right hlow hpos.le

/-- The closest of all patterns, those above infinity included. -/
theorem closest_of_unit {i q : Nat} {t : ℚ} (ht : t < 2 ^ 53) (hi : i = 0 ∨ 2 ^ 52 ≤ t)
    (hq : |t - q| ≤ 1 / 2) (heven : |t - q| = 1 / 2 → Even q) (c : Nat) :
    |t * (2 : ℚ) ^ ((i : Int) - 1074) - magnitude (i * 2 ^ 52 + q)| ≤
        |t * (2 : ℚ) ^ ((i : Int) - 1074) - magnitude c| ∧
      (|t * (2 : ℚ) ^ ((i : Int) - 1074) - magnitude (i * 2 ^ 52 + q)| =
          |t * (2 : ℚ) ^ ((i : Int) - 1074) - magnitude c| →
        c = i * 2 ^ 52 + q ∨ Even (i * 2 ^ 52 + q)) := by
  have hunit : (0 : ℚ) < (2 : ℚ) ^ ((i : Int) - 1074) := by positivity
  obtain ⟨hlow, hhigh⟩ := abs_le.1 hq
  have hq53 : q ≤ 2 ^ 53 := by
    have hlt : (q : ℚ) < (2 ^ 53 + 1 : Nat) := by push_cast; linarith
    exact Nat.lt_succ_iff.1 (by exact_mod_cast hlt)
  have hqi : i = 0 ∨ 2 ^ 52 ≤ q := by
    refine hi.imp_right fun h => ?_
    have hlt : ((2 ^ 52 : Nat) : ℚ) < (q + 1 : Nat) := by push_cast; linarith
    exact Nat.lt_succ_iff.1 (by exact_mod_cast hlt)
  -- among the multiples of the unit the distance is that of the whole numbers
  have hstretch : ∀ k : Nat, k ≤ 2 ^ 53 → (i = 0 ∨ 2 ^ 52 ≤ k) →
      |t * (2 : ℚ) ^ ((i : Int) - 1074) - magnitude (i * 2 ^ 52 + k)| =
        |t - k| * (2 : ℚ) ^ ((i : Int) - 1074) := by
    intro k hk hik
    rw [magnitude_of_unit hk hik, ← sub_mul, abs_mul, abs_of_pos hunit]
  have hwhole : ∀ k : Nat, k ≠ q → 1 / 2 ≤ |t - k| := by
    intro k hk
    rcases Nat.lt_or_gt_of_ne hk with hlt | hgt
    · have h1 : (k : ℚ) + 1 ≤ q := by exact_mod_cast hlt
      exact le_abs.2 (.inl (by linarith))
    · have h1 : (q : ℚ) + 1 ≤ k := by exact_mod_cast hgt
      exact le_abs.2 (.inr (by linarith))
  have hbest : ∀ k : Nat, |t - q| ≤ |t - k| := fun k => by
    rcases eq_or_ne k q with rfl | hk
    · exact le_refl _
    · exact hq.trans (hwhole k hk)
  -- off the stretch, a multiple at its end is closer
  have hoff : ∀ k : Nat, k ≤ 2 ^ 53 → (i = 0 ∨ 2 ^ 52 ≤ k) →
      |t * (2 : ℚ) ^ ((i : Int) - 1074) - magnitude (i * 2 ^ 52 + k)| <
        |t * (2 : ℚ) ^ ((i : Int) - 1074) - magnitude c| →
      |t - q| * (2 : ℚ) ^ ((i : Int) - 1074) <
        |t * (2 : ℚ) ^ ((i : Int) - 1074) - magnitude c| := by
    intro k hk hik hless
    rw [hstretch k hk hik] at hless
    exact (mul_le_mul_of_nonneg_right (hbest k) hunit.le).trans_lt hless
  rw [hstretch q hq53 hqi]
  by_cases hbelow : 0 < i ∧ c < i * 2 ^ 52 + 2 ^ 52
  · have h52 := hi.resolve_left hbelow.1.ne'
    have hfirst : magnitude (i * 2 ^ 52 + 2 ^ 52) ≤ t * (2 : ℚ) ^ ((i : Int) - 1074) := by
      rw [magnitude_of_unit (by decide) (.inr (Nat.le_refl _))]
      exact mul_le_mul_of_nonneg_right (by exact_mod_cast h52) hunit.le
    have hless := hoff (2 ^ 52) (by decide) (.inr (Nat.le_refl _))
      (abs_sub_lt_of_between (.inl ⟨strictMono_magnitude hbelow.2, hfirst⟩))
    exact ⟨hless.le, fun h => absurd h hless.ne⟩
  by_cases habove : i * 2 ^ 52 + 2 ^ 53 < c
  · have hlast : t * (2 : ℚ) ^ ((i : Int) - 1074) ≤ magnitude (i * 2 ^ 52 + 2 ^ 53) := by
      rw [magnitude_of_unit (Nat.le_refl _) (.inr (by decide))]
      exact mul_le_mul_of_nonneg_right (by exact_mod_cast ht.le) hunit.le
    have hless := hoff (2 ^ 53) (Nat.le_refl _) (.inr (by decide))
      (abs_sub_lt_of_between (.inr ⟨hlast, strictMono_magnitude habove⟩))
    exact ⟨hless.le, fun h => absurd h hless.ne⟩
  · obtain ⟨k, rfl⟩ : ∃ k, c = i * 2 ^ 52 + k := ⟨c - i * 2 ^ 52, by omega⟩
    rw [hstretch k (by omega) (by omega)]
    refine ⟨mul_le_mul_of_nonneg_right (hbest k) hunit.le, fun h => ?_⟩
    rcases eq_or_ne k q with rfl | hk
    · exact .inl rfl
    · have htie : |t - q| = |t - k| := mul_right_cancel₀ hunit.ne' h
      obtain ⟨j, hj⟩ := heven (le_antisymm hq (htie ▸ hwhole k hk))
      exact .inr ⟨i * 2 ^ 51 + j, by omega⟩

/-- **`nearest` rounds to the closest magnitude**, and to the even pattern of two as close. -/
theorem isNearest_nearest (num : Nat) {den : Nat} (hd : 0 < den) :
    IsNearest ((num : ℚ) / den) (nearest num den) := by
  rcases Nat.eq_zero_or_pos num with rfl | hn
  · have hzero := isNearest_magnitude (Nat.zero_le infinity)
    rw [magnitude_zero] at hzero
    simpa [nearest] using hzero
  obtain ⟨i, q, t, hnearest, hv, ht, hi, hq, heven⟩ := nearest_eq hn hd
  have hclosest := closest_of_unit ht hi hq heven
  rw [hnearest, hv]
  generalize i * 2 ^ 52 + q = b at hclosest ⊢
  generalize t * (2 : ℚ) ^ ((i : Int) - 1074) = v at hclosest ⊢
  rcases Nat.le_total b infinity with hle | hge
  · rw [Nat.min_eq_right hle]
    exact ⟨hle, fun c _ => (hclosest c).1, fun c _ => (hclosest c).2⟩
  · rw [Nat.min_eq_left hge]
    -- what is closest to a pattern above infinity is past infinity itself
    have hpast : b = infinity ∨ magnitude infinity < v := by
      rcases Nat.eq_or_lt_of_le hge with heq | hlt
      · exact .inl heq.symm
      · right
        have hmag := strictMono_magnitude hlt
        have hsq := sq_le_sq.2 (hclosest infinity).1
        nlinarith
    rcases hpast with rfl | hpast
    · exact ⟨Nat.le_refl _, fun c _ => (hclosest c).1, fun c _ => (hclosest c).2⟩
    · have hless : ∀ c ≤ infinity, c ≠ infinity →
          |v - magnitude infinity| < |v - magnitude c| := fun c hc hne =>
        abs_sub_lt_of_between
          (.inl ⟨strictMono_magnitude (Nat.lt_of_le_of_ne hc hne), hpast.le⟩)
      refine ⟨Nat.le_refl _, fun c hc => ?_, fun c hc htie => ?_⟩
      · rcases eq_or_ne c infinity with rfl | hne
        · exact le_refl _
        · exact (hless c hc hne).le
      · by_contra hnot
        exact (hless c hc fun h => hnot (.inl h)).ne htie

/-- **Decimals are read by rounding their value.** -/
theorem isNearest_ofDecimal (n : Nat) (x : Int) :
    IsNearest ((n : ℚ) * (10 : ℚ) ^ x) (ofDecimal n x) := by
  have hden : 0 < 1 * 10 ^ (-x).toNat := Nat.mul_pos one_pos (Nat.pow_pos (by decide))
  have h := isNearest_nearest (n * 10 ^ x.toNat) hden
  rw [mul_pow_div_pow 10 (by decide), Nat.one_mul, ← ofDecimal_eq_nearest] at h
  simpa using h

end RegisterMachine.Number
