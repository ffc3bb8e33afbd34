import Mathlib
import RegisterMachine.Proofs.Number.Closest
import RegisterMachine.Proofs.Number.ReadBack

/-!
# The fewest digits

Rounding is monotone, so the values that are read as one pattern are an interval around its
magnitude. If a decimal with few digits is read as the pattern, then so is a point of the grid that
has as many digits, and then so is one of the two grid points next to the magnitude; those are the
ones that `shortest` tries, from the coarsest grid on.

* `Neighbours`: the points of a grid next to a magnitude, the nearer one first.
* `floorLog10_spec`: the decimal exponent of a finite pattern.
* `onGrid?_isSome_iff`: a grid is taken if and only if one of its points is read as the pattern.
* `exists_onGrid`: seventeen digits are always enough.

Principal results: `length_digits_le` (no decimal with fewer digits than are written for a number is
read as that number) and `closest_shortest` (nor is one of the same places that is nearer to it).
-/

set_option autoImplicit false

namespace RegisterMachine.Number

/-! ## Decimal exponents -/

/-- The product of a binary logarithm with `0.30103` bounds the decimal one, for the logarithms of
all finite patterns. -/
theorem floorLog10_estimate : (List.range 2098).all (fun j =>
    let f := (j : Int) - 1074
    let k := f * 30103 / 100000
    reaches 10 (2 ^ f.toNat) (2 ^ (-f).toNat) (k - 1) &&
      reaches 2 (10 ^ (k + 2).toNat) (10 ^ (-(k + 2)).toNat) (f + 1)) = true := by
  decide +kernel

theorem zpow_estimate {f : Int} (h1 : -1074 ≤ f) (h2 : f ≤ 1023) :
    (10 : ℚ) ^ (f * 30103 / 100000 - 1) ≤ (2 : ℚ) ^ f ∧
      (2 : ℚ) ^ (f + 1) ≤ (10 : ℚ) ^ (f * 30103 / 100000 + 2) := by
  have hcheck := List.all_eq_true.1 floorLog10_estimate (f + 1074).toNat
    (List.mem_range.2 (by omega))
  have hf : ((f + 1074).toNat : Int) - 1074 = f := by omega
  dsimp only at hcheck
  rw [hf, Bool.and_eq_true, reaches_iff_zpow_le (by decide) (Nat.two_pow_pos _),
    reaches_iff_zpow_le (by decide) (Nat.pow_pos (by decide))] at hcheck
  have htwo := mul_pow_div_pow 2 two_pos 1 1 f
  have hten := mul_pow_div_pow 10 (by decide) 1 1 (f * 30103 / 100000 + 2)
  simp only [Nat.cast_one, div_one, one_mul] at htwo hten
  rw [htwo, hten] at hcheck
  exact_mod_cast hcheck

/-- The binary logarithm of a positive finite pattern, and its least and greatest value. -/
theorem floorLog2_spec {b : Nat} (h0 : 0 < b) (hb : b < infinity) :
    ((2 : ℚ) ^ floorLog2 (ratio b).1 (ratio b).2 ≤ magnitude b ∧
        magnitude b < (2 : ℚ) ^ (floorLog2 (ratio b).1 (ratio b).2 + 1)) ∧
      -1074 ≤ floorLog2 (ratio b).1 (ratio b).2 ∧ floorLog2 (ratio b).1 (ratio b).2 ≤ 1023 := by
  have hpos : 0 < magnitude b := by
    rw [← magnitude_zero]
    exact strictMono_magnitude h0
  have hn : 0 < (ratio b).1 := by
    refine Nat.pos_of_ne_zero fun hzero => hpos.ne' ?_
    rw [magnitude, hzero, Nat.cast_zero, zero_div]
  have hlog : (2 : ℚ) ^ floorLog2 (ratio b).1 (ratio b).2 ≤ magnitude b ∧
      magnitude b < (2 : ℚ) ^ (floorLog2 (ratio b).1 (ratio b).2 + 1) :=
    zpow_floorLog2_le hn (Nat.two_pow_pos _)
  refine ⟨hlog, ?_, ?_⟩
  · have hleast : magnitude 1 = (2 : ℚ) ^ (-1074 : Int) := by
      have h := magnitude_of_unit (i := 0) (k := 1) (by omega) (.inl rfl)
      simpa using h
    have hone : magnitude 1 ≤ magnitude b := strictMono_magnitude.monotone h0
    rw [hleast] at hone
    have hlt := (zpow_lt_zpow_iff_right₀ (one_lt_two : (1 : ℚ) < 2)).1 (hone.trans_lt hlog.2)
    omega
  · have hinf : magnitude infinity = (2 : ℚ) ^ (1024 : Int) := by
      have h := magnitude_of_unit (i := 2046) (k := 2 ^ 52) (by omega) (.inr (Nat.le_refl _))
      have hpattern : 2046 * 2 ^ 52 + 2 ^ 52 = infinity := rfl
      rw [hpattern] at h
      calc magnitude infinity = (2 : ℚ) ^ (52 : Int) * (2 : ℚ) ^ (972 : Int) := by
            rw [h]
            congr 1
        _ = (2 : ℚ) ^ (1024 : Int) := by rw [← zpow_add₀ two_ne_zero]; rfl
    have hbelow := strictMono_magnitude hb
    rw [hinf] at hbelow
    have hlt := (zpow_lt_zpow_iff_right₀ (one_lt_two : (1 : ℚ) < 2)).1 (hlog.1.trans_lt hbelow)
    omega

/-- The magnitude of a positive finite pattern is between the power of ten that `floorLog10` finds
and the next one. -/
theorem floorLog10_spec {b : Nat} (h0 : 0 < b) (hb : b < infinity) :
    (10 : ℚ) ^ floorLog10 (ratio b).1 (ratio b).2 ≤ magnitude b ∧
      magnitude b < (10 : ℚ) ^ (floorLog10 (ratio b).1 (ratio b).2 + 1) := by
  obtain ⟨⟨hlow, hhigh⟩, h1, h2⟩ := floorLog2_spec h0 hb
  obtain ⟨hten, htwo⟩ := zpow_estimate h1 h2
  have hd : 0 < (ratio b).2 := Nat.two_pow_pos _
  have hreach : ∀ k, reaches 10 (ratio b).1 (ratio b).2 k = true ↔
      ((10 : Nat) : ℚ) ^ k ≤ ((ratio b).1 : ℚ) / (ratio b).2 := reaches_iff_zpow_le (by decide) hd
  unfold floorLog10
  generalize floorLog2 (ratio b).1 (ratio b).2 = f at hlow hhigh hten htwo ⊢
  generalize f * 30103 / 100000 = k at hten htwo ⊢
  change (10 : ℚ) ^ _ ≤ (ratio b).1 / (ratio b).2 ∧ ((ratio b).1 : ℚ) / (ratio b).2 < _
  dsimp only
  split
  · rename_i hk
    rw [hreach] at hk
    exact ⟨by exact_mod_cast hk, by rw [add_assoc]; exact hhigh.trans_le htwo⟩
  · rename_i hk1
    rw [hreach, not_le] at hk1
    split
    · rename_i hk
      rw [hreach] at hk
      exact ⟨by exact_mod_cast hk, by exact_mod_cast hk1⟩
    · rename_i hk
      rw [hreach, not_le] at hk
      rw [sub_add_cancel]
      exact ⟨hten.trans hlow, by exact_mod_cast hk⟩

/-! ## Grids -/

theorem IsNearest.of_between {u v w : ℚ} {b c : Nat} (hu : IsNearest u b) (hw : IsNearest w b)
    (hv : IsNearest v c) (huv : u ≤ v) (hvw : v ≤ w) : c = b :=
  Nat.le_antisymm (hv.mono hw hvw) (hu.mono hv huv)

/-- Two points of a grid in a row with a magnitude between them, the nearer one first. -/
structure Neighbours (b : Nat) (x : Int) (g h : Nat) : Prop where
  nearer : |magnitude b - g * (10 : ℚ) ^ x| ≤ |magnitude b - h * (10 : ℚ) ^ x|
  around : (h = g + 1 ∧ g * (10 : ℚ) ^ x ≤ magnitude b ∧ magnitude b ≤ h * (10 : ℚ) ^ x) ∨
    (g = h + 1 ∧ h * (10 : ℚ) ^ x ≤ magnitude b ∧ magnitude b ≤ g * (10 : ℚ) ^ x)

/-- A point is on the far side of another one, or is it. -/
def Beyond (b : Nat) (x : Int) (g k : Nat) : Prop :=
  g ≤ k ∧ magnitude b ≤ g * (10 : ℚ) ^ x ∨ k ≤ g ∧ g * (10 : ℚ) ^ x ≤ magnitude b

/-- Where a magnitude is between the points of a grid. -/
theorem gridFloor_eq (b : Nat) (x : Int) {f r unit : Nat}
    (h : gridFloor (ratio b).1 (ratio b).2 x = (f, r, unit)) :
    magnitude b = ((f : ℚ) + r / unit) * (10 : ℚ) ^ x ∧ r < unit := by
  have hscaled := mul_pow_div_pow 10 (by decide) (ratio b).1 (ratio b).2 (-x)
  rw [neg_neg, Nat.cast_ofNat] at hscaled
  have hd : 0 < (ratio b).2 * 10 ^ x.toNat :=
    Nat.mul_pos (Nat.two_pow_pos _) (Nat.pow_pos (by decide))
  cases h
  generalize (ratio b).1 * 10 ^ (-x).toNat = n at hscaled ⊢
  generalize (ratio b).2 * 10 ^ x.toNat = d at hd hscaled ⊢
  have hd' : (d : ℚ) ≠ 0 := by exact_mod_cast hd.ne'
  have hmod : (n : ℚ) = d * (n / d : Nat) + (n % d : Nat) := by
    exact_mod_cast (Nat.div_add_mod n d).symm
  refine ⟨?_, Nat.mod_lt n hd⟩
  calc magnitude b = (n : ℚ) / d * (10 : ℚ) ^ x := by
        rw [hscaled, mul_assoc, ← zpow_add₀ (by norm_num), neg_add_cancel, zpow_zero, mul_one]
        rfl
    _ = (((n / d : Nat) : ℚ) + ((n % d : Nat) : ℚ) / d) * (10 : ℚ) ^ x := by
        rw [hmod, add_div, mul_div_cancel_left₀ _ hd']

theorem gridFloor_around (b : Nat) (x : Int) {f r unit : Nat}
    (h : gridFloor (ratio b).1 (ratio b).2 x = (f, r, unit)) :
    f * (10 : ℚ) ^ x ≤ magnitude b ∧ magnitude b ≤ (f + 1 : Nat) * (10 : ℚ) ^ x := by
  obtain ⟨hvalue, hr⟩ := gridFloor_eq b x h
  have hunit : (0 : ℚ) < unit := by exact_mod_cast Nat.zero_lt_of_lt hr
  have hlow : (0 : ℚ) ≤ r / unit := by positivity
  have hhigh : (r : ℚ) / unit < 1 := (div_lt_one hunit).2 (by exact_mod_cast hr)
  have hpow : (0 : ℚ) ≤ (10 : ℚ) ^ x := by positivity
  rw [hvalue]
  push_cast
  exact ⟨mul_le_mul_of_nonneg_right (by linarith) hpow,
    mul_le_mul_of_nonneg_right (by linarith) hpow⟩

/-- Twice the rest tells which of the two is nearer. -/
theorem gridFloor_nearer (b : Nat) (x : Int) {f r unit : Nat}
    (h : gridFloor (ratio b).1 (ratio b).2 x = (f, r, unit)) :
    (2 * r ≤ unit → |magnitude b - f * (10 : ℚ) ^ x| ≤
        |magnitude b - (f + 1 : Nat) * (10 : ℚ) ^ x|) ∧
      (unit ≤ 2 * r → |magnitude b - (f + 1 : Nat) * (10 : ℚ) ^ x| ≤
        |magnitude b - f * (10 : ℚ) ^ x|) := by
  obtain ⟨hfloor, hceil⟩ := gridFloor_around b x h
  obtain ⟨hvalue, hr⟩ := gridFloor_eq b x h
  have hunit : (0 : ℚ) < unit := by exact_mod_cast Nat.zero_lt_of_lt hr
  have hpow : (0 : ℚ) ≤ (10 : ℚ) ^ x := by positivity
  have hbelow : |magnitude b - f * (10 : ℚ) ^ x| = (r / unit) * (10 : ℚ) ^ x := by
    rw [abs_of_nonneg (sub_nonneg.2 hfloor), hvalue]
    ring
  have habove : |magnitude b - (f + 1 : Nat) * (10 : ℚ) ^ x| = (1 - r / unit) * (10 : ℚ) ^ x := by
    rw [abs_of_nonpos (sub_nonpos.2 hceil), hvalue]
    push_cast
    ring
  rw [hbelow, habove]
  constructor
  · intro hhalf
    have hle : (r : ℚ) / unit ≤ 1 / 2 := by
      rw [div_le_div_iff₀ hunit two_pos]
      exact_mod_cast (by omega : r * 2 ≤ 1 * unit)
    exact mul_le_mul_of_nonneg_right (by linarith) hpow
  · intro hhalf
    have hle : 1 / 2 ≤ (r : ℚ) / unit := by
      rw [div_le_div_iff₀ two_pos hunit]
      exact_mod_cast (by omega : 1 * unit ≤ r * 2)
    exact mul_le_mul_of_nonneg_right (by linarith) hpow

/-- What `onGrid?` tries: the neighbours of the magnitude, the nearer one first. -/
theorem onGrid?_eq (b : Nat) (x : Int) :
    ∃ g h : Nat, Neighbours b x g h ∧ onGrid? b (ratio b).1 (ratio b).2 x =
      if ofDecimal g x = b then some ⟨g, x⟩
      else if ofDecimal h x = b then some ⟨h, x⟩
      else none := by
  unfold onGrid?
  rcases hgrid : gridFloor (ratio b).1 (ratio b).2 x with ⟨f, r, unit⟩
  have haround := gridFloor_around b x hgrid
  obtain ⟨hbelow, habove⟩ := gridFloor_nearer b x hgrid
  dsimp only
  by_cases hprefer : (decide (unit < 2 * r) || (unit == 2 * r && f % 2 == 1)) = true
  · have hhalf : unit ≤ 2 * r := by
      simp only [Bool.or_eq_true, decide_eq_true_eq, Bool.and_eq_true, beq_iff_eq] at hprefer
      omega
    refine ⟨f + 1, f, ⟨habove hhalf, .inr ⟨rfl, haround⟩⟩, ?_⟩
    rw [if_pos hprefer, if_pos hprefer]
    rfl
  · have hhalf : 2 * r ≤ unit := by
      simp only [Bool.or_eq_true, decide_eq_true_eq, not_or] at hprefer
      omega
    refine ⟨f, f + 1, ⟨hbelow hhalf, .inl ⟨rfl, haround⟩⟩, ?_⟩
    rw [if_neg hprefer, if_neg hprefer]
    rfl

variable {b g h k : Nat} {x : Int}

theorem mul_zpow_le_mul_zpow (hk : g ≤ k) : (g : ℚ) * (10 : ℚ) ^ x ≤ k * (10 : ℚ) ^ x :=
  mul_le_mul_of_nonneg_right (by exact_mod_cast hk) (by positivity)

namespace Beyond

theorem ofDecimal_eq (hb : b ≤ infinity) (hside : Beyond b x g k) (hk : ofDecimal k x = b) :
    ofDecimal g x = b := by
  have hread := isNearest_ofDecimal k x
  rw [hk] at hread
  rcases hside with ⟨hle, hg⟩ | ⟨hle, hg⟩
  · exact (isNearest_magnitude hb).of_between hread (isNearest_ofDecimal g x) hg
      (mul_zpow_le_mul_zpow hle)
  · exact hread.of_between (isNearest_magnitude hb) (isNearest_ofDecimal g x)
      (mul_zpow_le_mul_zpow hle) hg

theorem abs_sub_le (hside : Beyond b x g k) :
    |magnitude b - g * (10 : ℚ) ^ x| ≤ |magnitude b - k * (10 : ℚ) ^ x| := by
  rcases hside with ⟨hle, hg⟩ | ⟨hle, hg⟩
  · have hk := mul_zpow_le_mul_zpow (x := x) hle
    rw [abs_of_nonpos (by linarith), abs_of_nonpos (by linarith)]
    linarith
  · have hk := mul_zpow_le_mul_zpow (x := x) hle
    rw [abs_of_nonneg (by linarith), abs_of_nonneg (by linarith)]
    linarith

end Beyond

namespace Neighbours

/-- No point of the grid is between the neighbours. -/
theorem beyond (hn : Neighbours b x g h) (k : Nat) : Beyond b x g k ∨ Beyond b x h k := by
  rcases hn.around with ⟨rfl, hg, hh⟩ | ⟨rfl, hh, hg⟩
  · rcases Nat.lt_or_ge g k with hlt | hge
    · exact .inr (.inl ⟨hlt, hh⟩)
    · exact .inl (.inr ⟨hge, hg⟩)
  · rcases Nat.lt_or_ge h k with hlt | hge
    · exact .inl (.inl ⟨hlt, hg⟩)
    · exact .inr (.inr ⟨hge, hh⟩)

theorem two_mul_abs_sub_le (hn : Neighbours b x g h) :
    2 * |magnitude b - g * (10 : ℚ) ^ x| ≤ (10 : ℚ) ^ x := by
  have hsum : |magnitude b - g * (10 : ℚ) ^ x| + |magnitude b - h * (10 : ℚ) ^ x| =
      (10 : ℚ) ^ x := by
    rcases hn.around with ⟨rfl, hg, hh⟩ | ⟨rfl, hh, hg⟩
    · rw [abs_of_nonneg (sub_nonneg.2 hg), abs_of_nonpos (sub_nonpos.2 hh)]
      push_cast
      ring
    · rw [abs_of_nonpos (sub_nonpos.2 hg), abs_of_nonneg (sub_nonneg.2 hh)]
      push_cast
      ring
  linarith [hn.nearer]

/-- Neighbours have not more digits than the grid, or one is the power of ten after these. -/
theorem le_ten_pow {n : Nat} (hn : Neighbours b x g h) (hb : magnitude b < (10 : ℚ) ^ (x + n)) :
    g ≤ 10 ^ n ∧ h ≤ 10 ^ n := by
  have hbound : ∀ f : Nat, f * (10 : ℚ) ^ x ≤ magnitude b → f < 10 ^ n := by
    intro f hf
    have hlt := hf.trans_lt hb
    rw [add_comm, zpow_add₀ (by norm_num), zpow_natCast] at hlt
    exact_mod_cast lt_of_mul_lt_mul_right hlt (by positivity)
  rcases hn.around with ⟨rfl, hg, -⟩ | ⟨rfl, hh, -⟩
  · exact ⟨(hbound g hg).le, hbound g hg⟩
  · exact ⟨hbound h hh, (hbound h hh).le⟩

end Neighbours

variable {d : Decimal}

/-- **A grid is taken if and only if one of its points is read as the pattern**: if one is, so is
the neighbour on its side. -/
theorem onGrid?_isSome_iff (hb : b ≤ infinity) :
    (onGrid? b (ratio b).1 (ratio b).2 x).isSome = true ↔ ∃ k, ofDecimal k x = b := by
  obtain ⟨g, h, hn, htaken⟩ := onGrid?_eq b x
  rw [htaken]
  constructor
  · intro hsome
    split at hsome
    · exact ⟨g, ‹_›⟩
    · split at hsome
      · exact ⟨h, ‹_›⟩
      · cases hsome
  · rintro ⟨k, hk⟩
    rcases hn.beyond k with hside | hside
    · rw [if_pos (hside.ofDecimal_eq hb hk)]
      rfl
    · rw [if_pos (hside.ofDecimal_eq hb hk)]
      split <;> rfl

theorem coefficient_le_of_onGrid? {n : Nat} (hb : magnitude b < (10 : ℚ) ^ (x + n))
    (hd : onGrid? b (ratio b).1 (ratio b).2 x = some d) : d.coefficient ≤ 10 ^ n := by
  obtain ⟨g, h, hn, htaken⟩ := onGrid?_eq b x
  rw [htaken] at hd
  split at hd
  · cases hd
    exact (hn.le_ten_pow hb).1
  · split at hd
    · cases hd
      exact (hn.le_ten_pow hb).2
    · cases hd

/-- **No point of the grid that is read as the pattern is nearer than what is taken from it.** -/
theorem closest_of_onGrid? (hb : b ≤ infinity)
    (hd : onGrid? b (ratio b).1 (ratio b).2 x = some d) (hk : ofDecimal k x = b) :
    |magnitude b - d.coefficient * (10 : ℚ) ^ x| ≤ |magnitude b - k * (10 : ℚ) ^ x| := by
  obtain ⟨g, h, hn, htaken⟩ := onGrid?_eq b x
  rw [htaken] at hd
  split at hd
  · cases hd
    rcases hn.beyond k with hside | hside
    · exact hside.abs_sub_le
    · exact hn.nearer.trans hside.abs_sub_le
  · rename_i hg
    split at hd
    · cases hd
      rcases hn.beyond k with hside | hside
      · exact absurd (hside.ofDecimal_eq hb hk) hg
      · exact hside.abs_sub_le
    · cases hd

theorem exponent_of_onGrid? (hd : onGrid? b (ratio b).1 (ratio b).2 x = some d) :
    d.exponent = x := by
  obtain ⟨g, h, -, htaken⟩ := onGrid?_eq b x
  rw [htaken] at hd
  split at hd
  · cases hd
    rfl
  · split at hd
    · cases hd
      rfl
    · cases hd

/-! ## Seventeen digits -/

/-- Magnitudes are apart from each other by more than `2 ^ -53` of their size. -/
theorem magnitude_le_mul_abs_sub {b c : Nat} (h : c ≠ b) :
    magnitude b ≤ 2 ^ 53 * |magnitude b - magnitude c| := by
  have hstep : ∀ a, magnitude (a + 1) ≤ 2 ^ 53 * (magnitude (a + 1) - magnitude a) := by
    intro a
    obtain ⟨i, k, rfl, hk, hi⟩ := exists_unit a
    have hk' : ((k + 1 : Nat) : ℚ) ≤ 2 ^ 53 := by exact_mod_cast hk
    rw [magnitude_succ hk hi, add_sub_cancel_left, magnitude_of_unit hk.le hi, ← add_one_mul]
    exact mul_le_mul_of_nonneg_right (by exact_mod_cast hk') (by positivity)
  rcases Nat.lt_or_gt_of_ne h with hlt | hgt
  · obtain ⟨a, rfl⟩ : ∃ a, b = a + 1 := ⟨b - 1, by omega⟩
    have hc : magnitude c ≤ magnitude a := strictMono_magnitude.monotone (by omega)
    have ha : magnitude a < magnitude (a + 1) := strictMono_magnitude (Nat.lt_succ_self a)
    rw [abs_of_pos (by linarith)]
    linarith [hstep a]
  · have hc : magnitude (b + 1) ≤ magnitude c := strictMono_magnitude.monotone hgt
    have hb : magnitude b < magnitude (b + 1) := strictMono_magnitude (Nat.lt_succ_self b)
    rw [abs_of_neg (by linarith)]
    linarith [hstep b]

/-- What is away from a magnitude by less than `2 ^ -54` of its size is rounded to it. -/
theorem isNearest_of_close {v : ℚ} {b : Nat} (hb : b ≤ infinity)
    (h : 2 ^ 54 * |v - magnitude b| < magnitude b) : IsNearest v b := by
  have hless : ∀ c, c ≠ b → |v - magnitude b| < |v - magnitude c| := by
    intro c hc
    have hgap := magnitude_le_mul_abs_sub hc
    have htriangle := abs_sub_le (magnitude b) v (magnitude c)
    rw [abs_sub_comm (magnitude b) v] at htriangle
    linarith
  refine ⟨hb, fun c _ => ?_, fun c _ htie => ?_⟩
  · rcases eq_or_ne c b with rfl | hne
    · exact le_refl _
    · exact (hless c hne).le
  · by_contra hnot
    exact (hless c fun h => hnot (.inl h)).ne htie

/-- **Seventeen digits are always enough.** -/
theorem exists_onGrid {b : Nat} (hb : b ≤ infinity) {e : Int} (he : (10 : ℚ) ^ e ≤ magnitude b) :
    ∃ g, ofDecimal g (e - 16) = b := by
  obtain ⟨g, h, hn, -⟩ := onGrid?_eq b (e - 16)
  have hunit : (10 : ℚ) ^ e = (10 : ℚ) ^ 16 * (10 : ℚ) ^ (e - 16) := by
    rw [← zpow_natCast, ← zpow_add₀ (by norm_num)]
    congr 1
    push_cast
    ring
  have hpos : (0 : ℚ) < (10 : ℚ) ^ (e - 16) := by positivity
  have hclose : IsNearest (g * (10 : ℚ) ^ (e - 16)) b := by
    refine isNearest_of_close hb ?_
    rw [abs_sub_comm]
    linarith [hn.two_mul_abs_sub_le]
  exact ⟨g, (isNearest_ofDecimal g (e - 16)).unique hclose⟩

/-! ## The fewest digits -/

theorem findSome?_range {α : Type} {f : Nat → Option α} {j n : Nat} (hj : j < n)
    (h : (f j).isSome = true) :
    ∃ i ≤ j, ∃ d, f i = some d ∧ (List.range n).findSome? f = some d := by
  have hfound : ((List.range (j + 1)).findSome? f).isSome = true :=
    List.findSome?_isSome_iff.2 ⟨j, List.mem_range.2 (Nat.lt_succ_self j), h⟩
  obtain ⟨d, hd⟩ := Option.isSome_iff_exists.1 hfound
  obtain ⟨i, hi, hfi⟩ := List.exists_of_findSome?_eq_some hd
  refine ⟨i, Nat.lt_succ_iff.1 (List.mem_range.1 hi), d, hfi, ?_⟩
  obtain ⟨k, rfl⟩ := Nat.exists_eq_add_of_le (Nat.succ_le_of_lt hj)
  rw [List.range_add, List.findSome?_append, hd]
  rfl

/-- `shortest` takes the first grid that has a point that is read as the pattern. -/
theorem onGrid?_shortest {b j g : Nat} {e : Int} (h0 : 0 < b) (hb : b < infinity)
    (he : floorLog10 (ratio b).1 (ratio b).2 = e) (hg : ofDecimal g (e - j) = b) :
    ∃ i ≤ j, onGrid? b (ratio b).1 (ratio b).2 (e - (i : Int)) = some (shortest b) := by
  have hlow := (floorLog10_spec h0 hb).1
  rw [he] at hlow
  obtain ⟨g', hg'⟩ := exists_onGrid hb.le hlow
  -- the grid of seventeen digits stands in for the finer ones
  have hcoarse : ∃ k < 17, k ≤ j ∧ ∃ g, ofDecimal g (e - (k : Int)) = b := by
    rcases Nat.lt_or_ge j 17 with hlt | hge
    · exact ⟨j, hlt, Nat.le_refl j, g, hg⟩
    · refine ⟨16, by decide, by omega, g', ?_⟩
      rw [← hg']
      rfl
  obtain ⟨k, hk, hkj, hread⟩ := hcoarse
  obtain ⟨i, hik, d, hd, hfound⟩ :=
    findSome?_range (f := fun n => onGrid? b (ratio b).1 (ratio b).2 (e - (n : Int))) hk
      ((onGrid?_isSome_iff hb.le).2 hread)
  have hshortest : shortest b = d := by
    unfold shortest
    dsimp only
    rw [he, hfound, Option.getD_some]
  exact ⟨i, Nat.le_trans hik hkj, hshortest ▸ hd⟩

/-- **No decimal with the places of the one that is written is nearer to a number**, if it is read
as this number. -/
theorem closest_shortest {b k : Nat} (h0 : 0 < b) (hb : b < infinity)
    (hk : ofDecimal k (shortest b).exponent = b) :
    |magnitude b - (shortest b).coefficient * (10 : ℚ) ^ (shortest b).exponent| ≤
      |magnitude b - k * (10 : ℚ) ^ (shortest b).exponent| := by
  obtain ⟨g, hg⟩ := exists_onGrid hb.le (floorLog10_spec h0 hb).1
  obtain ⟨i, -, htaken⟩ := onGrid?_shortest (j := 16) h0 hb rfl hg
  rw [exponent_of_onGrid? htaken] at hk ⊢
  exact closest_of_onGrid? hb.le htaken hk

theorem digits_ten_pow (n : Nat) : digits (10 ^ n) = '1' :: List.replicate n '0' := by
  induction n with
  | zero => rfl
  | succ n ih =>
    have happend := Nat.toDigits_append_toDigits (b := 10) (n := 10 ^ n) (d := 0) (by decide)
      (Nat.pow_pos (by decide)) (by decide)
    rw [Nat.add_zero, Nat.mul_comm, ← Nat.pow_succ] at happend
    unfold digits at ih ⊢
    rw [← happend, ih, List.replicate_succ']
    rfl

/-- The zeros that are left out make up for a carry into a new digit. -/
theorem length_digits_of_le {n c : Nat} (hn : 0 < n) (h : c ≤ 10 ^ n) :
    ((digits c).reverse.dropWhile (· == '0')).length ≤ n := by
  rcases Nat.eq_or_lt_of_le h with rfl | hlt
  · rw [digits_ten_pow, List.reverse_cons, List.reverse_replicate,
      List.dropWhile_append_of_pos (by simp [List.mem_replicate])]
    exact hn
  · calc ((digits c).reverse.dropWhile (· == '0')).length
        ≤ (digits c).reverse.length := (List.dropWhile_sublist _).length_le
      _ = (digits c).length := List.length_reverse
      _ ≤ n := (length_digits_le_iff hn).2 hlt

/-- If a decimal of some number of digits is read as a pattern, so is a point of the grid that has
this many digits. -/
theorem exists_onGrid_of_lt {b c j : Nat} {x e : Int} (hb : b ≤ infinity)
    (he : (10 : ℚ) ^ e ≤ magnitude b) (hc : c < 10 ^ (j + 1)) (hread : ofDecimal c x = b) :
    ∃ g, ofDecimal g (e - j) = b := by
  rcases lt_or_ge x (e - j) with hlt | hge
  · -- what has a finer place lies below the power of ten that the magnitude reaches
    have hbelow : (c : ℚ) * (10 : ℚ) ^ x ≤ ((10 ^ j : Nat) : ℚ) * (10 : ℚ) ^ (e - j) := by
      calc (c : ℚ) * (10 : ℚ) ^ x ≤ (10 : ℚ) ^ (j + 1) * (10 : ℚ) ^ x :=
            mul_le_mul_of_nonneg_right (by exact_mod_cast hc.le) (by positivity)
        _ = (10 : ℚ) ^ ((j + 1 : Nat) + x : Int) := by rw [zpow_add₀ (by norm_num), zpow_natCast]
        _ ≤ (10 : ℚ) ^ (j + (e - j) : Int) := zpow_le_zpow_right₀ (by norm_num) (by omega)
        _ = ((10 ^ j : Nat) : ℚ) * (10 : ℚ) ^ (e - j) := by
            rw [zpow_add₀ (by norm_num), zpow_natCast, Nat.cast_pow, Nat.cast_ofNat]
    have hreached : ((10 ^ j : Nat) : ℚ) * (10 : ℚ) ^ (e - j) ≤ magnitude b := by
      rw [Nat.cast_pow, Nat.cast_ofNat, ← zpow_natCast, ← zpow_add₀ (by norm_num), add_sub_cancel]
      exact he
    have hlower := isNearest_ofDecimal c x
    rw [hread] at hlower
    exact ⟨10 ^ j, hlower.of_between (isNearest_magnitude hb) (isNearest_ofDecimal _ _) hbelow
      hreached⟩
  · refine ⟨c * 10 ^ (x - (e - j)).toNat, ?_⟩
    rw [ofDecimal_mul_pow, ← hread]
    congr 1
    omega

/-- **No decimal with fewer digits than are written for a number is read as that number.** -/
theorem length_digits_le {b c n : Nat} {x : Int} (h0 : 0 < b) (hb : b < infinity) (hc : c < 10 ^ n)
    (hread : ofDecimal c x = b) :
    ((digits (shortest b).coefficient).reverse.dropWhile (· == '0')).length ≤ n := by
  have hn : n ≠ 0 := by
    rintro rfl
    obtain rfl : c = 0 := by omega
    rw [ofDecimal_zero] at hread
    omega
  obtain ⟨j, rfl⟩ := Nat.exists_eq_succ_of_ne_zero hn
  obtain ⟨g, hg⟩ := exists_onGrid_of_lt hb.le (floorLog10_spec h0 hb).1 hc hread
  obtain ⟨i, hij, htaken⟩ := onGrid?_shortest h0 hb rfl hg
  have hcoeff : (shortest b).coefficient ≤ 10 ^ (i + 1) := by
    refine coefficient_le_of_onGrid? ?_ htaken
    rw [Nat.cast_add, Nat.cast_one, ← add_assoc, sub_add_cancel]
    exact (floorLog10_spec h0 hb).2
  exact (length_digits_of_le (Nat.succ_pos i) hcoeff).trans (Nat.succ_le_succ hij)

end RegisterMachine.Number
