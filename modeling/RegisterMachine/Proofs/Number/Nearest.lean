import RegisterMachine.Number.Decimal

/-!
# Rounding by value

Rounding a ratio to binary64 depends on the value of the ratio only, not on the numerator and the
denominator that it is given by. So a decimal is read by its value, and a decimal that is found for
a pattern is read as that pattern again.

* `floorLog2_eq_iff`: the binary logarithm is the greatest power that a ratio reaches.
* `nearest_congr`: equal ratios are rounded alike.
* `ofDecimal_eq_nearest`: the powers of ten that `ofDecimal` does not form make no difference.

Principal results: `nearest_ratio` (a finite pattern is nearest to its own value),
`ofDecimal_mul_pow` (zeros at the end of the coefficient count like powers of ten) and
`pattern_shortest` (the shortest decimal of a pattern is read as that pattern).
-/

set_option autoImplicit false

namespace RegisterMachine.Number

/-! ## Quotients -/

theorem roundDiv_mul_left {k : Nat} (hk : 0 < k) (num den : Nat) :
    roundDiv (k * num) (k * den) = roundDiv num den := by
  have hrest : 2 * (k * (num % den)) = k * (2 * (num % den)) := by
    rw [Nat.mul_left_comm]
  unfold roundDiv
  simp only [Nat.mul_div_mul_left _ _ hk, Nat.mul_mod_mul_left, hrest, Nat.mul_lt_mul_left hk]

theorem roundDiv_congr {num den num' den' : Nat} (hd : 0 < den) (hd' : 0 < den')
    (h : num * den' = num' * den) : roundDiv num den = roundDiv num' den' := by
  calc roundDiv num den = roundDiv (den' * num) (den' * den) := (roundDiv_mul_left hd' _ _).symm
    _ = roundDiv (den * num') (den * den') := by
        rw [Nat.mul_comm den' num, h, Nat.mul_comm num' den, Nat.mul_comm den' den]
    _ = roundDiv num' den' := roundDiv_mul_left hd _ _

theorem div_le_roundDiv (num den : Nat) : num / den ≤ roundDiv num den := by
  unfold roundDiv
  dsimp only
  split
  · exact Nat.le_refl _
  · split <;> omega

theorem roundDiv_of_small {num den s t : Nat} (hst : s < t) (h : num * 2 ^ t < den) :
    roundDiv (num * 2 ^ s) den = 0 := by
  have hpow : 2 * 2 ^ s ≤ 2 ^ t := Nat.pow_succ' ▸ Nat.pow_le_pow_right (by decide) hst
  have hhalf : 2 * (num * 2 ^ s) < den := by
    rw [Nat.mul_left_comm]
    exact Nat.lt_of_le_of_lt (Nat.mul_le_mul_left num hpow) h
  have hlt : num * 2 ^ s < den := by omega
  simp [roundDiv, Nat.div_eq_of_lt hlt, Nat.mod_eq_of_lt hlt, hhalf]

/-! ## Logarithms -/

theorem reaches_iff {base num den : Nat} {k : Int} :
    reaches base num den k = true ↔ den * base ^ k.toNat ≤ num * base ^ (-k).toNat := by
  simp [reaches]

theorem reaches_natCast {base num den k : Nat} :
    reaches base num den (k : Int) = true ↔ den * base ^ k ≤ num := by
  rw [reaches_iff, Int.toNat_natCast, show (-(k : Int)).toNat = 0 by omega, Nat.pow_zero,
    Nat.mul_one]

theorem reaches_neg_natCast {base num den k : Nat} :
    reaches base num den (-(k : Int)) = true ↔ den ≤ num * base ^ k := by
  rw [reaches_iff, Int.neg_neg, Int.toNat_natCast, show (-(k : Int)).toNat = 0 by omega,
    Nat.pow_zero, Nat.mul_one]

theorem reaches_of_le {num den : Nat} {j k : Int} (hk : k ≤ j) (h : reaches 2 num den j = true) :
    reaches 2 num den k = true := by
  rw [reaches_iff] at h ⊢
  calc den * 2 ^ k.toNat ≤ den * 2 ^ j.toNat :=
        Nat.mul_le_mul_left _ (Nat.pow_le_pow_right (by decide) (by omega))
    _ ≤ num * 2 ^ (-j).toNat := h
    _ ≤ num * 2 ^ (-k).toNat :=
        Nat.mul_le_mul_left _ (Nat.pow_le_pow_right (by decide) (by omega))

theorem reaches_congr {base num den num' den' : Nat} (hd : 0 < den) (hd' : 0 < den')
    (h : num * den' = num' * den) (k : Int) :
    reaches base num den k = reaches base num' den' k := by
  -- both sides of the comparison are multiplied by the other denominator
  have hscale : den' * (num * base ^ (-k).toNat) = den * (num' * base ^ (-k).toNat) := by
    rw [← Nat.mul_assoc, ← Nat.mul_assoc, Nat.mul_comm den' num, h, Nat.mul_comm num' den]
  rw [Bool.eq_iff_iff, reaches_iff, reaches_iff, ← Nat.mul_le_mul_left_iff hd', hscale,
    Nat.mul_left_comm, Nat.mul_le_mul_left_iff hd]

/-- The ratio of numbers with logarithms `a` and `b` lies between `2 ^ (a - b - 1)` and
`2 ^ (a - b + 1)`. -/
theorem reaches_log2_sub {num den : Nat} (hn : 0 < num) (hd : 0 < den) :
    reaches 2 num den ((num.log2 : Int) - den.log2 - 1) = true ∧
      reaches 2 num den ((num.log2 : Int) - den.log2 + 1) = false := by
  have hn1 := Nat.log2_self_le (Nat.pos_iff_ne_zero.1 hn)
  have hn2 := Nat.lt_log2_self (n := num)
  have hd1 := Nat.log2_self_le (Nat.pos_iff_ne_zero.1 hd)
  have hd2 := Nat.lt_log2_self (n := den)
  generalize num.log2 = a at hn1 hn2 ⊢
  generalize den.log2 = b at hd1 hd2 ⊢
  constructor
  · rw [reaches_iff]
    generalize hu : ((a : Int) - b - 1).toNat = u
    generalize hv : (-((a : Int) - b - 1)).toNat = v
    calc den * 2 ^ u ≤ 2 ^ (b + 1) * 2 ^ u := Nat.mul_le_mul_right _ (Nat.le_of_lt hd2)
      _ = 2 ^ a * 2 ^ v := by rw [← Nat.pow_add, ← Nat.pow_add]; congr 1; omega
      _ ≤ num * 2 ^ v := Nat.mul_le_mul_right _ hn1
  · rw [← Bool.not_eq_true, reaches_iff, Nat.not_le]
    generalize hu : ((a : Int) - b + 1).toNat = u
    generalize hv : (-((a : Int) - b + 1)).toNat = v
    calc num * 2 ^ v < 2 ^ (a + 1) * 2 ^ v := Nat.mul_lt_mul_of_pos_right hn2 (Nat.two_pow_pos v)
      _ = 2 ^ b * 2 ^ u := by rw [← Nat.pow_add, ← Nat.pow_add]; congr 1; omega
      _ ≤ den * 2 ^ u := Nat.mul_le_mul_right _ hd1

/-- The binary logarithm of a ratio is the greatest power of two that it reaches. -/
theorem floorLog2_eq_iff {num den : Nat} (hn : 0 < num) (hd : 0 < den) (k : Int) :
    floorLog2 num den = k ↔ reaches 2 num den k = true ∧ reaches 2 num den (k + 1) = false := by
  have hgreatest : reaches 2 num den (floorLog2 num den) = true ∧
      reaches 2 num den (floorLog2 num den + 1) = false := by
    obtain ⟨hlow, hhigh⟩ := reaches_log2_sub hn hd
    unfold floorLog2
    dsimp only
    split
    · rename_i hk
      exact ⟨hk, hhigh⟩
    · rename_i hk
      rw [Int.sub_add_cancel]
      exact ⟨hlow, by simpa using hk⟩
  constructor
  · rintro rfl
    exact hgreatest
  · rintro ⟨hk, hk'⟩
    -- of two different candidates the smaller one does not reach far enough
    rcases Int.lt_trichotomy (floorLog2 num den) k with hlt | heq | hgt
    · have := reaches_of_le (show floorLog2 num den + 1 ≤ k by omega) hk
      rw [hgreatest.2] at this
      cases this
    · exact heq
    · have := reaches_of_le (show k + 1 ≤ floorLog2 num den by omega) hgreatest.1
      rw [hk'] at this
      cases this

theorem reaches_floorLog2 {num den : Nat} (hn : 0 < num) (hd : 0 < den) :
    reaches 2 num den (floorLog2 num den) = true :=
  ((floorLog2_eq_iff hn hd _).1 rfl).1

theorem floorLog2_lt_neg {num den k : Nat} (hn : 0 < num) (h : num * 2 ^ k < den) :
    floorLog2 num den < -(k : Int) := by
  refine Int.not_le.1 fun hle => ?_
  have hreach := reaches_of_le hle (reaches_floorLog2 hn (by omega))
  rw [reaches_neg_natCast] at hreach
  omega

theorem le_floorLog2 {num k : Nat} (h : 2 ^ k ≤ num) : (k : Int) ≤ floorLog2 num 1 := by
  have hn : 0 < num := Nat.lt_of_lt_of_le (Nat.two_pow_pos k) h
  refine Int.not_lt.1 fun hlt => ?_
  have hk : reaches 2 num 1 (k : Int) = true := reaches_natCast.2 (by rwa [Nat.one_mul])
  have hreach := reaches_of_le (show floorLog2 num 1 + 1 ≤ k by omega) hk
  rw [((floorLog2_eq_iff hn Nat.one_pos _).1 rfl).2] at hreach
  cases hreach

theorem floorLog2_congr {num den num' den' : Nat} (hn : 0 < num) (hd : 0 < den) (hd' : 0 < den')
    (h : num * den' = num' * den) : floorLog2 num den = floorLog2 num' den' := by
  have hn' : 0 < num' := Nat.pos_of_mul_pos_right (h ▸ Nat.mul_pos hn hd')
  rw [floorLog2_eq_iff hn hd, reaches_congr hd hd' h, reaches_congr hd hd' h,
    ← floorLog2_eq_iff hn' hd']

/-! ## Nearest patterns -/

/-- Equal ratios have the same nearest pattern. -/
theorem nearest_congr {num den num' den' : Nat} (hd : 0 < den) (hd' : 0 < den')
    (h : num * den' = num' * den) : nearest num den = nearest num' den' := by
  rcases Nat.eq_zero_or_pos num with rfl | hn
  · have hn' : num' = 0 := by
      rw [Nat.zero_mul, eq_comm, Nat.mul_eq_zero] at h
      exact h.resolve_right (by omega)
    simp [nearest, hn']
  · have hn' : 0 < num' := Nat.pos_of_mul_pos_right (h ▸ Nat.mul_pos hn hd')
    unfold nearest
    rw [if_neg (by omega), if_neg (by omega), floorLog2_congr hn hd hd' h]
    generalize max (-1074) (floorLog2 num' den' - 52) = e
    dsimp only
    rw [roundDiv_congr (Nat.mul_pos hd (Nat.two_pow_pos _)) (Nat.mul_pos hd' (Nat.two_pow_pos _))]
    calc num * 2 ^ (-e).toNat * (den' * 2 ^ e.toNat)
        = num * den' * (2 ^ (-e).toNat * 2 ^ e.toNat) := Nat.mul_mul_mul_comm ..
      _ = num' * 2 ^ (-e).toNat * (den * 2 ^ e.toNat) := by rw [h, Nat.mul_mul_mul_comm]

/-- What is rounded with the unit `2 ^ e` in the last place. -/
theorem nearest_of_unit {num den : Nat} (hn : 0 < num) {e : Int}
    (he : max (-1074) (floorLog2 num den - 52) = e) :
    nearest num den =
      min infinity ((e + 1074).toNat * 2 ^ 52 +
        roundDiv (num * 2 ^ (-e).toNat) (den * 2 ^ e.toNat)) := by
  unfold nearest
  rw [if_neg (by omega), he]

/-- From `2 ^ 1024` on every magnitude is infinite. -/
theorem nearest_of_large {num : Nat} (h : 2 ^ 1024 ≤ num) : nearest num 1 = infinity := by
  have hn : 0 < num := Nat.lt_of_lt_of_le (Nat.two_pow_pos _) h
  have hlog := le_floorLog2 h
  obtain ⟨k, hk⟩ : ∃ k : Nat, floorLog2 num 1 = ((k + 52 : Nat) : Int) :=
    ⟨(floorLog2 num 1 - 52).toNat, by omega⟩
  have hreach := reaches_floorLog2 hn Nat.one_pos
  rw [hk, reaches_natCast, Nat.pow_add, Nat.one_mul, Nat.mul_comm] at hreach
  rw [nearest_of_unit hn (e := k) (by omega), show (-(k : Int)).toNat = 0 by omega,
    Int.toNat_natCast, Nat.pow_zero, Nat.mul_one, Nat.one_mul]
  -- the quotient has its leading bit at place 52, so the pattern is at least `2047 * 2 ^ 52`
  have hquot : 2 ^ 52 ≤ roundDiv num (2 ^ k) :=
    Nat.le_trans ((Nat.le_div_iff_mul_le (Nat.two_pow_pos k)).2 hreach) (div_le_roundDiv _ _)
  have hexp : 2046 ≤ ((k : Int) + 1074).toNat := by omega
  refine Nat.min_eq_left ?_
  unfold infinity
  omega

/-- Below `2 ^ (-1075)` every magnitude is zero. -/
theorem nearest_of_small {num den t : Nat} (ht : 1075 ≤ t) (h : num * 2 ^ t < den) :
    nearest num den = 0 := by
  rcases Nat.eq_zero_or_pos num with rfl | hn
  · rfl
  · have hlog := floorLog2_lt_neg hn h
    obtain ⟨e, he⟩ : ∃ e : Int, e = -1074 := ⟨_, rfl⟩
    rw [nearest_of_unit hn (e := e) (by omega), show e.toNat = 0 by omega,
      show (e + 1074).toNat = 0 by omega, Nat.pow_zero, Nat.mul_one,
      roundDiv_of_small (show (-e).toNat < t by omega) h]
    decide

/-- What a pattern stands for, rounded with the unit that it is a multiple of, is the multiple. -/
theorem nearest_scaled {m : Nat} {q : Int} (hm : 0 < m)
    (hq : max (-1074) (floorLog2 (m * 2 ^ q.toNat) (2 ^ (-q).toNat) - 52) = q) :
    nearest (m * 2 ^ q.toNat) (2 ^ (-q).toNat) =
      min infinity ((q + 1074).toNat * 2 ^ 52 + m) := by
  rw [nearest_of_unit (Nat.mul_pos hm (Nat.two_pow_pos _)) hq, Nat.mul_assoc,
    Nat.mul_comm (2 ^ (-q).toNat),
    roundDiv_mul_right m (Nat.mul_pos (Nat.two_pow_pos _) (Nat.two_pow_pos _))]

/-- The logarithm of `m * 2 ^ q` by that of `m`. -/
theorem floorLog2_scaled {m k : Nat} {q : Int} (h1 : 2 ^ k ≤ m) (h2 : m < 2 ^ (k + 1)) :
    floorLog2 (m * 2 ^ q.toNat) (2 ^ (-q).toNat) = q + k := by
  have hm : 0 < m := Nat.lt_of_lt_of_le (Nat.two_pow_pos k) h1
  have hsplit : ∀ j : Int, reaches 2 (m * 2 ^ q.toNat) (2 ^ (-q).toNat) (q + j) =
      reaches 2 m 1 j := by
    intro j
    -- both sides of the comparison carry the same further power of two
    obtain ⟨t, h1, h2⟩ : ∃ t, (-q).toNat + (q + j).toNat = j.toNat + t ∧
        q.toNat + (-(q + j)).toNat = (-j).toNat + t :=
      ⟨(-q).toNat + (q + j).toNat - j.toNat, by omega, by omega⟩
    rw [Bool.eq_iff_iff, reaches_iff, reaches_iff, ← Nat.pow_add, Nat.mul_assoc, ← Nat.pow_add, h1,
      h2, Nat.pow_add, Nat.pow_add, ← Nat.mul_assoc, Nat.mul_le_mul_right_iff (Nat.two_pow_pos t),
      Nat.one_mul]
  rw [floorLog2_eq_iff (Nat.mul_pos hm (Nat.two_pow_pos _)) (Nat.two_pow_pos _), Int.add_assoc,
    hsplit, hsplit, ← Bool.not_eq_true, show (k : Int) + 1 = ((k + 1 : Nat) : Int) from rfl,
    reaches_natCast, reaches_natCast]
  omega

/-- A finite pattern is nearest to its own value. -/
theorem nearest_ratio {b : Nat} (hb : b < infinity) : nearest (ratio b).1 (ratio b).2 = b := by
  unfold infinity at hb
  unfold ratio scaled
  by_cases hsub : b < 2 ^ 52
  · rw [if_pos hsub]
    rcases Nat.eq_zero_or_pos b with rfl | hpos
    · rfl
    · have hlog : b.log2 < 52 := (Nat.log2_lt (by omega)).2 hsub
      rw [nearest_scaled hpos]
      · unfold infinity
        omega
      · rw [floorLog2_scaled (Nat.log2_self_le (by omega)) Nat.lt_log2_self]
        omega
  · rw [if_neg hsub, nearest_scaled (by omega)]
    · unfold infinity
      omega
    · rw [floorLog2_scaled (k := 52) (by omega) (by omega)]
      omega

/-! ## Decimals -/

/-- A decimal is read by its value. -/
theorem ofDecimal_eq_nearest (n : Nat) (x : Int) :
    ofDecimal n x = nearest (n * 10 ^ x.toNat) (10 ^ (-x).toNat) := by
  cases x with
  | ofNat p =>
    show (if n = 0 then 0 else if 309 ≤ p then infinity else nearest (n * 10 ^ p) 1) =
      nearest (n * 10 ^ p) (10 ^ (-(p : Int)).toNat)
    rw [show (-(p : Int)).toNat = 0 by omega, Nat.pow_zero]
    split
    · simp [nearest, *]
    · split
      · rename_i hn hp
        refine (nearest_of_large ?_).symm
        calc 2 ^ 1024 ≤ 1 * 10 ^ 309 := by decide +kernel
          _ ≤ n * 10 ^ p := Nat.mul_le_mul (by omega) (Nat.pow_le_pow_right (by decide) hp)
      · rfl
  | negSucc p =>
    show (if n.log2 + 1076 ≤ 3 * (p + 1) then 0 else nearest n (10 ^ (p + 1))) =
      nearest (n * 10 ^ 0) (10 ^ (p + 1))
    rw [Nat.pow_zero, Nat.mul_one]
    split
    · rename_i hp
      -- the power of two that lifts the coefficient to that of the denominator
      obtain ⟨t, ht, hsum⟩ : ∃ t, 1075 ≤ t ∧ n.log2 + 1 + t = 3 * (p + 1) :=
        ⟨3 * (p + 1) - (n.log2 + 1), by omega, by omega⟩
      refine (nearest_of_small ht ?_).symm
      calc n * 2 ^ t < 2 ^ (n.log2 + 1) * 2 ^ t :=
            Nat.mul_lt_mul_of_pos_right Nat.lt_log2_self (Nat.two_pow_pos t)
        _ = 2 ^ (3 * (p + 1)) := by rw [← Nat.pow_add, hsum]
        _ = 8 ^ (p + 1) := by rw [Nat.pow_mul]
        _ ≤ 10 ^ (p + 1) := Nat.pow_le_pow_left (by decide) _
    · rfl

/-- Zeros at the end of a coefficient count like powers of ten. -/
theorem ofDecimal_mul_pow (n k : Nat) (x : Int) :
    ofDecimal (n * 10 ^ k) x = ofDecimal n (x + k) := by
  rw [ofDecimal_eq_nearest, ofDecimal_eq_nearest]
  refine nearest_congr (Nat.pow_pos (by decide)) (Nat.pow_pos (by decide)) ?_
  rw [Nat.mul_assoc, Nat.mul_assoc, Nat.mul_assoc, ← Nat.pow_add, ← Nat.pow_add, ← Nat.pow_add]
  congr 2
  omega

@[simp] theorem ofDecimal_zero (x : Int) : ofDecimal 0 x = 0 := by
  rw [ofDecimal_eq_nearest, Nat.zero_mul]
  rfl

/-- The exact expansion of a pattern is read as that pattern. -/
theorem pattern_exact {b : Nat} (hb : b < infinity) : (Decimal.exact b).pattern = b := by
  conv => rhs; rw [← nearest_ratio hb]
  unfold Decimal.pattern Decimal.exact ratio
  obtain ⟨m, q⟩ := scaled b
  dsimp only
  rw [ofDecimal_eq_nearest]
  refine nearest_congr (Nat.pow_pos (by decide)) (Nat.two_pow_pos _) ?_
  rw [show (min q 0).toNat = 0 by omega, show (-(min q 0)).toNat = (-q).toNat by omega,
    Nat.pow_zero, Nat.mul_one, Nat.mul_assoc, ← Nat.mul_pow]

theorem pattern_of_onGrid? {b num den : Nat} {x : Int} {d : Decimal}
    (h : onGrid? b num den x = some d) : d.pattern = b := by
  have htest : ∀ {first second : Decimal},
      (if first.pattern = b then some first else if second.pattern = b then some second else none) =
        some d → d.pattern = b := by
    intro first second h
    split at h
    · rename_i hfirst
      cases h
      exact hfirst
    · split at h
      · rename_i hsecond
        cases h
        exact hsecond
      · cases h
  exact htest h

/-- **The shortest decimal of a pattern is read as that pattern.** -/
theorem pattern_shortest {b : Nat} (hb : b < infinity) : (shortest b).pattern = b := by
  unfold shortest
  dsimp only
  cases h : (List.range 17).findSome? fun (n : Nat) =>
      onGrid? b (ratio b).1 (ratio b).2 (floorLog10 (ratio b).1 (ratio b).2 - (n : Int)) with
  | none => exact pattern_exact hb
  | some d =>
    obtain ⟨n, -, hn⟩ := List.exists_of_findSome?_eq_some h
    exact pattern_of_onGrid? hn

end RegisterMachine.Number
