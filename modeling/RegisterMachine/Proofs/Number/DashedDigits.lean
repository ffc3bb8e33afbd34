import RegisterMachine.Proofs.Number.ReadBack

/-!
# Dashes and digits read as whole numbers

A target of a jump that consists of dashes and digits of any kind is meant as a whole number. Not
all of them are integer literals: a literal has one sign at most, its digits are decimal, and there
are not too many of them.

* `digitRanges`: the digits of any kind as ranges of characters.

Principal results: `isMargin_of_isDigitLike` (no digit is a margin) and `readInt_dashes_iff` (which
of these texts are read).
-/

set_option autoImplicit false

namespace RegisterMachine.Text

/-! ## Digits of any kind -/

theorem inRanges_eq_true_iff {ranges : Array (Nat × Nat)} {c : Char} :
    inRanges ranges c = true ↔ ∃ r ∈ ranges, r.1 ≤ c.toNat ∧ c.toNat ≤ r.2 := by
  rw [inRanges, Array.any_eq_true']
  simp

theorem inRanges_of_apart {s t : Array (Nat × Nat)} {c : Char}
    (h : ∀ a ∈ s, ∀ b ∈ t, a.2 < b.1 ∨ b.2 < a.1) (hs : inRanges s c = true) :
    inRanges t c = false := by
  rw [← Bool.not_eq_true, inRanges_eq_true_iff]
  rintro ⟨b, hb, hlo, hhi⟩
  obtain ⟨a, ha, hlo', hhi'⟩ := inRanges_eq_true_iff.1 hs
  have := h a ha b hb
  omega

/-- The digits of all scripts, plain or dressed up. -/
def digitRanges : Array (Nat × Nat) :=
  zeroDigits.map (fun z => (z, z + 9)) ++ dressedDigitRanges

theorem inRanges_of_isDigitLike {c : Char} (h : isDigitLike c = true) :
    inRanges digitRanges c = true := by
  rw [inRanges_eq_true_iff]
  rcases Bool.or_eq_true_iff.1 h with h | h
  · obtain ⟨v, hv⟩ := Option.isSome_iff_exists.1 h
    obtain ⟨z, hz, -⟩ := Option.map_eq_some_iff.1 hv
    have hrange := Array.find?_some hz
    refine ⟨(z, z + 9), ?_, by simpa using hrange⟩
    exact Array.mem_append_left _ (Array.mem_map.2 ⟨z, Array.mem_of_find?_eq_some hz, rfl⟩)
  · obtain ⟨r, hr, hrange⟩ := inRanges_eq_true_iff.1 h
    exact ⟨r, Array.mem_append_right _ hr, hrange⟩

theorem isMargin_of_isDigitLike {c : Char} (h : isDigitLike c = true) : isMargin c = false := by
  have hblank : isBlank c = false :=
    inRanges_of_apart (s := digitRanges) (by decide +kernel) (inRanges_of_isDigitLike h)
  simp [isMargin, hblank]

theorem ne_of_isDigitLike {c d : Char} (h : isDigitLike c = true) (hd : isDigitLike d = false) :
    c ≠ d := by
  rintro rfl
  rw [h] at hd
  cases hd

end RegisterMachine.Text

namespace RegisterMachine.Number

open RegisterMachine.Text

/-! ## The integer reader -/

/-- What may stand in the digits of an integer literal. -/
def isPart (c : Char) : Bool := isDecimal c || c == '_'

/-- An integer literal is read if and only if, after its margin and its sign, digits come that are
joined as they should be and not too many, and only a margin after them. -/
theorem readInt_isOk_iff {cs body : List Char} {negative : Bool}
    (hcut : cutSign (cs.dropWhile isMargin) = (negative, body)) :
    (∃ n, readInt cs = .ok n) ↔ ∃ ds, dropJoiners false (body.takeWhile isPart) = some ds ∧
      ds ≠ [] ∧ ds.length ≤ maxDigits ∧ (body.dropWhile isPart).all isMargin = true := by
  unfold readInt
  rw [hcut]
  simp only [show (fun c => isDecimal c || c == '_') = isPart from rfl]
  cases dropJoiners false (body.takeWhile isPart) with
  | none => simp
  | some ds =>
    by_cases hds : ds = []
    · simp [hds]
    · by_cases hlen : maxDigits < ds.length
      · simp [hds, hlen]
      · cases hrest : (body.dropWhile isPart).all isMargin with
        | false => simp [hds, hlen]
        | true => simp [hds, hlen, Nat.not_lt.1 hlen, pure, Except.pure]

theorem isPart_of_isDigitLike {c : Char} (h : isDigitLike c = true) : isPart c = isDecimal c := by
  have hjoiner : c ≠ '_' := ne_of_isDigitLike h (by decide +kernel)
  simp [isPart, hjoiner]

/-- After the sign digits of any kind are read if they are decimal and not too many. -/
theorem readInt_digits_iff {cs ds : List Char} {negative : Bool}
    (hcut : cutSign (cs.dropWhile isMargin) = (negative, ds)) (hne : ds ≠ [])
    (hds : ∀ c ∈ ds, isDigitLike c = true) :
    (∃ n, readInt cs = .ok n) ↔ (∀ c ∈ ds, isDecimal c = true) ∧ ds.length ≤ maxDigits := by
  have hpart : ∀ c ∈ ds, isPart c = isDecimal c := fun c hc => isPart_of_isDigitLike (hds c hc)
  have hjoiner : '_' ∉ ds := fun h => ne_of_isDigitLike (hds _ h) (by decide +kernel) rfl
  rw [readInt_isOk_iff hcut]
  by_cases hall : ∀ c ∈ ds, isDecimal c = true
  · have htake : ds.takeWhile isPart = ds :=
      List.takeWhile_eq_self_iff.2 fun c hc => (hpart c hc).trans (hall c hc)
    have hdrop : ds.dropWhile isPart = [] :=
      List.dropWhile_eq_nil_iff.2 fun c hc => (hpart c hc).trans (hall c hc)
    rw [htake, hdrop, dropJoiners_of_not_mem _ hjoiner]
    simpa [hne] using fun _ => hall
  · -- the first digit that is not decimal is no margin either
    refine ⟨fun ⟨_, _, _, _, hrest⟩ => absurd ?_ hall, fun h => absurd h.1 hall⟩
    have hdrop : ds.dropWhile isPart = [] := by
      cases hcs : ds.dropWhile isPart with
      | nil => rfl
      | cons c rest =>
        have hmem : c ∈ ds := (List.dropWhile_sublist isPart).mem (by rw [hcs]; exact .head _)
        rw [hcs, List.all_cons, isMargin_of_isDigitLike (hds c hmem)] at hrest
        cases hrest
    intro c hc
    rw [← hpart c hc]
    exact List.dropWhile_eq_nil_iff.1 hdrop c hc

/-- A text of dashes and digits is an integer literal if and only if there is one dash at most, the
digits are decimal and there are not too many of them. -/
theorem readInt_dashes_iff {k : Nat} {ds : List Char} (hne : ds ≠ [])
    (hds : ∀ c ∈ ds, isDigitLike c = true) :
    (∃ n, readInt (List.replicate k '-' ++ ds) = .ok n) ↔
      k ≤ 1 ∧ (∀ c ∈ ds, isDecimal c = true) ∧ ds.length ≤ maxDigits := by
  have hdash : isMargin '-' = false := by decide +kernel
  match k with
  | 0 =>
    have hcut : cutSign (ds.dropWhile isMargin) = (false, ds) := by
      rw [dropWhile_of_head fun c hc => isMargin_of_isDigitLike (hds c (List.mem_of_mem_head? hc))]
      refine cutSign_signed false fun c hc => ?_
      have hc := hds c (List.mem_of_mem_head? hc)
      exact ⟨ne_of_isDigitLike hc (by decide +kernel), ne_of_isDigitLike hc (by decide +kernel)⟩
    simpa using readInt_digits_iff hcut hne hds
  | 1 =>
    have hcut : cutSign (('-' :: ds).dropWhile isMargin) = (true, ds) := by
      rw [dropWhile_of_head fun c hc => by cases hc; exact hdash]
      rfl
    simpa using readInt_digits_iff hcut hne hds
  | k + 2 =>
    have hcut : cutSign (('-' :: '-' :: (List.replicate k '-' ++ ds)).dropWhile isMargin) =
        (true, '-' :: (List.replicate k '-' ++ ds)) := by
      rw [dropWhile_of_head fun c hc => by cases hc; exact hdash]
      rfl
    have hnone : ('-' :: (List.replicate k '-' ++ ds)).takeWhile isPart = [] :=
      List.takeWhile_cons_of_neg (by decide +kernel)
    rw [show List.replicate (k + 2) '-' ++ ds = '-' :: '-' :: (List.replicate k '-' ++ ds) from rfl,
      readInt_isOk_iff hcut, hnone]
    simp [dropJoiners]

end RegisterMachine.Number
