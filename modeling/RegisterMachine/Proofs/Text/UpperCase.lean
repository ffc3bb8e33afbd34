import RegisterMachine.Text.Upper

/-!
# Upper case, looked at from behind

* `upperChar_of_lt`: capital letters, digits and signs are their own upper-case forms.
* `OnlySource t s`: only `t` itself and the code point `s` have an upper-case form that begins with
  the character `t`.

Principal result: `upper_eq_letter_digit_iff` (a text whose upper-case form is a capital letter and
a digit is that letter, in either case, and that digit).
-/

set_option autoImplicit false

namespace RegisterMachine.Text

variable {c : Char}

theorem first_le_of_mem : (∀ r ∈ caseRuns, 0x61 ≤ r.first) ∧ ∀ e ∈ longUppers, 0x61 ≤ e.1 := by
  have hruns : caseRuns.toList.all (0x61 ≤ ·.first) = true := by decide +kernel
  have hlong : longUppers.toList.all (0x61 ≤ ·.1) = true := by decide +kernel
  rw [List.all_eq_true] at hruns hlong
  exact ⟨fun r hr => by simpa using hruns r (Array.mem_toList_iff.2 hr),
    fun e he => by simpa using hlong e (Array.mem_toList_iff.2 he)⟩

/-- What stands below the small letters is its own upper-case form. -/
theorem upperChar_of_lt (h : c.toNat < 0x61) : upperChar c = [c] := by
  have hruns : caseRuns.find? (·.covers c.toNat) = none := by
    rw [Array.find?_eq_none]
    intro r hr hcovers
    have hfirst := first_le_of_mem.1 r hr
    simp only [CaseRun.covers, Bool.and_eq_true, decide_eq_true_eq] at hcovers
    omega
  have hlong : longUppers.find? (·.1 == c.toNat) = none := by
    rw [Array.find?_eq_none]
    intro e he heq
    have hfirst := first_le_of_mem.2 e he
    rw [beq_iff_eq] at heq
    omega
  unfold upperChar
  simp only [hruns, hlong]

theorem upper_cons (c : Char) (cs : List Char) : upper (c :: cs) = upperChar c ++ upper cs :=
  List.flatMap_cons

theorem upper_of_lt {cs : List Char} (h : ∀ c ∈ cs, c.toNat < 0x61) : upper cs = cs := by
  induction cs with
  | nil => rfl
  | cons c cs ih =>
    rw [upper_cons, upperChar_of_lt (h c List.mem_cons_self),
      ih fun d hd => h d (List.mem_cons_of_mem c hd)]
    rfl

theorem upperChar_cases (c : Char) :
    upperChar c = [c] ∨
      (∃ r ∈ caseRuns, r.covers c.toNat = true ∧
        upperChar c = [Char.ofNat ((c.toNat : Int) + r.distance).toNat]) ∨
      ∃ e ∈ longUppers, upperChar c = e.2.map Char.ofNat := by
  unfold upperChar
  generalize caseRuns = runs
  generalize longUppers = forms
  dsimp only
  split
  · rename_i r hr
    have hcovers := Array.find?_some hr
    exact .inr (.inl ⟨r, Array.mem_of_find?_eq_some hr, hcovers, rfl⟩)
  · split
    · rename_i e form he
      exact .inr (.inr ⟨_, Array.mem_of_find?_eq_some he, rfl⟩)
    · exact .inl rfl

/-- Only `t` itself and the code point `s` have an upper-case form that begins with `t`. -/
def OnlySource (t : Char) (s : Nat) : Prop :=
  (∀ r ∈ caseRuns, ∀ n, r.covers n = true → (n : Int) + r.distance = t.toNat → n = s) ∧
    ∀ e ∈ longUppers, ∀ n ∈ e.2.head?, Char.ofNat n ≠ t

theorem upperChar_ne_nil (c : Char) : upperChar c ≠ [] := by
  have hlong : longUppers.toList.all (!·.2.isEmpty) = true := by decide +kernel
  rw [List.all_eq_true] at hlong
  rcases upperChar_cases c with h | ⟨r, -, -, h⟩ | ⟨e, he, h⟩
  · rw [h]; exact List.cons_ne_nil _ _
  · rw [h]; exact List.cons_ne_nil _ _
  · have hform := hlong e (Array.mem_toList_iff.2 he)
    rw [h]
    simpa using hform

/-- A code point that gives a character other than null is that character's. -/
theorem toNat_ofNat_of_pos {n : Nat} (h : 0 < (Char.ofNat n).toNat) : (Char.ofNat n).toNat = n := by
  by_cases hn : n.isValidChar
  · rw [show Char.ofNat n = Char.ofNatAux n hn from dif_pos hn]
    rfl
  · rw [show Char.ofNat n = ⟨0, .inl (by decide)⟩ from dif_neg hn] at h
    exact absurd h (by decide)

/-- A character whose upper-case form begins with `t` is one of the two sources of `t`. -/
theorem of_upperChar_eq_cons {t : Char} {s : Nat} {ts : List Char} (ht : 0 < t.toNat)
    (hsource : OnlySource t s) (h : upperChar c = t :: ts) : ts = [] ∧ (c = t ∨ c.toNat = s) := by
  rcases upperChar_cases c with hself | ⟨r, hr, hcovers, hrun⟩ | ⟨e, he, hlong⟩
  · rw [hself] at h
    cases h
    exact ⟨rfl, .inl rfl⟩
  · rw [hrun] at h
    cases h
    have hvalue := toNat_ofNat_of_pos ht
    exact ⟨rfl, .inr (hsource.1 r hr c.toNat hcovers (by omega))⟩
  · rw [hlong] at h
    cases hform : e.2 with
    | nil => rw [hform] at h; cases h
    | cons n ns =>
      rw [hform] at h
      cases h
      exact absurd rfl (hsource.2 e he n (by simp [hform]))

/-- Whether the tables lead to `t` from `s` only. -/
theorem onlySource_of_check {t : Char} {s : Nat}
    (hruns : caseRuns.toList.all (fun r =>
      !r.covers ((t.toNat : Int) - r.distance).toNat ||
        ((t.toNat : Int) - r.distance).toNat == s) = true)
    (hlong : longUppers.toList.all (fun e => e.2.head?.all fun n => Char.ofNat n != t) = true) :
    OnlySource t s := by
  rw [List.all_eq_true] at hruns hlong
  constructor
  · intro r hr n hcovers heq
    have hcheck := hruns r (Array.mem_toList_iff.2 hr)
    rw [show ((t.toNat : Int) - r.distance).toNat = n by omega, hcovers] at hcheck
    simpa using hcheck
  · intro e he n hn
    have hcheck := hlong e (Array.mem_toList_iff.2 he)
    rw [Option.mem_def] at hn
    rw [hn] at hcheck
    simpa using hcheck

theorem onlySource_capital : OnlySource 'R' 0x72 :=
  onlySource_of_check (by decide +kernel) (by decide +kernel)

theorem onlySource_digit {d : Char} (h : d ∈ ['1', '2', '3', '4', '5', '6']) :
    OnlySource d d.toNat := by
  simp only [List.mem_cons, List.not_mem_nil, or_false] at h
  rcases h with rfl | rfl | rfl | rfl | rfl | rfl <;>
    exact onlySource_of_check (by decide +kernel) (by decide +kernel)

theorem upperChar_small : upperChar 'r' = ['R'] := by decide +kernel

theorem upper_eq_nil {cs : List Char} (h : upper cs = []) : cs = [] := by
  cases cs with
  | nil => rfl
  | cons c cs =>
    rw [upper_cons, List.append_eq_nil_iff] at h
    exact absurd h.1 (upperChar_ne_nil c)

/-- The first character of a text whose upper-case form begins with `t`. -/
theorem upper_eq_cons {t : Char} {s : Nat} {cs ts : List Char} (ht : 0 < t.toNat)
    (hsource : OnlySource t s) (h : upper cs = t :: ts) :
    ∃ c rest, cs = c :: rest ∧ (c = t ∨ c.toNat = s) ∧ upper rest = ts := by
  cases cs with
  | nil => cases h
  | cons c cs =>
    rw [upper_cons] at h
    cases hc : upperChar c with
    | nil => exact absurd hc (upperChar_ne_nil c)
    | cons t' us =>
      rw [hc] at h
      cases h
      obtain ⟨rfl, hsrc⟩ := of_upperChar_eq_cons ht hsource hc
      exact ⟨c, cs, rfl, hsrc, rfl⟩

/-- **Which texts become a capital letter and a digit in upper case.** -/
theorem upper_eq_letter_digit_iff {d : Char} {cs : List Char}
    (hd : d ∈ ['1', '2', '3', '4', '5', '6']) :
    upper cs = ['R', d] ↔ cs = ['R', d] ∨ cs = ['r', d] := by
  have hlow : 0 < d.toNat ∧ d.toNat < 0x61 := by
    simp only [List.mem_cons, List.not_mem_nil, or_false] at hd
    rcases hd with rfl | rfl | rfl | rfl | rfl | rfl <;> decide
  constructor
  · intro h
    obtain ⟨c, rest, rfl, hc, hrest⟩ := upper_eq_cons (by decide) onlySource_capital h
    obtain ⟨d', rest', rfl, hd', hnil⟩ := upper_eq_cons hlow.1 (onlySource_digit hd) hrest
    have hdigit : d' = d := by
      rcases hd' with rfl | hd'
      · rfl
      · exact Char.toNat_inj.1 hd'
    rw [upper_eq_nil hnil, hdigit]
    rcases hc with rfl | hc
    · exact .inl rfl
    · rw [show c = 'r' from Char.toNat_inj.1 hc]
      exact .inr rfl
  · have hdigit : upper [d] = [d] := upper_of_lt (by simpa using hlow.2)
    rintro (rfl | rfl)
    · rw [upper_cons, upperChar_of_lt (by decide), hdigit]
      rfl
    · rw [upper_cons, upperChar_small, hdigit]
      rfl

end RegisterMachine.Text
