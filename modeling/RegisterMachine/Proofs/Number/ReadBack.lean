import Mathlib.Data.List.Induction
import Mathlib.Data.List.TakeWhile
import RegisterMachine.Number.Format
import RegisterMachine.Number.Literal
import RegisterMachine.Proofs.Number.Encoding
import RegisterMachine.Proofs.Number.Nearest
import RegisterMachine.Proofs.Text.Cutting

/-!
# Numbers read back

* `digitsValue_digits`: the digits of a number have that number as their value.
* `readMagnitude?_write`: under every layout the digits `d.ddd * 10 ^ e` are read by their value.

Principal results: `readReal?_text` (every number is read back from its text, zeros with their sign,
infinities and `nan` included) and `readInt_intText` (so is every whole number that is not too
long).
-/

set_option autoImplicit false

namespace RegisterMachine.Number

open RegisterMachine.Text

variable {c : Char} {ds : List Char}

/-! ## Digits -/

theorem toNat_of_isDigit (h : c.isDigit = true) : 48 ≤ c.toNat ∧ c.toNat ≤ 57 := by
  simpa [Char.isDigit, UInt32.le_iff_toNat_le] using h

theorem isPlain_of_isDigit (h : c.isDigit = true) : isPlain c = true := by
  have hb := toNat_of_isDigit h
  have hne : ∀ d : Char, (d.toNat < 48 ∨ 57 < d.toNat) → c ≠ d := by
    rintro d hd rfl
    omega
  simp [isPlain, hne ',' (by decide), hne ';' (by decide), hne ':' (by decide)]
  omega

theorem decimalValue?_of_isDigit (h : c.isDigit = true) :
    decimalValue? c = some (c.toNat - 48) := by
  have hb := toNat_of_isDigit h
  have hfirst : zeroDigits.find? (fun z => z ≤ c.toNat && c.toNat ≤ z + 9) = some 0x30 := by
    rw [← Array.find?_toList]
    exact List.find?_cons_of_pos (by simp; omega)
  rw [decimalValue?, hfirst]
  rfl

theorem isDecimal_of_isDigit (h : c.isDigit = true) : isDecimal c = true := by
  simp [isDecimal, decimalValue?_of_isDigit h]

theorem decimalValue?_digitChar {n : Nat} (h : n < 10) : decimalValue? n.digitChar = some n := by
  rw [decimalValue?_of_isDigit (by rw [Nat.isDigit_digitChar]; simpa using h),
    Nat.toNat_digitChar_sub_48_of_lt_ten h]

theorem decimalValue?_lt {v : Nat} (h : decimalValue? c = some v) : v < 10 := by
  rw [decimalValue?, Option.map_eq_some_iff] at h
  obtain ⟨z, hz, rfl⟩ := h
  have hrange := Array.find?_some hz
  simp only [Bool.and_eq_true, decide_eq_true_eq] at hrange
  omega

theorem digitsValue_append_singleton (ds : List Char) (c : Char) :
    digitsValue (ds ++ [c]) = 10 * digitsValue ds + (decimalValue? c).getD 0 := by
  simp [digitsValue]

theorem digitsValue_append (as bs : List Char) :
    digitsValue (as ++ bs) = digitsValue as * 10 ^ bs.length + digitsValue bs := by
  induction bs using List.reverseRecOn with
  | nil => simp [digitsValue]
  | append_singleton bs c ih =>
    rw [← List.append_assoc, digitsValue_append_singleton, ih, digitsValue_append_singleton,
      List.length_append, List.length_singleton, Nat.pow_succ, ← Nat.mul_assoc]
    omega

theorem digitsValue_zeros (k : Nat) : digitsValue (List.replicate k '0') = 0 := by
  induction k with
  | zero => rfl
  | succ k ih => rw [List.replicate_succ', digitsValue_append_singleton, ih]; rfl

theorem digitsValue_digits (n : Nat) : digitsValue (digits n) = n := by
  induction n using Nat.strongRecOn with
  | ind n ih =>
    unfold digits
    rw [Nat.toDigits_eq_if (by decide)]
    split
    · rename_i h
      simp [digitsValue, decimalValue?_digitChar h]
    · rename_i h
      have hrec := ih (n / 10) (by omega)
      unfold digits at hrec
      rw [digitsValue_append_singleton, hrec, decimalValue?_digitChar (by omega), Option.getD_some]
      omega

theorem digitsValue_lt (ds : List Char) : digitsValue ds < 10 ^ ds.length := by
  induction ds using List.reverseRecOn with
  | nil => decide
  | append_singleton ds c ih =>
    have hc : (decimalValue? c).getD 0 < 10 := by
      cases h : decimalValue? c with
      | none => decide
      | some v => exact decimalValue?_lt h
    rw [digitsValue_append_singleton, List.length_append, List.length_singleton, Nat.pow_succ]
    omega

theorem isDigit_of_mem_digits {n : Nat} (h : c ∈ digits n) : c.isDigit = true :=
  Nat.isDigit_of_mem_toDigits (by decide) (by decide) h

theorem digits_ne_nil (n : Nat) : digits n ≠ [] := Nat.toDigits_ne_nil

theorem length_digits_le_iff {n k : Nat} (hk : 0 < k) : (digits n).length ≤ k ↔ n < 10 ^ k :=
  Nat.length_toDigits_le_iff (by decide) hk

theorem isDecimal_of_digits (h : ∀ c ∈ ds, c.isDigit = true) : ∀ c ∈ ds, isDecimal c = true :=
  fun c hc => isDecimal_of_isDigit (h c hc)

theorem digits_append {as bs : List Char} (ha : ∀ c ∈ as, c.isDigit = true)
    (hb : ∀ c ∈ bs, c.isDigit = true) : ∀ c ∈ as ++ bs, c.isDigit = true := by
  intro c hc
  rcases List.mem_append.1 hc with hc | hc
  · exact ha c hc
  · exact hb c hc

theorem digits_take (k : Nat) (h : ∀ c ∈ ds, c.isDigit = true) :
    ∀ c ∈ ds.take k, c.isDigit = true :=
  fun c hc => h c (List.mem_of_mem_take hc)

theorem digits_drop (k : Nat) (h : ∀ c ∈ ds, c.isDigit = true) :
    ∀ c ∈ ds.drop k, c.isDigit = true :=
  fun c hc => h c (List.mem_of_mem_drop hc)

theorem digits_zeros (k : Nat) : ∀ c ∈ List.replicate k '0', c.isDigit = true := by
  intro c hc
  rw [List.eq_of_mem_replicate hc]
  rfl

/-! ## Magnitudes -/

theorem isDecimal_point : isDecimal '.' = false := by decide +kernel

theorem isDecimal_exponentMark : isDecimal 'e' = false := by decide +kernel

/-- Digits, a point, digits and what follows them. -/
theorem readMagnitude?_point {whole fraction : List Char} (rest : List Char) (hne : whole ≠ [])
    (hw : ∀ c ∈ whole, c.isDigit = true) (hf : ∀ c ∈ fraction, c.isDigit = true)
    (hrest : ∀ c, rest.head? = some c → isDecimal c = false) :
    readMagnitude? (whole ++ '.' :: (fraction ++ rest)) =
      (readExponent? rest).map fun e =>
        ofDecimal (digitsValue (whole ++ fraction)) (e - (fraction.length : Int)) := by
  have htake : rest.takeWhile isDecimal = [] := by
    cases rest with
    | nil => rfl
    | cons c rest => exact List.takeWhile_cons_of_neg (by simp [hrest c rfl])
  unfold readMagnitude?
  rw [List.takeWhile_append_of_pos (isDecimal_of_digits hw),
    List.dropWhile_append_of_pos (isDecimal_of_digits hw),
    List.takeWhile_cons_of_neg (by simp [isDecimal_point]),
    List.dropWhile_cons_of_neg (by simp [isDecimal_point]), List.append_nil]
  simp only [List.takeWhile_append_of_pos (isDecimal_of_digits hf),
    List.dropWhile_append_of_pos (isDecimal_of_digits hf), htake, dropWhile_of_head hrest,
    List.append_nil]
  rw [if_neg (by simp [hne])]

theorem readMagnitude?_exponent {whole rest : List Char} (hne : whole ≠ [])
    (hw : ∀ c ∈ whole, c.isDigit = true) :
    readMagnitude? (whole ++ 'e' :: rest) =
      (readExponent? ('e' :: rest)).map fun e => ofDecimal (digitsValue whole) e := by
  unfold readMagnitude?
  rw [List.takeWhile_append_of_pos (isDecimal_of_digits hw),
    List.dropWhile_append_of_pos (isDecimal_of_digits hw),
    List.takeWhile_cons_of_neg (by simp [isDecimal_exponentMark]),
    List.dropWhile_cons_of_neg (by simp [isDecimal_exponentMark]), List.append_nil]
  simp [hne]

theorem digitsValue_zeroFill (width n : Nat) : digitsValue (zeroFill width (digits n)) = n := by
  rw [zeroFill, digitsValue_append, digitsValue_zeros, digitsValue_digits]
  omega

theorem digits_zeroFill {width n : Nat} : ∀ c ∈ zeroFill width (digits n), c.isDigit = true :=
  digits_append (digits_zeros _) fun _ => isDigit_of_mem_digits

theorem readExponent?_of_cutSign {negative : Bool} {rest : List Char}
    (hcut : cutSign rest = (negative, ds)) (hne : ds ≠ []) (hds : ∀ c ∈ ds, c.isDigit = true) :
    readExponent? ('e' :: rest) =
      some (if negative then -(digitsValue ds : Int) else digitsValue ds) := by
  have hdigits : (!ds.isEmpty && ds.all isDecimal) = true := by
    rw [Bool.and_eq_true, List.all_eq_true]
    exact ⟨by simp [hne], isDecimal_of_digits hds⟩
  rw [readExponent?, if_pos (Or.inl rfl), hcut]
  exact if_pos hdigits

/-- A written exponent is read back. -/
theorem readExponent?_written (width : Nat) (e : Int) :
    readExponent? ('e' :: (if e < 0 then '-' else '+') :: zeroFill width (digits e.natAbs)) =
      some e := by
  have hne : zeroFill width (digits e.natAbs) ≠ [] := by simp [zeroFill, digits_ne_nil]
  have hcut : cutSign ((if e < 0 then '-' else '+') :: zeroFill width (digits e.natAbs)) =
      (decide (e < 0), zeroFill width (digits e.natAbs)) := by
    by_cases he : e < 0
    · rw [if_pos he, decide_eq_true he]
      rfl
    · rw [if_neg he, decide_eq_false he]
      rfl
  rw [readExponent?_of_cutSign hcut hne digits_zeroFill, digitsValue_zeroFill]
  by_cases he : e < 0
  · rw [if_pos (decide_eq_true he)]
    congr 1
    omega
  · rw [if_neg (by simpa using he)]
    congr 1
    omega

theorem readMagnitude?_plain {whole fraction : List Char} (hne : whole ≠ [])
    (hw : ∀ c ∈ whole, c.isDigit = true) (hf : ∀ c ∈ fraction, c.isDigit = true) :
    readMagnitude? (whole ++ '.' :: fraction) =
      some (ofDecimal (digitsValue (whole ++ fraction)) (-(fraction.length : Int))) := by
  have h := readMagnitude?_point [] hne hw hf (by simp)
  rw [List.append_nil] at h
  rw [h, ← Int.zero_sub]
  rfl

/-- Positional notation is read by its value. -/
theorem readMagnitude?_positional {e : Int} (hne : ds ≠ []) (hds : ∀ c ∈ ds, c.isDigit = true) :
    readMagnitude? (Layout.positional ds e) =
      some (ofDecimal (digitsValue ds) (e + 1 - (ds.length : Int))) := by
  unfold Layout.positional
  split
  · -- a zero before the point, and zeros between it and the digits
    generalize hk : (-e - 1).toNat = k
    have hvalue : digitsValue (['0'] ++ (List.replicate k '0' ++ ds)) = digitsValue ds := by
      rw [← List.append_assoc,
        show ['0'] ++ List.replicate k '0' = List.replicate (k + 1) '0' from rfl,
        digitsValue_append, digitsValue_zeros, Nat.zero_mul, Nat.zero_add]
    have h := readMagnitude?_plain (List.cons_ne_nil '0' []) (digits_zeros 1)
      (digits_append (digits_zeros k) hds)
    rw [hvalue] at h
    refine h.trans ?_
    congr 2
    simp
    omega
  · dsimp only
    split
    · -- zeros up to the point, and one after it
      generalize hk : e.toNat + 1 - ds.length = k
      have hvalue : digitsValue (ds ++ List.replicate k '0' ++ ['0']) =
          digitsValue ds * 10 ^ (k + 1) := by
        rw [List.append_assoc, ← List.replicate_succ', digitsValue_append, digitsValue_zeros,
          List.length_replicate, Nat.add_zero]
      have h := readMagnitude?_plain (by simp [hne]) (digits_append hds (digits_zeros k))
        (digits_zeros 1)
      rw [show List.replicate 1 '0' = ['0'] from rfl, hvalue, ofDecimal_mul_pow] at h
      refine h.trans ?_
      congr 2
      simp
      omega
    · have htake : ds.take (e.toNat + 1) ≠ [] := by simp [hne]
      have h := readMagnitude?_plain htake (digits_take _ hds) (digits_drop (e.toNat + 1) hds)
      rw [List.take_append_drop] at h
      refine h.trans ?_
      congr 2
      simp
      omega

/-- Exponent notation is read by its value. -/
theorem readMagnitude?_scientific {f : Layout} {e : Int} (hne : ds ≠ [])
    (hds : ∀ c ∈ ds, c.isDigit = true) :
    readMagnitude? (f.scientific ds e) =
      some (ofDecimal (digitsValue ds) (e + 1 - (ds.length : Int))) := by
  unfold Layout.scientific
  dsimp only
  split
  · rename_i hlen
    have hone : ds.length = 1 := by
      have := List.length_pos_iff.2 hne
      omega
    rw [List.append_nil, List.take_of_length_le hlen, readMagnitude?_exponent hne hds,
      readExponent?_written, hone]
    simp
  · have htake : ds.take 1 ≠ [] := by simp [hne]
    have h := readMagnitude?_point ('e' :: (if e < 0 then '-' else '+') ::
        zeroFill f.exponentWidth (digits e.natAbs)) htake (digits_take 1 hds) (digits_drop 1 hds)
      (by simp [isDecimal_exponentMark])
    rw [List.take_append_drop, readExponent?_written] at h
    rw [List.append_assoc, List.cons_append]
    refine h.trans ?_
    simp only [Option.map_some, List.length_drop]
    congr 2
    omega

/-- **Under every layout digits are read by their value.** -/
theorem readMagnitude?_write (f : Layout) {e : Int} (hne : ds ≠ [])
    (hds : ∀ c ∈ ds, c.isDigit = true) :
    readMagnitude? (f.write ds e) =
      some (ofDecimal (digitsValue ds) (e + 1 - (ds.length : Int))) := by
  unfold Layout.write
  split
  · exact readMagnitude?_positional hne hds
  · exact readMagnitude?_scientific hne hds

theorem exists_zeros (ds : List Char) :
    ∃ k, ds = (ds.reverse.dropWhile (· == '0')).reverse ++ List.replicate k '0' := by
  refine ⟨(ds.reverse.takeWhile (· == '0')).length, ?_⟩
  have hzeros : ds.reverse.takeWhile (· == '0') =
      List.replicate (ds.reverse.takeWhile (· == '0')).length '0' :=
    List.eq_replicate_iff.2 ⟨rfl, fun c hc => by
      simpa using List.all_eq_true.1 List.all_takeWhile c hc⟩
  have hsplit := congrArg List.reverse
    (List.takeWhile_append_dropWhile (p := (· == '0')) (l := ds.reverse))
  rw [List.reverse_append, List.reverse_reverse, hzeros, List.reverse_replicate] at hsplit
  exact hsplit.symm

/-- A finite magnitude is written by digits that have its value. -/
theorem magnitudeText_eq_write {b : Nat} (hb : b < infinity) :
    ∃ ds e, magnitudeText b = valueLayout.write ds e ∧ ds ≠ [] ∧ (∀ c ∈ ds, c.isDigit = true) ∧
      ofDecimal (digitsValue ds) (e + 1 - (ds.length : Int)) = b := by
  unfold magnitudeText
  split
  · rename_i h0
    exact ⟨['0'], 0, rfl, List.cons_ne_nil _ _, digits_zeros 1, h0.symm⟩
  · rename_i h0
    have hread := pattern_shortest hb
    generalize shortest b = d at hread ⊢
    have hcoeff : d.coefficient ≠ 0 := by
      intro hc
      rw [Decimal.pattern, hc, ofDecimal_zero] at hread
      exact h0 hread.symm
    obtain ⟨k, hk⟩ := exists_zeros (digits d.coefficient)
    have hvalue := digitsValue_digits d.coefficient
    have hlen := congrArg List.length hk
    refine ⟨_, _, rfl, ?_⟩
    generalize hs : ((digits d.coefficient).reverse.dropWhile (· == '0')).reverse = ds at hk hlen ⊢
    rw [hk, digitsValue_append, digitsValue_zeros, List.length_replicate, Nat.add_zero] at hvalue
    rw [List.length_append, List.length_replicate] at hlen
    refine ⟨?_, fun c hc => isDigit_of_mem_digits (hk ▸ List.mem_append_left _ hc), ?_⟩
    · rintro rfl
      exact hcoeff (by simpa [digitsValue] using hvalue.symm)
    · -- the zeros that are left out come back as a power of ten
      rw [← hread, Decimal.pattern, hlen, ← hvalue, ofDecimal_mul_pow]
      congr 1
      push_cast
      omega

/-! ## The characters of a written number -/

/-- The characters of a written magnitude. -/
def isWritten (c : Char) : Bool := c.isDigit || c ∈ ['.', 'e', '+', '-']

theorem isWritten_of_isDigit (h : c.isDigit = true) : isWritten c = true := by
  simp [isWritten, h]

theorem isPlain_of_isWritten (h : isWritten c = true) : isPlain c = true ∧ c ≠ '_' := by
  rw [isWritten, Bool.or_eq_true, decide_eq_true_eq] at h
  rcases h with h | h
  · refine ⟨isPlain_of_isDigit h, ?_⟩
    rintro rfl
    cases h
  · simp only [List.mem_cons, List.not_mem_nil, or_false] at h
    rcases h with rfl | rfl | rfl | rfl <;> decide

theorem isWritten_write (f : Layout) (e : Int) (hds : ∀ c ∈ ds, c.isDigit = true) :
    ∀ c ∈ f.write ds e, isWritten c = true := by
  have hall : ∀ {as : List Char}, (∀ c ∈ as, c.isDigit = true) → as.all isWritten = true :=
    fun h => List.all_eq_true.2 fun c hc => isWritten_of_isDigit (h c hc)
  have hzeros := fun k => hall (digits_zeros k)
  have hfill := hall (@digits_zeroFill f.exponentWidth e.natAbs)
  have hmarks : isWritten '0' = true ∧ isWritten '.' = true ∧ isWritten 'e' = true ∧
      isWritten '+' = true ∧ isWritten '-' = true := by decide
  obtain ⟨h0, hp, he, hplus, hminus⟩ := hmarks
  rw [← List.all_eq_true]
  unfold Layout.write Layout.positional Layout.scientific
  split
  · split
    · simp only [List.all_cons, List.all_append, hzeros, hall hds, h0, hp, Bool.and_self]
    · dsimp only
      split
      · simp only [List.all_cons, List.all_nil, List.all_append, hzeros, hall hds, h0, hp,
          Bool.and_self]
      · simp only [List.all_cons, List.all_append, hall (digits_take _ hds),
          hall (digits_drop _ hds), hp, Bool.and_self]
  · have hsign : isWritten (if e < 0 then '-' else '+') = true := by
      split <;> assumption
    dsimp only
    split <;>
      simp only [List.all_cons, List.all_nil, List.all_append, hall (digits_take _ hds),
        hall (digits_drop _ hds), hfill, hp, he, hsign, Bool.and_self]

/-- A written magnitude begins with a digit. -/
theorem head_write (f : Layout) (e : Int) (hne : ds ≠ []) (hds : ∀ c ∈ ds, c.isDigit = true) :
    ∃ d rest, f.write ds e = d :: rest ∧ d.isDigit = true := by
  cases ds with
  | nil => exact absurd rfl hne
  | cons d ds =>
    have hd := hds d List.mem_cons_self
    unfold Layout.write Layout.positional Layout.scientific
    split
    · split
      · exact ⟨_, _, rfl, rfl⟩
      · dsimp only
        split
        · exact ⟨d, _, rfl, hd⟩
        · exact ⟨d, _, rfl, hd⟩
    · exact ⟨d, _, rfl, hd⟩

/-! ## Real literals -/

theorem dropJoiners_of_not_mem (afterDigit : Bool) {cs : List Char} (h : '_' ∉ cs) :
    dropJoiners afterDigit cs = some cs := by
  induction cs generalizing afterDigit with
  | nil => rfl
  | cons c cs ih =>
    rw [List.mem_cons, not_or] at h
    rw [dropJoiners, if_neg (Ne.symm h.1), ih _ h.2]
    rfl

theorem cutSign_signed {body : List Char} (negative : Bool)
    (h : ∀ c, body.head? = some c → c ≠ '-' ∧ c ≠ '+') :
    cutSign (if negative then '-' :: body else body) = (negative, body) := by
  cases negative with
  | true => rfl
  | false =>
    cases body with
    | nil => rfl
    | cons c body =>
      obtain ⟨h1, h2⟩ := h c rfl
      unfold cutSign
      split
      · rename_i heq; cases heq; exact absurd rfl h1
      · rename_i heq; cases heq; exact absurd rfl h2
      · rfl

theorem isPlain_signed {body : List Char} (negative : Bool) (h : ∀ c ∈ body, isPlain c = true) :
    ∀ c ∈ if negative then '-' :: body else body, isPlain c = true := by
  cases negative with
  | true =>
    intro c hc
    rcases List.mem_cons.1 hc with rfl | hc
    · decide
    · exact h c hc
  | false => exact h

theorem toLower_of_isDigit (h : c.isDigit = true) : c.toLower = c := by
  have hb := toNat_of_isDigit h
  unfold Char.toLower
  rw [dif_neg]
  rintro ⟨h1, -⟩
  have h65 : 65 ≤ c.toNat := h1
  omega

theorem ofList_ne_of_isDigit {d n : Char} {rest name : List Char} (hd : d.isDigit = true)
    (hn : n.isDigit = false) :
    String.ofList ((d :: rest).map Char.toLower) ≠ String.ofList (n :: name) := by
  intro h
  have hlist := String.ofList_injective h
  rw [List.map_cons, toLower_of_isDigit hd] at hlist
  cases hlist
  rw [hd] at hn
  cases hn

/-- What a literal without margins is read as: its sign, then a name or digits. -/
theorem readReal?_signed {body : List Char} (negative : Bool)
    (hplain : ∀ c ∈ body, isPlain c = true) (hhead : ∀ c, body.head? = some c → c ≠ '-' ∧ c ≠ '+') :
    readReal? (if negative then '-' :: body else body) =
      let name := String.ofList (body.map Char.toLower)
      if name = "inf" ∨ name = "infinity" then some (ofPattern negative infinity)
      else if name = "nan" then some notANumber
      else (dropJoiners false body).bind fun plain =>
        (readMagnitude? plain).bind fun b => some (ofPattern negative b) := by
  have htrim := trim_of_not_sep fun c hc =>
    isMargin_of_isPlain (isPlain_signed negative hplain c hc)
  unfold readReal?
  rw [htrim, cutSign_signed negative hhead]
  rfl

/-- A finite magnitude is read back with its sign. -/
theorem readReal?_magnitudeText {b : Nat} (hb : b < infinity) (negative : Bool) :
    readReal? (if negative then '-' :: magnitudeText b else magnitudeText b) =
      some (ofPattern negative b) := by
  obtain ⟨ds, e, htext, hne, hds, hvalue⟩ := magnitudeText_eq_write hb
  have hread := readMagnitude?_write valueLayout (e := e) hne hds
  have hwritten := isWritten_write valueLayout e hds
  obtain ⟨d, rest, hhead, hd⟩ := head_write valueLayout e hne hds
  rw [htext]
  have hname : ∀ n name, n.isDigit = false →
      String.ofList ((valueLayout.write ds e).map Char.toLower) ≠ String.ofList (n :: name) := by
    intro n name hn
    rw [hhead]
    exact ofList_ne_of_isDigit hd hn
  have hsign : ∀ c, (valueLayout.write ds e).head? = some c → c ≠ '-' ∧ c ≠ '+' := by
    intro c hc
    rw [hhead] at hc
    cases hc
    constructor <;> rintro rfl <;> cases hd
  have hjoin : '_' ∉ valueLayout.write ds e := fun h => (isPlain_of_isWritten (hwritten _ h)).2 rfl
  rw [readReal?_signed _ (fun c hc => (isPlain_of_isWritten (hwritten c hc)).1) hsign]
  dsimp only
  rw [if_neg (not_or.2 ⟨hname 'i' _ rfl, hname 'i' _ rfl⟩), if_neg (hname 'n' _ rfl),
    dropJoiners_of_not_mem _ hjoin, Option.bind_some, hread, Option.bind_some, hvalue]

/-- **Every number is read back from its text.** -/
theorem readReal?_text (x : Float) : readReal? (text x) = some x := by
  unfold text signedText
  split
  · rename_i hnan
    rw [eq_notANumber hnan]
    exact @readReal?_signed "nan".toList false (List.all_eq_true.1 (by decide)) (by simp)
  · rename_i hnan
    dsimp only
    by_cases hinf : infinity ≤ pattern x
    · rw [if_pos hinf, readReal?_signed _ (List.all_eq_true.1 (by decide)) (by simp),
        if_pos (.inl rfl),
        ← pattern_eq_infinity (by simpa using hnan) hinf, ofPattern_pattern]
    · rw [if_neg hinf, readReal?_magnitudeText (Nat.not_le.1 hinf), ofPattern_pattern]

theorem isPlain_text (x : Float) : ∀ c ∈ text x, isPlain c = true := by
  unfold text signedText
  split
  · exact List.all_eq_true.1 (by decide)
  · dsimp only
    refine isPlain_signed _ ?_
    split
    · exact List.all_eq_true.1 (by decide)
    · rename_i hfin
      obtain ⟨ds, e, htext, -, hds, -⟩ := magnitudeText_eq_write (Nat.not_le.1 hfin)
      rw [htext]
      exact fun c hc => (isPlain_of_isWritten (isWritten_write valueLayout e hds c hc)).1

/-! ## Integer literals -/

theorem intText_eq (n : Int) :
    intText n = if decide (n < 0) then '-' :: digits n.natAbs else digits n.natAbs := by
  by_cases h : n < 0 <;> simp [intText, h]

theorem isPlain_intText (n : Int) : ∀ c ∈ intText n, isPlain c = true := by
  rw [intText_eq]
  exact isPlain_signed _ fun c hc => isPlain_of_isDigit (isDigit_of_mem_digits hc)

theorem cutSign_intText (n : Int) : cutSign (intText n) = (decide (n < 0), digits n.natAbs) := by
  rw [intText_eq, cutSign_signed]
  intro c hc
  have hd := isDigit_of_mem_digits (List.mem_of_mem_head? hc)
  constructor <;> rintro rfl <;> cases hd

/-- **Every whole number that is not too long is read back from its text.** -/
theorem readInt_intText {n : Int} (h : (digits n.natAbs).length ≤ maxDigits) :
    readInt (intText n) = .ok n := by
  have hmargin : (intText n).dropWhile isMargin = intText n :=
    dropWhile_of_head fun c hc =>
      isMargin_of_isPlain (isPlain_intText n c (List.mem_of_mem_head? hc))
  have hpart : ∀ c ∈ digits n.natAbs, (isDecimal c || c == '_') = true := fun c hc => by
    simp [isDecimal_of_isDigit (isDigit_of_mem_digits hc)]
  have hjoin : '_' ∉ digits n.natAbs := Nat.underscore_not_in_toDigits
  have htake := List.takeWhile_eq_self_iff.2 hpart
  have hdrop := List.dropWhile_eq_nil_iff.2 hpart
  unfold readInt
  rw [hmargin, cutSign_intText]
  simp only [htake, hdrop, dropJoiners_of_not_mem _ hjoin, digitsValue_digits]
  rw [if_neg (by simp [digits_ne_nil]), if_neg (Nat.not_lt.2 h), if_pos List.all_nil]
  by_cases hn : n < 0
  · rw [if_pos (by simpa using hn), ← Int.eq_neg_natAbs_of_nonpos (Int.le_of_lt hn)]
    rfl
  · rw [if_neg (by simpa using hn), Int.natAbs_of_nonneg (Int.not_lt.1 hn)]
    rfl

theorem hasText_eq_false_iff {n : Int} : hasText n = false ↔ 10 ^ maxDigits ≤ n.natAbs := by
  rw [hasText, decide_eq_false_iff_not, length_digits_le_iff (by decide), Nat.not_lt]

theorem hasText_neg (n : Int) : hasText (-n) = hasText n := by
  rw [hasText, hasText, Int.natAbs_neg]

/-- The least natural number that is too long. -/
theorem hasText_pow : hasText ((10 ^ maxDigits : Nat) : Int) = false :=
  hasText_eq_false_iff.2 (Nat.le_of_eq (Int.natAbs_natCast _).symm)

/-- What is read is not too long. -/
theorem length_digits_of_readInt {cs : List Char} {n : Int} (h : readInt cs = .ok n) :
    (digits n.natAbs).length ≤ maxDigits := by
  have hbound : ∀ {ds : List Char}, ds.length ≤ maxDigits → digitsValue ds < 10 ^ maxDigits :=
    fun hlen => Nat.lt_of_lt_of_le (digitsValue_lt _) (Nat.pow_le_pow_right (by decide) hlen)
  rw [length_digits_le_iff (by decide)]
  unfold readInt at h
  dsimp only at h
  split at h
  · cases h
  · split at h
    · cases h
    · split at h
      · cases h
      · rename_i hlen
        split at h
        · have := hbound (Nat.not_lt.1 hlen)
          cases h
          split
          · rw [Int.natAbs_neg, Int.natAbs_natCast]
            exact this
          · rw [Int.natAbs_natCast]
            exact this
        · cases h

end RegisterMachine.Number
