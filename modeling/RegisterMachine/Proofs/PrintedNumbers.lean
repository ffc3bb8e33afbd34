import RegisterMachine.CommandLine.Workbench
import RegisterMachine.Proofs.Effects
import RegisterMachine.Proofs.Number.ReadBack
import RegisterMachine.Proofs.RegisterItems
import RegisterMachine.Values

/-!
# Printed numbers as input

Numbers leave the machine as text in two ways: the lines that a program prints, and the register
lines at the end of a run. Both can be handed over as input again and lose nothing, because every
number is read back from its text, and because that text has no blank that would divide it and no
equals sign before it but the one of the register line. The text has the fewest digits that allow
this (`Number.length_digits_le`), and a text is read as the number closest to its value
(`Number.isNearest_ofDecimal`).

* `Text.Spaced`: words with separators around and between them.
* `Assignment.item`: a register and its value as a register line shows them.
* `Machine.printing`: a program that prints given numbers.

Principal results: `Values.read_text` (numbers apart by blanks are read as they are),
`Bank.parse_items` (the register lines of a bank, in any order, are read as that bank),
`Machine.ran_printing` (any numbers can be printed) and `printed_numbers_are_read_back`.
-/

set_option autoImplicit false

namespace RegisterMachine

open Text CommandLine

/-! ## Numbers apart by blanks -/

namespace Text

variable {p : Char → Bool}

/-- Words in order, with separators around them and at least one between every two of them. Nothing
is said of the words themselves; in `Parts` they are not empty and hold no separator. -/
inductive Spaced (p : Char → Bool) : List Char → List (List Char) → Prop where
  | empty : Spaced p [] []
  | sep {c : Char} {cs : List Char} {ws : List (List Char)} :
    p c = true → Spaced p cs ws → Spaced p (c :: cs) ws
  | last (w : List Char) : Spaced p w [w]
  | word (w : List Char) {c : Char} {cs : List Char} {ws : List (List Char)} :
    p c = true → Spaced p cs ws → Spaced p (w ++ c :: cs) (w :: ws)

namespace Spaced

theorem after_seps {gap cs : List Char} {ws : List (List Char)} (hgap : ∀ c ∈ gap, p c = true)
    (h : Spaced p cs ws) : Spaced p (gap ++ cs) ws := by
  induction gap with
  | nil => exact h
  | cons c gap ih =>
    exact .sep (hgap c List.mem_cons_self) (ih fun d hd => hgap d (List.mem_cons_of_mem c hd))

theorem intercalate {gap : List Char} (hgap : gap ≠ []) (hsep : ∀ c ∈ gap, p c = true)
    (ws : List (List Char)) : Spaced p (gap.intercalate ws) ws := by
  obtain ⟨c, rest, rfl⟩ := List.exists_cons_of_ne_nil hgap
  induction ws with
  | nil => exact .empty
  | cons w ws ih =>
    cases ws with
    | nil => simpa using Spaced.last w
    | cons v ws =>
      rw [List.intercalate_cons_cons, List.append_assoc]
      exact .word w (hsep c List.mem_cons_self)
        (ih.after_seps fun d hd => hsep d (List.mem_cons_of_mem c hd))

/-- Separators divide a text into words that are not empty and hold none of them. -/
theorem parts {cs : List Char} {ws : List (List Char)} (h : Spaced p cs ws)
    (hws : ∀ w ∈ ws, w ≠ [] ∧ ∀ c ∈ w, p c = false) : Parts p cs ws := by
  induction h with
  | empty => exact .empty
  | sep hc _ ih => exact .sep hc (ih hws)
  | last w =>
    obtain ⟨hne, hplain⟩ := hws w List.mem_cons_self
    exact .last hne hplain
  | word w hc _ ih =>
    obtain ⟨hne, hplain⟩ := hws w List.mem_cons_self
    exact .word hne hplain hc (ih fun v hv => hws v (List.mem_cons_of_mem w hv))

end Spaced

end Text

namespace Number

theorem text_ne_nil (x : Float) : text x ≠ [] := by
  intro h
  have hread := readReal?_text x
  rw [h] at hread
  cases hread

theorem isBlank_text (x : Float) : ∀ c ∈ text x, isBlank c = false :=
  fun c hc => isBlank_of_isPlain (isPlain_text x c hc)

end Number

namespace Values

theorem ofWords_text (xs : List Float) : ofWords (xs.map Number.text) = ⟨xs, none⟩ := by
  induction xs with
  | nil => rfl
  | cons x xs ih => rw [List.map_cons, ofWords, Number.readReal?_text, ih]

/-- **Numbers apart by blanks are read as they are**, whatever blanks there are around and between
them. -/
theorem read_text {xs : List Float} {text : List Char}
    (h : Spaced isBlank text (xs.map Number.text)) : read text = ⟨xs, none⟩ := by
  have hparts : Parts isBlank text (xs.map Number.text) := h.parts fun w hw => by
    obtain ⟨x, -, rfl⟩ := List.mem_map.1 hw
    exact ⟨Number.text_ne_nil x, Number.isBlank_text x⟩
  rw [read, words_eq_iff.2 hparts, ofWords_text]

end Values

/-! ## Register lines -/

/-- A register and its value as a register line shows them. -/
def Assignment.item (e : Register × Float) : List Char := e.1.name ++ '=' :: Number.text e.2

theorem Assignment.parse_item (e : Register × Float) : parse (item e) = .ok e := by
  have hname : '=' ∉ e.1.name := by cases e.1 <;> decide
  exact parse_eq_ok_iff.2 ⟨_, ⟨e.1.name, rfl, hname, .inl rfl⟩, Number.readReal?_text e.2⟩

/-- **The settings of a bank, in any order, are read as that bank.** -/
theorem Bank.parse_items {b : Bank} {items : List (List Char)}
    (h : items.Perm (b.toList.map Assignment.item)) : parse items = .ok b := by
  have hread : List.Forall₂ (fun item e => Assignment.parse item = .ok e)
      (b.toList.map Assignment.item) b.toList := by
    rw [List.forall₂_map_left_iff, List.forall₂_same]
    exact fun e _ => Assignment.parse_item e
  obtain ⟨entries, hentries, hperm⟩ := List.perm_comp_forall₂ h hread
  exact parse_eq_ok_iff.2 ⟨entries, hentries, ofTable_ofList_of_perm hperm⟩

/-! ## What runs print -/

namespace Machine

theorem run_lines (p : Program) (b : Bank) (limit : Option Int) (tracing : Bool) (fuel : Nat) :
    ((start p b limit tracing).run fuel).1.output.toList.map String.toList =
      (printed fuel (start p b limit tracing)).map Number.text := by
  have hempty : (start p b limit tracing).output.toList = [] := rfl
  rw [run_output, hempty, List.nil_append, List.map_map]
  exact List.map_congr_left fun x _ => String.toList_ofList

/-- A program that prints numbers one after the other. -/
def printing (xs : List Float) : Program :=
  (xs.map fun x => { op := .known .prn, src := .number x : Instruction }).toArray

/-- A machine that has numbers left to print prints them and halts. -/
theorem ran_printing {m : Machine} (hb : m.isDone = false) (hl : m.limit = none) {xs : List Float}
    (hp : ∀ j, m.program[m.pc + j]? = (printing xs)[j]?) :
    ∃ m', Ran (xs.length + 2) m (xs.map .print) m' .stopped := by
  induction xs generalizing m with
  | nil =>
    have hlast : m.program[m.pc]? = none := hp 0
    have hstep := (Stepped.halt hb hlast).step_eq
    have hrest : Ran 1 { m with status := .halted } [] _ .stopped := .stopped rfl
    have hran := Ran.step hb (exceeded?_of_limit_none hl) hstep hrest
    rw [performs_at_end hlast] at hran
    exact ⟨_, hran⟩
  | cons x xs ih =>
    have hf : m.program[m.pc]? = some ⟨.known .prn, .number x, .absent⟩ := hp 0
    have he : Instruction.effect m.bank ⟨.known .prn, .number x, .absent⟩ = .ok (.print x) := rfl
    have hstep := (Stepped.execute _ _ hb hf he).step_eq
    generalize hm1 : (m.fetch ⟨.known .prn, .number x, .absent⟩).apply (.print x) = m1 at hstep
    have hb1 : m1.isDone = false := by
      subst hm1
      simpa [isDone, apply, advance] using hb
    have hl1 : m1.limit = none := by
      subst hm1
      simpa [apply, advance] using hl
    have hp1 : ∀ j, m1.program[m1.pc + j]? = (printing xs)[j]? := by
      intro j
      subst hm1
      have hnext := hp (j + 1)
      simpa [apply, advance, printing, Nat.add_assoc, Nat.add_comm 1] using hnext
    obtain ⟨m', hrest⟩ := ih hb1 hl1 hp1
    have hran := Ran.step hb (exceeded?_of_limit_none hl) hstep hrest
    rw [performs_of_ok hb hf he] at hran
    exact ⟨m', hran⟩

end Machine

namespace CommandLine.Workbench

open Machine

theorem registerLines_take (m : Machine) :
    ((registerLines m).take 6).map String.toList = m.bank.toList.map Assignment.item := by
  have hlines : (registerLines m).take 6 =
      m.bank.toList.map fun e => String.ofList (Assignment.item e) := rfl
  rw [hlines, List.map_map]
  exact List.map_congr_left fun e _ => String.toList_ofList

/-- **What is printed is read back.** The six register lines that are shown of a machine, in any
order, are read as its bank, whatever numbers it holds, and they are among what a run prints at its
end. The lines that a program prints, with any blanks between and around them, are read as the
numbers that it printed, and for any numbers there is a program that prints them. -/
theorem printed_numbers_are_read_back :
    (∀ (m : Machine) items, items.Perm (((registerLines m).take 6).map String.toList) →
      Bank.parse items = .ok m.bank) ∧
    (∀ fuel (s : RunSettings) p b m, s.showRegisters = true →
      runWith fuel (start p b s.limit false) = (m, .stopped) →
      (runProgram fuel s p b).out = m.output.toList ++ registerLines m) ∧
    (∀ p b limit tracing fuel text,
      Spaced isBlank text
        (((start p b limit tracing).run fuel).1.output.toList.map String.toList) →
      Values.read text = ⟨printed fuel (start p b limit tracing), none⟩) ∧
    ∀ xs b tracing, ∃ m,
      run (xs.length + 2) (start (printing xs) b none tracing) = (m, .stopped) ∧
      printed (xs.length + 2) (start (printing xs) b none tracing) = xs := by
  refine ⟨?_, ?_, ?_, ?_⟩
  · intro m items h
    rw [registerLines_take] at h
    exact Bank.parse_items h
  · intro fuel s p b m hs hrun
    unfold runProgram
    unfold start at hrun
    simp only [hrun, hs, if_true, Report.print]
  · intro p b limit tracing fuel text h
    rw [run_lines] at h
    exact Values.read_text h
  · intro xs b tracing
    obtain ⟨m, hran⟩ := ran_printing (m := start (printing xs) b none tracing) rfl rfl
      fun j => congrArg (fun i => (printing xs)[i]?) (Nat.zero_add j)
    obtain ⟨heffects, hrun⟩ := hran.eq
    refine ⟨m, hrun, ?_⟩
    rw [printed, heffects, List.filterMap_map]
    exact List.filterMap_some

/-- A bank with a zero of its own sign, with what is infinite and with what is no number, read from
its lines in reverse; and two such numbers printed and read from one text. -/
theorem printed_numbers_are_read_back_special :
    let b : Bank := { r1 := -0.0, r2 := 1.0 / 0.0, r3 := Number.notANumber }
    let m : Machine := { program := #[], bank := b }
    let p := printing [-0.0, Number.notANumber]
    Bank.parse (((registerLines m).take 6).map String.toList).reverse = .ok b ∧
      Values.read (['\n', ' '].intercalate
        ((run 4 (start p b none false)).1.output.toList.map String.toList)) =
        ⟨[-0.0, Number.notANumber], none⟩ := by
  intro b m p
  obtain ⟨hregisters, -, hvalues, hprints⟩ := printed_numbers_are_read_back
  refine ⟨hregisters m _ (List.reverse_perm _), ?_⟩
  obtain ⟨-, -, hprinted⟩ := hprints [-0.0, Number.notANumber] b false
  rw [← hprinted]
  exact hvalues p b none false 4 _
    (Spaced.intercalate (by decide) (by simp [isBlank, inRanges, blankRanges]) _)

end CommandLine.Workbench

end RegisterMachine
