import RegisterMachine.Proofs.Diagnosis
import RegisterMachine.Proofs.Number.DashedDigits

/-!
# The shape of rows

The rows of a text are what the later passes go by: they count rows to find the index of a label and
read the words of a row as operands. Each line that holds code has one row, numbered by the line,
and the row is made of words: texts that are not empty, without blanks, commas and semicolons.

* `hasCode`, `codeLines`: the lines of a text that hold code, each with its number.
* `Word`: something without separators and without the mark of a comment.
* `Statement.Shaped`: a label of one word, or an instruction of one to three.
* `RowsOf`: how the rows of a text stand to its lines, and what is in them.

Principal results: `forall₂_numbered` (rows and lines with code correspond), `shaped_of_says` (a
statement is made of words), `word_upper` (upper case keeps a word a word),
`Instruction.operands_padded` (no operand is lost) and `rows_follow_lines`.
-/

set_option autoImplicit false

namespace RegisterMachine

open Text

/-! ## Words -/

/-- Something without characters of a class and without the mark of a comment. -/
structure Word (p : Char → Bool) (w : List Char) : Prop where
  ne_nil : w ≠ []
  apart : ∀ c ∈ w, p c = false
  uncommented : ';' ∉ w

/-- What no word of an instruction holds: blanks, commas and semicolons. -/
def isDelimiter (c : Char) : Bool := isSeparator c || c == ';'

theorem isDelimiter_eq_false_iff {c : Char} :
    isDelimiter c = false ↔ isSeparator c = false ∧ c ≠ ';' := by
  simp [isDelimiter]

/-- The code points of these. -/
def delimiterRanges : List (Nat × Nat) := (0x2C, 0x2C) :: (0x3B, 0x3B) :: blankRanges.toList

theorem exists_delimiterRange {c : Char} (h : isDelimiter c = true) :
    ∃ b ∈ delimiterRanges, b.1 ≤ c.toNat ∧ c.toNat ≤ b.2 := by
  unfold isDelimiter isSeparator at h
  rcases Bool.or_eq_true_iff.1 h with h | h
  · rcases Bool.or_eq_true_iff.1 h with h | h
    · obtain rfl := eq_of_beq h
      exact ⟨_, List.mem_cons_self, by decide⟩
    · obtain ⟨b, hb, hrange⟩ := inRanges_eq_true_iff.1 h
      exact ⟨b, List.mem_cons_of_mem _ (List.mem_cons_of_mem _ (Array.mem_toList_iff.2 hb)), hrange⟩
  · obtain rfl := eq_of_beq h
    exact ⟨_, List.mem_cons_of_mem _ List.mem_cons_self, by decide⟩

theorem delimiterRange_pos : ∀ b ∈ delimiterRanges, 0 < b.1 := by decide +kernel

theorem caseRun_apart : ∀ r ∈ caseRuns, ∀ b ∈ delimiterRanges,
    (r.last : Int) + r.distance < b.1 ∨ (b.2 : Int) < r.first + r.distance := by
  have hcheck : caseRuns.toList.all (fun r => delimiterRanges.all fun b =>
      decide ((r.last : Int) + r.distance < b.1 ∨ (b.2 : Int) < r.first + r.distance)) = true := by
    decide +kernel
  intro r hr b hb
  have hrun := List.all_eq_true.1 hcheck r (Array.mem_toList_iff.2 hr)
  exact of_decide_eq_true (List.all_eq_true.1 hrun b hb)

/-- No upper-case form of another character separates words or begins a comment. -/
theorem not_delimiter_of_mem_upperChar {c d : Char} (hc : isDelimiter c = false)
    (hd : d ∈ upperChar c) : isDelimiter d = false := by
  have hlong : longUppers.toList.all (fun e => e.2.all fun n => !isDelimiter (Char.ofNat n)) =
      true := by decide +kernel
  rcases upperChar_cases c with h | ⟨r, hr, hcovers, h⟩ | ⟨e, he, h⟩
  · rw [h, List.mem_singleton] at hd
    rw [hd, hc]
  · rw [h, List.mem_singleton] at hd
    cases hdelimiter : isDelimiter d with
    | false => rfl
    | true =>
      obtain ⟨b, hb, hlo, hhi⟩ := exists_delimiterRange hdelimiter
      have hpos : 0 < d.toNat := Nat.lt_of_lt_of_le (delimiterRange_pos b hb) hlo
      have hcode := toNat_ofNat_of_pos (hd ▸ hpos)
      rw [← hd] at hcode
      have hapart := caseRun_apart r hr b hb
      simp only [CaseRun.covers, Bool.and_eq_true, decide_eq_true_eq] at hcovers
      omega
  · rw [h] at hd
    obtain ⟨n, hn, rfl⟩ := List.mem_map.1 hd
    rw [List.all_eq_true] at hlong
    have hform := List.all_eq_true.1 (hlong e (Array.mem_toList_iff.2 he)) n hn
    simpa using hform

/-- **Upper case keeps a word a word.** -/
theorem word_upper {w : List Char} (h : Word isSeparator w) : Word isSeparator (upper w) := by
  have hclear : ∀ d ∈ upper w, isDelimiter d = false := by
    intro d hd
    obtain ⟨c, hc, hd⟩ := List.mem_flatMap.1 hd
    refine not_delimiter_of_mem_upperChar (isDelimiter_eq_false_iff.2 ⟨h.apart c hc, ?_⟩) hd
    exact ne_of_mem_of_not_mem hc h.uncommented
  exact
    { ne_nil := fun hnil => h.ne_nil (upper_eq_nil hnil)
      apart := fun d hd => (isDelimiter_eq_false_iff.1 (hclear d hd)).1
      uncommented := fun hmem => (isDelimiter_eq_false_iff.1 (hclear _ hmem)).2 rfl }

theorem Word.trim_eq {w : List Char} (h : Word isSeparator w) : trim isBlank w = w := by
  refine trim_of_not_sep fun c hc => ?_
  have hapart := h.apart c hc
  rw [isSeparator, Bool.or_eq_false_iff] at hapart
  exact hapart.2

/-! ## Statements -/

/-- What a statement is made of. -/
inductive Statement.Shaped : Statement → Prop where
  /-- A label is one word; a comma may stand in it. -/
  | label {name : List Char} : Word isBlank name → Shaped (.label name)
  /-- An instruction is the name of an operator and at most two operands. -/
  | instruction {op : List Char} {operands : List (List Char)} : Word isSeparator op →
    operands.length ≤ 2 → (∀ w ∈ operands, Word isSeparator w) → Shaped (.instruction op operands)

theorem semicolon_not_mem_code (l : List Char) : ';' ∉ Statement.code l := by
  intro hmem
  have htake := List.all_eq_true.1 (List.all_takeWhile (p := (· != ';')) (l := l)) ';'
    (mem_of_mem_trim hmem)
  cases htake

theorem word_of_parts {p : Char → Bool} {cs w : List Char} {ws : List (List Char)}
    (hcs : ';' ∉ cs) (h : Parts p cs ws) (hw : w ∈ ws) : Word p w where
  ne_nil := (h.of_mem hw).1
  apart c hc := ((h.of_mem hw).2 c hc).1
  uncommented hmem := hcs ((h.of_mem hw).2 ';' hmem).2

/-- **A statement is made of words.** -/
theorem shaped_of_says {cs : List Char} {s : Statement} (hcs : ';' ∉ cs) (h : Says cs (some s)) :
    s.Shaped := by
  cases h with
  | label hne hname hblanks =>
    refine .label ⟨hne, hname, fun hmem => hcs ?_⟩
    exact List.mem_append_left _ (List.mem_append_left _ hmem)
  | instruction _ hparts hlen =>
    have hword := fun w hw => word_of_parts (w := w) hcs hparts hw
    exact .instruction (word_upper (hword _ List.mem_cons_self)) hlen
      fun w hw => hword w (List.mem_cons_of_mem _ hw)

/-! ## Lines with code -/

/-- Whether a line holds code: not all before its first semicolon is blank. -/
def hasCode (l : List Char) : Bool := !(l.takeWhile (· != ';')).all isBlank

/-- The lines of a text that hold code, in order, each with its number. -/
def codeLines (text : List Char) : List (List Char × Nat) :=
  ((lines text).zipIdx 1).filter fun l => hasCode l.1

theorem hasCode_iff {l : List Char} : hasCode l = true ↔ Statement.code l ≠ [] := by
  unfold hasCode Statement.code
  rw [Ne, trim_eq_nil_iff, ← List.all_eq_true, Bool.not_eq_true, Bool.not_eq_true']

theorem says_isSome {cs : List Char} {s : Option Statement} (h : Says cs s) :
    s.isSome = true ↔ cs ≠ [] := by
  cases h with
  | blank => simp
  | label hne => simp
  | instruction _ hparts =>
    simp only [Option.isSome_some, true_iff]
    rintro rfl
    cases words_eq_iff.2 hparts

/-- How a row stands to a numbered line: it has the number of the line and says what its code
says. -/
def Row.Reads (r : Row) (l : List Char × Nat) : Prop :=
  r.line = l.2 ∧ Says (Statement.code l.1) (some r.statement)

/-- **Rows and lines with code correspond**, in order. -/
theorem forall₂_numbered {ls : List (List Char)} {ss : List (Option Statement)}
    (h : List.Forall₂ (fun l s => Says (Statement.code l) s) ls ss) (n : Nat) :
    List.Forall₂ Row.Reads (Row.numbered n ss) ((ls.zipIdx n).filter fun l => hasCode l.1) := by
  induction h generalizing n with
  | nil => exact .nil
  | @cons l s ls ss hl _ ih =>
    have hsome := says_isSome hl
    rw [← hasCode_iff] at hsome
    rw [List.zipIdx_cons, List.filter_cons]
    cases s with
    | none =>
      rw [if_neg fun hcode => by cases hsome.2 hcode]
      exact ih (n + 1)
    | some s =>
      rw [if_pos (hsome.1 rfl)]
      exact .cons ⟨rfl, hl⟩ (ih (n + 1))

/-! ## Rows -/

/-- Operands that are left out are absent, and none is lost. -/
theorem Instruction.operands_padded {labels : Labels} {op : List Char} {words : List (List Char)}
    {ins : Instruction} (hlen : words.length ≤ 2) (h : Instruction.assemble labels op words = .ok ins) :
    ∃ operands, List.Forall₂ (fun w o => labels.resolve w = .ok o) words operands ∧
      operands ++ List.replicate (2 - operands.length) .absent = [ins.src, ins.dst] := by
  obtain ⟨operator, operands, -, hwords, rfl, -⟩ := Instruction.assemble_eq_ok_iff.1 h
  refine ⟨operands, hwords, ?_⟩
  rw [hwords.length_eq] at hlen
  match operands, hlen with
  | [], _ => rfl
  | [_], _ => rfl
  | [_, _], _ => rfl

/-- How the rows of a text stand to its lines, and what is in them. -/
structure RowsOf (text : List Char) (rows : List Row) : Prop where
  /-- There is one row for each line that holds code, in order. -/
  correspond : List.Forall₂ Row.Reads rows (codeLines text)
  /-- The numbers go up. -/
  ascending : (rows.map (·.line)).Pairwise (· < ·)
  /-- They are numbers of lines. -/
  inside : ∀ r ∈ rows, 1 ≤ r.line ∧ r.line ≤ (lines text).length
  /-- The statements are made of words. -/
  shaped : ∀ r ∈ rows, r.statement.Shaped
  /-- The words of an instruction have no blanks around them that an operand's reader could take
  away. -/
  trimmed : ∀ r ∈ rows, ∀ op words, r.statement = .instruction op words →
    ∀ w ∈ words, trim isBlank w = w
  /-- Absent operands fill up those of an instruction to exactly two. -/
  padded : ∀ r ∈ rows, ∀ op words, r.statement = .instruction op words →
    ∀ labels ins, Instruction.assemble labels op words = .ok ins →
      ∃ operands, List.Forall₂ (fun w o => Labels.resolve labels w = .ok o) words operands ∧
        operands ++ List.replicate (2 - operands.length) .absent = [ins.src, ins.dst]

theorem line_sublist {text : List Char} {rows : List Row}
    (h : List.Forall₂ Row.Reads rows (codeLines text)) :
    (rows.map (·.line)).Sublist (List.range' 1 (lines text).length) := by
  have hline : rows.map (·.line) = (codeLines text).map (·.2) := by
    rw [← List.forall₂_eq_eq_eq, List.forall₂_map_left_iff, List.forall₂_map_right_iff]
    exact h.imp fun r l hr => hr.1
  rw [hline, ← List.zipIdx_map_snd]
  exact List.filter_sublist.map _

/-- **The rows of a text follow its lines.** -/
theorem rows_follow_lines {text : List Char} {rows : List Row} (h : Row.parse text = .ok rows) :
    RowsOf text rows := by
  obtain ⟨ss, hreads, rfl⟩ := Row.parse_eq_ok_iff.1 h
  have hrows := forall₂_numbered hreads 1
  have hsublist := line_sublist hrows
  have hshaped : ∀ r ∈ Row.numbered 1 ss, r.statement.Shaped := by
    intro r hr
    obtain ⟨l, -, -, hsays⟩ := exists_of_forall₂ hrows.flip hr
    exact shaped_of_says (semicolon_not_mem_code l.1) hsays
  refine ⟨hrows, List.Pairwise.sublist hsublist (List.pairwise_lt_range'), fun r hr => ?_, hshaped, ?_, ?_⟩
  · have hmem := List.mem_range'_1.1 (hsublist.mem (List.mem_map_of_mem hr))
    omega
  · intro r hr op words heq w hw
    have hr := hshaped r hr
    rw [heq] at hr
    cases hr with
    | instruction _ _ hwords => exact (hwords w hw).trim_eq
  · intro r hr op words heq labels ins hins
    have hr := hshaped r hr
    rw [heq] at hr
    cases hr with
    | instruction _ hlen _ => exact Instruction.operands_padded hlen hins

/-- A label, an empty line, a comment and an instruction with a comment of its own: two rows, the
second of them for the fourth line. -/
theorem rows_follow_lines_comments :
    ∃ rows, Row.parse "x:\n\n; note\nmov 1,r5 ; one".toList = .ok rows ∧
      rows.map (·.line) = [1, 4] ∧ RowsOf "x:\n\n; note\nmov 1,r5 ; one".toList rows := by
  have hparse : Row.parse "x:\n\n; note\nmov 1,r5 ; one".toList =
      .ok [⟨1, .label ['x']⟩, ⟨4, .instruction "MOV".toList [['1'], ['r', '5']]⟩] := by
    decide +kernel
  exact ⟨_, hparse, rfl, rows_follow_lines hparse⟩

end RegisterMachine
