import RegisterMachine.CommandLine.Workbench
import RegisterMachine.Proofs.Diagnosis
import RegisterMachine.Proofs.Number.DashedDigits

/-!
# Texts that are rejected

What is wrong with a text is reported with the line in which it stands, with one exception: a target
of dashes and digits that is no whole number. The refusal of the integer reader is passed on as it
is, without a line, and the command line does not answer it.

* `WholeNumber`: the targets of dashes and digits that are read.
* `StopsAt`: the first word of an instruction line that means nothing is one that is not.
* `BadTarget`: this is the first thing wrong with a text.

Principal results: `Rejected.line_le` (a mistake stands in a line of the text),
`Program.assemble_eq_target_iff` (when the integer reader is to blame) and
`rejected_with_line_unless_bad_target`.
-/

set_option autoImplicit false

namespace RegisterMachine

open Text

/-! ## Where errors come from -/

/-- The mistake that a text is rejected with stands in one of its lines. -/
theorem Rejected.line_le {text : List Char} {e : SyntaxError} (h : Rejected text e) :
    1 ≤ e.line ∧ e.line ≤ (lines text).length := by
  have hinside : ∀ {above below : List (Option Statement)} {s : Option Statement},
      Reads text (above ++ s :: below) → above.length + 1 ≤ (lines text).length := by
    intro above below s hreads
    have hlength := List.Forall₂.length_eq hreads
    rw [List.length_append, List.length_cons] at hlength
    omega
  cases h with
  | line hls _ _ =>
    rw [hls, List.length_append, List.length_cons]
    exact ⟨Nat.le_add_left 1 _, Nat.add_le_add_left (Nat.le_add_left 1 _) _⟩
  | label hreads _ _ => exact ⟨Nat.le_add_left 1 _, hinside hreads⟩
  | instruction hreads hss _ _ _ => exact ⟨Nat.le_add_left 1 _, hinside (hss ▸ hreads)⟩

/-! ## Targets that are no whole numbers -/

/-- A whole number as a target has it: one dash at most, decimal digits, not too many of them. -/
def WholeNumber (cs : List Char) : Prop :=
  ∃ k ds, cs = List.replicate k '-' ++ ds ∧ ds ≠ [] ∧ k ≤ 1 ∧ (∀ c ∈ ds, isDecimal c = true) ∧
    ds.length ≤ Number.maxDigits

/-- Of the words of an instruction line the first that means nothing is a target of dashes and
digits that is no whole number. -/
def StopsAt (index : List Char → Nat → Prop) (s : List Char × List (List Char))
    (cs : List Char) : Prop :=
  ∃ (op : Operator) (read rest : List (List Char)), s = (op.name, read ++ ('@' :: cs) :: rest) ∧
    (∀ w ∈ read, ∃ o, Means index w o) ∧ DashesAndDigits cs ∧ ¬ WholeNumber cs

/-- Such a target is the first thing wrong with a text: its lines can be read, no label is defined
twice, and the first instruction line that denotes nothing stops at the target. -/
def BadTarget (text cs : List Char) : Prop :=
  ∃ ss, Reads text ss ∧ (definedLabels ss).Nodup ∧ ∃ done s rest,
    instructionLines ss = done ++ s :: rest ∧ (∀ s' ∈ done, ∃ ins, Denotes (LabelIndex ss) s' ins) ∧
    StopsAt (LabelIndex ss) s cs

/-- Of the texts of dashes and digits the integer reader refuses those that are no whole numbers. -/
theorem textToInt_isError_iff {cs : List Char} (h : DashesAndDigits cs) :
    (∃ e, Scalar.textToInt cs = .error e) ↔ ¬ WholeNumber cs := by
  have hread : (∃ n, Scalar.textToInt cs = .ok n) ↔ WholeNumber cs := by
    simp only [textToInt_eq_ok_iff]
    constructor
    · intro hok
      obtain ⟨k, ds, rfl, hne, hds⟩ := h
      obtain ⟨hk, hdec, hlen⟩ := (Number.readInt_dashes_iff hne hds).1 hok
      exact ⟨k, ds, rfl, hne, hk, hdec, hlen⟩
    · rintro ⟨k, ds, rfl, hne, hk, hdec, hlen⟩
      have hds : ∀ c ∈ ds, isDigitLike c = true := fun c hc => by simp [isDigitLike, hdec c hc]
      exact (Number.readInt_dashes_iff hne hds).2 ⟨hk, hdec, hlen⟩
  rw [← hread]
  cases Scalar.textToInt cs <;> simp

namespace Labels

variable {labels : Labels} {w cs : List Char} {e : ConversionError}

theorem resolveTarget_eq_target_iff : labels.resolveTarget cs = .error (.target e) ↔
    DashesAndDigits cs ∧ Scalar.textToInt cs = .error e := by
  rw [← isNumeric_eq_true_iff]
  unfold resolveTarget
  by_cases hnum : isNumeric cs = true
  · rw [if_pos hnum]
    cases Scalar.textToInt cs <;> simp [hnum]
  · rw [if_neg hnum]
    cases labels.index? cs <;> simp [hnum]

theorem resolveNumber_ne_target : resolveNumber w ≠ .error (.target e) := by
  intro h
  unfold resolveNumber at h
  dsimp only at h
  split at h <;> cases h

/-- The integer reader refuses an at sign before dashes and digits, and no other words. -/
theorem resolve_eq_target_iff : labels.resolve w = .error (.target e) ↔
    ∃ cs, w = '@' :: cs ∧ DashesAndDigits cs ∧ Scalar.textToInt cs = .error e := by
  constructor
  · intro h
    rcases word_cases w with rfl | ⟨r, hr⟩ | ⟨cs, rfl⟩ | hbare
    · cases h
    · rw [resolve_of_spelled hr] at h
      cases h
    · rw [resolve_target] at h
      exact ⟨cs, rfl, resolveTarget_eq_target_iff.1 h⟩
    · rw [resolve_of_bare hbare] at h
      cases hk : labels.index? w with
      | some k => rw [hk] at h; cases h
      | none => rw [hk] at h; exact absurd h resolveNumber_ne_target
  · rintro ⟨cs, rfl, h⟩
    rw [resolve_target, resolveTarget_eq_target_iff]
    exact h

end Labels

/-! ## Texts -/

/-- An instruction stops at a target if and only if the integer reader refuses it. -/
theorem Instruction.assemble_eq_target_iff {labels : Labels} {s : List Char × List (List Char)}
    {index : List Char → Nat → Prop} (hindex : (fun name k => labels.index? name = some k) = index)
    {e : ConversionError} : Instruction.assemble labels s.1 s.2 = .error (.target e) ↔
      ∃ cs, StopsAt index s cs ∧ Scalar.textToInt cs = .error e := by
  obtain ⟨name, words⟩ := s
  have hwords : Instruction.assemble labels name words = .error (.target e) ↔
      (∃ op : Operator, op.name = name) ∧ words.mapM labels.resolve = .error (.target e) := by
    -- what is wrong with the operator or with operands that are read has a line
    simp [assemble_eq_error_iff, Operator.ofName?_eq_some_iff]
  rw [hwords, mapM_eq_error_iff]
  simp only [Labels.resolve_eq_target_iff, Labels.resolve_eq_ok_iff, hindex]
  constructor
  · rintro ⟨⟨op, rfl⟩, read, _, rest, rfl, hread, cs, rfl, hform, he⟩
    exact ⟨cs, ⟨op, read, rest, rfl, hread, hform, (textToInt_isError_iff hform).1 ⟨e, he⟩⟩, he⟩
  · rintro ⟨cs, ⟨op, read, rest, heq, hread, hform, -⟩, he⟩
    cases heq
    exact ⟨⟨op, rfl⟩, read, _, rest, rfl, hread, cs, rfl, hform, he⟩

namespace Program

/-- The integer reader is to blame for rows if and only if it is for their instructions. -/
theorem ofRows_eq_target_iff {labels : Labels} {rows : List Row} {e : ConversionError} :
    ofRows labels rows = .error (.target e) ↔
      ((rows.map (·.statement)).filterMap (·.instruction?)).mapM
        (fun s => Instruction.assemble labels s.1 s.2) = .error (.target e) := by
  induction rows with
  | nil => exact ⟨fun h => (by cases h), fun h => (by cases h)⟩
  | cons row rows ih =>
    obtain ⟨line, stmt⟩ := row
    cases stmt with
    | label name => exact ih
    | instruction op words =>
      rw [List.map_cons,
        show (Statement.instruction op words :: rows.map (·.statement)).filterMap (·.instruction?) =
          (op, words) :: (rows.map (·.statement)).filterMap (·.instruction?) from rfl,
        List.mapM_cons]
      unfold ofRows
      cases hins : Instruction.assemble labels op words with
      | error cause => cases cause <;> simp [WordError.inLine, bind, Except.bind]
      | ok ins =>
        dsimp only
        rw [map_eq_error_iff, ih]
        cases ((rows.map (·.statement)).filterMap (·.instruction?)).mapM
          (fun s => Instruction.assemble labels s.1 s.2) <;>
        simp [bind, Except.bind, pure, Except.pure]

theorem reads_iff_ofLine {text : List Char} {ss : List (Option Statement)} :
    Reads text ss ↔ List.Forall₂ (fun l s => Statement.ofLine l = .ok s) (lines text) ss := by
  simp only [Reads, ofLine_eq_ok_iff]

/-- If the lines of a text can be read and its labels differ, it stops where its first instruction
line does that denotes nothing. -/
theorem stops_iff_of_reads {text : List Char} {ss : List (Option Statement)}
    (hreads : Reads text ss) (hnodup : (definedLabels ss).Nodup) {e : ConversionError} :
    assemble text = .error (.target e) ↔ ∃ done s rest, instructionLines ss = done ++ s :: rest ∧
      (∀ s' ∈ done, ∃ ins, Denotes (LabelIndex ss) s' ins) ∧
      ∃ cs, StopsAt (LabelIndex ss) s cs ∧ Scalar.textToInt cs = .error e := by
  obtain ⟨rows, hrows, hstmts⟩ := Row.ofLines_eq_ok_iff.2 ⟨ss, reads_iff_ofLine.1 hreads, rfl⟩
  have hlabels : Labels.collect rows = .ok (Labels.located 0 (ss.filterMap id)) := by
    refine Labels.collect_eq_ok_iff.2 ⟨by rw [hstmts], ?_⟩
    rwa [Labels.map_fst_located, List.filterMap_filterMap]
  have hindex := index?_located_eq hnodup
  rw [assemble_of_passes hrows hlabels, map_eq_error_iff, ofRows_eq_target_iff, hstmts,
    List.filterMap_filterMap, mapM_eq_error_iff]
  simp only [Instruction.assemble_eq_target_iff hindex, assemble_instruction_eq_ok_iff, hindex]
  rfl

/-- **The integer reader is to blame for a text if and only if it refuses a target that is the first
thing wrong with it.** -/
theorem assemble_eq_target_iff {text : List Char} {e : ConversionError} :
    assemble text = .error (.target e) ↔
      ∃ cs, BadTarget text cs ∧ Scalar.textToInt cs = .error e := by
  constructor
  · intro h
    cases hrows : Row.parse text with
    | error e' => rw [assemble_of_parse_error hrows] at h; cases h
    | ok rows =>
      cases hlabels : Labels.collect rows with
      | error e' => rw [assemble_of_collect_error hrows hlabels] at h; cases h
      | ok labels =>
        obtain ⟨ss, hss, hstmts⟩ := Row.ofLines_eq_ok_iff.1 ⟨rows, hrows, rfl⟩
        have hreads : Reads text ss := reads_iff_ofLine.2 hss
        obtain ⟨rfl, hnodup⟩ := Labels.collect_eq_ok_iff.1 hlabels
        rw [← hstmts, Labels.map_fst_located, List.filterMap_filterMap] at hnodup
        obtain ⟨done, s, rest, hsplit, hdone, cs, hstops, he⟩ :=
          (stops_iff_of_reads hreads hnodup).1 h
        exact ⟨cs, ⟨ss, hreads, hnodup, done, s, rest, hsplit, hdone, hstops⟩, he⟩
  · rintro ⟨cs, ⟨ss, hreads, hnodup, done, s, rest, hsplit, hdone, hstops⟩, he⟩
    exact (stops_iff_of_reads hreads hnodup).2 ⟨done, s, rest, hsplit, hdone, cs, hstops, he⟩

theorem refused_of_badTarget {text cs : List Char} (h : BadTarget text cs) :
    ∃ e, Scalar.textToInt cs = .error e ∧ assemble text = .error (.target e) := by
  obtain ⟨ss, -, -, done, s, rest, -, -, op, read, rest', -, -, hform, hwhole⟩ := id h
  obtain ⟨e, he⟩ := (textToInt_isError_iff hform).2 hwhole
  exact ⟨e, he, assemble_eq_target_iff.2 ⟨cs, h, he⟩⟩

end Program

/-! ## The command line -/

namespace CommandLine.Workbench

variable {fuel : Nat} {args : List Word} {found : Found} {s : RunSettings} {text : List Char}

theorem main_of_text (hargs : readRequest args = .ok (some (.run s)))
    (htext : readText s.input found = .ok text) : main fuel args found = runText fuel s text := by
  unfold main
  rw [hargs]
  show runFile fuel s found = _
  unfold runFile
  rw [htext]

/-- A malformed text is answered with its line, and nothing else is said. -/
theorem runText_of_malformed {e : SyntaxError} (h : Program.assemble text = .error (.malformed e)) :
    runText fuel s text =
      { err := ["error: line " ++ String.ofList (Number.intText e.line) ++ ": " ++ e.cause.message],
        outcome := .exit 1 } := by
  have hline : "error: " ++ messageInLine e.cause.message (some e.line) =
      "error: line " ++ String.ofList (Number.intText e.line) ++ ": " ++ e.cause.message := by
    simp only [messageInLine, ← String.append_assoc]
    rfl
  unfold runText
  rw [h, ← hline]
  rfl

theorem runText_of_target {e : ConversionError} (h : Program.assemble text = .error (.target e)) :
    runText fuel s text = { outcome := .crashed (.conversion e) } := by
  unfold runText
  rw [h]
  rfl

end CommandLine.Workbench

open CommandLine in
/-- **A text is a program or rejected with one of its lines, unless a bad target is the first thing
wrong with it.** Then it is rejected with the refusal of the integer reader. A command line that
runs a file answers an error that names a line with this line and the exit code 1; the other errors
end it. -/
theorem rejected_with_line_unless_bad_target (text : List Char) :
    (((∃ p, Program.assemble text = .ok p) ∨
        ∃ e, Program.assemble text = .error (.malformed e) ∧ 1 ≤ e.line ∧
          e.line ≤ (lines text).length) ↔
      ¬ ∃ cs, BadTarget text cs) ∧
    (∀ cs, BadTarget text cs →
      ∃ e, Scalar.textToInt cs = .error e ∧ Program.assemble text = .error (.target e)) ∧
    ∀ fuel args found s, Workbench.readRequest args = .ok (some (.run s)) →
      Workbench.readText s.input found = .ok text →
      (∀ e, Program.assemble text = .error (.malformed e) →
        Workbench.main fuel args found =
          { err := ["error: line " ++ String.ofList (Number.intText e.line) ++ ": " ++
              e.cause.message],
            outcome := .exit 1 }) ∧
      ∀ e, Program.assemble text = .error (.target e) →
        Workbench.main fuel args found = { outcome := .crashed (.conversion e) } := by
  refine ⟨?_, fun cs => Program.refused_of_badTarget, ?_⟩
  · constructor
    · rintro h ⟨cs, hbad⟩
      obtain ⟨e, -, he⟩ := Program.refused_of_badTarget hbad
      rcases h with ⟨p, hp⟩ | ⟨e', he', -⟩
      · rw [he] at hp; cases hp
      · rw [he] at he'; cases he'
    · intro hgood
      cases h : Program.assemble text with
      | ok p => exact .inl ⟨p, rfl⟩
      | error e =>
        cases e with
        | malformed e => exact .inr ⟨e, rfl, (Program.assemble_eq_malformed_iff_rejected.1 h).line_le⟩
        | target e =>
          obtain ⟨cs, hbad, -⟩ := Program.assemble_eq_target_iff.1 h
          exact absurd ⟨cs, hbad⟩ hgood
  · intro fuel args found s hargs htext
    rw [Workbench.main_of_text hargs htext]
    exact ⟨fun e => Workbench.runText_of_malformed, fun e => Workbench.runText_of_target⟩

/-- Two dashes before a digit: the refusal has no line. -/
theorem assemble_two_dashes :
    Program.assemble "JMP @--5".toList = .error (.target (.notInt "--5".toList)) :=
  Program.assemble_eq_error (by decide +kernel)

/-- So not every text that is rejected is rejected with a line. -/
theorem rejected_without_line :
    ¬ ∀ text e, Program.assemble text = .error e →
      ∃ s, e = .malformed s ∧ 1 ≤ s.line ∧ s.line ≤ (lines text).length := by
  intro hclaim
  obtain ⟨s, hs, -⟩ := hclaim _ _ assemble_two_dashes
  cases hs

open CommandLine in
/-- A name that is no label is answered with its line; two dashes before a digit end the command. -/
theorem rejected_with_line_unless_bad_target_dashes :
    Workbench.main 0 [['r', 'u', 'n'], ['f']] (.bytes [10, 65, 68, 68, 32, 120]) =
      { err := ["error: line 2: bad operand: x"], outcome := .exit 1 } ∧
    (∃ cs, BadTarget "JMP @--5".toList cs) ∧
    Workbench.main 0 [['r', 'u', 'n'], ['f']] (.bytes [74, 77, 80, 32, 64, 45, 45, 53]) =
      { outcome := .crashed (.conversion (.notInt "--5".toList)) } := by
  have hbare : Program.assemble "\nADD x".toList = .error (.malformed ⟨.badOperand ['x'], 2⟩) :=
    Program.assemble_eq_error (by decide +kernel)
  have hargs : Workbench.readRequest [['r', 'u', 'n'], ['f']] =
      .ok (some (.run { input := ['f'] })) := rfl
  obtain ⟨-, -, hline⟩ := rejected_with_line_unless_bad_target "\nADD x".toList
  obtain ⟨hiff, -, hend⟩ := rejected_with_line_unless_bad_target "JMP @--5".toList
  refine ⟨(hline 0 _ (.bytes [10, 65, 68, 68, 32, 120]) _ hargs (by rfl)).1 _ hbare, ?_,
    (hend 0 _ (.bytes [74, 77, 80, 32, 64, 45, 45, 53]) _ hargs (by rfl)).2 _ assemble_two_dashes⟩
  by_contra hgood
  rcases hiff.2 hgood with ⟨p, hp⟩ | ⟨e, he, -⟩
  · rw [assemble_two_dashes] at hp; cases hp
  · rw [assemble_two_dashes] at he; cases he

end RegisterMachine
