import RegisterMachine.Proofs.Assembly
import RegisterMachine.Proofs.Text.Cutting
import RegisterMachine.Proofs.Text.UpperCase

/-!
# The assembly language

The language is described here without the assembler: what a line says by its shape, which index a
label has, what a word stands for, which instruction a line denotes. The assembler accepts the texts
of this language and gives them the meaning they have in it.

* `Says`: what the code of a line says: nothing, a label, an instruction of one to three words.
* `LabelIndex`: the index of a label is the number of instruction lines above its own.
* `Means`: the operand that a word stands for, given the indices of the labels.
* `Denotes`: the instruction of an operator's name and its words.
* `Acceptable`: labels differ, operators exist, words mean something and jumps have an index.

Principal results: `ofLine_eq_ok_iff`, `resolve_eq_ok_iff` (reading a line or a word gives what it
says or means) and `assemble_meets_language`.
-/

set_option autoImplicit false

namespace RegisterMachine

open Text

/-! ## Lines -/

/-- What the code of a line says. -/
inductive Says : List Char → Option Statement → Prop where
  /-- A line without code says nothing. -/
  | blank : Says [] none
  /-- One word, perhaps blanks, a colon. -/
  | label {name blanks : List Char} : name ≠ [] → (∀ c ∈ name, isBlank c = false) →
    (∀ c ∈ blanks, isBlank c = true) → Says (name ++ blanks ++ [':']) (some (.label name))
  /-- One to three words between blanks and commas, no colon at their end. -/
  | instruction {cs op : List Char} {operands : List (List Char)} : cs.getLast? ≠ some ':' →
    Parts isSeparator cs (op :: operands) → operands.length ≤ 2 →
    Says cs (some (.instruction (upper op) operands))

/-- The name of a label line is what stands before the colon. -/
theorem says_label_of_words {cs : List Char} (hhead : ∀ c, cs.head? = some c → isBlank c = false)
    (hcolon : cs.getLast? = some ':')
    (hword : (words isBlank (trim isBlank cs.dropLast)).length = 1) :
    Says cs (some (.label (trim isBlank cs.dropLast))) := by
  obtain ⟨hne, hname⟩ := not_sep_of_length_words (fun c hc => head?_trim hc)
    (fun c hc => getLast?_trim hc) hword
  obtain ⟨a, b, hsplit, ha, hb⟩ := exists_trim isBlank cs.dropLast
  have hcs : cs = cs.dropLast ++ [':'] := (List.dropLast_append_getLast? _ hcolon).symm
  -- the line is trimmed already, so nothing was taken away in front
  have hnil : a = [] := by
    cases a with
    | nil => rfl
    | cons c a =>
      rw [hsplit] at hcs
      have hblank := ha c List.mem_cons_self
      rw [hhead c (by rw [hcs]; rfl)] at hblank
      cases hblank
  rw [hnil, List.nil_append] at hsplit
  generalize trim isBlank cs.dropLast = name at hne hname hsplit ⊢
  rw [hcs, hsplit]
  exact .label hne hname hb

/-- **Reading a line gives what its code says.** -/
theorem ofLine_eq_ok_iff {line : List Char} {s : Option Statement} :
    Statement.ofLine line = .ok s ↔ Says (Statement.code line) s := by
  have hhead : ∀ c, (Statement.code line).head? = some c → isBlank c = false :=
    fun c hc => head?_trim hc
  unfold Statement.ofLine
  generalize Statement.code line = cs at hhead ⊢
  dsimp only
  constructor
  · intro h
    split at h
    · rename_i hempty
      cases h
      rw [List.isEmpty_iff.1 hempty]
      exact .blank
    · split at h
      · rename_i hcolon
        split at h
        · rename_i hword
          cases h
          exact says_label_of_words hhead (by simpa using hcolon) hword
        · cases h
      · rename_i hcolon
        split at h
        · cases h
        · rename_i op operands hwords
          split at h
          · rename_i hlen
            cases h
            exact .instruction (by simpa using hcolon) (words_eq_iff.1 hwords) hlen
          · cases h
  · intro h
    cases h with
    | blank => rfl
    | @label name blanks hne hname hblanks =>
      have htrim : trim isBlank (name ++ blanks ++ [':']).dropLast = name := by
        rw [List.dropLast_concat]
        exact trim_append_of_seps hname hblanks
      rw [if_neg (by simp), if_pos (by simp), htrim, words_of_not_sep hne hname]
      rfl
    | @instruction cs op operands hcolon hparts hlen =>
      have hne : cs ≠ [] := by
        rintro rfl
        cases words_eq_iff.2 hparts
      rw [if_neg (by simpa using hne), if_neg (by simpa using hcolon), words_eq_iff.2 hparts]
      dsimp only
      rw [if_pos hlen]

/-! ## Words -/

/-- A register's name in either case. -/
def Register.Spelled (r : Register) (w : List Char) : Prop :=
  w = r.name ∨ w = r.name.map Char.toLower

/-- The form of a whole number: dashes, then digits of any kind. -/
def DashesAndDigits (cs : List Char) : Prop :=
  ∃ k ds, cs = List.replicate k '-' ++ ds ∧ ds ≠ [] ∧ ∀ c ∈ ds, isDigitLike c = true

/-- A word that is neither the mark of nothing, nor a register, nor marked as a target. -/
structure Bare (w : List Char) : Prop where
  not_nothing : w ≠ ['_']
  not_register : ∀ r : Register, ¬ r.Spelled w
  not_target : w.head? ≠ some '@'

/-- A word is the mark of nothing, a register, marked as a target, or bare. -/
theorem word_cases (w : List Char) :
    w = ['_'] ∨ (∃ r : Register, r.Spelled w) ∨ (∃ cs, w = '@' :: cs) ∨ Bare w := by
  by_cases hnothing : w = ['_']
  · exact .inl hnothing
  by_cases hregister : ∃ r : Register, r.Spelled w
  · exact .inr (.inl hregister)
  by_cases htarget : w.head? = some '@'
  · exact .inr (.inr (.inl ⟨w.tail, List.eq_cons_of_mem_head? htarget⟩))
  · exact .inr (.inr (.inr ⟨hnothing, not_exists.1 hregister, htarget⟩))

/-- What a word stands for, given the indices of the labels. -/
inductive Means (index : List Char → Nat → Prop) : List Char → Operand → Prop where
  /-- The underscore is nothing. -/
  | nothing : Means index ['_'] .absent
  /-- A register is named in either case. -/
  | register {w : List Char} {r : Register} : r.Spelled w → Means index w (.register r)
  /-- The at sign before a whole number. -/
  | target {cs : List Char} {n : Int} : DashesAndDigits cs → Number.readInt cs = .ok n →
    Means index ('@' :: cs) (.index n)
  /-- The at sign before the name of a label. -/
  | targetLabel {name : List Char} {k : Nat} : ¬ DashesAndDigits name → index name k →
    Means index ('@' :: name) (.index k)
  /-- The name of a label. -/
  | label {name : List Char} {k : Nat} : Bare name → index name k → Means index name (.index k)
  /-- A number, perhaps after a hash sign, unless a label has this name. -/
  | number {w literal : List Char} {x : Float} : Bare w → (∀ k, ¬ index w k) →
    (w = '#' :: literal ∨ w.head? ≠ some '#' ∧ w = literal) → Number.readReal? literal = some x →
    Means index w (.number x)

theorem Register.ofName?_eq_some_iff {cs : List Char} {r : Register} :
    Register.ofName? cs = some r ↔ cs = r.name := by
  constructor
  · intro h
    have hname := List.find?_some h
    exact (by simpa using hname : r.name = cs).symm
  · rintro rfl
    exact r.ofName?_name

theorem Register.ofName?_upper_eq_some_iff {w : List Char} {r : Register} :
    Register.ofName? (upper w) = some r ↔ r.Spelled w := by
  rw [Register.ofName?_eq_some_iff]
  unfold Register.Spelled
  cases r <;> exact upper_eq_letter_digit_iff (by decide)

theorem Register.ofName?_upper_eq_none_iff {w : List Char} :
    Register.ofName? (upper w) = none ↔ ∀ r : Register, ¬ r.Spelled w := by
  rw [← Option.not_isSome_iff_eq_none, Option.isSome_iff_exists, not_exists]
  exact forall_congr' fun r => not_congr Register.ofName?_upper_eq_some_iff

theorem isDigitLike_dash : isDigitLike '-' = false := by decide +kernel

theorem isNumeric_eq_true_iff {cs : List Char} :
    Labels.isNumeric cs = true ↔ DashesAndDigits cs := by
  unfold Labels.isNumeric
  dsimp only
  rw [Bool.and_eq_true, List.all_eq_true]
  constructor
  · rintro ⟨hne, hall⟩
    refine ⟨(cs.takeWhile (· == '-')).length, cs.dropWhile (· == '-'), ?_, by simpa using hne, hall⟩
    have hdashes : cs.takeWhile (· == '-') =
        List.replicate (cs.takeWhile (· == '-')).length '-' :=
      List.eq_replicate_iff.2 ⟨rfl, fun c hc => by
        simpa using List.all_eq_true.1 List.all_takeWhile c hc⟩
    rw [← hdashes, List.takeWhile_append_dropWhile]
  · rintro ⟨k, ds, rfl, hne, hall⟩
    have hdrop : (List.replicate k '-' ++ ds).dropWhile (· == '-') = ds := by
      rw [List.dropWhile_append_of_pos fun c hc => by simp [List.eq_of_mem_replicate hc]]
      refine dropWhile_of_head fun c hc => ?_
      rw [beq_eq_false_iff_ne]
      rintro rfl
      have hdigit := hall '-' (List.mem_of_mem_head? hc)
      rw [isDigitLike_dash] at hdigit
      cases hdigit
    rw [hdrop]
    exact ⟨by simpa using hne, hall⟩

theorem textToInt_eq_ok_iff {cs : List Char} {n : Int} :
    Scalar.textToInt cs = .ok n ↔ Number.readInt cs = .ok n := by
  unfold Scalar.textToInt
  split
  · rename_i hread
    rw [hread, Except.ok.injEq, Except.ok.injEq]
  · rename_i hread
    rw [hread]
    exact ⟨fun h => (by cases h), fun h => (by cases h)⟩
  · rename_i hread
    rw [hread]
    exact ⟨fun h => (by cases h), fun h => (by cases h)⟩

namespace Labels

variable {labels : Labels} {w cs : List Char} {o : Operand}

theorem resolveTarget_eq_ok_iff : labels.resolveTarget cs = .ok o ↔
    (DashesAndDigits cs ∧ ∃ n, Number.readInt cs = .ok n ∧ o = .index n) ∨
      ¬ DashesAndDigits cs ∧ ∃ k : Nat, labels.index? cs = some k ∧ o = .index k := by
  unfold resolveTarget
  by_cases hnum : DashesAndDigits cs
  · rw [if_pos (isNumeric_eq_true_iff.2 hnum)]
    simp only [hnum, true_and, not_true_eq_false, false_and, or_false, ← textToInt_eq_ok_iff]
    cases Scalar.textToInt cs with
    | ok n => simp [eq_comm]
    | error e => simp
  · rw [if_neg fun h => hnum (isNumeric_eq_true_iff.1 h)]
    simp only [hnum, false_and, not_false_eq_true, true_and, false_or]
    cases labels.index? cs with
    | some k => simp [eq_comm]
    | none => simp

/-- The literal of a number is what follows a hash sign, or the whole word. -/
theorem literal_iff {literal : List Char} :
    (w = '#' :: literal ∨ w.head? ≠ some '#' ∧ w = literal) ↔
      literal = if w.head? == some '#' then w.tail else w := by
  cases w with
  | nil => simp
  | cons c w =>
    by_cases hc : c = '#'
    · subst hc
      simpa using eq_comm
    · simpa [hc] using eq_comm

theorem resolveNumber_eq_ok_iff : resolveNumber w = .ok o ↔
    ∃ literal x, (w = '#' :: literal ∨ w.head? ≠ some '#' ∧ w = literal) ∧
      Number.readReal? literal = some x ∧ o = .number x := by
  simp only [literal_iff]
  unfold resolveNumber
  dsimp only
  generalize (if w.head? == some '#' then w.tail else w) = literal
  cases hread : Number.readReal? literal with
  | some x => simp [hread, eq_comm]
  | none => simp [hread]

theorem not_nothing_of_spelled {r : Register} (h : r.Spelled w) : w ≠ ['_'] := by
  rintro rfl
  rcases h with h | h <;> cases r <;> cases h

theorem resolve_target (labels : Labels) (cs : List Char) :
    labels.resolve ('@' :: cs) = labels.resolveTarget cs := by
  have hregister : ∀ r : Register, ¬ r.Spelled ('@' :: cs) := by
    rintro r (h | h) <;> cases r <;> cases h
  unfold resolve
  rw [if_neg (by simp), Register.ofName?_upper_eq_none_iff.2 hregister]
  rfl

theorem resolve_of_bare (h : Bare w) :
    labels.resolve w = (labels.index? w).elim (resolveNumber w) fun k => .ok (.index k) := by
  unfold resolve
  rw [if_neg h.not_nothing, Register.ofName?_upper_eq_none_iff.2 h.not_register]
  dsimp only
  rw [if_neg (by simpa using h.not_target)]
  cases labels.index? w <;> rfl

theorem resolve_of_spelled {r : Register} (h : r.Spelled w) : labels.resolve w = .ok (.register r) := by
  unfold resolve
  rw [if_neg (not_nothing_of_spelled h), Register.ofName?_upper_eq_some_iff.2 h]

/-- **Reading a word gives what it means.** -/
theorem resolve_eq_ok_iff : labels.resolve w = .ok o ↔
    Means (fun name k => labels.index? name = some k) w o := by
  constructor
  · intro h
    rcases word_cases w with rfl | ⟨r, hr⟩ | ⟨cs, rfl⟩ | hbare
    · cases h
      exact .nothing
    · rw [resolve_of_spelled hr] at h
      cases h
      exact .register hr
    · rw [resolve_target] at h
      rcases resolveTarget_eq_ok_iff.1 h with ⟨hnum, n, hn, rfl⟩ | ⟨hnum, k, hk, rfl⟩
      · exact .target hnum hn
      · exact .targetLabel hnum hk
    · rw [resolve_of_bare hbare] at h
      cases hk : labels.index? w with
      | some k =>
        rw [hk] at h
        cases h
        exact .label hbare hk
      | none =>
        rw [hk] at h
        obtain ⟨literal, x, hliteral, hx, rfl⟩ := resolveNumber_eq_ok_iff.1 h
        exact .number hbare (by simp [hk]) hliteral hx
  · intro h
    cases h with
    | nothing => rfl
    | register hr => exact resolve_of_spelled hr
    | target hnum hn =>
      rw [resolve_target]
      exact resolveTarget_eq_ok_iff.2 (.inl ⟨hnum, _, hn, rfl⟩)
    | targetLabel hnum hk =>
      rw [resolve_target]
      exact resolveTarget_eq_ok_iff.2 (.inr ⟨hnum, _, hk, rfl⟩)
    | label hw hk => simp only [resolve_of_bare hw, hk, Option.elim_some]
    | number hw hk hliteral hx =>
      simp only [resolve_of_bare hw, Option.eq_none_iff_forall_ne_some.2 hk, Option.elim_none]
      exact resolveNumber_eq_ok_iff.2 ⟨_, _, hliteral, hx, rfl⟩

end Labels

/-! ## Texts -/

/-- What the lines of a text say, one after the other. -/
def Reads (text : List Char) (ss : List (Option Statement)) : Prop :=
  List.Forall₂ (fun l s => Says (Statement.code l) s) (lines text) ss

/-- The instruction lines, in order. -/
def instructionLines (ss : List (Option Statement)) : List (List Char × List (List Char)) :=
  ss.filterMap (·.bind (·.instruction?))

/-- The labels that lines define, in order. -/
def definedLabels (ss : List (Option Statement)) : List (List Char) :=
  ss.filterMap (·.bind (·.label?))

@[simp] theorem definedLabels_nil : definedLabels [] = [] := rfl

@[simp] theorem definedLabels_none (ss : List (Option Statement)) :
    definedLabels (none :: ss) = definedLabels ss := rfl

@[simp] theorem definedLabels_label (name : List Char) (ss : List (Option Statement)) :
    definedLabels (some (.label name) :: ss) = name :: definedLabels ss := rfl

@[simp] theorem definedLabels_instruction (op : List Char) (words : List (List Char))
    (ss : List (Option Statement)) :
    definedLabels (some (.instruction op words) :: ss) = definedLabels ss := rfl

@[simp] theorem instructionLines_nil : instructionLines [] = [] := rfl

@[simp] theorem instructionLines_none (ss : List (Option Statement)) :
    instructionLines (none :: ss) = instructionLines ss := rfl

@[simp] theorem instructionLines_label (name : List Char) (ss : List (Option Statement)) :
    instructionLines (some (.label name) :: ss) = instructionLines ss := rfl

@[simp] theorem instructionLines_instruction (op : List Char) (words : List (List Char))
    (ss : List (Option Statement)) :
    instructionLines (some (.instruction op words) :: ss) = (op, words) :: instructionLines ss :=
  rfl

/-- The index of a label: the number of instruction lines above the line that defines it. -/
def LabelIndex (ss : List (Option Statement)) (name : List Char) (k : Nat) : Prop :=
  ∃ i : Nat, ss[i]? = some (some (.label name)) ∧ k = (instructionLines (ss.take i)).length

/-- The instruction of an operator's name and its words: the words mean its operands, those left out
are absent, and a jump has an index among them. -/
def Denotes (index : List Char → Nat → Prop) (s : List Char × List (List Char))
    (ins : Instruction) : Prop :=
  ∃ op operands, op.name = s.1 ∧ List.Forall₂ (Means index) s.2 operands ∧
    ins = Instruction.ofOperands op operands ∧
    (op.isJump = true → ins.src.kind = .index ∨ ins.dst.kind = .index)

/-- What the lines of a program must say. -/
structure Acceptable (ss : List (Option Statement)) : Prop where
  /-- No label is defined twice. -/
  labels : (definedLabels ss).Nodup
  /-- Every instruction names an operator. -/
  operators : ∀ s ∈ instructionLines ss, ∃ op : Operator, op.name = s.1
  /-- Every word means something. -/
  operands : ∀ s ∈ instructionLines ss, ∀ w ∈ s.2, ∃ o, Means (LabelIndex ss) w o
  /-- Every jump has an index among its operands. -/
  targets : ∀ s ∈ instructionLines ss, ∀ op : Operator, op.name = s.1 → op.isJump = true →
    ∃ w ∈ s.2, ∃ n, Means (LabelIndex ss) w (.index n)

theorem Operator.ofName?_eq_some_iff {cs : List Char} {op : Operator} :
    Operator.ofName? cs = some op ↔ op.name = cs := by
  constructor
  · intro h
    have hname := List.find?_some h
    simpa using hname
  · rintro rfl
    exact op.ofName?_name

theorem Instruction.not_lacksTarget_ofOperands_iff {op : Operator} {operands : List Operand} :
    ¬ (Instruction.ofOperands op operands).LacksTarget ↔
      (op.isJump = true → (Instruction.ofOperands op operands).src.kind = .index ∨
        (Instruction.ofOperands op operands).dst.kind = .index) := by
  constructor
  · intro h hjump
    by_contra hnone
    rw [not_or] at hnone
    exact h ⟨op, rfl, hjump, hnone⟩
  · rintro h ⟨op', heq, hjump, hsrc, hdst⟩
    cases heq
    rcases h hjump with h | h
    · exact hsrc h
    · exact hdst h

/-- **Assembling an instruction gives what it denotes.** -/
theorem assemble_instruction_eq_ok_iff {labels : Labels} {s : List Char × List (List Char)}
    {ins : Instruction} :
    Instruction.assemble labels s.1 s.2 = .ok ins ↔
      Denotes (fun name k => labels.index? name = some k) s ins := by
  rw [Instruction.assemble_eq_ok_iff]
  unfold Denotes
  refine exists_congr fun op => exists_congr fun operands => ?_
  simp only [Operator.ofName?_eq_some_iff, Labels.resolve_eq_ok_iff]
  refine and_congr_right fun _ => and_congr_right fun _ => and_congr_right ?_
  rintro rfl
  exact Instruction.not_lacksTarget_ofOperands_iff

theorem index?_located_eq {ss : List (Option Statement)} (h : (definedLabels ss).Nodup) :
    (fun name k => (Labels.located 0 (ss.filterMap id)).index? name = some k) = LabelIndex ss := by
  funext name k
  rw [Labels.index?_eq_some_iff, Labels.mem_located_iff]
  · simp only [Nat.zero_add]
    rfl
  · rw [Labels.map_fst_located, List.filterMap_filterMap]
    exact h

/-- **A text is assembled to the program it denotes.** -/
theorem assemble_eq_ok_iff_denotes {text : List Char} {p : Program} :
    Program.assemble text = .ok p ↔ ∃ ss, Reads text ss ∧ (definedLabels ss).Nodup ∧
      List.Forall₂ (Denotes (LabelIndex ss)) (instructionLines ss) p.toList := by
  rw [Program.assemble_eq_ok_iff]
  refine exists_congr fun ss => ?_
  simp only [ofLine_eq_ok_iff, assemble_instruction_eq_ok_iff, Labels.map_fst_located,
    List.filterMap_filterMap]
  refine and_congr_right fun _ => and_congr_right fun hnodup => ?_
  rw [index?_located_eq hnodup]
  rfl

theorem Operand.eq_index_of_kind {o : Operand} (h : o.kind = .index) : ∃ n, o = .index n := by
  cases o with
  | index n => exact ⟨n, rfl⟩
  | _ => cases h

theorem Operand.mem_of_getD_kind {operands : List Operand} {i : Nat}
    (h : (operands[i]?.getD .absent).kind = .index) : ∃ n, Operand.index n ∈ operands := by
  cases ho : operands[i]? with
  | none => rw [ho] at h; cases h
  | some o =>
    rw [ho] at h
    obtain ⟨n, rfl⟩ := Operand.eq_index_of_kind h
    exact ⟨n, List.mem_of_getElem? ho⟩

/-- Of at most two operands an index is the source or the destination. -/
theorem Instruction.kind_ofOperands {op : Operator} {operands : List Operand} {n : Int}
    (hlen : operands.length ≤ 2) (h : Operand.index n ∈ operands) :
    (Instruction.ofOperands op operands).src.kind = .index ∨
      (Instruction.ofOperands op operands).dst.kind = .index := by
  match operands, hlen, h with
  | [a], _, h =>
    rw [List.mem_singleton] at h
    exact .inl (by rw [← h]; rfl)
  | [a, b], _, h =>
    rcases List.mem_cons.1 h with h | h
    · exact .inl (by rw [← h]; rfl)
    · rw [List.mem_singleton] at h
      exact .inr (by rw [← h]; rfl)

/-- One of the operands that at most two words mean is an index if and only if one of the words
means one. -/
theorem Instruction.kind_ofOperands_iff {labels : Labels} {index : List Char → Nat → Prop}
    (hindex : (fun name k => labels.index? name = some k) = index) {op : Operator}
    {words : List (List Char)} {operands : List Operand} (hlen : words.length ≤ 2)
    (hwords : List.Forall₂ (Means index) words operands) :
    ((ofOperands op operands).src.kind = .index ∨ (ofOperands op operands).dst.kind = .index) ↔
      ∃ w ∈ words, ∃ n, Means index w (.index n) := by
  constructor
  · intro h
    have hmem : ∃ n, Operand.index n ∈ operands := by
      rcases h with h | h
      · exact Operand.mem_of_getD_kind h
      · exact Operand.mem_of_getD_kind h
    obtain ⟨n, hn⟩ := hmem
    obtain ⟨w, hw, hmeans⟩ := exists_of_forall₂ hwords hn
    exact ⟨w, hw, n, hmeans⟩
  · rintro ⟨w, hw, n, hmeans⟩
    obtain ⟨o, ho, hmeans'⟩ := exists_of_forall₂ (List.Forall₂.flip hwords) hw
    -- a word means one operand only
    have heq : o = .index n := by
      subst hindex
      have h1 := Labels.resolve_eq_ok_iff.2 hmeans
      rw [Labels.resolve_eq_ok_iff.2 hmeans'] at h1
      exact Except.ok.inj h1
    exact kind_ofOperands (hwords.length_eq ▸ hlen) (heq ▸ ho)

/-- An instruction line of at most three words denotes something if and only if its name, its words
and, for a jump, its target are right. -/
theorem exists_denotes_iff {labels : Labels} {s : List Char × List (List Char)}
    (hlen : s.2.length ≤ 2) {index : List Char → Nat → Prop}
    (hindex : (fun name k => labels.index? name = some k) = index) :
    (∃ ins, Denotes index s ins) ↔ (∃ op : Operator, op.name = s.1) ∧
      (∀ w ∈ s.2, ∃ o, Means index w o) ∧
      ∀ op : Operator, op.name = s.1 → op.isJump = true →
        ∃ w ∈ s.2, ∃ n, Means index w (.index n) := by
  constructor
  · rintro ⟨_, op, operands, hname, hwords, rfl, hjump⟩
    refine ⟨⟨op, hname⟩, exists_forall₂_iff.1 ⟨operands, hwords⟩, ?_⟩
    intro op' hname' hop'
    obtain rfl : op' = op := by
      have hop := Operator.ofName?_eq_some_iff.2 hname
      rw [Operator.ofName?_eq_some_iff.2 hname'] at hop
      exact Option.some.inj hop
    exact (Instruction.kind_ofOperands_iff hindex hlen hwords).1 (hjump hop')
  · rintro ⟨⟨op, hname⟩, hwords, hjump⟩
    obtain ⟨operands, hoperands⟩ := exists_forall₂_iff.2 hwords
    exact ⟨_, op, operands, hname, hoperands, rfl, fun hop =>
      (Instruction.kind_ofOperands_iff hindex hlen hoperands).2 (hjump op hname hop)⟩

/-- The lines of a text have no more than three words. -/
theorem length_operands_le {text : List Char} {ss : List (Option Statement)} (h : Reads text ss)
    {s : List Char × List (List Char)} (hs : s ∈ instructionLines ss) : s.2.length ≤ 2 := by
  obtain ⟨o, ho, hinstr⟩ := List.mem_filterMap.1 hs
  obtain ⟨l, -, hsays⟩ := exists_of_forall₂ h ho
  generalize Statement.code l = cs at hsays
  cases hsays with
  | blank => cases hinstr
  | label => cases hinstr
  | instruction _ _ hlen => cases hinstr; exact hlen

/-- **The assembler meets the language.** A text is assembled to a program if and only if that
program has one instruction for each instruction line, in order, and each is what its line denotes;
and it is assembled to some program if and only if its lines can be read and what they say is
acceptable. -/
theorem assemble_meets_language (text : List Char) :
    (∀ p, Program.assemble text = .ok p ↔ ∃ ss, Reads text ss ∧ (definedLabels ss).Nodup ∧
      List.Forall₂ (Denotes (LabelIndex ss)) (instructionLines ss) p.toList) ∧
    ((∃ p, Program.assemble text = .ok p) ↔ ∃ ss, Reads text ss ∧ Acceptable ss) := by
  refine ⟨fun p => assemble_eq_ok_iff_denotes, ?_⟩
  simp only [assemble_eq_ok_iff_denotes]
  constructor
  · rintro ⟨p, ss, hreads, hnodup, hcode⟩
    have hlines := exists_forall₂_iff.1 ⟨p.toList, hcode⟩
    have hline := fun s hs => (exists_denotes_iff (length_operands_le hreads hs)
      (index?_located_eq hnodup)).1 (hlines s hs)
    exact ⟨ss, hreads, hnodup, fun s hs => (hline s hs).1, fun s hs => (hline s hs).2.1,
      fun s hs => (hline s hs).2.2⟩
  · rintro ⟨ss, hreads, hss⟩
    obtain ⟨code, hcode⟩ := exists_forall₂_iff.2 fun s hs =>
      (exists_denotes_iff (length_operands_le hreads hs) (index?_located_eq hss.labels)).2
        ⟨hss.operators s hs, hss.operands s hs, hss.targets s hs⟩
    exact ⟨code.toArray, ss, hreads, hss.labels, hcode⟩

/-- What a line would say if a colon at the end counted only where it defines a label. -/
def SaysLoosely (cs : List Char) (s : Option Statement) : Prop :=
  Says cs s ∨ (∀ name, ¬ Says cs (some (.label name))) ∧ ∃ op operands,
    Parts isSeparator cs (op :: operands) ∧ operands.length ≤ 2 ∧
      s = some (.instruction (upper op) operands)

theorem Statement.ofLine_jump_colon :
    ofLine "JMP x:".toList = .error (.invalidLabel "JMP x:".toList) := by
  decide +kernel

theorem saysLoosely_jump_colon : SaysLoosely (Statement.code "JMP x:".toList)
    (some (.instruction "JMP".toList ["x:".toList])) := by
  have hwords : words isSeparator (Statement.code "JMP x:".toList) =
      ["JMP".toList, "x:".toList] := by
    decide +kernel
  refine .inr ⟨fun name hname => ?_, ?_⟩
  · rw [← ofLine_eq_ok_iff, Statement.ofLine_jump_colon] at hname
    cases hname
  · exact ⟨_, _, words_eq_iff.1 hwords, by decide, by rw [upper_of_lt (by simp)]⟩

/-- A line of two words that ends in a colon is rejected, although its last word is a label. -/
theorem colon_at_end_rejected :
    ¬ ∀ text ss, List.Forall₂ (fun l s => SaysLoosely (Statement.code l) s) (lines text) ss →
      Acceptable ss → ∃ p, Program.assemble text = .ok p := by
  intro hclaim
  have hlines : lines "x::\nJMP x:".toList = ["x::".toList, "JMP x:".toList] := by decide +kernel
  have hlabel : Means (LabelIndex [some (.label "x:".toList),
      some (.instruction "JMP".toList ["x:".toList])]) "x:".toList (.index 0) := by
    refine @Means.label _ _ 0 ⟨by decide, ?_, by decide⟩ ⟨0, rfl, rfl⟩
    rintro r (h | h) <;> cases r <;> cases h
  obtain ⟨p, hp⟩ := hclaim "x::\nJMP x:".toList
    [some (.label "x:".toList), some (.instruction "JMP".toList ["x:".toList])] (by
      rw [hlines]
      exact .cons (.inl (ofLine_eq_ok_iff.1 (by decide +kernel)))
        (.cons saysLoosely_jump_colon .nil))
    { labels := by decide
      operators := by
        rintro s (_ | ⟨_, ⟨⟩⟩)
        exact ⟨.jmp, rfl⟩
      operands := by
        rintro s (_ | ⟨_, ⟨⟩⟩) w (_ | ⟨_, ⟨⟩⟩)
        exact ⟨_, hlabel⟩
      targets := by
        rintro s (_ | ⟨_, ⟨⟩⟩) op - -
        exact ⟨_, List.mem_cons_self, 0, hlabel⟩ }
  obtain ⟨ss, hss, -⟩ := Program.assemble_eq_ok_iff.1 hp
  rw [hlines] at hss
  cases hss with
  | cons _ hss =>
    cases hss with
    | cons h _ =>
      rw [Statement.ofLine_jump_colon] at h
      cases h

end RegisterMachine
