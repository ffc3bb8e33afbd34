import Mathlib.Data.List.Forall2
import Mathlib.Data.List.Nodup
import RegisterMachine.Assembly.Program

/-!
# What assembling a text comes to

The assembler reads the lines, collects the labels and reads the operands, and stops at the first
thing that is wrong. When nothing is wrong the passes fall apart into facts about single lines.

* `Statement.label?`, `Statement.instruction?`: the two kinds of statements.
* `Row.numbered`: the rows of what lines say, each numbered by the line it stands in.
* `Labels.located`: the labels of statements, each with the number of instructions above it.

Principal results: `Labels.collect_eq_ok_iff` (labels are collected if and only if no name comes
twice), `Labels.mem_located_iff` (the index of a label is the number of instructions above it),
`Instruction.assemble_eq_ok_iff` and `Program.assemble_eq_ok_iff` (a text is a program if and only
if each of its lines can be read, its labels differ and each instruction can be assembled).
-/

set_option autoImplicit false

namespace RegisterMachine

open Text

/-! ## Results of several readings -/

/-- A list is read if and only if each of its members is. -/
theorem mapM_eq_ok_iff {α β ε : Type} {f : α → Except ε β} {as : List α} {bs : List β} :
    as.mapM f = .ok bs ↔ List.Forall₂ (fun a b => f a = .ok b) as bs := by
  induction as generalizing bs with
  | nil =>
    rw [List.mapM_nil, List.forall₂_nil_left_iff]
    exact ⟨fun h => by cases h; rfl, fun h => by rw [h]; rfl⟩
  | cons a as ih =>
    rw [List.mapM_cons, List.forall₂_cons_left_iff]
    constructor
    · intro h
      cases ha : f a with
      | error e => rw [ha] at h; cases h
      | ok b =>
        cases hs : as.mapM f with
        | error e => rw [ha, hs] at h; cases h
        | ok bs' =>
          rw [ha, hs] at h
          cases h
          exact ⟨b, bs', rfl, ih.1 hs, rfl⟩
    · rintro ⟨b, bs', ha, hs, rfl⟩
      rw [ha, ih.2 hs]
      rfl

/-- A list is refused with the error of its first member that is. -/
theorem mapM_eq_error_iff {α β ε : Type} {f : α → Except ε β} {as : List α} {e : ε} :
    as.mapM f = .error e ↔ ∃ done a rest, as = done ++ a :: rest ∧
      (∀ a' ∈ done, ∃ b, f a' = .ok b) ∧ f a = .error e := by
  induction as with
  | nil =>
    constructor
    · intro h
      cases h
    · rintro ⟨done, a, rest, h, -⟩
      cases done <;> cases h
  | cons a as ih =>
    rw [List.mapM_cons]
    constructor
    · intro h
      cases ha : f a with
      | error e' =>
        rw [ha] at h
        cases h
        exact ⟨[], a, as, rfl, by simp, ha⟩
      | ok b =>
        cases hs : as.mapM f with
        | error e' =>
          rw [ha, hs] at h
          cases h
          obtain ⟨done, a', rest, rfl, hdone, ha'⟩ := ih.1 hs
          exact ⟨a :: done, a', rest, rfl, List.forall_mem_cons.2 ⟨⟨b, ha⟩, hdone⟩, ha'⟩
        | ok bs => rw [ha, hs] at h; cases h
    · rintro ⟨done, a', rest, heq, hdone, ha'⟩
      cases done with
      | nil =>
        cases heq
        rw [ha']
        rfl
      | cons a done =>
        cases heq
        obtain ⟨⟨b, hb⟩, hdone⟩ := List.forall_mem_cons.1 hdone
        rw [hb, ih.2 ⟨done, a', rest, rfl, hdone, ha'⟩]
        rfl

theorem map_eq_ok_iff {α β ε : Type} {f : α → β} {x : Except ε α} {b : β} :
    x.map f = .ok b ↔ ∃ a, x = .ok a ∧ f a = b := by
  cases x <;> simp [Except.map]

theorem map_eq_error_iff {α β ε : Type} {f : α → β} {x : Except ε α} {e : ε} :
    x.map f = .error e ↔ x = .error e := by
  cases x <;> simp [Except.map]

theorem exists_of_forall₂ {α β : Type} {R : α → β → Prop} {as : List α} {bs : List β} {b : β}
    (h : List.Forall₂ R as bs) (hb : b ∈ bs) : ∃ a ∈ as, R a b := by
  induction h with
  | nil => cases hb
  | cons hab _ ih =>
    rcases List.mem_cons.1 hb with rfl | hb
    · exact ⟨_, List.mem_cons_self, hab⟩
    · obtain ⟨a, ha, hr⟩ := ih hb
      exact ⟨a, List.mem_cons_of_mem _ ha, hr⟩

theorem exists_forall₂_iff {α β : Type} {R : α → β → Prop} {as : List α} :
    (∃ bs, List.Forall₂ R as bs) ↔ ∀ a ∈ as, ∃ b, R a b := by
  induction as with
  | nil => simp
  | cons a as ih =>
    rw [List.forall_mem_cons, ← ih]
    constructor
    · rintro ⟨bs, hbs⟩
      cases hbs with
      | cons hb hbs => exact ⟨⟨_, hb⟩, ⟨_, hbs⟩⟩
    · rintro ⟨⟨b, hb⟩, ⟨bs, hbs⟩⟩
      exact ⟨b :: bs, .cons hb hbs⟩

/-! ## Statements -/

namespace Statement

/-- The label that a statement defines. -/
def label? : Statement → Option (List Char)
  | .label name => some name
  | .instruction .. => none

/-- The operator's name and the operands' words of an instruction. -/
def instruction? : Statement → Option (List Char × List (List Char))
  | .label _ => none
  | .instruction op operands => some (op, operands)

end Statement

/-! ## Rows -/

namespace Row

/-- The rows of what lines say, the first of them numbered `n`. -/
def numbered (n : Nat) : List (Option Statement) → List Row
  | [] => []
  | none :: ss => numbered (n + 1) ss
  | some s :: ss => ⟨n, s⟩ :: numbered (n + 1) ss

theorem map_statement_numbered (n : Nat) (ss : List (Option Statement)) :
    (numbered n ss).map (·.statement) = ss.filterMap id := by
  induction ss generalizing n with
  | nil => rfl
  | cons s ss ih =>
    cases s with
    | none => exact ih (n + 1)
    | some s => exact congrArg (s :: ·) (ih (n + 1))

/-- **Lines are read into the rows of what they say.** -/
theorem ofLines_eq_ok_iff_numbered {n : Nat} {ls : List (List Char)} {rows : List Row} :
    ofLines n ls = .ok rows ↔
      ∃ ss, List.Forall₂ (fun l s => Statement.ofLine l = .ok s) ls ss ∧ rows = numbered n ss := by
  induction ls generalizing n rows with
  | nil =>
    simp only [List.forall₂_nil_left_iff, exists_eq_left]
    exact ⟨fun h => (Except.ok.inj h).symm, fun h => congrArg Except.ok h.symm⟩
  | cons l ls ih =>
    unfold ofLines
    constructor
    · intro h
      split at h
      · cases h
      · rename_i hl
        obtain ⟨ss, hss, rfl⟩ := ih.1 h
        exact ⟨none :: ss, .cons hl hss, rfl⟩
      · rename_i s hl
        obtain ⟨rest, hrest, rfl⟩ := map_eq_ok_iff.1 h
        obtain ⟨ss, hss, rfl⟩ := ih.1 hrest
        exact ⟨some s :: ss, .cons hl hss, rfl⟩
    · rintro ⟨ss, hss, rfl⟩
      cases hss with
      | @cons _ s _ ss hl hss =>
        have hrest : ofLines (n + 1) ls = .ok (numbered (n + 1) ss) := ih.2 ⟨ss, hss, rfl⟩
        rw [hl]
        cases s with
        | none => exact hrest
        | some s => exact map_eq_ok_iff.2 ⟨_, hrest, rfl⟩

theorem ofLines_eq_ok_iff {n : Nat} {ls : List (List Char)} {stmts : List Statement} :
    (∃ rows, ofLines n ls = .ok rows ∧ rows.map (·.statement) = stmts) ↔
      ∃ ss, List.Forall₂ (fun l s => Statement.ofLine l = .ok s) ls ss ∧
        ss.filterMap id = stmts := by
  simp only [ofLines_eq_ok_iff_numbered]
  constructor
  · rintro ⟨_, ⟨ss, hss, rfl⟩, rfl⟩
    exact ⟨ss, hss, (map_statement_numbered n ss).symm⟩
  · rintro ⟨ss, hss, rfl⟩
    exact ⟨_, ⟨ss, hss, rfl⟩, map_statement_numbered n ss⟩

end Row

/-! ## Labels -/

namespace Labels

/-- The labels of statements that come after `pc` instructions, each with the number of
instructions above it. -/
def located (pc : Nat) : List Statement → Labels
  | [] => []
  | .label name :: stmts => (name, pc) :: located pc stmts
  | .instruction .. :: stmts => located (pc + 1) stmts

theorem isSome_index?_iff {labels : Labels} {name : List Char} :
    (labels.index? name).isSome = true ↔ name ∈ labels.map (·.1) := by
  simp [index?]

theorem nodup_concat {labels : Labels} {name : List Char} {k : Nat}
    (h : (labels.map (·.1)).Nodup) (hnew : name ∉ labels.map (·.1)) :
    ((labels ++ [(name, k)]).map (·.1)).Nodup := by
  rw [List.map_append, List.nodup_append]
  refine ⟨h, List.nodup_singleton _, ?_⟩
  rintro a ha b hb rfl
  rw [List.map_singleton, List.mem_singleton] at hb
  exact hnew ((show a = name from hb) ▸ ha)

/-- Labels are added to those above if and only if no name comes twice. -/
theorem collectFrom_eq_ok_iff {above labels : Labels} {pc : Nat} {rows : List Row}
    (h : (above.map (·.1)).Nodup) :
    collectFrom above pc rows = .ok labels ↔
      labels = above ++ located pc (rows.map (·.statement)) ∧ (labels.map (·.1)).Nodup := by
  induction rows generalizing above pc with
  | nil =>
    simp only [collectFrom, List.map_nil, located, List.append_nil, Except.ok.injEq]
    exact ⟨fun heq => ⟨heq.symm, heq ▸ h⟩, fun heq => heq.1.symm⟩
  | cons row rows ih =>
    obtain ⟨line, stmt⟩ := row
    cases stmt with
    | instruction op operands => exact ih h
    | label name =>
      have hassoc : above ++ located pc (.label name :: rows.map (·.statement)) =
          above ++ [(name, pc)] ++ located pc (rows.map (·.statement)) := by
        rw [List.append_assoc]
        rfl
      rw [List.map_cons, hassoc]
      unfold collectFrom
      split
      · rename_i hdup
        rw [isSome_index?_iff] at hdup
        refine ⟨fun herr => (by cases herr), fun hok => ?_⟩
        -- the name stands among the labels above and again behind them
        have hnodup := hok.2
        rw [hok.1, List.append_assoc, List.map_append, List.nodup_append] at hnodup
        exact absurd rfl (hnodup.2.2 name hdup name List.mem_cons_self)
      · rename_i hnew
        rw [isSome_index?_iff] at hnew
        exact ih (nodup_concat h hnew)

/-- **Labels are collected if and only if no name comes twice.** -/
theorem collect_eq_ok_iff {labels : Labels} {rows : List Row} :
    collect rows = .ok labels ↔
      labels = located 0 (rows.map (·.statement)) ∧ (labels.map (·.1)).Nodup :=
  collectFrom_eq_ok_iff List.nodup_nil

theorem map_fst_located (pc : Nat) (stmts : List Statement) :
    (located pc stmts).map (·.1) = stmts.filterMap (·.label?) := by
  induction stmts generalizing pc with
  | nil => rfl
  | cons stmt stmts ih =>
    cases stmt with
    | label name => exact congrArg (name :: ·) (ih pc)
    | instruction op operands => exact ih (pc + 1)

/-- **The index of a label is the number of instructions above it.** Lines may be blank; the label
stands in line `i`. -/
theorem mem_located_iff {pc k : Nat} {name : List Char} {ss : List (Option Statement)} :
    (name, k) ∈ located pc (ss.filterMap id) ↔ ∃ i : Nat, ss[i]? = some (some (.label name)) ∧
      k = pc + ((ss.take i).filterMap (·.bind (·.instruction?))).length := by
  induction ss generalizing pc with
  | nil => simp [located]
  | cons s ss ih =>
    -- the label stands either first or in a later line, counted from the rest
    rw [← Nat.or_exists_add_one]
    cases s with
    | none =>
      rw [List.filterMap_cons_none rfl, ih]
      simp
    | some stmt =>
      rw [show (some stmt :: ss).filterMap id = stmt :: ss.filterMap id from rfl]
      cases stmt with
      | label name' =>
        rw [located, List.mem_cons, ih]
        simp [Statement.instruction?, eq_comm]
      | instruction op operands =>
        rw [located, ih]
        simp [Statement.instruction?, Nat.add_assoc, Nat.add_comm 1]

theorem le_length_of_mem_located {k : Nat} {name : List Char} {ss : List (Option Statement)}
    (h : (name, k) ∈ located 0 (ss.filterMap id)) : k ≤ ss.length := by
  obtain ⟨i, -, rfl⟩ := mem_located_iff.1 h
  rw [Nat.zero_add]
  exact Nat.le_trans (List.length_filterMap_le _ _) (List.length_take_le' i ss)

theorem index?_eq_some_iff {labels : Labels} {name : List Char} {k : Nat}
    (h : (labels.map (·.1)).Nodup) : labels.index? name = some k ↔ (name, k) ∈ labels := by
  induction labels with
  | nil => simp [index?]
  | cons entry labels ih =>
    obtain ⟨name', k'⟩ := entry
    rw [List.map_cons, List.nodup_cons] at h
    rw [index?, List.lookup_cons, List.mem_cons]
    by_cases hname : name = name'
    · subst hname
      have habsent : (name, k) ∉ labels := fun hmem => h.1 (List.mem_map.2 ⟨_, hmem, rfl⟩)
      simp [habsent, eq_comm]
    · rw [beq_false_of_ne hname]
      simpa [hname, index?] using ih h.2

end Labels

/-! ## Instructions -/

/-- The instruction that an operator and its operands make up, absent ones filled in. -/
def Instruction.ofOperands (op : Operator) (operands : List Operand) : Instruction :=
  ⟨.known op, operands[0]?.getD .absent, operands[1]?.getD .absent⟩

/-- A jump without an index among its operands. -/
def Instruction.LacksTarget (ins : Instruction) : Prop :=
  ∃ op, ins.op = .known op ∧ op.isJump = true ∧ ins.src.kind ≠ .index ∧ ins.dst.kind ≠ .index

instance (ins : Instruction) : Decidable ins.LacksTarget :=
  match hop : ins.op with
  | .unknown _ => isFalse fun ⟨_, h, _⟩ => by rw [hop] at h; cases h
  | .known op =>
    decidable_of_iff (op.isJump = true ∧ ins.src.kind ≠ .index ∧ ins.dst.kind ≠ .index)
      ⟨fun h => ⟨op, hop, h⟩, fun ⟨_, h, hjump⟩ => by rw [hop] at h; cases h; exact hjump⟩

/-- An instruction whose words are operands is taken, unless it is a jump without an index. -/
theorem Instruction.assemble_of_operands {labels : Labels} {op : List Char}
    {words : List (List Char)} {operator : Operator} {operands : List Operand}
    (hop : Operator.ofName? op = some operator)
    (hws : List.Forall₂ (fun w o => labels.resolve w = .ok o) words operands) :
    ((ofOperands operator operands).LacksTarget →
      Instruction.assemble labels op words = .error (.cause (.missingTarget op))) ∧
    (¬ (ofOperands operator operands).LacksTarget →
      Instruction.assemble labels op words = .ok (ofOperands operator operands)) := by
  rw [← mapM_eq_ok_iff] at hws
  unfold Instruction.assemble
  rw [hop]
  simp only [hws]
  constructor
  · rintro ⟨_, heq, hjump⟩
    cases heq
    exact if_pos hjump
  · intro hjump
    refine if_neg fun h => hjump ⟨operator, rfl, h⟩

/-- **An instruction is assembled if and only if** its name is that of an operator, its words are
operands and, if it is a jump, one of them is an index. -/
theorem Instruction.assemble_eq_ok_iff {labels : Labels} {op : List Char} {words : List (List Char)}
    {ins : Instruction} :
    Instruction.assemble labels op words = .ok ins ↔ ∃ operator operands,
      Operator.ofName? op = some operator ∧
      List.Forall₂ (fun w o => labels.resolve w = .ok o) words operands ∧
      ins = ofOperands operator operands ∧ ¬ ins.LacksTarget := by
  constructor
  · intro h
    cases hop : Operator.ofName? op with
    | none => simp only [Instruction.assemble, hop] at h; cases h
    | some operator =>
      cases hws : words.mapM labels.resolve with
      | error e => simp only [Instruction.assemble, hop, hws] at h; cases h
      | ok operands =>
        have hws' := mapM_eq_ok_iff.1 hws
        obtain ⟨hlacks, hgives⟩ := assemble_of_operands hop hws'
        by_cases hjump : (ofOperands operator operands).LacksTarget
        · rw [hlacks hjump] at h
          cases h
        · rw [hgives hjump] at h
          cases h
          exact ⟨operator, operands, rfl, hws', rfl, hjump⟩
  · rintro ⟨operator, operands, hop, hws, rfl, hjump⟩
    exact (assemble_of_operands hop hws).2 hjump

/-- An instruction is refused for its operator, for the first of its words that is refused, or as a
jump without an index, in this order. -/
theorem Instruction.assemble_eq_error_iff {labels : Labels} {op : List Char}
    {words : List (List Char)} {e : WordError} :
    Instruction.assemble labels op words = .error e ↔
      (Operator.ofName? op = none ∧ e = .cause (.unknownOperator op)) ∨
      ∃ operator, Operator.ofName? op = some operator ∧
        (words.mapM labels.resolve = .error e ∨ ∃ operands,
          List.Forall₂ (fun w o => labels.resolve w = .ok o) words operands ∧
          (ofOperands operator operands).LacksTarget ∧ e = .cause (.missingTarget op)) := by
  cases hop : Operator.ofName? op with
  | none =>
    simp only [Instruction.assemble, hop]
    simp [eq_comm]
  | some operator =>
    simp only [reduceCtorEq, false_and, Option.some.injEq, exists_eq_left', false_or,
      ← mapM_eq_ok_iff]
    cases hws : words.mapM labels.resolve with
    | error e' =>
      simp only [Instruction.assemble, hop, hws]
      simp [bind, Except.bind]
    | ok operands =>
      obtain ⟨hlacks, hgives⟩ := assemble_of_operands hop (mapM_eq_ok_iff.1 hws)
      by_cases hjump : (ofOperands operator operands).LacksTarget
      · simp [hlacks hjump, hjump, eq_comm]
      · simp [hgives hjump, hjump]

/-! ## Programs -/

namespace Program

/-- The rows of instructions are assembled one by one. -/
theorem ofRows_eq_ok_iff {labels : Labels} {rows : List Row} {code : List Instruction} :
    ofRows labels rows = .ok code ↔
      List.Forall₂ (fun s ins => Instruction.assemble labels s.1 s.2 = .ok ins)
        ((rows.map (·.statement)).filterMap (·.instruction?)) code := by
  induction rows generalizing code with
  | nil =>
    rw [List.map_nil, List.filterMap_nil, List.forall₂_nil_left_iff]
    exact ⟨fun h => (by cases h; rfl), fun h => (by rw [h]; rfl)⟩
  | cons row rows ih =>
    obtain ⟨line, stmt⟩ := row
    cases stmt with
    | label name => exact ih
    | instruction op words =>
      rw [List.map_cons,
        show (Statement.instruction op words :: rows.map (·.statement)).filterMap (·.instruction?) =
          (op, words) :: (rows.map (·.statement)).filterMap (·.instruction?) from rfl,
        List.forall₂_cons_left_iff]
      unfold ofRows
      constructor
      · intro h
        split at h
        · cases h
        · rename_i ins hins
          obtain ⟨rest, hrest, rfl⟩ := map_eq_ok_iff.1 h
          exact ⟨ins, rest, hins, ih.1 hrest, rfl⟩
      · rintro ⟨ins, rest, hins, hrest, rfl⟩
        rw [hins, ih.2 hrest]
        rfl

theorem assemble_of_passes {text : List Char} {rows : List Row} {labels : Labels}
    (hrows : Row.parse text = .ok rows) (hlabels : Labels.collect rows = .ok labels) :
    assemble text = (ofRows labels rows).map (·.toArray) := by
  unfold assemble
  rw [hrows]
  show ((Labels.collect rows).mapError AssembleError.malformed >>= fun labels =>
    ofRows labels rows >>= fun code => pure code.toArray) = _
  rw [hlabels]
  show (ofRows labels rows >>= fun code => pure code.toArray) = _
  cases ofRows labels rows <;> rfl

theorem assemble_of_parse_error {text : List Char} {e : SyntaxError}
    (h : Row.parse text = .error e) : assemble text = .error (.malformed e) := by
  unfold assemble
  rw [h]
  rfl

theorem assemble_of_collect_error {text : List Char} {rows : List Row} {e : SyntaxError}
    (hrows : Row.parse text = .ok rows) (h : Labels.collect rows = .error e) :
    assemble text = .error (.malformed e) := by
  unfold assemble
  rw [hrows]
  show ((Labels.collect rows).mapError AssembleError.malformed >>= fun labels =>
    ofRows labels rows >>= fun code => pure code.toArray) = _
  rw [h]
  rfl

/-- An error found by evaluation: programs hold floating-point numbers, which cannot be compared by
deciding. -/
theorem assemble_eq_error {text : List Char} {e : AssembleError}
    (h : (match assemble text with
      | .error e' => decide (e' = e)
      | .ok _ => false) = true) : assemble text = .error e := by
  split at h
  · rename_i e' he
    rw [he, of_decide_eq_true h]
  · cases h

theorem passes_of_assemble {text : List Char} {p : Program} (h : assemble text = .ok p) :
    ∃ rows labels, Row.parse text = .ok rows ∧ Labels.collect rows = .ok labels := by
  cases hrows : Row.parse text with
  | error e => rw [assemble_of_parse_error hrows] at h; cases h
  | ok rows =>
    cases hlabels : Labels.collect rows with
    | error e => rw [assemble_of_collect_error hrows hlabels] at h; cases h
    | ok labels => exact ⟨rows, labels, rfl, hlabels⟩

/-- **A text is a program if and only if** each of its lines can be read, no label is defined twice
and each instruction can be assembled with those labels. -/
theorem assemble_eq_ok_iff {text : List Char} {p : Program} :
    assemble text = .ok p ↔ ∃ ss,
      List.Forall₂ (fun l s => Statement.ofLine l = .ok s) (lines text) ss ∧
      ((Labels.located 0 (ss.filterMap id)).map (·.1)).Nodup ∧
      List.Forall₂ (fun s ins =>
          Instruction.assemble (Labels.located 0 (ss.filterMap id)) s.1 s.2 = .ok ins)
        ((ss.filterMap id).filterMap (·.instruction?)) p.toList := by
  constructor
  · intro h
    obtain ⟨rows, labels, hrows, hlabels⟩ := passes_of_assemble h
    rw [assemble_of_passes hrows hlabels] at h
    obtain ⟨code, hcode, rfl⟩ := map_eq_ok_iff.1 h
    obtain ⟨ss, hss, hstmts⟩ := Row.ofLines_eq_ok_iff.1 ⟨rows, hrows, rfl⟩
    obtain ⟨rfl, hnodup⟩ := Labels.collect_eq_ok_iff.1 hlabels
    rw [ofRows_eq_ok_iff] at hcode
    rw [← hstmts] at hnodup hcode
    exact ⟨ss, hss, hnodup, hcode⟩
  · rintro ⟨ss, hss, hnodup, hcode⟩
    obtain ⟨rows, hrows, hstmts⟩ := Row.ofLines_eq_ok_iff.2 ⟨ss, hss, rfl⟩
    rw [← hstmts] at hnodup hcode
    rw [assemble_of_passes hrows (Labels.collect_eq_ok_iff.2 ⟨rfl, hnodup⟩),
      ofRows_eq_ok_iff.2 hcode]
    rfl

end Program

end RegisterMachine
