import RegisterMachine.Proofs.Language
import RegisterMachine.Proofs.Reachable
import RegisterMachine.Proofs.Refusal

/-!
# Targets of jumps in assembled programs

The assembler asks of every jump that one of its operands is an index. The machine looks for the
target of a conditional jump in the destination only. So there is one kind of jump that is assembled
and cannot be executed: a conditional one whose only index is its source.

* `Instruction.Misplaced`: a jump of that kind.

Principal results: `Instruction.effect_notTarget_iff` (when a jump is refused for its target),
`Instruction.target?_eq_none_iff` (the check of the assembler leaves the misplaced targets) and
`missing_target_iff_misplaced`.
-/

set_option autoImplicit false

namespace RegisterMachine

open Text

/-! ## Refusals for a target -/

theorem firstUnmet_nil : firstUnmet [] = none := rfl

theorem firstUnmet_cons_eq_some_iff {n : Need} {k : Kind} {needs : List (Need × Kind)}
    {c : Need × Kind} : firstUnmet ((n, k) :: needs) = some c ↔
      (¬ n.IsMet k ∧ (n, k) = c) ∨ (n.IsMet k ∧ firstUnmet needs = some c) := by
  by_cases h : n.IsMet k
  · simp [firstUnmet_cons_of_met _ h, h]
  · simp [firstUnmet_cons_of_not_met _ h, h]

theorem Need.refusal_eq_notTarget_iff {n : Need} {k l : Kind} :
    n.refusal k = .notTarget l ↔ n = .target ∧ k = l := by
  cases n <;> simp [Need.refusal]

theorem Operand.index?_eq_none_iff {o : Operand} : o.index? = none ↔ o.kind ≠ .index := by
  cases o <;> simp [Operand.index?, Operand.kind]

namespace Instruction

/-- A conditional jump whose only index is its source. -/
def Misplaced (ins : Instruction) : Prop :=
  (ins.op = .known .jmt ∨ ins.op = .known .jmf) ∧ ins.src.kind = .index ∧ ins.dst.kind ≠ .index

/-- An instruction is refused for its target if and only if it looks for one in an operand that is
no index. -/
theorem effect_notTarget_iff {ins : Instruction} {b : Bank} {k : Kind} :
    ins.effect b = .error (.notTarget k) ↔
      ∃ o, ins.targetOperand? = some o ∧ o.kind ≠ .index ∧ o.kind = k := by
  unfold targetOperand? effect
  cases hop : ins.op with
  | unknown name => simp
  | known op =>
    dsimp only
    rw [(demands_effectOf b op ins.src ins.dst).eq_error_iff]
    simp only [Need.refusal_eq_notTarget_iff, Prod.exists]
    cases op with
    | jmp =>
      by_cases hsrc : ins.src.kind = .index
      · simp [Operator.needs, firstUnmet_cons_eq_some_iff, firstUnmet_nil, Need.IsMet, hsrc]
      · simp [Operator.needs, firstUnmet_cons_eq_some_iff, firstUnmet_nil, Need.IsMet, hsrc]
    | _ => simp [Operator.needs, firstUnmet_cons_eq_some_iff, firstUnmet_nil, Need.IsMet]

/-! ## What the check of the assembler leaves -/

/-- With an index among the operands of each jump, the misplaced targets are the only ones that are
not found. -/
theorem targetOperand?_not_index_iff {ins : Instruction} {o : Operand} (h : ¬ ins.LacksTarget) :
    (ins.targetOperand? = some o ∧ o.kind ≠ .index) ↔ ins.Misplaced ∧ ins.dst = o := by
  have hsome : ∀ op, ins.op = .known op → op.isJump = true → ins.dst.kind ≠ .index →
      ins.src.kind = .index := by
    intro op hop hjump hdst
    by_contra hsrc
    exact h ⟨op, hop, hjump, hsrc, hdst⟩
  constructor
  · rintro ⟨ho, hkind⟩
    unfold targetOperand? at ho
    split at ho
    · rename_i hop
      cases ho
      split at hkind
      · exact absurd ‹_› hkind
      · exact absurd (hsome .jmp hop rfl hkind) ‹_›
    · rename_i hop
      cases ho
      exact ⟨⟨.inl hop, hsome .jmt hop rfl hkind, hkind⟩, rfl⟩
    · rename_i hop
      cases ho
      exact ⟨⟨.inr hop, hsome .jmf hop rfl hkind, hkind⟩, rfl⟩
    · cases ho
  · rintro ⟨⟨hop, -, hdst⟩, rfl⟩
    refine ⟨?_, hdst⟩
    unfold targetOperand?
    rcases hop with hop | hop <;> rw [hop]

theorem exists_targetOperand? {ins : Instruction} {op : Operator} (hop : ins.op = .known op)
    (hjump : op.isJump = true) : ∃ o, ins.targetOperand? = some o := by
  unfold targetOperand?
  rw [hop]
  cases op with
  | jmp | jmt | jmf => exact ⟨_, rfl⟩
  | _ => cases hjump

/-- A jump with an index among its operands has a target unless that is misplaced. -/
theorem target?_eq_none_iff {ins : Instruction} {op : Operator} (h : ¬ ins.LacksTarget)
    (hop : ins.op = .known op) (hjump : op.isJump = true) :
    ins.target? = none ↔ ins.Misplaced := by
  obtain ⟨o, ho⟩ := exists_targetOperand? hop hjump
  have hiff := targetOperand?_not_index_iff (o := o) h
  rw [target?, ho, Option.bind_some, Operand.index?_eq_none_iff]
  constructor
  · exact fun hkind => (hiff.1 ⟨ho, hkind⟩).1
  · intro hmis
    -- the destination is what a misplaced jump looks at
    obtain ⟨hdst, hkind⟩ := (targetOperand?_not_index_iff h).2 ⟨hmis, rfl⟩
    rw [ho] at hdst
    cases hdst
    exact hkind

end Instruction

/-- Every jump of an assembled program has an index among its operands. -/
theorem Program.not_lacksTarget_of_assemble {text : List Char} {p : Program}
    (h : assemble text = .ok p) : ∀ ins ∈ p, ¬ ins.LacksTarget := by
  intro ins hins
  obtain ⟨ss, -, -, hcode⟩ := assemble_eq_ok_iff.1 h
  obtain ⟨s, -, hs⟩ := exists_of_forall₂ hcode (Array.mem_toList_iff.2 hins)
  obtain ⟨op, operands, -, -, -, hjump⟩ := Instruction.assemble_eq_ok_iff.1 hs
  exact hjump

namespace Machine

/-! ## Runs -/

/-- A machine is refused for a target if and only if a misplaced one is next. -/
theorem refuses_notTarget_iff {m : Machine} (hp : ∀ ins ∈ m.program, ¬ ins.LacksTarget) {k : Kind} :
    m.Refuses (.notTarget k) ↔ m.isDone = false ∧ ∃ ins, m.program[m.pc]? = some ins ∧
      ins.Misplaced ∧ ins.dst.kind = k := by
  refine and_congr_right fun _ => exists_congr fun ins => and_congr_right fun hf => ?_
  have hins := hp ins (Array.mem_of_getElem? hf)
  constructor
  · intro he
    obtain ⟨o, ho, hkind, hk⟩ := Instruction.effect_notTarget_iff.1 (he m.bank)
    obtain ⟨hmis, hdst⟩ := (Instruction.targetOperand?_not_index_iff hins).1 ⟨ho, hkind⟩
    exact ⟨hmis, by rw [hdst, hk]⟩
  · rintro ⟨hmis, hk⟩ b
    obtain ⟨ho, hkind⟩ := (Instruction.targetOperand?_not_index_iff hins).2 ⟨hmis, rfl⟩
    exact Instruction.effect_notTarget_iff.2 ⟨_, ho, hkind, hk⟩

theorem program_of_after {m n : Machine} {j : Nat} (h : m.after j = (n, none)) :
    n.program = m.program := by
  rw [← after_program j m, h]

/-- A run that is refused for a target stands at a misplaced one. -/
theorem misplaced_of_run {m m' : Machine} (hp : ∀ ins ∈ m.program, ¬ ins.LacksTarget)
    {fuel : Nat} {k : Kind} {pc : Nat}
    (h : m.run fuel = (m', .failed (.refused (.notTarget k) pc))) :
    ∃ ins, m.program[pc]? = some ins ∧ ins.Misplaced ∧ ins.dst.kind = k := by
  rcases limit_or_step_of_run_failed h with ⟨l, -, hlimit⟩ | ⟨j, n, hj, hstep⟩
  · exact absurd hlimit (Fault.refused_ne_atLimit _ _ _ _)
  · obtain ⟨r, hr, hn, -⟩ := refuses_of_fault hstep
    cases hr
    have hprog := program_of_after hj
    rw [refuses_notTarget_iff (by rwa [hprog]), hprog] at hn
    exact hn.2

/-- A run without a limit is refused for a target if and only if its steps lead to a misplaced
one. -/
theorem run_notTarget_iff {m : Machine} (hp : ∀ ins ∈ m.program, ¬ ins.LacksTarget)
    (hl : m.limit = none) :
    (∃ fuel m' k pc, m.run fuel = (m', .failed (.refused (.notTarget k) pc))) ↔
      ∃ j n ins, m.after j = (n, none) ∧ n.isDone = false ∧ m.program[n.pc]? = some ins ∧
        ins.Misplaced := by
  constructor
  · rintro ⟨fuel, m', k, pc, hrun⟩
    obtain ⟨j, n, hj, -, hn⟩ := (run_refused_iff hl).1 ⟨fuel, m', hrun⟩
    have hprog := program_of_after hj
    rw [refuses_notTarget_iff (by rwa [hprog]), hprog] at hn
    obtain ⟨hb, ins, hf, hmis, -⟩ := hn
    exact ⟨j, n, ins, hj, hb, hf, hmis⟩
  · rintro ⟨j, n, ins, hj, hb, hf, hmis⟩
    have hprog := program_of_after hj
    have hn : n.Refuses (.notTarget ins.dst.kind) := by
      rw [refuses_notTarget_iff (by rwa [hprog]), hprog]
      exact ⟨hb, ins, hf, hmis, rfl⟩
    obtain ⟨fuel, m', hrun⟩ := (run_refused_iff hl).2 ⟨j, n, hj, rfl, hn⟩
    exact ⟨fuel, m', _, _, hrun⟩

/-- **An assembled program is refused for a target if and only if it comes to a misplaced one.** A
jump of an assembled program has its index where the machine looks for it, unless it is conditional
and only its source is an index. A run that is refused for a target stands at such a jump, a program
without any is never refused for a target, and a run without a limit is if its steps lead to one. -/
theorem missing_target_iff_misplaced {text : List Char} {p : Program}
    (h : Program.assemble text = .ok p) :
    (∀ ins ∈ p, ∀ op, ins.op = .known op → op.isJump = true →
      (ins.target? = none ↔ ins.Misplaced)) ∧
    (∀ b limit tracing fuel m k pc,
      (start p b limit tracing).run fuel = (m, .failed (.refused (.notTarget k) pc)) →
        ∃ ins, p[pc]? = some ins ∧ ins.Misplaced ∧ ins.dst.kind = k) ∧
    ((∀ ins ∈ p, ¬ ins.Misplaced) → ∀ b limit tracing fuel m k pc,
      (start p b limit tracing).run fuel ≠ (m, .failed (.refused (.notTarget k) pc))) ∧
    ∀ b tracing,
      (∃ fuel m k pc,
        (start p b none tracing).run fuel = (m, .failed (.refused (.notTarget k) pc))) ↔
      ∃ j m ins, (start p b none tracing).after j = (m, none) ∧ m.isDone = false ∧
        p[m.pc]? = some ins ∧ ins.Misplaced := by
  have hp := Program.not_lacksTarget_of_assemble h
  refine ⟨fun ins hins op => Instruction.target?_eq_none_iff (hp ins hins), ?_, ?_, ?_⟩
  · exact fun b limit tracing fuel m k pc => misplaced_of_run (m := start p b limit tracing) hp
  · intro hnone b limit tracing fuel m k pc hrun
    obtain ⟨ins, hf, hmis, -⟩ := misplaced_of_run (m := start p b limit tracing) hp hrun
    exact hnone ins (Array.mem_of_getElem? hf) hmis
  · exact fun b tracing => run_notTarget_iff (m := start p b none tracing) hp rfl

/-- A conditional jump with its operands the wrong way round is assembled. -/
theorem assemble_misplaced_target :
    Program.assemble "JMT @0, R1".toList = .ok #[⟨.known .jmt, .index 0, .register .r1⟩] := by
  have hlines : lines "JMT @0, R1".toList = ["JMT @0, R1".toList] := by decide +kernel
  refine assemble_eq_ok_iff_denotes.2
    ⟨[some (.instruction "JMT".toList ["@0".toList, "R1".toList])], ?_, by decide, ?_⟩
  · unfold Reads
    rw [hlines]
    exact .cons (ofLine_eq_ok_iff.1 (by decide +kernel)) .nil
  · refine .cons ⟨.jmt, [.index 0, .register .r1], rfl, ?_, rfl, fun _ => .inl rfl⟩ .nil
    have hzero : DashesAndDigits ['0'] := isNumeric_eq_true_iff.1 (by decide +kernel)
    exact .cons (.target hzero (by decide +kernel)) (.cons (.register (.inl rfl)) .nil)

/-- So the check of the assembler does not keep a run from missing a target. -/
theorem misplaced_target_missed :
    ¬ ∀ text p, Program.assemble text = .ok p → ∀ b limit tracing fuel m k pc,
      (start p b limit tracing).run fuel ≠ (m, .failed (.refused (.notTarget k) pc)) := by
  intro hclaim
  exact hclaim _ _ assemble_misplaced_target Bank.zero none false 1 _ .register 0 rfl

/-- The same text: its run without a limit is refused, and where it is refused the index is
misplaced. -/
theorem missing_target_iff_misplaced_swapped :
    let p : Program := #[⟨.known .jmt, .index 0, .register .r1⟩]
    Program.assemble "JMT @0, R1".toList = .ok p ∧
      (∃ fuel m k pc,
        (start p Bank.zero none false).run fuel = (m, .failed (.refused (.notTarget k) pc))) ∧
      ∃ ins, p[0]? = some ins ∧ ins.Misplaced ∧ ins.dst.kind = .register := by
  intro p
  obtain ⟨-, hrefused, -, hreach⟩ := missing_target_iff_misplaced assemble_misplaced_target
  have hmis : Instruction.Misplaced ⟨.known .jmt, .index 0, .register .r1⟩ :=
    ⟨.inl rfl, rfl, by decide⟩
  exact ⟨assemble_misplaced_target, (hreach Bank.zero false).2 ⟨0, _, _, rfl, rfl, rfl, hmis⟩,
    hrefused Bank.zero none false 1 _ .register 0 rfl⟩

end Machine

end RegisterMachine
