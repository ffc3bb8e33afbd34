import RegisterMachine.Proofs.Execution

/-!
# The effects of a run

What a run leaves behind is what its steps did, one after the other: which registers it wrote and
which numbers it printed can be read off the effects of the instructions that it executed.

* `Instruction.Does`: which instructions can have which effects.
* `Machine.performs`, `Machine.effects`: the effect of a step, the effects of a run in order.
* `Machine.Ran`: everything a run can do, as a relation.
* `Machine.stored`, `Machine.printed`: the registers that a run writes, the numbers it prints.

Principal results: `Instruction.does_of_effect`, `ran` and `Ran.eq` (a run has the effects told, and
no other), `run_output` (what a run prints is the text of the numbers printed) and
`read_run_of_not_stored` (a register that a run does not write keeps its value).
-/

set_option autoImplicit false

namespace RegisterMachine

namespace Effect

/-- The register that an effect writes. -/
def register? : Effect → Option Register
  | .store r _ => some r
  | _ => none

/-- The number that an effect prints. -/
def number? : Effect → Option Float
  | .print x => some x
  | _ => none

end Effect

namespace Instruction

/-! ## What an instruction can do -/

theorem bind_eq_ok_iff {α β : Type} {x : Except Refusal α} {f : α → Except Refusal β} {c : β} :
    (x >>= f) = .ok c ↔ ∃ a, x = .ok a ∧ f a = .ok c := by
  cases x with
  | error r => exact ⟨fun h => (by cases h), fun ⟨_, h, _⟩ => (by cases h)⟩
  | ok a => exact ⟨fun h => ⟨a, rfl, h⟩, fun ⟨_, ha, h⟩ => (by cases ha; exact h)⟩

/-- Which instructions can have which effects. -/
inductive Does (ins : Instruction) (b : Bank) : Effect → Prop where
  /-- There is nothing to do, or the condition of a jump is not met. -/
  | proceed {op : Operator} (known : ins.op = .known op)
      (idle : op = .nop ∨ op = .jmt ∨ op = .jmf) : Does ins b .proceed
  /-- What an operator computes is written to the destination. -/
  | store {op : Operator} {r : Register} {x : Float} (known : ins.op = .known op)
      (computes : op.isJump = false ∧ op ≠ .prn ∧ op ≠ .nop) (place : ins.dst.place = .ok r) :
      Does ins b (.store r x)
  /-- The value of the source is printed. -/
  | print {x : Float} (known : ins.op = .known .prn) (value : ins.src.value b = .ok x) :
      Does ins b (.print x)
  /-- An unconditional jump looks for its target in the source first. -/
  | jump {t : Int} (known : ins.op = .known .jmp)
      (target : (if ins.src.kind = .index then ins.src else ins.dst).target = .ok t) :
      Does ins b (.jump t)
  /-- A conditional jump whose condition is met has its target in the destination. -/
  | branch {op : Operator} {t : Int} (known : ins.op = .known op)
      (conditional : op = .jmt ∨ op = .jmf) (target : ins.dst.target = .ok t) :
      Does ins b (.jump t)

/-- **An effect is one that the instruction can have.** -/
theorem does_of_effect {ins : Instruction} {b : Bank} {e : Effect} (h : ins.effect b = .ok e) :
    ins.Does b e := by
  unfold effect at h
  cases hop : ins.op with
  | unknown name => rw [hop] at h; cases h
  | known op =>
    rw [hop] at h
    cases op with
    | add | sub | mul | div | less | equal | and | or =>
      simp only [effectOf, combine, bind_eq_ok_iff] at h
      obtain ⟨s, -, d, -, r, hr, h⟩ := h
      cases h
      exact .store hop (by decide) hr
    | not | mov =>
      simp only [effectOf, bind_eq_ok_iff] at h
      obtain ⟨s, -, r, hr, h⟩ := h
      cases h
      exact .store hop (by decide) hr
    | prn =>
      simp only [effectOf, bind_eq_ok_iff] at h
      obtain ⟨x, hx, h⟩ := h
      cases h
      exact .print hop hx
    | nop => cases h; exact .proceed hop (by decide)
    | jmp =>
      simp only [effectOf, bind_eq_ok_iff] at h
      obtain ⟨t, ht, h⟩ := h
      cases h
      exact .jump hop ht
    | jmt =>
      simp only [effectOf, bind_eq_ok_iff] at h
      obtain ⟨t, ht, s, -, h⟩ := h
      split at h
      · cases h; exact .branch hop (.inl rfl) ht
      · cases h; exact .proceed hop (by decide)
    | jmf =>
      simp only [effectOf, bind_eq_ok_iff] at h
      obtain ⟨t, ht, s, -, h⟩ := h
      split at h
      · cases h; exact .proceed hop (by decide)
      · cases h; exact .branch hop (.inr rfl) ht

/-- The number that an instruction prints is the value of its source, and only a `PRN` prints. -/
theorem number?_effect (b : Bank) (ins : Instruction) :
    (ins.effect b).toOption.bind Effect.number? =
      if ins.op = .known .prn then (ins.src.value b).toOption else none := by
  by_cases hop : ins.op = .known .prn
  · rw [if_pos hop]
    unfold effect
    rw [hop]
    show (effectOf b .prn ins.src ins.dst).toOption.bind _ = _
    unfold effectOf
    cases ins.src.value b <;> rfl
  · rw [if_neg hop]
    cases he : ins.effect b with
    | error r => rfl
    | ok e =>
      cases does_of_effect he with
      | print known _ => exact absurd known hop
      | _ => rfl

end Instruction

namespace Machine

/-! ## The effect of a step -/

/-- The effect of a step; none if no instruction is executed. -/
def performs (m : Machine) : Option Effect :=
  if m.isDone then none
  else
    match m.program[m.pc]? with
    | none => none
    | some ins => (ins.effect m.bank).toOption

theorem performs_of_done {m : Machine} (hd : m.isDone = true) : m.performs = none := by
  simp [performs, hd]

theorem performs_at_end {m : Machine} (hl : m.program[m.pc]? = none) : m.performs = none := by
  simp [performs, hl]

theorem performs_of_error {m : Machine} {ins : Instruction} {r : Refusal}
    (hf : m.program[m.pc]? = some ins) (he : ins.effect m.bank = .error r) : m.performs = none := by
  simp [performs, hf, he, Except.toOption]

theorem performs_of_ok {m : Machine} {ins : Instruction} {e : Effect} (hb : m.isDone = false)
    (hf : m.program[m.pc]? = some ins) (he : ins.effect m.bank = .ok e) : m.performs = some e := by
  simp [performs, hb, hf, he, Except.toOption]

theorem exists_effect_of_performs {m : Machine} {e : Effect} (h : m.performs = some e) :
    ∃ ins ∈ m.program, ins.effect m.bank = .ok e := by
  cases hs : m.step with
  | mk m' f =>
    cases stepped_of_step hs with
    | rest hd => rw [performs_of_done hd] at h; cases h
    | halt _ hl => rw [performs_at_end hl] at h; cases h
    | refuse ins r _ hf he => rw [performs_of_error hf he] at h; cases h
    | execute ins e' hb hf he =>
      rw [performs_of_ok hb hf he] at h
      cases h
      exact ⟨ins, Array.mem_of_getElem? hf, he⟩

theorem read_apply_of_ne (m : Machine) {e : Effect} {r : Register} (h : e.register? ≠ some r) :
    (m.apply e).bank.read r = m.bank.read r := by
  cases e with
  | store s x =>
    refine Bank.read_write_of_ne _ x ?_
    rintro rfl
    exact h rfl
  | jump t =>
    show (m.jump t).bank.read r = _
    unfold jump record
    split <;> rfl
  | _ => rfl

theorem output_apply (m : Machine) (e : Effect) :
    (m.apply e).output.toList =
      m.output.toList ++ e.number?.toList.map fun x => String.ofList (Number.text x) := by
  cases e with
  | print x => exact Array.toList_push
  | jump t =>
    have hjump : (m.jump t).output = m.output := by unfold jump record; split <;> rfl
    exact (congrArg Array.toList hjump).trans (List.append_nil _).symm
  | _ => exact (List.append_nil _).symm

theorem read_step_of_performs {m : Machine} {r : Register}
    (h : m.performs.bind Effect.register? ≠ some r) : m.step.1.bank.read r = m.bank.read r := by
  cases hs : m.step with
  | mk m' f =>
    cases stepped_of_step hs with
    | rest _ => rfl
    | halt _ _ => rfl
    | refuse ins _ _ _ _ => rw [fetch_bank]
    | execute ins e hb hf he =>
      rw [performs_of_ok hb hf he] at h
      rw [read_apply_of_ne _ h, fetch_bank]

/-- A step adds to the output the text of the number that it prints. -/
theorem output_step (m : Machine) :
    m.step.1.output.toList = m.output.toList ++
      (m.performs.bind Effect.number?).toList.map fun x => String.ofList (Number.text x) := by
  cases hs : m.step with
  | mk m' f =>
    cases stepped_of_step hs with
    | rest hd => rw [performs_of_done hd]; exact (List.append_nil _).symm
    | halt _ hl => rw [performs_at_end hl]; exact (List.append_nil _).symm
    | refuse ins r _ hf he =>
      rw [performs_of_error hf he, fetch_output]
      exact (List.append_nil _).symm
    | execute ins e hb hf he =>
      rw [performs_of_ok hb hf he, output_apply, fetch_output]
      rfl

/-! ## The effects of a run -/

/-- The effects of a run, in order. -/
def effects : Nat → Machine → List Effect
  | 0, _ => []
  | fuel + 1, m =>
    if m.isDone then []
    else
      match m.exceeded? with
      | some _ => []
      | none =>
        match m.step with
        | (m', none) => m.performs.toList ++ effects fuel m'
        | (_, some _) => []

/-- What a run of a machine can lead to, with its effects. -/
inductive Ran : Nat → Machine → List Effect → Machine → Ending → Prop where
  /-- The bound on the steps is reached. -/
  | unfinished {m : Machine} : Ran 0 m [] m .unfinished
  /-- The machine is done, which may be put on record. -/
  | stopped {m : Machine} {fuel : Nat} (done : m.isDone = true) :
      Ran (fuel + 1) m [] (m.trace (.stopped m.status m.steps)) .stopped
  /-- The limit forbids the next instruction. -/
  | exceeded {m : Machine} {fuel : Nat} {n : Int} (busy : m.isDone = false)
      (beyond : m.exceeded? = some n) :
      Ran (fuel + 1) m [] m (.failed (.atLimit n m.pc))
  /-- The next instruction cannot be executed. -/
  | failed {m m' : Machine} {fuel : Nat} {f : Fault} (busy : m.isDone = false)
      (within : m.exceeded? = none) (step : m.step = (m', some f)) :
      Ran (fuel + 1) m [] m' (.failed f)
  /-- A step is taken, and the run goes on. -/
  | step {m m1 m' : Machine} {fuel : Nat} {es : List Effect} {e : Ending} (busy : m.isDone = false)
      (within : m.exceeded? = none) (step : m.step = (m1, none)) (rest : Ran fuel m1 es m' e) :
      Ran (fuel + 1) m (m.performs.toList ++ es) m' e

/-- **Every run has its effects.** -/
theorem ran (fuel : Nat) (m : Machine) :
    Ran fuel m (effects fuel m) (run fuel m).1 (run fuel m).2 := by
  induction fuel generalizing m with
  | zero => exact .unfinished
  | succ fuel ih =>
    cases hm : m.isDone with
    | true =>
      rw [run_of_done _ hm, effects, if_pos hm]
      exact .stopped hm
    | false =>
      have hbusy : ¬ m.isDone = true := by simp [hm]
      cases hx : m.exceeded? with
      | some n =>
        rw [run_of_exceeded _ hm hx, effects, if_neg hbusy, hx]
        exact .exceeded hm hx
      | none =>
        cases hs : m.step with
        | mk m1 f =>
          rw [effects, if_neg hbusy, hx, hs]
          cases f with
          | none => rw [run_succ_of_step _ hm hx hs]; exact .step hm hx hs (ih m1)
          | some f => rw [run_succ_of_fault _ hm hx hs]; exact .failed hm hx hs

theorem Ran.eq {fuel : Nat} {m m' : Machine} {es : List Effect} {e : Ending}
    (h : Ran fuel m es m' e) : effects fuel m = es ∧ run fuel m = (m', e) := by
  induction h with
  | unfinished => exact ⟨rfl, rfl⟩
  | stopped hm => exact ⟨by simp [effects, hm], run_of_done _ hm⟩
  | exceeded hm hx => exact ⟨by simp [effects, hm, hx], run_of_exceeded _ hm hx⟩
  | failed hm hx hs => exact ⟨by simp [effects, hm, hx, hs], run_succ_of_fault _ hm hx hs⟩
  | step hm hx hs _ ih =>
    exact ⟨by simp [effects, hm, hx, hs, ih.1], (run_succ_of_step _ hm hx hs).trans ih.2⟩

theorem filterMap_performs {α : Type} (f : Effect → Option α) (m : Machine) :
    m.performs.toList.filterMap f = (m.performs.bind f).toList := by
  cases m.performs with
  | none => rfl
  | some e => cases h : f e <;> simp [h]

theorem alike_of_fault {m m' : Machine} {f : Fault} (h : m.step = (m', some f)) :
    m'.bank = m.bank ∧ m'.output = m.output := by
  cases stepped_of_step h with
  | refuse ins _ _ _ _ => exact ⟨fetch_bank m ins, fetch_output m ins⟩

namespace Ran

variable {fuel : Nat} {m m' : Machine} {es : List Effect} {e : Ending}

theorem exists_instruction (h : Ran fuel m es m' e) {x : Effect} (hx : x ∈ es) :
    ∃ ins ∈ m.program, ∃ b, ins.effect b = .ok x := by
  induction h with
  | unfinished | stopped | exceeded | failed => cases hx
  | @step m m1 _ _ _ _ _ _ hs _ ih =>
    have hprog := step_program m
    rw [hs] at hprog
    rcases List.mem_append.1 hx with hx | hx
    · obtain ⟨ins, hins, heffect⟩ := exists_effect_of_performs (Option.mem_toList.1 hx)
      exact ⟨ins, hins, _, heffect⟩
    · exact hprog ▸ ih hx

/-- What a run adds to the output is what its effects print. -/
theorem output_eq (h : Ran fuel m es m' e) :
    m'.output.toList = m.output.toList ++
      (es.filterMap Effect.number?).map fun x => String.ofList (Number.text x) := by
  induction h with
  | unfinished | exceeded => exact (List.append_nil _).symm
  | @stopped m _ _ =>
    have htrace : (m.trace (.stopped m.status m.steps)).output = m.output := by
      unfold trace record; split <;> rfl
    rw [htrace]
    exact (List.append_nil _).symm
  | failed _ _ hs => rw [(alike_of_fault hs).2]; exact (List.append_nil _).symm
  | @step m m1 _ _ _ _ _ _ hs _ ih =>
    have hout := output_step m
    rw [hs] at hout
    rw [ih, hout, List.filterMap_append, List.map_append, filterMap_performs, List.append_assoc]

/-- A register that no effect of a run writes keeps its value. -/
theorem read_eq {r : Register} (h : Ran fuel m es m' e) (hr : r ∉ es.filterMap Effect.register?) :
    m'.bank.read r = m.bank.read r := by
  induction h with
  | unfinished | exceeded => rfl
  | @stopped m _ _ =>
    have htrace : (m.trace (.stopped m.status m.steps)).bank = m.bank := by
      unfold trace record; split <;> rfl
    rw [htrace]
  | failed _ _ hs => rw [(alike_of_fault hs).1]
  | @step m m1 _ _ _ _ _ _ hs _ ih =>
    have hread := @read_step_of_performs m r
    rw [hs] at hread
    rw [List.filterMap_append, List.mem_append, not_or, filterMap_performs, Option.mem_toList] at hr
    rw [ih hr.2, hread hr.1]

end Ran

/-- The registers that a run writes, in order. -/
def stored (fuel : Nat) (m : Machine) : List Register := (effects fuel m).filterMap Effect.register?

/-- The numbers that a run prints, in order. -/
def printed (fuel : Nat) (m : Machine) : List Float := (effects fuel m).filterMap Effect.number?

/-- **What a run prints is the text of the numbers printed.** -/
theorem run_output (fuel : Nat) (m : Machine) :
    (run fuel m).1.output.toList =
      m.output.toList ++ (printed fuel m).map fun x => String.ofList (Number.text x) :=
  (ran fuel m).output_eq

/-- **A register that a run does not write keeps its value.** -/
theorem read_run_of_not_stored {m : Machine} {fuel : Nat} {r : Register} (h : r ∉ stored fuel m) :
    (run fuel m).1.bank.read r = m.bank.read r :=
  (ran fuel m).read_eq h

end Machine

end RegisterMachine
