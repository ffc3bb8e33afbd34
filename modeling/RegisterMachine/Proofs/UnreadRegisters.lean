import RegisterMachine.Proofs.Reachable

/-!
# Registers that a program does not read

What an instruction does depends on the bank only through the registers that it reads. So two
machines with the same program that agree on the registers it reads go through the program in
lockstep, and what the other registers hold shows nowhere but in those registers themselves.

* `Instruction.ReadsRegister`, `Instruction.WritesRegister`: whether an instruction names a register
  where its operator reads, where it writes.
* `Lockstep R`: two machines are alike but for registers outside `R` and their records.

Principal results: `Instruction.effect_congr` (an instruction does the same on banks that agree on
what it reads), `Lockstep.step` and `Lockstep.run` (a step and a run keep the lockstep, and what
they write is agreed on from then on) and `unread_registers_are_private`.
-/

set_option autoImplicit false

namespace RegisterMachine

/-! ## What operators read and write -/

namespace Operator

/-- Whether an operator reads its source. -/
def readsSource : Operator → Bool
  | .jmp | .nop => false
  | _ => true

/-- Whether an operator reads its destination. -/
def readsDestination : Operator → Bool
  | .add | .sub | .mul | .div | .less | .equal | .and | .or => true
  | _ => false

/-- Whether an operator writes its destination. -/
def writesDestination : Operator → Bool
  | .not | .mov => true
  | op => op.readsDestination

end Operator

theorem Operand.value_congr {o : Operand} {b c : Bank}
    (h : ∀ r, o = .register r → b.read r = c.read r) : o.value b = o.value c := by
  cases o with
  | register r => exact congrArg Except.ok (h r rfl)
  | _ => rfl

namespace Instruction

/-- Whether an instruction names a register where its operator reads. -/
def ReadsRegister (ins : Instruction) (r : Register) : Prop :=
  ∃ op, ins.op = .known op ∧ (op.readsSource = true ∧ ins.src = .register r ∨
    op.readsDestination = true ∧ ins.dst = .register r)

/-- Whether an instruction names a register where its operator writes. -/
def WritesRegister (ins : Instruction) (r : Register) : Prop :=
  ∃ op, ins.op = .known op ∧ op.writesDestination = true ∧ ins.dst = .register r

/-- **An instruction does the same on banks that agree on what it reads.** -/
theorem effect_congr {ins : Instruction} {b c : Bank}
    (h : ∀ r, ins.ReadsRegister r → b.read r = c.read r) : ins.effect b = ins.effect c := by
  unfold effect
  cases hop : ins.op with
  | unknown name => rfl
  | known op =>
    have hsrc : op.readsSource = true → ins.src.value b = ins.src.value c := fun hreads =>
      Operand.value_congr fun r hr => h r ⟨op, hop, .inl ⟨hreads, hr⟩⟩
    have hdst : op.readsDestination = true → ins.dst.value b = ins.dst.value c := fun hreads =>
      Operand.value_congr fun r hr => h r ⟨op, hop, .inr ⟨hreads, hr⟩⟩
    dsimp only
    cases op with
    | add | sub | mul | div | less | equal | and | or =>
      simp only [effectOf, combine, hsrc rfl, hdst rfl]
    | not | mov | prn | jmt | jmf => simp only [effectOf, hsrc rfl]
    | jmp | nop => rfl

theorem eq_register_of_place {o : Operand} {r : Register} (h : o.place = .ok r) :
    o = .register r := by
  cases o with
  | register s => cases h; rfl
  | _ => cases h

theorem writesRegister_of_effect {ins : Instruction} {b : Bank} {r : Register} {x : Float}
    (h : ins.effect b = .ok (.store r x)) : ins.WritesRegister r := by
  cases does_of_effect h with
  | @store op _ _ known computes place =>
    obtain ⟨hjump, hprn, hnop⟩ := computes
    refine ⟨op, known, ?_, eq_register_of_place place⟩
    cases op with
    | prn => exact absurd rfl hprn
    | nop => exact absurd rfl hnop
    | jmp | jmt | jmf => cases hjump
    | _ => rfl

end Instruction

namespace Program

/-- Whether some instruction reads a register. -/
def ReadsRegister (p : Program) (r : Register) : Prop := ∃ ins ∈ p, ins.ReadsRegister r

/-- Whether some instruction writes a register. -/
def WritesRegister (p : Program) (r : Register) : Prop := ∃ ins ∈ p, ins.WritesRegister r

end Program

namespace Machine

theorem writesRegister_of_mem_stored {m : Machine} {fuel : Nat} {r : Register}
    (h : r ∈ stored fuel m) : m.program.WritesRegister r := by
  obtain ⟨x, hx, hr⟩ := List.mem_filterMap.1 h
  obtain ⟨ins, hins, b, heffect⟩ := (ran fuel m).exists_instruction hx
  cases x with
  | store s y =>
    cases hr
    exact ⟨ins, hins, Instruction.writesRegister_of_effect heffect⟩
  | _ => cases hr

/-! ## Machines in lockstep -/

theorem trace_limit (m : Machine) (e : LogEntry) : (m.trace e).limit = m.limit := by
  unfold trace record; split <;> rfl

/-- Two machines are alike but for registers outside `R` and their records. -/
structure Lockstep (R : Register → Prop) (m n : Machine) : Prop where
  program : m.program = n.program
  pc : m.pc = n.pc
  steps : m.steps = n.steps
  status : m.status = n.status
  limit : m.limit = n.limit
  output : m.output = n.output
  bank : ∀ r, R r → m.bank.read r = n.bank.read r

namespace Lockstep

variable {R : Register → Prop} {m n : Machine}

theorem isDone (h : Lockstep R m n) : m.isDone = n.isDone := by
  unfold Machine.isDone
  rw [h.status]

theorem exceeded? (h : Lockstep R m n) : m.exceeded? = n.exceeded? := by
  unfold Machine.exceeded?
  rw [h.limit, h.steps, h.pc, h.program]

theorem mono {S : Register → Prop} (h : Lockstep R m n) (hs : ∀ r, S r → R r) : Lockstep S m n :=
  ⟨h.program, h.pc, h.steps, h.status, h.limit, h.output, fun r hr => h.bank r (hs r hr)⟩

theorem trace (h : Lockstep R m n) (e : LogEntry) : Lockstep R (m.trace e) (n.trace e) :=
  ⟨by simp [h.program], by simp [h.pc], by simp [h.steps], by simp [h.status],
    by simp [trace_limit, h.limit], by simp [h.output], fun r hr => by simp [h.bank r hr]⟩

theorem fetch (h : Lockstep R m n) (ins : Instruction) : Lockstep R (m.fetch ins) (n.fetch ins) :=
  ⟨by simp [h.program], by simp [h.pc], by simp [h.steps], by simp [h.status], by simp [h.limit],
    by simp [h.output], fun r hr => by simp [h.bank r hr]⟩

theorem jump (h : Lockstep R m n) (t : Int) : Lockstep R (m.jump t) (n.jump t) := by
  have hsize : n.program.size = m.program.size := by rw [h.program]
  by_cases ht : 0 ≤ t ∧ t ≤ m.program.size
  · rw [jump_inside ht.1 ht.2, jump_inside ht.1 (hsize ▸ ht.2)]
    exact ⟨h.program, rfl, h.steps, h.status, h.limit, h.output, h.bank⟩
  · rw [jump_outside ht, jump_outside (hsize ▸ ht)]
    exact ⟨h.program, h.pc, h.steps, rfl, h.limit, h.output, h.bank⟩

/-- An effect keeps the lockstep, and what it writes is agreed on. -/
theorem apply (h : Lockstep R m n) (e : Effect) :
    Lockstep (fun r => R r ∨ r ∈ e.register?) (m.apply e) (n.apply e) := by
  have hnext : m.pc + 1 = n.pc + 1 := by rw [h.pc]
  -- only a store has more registers to agree on
  have hrest : ∀ {r : Register}, e.register? = none → R r ∨ r ∈ e.register? → R r :=
    fun he hr => hr.resolve_right (by simp [he])
  cases e with
  | proceed =>
    exact ⟨h.program, hnext, h.steps, h.status, h.limit, h.output,
      fun r hr => h.bank r (hrest rfl hr)⟩
  | store s x =>
    refine ⟨h.program, hnext, h.steps, h.status, h.limit, h.output, fun r hr => ?_⟩
    show (m.bank.write s x).read r = (n.bank.write s x).read r
    by_cases hrs : r = s
    · rw [hrs, Bank.read_write_self, Bank.read_write_self]
    · rw [Bank.read_write_of_ne _ x hrs, Bank.read_write_of_ne _ x hrs]
      exact h.bank r (hr.resolve_right fun hmem => hrs (Option.some.inj hmem).symm)
  | print x =>
    have hout : m.output.push (String.ofList (Number.text x)) =
        n.output.push (String.ofList (Number.text x)) := by rw [h.output]
    exact ⟨h.program, hnext, h.steps, h.status, h.limit, hout, fun r hr => h.bank r (hrest rfl hr)⟩
  | jump t => exact (h.jump t).mono fun _ hr => hrest rfl hr

/-- **A step keeps the lockstep** if the registers that the program reads are agreed on: both
machines do the same, and what they write is agreed on. -/
theorem step (h : Lockstep R m n) (hp : ∀ r, m.program.ReadsRegister r → R r) :
    Lockstep (fun r => R r ∨ r ∈ m.performs.bind Effect.register?) m.step.1 n.step.1 ∧
      m.step.2 = n.step.2 ∧ m.performs = n.performs := by
  have hread : ∀ ins, m.program[m.pc]? = some ins → ins.effect n.bank = ins.effect m.bank := by
    intro ins hf
    have hins := Array.mem_of_getElem? hf
    exact (Instruction.effect_congr fun r hr => h.bank r (hp r ⟨ins, hins, hr⟩)).symm
  have hat : n.program[n.pc]? = m.program[m.pc]? := by rw [h.program, h.pc]
  have hnothing : ∀ r, R r ∨ r ∈ (none : Option Effect).bind Effect.register? → R r :=
    fun _ hr => hr.resolve_right (by simp)
  cases hs : m.step with
  | mk m' f =>
    cases stepped_of_step hs with
    | rest hd =>
      have hd' : n.isDone = true := h.isDone ▸ hd
      rw [step_of_done hd', performs_of_done hd, performs_of_done hd']
      exact ⟨h.mono hnothing, rfl, rfl⟩
    | halt hb hl =>
      have hl' := hat.trans hl
      rw [(Stepped.halt (h.isDone ▸ hb) hl').step_eq, performs_at_end hl, performs_at_end hl']
      exact ⟨mono ⟨h.program, h.pc, h.steps, rfl, h.limit, h.output, h.bank⟩ hnothing, rfl, rfl⟩
    | refuse ins r hb hf he =>
      have hf' := hat.trans hf
      have he' := (hread ins hf).trans he
      rw [(Stepped.refuse ins r (h.isDone ▸ hb) hf' he').step_eq, performs_of_error hf he,
        performs_of_error hf' he', h.pc]
      exact ⟨(h.fetch ins).mono hnothing, rfl, rfl⟩
    | execute ins e hb hf he =>
      have hb' : n.isDone = false := h.isDone ▸ hb
      have hf' := hat.trans hf
      have he' := (hread ins hf).trans he
      rw [(Stepped.execute ins e hb' hf' he').step_eq, performs_of_ok hb hf he,
        performs_of_ok hb' hf' he']
      exact ⟨(h.fetch ins).apply e, rfl, rfl⟩

/-- **A run keeps the lockstep**, ends in the same way and has the same effects, and what they write
is agreed on at its end. -/
theorem run {fuel : Nat} {m' : Machine} {es : List Effect} {e : Ending} (hrun : Ran fuel m es m' e)
    (h : Lockstep R m n) (hp : ∀ r, m.program.ReadsRegister r → R r) :
    ∃ n', Ran fuel n es n' e ∧
      Lockstep (fun r => R r ∨ r ∈ es.filterMap Effect.register?) m' n' := by
  have hnothing : ∀ {R : Register → Prop} {r : Register},
      R r ∨ r ∈ ([] : List Effect).filterMap Effect.register? → R r :=
    fun hr => hr.resolve_right List.not_mem_nil
  induction hrun generalizing R n with
  | unfinished => exact ⟨n, .unfinished, h.mono fun _ => hnothing⟩
  | @stopped m _ hm =>
    refine ⟨_, .stopped (h.isDone ▸ hm), ?_⟩
    rw [h.status, h.steps]
    exact (h.trace _).mono fun _ => hnothing
  | exceeded hm hx =>
    rw [h.pc]
    exact ⟨n, .exceeded (h.isDone ▸ hm) (h.exceeded? ▸ hx), h.mono fun _ => hnothing⟩
  | @failed m m1 _ f hm hx hs =>
    obtain ⟨hnext, hfault, -⟩ := h.step hp
    rw [hs] at hnext hfault
    refine ⟨_, .failed (h.isDone ▸ hm) (h.exceeded? ▸ hx) (Prod.ext rfl hfault.symm), ?_⟩
    exact hnext.mono fun _ hr => .inl (hnothing hr)
  | @step m m1 m' _ es e hm hx hs _ ih =>
    have hprog := step_program m
    obtain ⟨hnext, hfault, hperforms⟩ := h.step hp
    rw [hs] at hprog hnext hfault
    -- what the first step writes is agreed on during the others
    obtain ⟨n', hrest, hlast⟩ := ih hnext fun r hr => .inl (hp r (hprog ▸ hr))
    refine ⟨n', ?_, hlast.mono fun r hr => ?_⟩
    · rw [hperforms]
      exact .step (h.isDone ▸ hm) (h.exceeded? ▸ hx) (Prod.ext rfl hfault.symm) hrest
    · rwa [List.filterMap_append, filterMap_performs, List.mem_append, Option.mem_toList,
        ← or_assoc] at hr

end Lockstep

/-- **What a program does not read stays private.** Two runs on banks that agree on the registers
which the program reads go on alike: after any number of steps, with any limit, they have the same
index, count of steps, status and output and ended in the same way; they agree on what the program
reads; and where they still differ, they differed before and neither has written. A register that no
instruction names where it writes keeps its value in every run. -/
theorem unread_registers_are_private (p : Program) :
    (∀ b c : Bank, (∀ r, p.ReadsRegister r → b.read r = c.read r) → ∀ limit tracing k,
      let m := (start p b limit tracing).run k
      let n := (start p c limit tracing).run k
      (m.1.pc = n.1.pc ∧ m.1.steps = n.1.steps ∧ m.1.status = n.1.status ∧
        m.1.output = n.1.output ∧ m.2 = n.2) ∧
      (∀ r, p.ReadsRegister r → m.1.bank.read r = n.1.bank.read r) ∧
      ∀ r, m.1.bank.read r ≠ n.1.bank.read r → b.read r ≠ c.read r ∧
        r ∉ stored k (start p b limit tracing) ∧ r ∉ stored k (start p c limit tracing)) ∧
    ∀ b limit tracing k r, ¬ p.WritesRegister r →
      ((start p b limit tracing).run k).1.bank.read r = b.read r := by
  constructor
  · intro b c hbc limit tracing k m n
    -- the lockstep is over all registers that the banks agree on, not only those that are read
    have hstart : Lockstep (fun r => b.read r = c.read r) (start p b limit tracing)
        (start p c limit tracing) := ⟨rfl, rfl, rfl, rfl, rfl, rfl, fun _ hr => hr⟩
    obtain ⟨n', hran, hrun⟩ := hstart.run (ran k _) hbc
    obtain ⟨heffects, hn⟩ := hran.eq
    obtain rfl : n' = n.1 := congrArg Prod.fst hn.symm
    refine ⟨⟨hrun.pc, hrun.steps, hrun.status, hrun.output, (congrArg Prod.snd hn).symm⟩, ?_, ?_⟩
    · exact fun r hr => hrun.bank r (.inl (hbc r hr))
    · intro r hne
      obtain ⟨hbefore, hstored⟩ := not_or.1 fun hr => hne (hrun.bank r hr)
      refine ⟨hbefore, hstored, ?_⟩
      unfold stored
      rw [heffects]
      exact hstored
  · intro b limit tracing k r hr
    exact read_run_of_not_stored fun hmem => hr (writesRegister_of_mem_stored hmem)

/-- A copy of R1 into R2 on two banks that differ in R2 and R3: what R2 held is forgotten, and R3
keeps what it holds. -/
theorem unread_registers_are_private_copy :
    let p : Program := #[⟨.known .mov, .register .r1, .register .r2⟩]
    let b : Bank := Bank.zero
    let c : Bank := { r2 := 1.0, r3 := 1.0 }
    (∀ r, p.ReadsRegister r → b.read r = c.read r) ∧ ¬ p.WritesRegister .r3 ∧
      ((start p b (some 1) false).run 3).2 = ((start p c (some 1) false).run 3).2 ∧
      ((start p b (some 1) false).run 3).1.bank.read .r2 =
        ((start p c (some 1) false).run 3).1.bank.read .r2 ∧
      ((start p c (some 1) false).run 3).1.bank.read .r3 = c.read .r3 := by
  intro p b c
  have hp : ∀ ins ∈ p, ins = ⟨.known .mov, .register .r1, .register .r2⟩ := by simp [p]
  have hreads : ∀ r, p.ReadsRegister r → b.read r = c.read r := by
    rintro r ⟨ins, hins, op, hop, hr⟩
    rw [hp ins hins] at hop hr
    cases hop
    rcases hr with ⟨-, hr⟩ | ⟨hdst, -⟩
    · cases hr; rfl
    · cases hdst
  have hwrites : ¬ p.WritesRegister .r3 := by
    rintro ⟨ins, hins, op, -, -, hr⟩
    rw [hp ins hins] at hr
    cases hr
  obtain ⟨hprivate, hkept⟩ := unread_registers_are_private p
  obtain ⟨⟨-, -, -, -, hend⟩, -, hapart⟩ := hprivate b c hreads (some 1) false 3
  refine ⟨hreads, hwrites, hend, ?_, hkept c (some 1) false 3 .r3 hwrites⟩
  -- if they differed, R2 would not have been written
  exact Classical.byContradiction fun hne => (hapart .r2 hne).2.1 List.mem_cons_self

end Machine

end RegisterMachine
