import RegisterMachine.Proofs.StepLimit

/-!
# Driving a machine

A caller may ask a machine for single steps and for runs, set its limit in between, and go on after
a fault. Whatever it does, the machine only ever moves along the one execution that a run without a
limit makes.

* `Action`, `Acted`, `Driven`: what a caller does with a machine, and where that leads. A run that
  never ends leads nowhere.
* `Agree`: two machines are alike but for their limits and their records.
* `Stuck`: the next instruction of a machine is refused, and always will be.
* `OnCourse`: the machine stands where a number of steps lead without a fault.

Principal results: `Stuck.step` and `OnCourse.step` (a step keeps the course, or the machine is
stuck for good), `Driven.keeps` (what each action keeps is kept by all of them), and
`driving_is_immaterial`.
-/

set_option autoImplicit false

namespace RegisterMachine.Machine

/-! ## Actions -/

/-- What a caller does with a machine. -/
inductive Action where
  /-- Asks for one instruction. -/
  | step
  /-- Asks for a run to the end. -/
  | run
  /-- Sets the limit, or lifts it. -/
  | setLimit (limit : Option Int)
  /-- Overwrites a register. -/
  | write (r : Register) (x : Float)

/-- Whether an action interferes with the registers. -/
def Action.writes : Action → Bool
  | .write _ _ => true
  | _ => false

/-- Where an action leads. Faults are ignored; a run has to come to an end. -/
inductive Acted : Action → Machine → Machine → Prop where
  | step (m : Machine) : Acted .step m m.step.1
  | run {m m' : Machine} {e : Ending} {fuel : Nat} (ends : m.run fuel = (m', e))
      (finished : e ≠ .unfinished) : Acted .run m m'
  | setLimit (m : Machine) (l : Option Int) : Acted (.setLimit l) m (m.withLimit l)
  | write (m : Machine) (r : Register) (x : Float) :
      Acted (.write r x) m { m with bank := m.bank.write r x }

/-- Where a sequence of actions leads. -/
inductive Driven : List Action → Machine → Machine → Prop where
  | nil (m : Machine) : Driven [] m m
  | cons {a : Action} {as : List Action} {m m1 m2 : Machine} (first : Acted a m m1)
      (others : Driven as m1 m2) : Driven (a :: as) m m2

theorem Driven.keeps {P : Machine → Prop} {as : List Action} {m m' : Machine}
    (h : Driven as m m') (hact : ∀ a ∈ as, ∀ n n', Acted a n n' → P n → P n') (hm : P m) : P m' := by
  induction h with
  | nil m => exact hm
  | cons first _ ih =>
    exact ih (fun a ha => hact a (.tail _ ha)) (hact _ (.head _) _ _ first hm)

/-- An action that leaves the registers alone keeps what steps keep, if neither the limit of a
machine nor the record of the end of a run matters to it. -/
theorem Acted.keeps {P : Machine → Prop} (hstep : ∀ m, P m → P m.step.1)
    (hend : ∀ m, P m → P (m.trace (.stopped m.status m.steps)))
    (hlimit : ∀ m l, P m → P (m.withLimit l)) {a : Action} {m m' : Machine} (h : Acted a m m')
    (ha : a.writes = false) (hm : P m) : P m' := by
  cases h with
  | step => exact hstep m hm
  | @run _ _ e fuel ends _ =>
    have hrun := run_keeps hstep hend fuel hm
    rwa [ends] at hrun
  | setLimit _ l => exact hlimit m l hm
  | write r x => cases ha

theorem Driven.keeps_of_writes {P : Machine → Prop} (hstep : ∀ m, P m → P m.step.1)
    (hend : ∀ m, P m → P (m.trace (.stopped m.status m.steps)))
    (hlimit : ∀ m l, P m → P (m.withLimit l))
    (hwrite : ∀ m r x, P m → P { m with bank := m.bank.write r x }) {as : List Action}
    {m m' : Machine} (h : Driven as m m') (hm : P m) : P m' := by
  refine h.keeps (fun a _ n n' hacted hn => ?_) hm
  cases hw : a.writes with
  | false => exact hacted.keeps hstep hend hlimit hw hn
  | true =>
    cases hacted with
    | write _ r x => exact hwrite n r x hn
    | _ => cases hw

/-! ## Machines that are alike -/

/-- Two machines are alike in all that steps depend on and callers look at. -/
structure Agree (m n : Machine) : Prop where
  program : m.program = n.program
  bank : m.bank = n.bank
  pc : m.pc = n.pc
  steps : m.steps = n.steps
  status : m.status = n.status
  output : m.output = n.output

namespace Agree

variable {m n : Machine}

theorem isDone (h : Agree m n) : m.isDone = n.isDone := by
  unfold Machine.isDone
  rw [h.status]

theorem trace_left (h : Agree m n) (e : LogEntry) : Agree (m.trace e) n where
  program := by simp [h.program]
  bank := by simp [h.bank]
  pc := by simp [h.pc]
  steps := by simp [h.steps]
  status := by simp [h.status]
  output := by simp [h.output]

theorem fetch (h : Agree m n) (ins : Instruction) : Agree (m.fetch ins) (n.fetch ins) where
  program := by simp [h.program]
  bank := by simp [h.bank]
  pc := by simp [h.pc]
  steps := by simp [h.steps]
  status := by simp [h.status]
  output := by simp [h.output]

theorem jump (h : Agree m n) (t : Int) : Agree (m.jump t) (n.jump t) := by
  have hsize : n.program.size = m.program.size := by rw [h.program]
  by_cases ht : 0 ≤ t ∧ t ≤ m.program.size
  · rw [jump_inside ht.1 ht.2, jump_inside ht.1 (hsize ▸ ht.2)]
    exact ⟨h.program, h.bank, rfl, h.steps, h.status, h.output⟩
  · rw [jump_outside ht, jump_outside (hsize ▸ ht)]
    exact ⟨h.program, h.bank, h.pc, h.steps, rfl, h.output⟩

theorem apply (h : Agree m n) (e : Effect) : Agree (m.apply e) (n.apply e) := by
  have hnext : m.pc + 1 = n.pc + 1 := by rw [h.pc]
  cases e with
  | proceed => exact ⟨h.program, h.bank, hnext, h.steps, h.status, h.output⟩
  | store r x =>
    have hbank : m.bank.write r x = n.bank.write r x := by rw [h.bank]
    exact ⟨h.program, hbank, hnext, h.steps, h.status, h.output⟩
  | print x =>
    have hout : m.output.push (String.ofList (Number.text x)) =
        n.output.push (String.ofList (Number.text x)) := by rw [h.output]
    exact ⟨h.program, h.bank, hnext, h.steps, h.status, hout⟩
  | jump t => exact h.jump t

/-- Machines that are alike do the same in a step, and stay alike. -/
theorem step (h : Agree m n) : Agree m.step.1 n.step.1 ∧ m.step.2 = n.step.2 := by
  cases hs : m.step with
  | mk m' f =>
    cases stepped_of_step hs with
    | rest hd =>
      rw [step_of_done (h.isDone ▸ hd)]
      exact ⟨h, rfl⟩
    | halt hb hl =>
      rw [h.program, h.pc] at hl
      rw [(Stepped.halt (h.isDone ▸ hb) hl).step_eq]
      exact ⟨⟨h.program, h.bank, h.pc, h.steps, rfl, h.output⟩, rfl⟩
    | refuse ins r hb hf he =>
      rw [h.program, h.pc] at hf
      rw [h.bank] at he
      rw [(Stepped.refuse ins r (h.isDone ▸ hb) hf he).step_eq, h.pc]
      exact ⟨h.fetch ins, rfl⟩
    | execute ins e hb hf he =>
      rw [h.program, h.pc] at hf
      rw [h.bank] at he
      rw [(Stepped.execute ins e (h.isDone ▸ hb) hf he).step_eq]
      exact ⟨(h.fetch ins).apply e, rfl⟩

end Agree

/-! ## Machines that are stuck -/

/-- The next instruction of the machine is refused. -/
def Stuck (m : Machine) : Prop :=
  m.isDone = false ∧ ∃ ins r, m.program[m.pc]? = some ins ∧ ins.effect m.bank = .error r

theorem Stuck.step {m : Machine} (h : Stuck m) : Stuck m.step.1 := by
  obtain ⟨hb, ins, r, hf, he⟩ := h
  rw [(Stepped.refuse ins r hb hf he).step_eq]
  refine ⟨?_, ins, r, ?_, ?_⟩
  · simpa [isDone] using hb
  · simpa using hf
  · simpa using he

theorem stuck_of_fault {m m' : Machine} {f : Fault} (h : m.step = (m', some f)) : Stuck m := by
  cases stepped_of_step h with
  | refuse ins r hb hf he => exact ⟨hb, ins, r, hf, he⟩

theorem Stuck.trace {m : Machine} (h : Stuck m) (e : LogEntry) : Stuck (m.trace e) := by
  simpa [Stuck, isDone] using h

theorem Stuck.withLimit {m : Machine} (h : Stuck m) (l : Option Int) : Stuck (m.withLimit l) := h

/-! ## Machines on course -/

/-- The machine stands where a number of steps of another lead without a fault. -/
def OnCourse (origin m : Machine) : Prop :=
  ∃ k n, after k origin = (n, none) ∧ Agree m n

/-- A step of a machine on course keeps it there, or the machine is stuck. -/
theorem OnCourse.step {origin m : Machine} (h : OnCourse origin m) :
    OnCourse origin m.step.1 ∨ Stuck m.step.1 := by
  obtain ⟨k, n, hk, hagree⟩ := h
  obtain ⟨hnext, hfault⟩ := hagree.step
  cases hm : m.step with
  | mk m' f =>
    cases hn : n.step with
    | mk n' g =>
      rw [hm, hn] at hnext hfault
      obtain rfl : f = g := hfault
      cases f with
      | none => exact .inl ⟨k + 1, n', (after_succ hk).trans hn, hnext⟩
      | some f =>
        have hstuck := (stuck_of_fault hm).step
        rw [hm] at hstuck
        exact .inr hstuck

theorem OnCourse.trace {origin m : Machine} (h : OnCourse origin m) (e : LogEntry) :
    OnCourse origin (m.trace e) := by
  obtain ⟨k, n, hk, hagree⟩ := h
  exact ⟨k, n, hk, hagree.trace_left e⟩

theorem OnCourse.withLimit {origin m : Machine} (h : OnCourse origin m) (l : Option Int) :
    OnCourse origin (m.withLimit l) := by
  obtain ⟨k, n, hk, hagree⟩ := h
  exact ⟨k, n, hk, hagree.program, hagree.bank, hagree.pc, hagree.steps, hagree.status,
    hagree.output⟩

theorem Driven.onCourse_or_stuck {as : List Action} {origin m m' : Machine} (h : Driven as m m')
    (hw : ∀ a ∈ as, a.writes = false) (hm : OnCourse origin m) : OnCourse origin m' ∨ Stuck m' := by
  refine h.keeps (P := fun n => OnCourse origin n ∨ Stuck n) ?_ (.inl hm)
  intro a ha n n' hacted hn
  refine hacted.keeps (P := fun n => OnCourse origin n ∨ Stuck n) ?_ ?_ ?_ (hw a ha) hn
  · exact fun n hn => hn.elim (fun h => h.step) fun h => .inr h.step
  · exact fun n hn => hn.imp (fun h => h.trace _) fun h => h.trace _
  · exact fun n l hn => hn.imp (fun h => h.withLimit l) fun h => h.withLimit l

/-- **It does not matter how a machine is driven.** If steps, runs and changes of the limit, in any
order and with any faults on the way, bring a machine to its end, then a single run without a limit
stops with the same registers, index, count of steps, status and output. -/
theorem driving_is_immaterial (p : Program) (b : Bank) (limit : Option Int) (tracing : Bool)
    {as : List Action} {m : Machine} (h : Driven as (start p b limit tracing) m)
    (hw : ∀ a ∈ as, a.writes = false) (hd : m.isDone = true) :
    ∃ fuel m', (start p b none tracing).run fuel = (m', .stopped) ∧ m.pc = m'.pc ∧
      m.steps = m'.steps ∧ m.status = m'.status ∧ m.bank = m'.bank ∧ m.output = m'.output := by
  have horigin : OnCourse (start p b none tracing) (start p b limit tracing) :=
    ⟨0, _, rfl, rfl, rfl, rfl, rfl, rfl, rfl⟩
  rcases h.onCourse_or_stuck hw horigin with ⟨k, n, hk, hagree⟩ | ⟨hb, -⟩
  · have hrun := run_of_after_done rfl hk (hagree.isDone ▸ hd)
    refine ⟨k + 1, _, hrun, ?_, ?_, ?_, ?_, ?_⟩
    · simp [hagree.pc]
    · simp [hagree.steps]
    · simp [hagree.status]
    · simp [hagree.bank]
    · simp [hagree.output]
  · rw [hd] at hb
    cases hb

/-- A run that is cut off after one instruction, then a single step, then a run with the limit
lifted: together they print once what a run without a limit prints. -/
theorem driving_is_immaterial_after_limit :
    let p : Program := #[{ op := .known .nop }, { op := .known .prn, src := .register .r1 }]
    ∃ m, Driven [.run, .step, .setLimit none, .run] (start p Bank.zero (some 1) false) m ∧
      m.isDone = true ∧ m.steps = 2 ∧
        ∃ fuel m', (start p Bank.zero none false).run fuel = (m', .stopped) ∧
          m.output = m'.output := by
  intro p
  have hcut : (start p Bank.zero (some 1) false).run 2 =
      ({ program := p, pc := 1, steps := 1, limit := some 1 }, .failed (.limitExceeded 1 1)) := rfl
  have hend : Machine.run 2
      { program := p, pc := 2, steps := 2, output := #[String.ofList (Number.text 0.0)] } =
        ({ program := p, pc := 2, steps := 2, output := #[String.ofList (Number.text 0.0)],
            status := .halted }, .stopped) := rfl
  have hdriven : Driven [.run, .step, .setLimit none, .run] (start p Bank.zero (some 1) false)
      { program := p, pc := 2, steps := 2, output := #[String.ofList (Number.text 0.0)],
        status := .halted } :=
    .cons (.run hcut (by decide)) (.cons (.step _) (.cons (.setLimit _ none)
      (.cons (.run hend (by decide)) (.nil _))))
  obtain ⟨fuel, m', hrun, -, -, -, -, hout⟩ :=
    driving_is_immaterial p Bank.zero (some 1) false hdriven (by decide) rfl
  exact ⟨_, hdriven, rfl, rfl, fuel, m', hrun, hout⟩

end RegisterMachine.Machine
