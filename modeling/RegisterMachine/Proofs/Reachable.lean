import RegisterMachine.Proofs.Driving
import RegisterMachine.Proofs.Effects

/-!
# What holds wherever a machine is brought

Whatever a caller does with a machine, steps, runs, limits and overwritten registers in any order,
its status tells where it stands, its record holds a warning if and only if it jumped out of its
program, its count of steps is the number of instructions it fetched, and once it is done it stays
as it is.

* `Instruction.target?`: the index that a jump names where the machine looks for it.
* `Machine.warnings`: the warnings on record.
* `InOrder`: what the index, the status and the warnings of a machine say about each other.
* `fetches`, `visits`, `Travelled`: the indices of the instructions that a step, a run and a
  sequence of actions fetch, in the order in which they are fetched.

Principal results: `InOrder.step`, `Driven.inOrder` (a step keeps the order, so does any driving),
`Travelled.steps_eq` (every fetch is counted, nothing else is) and `driven_in_order`.
-/

set_option autoImplicit false

namespace RegisterMachine

/-! ## The target of a jump -/

/-- The index that an operand is. -/
def Operand.index? : Operand → Option Int
  | .index n => some n
  | _ => none

/-- The operand at which a jump looks for its target: the destination, or the source of an
unconditional jump if that is an index. Only jumps look for one. -/
def Instruction.targetOperand? (ins : Instruction) : Option Operand :=
  match ins.op with
  | .known .jmp => some (if ins.src.kind = .index then ins.src else ins.dst)
  | .known .jmt | .known .jmf => some ins.dst
  | _ => none

/-- The target of a jump, if there is an index where the jump looks for it. -/
def Instruction.target? (ins : Instruction) : Option Int :=
  ins.targetOperand?.bind Operand.index?

theorem Operand.index?_of_target {o : Operand} {t : Int} (h : o.target = .ok t) :
    o.index? = some t := by
  cases o with
  | index n => cases h; rfl
  | _ => cases h

namespace Instruction

theorem isJump_of_target? {ins : Instruction} {t : Int} (h : ins.target? = some t) :
    ∃ op, ins.op = .known op ∧ op.isJump = true := by
  unfold target? targetOperand? at h
  split at h
  · exact ⟨_, ‹_›, rfl⟩
  · exact ⟨_, ‹_›, rfl⟩
  · exact ⟨_, ‹_›, rfl⟩
  · cases h

theorem target?_of_effect {ins : Instruction} {b : Bank} {t : Int}
    (h : ins.effect b = .ok (.jump t)) : ins.target? = some t := by
  unfold target? targetOperand?
  cases does_of_effect h with
  | jump known ht => rw [known]; exact Operand.index?_of_target ht
  | branch known conditional ht =>
    rcases conditional with rfl | rfl
    · rw [known]; exact Operand.index?_of_target ht
    · rw [known]; exact Operand.index?_of_target ht

end Instruction

namespace Machine

/-! ## Warnings -/

/-- The warnings on record, in the order in which they came. -/
def warnings (m : Machine) : List LogEntry := m.log.toList.filter (·.level == .warning)

theorem warnings_record (m : Machine) (e : LogEntry) :
    (m.record e).warnings = m.warnings ++ [e].filter (·.level == .warning) := by
  simp [warnings, record, List.filter_append]

theorem warnings_trace {e : LogEntry} (m : Machine) (he : e.level = .debug) :
    (m.trace e).warnings = m.warnings := by
  unfold trace
  split
  · rw [warnings_record]
    simp [he]
  · rfl

@[simp] theorem warnings_fetch (m : Machine) (ins : Instruction) :
    (m.fetch ins).warnings = m.warnings :=
  warnings_trace m rfl

/-! ## Machines in order -/

/-- What the index, the status and the warnings of a machine say about each other. -/
structure InOrder (m : Machine) : Prop where
  /-- The index is that of an instruction or of the end. -/
  index : m.pc ≤ m.program.size
  /-- A machine that halted is at the end. -/
  halted : m.status = .halted → m.pc = m.program.size
  /-- One that jumped out stands at the jump and has warned of it once. -/
  jumpedOut : m.status = .jumpedOut → ∃ ins t, m.program[m.pc]? = some ins ∧
    ins.target? = some t ∧ ¬ (0 ≤ t ∧ t ≤ m.program.size) ∧
    m.warnings = [.jumpedOut m.pc t m.program.size]
  /-- Any other has not warned. -/
  silent : m.status ≠ .jumpedOut → m.warnings = []

theorem isDone_eq_false_iff {m : Machine} : m.isDone = false ↔ m.status = .running := by
  simp [isDone]

theorem inOrder_of_running {m : Machine} (hs : m.status = .running) (hpc : m.pc ≤ m.program.size)
    (hw : m.warnings = []) : InOrder m where
  index := hpc
  halted h := by rw [hs] at h; cases h
  jumpedOut h := by rw [hs] at h; cases h
  silent _ := hw

namespace InOrder

variable {m : Machine}

theorem warnings_eq_nil (h : InOrder m) (hb : m.isDone = false) : m.warnings = [] :=
  h.silent (by rw [isDone_eq_false_iff.1 hb]; decide)

/-- The effect of the instruction at hand keeps the order. -/
theorem apply {ins : Instruction} {e : Effect} {b : Bank} (h : InOrder m) (hb : m.isDone = false)
    (hf : m.program[m.pc]? = some ins) (he : ins.effect b = .ok e) : InOrder (m.apply e) := by
  have hs := isDone_eq_false_iff.1 hb
  have hw := h.warnings_eq_nil hb
  have hnext : m.pc + 1 ≤ m.program.size := (Array.getElem?_eq_some_iff.1 hf).1
  cases e with
  | proceed => exact inOrder_of_running hs hnext hw
  | store r x => exact inOrder_of_running hs hnext hw
  | print x => exact inOrder_of_running hs hnext hw
  | jump t =>
    by_cases ht : 0 ≤ t ∧ t ≤ m.program.size
    · rw [Machine.apply, jump_inside ht.1 ht.2]
      exact inOrder_of_running hs (by show t.toNat ≤ m.program.size; omega) hw
    · rw [Machine.apply, jump_outside ht]
      refine ⟨h.index, fun hstat => (by cases hstat), fun _ => ?_, fun hstat => absurd rfl hstat⟩
      have hwarn := warnings_record m (.jumpedOut m.pc t m.program.size)
      rw [hw] at hwarn
      exact ⟨ins, t, hf, Instruction.target?_of_effect he, ht, hwarn⟩

/-- A step keeps the order. -/
theorem step (h : InOrder m) : InOrder m.step.1 := by
  cases hs : m.step with
  | mk m' f =>
    cases stepped_of_step hs with
    | rest _ => exact h
    | halt hb hl =>
      have hsize := Array.getElem?_eq_none_iff.1 hl
      exact ⟨h.index, fun _ => Nat.le_antisymm h.index hsize, fun hstat => (by cases hstat),
        fun _ => h.warnings_eq_nil hb⟩
    | refuse ins r hb hf he =>
      exact inOrder_of_running (by simpa using isDone_eq_false_iff.1 hb) (by simpa using h.index)
        (by simpa using h.warnings_eq_nil hb)
    | execute ins e hb hf he =>
      have hfetch : InOrder (m.fetch ins) :=
        inOrder_of_running (by simpa using isDone_eq_false_iff.1 hb) (by simpa using h.index)
          (by simpa using h.warnings_eq_nil hb)
      exact hfetch.apply (by simpa [isDone] using hb) (by simpa using hf) he

theorem trace {e : LogEntry} (h : InOrder m) (he : e.level = .debug) : InOrder (m.trace e) := by
  obtain ⟨hindex, hhalted, hjumped, hsilent⟩ := h
  constructor
  · simpa using hindex
  · simpa using hhalted
  · simpa [warnings_trace m he] using hjumped
  · simpa [warnings_trace m he] using hsilent

/-- A run keeps the order, also one that is not over yet. -/
theorem run (h : InOrder m) (fuel : Nat) : InOrder (m.run fuel).1 :=
  run_keeps (fun _ hn => hn.step) (fun _ hn => hn.trace rfl) fuel h

end InOrder

theorem Driven.program_eq {as : List Action} {m m' : Machine} (h : Driven as m m') :
    m'.program = m.program :=
  h.keeps_of_writes (P := fun n => n.program = m.program) (fun n hn => (step_program n).trans hn)
    (fun n hn => (trace_program n _).trans hn) (fun _ _ hn => hn) (fun _ _ _ hn => hn) rfl

theorem Driven.inOrder {as : List Action} {m m' : Machine} (h : Driven as m m') (hm : InOrder m) :
    InOrder m' :=
  h.keeps_of_writes (P := InOrder) (fun _ hn => hn.step) (fun _ hn => hn.trace rfl)
    (fun _ _ hn => ⟨hn.index, hn.halted, hn.jumpedOut, hn.silent⟩)
    (fun _ _ _ hn => ⟨hn.index, hn.halted, hn.jumpedOut, hn.silent⟩) hm

/-! ## The instructions fetched -/

/-- The index of the instruction that a step fetches; none if the machine is done or at the end. -/
def fetches (m : Machine) : List Nat :=
  if m.isDone = false ∧ m.pc < m.program.size then [m.pc] else []

/-- The indices of the instructions that a run fetches, in order. -/
def visits : Nat → Machine → List Nat
  | 0, _ => []
  | fuel + 1, m =>
    if m.isDone then []
    else
      match m.exceeded? with
      | some _ => []
      | none =>
        match m.step with
        | (m', none) => m.fetches ++ visits fuel m'
        | (_, some _) => m.fetches

/-- Where a sequence of actions leads, with the indices of the instructions fetched on the way. -/
inductive Travelled : List Action → Machine → List Nat → Machine → Prop where
  | nil (m : Machine) : Travelled [] m [] m
  | step {as : List Action} {m m' : Machine} {path : List Nat}
      (others : Travelled as m.step.1 path m') :
      Travelled (.step :: as) m (m.fetches ++ path) m'
  | run {as : List Action} {m m1 m' : Machine} {e : Ending} {fuel : Nat} {path : List Nat}
      (ends : m.run fuel = (m1, e)) (finished : e ≠ .unfinished)
      (others : Travelled as m1 path m') : Travelled (.run :: as) m (visits fuel m ++ path) m'
  | setLimit {as : List Action} {m m' : Machine} {path : List Nat} (l : Option Int)
      (others : Travelled as (m.withLimit l) path m') : Travelled (.setLimit l :: as) m path m'
  | write {as : List Action} {m m' : Machine} {path : List Nat} (r : Register) (x : Float)
      (others : Travelled as { m with bank := m.bank.write r x } path m') :
      Travelled (.write r x :: as) m path m'

theorem step_steps_eq (m : Machine) : m.step.1.steps = m.steps + m.fetches.length := by
  unfold fetches
  cases hd : m.isDone with
  | true => simp [step_of_done hd]
  | false =>
    by_cases hpc : m.pc < m.program.size
    · simp [step_steps_of_inside hd hpc, hpc]
    · simp [step_at_end hd (Nat.le_of_not_lt hpc), hpc]

theorem Ran.steps_eq {fuel : Nat} {m m' : Machine} {es : List Effect} {e : Ending}
    (h : Ran fuel m es m' e) : m'.steps = m.steps + (visits fuel m).length := by
  induction h with
  | unfinished => rfl
  | stopped hd => simp [visits, hd]
  | exceeded hb hx => simp [visits, hb, hx]
  | @failed m m1 _ _ hb hx hs =>
    have hstep := step_steps_eq m
    rw [hs] at hstep
    simpa [visits, hb, hx, hs] using hstep
  | @step m m1 _ _ _ _ hb hx hs _ ih =>
    have hstep := step_steps_eq m
    rw [hs] at hstep
    rw [ih, hstep]
    simp [visits, hb, hx, hs, Nat.add_assoc]

theorem run_steps_eq (fuel : Nat) (m : Machine) :
    (run fuel m).1.steps = m.steps + (visits fuel m).length :=
  (ran fuel m).steps_eq

/-- Whatever a caller does, the instructions fetched are counted and nothing else is. -/
theorem Travelled.steps_eq {as : List Action} {m m' : Machine} {path : List Nat}
    (h : Travelled as m path m') : m'.steps = m.steps + path.length := by
  induction h with
  | nil m => rfl
  | @step as m m' path _ ih => rw [ih, step_steps_eq, List.length_append, Nat.add_assoc]
  | @run as m m1 m' e fuel path ends _ _ ih =>
    have hrun := run_steps_eq fuel m
    rw [ends] at hrun
    rw [ih, hrun, List.length_append, Nat.add_assoc]
  | setLimit l _ ih => exact ih
  | write r x _ ih => exact ih

theorem Driven.exists_travelled {as : List Action} {m m' : Machine} (h : Driven as m m') :
    ∃ path, Travelled as m path m' := by
  induction h with
  | nil m => exact ⟨[], .nil m⟩
  | cons first _ ih =>
    obtain ⟨path, hpath⟩ := ih
    cases first with
    | step => exact ⟨_, .step hpath⟩
    | run ends finished => exact ⟨_, .run ends finished hpath⟩
    | setLimit _ l => exact ⟨_, .setLimit l hpath⟩
    | write _ r x => exact ⟨_, .write r x hpath⟩

/-! ## Machines that are done -/

/-- A machine that is done stays as it is, apart from its limit and its record. -/
theorem Driven.agree_of_done {as : List Action} {m m' : Machine} (h : Driven as m m')
    (hw : ∀ a ∈ as, a.writes = false) (hd : m.isDone = true) : Agree m' m := by
  refine h.keeps (P := fun n => Agree n m) (fun a ha n n' hacted hn => ?_)
    ⟨rfl, rfl, rfl, rfl, rfl, rfl⟩
  refine hacted.keeps (P := fun n => Agree n m) ?_ ?_ ?_ (hw a ha) hn
  · intro n hn
    rw [step_of_done (hn.isDone.trans hd)]
    exact hn
  · exact fun n hn => hn.trace_left _
  · exact fun n l hn => ⟨hn.program, hn.bank, hn.pc, hn.steps, hn.status, hn.output⟩

theorem start_inOrder (p : Program) (b : Bank) (limit : Option Int) (tracing : Bool) :
    InOrder (start p b limit tracing) :=
  inOrder_of_running rfl (Nat.zero_le _) rfl

/-- **A machine is in order wherever it is brought.** After any steps, runs, changes of the limit
and writes to registers, with any faults on the way: its index is that of an instruction or of the
end; if it has halted, it stands at the end; if it has jumped out, it stands at a jump whose target
lies outside the program, and its only warning is of that jump; otherwise it has not warned; it has
counted the instructions it fetched; and if it is done, steps and runs change no more than its
record. (A value that cannot be converted is refused before a register is written, so it is no
write.) -/
theorem driven_in_order (p : Program) (b : Bank) (limit : Option Int) (tracing : Bool)
    {as : List Action} {m : Machine} (h : Driven as (start p b limit tracing) m) :
    (0 ≤ m.pc ∧ m.pc ≤ p.size) ∧
    (m.status = .halted → m.pc = p.size) ∧
    (m.status = .jumpedOut → m.pc < p.size ∧ ∃ ins op t, p[m.pc]? = some ins ∧
      ins.op = .known op ∧ op.isJump = true ∧ ins.target? = some t ∧ (t < 0 ∨ (p.size : Int) < t) ∧
      m.warnings = [.jumpedOut m.pc t p.size]) ∧
    (m.status ≠ .jumpedOut → m.warnings = []) ∧
    ((∃ path, Travelled as (start p b limit tracing) path m) ∧
      ∀ path, Travelled as (start p b limit tracing) path m → m.steps = path.length) ∧
    (m.isDone = true →
      m.step = (m, none) ∧
      (∀ fuel, m.run (fuel + 1) = (m.trace (.stopped m.status m.steps), .stopped)) ∧
      ∀ more m', Driven more m m' → (∀ a ∈ more, a.writes = false) → Agree m' m) := by
  have horder := h.inOrder (start_inOrder p b limit tracing)
  have hprog : m.program = p := h.program_eq
  obtain ⟨hindex, hhalted, hjumped, hsilent⟩ := horder
  rw [hprog] at hindex hhalted hjumped
  refine ⟨⟨Nat.zero_le _, hindex⟩, hhalted, ?_, hsilent, ⟨h.exists_travelled, ?_⟩, ?_⟩
  · intro hstat
    obtain ⟨ins, t, hf, ht, hout, hwarn⟩ := hjumped hstat
    obtain ⟨op, hop, hjump⟩ := Instruction.isJump_of_target? ht
    exact ⟨(Array.getElem?_eq_some_iff.1 hf).1, ins, op, t, hf, hop, hjump, ht, by omega, hwarn⟩
  · intro path hpath
    rw [hpath.steps_eq]
    exact Nat.zero_add _
  · exact fun hd => ⟨step_of_done hd, fun fuel => run_of_done fuel hd,
      fun more m' hmore hw => hmore.agree_of_done hw hd⟩

/-- A jump behind the end, driven by a step, a run and a change of the limit: one warning, two
instructions counted, and a last run changes nothing. -/
theorem driven_in_order_jump_behind_end :
    let p : Program := #[{ op := .known .nop }, { op := .known .jmp, src := .index 3 }]
    ∃ m, Driven [.step, .write .r1 5.0, .run, .setLimit (some 0)] (start p Bank.zero none false) m ∧
      m.status = .jumpedOut ∧ m.pc < p.size ∧ m.warnings.length = 1 ∧ m.isDone = true ∧
      m.step = (m, none) := by
  intro p
  let m1 : Machine := { program := p, bank := Bank.zero.write .r1 5.0, pc := 1, steps := 1 }
  have hrun : m1.run 2 = ({ m1 with
      steps := 2, status := .jumpedOut, log := #[.jumpedOut 1 3 2] }, .stopped) := rfl
  have hdriven : Driven [.step, .write .r1 5.0, .run, .setLimit (some 0)]
      (start p Bank.zero none false) { m1 with
        steps := 2, status := .jumpedOut, log := #[.jumpedOut 1 3 2], limit := some 0 } :=
    .cons (.step _) (.cons (.write _ .r1 5.0) (.cons (.run hrun (by decide))
      (.cons (.setLimit _ (some 0)) (.nil _))))
  obtain ⟨-, -, hjumped, -, -, hdone⟩ := driven_in_order p Bank.zero none false hdriven
  obtain ⟨hpc, ins, op, t, -, -, -, -, -, hwarn⟩ := hjumped rfl
  exact ⟨_, hdriven, rfl, hpc, by rw [hwarn]; rfl, rfl, (hdone rfl).1⟩

end Machine

end RegisterMachine
