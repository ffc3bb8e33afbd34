import RegisterMachine.Machine

/-!
# Executions of the machine

A run is a sequence of steps that something ends: the machine is done, an instruction is refused,
or the limit forbids the next instruction.

* `Machine.start`: a machine at the first instruction of a program.
* `Machine.after k`: what `k` steps lead to, up to one that fails.
* `Machine.Stepped`: everything a single step can do, as a relation.

Principal results: `after_of_run`, `run_of_after_done` and `run_of_after_fault` say where among the
steps of a machine a run without a limit ends; `run_mono` says that more fuel keeps an ending, and
`run_ends_of_measure` that a run ends in which something decreases.
-/

set_option autoImplicit false

namespace RegisterMachine.Machine

/-- A machine that is about to execute a program on a bank. -/
def start (p : Program) (b : Bank) (limit : Option Int) (tracing : Bool) : Machine :=
  { program := p, bank := b, limit := limit, tracing := tracing }

/-- What `k` steps lead to, up to one that fails, with the fault of that one. -/
def after : Nat → Machine → Machine × Option Fault
  | 0, m => (m, none)
  | k + 1, m =>
    match m.step with
    | (m, none) => after k m
    | (m, some f) => (m, some f)

/-! ## One step -/

/-- What a step of a machine can lead to. -/
inductive Stepped (m : Machine) : Machine → Option Fault → Prop where
  /-- A machine that is done stays as it is. -/
  | rest (done : m.isDone = true) : Stepped m m none
  /-- Past the last instruction the machine halts. -/
  | halt (busy : m.isDone = false) (last : m.program[m.pc]? = none) :
      Stepped m { m with status := .halted } none
  /-- An instruction that cannot be executed is counted and changes nothing else. -/
  | refuse (ins : Instruction) (r : Refusal) (busy : m.isDone = false)
      (fetched : m.program[m.pc]? = some ins) (refused : ins.effect m.bank = .error r) :
      Stepped m (m.fetch ins) (some (.refused r m.pc))
  /-- Any other instruction has its effect. -/
  | execute (ins : Instruction) (e : Effect) (busy : m.isDone = false)
      (fetched : m.program[m.pc]? = some ins) (effect : ins.effect m.bank = .ok e) :
      Stepped m ((m.fetch ins).apply e) none

theorem stepped_of_step {m m' : Machine} {f : Option Fault} (h : m.step = (m', f)) :
    Stepped m m' f := by
  unfold step at h
  split at h
  · rename_i hd
    cases h
    exact .rest hd
  · rename_i hd
    have hb : m.isDone = false := by simpa using hd
    split at h
    · rename_i hl
      cases h
      exact .halt hb hl
    · rename_i ins hf
      split at h
      · rename_i r he
        cases h
        exact .refuse ins r hb hf he
      · rename_i e he
        cases h
        exact .execute ins e hb hf he

theorem Stepped.step_eq {m m' : Machine} {f : Option Fault} (h : Stepped m m' f) :
    m.step = (m', f) := by
  cases h with
  | rest hd => simp [step, hd]
  | halt hb hl => simp [step, hb, hl]
  | refuse ins r hb hf he => simp [step, hb, hf, he]
  | execute ins e hb hf he => simp [step, hb, hf, he]

theorem step_of_done {m : Machine} (h : m.isDone = true) : m.step = (m, none) :=
  (Stepped.rest h).step_eq

/-! ## What the parts of a step leave alone -/

@[simp] theorem fetch_program (m : Machine) (ins : Instruction) :
    (m.fetch ins).program = m.program := by
  unfold fetch trace record; split <;> rfl

@[simp] theorem fetch_bank (m : Machine) (ins : Instruction) : (m.fetch ins).bank = m.bank := by
  unfold fetch trace record; split <;> rfl

@[simp] theorem fetch_pc (m : Machine) (ins : Instruction) : (m.fetch ins).pc = m.pc := by
  unfold fetch trace record; split <;> rfl

@[simp] theorem fetch_steps (m : Machine) (ins : Instruction) :
    (m.fetch ins).steps = m.steps + 1 := rfl

@[simp] theorem fetch_status (m : Machine) (ins : Instruction) :
    (m.fetch ins).status = m.status := by
  unfold fetch trace record; split <;> rfl

@[simp] theorem fetch_output (m : Machine) (ins : Instruction) :
    (m.fetch ins).output = m.output := by
  unfold fetch trace record; split <;> rfl

@[simp] theorem fetch_limit (m : Machine) (ins : Instruction) : (m.fetch ins).limit = m.limit := by
  unfold fetch trace record; split <;> rfl

theorem jump_inside {m : Machine} {t : Int} (h0 : 0 ≤ t) (h1 : t ≤ m.program.size) :
    m.jump t = { m with pc := t.toNat } := by
  unfold jump
  rw [if_neg (by omega)]

theorem jump_outside {m : Machine} {t : Int} (h : ¬ (0 ≤ t ∧ t ≤ m.program.size)) :
    m.jump t = { m.record (.jumpedOut m.pc t m.program.size) with status := .jumpedOut } := by
  unfold jump
  rw [if_pos (by omega)]

@[simp] theorem jump_steps (m : Machine) (t : Int) : (m.jump t).steps = m.steps := by
  unfold jump record; split <;> rfl

@[simp] theorem jump_program (m : Machine) (t : Int) : (m.jump t).program = m.program := by
  unfold jump record; split <;> rfl

@[simp] theorem jump_output (m : Machine) (t : Int) : (m.jump t).output = m.output := by
  unfold jump record; split <;> rfl

@[simp] theorem jump_limit (m : Machine) (t : Int) : (m.jump t).limit = m.limit := by
  unfold jump record; split <;> rfl

@[simp] theorem apply_steps (m : Machine) (e : Effect) : (m.apply e).steps = m.steps := by
  cases e <;> simp [apply, advance]

@[simp] theorem apply_program (m : Machine) (e : Effect) : (m.apply e).program = m.program := by
  cases e <;> simp [apply, advance]

@[simp] theorem apply_limit (m : Machine) (e : Effect) : (m.apply e).limit = m.limit := by
  cases e <;> simp [apply, advance]

@[simp] theorem trace_program (m : Machine) (e : LogEntry) : (m.trace e).program = m.program := by
  unfold trace record; split <;> rfl

@[simp] theorem trace_bank (m : Machine) (e : LogEntry) : (m.trace e).bank = m.bank := by
  unfold trace record; split <;> rfl

@[simp] theorem trace_pc (m : Machine) (e : LogEntry) : (m.trace e).pc = m.pc := by
  unfold trace record; split <;> rfl

@[simp] theorem trace_status (m : Machine) (e : LogEntry) : (m.trace e).status = m.status := by
  unfold trace record; split <;> rfl

@[simp] theorem trace_output (m : Machine) (e : LogEntry) : (m.trace e).output = m.output := by
  unfold trace record; split <;> rfl

@[simp] theorem trace_steps (m : Machine) (e : LogEntry) : (m.trace e).steps = m.steps := by
  unfold trace record; split <;> rfl

theorem limit_of_step {m m' : Machine} {f : Option Fault} {l : Option Int} (hl : m.limit = l)
    (h : m.step = (m', f)) : m'.limit = l := by
  cases stepped_of_step h <;> simp [hl]

theorem step_program (m : Machine) : m.step.1.program = m.program := by
  cases hs : m.step with
  | mk m' f => cases stepped_of_step hs <;> simp

theorem output_size_le_step (m : Machine) : m.output.size ≤ m.step.1.output.size := by
  cases hs : m.step with
  | mk m' f =>
    cases stepped_of_step hs with
    | execute ins e _ _ _ => cases e <;> simp [apply, advance]
    | _ => simp

/-! ## The count of steps -/

theorem step_steps_of_inside {m : Machine} (hb : m.isDone = false) (hpc : m.pc < m.program.size) :
    m.step.1.steps = m.steps + 1 := by
  cases hs : m.step with
  | mk m' f =>
    cases stepped_of_step hs with
    | rest hd => rw [hb] at hd; cases hd
    | halt _ hl => have := Array.getElem?_eq_none_iff.1 hl; omega
    | refuse ins r _ _ _ => simp
    | execute ins e _ _ _ => simp

theorem step_at_end {m : Machine} (hb : m.isDone = false) (hpc : m.program.size ≤ m.pc) :
    m.step = ({ m with status := .halted }, none) :=
  (Stepped.halt hb (Array.getElem?_eq_none_iff.2 hpc)).step_eq

theorem le_step_steps (m : Machine) : m.steps ≤ m.step.1.steps := by
  cases hs : m.step with
  | mk m' f => cases stepped_of_step hs <;> simp

theorem step_steps_le (m : Machine) : m.step.1.steps ≤ m.steps + 1 := by
  cases hs : m.step with
  | mk m' f => cases stepped_of_step hs <;> simp

/-! ## Several steps -/

@[simp] theorem after_zero (m : Machine) : after 0 m = (m, none) := rfl

theorem after_succ_of_step {m m' : Machine} (k : Nat) (h : m.step = (m', none)) :
    after (k + 1) m = after k m' := by
  simp [after, h]

theorem after_succ_of_fault {m m' : Machine} {f : Fault} (k : Nat) (h : m.step = (m', some f)) :
    after (k + 1) m = (m', some f) := by
  simp [after, h]

theorem after_of_done {m : Machine} (h : m.isDone = true) : ∀ k, after k m = (m, none)
  | 0 => rfl
  | k + 1 => by rw [after_succ_of_step k (step_of_done h), after_of_done h k]

/-- The steps in reverse: the last of several is a step of the machine that the others lead to. -/
theorem after_succ {m m' : Machine} {k : Nat} (h : after k m = (m', none)) :
    after (k + 1) m = m'.step := by
  induction k generalizing m with
  | zero =>
    cases h
    cases hs : m'.step with
    | mk m1 f => cases f <;> simp [after, hs]
  | succ k ih =>
    cases hs : m.step with
    | mk m1 f =>
      cases f with
      | none =>
        rw [after_succ_of_step _ hs] at h ⊢
        exact ih h
      | some f =>
        rw [after_succ_of_fault _ hs] at h
        cases h

theorem after_steps_le (k : Nat) (m : Machine) : (after k m).1.steps ≤ m.steps + k := by
  induction k generalizing m with
  | zero => simp
  | succ k ih =>
    have hle := step_steps_le m
    cases hs : m.step with
    | mk m1 f =>
      have hle1 : m1.steps ≤ m.steps + 1 := by rw [hs] at hle; exact hle
      cases f with
      | none =>
        have := ih m1
        rw [after_succ_of_step _ hs]
        omega
      | some f =>
        rw [after_succ_of_fault _ hs]
        exact Nat.le_trans hle1 (by omega)

/-- Where the first of several steps lead, the others start. -/
theorem after_split {m m' : Machine} {k l : Nat} (h : after (k + l) m = (m', none)) :
    ∃ m1, after k m = (m1, none) ∧ after l m1 = (m', none) := by
  induction k generalizing m with
  | zero => exact ⟨m, rfl, by rwa [Nat.zero_add] at h⟩
  | succ k ih =>
    rw [Nat.succ_add] at h
    cases hs : m.step with
    | mk m1 f =>
      cases f with
      | none =>
        rw [after_succ_of_step _ hs] at h ⊢
        exact ih h
      | some f =>
        rw [after_succ_of_fault _ hs] at h
        cases h

/-- Steps that lead to a fault lead to the step that has it. -/
theorem exists_step_of_after {m m' : Machine} {f : Fault} {k : Nat} (h : after k m = (m', some f)) :
    ∃ j n, after j m = (n, none) ∧ n.step = (m', some f) := by
  induction k generalizing m with
  | zero => cases h
  | succ k ih =>
    cases hs : m.step with
    | mk m1 g =>
      cases g with
      | none =>
        rw [after_succ_of_step _ hs] at h
        obtain ⟨j, n, hj, hn⟩ := ih h
        exact ⟨j + 1, n, by rw [after_succ_of_step _ hs, hj], hn⟩
      | some g =>
        rw [after_succ_of_fault _ hs] at h
        cases h
        exact ⟨0, m, rfl, hs⟩

theorem after_keeps {P : Machine → Prop} (hstep : ∀ m, P m → P m.step.1) (k : Nat) {m : Machine}
    (h : P m) : P (after k m).1 := by
  induction k generalizing m with
  | zero => exact h
  | succ k ih =>
    have h1 := hstep m h
    cases hs : m.step with
    | mk m1 f =>
      rw [hs] at h1
      cases f with
      | none => rw [after_succ_of_step k hs]; exact ih h1
      | some f => rw [after_succ_of_fault k hs]; exact h1

theorem after_program (k : Nat) (m : Machine) : (after k m).1.program = m.program :=
  after_keeps (P := fun n => n.program = m.program)
    (fun n hn => (step_program n).trans hn) k rfl

/-! ## Runs -/

theorem run_of_done {m : Machine} (fuel : Nat) (h : m.isDone = true) :
    run (fuel + 1) m = (m.trace (.stopped m.status m.steps), .stopped) := by
  simp [run, h]

theorem run_succ_of_step {m m' : Machine} (fuel : Nat) (hb : m.isDone = false)
    (hx : m.exceeded? = none) (h : m.step = (m', none)) : run (fuel + 1) m = run fuel m' := by
  simp [run, hb, hx, h]

theorem run_succ_of_fault {m m' : Machine} {f : Fault} (fuel : Nat) (hb : m.isDone = false)
    (hx : m.exceeded? = none) (h : m.step = (m', some f)) :
    run (fuel + 1) m = (m', .failed f) := by
  simp [run, hb, hx, h]

theorem run_of_exceeded {m : Machine} {n : Int} (fuel : Nat) (hb : m.isDone = false)
    (hx : m.exceeded? = some n) : run (fuel + 1) m = (m, .failed (.atLimit n m.pc)) := by
  simp [run, hb, hx]

/-- More fuel keeps the ending of a run. -/
theorem run_mono {m m' : Machine} {e : Ending} {fuel : Nat} (h : run fuel m = (m', e))
    (he : e ≠ .unfinished) (extra : Nat) : run (fuel + extra) m = (m', e) := by
  induction fuel generalizing m with
  | zero => cases h; exact absurd rfl he
  | succ fuel ih =>
    rw [Nat.succ_add]
    cases hm : m.isDone with
    | true => rw [run_of_done _ hm] at h ⊢; exact h
    | false =>
      cases hx : m.exceeded? with
      | some n => rw [run_of_exceeded _ hm hx] at h ⊢; exact h
      | none =>
        cases hs : m.step with
        | mk m1 f =>
          cases f with
          | none => rw [run_succ_of_step _ hm hx hs] at h ⊢; exact ih h
          | some f => rw [run_succ_of_fault _ hm hx hs] at h ⊢; exact h

theorem run_unique {m m1 m2 : Machine} {e1 e2 : Ending} {fuel1 fuel2 : Nat}
    (h1 : run fuel1 m = (m1, e1)) (h2 : run fuel2 m = (m2, e2)) (he1 : e1 ≠ .unfinished)
    (he2 : e2 ≠ .unfinished) : (m1, e1) = (m2, e2) := by
  rw [← run_mono h1 he1 fuel2, ← run_mono h2 he2 fuel1, Nat.add_comm]

/-- What each step keeps is kept by a run, if the record of its end does not matter to it. -/
theorem run_keeps {P : Machine → Prop} (hstep : ∀ m, P m → P m.step.1)
    (hend : ∀ m, P m → P (m.trace (.stopped m.status m.steps))) (fuel : Nat) {m : Machine}
    (h : P m) : P (run fuel m).1 := by
  induction fuel generalizing m with
  | zero => exact h
  | succ fuel ih =>
    cases hm : m.isDone with
    | true => rw [run_of_done _ hm]; exact hend _ h
    | false =>
      cases hx : m.exceeded? with
      | some n => rw [run_of_exceeded _ hm hx]; exact h
      | none =>
        have h1 := hstep m h
        cases hs : m.step with
        | mk m1 f =>
          rw [hs] at h1
          cases f with
          | none => rw [run_succ_of_step _ hm hx hs]; exact ih h1
          | some f => rw [run_succ_of_fault _ hm hx hs]; exact h1

theorem run_program (fuel : Nat) (m : Machine) : (run fuel m).1.program = m.program :=
  run_keeps (P := fun n => n.program = m.program) (fun n hn => (step_program n).trans hn)
    (fun n hn => (trace_program n _).trans hn) fuel rfl

theorem exceeded?_of_le {m : Machine} {n : Int} (hl : m.limit = some n) (hn : n ≤ (m.steps : Int))
    (hpc : m.pc < m.program.size) : m.exceeded? = some n := by
  rw [exceeded?, hl, Option.filter_some, if_pos]
  exact Bool.and_eq_true_iff.2 ⟨decide_eq_true hn, decide_eq_true hpc⟩

theorem limit_of_exceeded {m : Machine} {n : Int} (h : m.exceeded? = some n) : m.limit = some n :=
  (Option.filter_eq_some_iff.1 h).1

/-- A run fails at its limit or with the fault of one of its steps. -/
theorem limit_or_step_of_run_failed {m m' : Machine} {f : Fault} {fuel : Nat}
    (h : run fuel m = (m', .failed f)) :
    (∃ n, m.limit = some n ∧ f = .atLimit n m'.pc) ∨
      ∃ k m1, after k m = (m1, none) ∧ m1.step = (m', some f) := by
  induction fuel generalizing m with
  | zero => cases h
  | succ fuel ih =>
    cases hm : m.isDone with
    | true => rw [run_of_done _ hm] at h; cases h
    | false =>
      cases hx : m.exceeded? with
      | some n =>
        rw [run_of_exceeded _ hm hx] at h
        cases h
        exact .inl ⟨n, limit_of_exceeded hx, rfl⟩
      | none =>
        cases hs : m.step with
        | mk m1 g =>
          cases g with
          | none =>
            rw [run_succ_of_step _ hm hx hs] at h
            rcases ih h with ⟨n, hl, hf⟩ | ⟨k, m2, hk, hf⟩
            · exact .inl ⟨n, (limit_of_step rfl hs).symm.trans hl, hf⟩
            · exact .inr ⟨k + 1, m2, by rw [after_succ_of_step _ hs, hk], hf⟩
          | some g =>
            rw [run_succ_of_fault _ hm hx hs] at h
            cases h
            exact .inr ⟨0, m, rfl, hs⟩

theorem le_run_steps (fuel : Nat) (m : Machine) : m.steps ≤ (run fuel m).1.steps := by
  induction fuel generalizing m with
  | zero => simp [run]
  | succ fuel ih =>
    have hle := le_step_steps m
    cases hm : m.isDone with
    | true => rw [run_of_done _ hm]; simp
    | false =>
      cases hx : m.exceeded? with
      | some n => simp [run_of_exceeded _ hm hx]
      | none =>
        cases hs : m.step with
        | mk m1 f =>
          rw [hs] at hle
          cases f with
          | none => rw [run_succ_of_step _ hm hx hs]; exact Nat.le_trans hle (ih m1)
          | some f => rw [run_succ_of_fault _ hm hx hs]; exact hle

/-- What the first step counts is counted at the end. -/
theorem step_steps_le_run {m m' : Machine} {e : Ending} {fuel : Nat} (hm : m.isDone = false)
    (hx : m.exceeded? = none) (h : run (fuel + 1) m = (m', e)) : m.step.1.steps ≤ m'.steps := by
  cases hs : m.step with
  | mk m1 f =>
    cases f with
    | none =>
      have hle := le_run_steps fuel m1
      rw [run_succ_of_step _ hm hx hs] at h
      rw [h] at hle
      exact hle
    | some f =>
      rw [run_succ_of_fault _ hm hx hs] at h
      cases h
      exact Nat.le_refl _

/-- **A run ends if every step that is taken and does not bring the machine to its end makes less of
what is left to do.** The last step halts, and one more round sees that it has. -/
theorem run_ends_of_measure (P : Machine → Prop) (left : Machine → Nat)
    (hstep : ∀ m m', P m → m.isDone = false → m.exceeded? = none → m.step = (m', none) →
      P m' ∧ (m'.isDone = true ∨ left m' < left m)) {fuel : Nat} {m : Machine} (h : P m)
    (hfuel : m.isDone = true ∧ 1 ≤ fuel ∨ left m + 2 ≤ fuel) : (run fuel m).2 ≠ .unfinished := by
  induction fuel generalizing m with
  | zero => omega
  | succ fuel ih =>
    cases hm : m.isDone with
    | true => rw [run_of_done _ hm]; simp
    | false =>
      cases hx : m.exceeded? with
      | some n => rw [run_of_exceeded _ hm hx]; simp
      | none =>
        cases hs : m.step with
        | mk m1 f =>
          cases f with
          | some f => rw [run_succ_of_fault _ hm hx hs]; simp
          | none =>
            have hle : left m + 2 ≤ fuel + 1 := hfuel.resolve_left (by simp [hm])
            obtain ⟨h1, hdone | hless⟩ := hstep m m1 h hm hx hs
            · rw [run_succ_of_step _ hm hx hs]
              exact ih h1 (.inl ⟨hdone, by omega⟩)
            · rw [run_succ_of_step _ hm hx hs]
              exact ih h1 (.inr (by omega))

/-- A run that takes its bound from the limit is a run with some bound. -/
theorem exists_runWith_eq (fuel : Nat) (m : Machine) : ∃ k, m.runWith fuel = run k m := by
  unfold runWith
  split
  · exact ⟨_, rfl⟩
  · exact ⟨fuel, rfl⟩

/-! ## Runs without a limit -/

theorem exceeded?_of_limit_none {m : Machine} (h : m.limit = none) : m.exceeded? = none := by
  simp [exceeded?, h]

theorem runWith_of_limit_none {m : Machine} (h : m.limit = none) (fuel : Nat) :
    m.runWith fuel = run fuel m := by
  simp [runWith, h]

/-- A run stops as soon as its steps lead to a machine that is done. -/
theorem run_of_after_done {m m' : Machine} {k : Nat} (hl : m.limit = none)
    (h : after k m = (m', none)) (hd : m'.isDone = true) :
    run (k + 1) m = (m'.trace (.stopped m'.status m'.steps), .stopped) := by
  induction k generalizing m with
  | zero => cases h; exact run_of_done 0 hd
  | succ k ih =>
    cases hm : m.isDone with
    | true =>
      rw [after_of_done hm] at h
      cases h
      exact run_of_done _ hm
    | false =>
      cases hs : m.step with
      | mk m1 f =>
        cases f with
        | none =>
          have hl1 := limit_of_step hl hs
          rw [after_succ_of_step _ hs] at h
          rw [run_succ_of_step _ hm (exceeded?_of_limit_none hl) hs]
          exact ih hl1 h
        | some f =>
          rw [after_succ_of_fault _ hs] at h
          cases h

/-- A run fails with the fault that its steps lead to. -/
theorem run_of_after_fault {m m' : Machine} {f : Fault} {k : Nat} (hl : m.limit = none)
    (h : after k m = (m', some f)) : run k m = (m', .failed f) := by
  induction k generalizing m with
  | zero => cases h
  | succ k ih =>
    cases hm : m.isDone with
    | true => rw [after_of_done hm] at h; cases h
    | false =>
      cases hs : m.step with
      | mk m1 g =>
        cases g with
        | none =>
          have hl1 := limit_of_step hl hs
          rw [after_succ_of_step _ hs] at h
          rw [run_succ_of_step _ hm (exceeded?_of_limit_none hl) hs]
          exact ih hl1 h
        | some g =>
          rw [after_succ_of_fault _ hs] at h
          cases h
          exact run_succ_of_fault _ hm (exceeded?_of_limit_none hl) hs

/-- Where among the steps of a machine a run without a limit ends, if it does. -/
theorem after_of_run {m m' : Machine} {e : Ending} {fuel : Nat} (hl : m.limit = none)
    (h : run fuel m = (m', e)) :
    (e = .stopped ∧ ∃ k m1, after k m = (m1, none) ∧ m1.isDone = true ∧
        m' = m1.trace (.stopped m1.status m1.steps)) ∨
      (∃ f k, e = .failed f ∧ after k m = (m', some f)) ∨ e = .unfinished := by
  induction fuel generalizing m with
  | zero => cases h; exact .inr (.inr rfl)
  | succ fuel ih =>
    cases hm : m.isDone with
    | true =>
      rw [run_of_done _ hm] at h
      cases h
      exact .inl ⟨rfl, 0, m, rfl, hm, rfl⟩
    | false =>
      have hx := exceeded?_of_limit_none hl
      cases hs : m.step with
      | mk m1 f =>
        cases f with
        | none =>
          have hl1 := limit_of_step hl hs
          rw [run_succ_of_step _ hm hx hs] at h
          rcases ih hl1 h with ⟨rfl, k, m2, h2, hd, rfl⟩ | ⟨f, k, rfl, h2⟩ | rfl
          · exact .inl ⟨rfl, k + 1, m2, by rw [after_succ_of_step _ hs, h2], hd, rfl⟩
          · exact .inr (.inl ⟨f, k + 1, rfl, by rw [after_succ_of_step _ hs, h2]⟩)
          · exact .inr (.inr rfl)
        | some f =>
          rw [run_succ_of_fault _ hm hx hs] at h
          cases h
          exact .inr (.inl ⟨f, 1, rfl, after_succ_of_fault 0 hs⟩)

end RegisterMachine.Machine
