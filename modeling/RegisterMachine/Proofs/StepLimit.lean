import RegisterMachine.Proofs.Execution
import RegisterMachine.Proofs.Number.ReadBack

/-!
# Limits on the number of steps

A limit is looked at before each instruction and nowhere else: not by a step, and not at the end of
the program. So a run with a limit is a run without one, cut off where the count of steps reaches
the limit with an instruction still to be executed.

* `Machine.withLimit`: a machine with another limit.
* `Machine.longLimit`: a limit with too many digits to be shown.

Principal results: `run_withLimit_of_le` (a run that ends in time is left alone),
`run_withLimit_of_gt` (any other is cut off), `run_ends` (the fuel that a limit stands for is always
enough) and `limit_truncates`, which puts them together.
-/

set_option autoImplicit false

namespace RegisterMachine.Machine

/-- The machine with another limit. -/
def withLimit (m : Machine) (limit : Option Int) : Machine := { m with limit := limit }

theorem withLimit_eq_self {m : Machine} {l : Option Int} (h : m.limit = l) : m.withLimit l = m := by
  subst h
  rfl

/-! ## Steps do not look at the limit -/

theorem trace_withLimit (m : Machine) (l : Option Int) (e : LogEntry) :
    (m.withLimit l).trace e = (m.trace e).withLimit l := by
  unfold trace withLimit record
  split <;> rfl

theorem fetch_withLimit (m : Machine) (l : Option Int) (ins : Instruction) :
    (m.withLimit l).fetch ins = (m.fetch ins).withLimit l := by
  unfold fetch trace withLimit record
  split <;> rfl

theorem jump_withLimit (m : Machine) (l : Option Int) (t : Int) :
    (m.withLimit l).jump t = (m.jump t).withLimit l := by
  unfold jump withLimit record
  split <;> rfl

theorem apply_withLimit (m : Machine) (l : Option Int) (e : Effect) :
    (m.withLimit l).apply e = (m.apply e).withLimit l := by
  cases e with
  | jump t => exact jump_withLimit m l t
  | _ => rfl

theorem Stepped.withLimit {m m' : Machine} {f : Option Fault} (h : Stepped m m' f)
    (l : Option Int) : Stepped (m.withLimit l) (m'.withLimit l) f := by
  cases h with
  | rest hd => exact .rest hd
  | halt hb hl => exact .halt hb hl
  | refuse ins r hb hf he =>
    rw [← fetch_withLimit]
    exact .refuse ins r hb hf he
  | execute ins e hb hf he =>
    rw [← apply_withLimit, ← fetch_withLimit]
    exact .execute ins e hb hf he

theorem step_withLimit {m m' : Machine} {f : Option Fault} (h : m.step = (m', f))
    (l : Option Int) : (m.withLimit l).step = (m'.withLimit l, f) :=
  ((stepped_of_step h).withLimit l).step_eq

/-! ## When the limit forbids an instruction -/

theorem exceeded?_withLimit_of_lt {m : Machine} {n : Int}
    (h : m.pc < m.program.size → (m.steps : Int) < n) :
    (m.withLimit (some n)).exceeded? = none := by
  unfold exceeded? withLimit
  rw [Option.filter_some, if_neg]
  simp only [Bool.and_eq_true, decide_eq_true_eq]
  omega

theorem exceeded?_withLimit_of_le {m : Machine} {n : Int} (hn : n ≤ (m.steps : Int))
    (hpc : m.pc < m.program.size) : (m.withLimit (some n)).exceeded? = some n :=
  exceeded?_of_le rfl hn hpc

/-! ## Runs that end in time -/

/-- A run that ends within the limit is the same with it and without it. -/
theorem run_withLimit_of_le {m m' : Machine} {e : Ending} {fuel : Nat} {n : Int}
    (hl : m.limit = none) (h : run fuel m = (m', e)) (he : e ≠ .unfinished)
    (hn : (m'.steps : Int) ≤ max n 0) :
    run fuel (m.withLimit (some n)) = (m'.withLimit (some n), e) := by
  induction fuel generalizing m with
  | zero => cases h; exact absurd rfl he
  | succ fuel ih =>
    cases hm : m.isDone with
    | true =>
      rw [run_of_done _ hm] at h
      cases h
      rw [run_of_done _ (show (m.withLimit (some n)).isDone = true from hm), trace_withLimit]
      rfl
    | false =>
      have hx := exceeded?_of_limit_none hl
      have hm' : (m.withLimit (some n)).isDone = false := hm
      -- an instruction that is executed counts towards the steps at the end
      have hlt : m.pc < m.program.size → (m.steps : Int) < n := by
        intro hpc
        have hcount := step_steps_of_inside hm hpc
        have hend := step_steps_le_run hm hx h
        omega
      have hx' := exceeded?_withLimit_of_lt hlt
      cases hs : m.step with
      | mk m1 f =>
        have hs' := step_withLimit hs (some n)
        cases f with
        | none =>
          have hl1 := limit_of_step hl hs
          rw [run_succ_of_step _ hm hx hs] at h
          rw [run_succ_of_step _ hm' hx' hs']
          exact ih hl1 h
        | some f =>
          rw [run_succ_of_fault _ hm hx hs] at h
          cases h
          exact run_succ_of_fault _ hm' hx' hs'

/-! ## Runs that are cut off -/

/-- As long as every step counts an instruction within the limit, a run with a limit takes them. -/
theorem run_withLimit_of_after {m m' : Machine} {k : Nat} {n : Int}
    (h : after k m = (m', none)) (hsteps : m'.steps = m.steps + k)
    (hn : (m'.steps : Int) ≤ max n 0) (fuel : Nat) :
    run (k + fuel) (m.withLimit (some n)) = run fuel (m'.withLimit (some n)) := by
  induction k generalizing m with
  | zero => cases h; simp
  | succ k ih =>
    cases hs : m.step with
    | mk m1 f =>
      cases f with
      | some f => rw [after_succ_of_fault _ hs] at h; cases h
      | none =>
        rw [after_succ_of_step _ hs] at h
        have hle := after_steps_le k m1
        have hle1 := step_steps_le m
        rw [h] at hle
        rw [hs] at hle1
        have hcount : m1.steps = m.steps + 1 :=
          Nat.le_antisymm hle1 (by have : m'.steps ≤ m1.steps + k := hle; omega)
        have hm : m.isDone = false := by
          cases hd : m.isDone with
          | false => rfl
          | true =>
            rw [step_of_done hd] at hs
            cases hs
            omega
        have hx := exceeded?_withLimit_of_lt (m := m) (n := n) (fun _ => by omega)
        rw [Nat.succ_add, run_succ_of_step _ (show (m.withLimit (some n)).isDone = false from hm)
          hx (step_withLimit hs (some n))]
        exact ih h (by omega)

/-- A machine that no run without a limit brings to an end within `k` steps takes `k` steps, each
an instruction, and has one more to execute. -/
theorem after_of_no_ending {m : Machine} (hl : m.limit = none) (h0 : m.steps = 0) (k : Nat)
    (hno : ∀ fuel m' e, run fuel m = (m', e) → e ≠ .unfinished → k < m'.steps) :
    ∀ j ≤ k, ∃ m', after j m = (m', none) ∧ m'.steps = j ∧ m'.isDone = false ∧
      m'.pc < m'.program.size := by
  -- a machine with at most `k` steps behind it is neither done nor at the end of its program
  have halive : ∀ j m', after j m = (m', none) → m'.steps ≤ k →
      m'.isDone = false ∧ m'.pc < m'.program.size := by
    intro j m' hj hk
    have hm : m'.isDone = false := by
      cases hd : m'.isDone with
      | false => rfl
      | true =>
        have := hno _ _ _ (run_of_after_done hl hj hd) (by simp)
        rw [trace_steps] at this
        omega
    refine ⟨hm, Nat.lt_of_not_le fun hend => ?_⟩
    have hnext := after_succ hj
    rw [step_at_end hm hend] at hnext
    have := hno _ _ _ (run_of_after_done hl hnext rfl) (by simp)
    rw [trace_steps] at this
    have : k < m'.steps := this
    omega
  intro j
  induction j with
  | zero => exact fun _ => ⟨m, rfl, h0, halive 0 m rfl (by omega)⟩
  | succ j ih =>
    intro hj
    obtain ⟨m', hafter, hsteps, hm, hpc⟩ := ih (by omega)
    have hnext := after_succ hafter
    have hcount := step_steps_of_inside hm hpc
    cases hs : m'.step with
    | mk m1 f =>
      rw [hs] at hnext hcount
      have hcount1 : m1.steps = j + 1 := by rw [← hsteps]; exact hcount
      cases f with
      | none => exact ⟨m1, hnext, hcount1, halive _ m1 hnext (by omega)⟩
      | some f =>
        have := hno _ _ _ (run_of_after_fault hl hnext) (by simp)
        omega

/-- A run that does not end within its limit is cut off at the limit. -/
theorem run_withLimit_of_gt {m : Machine} {n : Int} (hl : m.limit = none) (h0 : m.steps = 0)
    (hno : ∀ fuel m' e, run fuel m = (m', e) → e ≠ .unfinished → max n 0 < (m'.steps : Int)) :
    ∃ m', after (max n 0).toNat m = (m', none) ∧ m'.steps = (max n 0).toNat ∧
      run ((max n 0).toNat + 1) (m.withLimit (some n)) =
        (m'.withLimit (some n), .failed (.atLimit n m'.pc)) := by
  have hno' : ∀ fuel m' e, run fuel m = (m', e) → e ≠ .unfinished → (max n 0).toNat < m'.steps := by
    intro fuel m' e hr he
    have := hno fuel m' e hr he
    omega
  obtain ⟨m', hafter, hsteps, hm, hpc⟩ :=
    after_of_no_ending hl h0 (max n 0).toNat hno' _ (Nat.le_refl _)
  refine ⟨m', hafter, hsteps, ?_⟩
  rw [run_withLimit_of_after hafter (by omega) (by omega)]
  exact run_of_exceeded 0 hm (exceeded?_withLimit_of_le (by omega) hpc)

/-! ## The fuel that a limit stands for -/

/-- A run with a limit ends: what is left to do are the steps that the limit allows. -/
theorem run_ends {m : Machine} {n : Int} {fuel : Nat} (hl : m.limit = some n)
    (hfuel : m.fuelFor n ≤ fuel) : (run fuel m).2 ≠ .unfinished := by
  refine run_ends_of_measure (fun m => m.limit = some n)
    (fun m => (n - (m.steps : Int)).toNat) ?_ hl (.inr hfuel)
  intro m m1 hl hm hx hs
  refine ⟨limit_of_step hl hs, ?_⟩
  by_cases hpc : m.pc < m.program.size
  · -- an instruction was executed, and the limit allowed it
    right
    have hcount : m1.steps = m.steps + 1 := by
      rw [← step_steps_of_inside hm hpc, hs]
    have hlt : (m.steps : Int) < n := by
      refine Int.not_le.1 fun hle => ?_
      have hx' := exceeded?_withLimit_of_le hle hpc
      rw [withLimit_eq_self hl, hx] at hx'
      cases hx'
    omega
  · left
    rw [step_at_end hm (Nat.le_of_not_lt hpc)] at hs
    cases hs
    rfl

/-- A run of a machine with a limit always comes to an end, and it is the one that any run of it
with enough fuel comes to. -/
theorem runWith_eq {m m' : Machine} {n : Int} {e : Ending} {fuel : Nat} (hl : m.limit = some n)
    (h : run fuel m = (m', e)) (he : e ≠ .unfinished) (bound : Nat) :
    m.runWith bound = (m', e) := by
  have hends := run_ends hl (Nat.le_refl (m.fuelFor n))
  have hdef : m.runWith bound = run (m.fuelFor n) m := by simp [runWith, hl]
  cases hr : run (m.fuelFor n) m with
  | mk m1 e1 =>
    rw [hr] at hends
    rw [hdef, hr]
    exact run_unique hr h hends he

/-- A run that ends is the one that the machine is given, if it has a limit or fuel enough. -/
theorem runWith_of_run {m m' : Machine} {e : Ending} {k fuel : Nat} (h : run k m = (m', e))
    (he : e ≠ .unfinished) (hfuel : m.limit = none → k ≤ fuel) : m.runWith fuel = (m', e) := by
  cases hl : m.limit with
  | none =>
    have hmore := run_mono h he (fuel - k)
    rw [Nat.add_sub_cancel' (hfuel hl)] at hmore
    rw [runWith_of_limit_none hl, hmore]
  | some n => exact runWith_eq hl h he fuel

/-! ## Limits that are not told -/

/-- A limit with one digit too many, which every machine has reached. -/
def longLimit : Int := -(10 ^ Number.maxDigits : Nat)

theorem longLimit_nonpos : longLimit ≤ 0 := Int.neg_nonpos_of_nonneg (Int.natCast_nonneg _)

theorem atLimit_longLimit (pc : Nat) : Fault.atLimit longLimit pc = .limitUnworded :=
  Fault.atLimit_of_not_hasText ((Number.hasText_neg _).trans Number.hasText_pow) pc

/-- A run that it cuts off fails with another fault than that of a limit. -/
theorem run_of_longLimit {m : Machine} (fuel : Nat) (hb : m.isDone = false)
    (hl : m.limit = some longLimit) (hpc : m.pc < m.program.size) :
    run (fuel + 1) m = (m, .failed .limitUnworded) := by
  have hle : longLimit ≤ (m.steps : Int) := Int.le_trans longLimit_nonpos (Int.natCast_nonneg _)
  rw [run_of_exceeded fuel hb (exceeded?_of_le hl hle hpc), atLimit_longLimit]

/-! ## Limits truncate -/

/-- A run with a limit is the run without one, if that ends in time. -/
theorem runWith_of_le {p : Program} {b : Bank} {tracing : Bool} {n : Int} {fuel : Nat} {m : Machine}
    {e : Ending} (h : (start p b none tracing).run fuel = (m, e)) (he : e ≠ .unfinished)
    (hn : (m.steps : Int) ≤ max n 0) (bound : Nat) :
    (start p b (some n) tracing).runWith bound = (m.withLimit (some n), e) :=
  runWith_eq rfl (run_withLimit_of_le rfl h he hn) he bound

/-- **A limit truncates a run and changes nothing else.** If the run without a limit ends, by
stopping or by an instruction that is refused, with at most `max n 0` instructions counted, the run
with the limit `n` ends in the same way with the same machine. Otherwise it fails at the limit, with
the machine that `max n 0` steps lead to; only a limit with too many digits is not told. So a run
that takes as many instructions as it may is not cut off, and a greater limit changes no run that
stops. -/
theorem limit_truncates (p : Program) (b : Bank) (tracing : Bool) (n : Int) (bound : Nat) :
    (∀ fuel m e, (start p b none tracing).run fuel = (m, e) → e ≠ .unfinished →
      (m.steps : Int) ≤ max n 0 →
        (start p b (some n) tracing).runWith bound = (m.withLimit (some n), e)) ∧
    ((∀ fuel m e, (start p b none tracing).run fuel = (m, e) → e ≠ .unfinished →
      max n 0 < (m.steps : Int)) →
        ∃ m, (start p b none tracing).after (max n 0).toNat = (m, none) ∧
          m.steps = (max n 0).toNat ∧
          (start p b (some n) tracing).runWith bound =
            (m.withLimit (some n), .failed (.atLimit n m.pc))) ∧
    (∀ fuel m, (start p b none tracing).run fuel = (m, .stopped) → m.steps = n →
      (start p b (some n) tracing).runWith bound = (m.withLimit (some n), .stopped)) ∧
    ∀ n' m, n ≤ n' → (start p b (some n) tracing).runWith bound = (m, .stopped) →
      (start p b (some n') tracing).runWith bound = (m.withLimit (some n'), .stopped) := by
  have hcut : (∀ fuel m e, (start p b none tracing).run fuel = (m, e) → e ≠ .unfinished →
      max n 0 < (m.steps : Int)) →
        ∃ m, (start p b none tracing).after (max n 0).toNat = (m, none) ∧
          m.steps = (max n 0).toNat ∧
          (start p b (some n) tracing).runWith bound =
            (m.withLimit (some n), .failed (.atLimit n m.pc)) := by
    intro hno
    obtain ⟨m, hafter, hsteps, hrun⟩ := run_withLimit_of_gt rfl rfl hno
    exact ⟨m, hafter, hsteps, runWith_eq rfl hrun (by simp) bound⟩
  refine ⟨fun fuel m e h he hn => runWith_of_le h he hn bound, hcut, ?_, ?_⟩
  · intro fuel m h hn
    exact runWith_of_le h (by simp) (by omega) bound
  · intro n' m hle h
    by_cases hend : ∃ fuel m' e, (start p b none tracing).run fuel = (m', e) ∧ e ≠ .unfinished ∧
        (m'.steps : Int) ≤ max n 0
    · obtain ⟨fuel, m', e, hrun, he, hn⟩ := hend
      rw [runWith_of_le hrun he hn bound] at h
      cases h
      exact runWith_of_le hrun he (by omega) bound
    · obtain ⟨m', -, -, hfail⟩ := hcut fun fuel m' e hrun he =>
        Int.not_le.1 fun hn => hend ⟨fuel, m', e, hrun, he, hn⟩
      rw [hfail] at h
      cases h

/-- Two instructions may take two steps; after one step they are cut off at the second. -/
theorem limit_truncates_two_instructions :
    let p : Program := #[{ op := .known .nop }, { op := .known .nop }]
    (∃ m, (start p Bank.zero (some 2) false).runWith 0 = (m, .stopped) ∧ m.steps = 2) ∧
      ∃ m, (start p Bank.zero (some 1) false).runWith 0 = (m, .failed (.limitExceeded 1 1)) ∧
        m.steps = 1 := by
  intro p
  have hrun : (start p Bank.zero none false).run 4 =
      ({ program := p, pc := 2, steps := 2, status := .halted }, .stopped) := rfl
  refine ⟨⟨_, (limit_truncates p Bank.zero false 2 0).2.2.1 4 _ hrun rfl, rfl⟩, ?_⟩
  have hlong : ∀ fuel m e, (start p Bank.zero none false).run fuel = (m, e) → e ≠ .unfinished →
      max (1 : Int) 0 < (m.steps : Int) := by
    intro fuel m e h he
    have heq := run_unique h hrun he (by simp)
    cases heq
    decide
  obtain ⟨m, hafter, hsteps, hcut⟩ := (limit_truncates p Bank.zero false 1 0).2.1 hlong
  cases hafter
  exact ⟨_, hcut, hsteps⟩

/-- One instruction under a limit with too many digits: it is cut off, but the fault is not that of
the limit. -/
theorem cut_off_without_limit_fault :
    let p : Program := #[{ op := .known .nop }]
    (∃ m, (start p Bank.zero none false).run 3 = (m, .stopped) ∧
      max longLimit 0 < (m.steps : Int)) ∧
      ∀ bound m pc, (start p Bank.zero (some longLimit) false).runWith bound ≠
        (m, .failed (.limitExceeded longLimit pc)) := by
  intro p
  have hrun : (start p Bank.zero none false).run 3 =
      ({ program := p, pc := 1, steps := 1, status := .halted }, .stopped) := rfl
  have hcut : (start p Bank.zero (some longLimit) false).run 1 = (_, .failed .limitUnworded) :=
    run_of_longLimit 0 rfl rfl (by decide)
  refine ⟨⟨_, hrun, by rw [Int.max_eq_right longLimit_nonpos]; decide⟩, fun bound m pc h => ?_⟩
  rw [runWith_eq rfl hcut (by simp) bound] at h
  cases h

end RegisterMachine.Machine
