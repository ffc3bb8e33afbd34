import Mathlib.Data.List.Perm.Subperm
import RegisterMachine.Proofs.Reachable
import RegisterMachine.Proofs.Refusal

/-!
# Programs whose jumps go forward

A program stops if none of its jumps goes back, or to itself: every step that leaves the machine
running brings it further down. So each instruction is executed at most once, and a limit of as many
steps as the program has instructions cuts nothing off.

* `Program.OnlyForward`: no jump of a program has its own index or one above as its target.

Principal results: `Machine.lt_pc_of_step` (a machine that is still running after a step has moved
down), `Machine.visits_forward` (a run fetches each instruction at most once) and
`Machine.forward_programs_stop`.
-/

set_option autoImplicit false

namespace RegisterMachine

/-- No jump goes back or to itself. Its target may lie outside the program. -/
def Program.OnlyForward (p : Program) : Prop :=
  ∀ i : Fin p.size, ∀ t ∈ p[i].target?, ¬ (0 ≤ t ∧ t ≤ (i : Nat))

instance (p : Program) : Decidable p.OnlyForward :=
  inferInstanceAs (Decidable (∀ i : Fin p.size, ∀ t ∈ p[i].target?, ¬ (0 ≤ t ∧ t ≤ (i : Nat))))

theorem Program.OnlyForward.not_le {p : Program} (h : p.OnlyForward) {i : Nat} {ins : Instruction}
    {t : Int} (hins : p[i]? = some ins) (ht : ins.target? = some t) : ¬ (0 ≤ t ∧ t ≤ i) := by
  obtain ⟨hi, rfl⟩ := Array.getElem?_eq_some_iff.1 hins
  exact h ⟨i, hi⟩ t ht

namespace Machine

variable {m m' : Machine}

/-- The effect of an instruction moves the machine down, or stops it. -/
theorem lt_pc_apply {ins : Instruction} {e : Effect} {b : Bank} (hp : m.program.OnlyForward)
    (hf : m.program[m.pc]? = some ins) (he : ins.effect b = .ok e) :
    (m.apply e).isDone = true ∨ m.pc < (m.apply e).pc := by
  cases e with
  | proceed => exact .inr (Nat.lt_succ_self _)
  | store r x => exact .inr (Nat.lt_succ_self _)
  | print x => exact .inr (Nat.lt_succ_self _)
  | jump t =>
    by_cases ht : 0 ≤ t ∧ t ≤ m.program.size
    · have hforward := hp.not_le hf (Instruction.target?_of_effect he)
      rw [Machine.apply, jump_inside ht.1 ht.2]
      exact .inr (by show m.pc < t.toNat; omega)
    · rw [Machine.apply, jump_outside ht]
      exact .inl rfl

/-- **A machine that is still running after a step has moved down**, away from an instruction. -/
theorem lt_pc_of_step (hp : m.program.OnlyForward) (hs : m.step = (m', none)) :
    m'.isDone = true ∨ m.pc < m'.pc ∧ m.pc < m.program.size := by
  cases stepped_of_step hs with
  | rest hd => exact .inl hd
  | halt _ _ => exact .inl rfl
  | execute ins e _ hf he =>
    have hmove := @lt_pc_apply (m.fetch ins) ins e m.bank (by simpa using hp) (by simpa using hf) he
    rw [fetch_pc] at hmove
    exact hmove.imp_right fun hlt => ⟨hlt, (Array.getElem?_eq_some_iff.1 hf).1⟩

/-! ## The instructions fetched -/

theorem visits_of_done (fuel : Nat) (hd : m.isDone = true) : visits fuel m = [] := by
  cases fuel with
  | zero => rfl
  | succ fuel => simp [visits, hd]

theorem mem_fetches_iff {i : Nat} :
    i ∈ m.fetches ↔ i = m.pc ∧ m.isDone = false ∧ m.pc < m.program.size := by
  unfold fetches
  split <;> simp [*]

theorem fetches_forward (m : Machine) :
    m.fetches.Pairwise (· < ·) ∧ ∀ i ∈ m.fetches, m.pc ≤ i ∧ i < m.program.size := by
  refine ⟨?_, fun i hi => ?_⟩
  · unfold fetches
    split <;> simp
  · obtain ⟨rfl, -, hsize⟩ := mem_fetches_iff.1 hi
    exact ⟨Nat.le_refl _, hsize⟩

theorem Ran.visits_forward {fuel : Nat} {es : List Effect} {e : Ending} (h : Ran fuel m es m' e)
    (hp : m.program.OnlyForward) :
    (visits fuel m).Pairwise (· < ·) ∧ ∀ i ∈ visits fuel m, m.pc ≤ i ∧ i < m.program.size := by
  induction h with
  | unfinished => exact ⟨.nil, fun i hi => absurd hi List.not_mem_nil⟩
  | stopped hd =>
    rw [visits_of_done _ hd]
    exact ⟨.nil, fun i hi => absurd hi List.not_mem_nil⟩
  | exceeded hb hx => simp [visits, hb, hx]
  | @failed m _ _ _ hb hx hs => simpa [visits, hb, hx, hs] using fetches_forward m
  | @step m m1 _ fuel _ _ hb hx hs _ ih =>
    have hprog := step_program m
    rw [hs] at hprog
    obtain ⟨hsorted, hbelow⟩ := ih (hprog ▸ hp)
    have hvisits : visits (fuel + 1) m = m.fetches ++ visits fuel m1 := by
      simp [visits, hb, hx, hs]
    rw [hvisits]
    rcases lt_pc_of_step hp hs with hdone | ⟨hlt, -⟩
    · rw [visits_of_done _ hdone, List.append_nil]
      exact fetches_forward m
    · -- what is fetched later stands below the index that the machine has moved to
      rw [show m1.program = m.program from hprog] at hbelow
      refine ⟨List.pairwise_append.2 ⟨(fetches_forward m).1, hsorted, fun i hi j hj => ?_⟩, ?_⟩
      · have hle := (hbelow j hj).1
        rw [(mem_fetches_iff.1 hi).1]
        omega
      · intro i hi
        rcases List.mem_append.1 hi with hi | hi
        · exact (fetches_forward m).2 i hi
        · have hbounds := hbelow i hi
          omega

/-- **A run fetches each instruction at most once**, each one below those before it. -/
theorem visits_forward (fuel : Nat) (hp : m.program.OnlyForward) :
    (visits fuel m).Pairwise (· < ·) ∧ ∀ i ∈ visits fuel m, m.pc ≤ i ∧ i < m.program.size :=
  (ran fuel m).visits_forward hp

theorem length_visits_le (fuel : Nat) (hp : m.program.OnlyForward) :
    (visits fuel m).length ≤ m.program.size := by
  obtain ⟨hsorted, hbelow⟩ := visits_forward fuel hp
  have hnodup : (visits fuel m).Nodup := hsorted.imp Nat.ne_of_lt
  have hsubset : visits fuel m ⊆ List.range m.program.size := fun i hi =>
    List.mem_range.2 (hbelow i hi).2
  simpa using (List.subperm_of_subset hnodup hsubset).length_le

/-! ## The end of a run -/

/-- A run ends: what is left to do are the instructions from the index on. -/
theorem run_forward_ends {fuel : Nat} (hp : m.program.OnlyForward)
    (hfuel : m.program.size - m.pc + 2 ≤ fuel) : (run fuel m).2 ≠ .unfinished := by
  refine run_ends_of_measure (fun n => n.program.OnlyForward)
    (fun n => n.program.size - n.pc) ?_ hp (.inr hfuel)
  intro n n1 hn _ _ hs
  have hprog := step_program n
  rw [hs] at hprog
  refine ⟨hprog ▸ hn, (lt_pc_of_step hn hs).imp_right fun hmove => ?_⟩
  rw [show n1.program = n.program from hprog]
  omega

/-- **Programs without backward jumps stop.** If no jump has its own index or one above as its
target, a run without a limit halts, jumps out of the program or is refused. Until then it fetches
each instruction at most once, from the first to the last, so it counts no more steps than there are
instructions; and a run that may take as many steps as there are instructions is the same, so it
does not fail at its limit. -/
theorem forward_programs_stop {p : Program} (hp : p.OnlyForward) (b : Bank) (tracing : Bool) :
    ∃ m e, run (p.size + 2) (start p b none tracing) = (m, e) ∧
      ((e = .stopped ∧ (m.status = .halted ∨ m.status = .jumpedOut)) ∨
        ∃ r, e = .failed (.refused r m.pc) ∧ ((Fault.refused r m.pc).IsOperandFault ∨
          ∃ ins ∈ p, ∃ name, ins.op = .unknown name)) ∧
      (visits (p.size + 2) (start p b none tracing)).Pairwise (· < ·) ∧
      m.steps = (visits (p.size + 2) (start p b none tracing)).length ∧ m.steps ≤ p.size ∧
      ∀ n : Int, p.size ≤ n →
        (∀ bound, (start p b (some n) tracing).runWith bound = (m.withLimit (some n), e)) ∧
        ∀ fuel m',
          (∀ l pc, run fuel (start p b (some n) tracing) ≠ (m', .failed (.limitExceeded l pc))) ∧
          run fuel (start p b (some n) tracing) ≠ (m', .failed .limitUnworded) := by
  have hends := @run_forward_ends (start p b none tracing) (p.size + 2) hp (Nat.le_refl _)
  have hsteps := run_steps_eq (p.size + 2) (start p b none tracing)
  cases hrun : run (p.size + 2) (start p b none tracing) with
  | mk m e =>
    rw [hrun] at hends hsteps
    have hcount : m.steps = (visits (p.size + 2) (start p b none tracing)).length :=
      hsteps.trans (Nat.zero_add _)
    have hle : m.steps ≤ p.size := hcount ▸ length_visits_le (m := start p b none tracing) _ hp
    have hending := ending_of_run rfl hrun hends
    refine ⟨m, e, rfl, hending, (visits_forward _ hp).1, hcount, hle, fun n hn => ⟨?_, ?_⟩⟩
    · exact runWith_of_le hrun hends (by omega)
    · intro fuel m'
      have hwithin := run_withLimit_of_le (n := n) rfl hrun hends (by omega)
      -- a run within its limit ends as the one without does, which no limit cuts off
      refine ⟨fun l pc hexceeded => ?_, fun hunworded => ?_⟩
      · cases run_unique hexceeded hwithin (by simp) hends
        simp at hending
      · cases run_unique hunworded hwithin (by simp) hends
        simp at hending

/-- A jump over a print and a jump behind the end: two steps, then the program is left,
and a limit of three steps is not reached. -/
theorem forward_programs_stop_jump_out :
    let p : Program := #[⟨.known .jmp, .index 2, .absent⟩,
      ⟨.known .prn, .register .r1, .absent⟩, ⟨.known .jmp, .index 9, .absent⟩]
    p.OnlyForward ∧ ∃ m, run 5 (start p Bank.zero none false) = (m, .stopped) ∧
      m.status = .jumpedOut ∧ m.steps = 2 ∧
      ∀ bound, (start p Bank.zero (some 3) false).runWith bound =
        (m.withLimit (some 3), .stopped) := by
  intro p
  have hp : p.OnlyForward := by decide
  have hout : run 5 (start p Bank.zero none false) =
      ({ program := p, pc := 2, steps := 2, status := .jumpedOut, log := #[.jumpedOut 2 9 3] },
        .stopped) := rfl
  obtain ⟨m, e, hrun, -, -, -, -, hlimit⟩ := forward_programs_stop hp Bank.zero false
  rw [show p.size + 2 = 5 from rfl, hout] at hrun
  cases hrun
  exact ⟨hp, _, hout, rfl, rfl, (hlimit 3 (by decide)).1⟩

end Machine

end RegisterMachine
