import RegisterMachine.Proofs.Driving
import RegisterMachine.Proofs.OperandKinds

/-!
# Refusals last

An instruction that is refused does nothing but count as a step, and since only the kinds of its
operands matter it is refused again whatever is written to the registers. So a machine that comes to
such an instruction stays there.

* `Refuses`: the next instruction of a machine is refused, whatever the registers hold.
* `SamePlace`: two machines are alike in what a refusal leaves alone.

Principal results: `Instruction.effect_error` (a refusal does not depend on the registers),
`SamePlace.step` (a step of a machine at that place is refused and keeps it there),
`run_refused_iff` (where a run without a limit is refused), `ending_of_run` (how else it ends) and
`refusal_lasts`.
-/

set_option autoImplicit false

namespace RegisterMachine

/-! ## Refusals do not depend on the registers -/

theorem Demands.eq_error_iff {α : Type} {x : Except Refusal α} {needs : List (Need × Kind)}
    (h : Demands x needs) {r : Refusal} :
    x = .error r ↔ ∃ c, firstUnmet needs = some c ∧ c.1.refusal c.2 = r := by
  unfold Demands at h
  cases hfirst : firstUnmet needs with
  | none =>
    rw [hfirst] at h
    obtain ⟨a, ha⟩ := h
    simp [ha]
  | some c =>
    rw [hfirst] at h
    simp [h]

/-- An instruction that is refused with one bank is refused with any, and for the same reason. -/
theorem Instruction.effect_error {ins : Instruction} {b : Bank} {r : Refusal}
    (h : ins.effect b = .error r) (c : Bank) : ins.effect c = .error r := by
  unfold effect at h ⊢
  cases hop : ins.op with
  | unknown name =>
    rw [hop] at h
    exact h
  | known op =>
    rw [hop] at h
    have hneeds := (demands_effectOf b op ins.src ins.dst).eq_error_iff.1 h
    exact (demands_effectOf c op ins.src ins.dst).eq_error_iff.2 hneeds

theorem Instruction.isOperandFault_of_effect {ins : Instruction} {op : Operator} {b : Bank}
    {r : Refusal} (hop : ins.op = .known op) (h : ins.effect b = .error r) (pc : Nat) :
    (Fault.refused r pc).IsOperandFault := by
  simp only [effect, hop] at h
  obtain ⟨c, -, rfl⟩ := (demands_effectOf b op ins.src ins.dst).eq_error_iff.1 h
  exact c.1.isOperandFault c.2 pc

theorem Fault.message_of_isOperandFault {r : Refusal} {pc : Nat}
    (h : (Fault.refused r pc).IsOperandFault) :
    (Fault.refused r pc).message = messageAt r.message (some pc) := by
  cases r with
  | unknownOperator name => exact h.elim
  | _ => rfl

namespace Machine

/-! ## Machines at a refused instruction -/

/-- The next instruction of the machine is refused, whatever the registers hold. -/
def Refuses (m : Machine) (r : Refusal) : Prop :=
  m.isDone = false ∧ ∃ ins, m.program[m.pc]? = some ins ∧ ∀ b, ins.effect b = .error r

/-- A machine is at the place of another: alike but for registers, steps, limits and records. -/
structure SamePlace (n m : Machine) : Prop where
  program : n.program = m.program
  pc : n.pc = m.pc
  status : n.status = m.status
  output : n.output = m.output

theorem refuses_of_fault {m m' : Machine} {f : Fault} (h : m.step = (m', some f)) :
    ∃ r, f = .refused r m.pc ∧ Refuses m r ∧ SamePlace m' m ∧ m'.bank = m.bank ∧
      m'.steps = m.steps + 1 := by
  cases stepped_of_step h with
  | refuse ins r hb hf he =>
    exact ⟨r, rfl, ⟨hb, ins, hf, Instruction.effect_error he⟩, ⟨by simp, by simp, by simp, by simp⟩,
      by simp, by simp⟩

namespace SamePlace

variable {m n : Machine} {r : Refusal}

theorem isDone (h : SamePlace n m) : n.isDone = m.isDone := by
  unfold Machine.isDone
  rw [h.status]

theorem step (h : SamePlace n m) (hm : Refuses m r) :
    n.step.2 = some (.refused r m.pc) ∧ SamePlace n.step.1 m := by
  obtain ⟨hb, ins, hf, he⟩ := hm
  rw [← h.isDone] at hb
  rw [← h.program, ← h.pc] at hf
  rw [(Stepped.refuse ins r hb hf (he n.bank)).step_eq]
  exact ⟨by rw [h.pc], by simp [h.program], by simp [h.pc], by simp [h.status], by simp [h.output]⟩

theorem trace (h : SamePlace n m) (e : LogEntry) : SamePlace (n.trace e) m :=
  ⟨by simp [h.program], by simp [h.pc], by simp [h.status], by simp [h.output]⟩

/-- A run from the place of a refused instruction fails with the refusal or at its limit. -/
theorem run (h : SamePlace n m) (hm : Refuses m r) (fuel : Nat) :
    ∃ n' g, n.run (fuel + 1) = (n', .failed g) ∧
      (g = .refused r m.pc ∨ ∃ l, n.limit = some l ∧ g = .atLimit l m.pc) := by
  have hb : n.isDone = false := h.isDone.trans hm.1
  cases hx : n.exceeded? with
  | some l =>
    exact ⟨n, _, run_of_exceeded fuel hb hx, .inr ⟨l, limit_of_exceeded hx, by rw [h.pc]⟩⟩
  | none =>
    have hfault := (h.step hm).1
    cases hs : n.step with
    | mk n' g =>
      rw [hs] at hfault
      obtain rfl : g = some (.refused r m.pc) := hfault
      exact ⟨n', _, run_succ_of_fault fuel hb hx hs, .inl rfl⟩

end SamePlace

/-- However it is driven, a machine stays at the place of a refused instruction. -/
theorem Driven.samePlace {as : List Action} {m n n' : Machine} {r : Refusal} (h : Driven as n n')
    (hm : Refuses m r) (hn : SamePlace n m) : SamePlace n' m :=
  h.keeps_of_writes (P := fun n => SamePlace n m) (fun _ hn => (hn.step hm).2)
    (fun _ hn => hn.trace _) (fun _ _ hn => ⟨hn.program, hn.pc, hn.status, hn.output⟩)
    (fun _ _ _ hn => ⟨hn.program, hn.pc, hn.status, hn.output⟩) hn

/-- A run without a limit is refused if and only if its steps lead to an instruction that is. -/
theorem run_refused_iff {m : Machine} {r : Refusal} {pc : Nat} (hl : m.limit = none) :
    (∃ fuel m', m.run fuel = (m', .failed (.refused r pc))) ↔
      ∃ k n, after k m = (n, none) ∧ n.pc = pc ∧ Refuses n r := by
  constructor
  · rintro ⟨fuel, m', hrun⟩
    rcases limit_or_step_of_run_failed hrun with ⟨l, hlimit, -⟩ | ⟨k, n, hk, hstep⟩
    · cases hl.symm.trans hlimit
    · obtain ⟨r', hr, hn, -⟩ := refuses_of_fault hstep
      cases hr
      exact ⟨k, n, hk, rfl, hn⟩
  · rintro ⟨k, n, hk, rfl, hn⟩
    have hfault := (SamePlace.step ⟨rfl, rfl, rfl, rfl⟩ hn).1
    exact ⟨k + 1, n.step.1, run_of_after_fault hl ((after_succ hk).trans (by rw [← hfault]))⟩

/-- How a run without a limit ends: the machine has halted or jumped out of its program, or an
instruction is refused, for its operands unless its operator is unknown. -/
theorem ending_of_run {m m' : Machine} {e : Ending} {fuel : Nat} (hl : m.limit = none)
    (h : run fuel m = (m', e)) (hends : e ≠ .unfinished) :
    (e = .stopped ∧ (m'.status = .halted ∨ m'.status = .jumpedOut)) ∨
      ∃ r, e = .failed (.refused r m'.pc) ∧ ((Fault.refused r m'.pc).IsOperandFault ∨
        ∃ ins ∈ m.program, ∃ name, ins.op = .unknown name) := by
  rcases after_of_run hl h with ⟨rfl, k, n, -, hd, rfl⟩ | ⟨f, k, rfl, hk⟩ | rfl
  · refine .inl ⟨rfl, ?_⟩
    rw [trace_status]
    cases hstat : n.status with
    | running => simp [isDone, hstat] at hd
    | halted => exact .inl rfl
    | jumpedOut => exact .inr rfl
  · obtain ⟨j, n, hj, hn⟩ := exists_step_of_after hk
    have hprog := after_program j m
    rw [hj] at hprog
    cases stepped_of_step hn with
    | refuse ins r _ hf he =>
      rw [fetch_pc]
      refine .inr ⟨r, rfl, ?_⟩
      cases hop : ins.op with
      | known op => exact .inl (Instruction.isOperandFault_of_effect hop he n.pc)
      | unknown name => exact .inr ⟨ins, hprog ▸ Array.mem_of_getElem? hf, name, hop⟩
  · exact absurd rfl hends

/-- **A refusal changes nothing and lasts.** A step that fails leaves the registers, the index, the
status and the output as they were and counts one instruction; the fault holds the index of the
instruction, and so does the message if an operand is to blame. Whatever is done with the machine
afterwards, it stays at this index and is not done, every step fails with the same fault, and every
run fails with it or at the limit, which is told unless it has too many digits. -/
theorem refusal_lasts {m m' : Machine} {f : Fault} (h : m.step = (m', some f)) :
    (m'.bank = m.bank ∧ m'.pc = m.pc ∧ m'.status = m.status ∧ m'.output = m.output ∧
      m'.steps = m.steps + 1) ∧
    (∃ r, f = .refused r m.pc ∧
      (f.IsOperandFault → f.message = messageAt r.message (some m.pc))) ∧
    ∀ as n, Driven as m' n → n.pc = m.pc ∧ n.isDone = false ∧ n.output = m.output ∧
      n.step.2 = some f ∧
      ∀ fuel, ∃ n' g, n.run (fuel + 1) = (n', .failed g) ∧
        (g = f ∨ ∃ l, n.limit = some l ∧ g = .atLimit l m.pc) := by
  obtain ⟨r, rfl, hm, hplace, hbank, hsteps⟩ := refuses_of_fault h
  refine ⟨⟨hbank, hplace.pc, hplace.status, hplace.output, hsteps⟩,
    ⟨r, rfl, Fault.message_of_isOperandFault⟩, fun as n hdriven => ?_⟩
  have hn := hdriven.samePlace hm hplace
  exact ⟨hn.pc, hn.isDone.trans hm.1, hn.output, (hn.step hm).1, hn.run hm⟩

/-- A copy into a number is refused before and after its source is overwritten, and a run that may
take two instructions fails with the refusal, or at the limit once two were counted. -/
theorem refusal_lasts_copy_into_number :
    let p : Program := #[{ op := .known .mov, src := .register .r1, dst := .number 2.0 }]
    ∃ m' n, (start p Bank.zero none false).step = (m', some (.refused (.unwritable .number) 0)) ∧
      Driven [.write .r1 5.0, .setLimit (some 2), .run] m' n ∧ n.steps = 2 ∧
      n.step.2 = some (.refused (.unwritable .number) 0) ∧
      ∃ n', n.run 1 = (n', .failed (.limitExceeded 2 0)) := by
  intro p
  let m' : Machine := { program := p, steps := 1 }
  let n : Machine := { program := p, bank := Bank.zero.write .r1 5.0, steps := 2, limit := some 2 }
  have hstep : (start p Bank.zero none false).step =
      (m', some (.refused (.unwritable .number) 0)) := rfl
  have hrun : Machine.run 1 { n with steps := 1 } =
      (n, .failed (.refused (.unwritable .number) 0)) := rfl
  have hdriven : Driven [.write .r1 5.0, .setLimit (some 2), .run] m' n :=
    .cons (.write _ .r1 5.0) (.cons (.setLimit _ (some 2)) (.cons (.run hrun (by decide)) (.nil _)))
  obtain ⟨-, -, hlasts⟩ := refusal_lasts hstep
  exact ⟨m', n, hstep, hdriven, rfl, (hlasts _ n hdriven).2.2.2.1, n, rfl⟩

/-- A copy into a number after which a limit with too many digits is set: the run fails neither with
the refusal nor with the fault of the limit. -/
theorem refusal_without_limit_fault :
    let p : Program := #[{ op := .known .mov, src := .register .r1, dst := .number 2.0 }]
    let f : Fault := .refused (.unwritable .number) 0
    ∃ m' n, (start p Bank.zero none false).step = (m', some f) ∧
      Driven [.setLimit (some longLimit)] m' n ∧
      ∃ n' g, n.run 1 = (n', .failed g) ∧ g ≠ f ∧ ∀ l pc, g ≠ .limitExceeded l pc := by
  intro p f
  let m' : Machine := { program := p, steps := 1 }
  exact ⟨m', _, rfl, .cons (.setLimit m' (some longLimit)) (.nil _), _, _,
    run_of_longLimit 0 rfl rfl (by decide), fun h => (nomatch h), fun l pc h => (nomatch h)⟩

end Machine

end RegisterMachine
