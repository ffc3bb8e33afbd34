import RegisterMachine.Error
import RegisterMachine.Proofs.StepLimit

/-!
# Kinds of operands

Whether an instruction can be executed is decided by its operator and the kinds of its operands,
whatever the registers hold.

* `Operator.Accepts`: the kinds of operands that suit an operator.
* `Operator.needs`: what an operator wants from its operands, in the order in which it looks at
  them; `firstUnmet` is the first want that is not met.
* `Demands`: a computation is refused exactly as a list of needs says. It composes along the
  computation, so that each operator is looked at once.
* `Instruction.WellFormed`, `Instruction.IllFormed`: whether the operands of an instruction suit its
  operator.

Principal results: `demands_effectOf` (an operator is refused for its first unmet need),
`step_fault_eq` (so a step is), and `refused_iff_ill_formed`, which lifts this to runs.
-/

set_option autoImplicit false

namespace RegisterMachine

/-! ## Kinds that suit an operator -/

/-- Operands of this kind have a value. -/
def Kind.HasValue (k : Kind) : Prop := k = .register ∨ k = .number

instance (k : Kind) : Decidable k.HasValue := inferInstanceAs (Decidable (_ ∨ _))

/-- Whether operands of two kinds, the source and the destination, suit an operator. -/
def Operator.Accepts (op : Operator) (src dst : Kind) : Prop :=
  match op with
  | .add | .sub | .mul | .div | .less | .equal | .and | .or | .not | .mov =>
    src.HasValue ∧ dst = .register
  | .prn => src.HasValue
  | .jmt | .jmf => dst = .index ∧ src.HasValue
  | .jmp => src = .index ∨ dst = .index
  | .nop => True

/-- What an operator wants from an operand. -/
inductive Need where
  /-- A value to read. -/
  | value
  /-- A place to write to. -/
  | place
  /-- An index to jump to. -/
  | target
  deriving DecidableEq, Repr

namespace Need

/-- Whether operands of a kind give what is wanted. -/
def IsMet (n : Need) (k : Kind) : Prop :=
  match n with
  | .value => k.HasValue
  | .place => k = .register
  | .target => k = .index

instance : (n : Need) → (k : Kind) → Decidable (n.IsMet k)
  | .value, k => inferInstanceAs (Decidable k.HasValue)
  | .place, k => inferInstanceAs (Decidable (k = .register))
  | .target, k => inferInstanceAs (Decidable (k = .index))

/-- The refusal of an operand that does not give what is wanted. -/
def refusal : Need → Kind → Refusal
  | .value => .unreadable
  | .place => .unwritable
  | .target => .notTarget

/-- What is said about such an operand. -/
def complaint (n : Need) (k : Kind) : String :=
  match n with
  | .value => "cannot read a value from " ++ k.name ++ " operand"
  | .place => "cannot write to " ++ k.name ++ " operand"
  | .target => "jump target must be an index, got " ++ k.name

end Need

/-- What an operator wants from operands of two kinds, in the order in which it looks at them. -/
def Operator.needs (op : Operator) (src dst : Kind) : List (Need × Kind) :=
  match op with
  | .add | .sub | .mul | .div | .less | .equal | .and | .or =>
    [(.value, src), (.value, dst), (.place, dst)]
  | .not | .mov => [(.value, src), (.place, dst)]
  | .prn => [(.value, src)]
  | .jmt | .jmf => [(.target, dst), (.value, src)]
  | .jmp => [(.target, if src = .index then src else dst)]
  | .nop => []

/-- The first of several needs that is not met. -/
def firstUnmet (needs : List (Need × Kind)) : Option (Need × Kind) :=
  needs.find? fun c => ¬ c.1.IsMet c.2

theorem firstUnmet_cons_of_met {n : Need} {k : Kind} (needs : List (Need × Kind))
    (h : n.IsMet k) : firstUnmet ((n, k) :: needs) = firstUnmet needs := by
  simp [firstUnmet, h]

theorem firstUnmet_cons_of_not_met {n : Need} {k : Kind} (needs : List (Need × Kind))
    (h : ¬ n.IsMet k) : firstUnmet ((n, k) :: needs) = some (n, k) := by
  simp [firstUnmet, h]

theorem firstUnmet_eq_none_iff {needs : List (Need × Kind)} :
    firstUnmet needs = none ↔ ∀ c ∈ needs, c.1.IsMet c.2 := by
  unfold firstUnmet
  rw [List.find?_eq_none]
  exact forall₂_congr fun c _ => by simp

/-- Operands suit an operator if and only if all that it wants from them is met. -/
theorem Operator.accepts_iff (op : Operator) (src dst : Kind) :
    op.Accepts src dst ↔ firstUnmet (op.needs src dst) = none := by
  -- what can be written to has a value, so reading it as well asks for nothing more
  have hplace : dst = .register → dst.HasValue := .inl
  rw [firstUnmet_eq_none_iff]
  cases op with
  | add | sub | mul | div | less | equal | and | or =>
    simp only [Operator.Accepts, Operator.needs, Need.IsMet, List.forall_mem_cons]
    grind
  | not | mov | prn | jmt | jmf | nop => simp [Operator.Accepts, Operator.needs, Need.IsMet]
  | jmp =>
    simp only [Operator.Accepts, Operator.needs, Need.IsMet, List.forall_mem_singleton]
    split <;> simp [*]

/-! ## The check that fails -/

/-- The operators that combine the source with the destination. -/
def Operator.combining : List Operator := [.add, .sub, .mul, .div, .less, .equal, .and, .or]

theorem Operator.needs_of_combining {op : Operator} (h : op ∈ combining) (src dst : Kind) :
    op.needs src dst = [(.value, src), (.value, dst), (.place, dst)] := by
  simp only [combining, List.mem_cons, List.not_mem_nil, or_false] at h
  rcases h with rfl | rfl | rfl | rfl | rfl | rfl | rfl | rfl <;> rfl

/-- A number that should be combined with a readable source can be read, but not written to. -/
theorem firstUnmet_combining_number {op : Operator} (h : op ∈ Operator.combining) {src : Kind}
    (hsrc : src.HasValue) : firstUnmet (op.needs src .number) = some (.place, .number) := by
  rw [Operator.needs_of_combining h, firstUnmet_cons_of_met (n := .value) _ hsrc,
    firstUnmet_cons_of_met (n := .value) _ (.inr rfl), firstUnmet_cons_of_not_met _ (by decide)]

/-- What has no value cannot be read, before it cannot be written to. -/
theorem firstUnmet_combining_unreadable {op : Operator} (h : op ∈ Operator.combining)
    {src dst : Kind} (hsrc : src.HasValue) (hdst : ¬ dst.HasValue) :
    firstUnmet (op.needs src dst) = some (.value, dst) := by
  rw [Operator.needs_of_combining h, firstUnmet_cons_of_met (n := .value) _ hsrc,
    firstUnmet_cons_of_not_met (n := .value) _ hdst]

/-- The destination of a copy or a negation is only written to. -/
theorem firstUnmet_replacing {op : Operator} (h : op = .not ∨ op = .mov) {src dst : Kind}
    (hsrc : src.HasValue) (hdst : dst ≠ .register) :
    firstUnmet (op.needs src dst) = some (.place, dst) := by
  have hneeds : op.needs src dst = [(.value, src), (.place, dst)] := by
    rcases h with rfl | rfl <;> rfl
  rw [hneeds, firstUnmet_cons_of_met (n := .value) _ hsrc,
    firstUnmet_cons_of_not_met (n := .place) _ hdst]

/-! ## Computations that want something from operands -/

/-- A computation is refused exactly as a list of needs says: for the first that is not met, or not
at all. -/
def Demands {α : Type} (x : Except Refusal α) (needs : List (Need × Kind)) : Prop :=
  match firstUnmet needs with
  | none => ∃ a, x = .ok a
  | some c => x = .error (c.1.refusal c.2)

theorem demands_ok {α : Type} (a : α) : Demands (.ok a) [] := ⟨a, rfl⟩

theorem demands_bind {α β : Type} {x : Except Refusal α} {f : α → Except Refusal β} {n : Need}
    {k : Kind} {needs : List (Need × Kind)} (hx : Demands x [(n, k)])
    (hf : ∀ a, Demands (f a) needs) : Demands (x >>= f) ((n, k) :: needs) := by
  by_cases hk : n.IsMet k
  · rw [Demands, firstUnmet_cons_of_met _ hk] at hx ⊢
    obtain ⟨a, rfl⟩ := hx
    exact hf a
  · rw [Demands, firstUnmet_cons_of_not_met _ hk] at hx ⊢
    rw [hx]
    rfl

namespace Operand

theorem demands_value (b : Bank) (o : Operand) : Demands (o.value b) [(.value, o.kind)] := by
  cases o with
  | register r => exact ⟨_, rfl⟩
  | number x => exact ⟨_, rfl⟩
  | index n => rfl
  | absent => rfl

theorem demands_place (o : Operand) : Demands o.place [(.place, o.kind)] := by
  cases o with
  | register r => exact ⟨_, rfl⟩
  | _ => rfl

theorem demands_target (o : Operand) : Demands o.target [(.target, o.kind)] := by
  cases o with
  | index n => exact ⟨_, rfl⟩
  | _ => rfl

end Operand

namespace Instruction

theorem demands_combine (b : Bank) (src dst : Operand) (f : Float → Float → Float) :
    Demands (combine b src dst f)
      [(.value, src.kind), (.value, dst.kind), (.place, dst.kind)] :=
  demands_bind (src.demands_value b) fun _ =>
    demands_bind (dst.demands_value b) fun _ =>
      demands_bind dst.demands_place fun _ => demands_ok _

/-- An operator is refused exactly as its needs say, whatever the registers hold. -/
theorem demands_effectOf (b : Bank) (op : Operator) (src dst : Operand) :
    Demands (effectOf b op src dst) (op.needs src.kind dst.kind) := by
  cases op with
  | add | sub | mul | div | less | equal | and | or => exact demands_combine b src dst _
  | not | mov =>
    exact demands_bind (src.demands_value b) fun _ =>
      demands_bind dst.demands_place fun _ => demands_ok _
  | prn => exact demands_bind (src.demands_value b) fun _ => demands_ok _
  | jmt | jmf =>
    exact demands_bind dst.demands_target fun _ =>
      demands_bind (src.demands_value b) fun _ => demands_ok _
  | jmp =>
    have hkind : (if src.kind = .index then src.kind else dst.kind) =
        (if src.kind = .index then src else dst).kind := by
      split <;> rfl
    show Demands _ [(.target, _)]
    rw [hkind]
    exact demands_bind (Operand.demands_target _) fun _ => demands_ok _
  | nop => exact demands_ok _

/-- An operator can be carried out if and only if its operands suit it. -/
theorem effectOf_ok_iff (b : Bank) (op : Operator) (src dst : Operand) :
    (∃ e, effectOf b op src dst = .ok e) ↔ op.Accepts src.kind dst.kind := by
  have h := demands_effectOf b op src dst
  rw [op.accepts_iff]
  unfold Demands at h
  split at h
  · rename_i hmet
    exact ⟨fun _ => hmet, fun _ => h⟩
  · rename_i c hunmet
    rw [h, hunmet]
    simp

end Instruction

/-! ## Steps -/

namespace Instruction

/-- An instruction that can be executed: its operator is known and its operands suit it. -/
def WellFormed (ins : Instruction) : Prop :=
  ∃ op, ins.op = .known op ∧ op.Accepts ins.src.kind ins.dst.kind

/-- An instruction with a known operator that its operands do not suit. -/
def IllFormed (ins : Instruction) : Prop :=
  ∃ op, ins.op = .known op ∧ ¬ op.Accepts ins.src.kind ins.dst.kind

theorem WellFormed.effect_ok {ins : Instruction} (h : ins.WellFormed) (b : Bank) :
    ∃ e, ins.effect b = .ok e := by
  obtain ⟨op, hop, hacc⟩ := h
  simpa [effect, hop] using (effectOf_ok_iff b op ins.src ins.dst).2 hacc

end Instruction

/-- Whether a fault is that of an operand which does not suit its operator. -/
def Fault.IsOperandFault : Fault → Prop
  | .refused (.unknownOperator _) _ => False
  | .refused _ _ => True
  | .limitExceeded _ _ | .limitUnworded => False

theorem Need.isOperandFault (n : Need) (k : Kind) (pc : Nat) :
    (Fault.refused (n.refusal k) pc).IsOperandFault := by
  cases n <;> trivial

theorem Need.message_refused (n : Need) (k : Kind) (pc : Nat) :
    (Fault.refused (n.refusal k) pc).message = messageAt (n.complaint k) (some pc) := by
  cases n <;> rfl

namespace Machine

/-- The fault of a step at an instruction with a known operator: that of the first need which is
not met. -/
theorem step_fault_eq {m : Machine} {ins : Instruction} {op : Operator} (hb : m.isDone = false)
    (hf : m.program[m.pc]? = some ins) (hop : ins.op = .known op) :
    m.step.2 = (firstUnmet (op.needs ins.src.kind ins.dst.kind)).map
      fun c => .refused (c.1.refusal c.2) m.pc := by
  have h := Instruction.demands_effectOf m.bank op ins.src ins.dst
  have heff : ins.effect m.bank = Instruction.effectOf m.bank op ins.src ins.dst := by
    simp [Instruction.effect, hop]
  unfold Demands at h
  split at h
  · rename_i hmet
    obtain ⟨e, he⟩ := h
    rw [hmet, (Stepped.execute ins e hb hf (heff.trans he)).step_eq]
    rfl
  · rename_i c hunmet
    rw [hunmet, (Stepped.refuse ins _ hb hf (heff.trans h)).step_eq]
    rfl

/-- A step is faulty at an instruction with a known operator if and only if its operands do not
suit it. -/
theorem step_isOperandFault_iff {m : Machine} {ins : Instruction} {op : Operator}
    (hb : m.isDone = false) (hf : m.program[m.pc]? = some ins) (hop : ins.op = .known op) :
    (∃ f, m.step.2 = some f ∧ f.IsOperandFault) ↔ ¬ op.Accepts ins.src.kind ins.dst.kind := by
  rw [step_fault_eq hb hf hop, op.accepts_iff]
  cases firstUnmet (op.needs ins.src.kind ins.dst.kind) with
  | none => simp
  | some c => simpa using c.1.isOperandFault c.2 m.pc

/-- The instruction at which a step comes to an operand fault. -/
theorem illFormed_of_step {m m' : Machine} {f : Fault} (h : m.step = (m', some f))
    (hf : f.IsOperandFault) :
    m.isDone = false ∧ ∃ ins, m.program[m.pc]? = some ins ∧ ins.IllFormed := by
  cases stepped_of_step h with
  | refuse ins r hb hfetch he =>
    refine ⟨hb, ins, hfetch, ?_⟩
    cases hop : ins.op with
    | unknown name =>
      -- an unknown operator is refused by its name
      simp only [Instruction.effect, hop] at he
      cases he
      exact hf.elim
    | known op =>
      exact ⟨op, hop, (step_isOperandFault_iff hb hfetch hop).1 ⟨_, by rw [h], hf⟩⟩

/-! ## Runs -/

/-- A run of well-formed instructions fails at its limit only. -/
theorem atLimit_of_wellFormed {p : Program} (hp : ∀ ins ∈ p, ins.WellFormed) {m m' : Machine}
    {f : Fault} {fuel : Nat} (hm : m.program = p) (h : run fuel m = (m', .failed f)) :
    ∃ n, m.limit = some n ∧ f = .atLimit n m'.pc := by
  refine (limit_or_step_of_run_failed h).resolve_right ?_
  rintro ⟨k, m1, hk, hstep⟩
  have hprog : m1.program = p := by
    rw [← hm, ← after_program k m, hk]
  cases stepped_of_step hstep with
  | refuse ins r _ hfetch he =>
    rw [hprog] at hfetch
    obtain ⟨e, he'⟩ := (hp ins (Array.mem_of_getElem? hfetch)).effect_ok m1.bank
    rw [he'] at he
    cases he

/-- A run without a limit comes to an operand fault if and only if it comes to an ill-formed
instruction. -/
theorem run_isOperandFault_iff {m : Machine} (hl : m.limit = none) :
    (∃ fuel m' f, run fuel m = (m', .failed f) ∧ f.IsOperandFault) ↔
      ∃ k m1 ins, after k m = (m1, none) ∧ m1.isDone = false ∧ m.program[m1.pc]? = some ins ∧
        ins.IllFormed := by
  have hprog : ∀ {k m1}, after k m = (m1, none) → m1.program = m.program := by
    intro k m1 hk
    rw [← after_program k m, hk]
  constructor
  · rintro ⟨fuel, m', f, hrun, hf⟩
    rcases limit_or_step_of_run_failed hrun with ⟨n, hlimit, -⟩ | ⟨k, m1, hk, hstep⟩
    · cases hl.symm.trans hlimit
    · obtain ⟨hb, ins, hfetch, hill⟩ := illFormed_of_step hstep hf
      rw [hprog hk] at hfetch
      exact ⟨k, m1, ins, hk, hb, hfetch, hill⟩
  · rintro ⟨k, m1, ins, hk, hb, hfetch, op, hop, hacc⟩
    rw [← hprog hk] at hfetch
    obtain ⟨f, hstep, hf⟩ := (step_isOperandFault_iff hb hfetch hop).2 hacc
    have hafter : after (k + 1) m = (m1.step.1, some f) := by
      rw [after_succ hk, ← hstep]
    exact ⟨_, _, f, run_of_after_fault hl hafter, hf⟩

/-- **An instruction is refused if and only if its operands do not suit its operator**, and the
message is that of the first check which fails: the target of a conditional jump before its source,
otherwise the source read before the destination read before the destination written. So a run of
well-formed instructions fails at its limit only, which is told unless it has too many digits, and a
run without a limit comes to an operand fault if and only if it comes to an ill-formed
instruction. -/
theorem refused_iff_ill_formed (p : Program) (b : Bank) (tracing : Bool) :
    (∀ (m : Machine) (ins : Instruction) (op : Operator), m.program = p → m.isDone = false →
      p[m.pc]? = some ins → ins.op = .known op →
        ((∃ f, m.step.2 = some f ∧ f.IsOperandFault) ↔
          ¬ op.Accepts ins.src.kind ins.dst.kind) ∧
        ∀ n k, firstUnmet (op.needs ins.src.kind ins.dst.kind) = some (n, k) →
          ∃ f, m.step.2 = some f ∧ f.message = messageAt (n.complaint k) (some m.pc)) ∧
    (∀ (op : Operator) (src dst : Kind), src.HasValue →
      (op ∈ Operator.combining → firstUnmet (op.needs src .number) = some (.place, .number)) ∧
      (op ∈ Operator.combining → dst = .index ∨ dst = .absent →
        firstUnmet (op.needs src dst) = some (.value, dst)) ∧
      (op = .not ∨ op = .mov → dst ≠ .register →
        firstUnmet (op.needs src dst) = some (.place, dst))) ∧
    ((∀ ins ∈ p, ins.WellFormed) → ∀ limit fuel m f,
      (start p b limit tracing).run fuel = (m, .failed f) →
        ∃ n, limit = some n ∧ f = .atLimit n m.pc) ∧
    ((∃ fuel m f, (start p b none tracing).run fuel = (m, .failed f) ∧ f.IsOperandFault) ↔
      ∃ k m ins, (start p b none tracing).after k = (m, none) ∧ m.isDone = false ∧
        p[m.pc]? = some ins ∧ ins.IllFormed) := by
  refine ⟨?_, ?_, ?_, run_isOperandFault_iff rfl⟩
  · rintro m ins op rfl hb hfetch hop
    refine ⟨step_isOperandFault_iff hb hfetch hop, fun n k hunmet => ?_⟩
    rw [step_fault_eq hb hfetch hop, hunmet]
    exact ⟨_, rfl, n.message_refused k m.pc⟩
  · intro op src dst hsrc
    refine ⟨fun hop => firstUnmet_combining_number hop hsrc, fun hop hdst => ?_,
      fun hop hdst => firstUnmet_replacing hop hsrc hdst⟩
    exact firstUnmet_combining_unreadable hop hsrc (by rcases hdst with rfl | rfl <;> decide)
  · intro hp limit fuel m f hrun
    exact atLimit_of_wellFormed hp rfl hrun

/-- A number as the destination of a difference: it is refused as a place, and the run that comes to
it fails; without it the run can only be cut off. -/
theorem refused_difference_into_number :
    let skip : Instruction := { op := .known .nop }
    let sub : Instruction := { op := .known .sub, src := .register .r1, dst := .number 2.0 }
    (∃ f, { start #[skip, sub] Bank.zero none false with pc := 1 }.step.2 = some f ∧
      f.message = messageAt "cannot write to float operand" (some 1)) ∧
    (∃ fuel m f, (start #[skip, sub] Bank.zero none false).run fuel = (m, .failed f) ∧
      f.IsOperandFault) ∧
    ∃ m f n, (start #[skip] Bank.zero (some 0) false).run 1 = (m, .failed f) ∧
      f = .limitExceeded n m.pc := by
  intro skip sub
  obtain ⟨hstep, horder, -, hreach⟩ := refused_iff_ill_formed #[skip, sub] Bank.zero false
  refine ⟨?_, ?_, ?_⟩
  · have hunmet := (horder .sub .register .number (.inl rfl)).1 (by decide)
    have hsub := hstep { start #[skip, sub] Bank.zero none false with pc := 1 } sub .sub rfl rfl
      rfl rfl
    exact hsub.2 .place .number hunmet
  · have hill : sub.IllFormed := ⟨.sub, rfl, by rintro ⟨-, h⟩; cases h⟩
    exact hreach.2 ⟨1, _, sub, rfl, rfl, rfl, hill⟩
  · have hwell : ∀ ins ∈ #[skip], ins.WellFormed := by
      intro ins hins
      obtain rfl : ins = skip := by simpa using hins
      exact ⟨.nop, rfl, trivial⟩
    obtain ⟨-, -, hsound, -⟩ := refused_iff_ill_formed #[skip] Bank.zero false
    obtain ⟨n, hn, hf⟩ := hsound hwell (some 0) 1 _ _ rfl
    cases hn
    exact ⟨_, _, 0, rfl, hf⟩

/-- A well-formed instruction under a limit with too many digits: the run fails with the fault of no
operand, nor of a limit. -/
theorem wellFormed_without_limit_fault :
    let skip : Instruction := { op := .known .nop }
    skip.WellFormed ∧ ∃ m f,
      (start #[skip] Bank.zero (some longLimit) false).run 1 = (m, .failed f) ∧
        ¬ f.IsOperandFault ∧ ∀ n pc, f ≠ .limitExceeded n pc := by
  intro skip
  exact ⟨⟨.nop, rfl, trivial⟩, _, _, run_of_longLimit 0 rfl rfl (by decide), id,
    fun n pc h => nomatch h⟩

end Machine

end RegisterMachine
