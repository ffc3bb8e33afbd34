import RegisterMachine.Proofs.Execution
import RegisterMachine.Proofs.Number.Division

/-!
# The machine without an instruction pointer

The reference machine holds what remains of its program instead of an index into it. It stops when
nothing remains; a taken jump drops a number of instructions from the whole program, or leaves
nothing if the target lies outside it.

* `Suffix.Config`: what remains, the bank and the lines printed.
* `Operator.rule`: what each operator computes, the destination on the left of the source.
* `Suffix.step`, `Suffix.after`: one step, and `k` of them up to one that fails.
* `Suffix.Related`: the machine stands where the reference machine stands.

Principal results: `Related.step` (one step keeps the relation), `Related.after` (so do `k` steps),
`machine_refines_suffix` (the same banks, lines and faults after every number of steps, and a run
without a limit stops if and only if the reference machine does).
-/

set_option autoImplicit false

namespace RegisterMachine

/-! ## The reference machine -/

/-- What an operator does with its operands. -/
inductive Rule where
  /-- Writes to the destination what `f` makes of the destination and the source. -/
  | combine (f : Float → Float → Float)
  /-- Writes to the destination, which is not read, what `f` makes of the source. -/
  | replace (f : Float → Float)
  /-- Prints the source. -/
  | print
  /-- Does nothing. -/
  | skip
  /-- Jumps to the source if that is an index, to the destination otherwise. -/
  | goto
  /-- Jumps to the destination if the source differs from zero, or if it does not. -/
  | branch (onNonzero : Bool)

/-- The rules of the operators. -/
def Operator.rule : Operator → Rule
  | .add => .combine fun d s => d + s
  | .sub => .combine fun d s => d - s
  | .mul => .combine fun d s => d * s
  | .div => .combine fun d s => d / s
  | .less => .combine fun d s => if d < s then 1.0 else 0.0
  | .equal => .combine fun d s => if d == s then 1.0 else 0.0
  | .and => .combine fun d s => if d != 0.0 && s != 0.0 then 1.0 else 0.0
  | .or => .combine fun d s => if d != 0.0 || s != 0.0 then 1.0 else 0.0
  | .not => .replace fun s => if s != 0.0 then 0.0 else 1.0
  | .mov => .replace fun s => s
  | .jmt => .branch true
  | .jmf => .branch false
  | .jmp => .goto
  | .prn => .print
  | .nop => .skip

namespace Suffix

/-- A configuration of the reference machine. -/
structure Config where
  /-- What remains of the program. -/
  rest : List Instruction
  bank : Bank
  /-- The lines printed. -/
  output : List String

namespace Config

/-- The value of an operand that has one. -/
def value? (c : Config) : Operand → Option Float
  | .register r => some (c.bank.read r)
  | .number x => some x
  | .index _ => none
  | .absent => none

/-- The configuration that goes on at an index of the program, or with nothing outside it. -/
def goto (program : List Instruction) (c : Config) (target : Int) : Config :=
  { c with rest :=
      if 0 ≤ target ∧ target ≤ program.length then program.drop target.toNat else [] }

/-- What a rule makes of a configuration that holds the instructions after the current one. The
first operand that does not fit is named, a jump target before a source. -/
def obey (program : List Instruction) (c : Config) (src dst : Operand) :
    Rule → Except Refusal Config
  | .combine f =>
    match c.value? src, c.value? dst, dst with
    | some s, some d, .register r => .ok { c with bank := c.bank.write r (f d s) }
    | some _, some _, _ => .error (.unwritable dst.kind)
    | some _, none, _ => .error (.unreadable dst.kind)
    | none, _, _ => .error (.unreadable src.kind)
  | .replace f =>
    match c.value? src, dst with
    | some s, .register r => .ok { c with bank := c.bank.write r (f s) }
    | some _, _ => .error (.unwritable dst.kind)
    | none, _ => .error (.unreadable src.kind)
  | .print =>
    match c.value? src with
    | some s => .ok { c with output := c.output ++ [String.ofList (Number.text s)] }
    | none => .error (.unreadable src.kind)
  | .skip => .ok c
  | .goto =>
    match src, dst with
    | .index t, _ => .ok (c.goto program t)
    | _, .index t => .ok (c.goto program t)
    | _, _ => .error (.notTarget dst.kind)
  | .branch onNonzero =>
    match dst, c.value? src with
    | .index t, some s => .ok (if (s != 0.0) = onNonzero then c.goto program t else c)
    | .index _, none => .error (.unreadable src.kind)
    | _, _ => .error (.notTarget dst.kind)

end Config

/-- One instruction of the reference machine, which stays as it is with nothing left and at an
instruction that cannot be executed. -/
def step (program : List Instruction) (c : Config) : Config × Option Fault :=
  match c.rest with
  | [] => (c, none)
  | ins :: rest =>
    let index := program.length - c.rest.length
    match ins.op with
    | .unknown name => (c, some (.refused (.unknownOperator name) index))
    | .known op =>
      match { c with rest := rest }.obey program ins.src ins.dst op.rule with
      | .ok c' => (c', none)
      | .error r => (c, some (.refused r index))

/-- What `k` steps of the reference machine lead to, up to one that fails. -/
def after (program : List Instruction) : Nat → Config → Config × Option Fault
  | 0, c => (c, none)
  | k + 1, c =>
    match step program c with
    | (c, none) => after program k c
    | (c, some f) => (c, some f)

/-- The reference machine before its first step. -/
def start (p : Program) (b : Bank) : Config := ⟨p.toList, b, []⟩

/-- The reference machine stops with a configuration. -/
def StopsAt (p : Program) (b : Bank) (c : Config) : Prop :=
  ∃ k, after p.toList k (start p b) = (c, none) ∧ c.rest = []

/-! ## Rules and effects -/

/-- What an effect makes of a configuration. -/
def Config.perform (program : List Instruction) (c : Config) : Effect → Config
  | .proceed => c
  | .store r x => { c with bank := c.bank.write r x }
  | .print x => { c with output := c.output ++ [String.ofList (Number.text x)] }
  | .jump t => c.goto program t

theorem obey_combine (program : List Instruction) (c : Config) (src dst : Operand)
    {f g : Float → Float → Float} (h : ∀ d s, f d s = g d s) :
    c.obey program src dst (.combine f) =
      (Instruction.combine c.bank src dst g).map (c.perform program) := by
  obtain rfl : f = g := funext fun d => funext fun s => h d s
  cases src <;> cases dst <;> rfl

theorem obey_replace (program : List Instruction) (c : Config) (src dst : Operand)
    {f g : Float → Float} (h : ∀ s, f s = g s) :
    c.obey program src dst (.replace f) = (do
      let s ← src.value c.bank
      let r ← dst.place
      return Effect.store r (g s) : Except Refusal Effect).map (c.perform program) := by
  obtain rfl : f = g := funext h
  cases src <;> cases dst <;> rfl

theorem obey_branch (program : List Instruction) (c : Config) (src dst : Operand)
    {onNonzero : Bool} {g : Float → Int → Effect}
    (h : ∀ s t, g s t = if truth s = onNonzero then .jump t else .proceed) :
    c.obey program src dst (.branch onNonzero) = (do
      let t ← dst.target
      let s ← src.value c.bank
      return g s t : Except Refusal Effect).map (c.perform program) := by
  have hread : ∀ s t, (Except.ok (if (s != 0.0) = onNonzero then c.goto program t else c) :
      Except Refusal Config) = .ok (c.perform program (g s t)) := by
    intro s t
    rw [h, truth]
    split <;> rfl
  cases dst with
  | index t =>
    cases src with
    | register r => exact hread (c.bank.read r) t
    | number x => exact hread x t
    | index n => rfl
    | absent => rfl
  | _ => rfl

/-- Obeying the rule of an operator is performing its effect. -/
theorem obey_rule (program : List Instruction) (c : Config) (op : Operator) (src dst : Operand) :
    c.obey program src dst op.rule =
      (Instruction.effectOf c.bank op src dst).map (c.perform program) := by
  cases op with
  | add | sub | mul => exact obey_combine program c src dst fun _ _ => rfl
  | div => exact obey_combine program c src dst fun d s => (divide_eq_div d s).symm
  | less => exact obey_combine program c src dst fun d s => by simp [ofTruth]
  | equal => exact obey_combine program c src dst fun d s => by simp [ofTruth]
  | and =>
    exact obey_combine program c src dst fun d s => by simp [ofTruth, truth, Bool.and_comm]
  | or => exact obey_combine program c src dst fun d s => by simp [ofTruth, truth, Bool.or_comm]
  | not =>
    exact obey_replace program c src dst fun s => by cases hs : truth s <;> simp_all [ofTruth, truth]
  | mov => exact obey_replace program c src dst fun _ => rfl
  | jmt => exact obey_branch program c src dst fun s t => rfl
  | jmf => exact obey_branch program c src dst fun s t => by cases truth s <;> rfl
  | jmp => cases src <;> cases dst <;> rfl
  | prn => cases src <;> rfl
  | nop => rfl

theorem step_of_ok {program : List Instruction} {c : Config} {ins : Instruction}
    {rest : List Instruction} {e : Effect} (hc : c.rest = ins :: rest)
    (he : ins.effect c.bank = .ok e) :
    step program c = ({ c with rest := rest }.perform program e, none) := by
  unfold step
  rw [hc]
  cases hop : ins.op with
  | unknown name => simp [Instruction.effect, hop] at he
  | known op =>
    have he' : Instruction.effectOf c.bank op ins.src ins.dst = .ok e := by
      simpa [Instruction.effect, hop] using he
    simp only [hop, obey_rule, he', Except.map]

theorem step_of_error {program : List Instruction} {c : Config} {ins : Instruction}
    {rest : List Instruction} {r : Refusal} (hc : c.rest = ins :: rest)
    (he : ins.effect c.bank = .error r) :
    step program c = (c, some (.refused r (program.length - c.rest.length))) := by
  unfold step
  rw [hc]
  cases hop : ins.op with
  | unknown name =>
    simp only [Instruction.effect, hop, Except.error.injEq] at he
    simp only [hop, he]
  | known op =>
    have he' : Instruction.effectOf c.bank op ins.src ins.dst = .error r := by
      simpa [Instruction.effect, hop] using he
    simp only [hop, obey_rule, he', Except.map]

/-! ## The simulation -/

/-- The machine stands where the reference machine stands. -/
structure Related (p : Program) (m : Machine) (c : Config) : Prop where
  program : m.program = p
  bank : m.bank = c.bank
  output : m.output.toList = c.output
  inside : m.pc ≤ p.size
  /-- What remains is the program from the index on. -/
  rest : m.status ≠ .jumpedOut → c.rest = p.toList.drop m.pc
  /-- A machine that is done has nothing left to do. -/
  done : m.isDone = true → c.rest = []

theorem related_start (p : Program) (b : Bank) (limit : Option Int) (tracing : Bool) :
    Related p (Machine.start p b limit tracing) (start p b) where
  program := rfl
  bank := rfl
  output := rfl
  inside := Nat.zero_le _
  rest := fun _ => rfl
  done := fun h => by cases h

theorem Related.fetch {p : Program} {m : Machine} {c : Config} (h : Related p m c)
    (ins : Instruction) : Related p (m.fetch ins) c where
  program := by rw [Machine.fetch_program, h.program]
  bank := by rw [Machine.fetch_bank, h.bank]
  output := by rw [Machine.fetch_output, h.output]
  inside := by rw [Machine.fetch_pc]; exact h.inside
  rest := by rw [Machine.fetch_status, Machine.fetch_pc]; exact h.rest
  done := by unfold Machine.isDone; rw [Machine.fetch_status]; exact h.done

/-- A machine that goes on is related by its index alone. -/
theorem related_of_running {p : Program} {m : Machine} {c : Config} (hp : m.program = p)
    (hbank : m.bank = c.bank) (hout : m.output.toList = c.output) (hin : m.pc ≤ p.size)
    (hb : m.isDone = false) (hrest : c.rest = p.toList.drop m.pc) : Related p m c where
  program := hp
  bank := hbank
  output := hout
  inside := hin
  rest := fun _ => hrest
  done := fun hd => by rw [hb] at hd; cases hd

/-- Related machines stay related when both perform an effect. -/
theorem Related.perform {p : Program} {m : Machine} {c : Config} (h : Related p m c)
    (hb : m.isDone = false) (hpc : m.pc < p.size) (e : Effect) :
    Related p (m.apply e) ({ c with rest := p.toList.drop (m.pc + 1) }.perform p.toList e) := by
  have hp := h.program
  cases e with
  | proceed => exact related_of_running hp h.bank h.output hpc hb rfl
  | store r x =>
    have hbank : m.bank.write r x = c.bank.write r x := by rw [h.bank]
    exact related_of_running hp hbank h.output hpc hb rfl
  | print x =>
    have hout : (m.output.push (String.ofList (Number.text x))).toList =
        c.output ++ [String.ofList (Number.text x)] := by
      rw [Array.toList_push, h.output]
    exact related_of_running hp h.bank hout hpc hb rfl
  | jump t =>
    show Related p (m.jump t) (Config.goto _ _ t)
    unfold Config.goto
    by_cases ht : 0 ≤ t ∧ t ≤ p.size
    · -- the target is an index of the program, or its end
      have htl : 0 ≤ t ∧ t ≤ p.toList.length := by simpa using ht
      rw [Machine.jump_inside ht.1 (by rw [hp]; exact ht.2), if_pos htl]
      exact related_of_running hp h.bank h.output (by show t.toNat ≤ p.size; omega) hb rfl
    · have htl : ¬ (0 ≤ t ∧ t ≤ p.toList.length) := by simpa using ht
      rw [Machine.jump_outside (by rw [hp]; exact ht), if_neg htl]
      exact ⟨hp, h.bank, h.output, h.inside, fun hs => absurd rfl hs, fun _ => rfl⟩

/-- What remains at an index of the program, and what comes before it. -/
theorem Related.current {p : Program} {m : Machine} {c : Config} (h : Related p m c)
    (hb : m.isDone = false) {ins : Instruction} (hf : m.program[m.pc]? = some ins) :
    m.pc < p.size ∧ c.rest = ins :: p.toList.drop (m.pc + 1) ∧
      p.toList.length - c.rest.length = m.pc := by
  rw [h.program] at hf
  obtain ⟨hpc, hins⟩ := Array.getElem?_eq_some_iff.1 hf
  have hs : m.status ≠ .jumpedOut := by
    intro hs
    simp [Machine.isDone, hs] at hb
  have hrest := h.rest hs
  have hlt : m.pc < p.toList.length := by simpa using hpc
  have hcons : c.rest = ins :: p.toList.drop (m.pc + 1) := by
    rw [hrest, List.drop_eq_getElem_cons hlt, Array.getElem_toList, hins]
  refine ⟨hpc, hcons, ?_⟩
  rw [hrest, List.length_drop]
  omega

/-- **One step keeps the relation and comes to the same fault.** -/
theorem Related.step {p : Program} {m : Machine} {c : Config} (h : Related p m c) :
    Related p m.step.1 (Suffix.step p.toList c).1 ∧ m.step.2 = (Suffix.step p.toList c).2 := by
  cases hs : m.step with
  | mk m' f =>
    cases Machine.stepped_of_step hs with
    | rest hd =>
      have hc : Suffix.step p.toList c = (c, none) := by simp [Suffix.step, h.done hd]
      rw [hc]
      exact ⟨h, rfl⟩
    | halt hb hl =>
      have hend : p.size ≤ m.pc := by
        rw [h.program] at hl
        exact Array.getElem?_eq_none_iff.1 hl
      have hs : m.status ≠ .jumpedOut := by
        intro hs
        simp [Machine.isDone, hs] at hb
      have hrest : c.rest = [] := by
        rw [h.rest hs, List.drop_eq_nil_iff]
        simpa using hend
      have hc : Suffix.step p.toList c = (c, none) := by simp [Suffix.step, hrest]
      rw [hc]
      exact ⟨⟨h.program, h.bank, h.output, h.inside, fun _ => h.rest hs, fun _ => hrest⟩, rfl⟩
    | refuse ins r hb hf he =>
      obtain ⟨-, hcons, hindex⟩ := h.current hb hf
      rw [h.bank] at he
      rw [step_of_error hcons he, hindex]
      exact ⟨h.fetch ins, rfl⟩
    | execute ins e hb hf he =>
      obtain ⟨hpc, hcons, -⟩ := h.current hb hf
      have hfetch : Related p ((m.fetch ins).apply e) _ := (h.fetch ins).perform
        (by unfold Machine.isDone; rw [Machine.fetch_status]; exact hb)
        (by rw [Machine.fetch_pc]; exact hpc) e
      rw [Machine.fetch_pc] at hfetch
      rw [h.bank] at he
      rw [step_of_ok hcons he]
      exact ⟨hfetch, rfl⟩

/-- **Any number of steps keeps the relation and comes to the same fault.** -/
theorem Related.after {p : Program} {m : Machine} {c : Config} (h : Related p m c) :
    ∀ k, Related p (m.after k).1 (Suffix.after p.toList k c).1 ∧
      (m.after k).2 = (Suffix.after p.toList k c).2
  | 0 => ⟨h, rfl⟩
  | k + 1 => by
    obtain ⟨hrel, hfault⟩ := h.step
    cases hs : m.step with
    | mk m' f =>
      cases hc : Suffix.step p.toList c with
      | mk c' g =>
        rw [hs, hc] at hrel hfault
        obtain rfl : f = g := hfault
        cases f with
        | none =>
          rw [Machine.after_succ_of_step k hs]
          simpa only [Suffix.after, hc] using hrel.after k
        | some f =>
          rw [Machine.after_succ_of_fault k hs]
          simpa only [Suffix.after, hc, and_true] using hrel

/-! ## Refinement -/

/-- The machine is done, at the latest after one more step, once the reference machine has nothing
left. -/
theorem Related.halts {p : Program} {m : Machine} {c : Config} (h : Related p m c)
    (hrest : c.rest = []) : ∃ m', m.step = (m', none) ∧ m'.isDone = true ∧ m'.bank = m.bank ∧
      m'.output = m.output := by
  cases hb : m.isDone with
  | true => exact ⟨m, Machine.step_of_done hb, hb, rfl, rfl⟩
  | false =>
    have hl : m.program[m.pc]? = none := by
      cases hf : m.program[m.pc]? with
      | none => rfl
      | some ins =>
        obtain ⟨-, hcons, -⟩ := h.current hb hf
        rw [hrest] at hcons
        cases hcons
    exact ⟨_, (Machine.Stepped.halt hb hl).step_eq, rfl, rfl, rfl⟩

/-- A run without a limit stops as the reference machine does. -/
theorem run_stops_iff (p : Program) (b : Bank) (tracing : Bool) (bank : Bank)
    (output : List String) :
    (∃ fuel m, (Machine.start p b none tracing).run fuel = (m, .stopped) ∧ m.bank = bank ∧
        m.output.toList = output) ↔
      ∃ c, StopsAt p b c ∧ c.bank = bank ∧ c.output = output := by
  have hrel := (related_start p b none tracing).after
  constructor
  · rintro ⟨fuel, m, hrun, rfl, rfl⟩
    obtain ⟨-, k, m1, hk, hd, rfl⟩ | ⟨f, k, hf, -⟩ | hu := Machine.after_of_run rfl hrun
    · obtain ⟨h1, h2⟩ := hrel k
      rw [hk] at h1 h2
      refine ⟨_, ⟨k, Prod.ext rfl h2.symm, h1.done hd⟩, ?_, ?_⟩
      · rw [Machine.trace_bank]; exact h1.bank.symm
      · rw [Machine.trace_output]; exact h1.output.symm
    · cases hf
    · cases hu
  · rintro ⟨c, ⟨k, hk, hrest⟩, rfl, rfl⟩
    obtain ⟨h1, h2⟩ := hrel k
    rw [hk] at h1 h2
    obtain ⟨m', hs, hd, hbank, hout⟩ := h1.halts hrest
    have hstop : (Machine.start p b none tracing).after k =
        (((Machine.start p b none tracing).after k).1, none) := Prod.ext rfl h2
    have hafter := Machine.after_succ hstop
    rw [hs] at hafter
    refine ⟨_, _, Machine.run_of_after_done rfl hafter hd, ?_, ?_⟩
    · rw [Machine.trace_bank, hbank, h1.bank]
    · rw [Machine.trace_output, hout, h1.output]

end Suffix

/-- **The machine with an instruction pointer refines the machine without one.** After any number
of steps both hold the same registers, have printed the same lines and have met the same fault, if
any; what remains is the program from the pointer on, or nothing after a jump out of the program.
So a run without a limit stops if and only if the reference machine does, with the same registers
and lines. -/
theorem machine_refines_suffix (p : Program) (b : Bank) (tracing : Bool) :
    (∀ (limit : Option Int) (k : Nat),
      let m := (Machine.start p b limit tracing).after k
      let c := Suffix.after p.toList k (Suffix.start p b)
      m.1.bank = c.1.bank ∧ m.1.output.toList = c.1.output ∧ m.2 = c.2 ∧
        (m.1.status = .running ∨ m.1.status = .halted → c.1.rest = p.toList.drop m.1.pc) ∧
        (m.1.status = .jumpedOut → c.1.rest = [])) ∧
      ∀ bank output,
        (∃ fuel m, (Machine.start p b none tracing).run fuel = (m, .stopped) ∧ m.bank = bank ∧
            m.output.toList = output) ↔
          ∃ c, Suffix.StopsAt p b c ∧ c.bank = bank ∧ c.output = output := by
  refine ⟨?_, Suffix.run_stops_iff p b tracing⟩
  intro limit k
  obtain ⟨h, hfault⟩ := (Suffix.related_start p b limit tracing).after k
  refine ⟨h.bank, h.output, hfault, ?_, ?_⟩
  · intro hs
    refine h.rest ?_
    rintro hj
    rw [hj] at hs
    rcases hs with hs | hs <;> cases hs
  · intro hj
    refine h.done ?_
    simp [Machine.isDone, hj]

end RegisterMachine
