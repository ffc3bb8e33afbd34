import RegisterMachine.Log

/-!
# The machine

A machine holds a program, a bank, the index of the next instruction and what it has printed.

* `Instruction.effect`: what an instruction does, given the bank, or why it cannot be executed.
  It depends on the kinds of the operands alone whether it can.
* `Fault.atLimit`: the fault of a machine that has taken as many steps as it may. It shows the
  limit, if that is short enough to be written out.
* `Machine.step`: one instruction; a fault leaves everything but the count of steps as it was.
* `Machine.run`: steps until the machine stops, fails, or exceeds its limit. The first argument
  bounds the number of steps; `Machine.runWith` takes that bound from the limit if there is one.

A jump is absolute. Its target may be the end of the program, which halts the machine; a target
outside the program stops it where it is, with a status of its own and a warning.
-/

set_option autoImplicit false

namespace RegisterMachine

/-! ## Arithmetic and truth -/

/-- A register value is true unless it is zero. -/
def truth (x : Float) : Bool := x != 0.0

/-- A truth value in a register. -/
def ofTruth (b : Bool) : Float := if b then 1.0 else 0.0

/-- The quotient. Over a zero it is infinite with the two signs combined, or no number if there is
nothing to divide. -/
def divide (a b : Float) : Float :=
  if b != 0.0 then a / b
  else if a.isNaN || a == 0.0 then Number.notANumber
  else Number.ofPattern (Number.isNegative a != Number.isNegative b) Number.infinity

/-! ## Faults -/

/-- Why an instruction cannot be executed. -/
inductive Refusal where
  /-- An operand of this kind has no value. -/
  | unreadable (k : Kind)
  /-- An operand of this kind cannot be written to. -/
  | unwritable (k : Kind)
  /-- An operand of this kind is no jump target. -/
  | notTarget (k : Kind)
  /-- The opcode is no operator. -/
  | unknownOperator (name : List Char)
  deriving DecidableEq, Repr

/-- The wording of a refusal. -/
def Refusal.message : Refusal → String
  | .unreadable k => "cannot read a value from " ++ k.name ++ " operand"
  | .unwritable k => "cannot write to " ++ k.name ++ " operand"
  | .notTarget k => "jump target must be an index, got " ++ k.name
  | .unknownOperator name => "unknown op: " ++ String.ofList name

/-- Why a run fails. -/
inductive Fault where
  /-- The instruction at an index cannot be executed. -/
  | refused (r : Refusal) (pc : Nat)
  /-- The machine has taken as many steps as it may and is not done. -/
  | limitExceeded (limit : Int) (pc : Nat)
  /-- The same under a limit with too many digits to be shown, so that this cannot be said. -/
  | limitUnworded
  deriving DecidableEq, Repr

/-- The fault of a machine that has taken as many steps as it may. -/
def Fault.atLimit (limit : Int) (pc : Nat) : Fault :=
  if Number.hasText limit then .limitExceeded limit pc else .limitUnworded

theorem Fault.atLimit_of_hasText {limit : Int} (h : Number.hasText limit = true) (pc : Nat) :
    atLimit limit pc = .limitExceeded limit pc := if_pos h

theorem Fault.atLimit_of_not_hasText {limit : Int} (h : Number.hasText limit = false) (pc : Nat) :
    atLimit limit pc = .limitUnworded := if_neg (by simp [h])

theorem Fault.refused_ne_atLimit (r : Refusal) (pc : Nat) (limit : Int) (pc' : Nat) :
    refused r pc ≠ atLimit limit pc' := by
  unfold atLimit
  split <;> simp

/-! ## The effect of an instruction -/

/-- What an instruction does. -/
inductive Effect where
  /-- Nothing; the next instruction follows. -/
  | proceed
  /-- Writes a register; the next instruction follows. -/
  | store (r : Register) (x : Float)
  /-- Prints a value; the next instruction follows. -/
  | print (x : Float)
  /-- Goes on at an index. -/
  | jump (target : Int)

namespace Operand

/-- The value of an operand. -/
def value (b : Bank) : Operand → Except Refusal Float
  | .register r => .ok (b.read r)
  | .number x => .ok x
  | o => .error (.unreadable o.kind)

/-- The register that an operand lets be written. -/
def place : Operand → Except Refusal Register
  | .register r => .ok r
  | o => .error (.unwritable o.kind)

/-- The index that an operand lets be jumped to. -/
def target : Operand → Except Refusal Int
  | .index n => .ok n
  | o => .error (.notTarget o.kind)

end Operand

namespace Instruction

/-- Writes to the destination what `f` makes of its value and the value of the source. -/
def combine (b : Bank) (src dst : Operand) (f : Float → Float → Float) : Except Refusal Effect := do
  let s ← src.value b
  let d ← dst.value b
  let r ← dst.place
  return .store r (f d s)

/-- What an instruction with a known operator does. A conditional jump looks at its target before
its condition; all else reads the source, then the destination, then writes. -/
def effectOf (b : Bank) (op : Operator) (src dst : Operand) : Except Refusal Effect :=
  match op with
  | .jmp => do
    let t ← (if src.kind = .index then src else dst).target
    return .jump t
  | .jmt => do
    let t ← dst.target
    let x ← src.value b
    return if truth x then .jump t else .proceed
  | .jmf => do
    let t ← dst.target
    let x ← src.value b
    return if truth x then .proceed else .jump t
  | .not => do
    let x ← src.value b
    let r ← dst.place
    return .store r (ofTruth (!truth x))
  | .mov => do
    let x ← src.value b
    let r ← dst.place
    return .store r x
  | .prn => do
    let x ← src.value b
    return .print x
  | .nop => return .proceed
  | .add => combine b src dst fun d s => d + s
  | .sub => combine b src dst fun d s => d - s
  | .mul => combine b src dst fun d s => d * s
  | .div => combine b src dst divide
  | .less => combine b src dst fun d s => ofTruth (d < s)
  | .equal => combine b src dst fun d s => ofTruth (d == s)
  | .and => combine b src dst fun d s => ofTruth (truth s && truth d)
  | .or => combine b src dst fun d s => ofTruth (truth s || truth d)

/-- What an instruction does, given the bank. -/
def effect (b : Bank) (ins : Instruction) : Except Refusal Effect :=
  match ins.op with
  | .known op => effectOf b op ins.src ins.dst
  | .unknown name => .error (.unknownOperator name)

end Instruction

/-! ## Machines -/

/-- A machine at work. -/
structure Machine where
  program : Program
  bank : Bank := Bank.zero
  /-- The index of the next instruction. -/
  pc : Nat := 0
  /-- How many instructions were fetched. -/
  steps : Nat := 0
  status : Status := .running
  /-- How many steps a run may reach, if that is bounded. -/
  limit : Option Int := none
  /-- Whether executed instructions and ended runs are put on record. -/
  tracing : Bool := false
  /-- The lines printed. -/
  output : Array String := #[]
  /-- What was put on record. -/
  log : Array LogEntry := #[]

namespace Machine

/-- Whether a machine has stopped for good. -/
def isDone (m : Machine) : Bool := m.status != .running

/-- The machine with an entry on record. -/
def record (m : Machine) (e : LogEntry) : Machine := { m with log := m.log.push e }

/-- The machine with an entry on record if it is traced. -/
def trace (m : Machine) (e : LogEntry) : Machine := if m.tracing then m.record e else m

/-- The machine at the next instruction. -/
def advance (m : Machine) : Machine := { m with pc := m.pc + 1 }

/-- The machine after a jump: at the target, or stopped if that is outside the program. -/
def jump (m : Machine) (target : Int) : Machine :=
  if target < 0 ∨ (m.program.size : Int) < target then
    { m.record (.jumpedOut m.pc target m.program.size) with status := .jumpedOut }
  else { m with pc := target.toNat }

/-- The machine after an effect. -/
def apply (m : Machine) : Effect → Machine
  | .proceed => m.advance
  | .store r x => { m with bank := m.bank.write r x }.advance
  | .print x => { m with output := m.output.push (String.ofList (Number.text x)) }.advance
  | .jump target => m.jump target

/-- The machine with the instruction at its index fetched: traced and counted. -/
def fetch (m : Machine) (ins : Instruction) : Machine :=
  { m.trace (.executing m.pc ins) with steps := m.steps + 1 }

/-- One instruction. Past the last one the machine halts; one that is done stays as it is. -/
def step (m : Machine) : Machine × Option Fault :=
  if m.isDone then (m, none)
  else
    match m.program[m.pc]? with
    | none => ({ m with status := .halted }, none)
    | some ins =>
      match ins.effect m.bank with
      | .error r => (m.fetch ins, some (.refused r m.pc))
      | .ok e => ((m.fetch ins).apply e, none)

/-- The limit that forbids a further instruction, if there is one. -/
def exceeded? (m : Machine) : Option Int :=
  m.limit.filter fun n => n ≤ (m.steps : Int) && m.pc < m.program.size

/-- How a run ends. -/
inductive Ending where
  /-- The machine is done. -/
  | stopped
  /-- A fault came up. -/
  | failed (f : Fault)
  /-- The bound on the steps was too small to tell. -/
  | unfinished
  deriving DecidableEq, Repr

/-- Steps until the machine is done, a fault comes up or the limit forbids the next instruction,
`fuel` of them at most. Every run to the end of which nothing goes wrong is put on record. -/
def run : Nat → Machine → Machine × Ending
  | 0, m => (m, .unfinished)
  | fuel + 1, m =>
    if m.isDone then (m.trace (.stopped m.status m.steps), .stopped)
    else
      match m.exceeded? with
      | some n => (m, .failed (.atLimit n m.pc))
      | none =>
        match m.step with
        | (m, none) => run fuel m
        | (m, some f) => (m, .failed f)

/-- Enough fuel for a machine with a limit: the steps it may still take, one to halt, and one to
see that it has. -/
def fuelFor (m : Machine) (limit : Int) : Nat := (limit - (m.steps : Int)).toNat + 2

/-- A run that needs no fuel if the machine has a limit. -/
def runWith (fuel : Nat) (m : Machine) : Machine × Ending :=
  match m.limit with
  | some limit => run (m.fuelFor limit) m
  | none => run fuel m

end Machine

end RegisterMachine
