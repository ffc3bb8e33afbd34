import RegisterMachine.Builder
import RegisterMachine.Error
import RegisterMachine.Machine

/-!
# Heron's square root

A program for the machine that approximates a square root. `R1` holds the number, `R2` how many
times the estimate is improved. The estimate `R5` starts at one and becomes half the sum of itself
and `R1 / R5`; the result is left in `R6` and printed once. `R3` counts, `R4` holds the exit test.

* `Heron.builder`: the program built with a reserved slot for the forward jump out of the loop.
* `Heron.program`: the program.
* `Heron.start`: the bank it starts from.
* `Heron.squareRoot`: the result of a run.
-/

set_option autoImplicit false

namespace RegisterMachine.Heron

/-- How often the estimate is improved unless stated. -/
def defaultIterations : Int := 10

/-- An instruction with a known operator. -/
def ins (op : Operator) (src : Operand) (dst : Operand) : Instruction := ⟨.known op, src, dst⟩

/-- The construction up to the slot for the jump out of the loop: the estimate and the counter set,
and the test at the head of the loop. -/
def opening : Builder :=
  Builder.empty
    |>.push (ins .mov (.number 1.0) (.register .r5))
    |>.push (ins .mov (.number 0.0) (.register .r3))
    |>.push (ins .mov (.register .r3) (.register .r4))
    |>.push (ins .equal (.register .r2) (.register .r4))

/-- Where the loop starts: at the copy of the counter. -/
def loopStart : Nat := 2

/-- The body of the loop, which improves the estimate and counts. -/
def body (b : Builder) : Builder :=
  b |>.push (ins .mov (.register .r1) (.register .r6))
    |>.push (ins .div (.register .r5) (.register .r6))
    |>.push (ins .add (.register .r5) (.register .r6))
    |>.push (ins .mul (.number 0.5) (.register .r6))
    |>.push (ins .mov (.register .r6) (.register .r5))
    |>.push (ins .add (.number 1.0) (.register .r3))
    |>.push (ins .jmp (.index loopStart) .absent)

/-- The finished construction: the slot is patched once the end of the loop is known. -/
def builder : Builder :=
  let (slot, b) := opening.reserve
  let b := body b
  (b.replace slot (ins .jmt (.register .r4) (.index b.size))).push (ins .prn (.register .r6) .absent)

/-- The program. -/
def program : Program := builder.finish

/-- The bank for a number and a count, the number converted first. -/
def start (x iterations : Scalar) : Except ConversionError Bank :=
  Bank.ofScalars fun
    | .r1 => x
    | .r2 => iterations
    | _ => .real 0.0

/-- A machine with the program, not started. -/
def machine (bank : Bank) (limit : Option Int) : Machine :=
  { program := program, bank := bank, limit := limit }

/-- What a run of the program gives: the result it leaves, or the fault it fails with. -/
def answer : Machine × Machine.Ending → Except Error (Option Float)
  | (m, .stopped) => .ok (some m.bank.r6)
  | (_, .failed f) => .error (.fault f)
  | (_, .unfinished) => .ok none

/-- The approximation to the square root of a number after a count of improvements. There is none
if `fuel` is too small for a run that no limit ends. -/
def squareRoot (fuel : Nat) (x iterations : Scalar) (limit : Option Int) :
    Except Error (Option Float) := do
  let bank ← (start x iterations).mapError Error.conversion
  answer ((machine bank limit).runWith fuel)

end RegisterMachine.Heron
