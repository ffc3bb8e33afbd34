import RegisterMachine.Log

/-!
# Building programs

A `Builder` holds the instructions so far. Indices are stable: `reserve` appends a placeholder that
`patch` replaces once the target of a forward jump is known.

* `Argument`: what may be handed over as an operand, usable or not.
* `Builder.emit`, `Builder.reserve`, `Builder.patch`, `Builder.finish`: the construction.
* `BuildError`: an index outside the program, found before the operands are looked at, or an
  argument that is no operand. The message shows the one or the other; where that has no text, the
  complaint itself fails.
-/

set_option autoImplicit false

namespace RegisterMachine

/-- What a caller hands over as an operand. -/
inductive Argument where
  | operand (o : Operand)
  | register (r : Register)
  | scalar (s : Scalar)
  | operator (op : Operator)
  /-- Anything else, by what it answers when it is asked for its text. -/
  | foreign (shown : Except TextError (List Char))

namespace Argument

/-- The operand that an argument stands for: itself, a register's contents, or nothing for an
absent value. -/
def toOperand? : Argument → Option Operand
  | .operand o => some o
  | .register r => some (.register r)
  | .scalar .absent => some .absent
  | .scalar _ => none
  | .operator _ => none
  | .foreign _ => none

/-- An argument as a message shows it. -/
def shown : Argument → Except TextError (List Char)
  | .operand o => .ok o.text
  | .register r => .ok r.name
  | .scalar s => s.shown
  | .operator op => .ok ("<Operator.".toList ++ op.name ++ ": '".toList ++ op.name ++ "'>".toList)
  | .foreign shown => shown

end Argument

/-- Why an instruction cannot be built. -/
inductive BuildError where
  /-- An argument is no operand; this is its text. -/
  | unusable (shown : List Char)
  /-- There is no instruction to replace at an index. -/
  | badIndex (index : Int) (length : Nat)
  /-- What is wrong cannot be said, since what should be shown has no text. -/
  | unworded (e : TextError)

namespace BuildError

/-- The wording of a build error. -/
def message : BuildError → String
  | .unusable shown => "cannot use " ++ String.ofList shown ++ " as an operand"
  | .badIndex index length =>
    "patch index " ++ String.ofList (Number.intText index) ++ " outside program of length "
      ++ toString length
  | .unworded e => e.message

/-- The complaint about an argument that is no operand. -/
def ofArgument (a : Argument) : BuildError :=
  match a.shown with
  | .ok shown => .unusable shown
  | .error e => .unworded e

/-- The complaint about an index outside a program. -/
def ofIndex (index : Int) (length : Nat) : BuildError :=
  if Number.hasText index then .badIndex index length else .unworded .tooManyDigits

end BuildError

namespace Argument

/-- The operand that an argument stands for, or a complaint about it. -/
def toOperand (a : Argument) : Except BuildError Operand :=
  match a.toOperand? with
  | some o => .ok o
  | none => .error (.ofArgument a)

end Argument

/-- An instruction from arguments, the source looked at first. -/
def Instruction.ofArguments (op : Opcode) (src dst : Argument) : Except BuildError Instruction := do
  let s ← src.toOperand
  let d ← dst.toOperand
  return ⟨op, s, d⟩

/-- A program under construction and the replacements made in it. -/
structure Builder where
  code : Array Instruction := #[]
  log : Array LogEntry := #[]

namespace Builder

/-- Nothing built yet. -/
def empty : Builder := {}

/-- The number of instructions so far, which is the index of the next. -/
def size (b : Builder) : Nat := b.code.size

/-- The builder with an instruction appended. -/
def push (b : Builder) (ins : Instruction) : Builder := { b with code := b.code.push ins }

/-- The builder with the instruction at an index replaced, and that put on record. Nothing happens
outside the program. -/
def replace (b : Builder) (index : Nat) (ins : Instruction) : Builder :=
  match b.code[index]? with
  | none => b
  | some old =>
    { code := b.code.setIfInBounds index ins, log := b.log.push (.patched index old ins) }

/-- Appends an instruction made of arguments. -/
def emit (b : Builder) (op : Opcode) (src dst : Argument) : Except BuildError Builder := do
  return b.push (← Instruction.ofArguments op src dst)

/-- What stands in a reserved slot. -/
def placeholder : Instruction := { op := .known .nop }

/-- Appends a placeholder; its index comes first. -/
def reserve (b : Builder) : Nat × Builder := (b.size, b.push placeholder)

/-- Replaces the instruction at an index by one made of arguments. The index is checked first. -/
def patch (b : Builder) (index : Int) (op : Opcode) (src dst : Argument) :
    Except BuildError Builder := do
  if index < 0 ∨ (b.size : Int) ≤ index then throw (.ofIndex index b.size)
  return b.replace index.toNat (← Instruction.ofArguments op src dst)

/-- The program built so far. -/
def finish (b : Builder) : Program := b.code

end Builder

end RegisterMachine
