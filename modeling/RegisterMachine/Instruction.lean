import RegisterMachine.Register

/-!
# Instructions

* `Operator`: the fifteen operators with their names.
* `Opcode`: an operator, or a name that stands for none and fails when it is executed.
* `Operand`: a register, a number, an index into the program, or nothing.
* `Instruction`: an opcode with a source and a destination.
* `Instruction.text`: an instruction as listings show it; absent operands at its end are left out.
* `Program`: instructions at their indices.
-/

set_option autoImplicit false

namespace RegisterMachine

/-- The operators of the machine. -/
inductive Operator where
  | add
  | sub
  | mul
  | div
  | less
  | equal
  | and
  | or
  | not
  | mov
  | jmt
  | jmf
  | jmp
  | prn
  | nop
  deriving DecidableEq, Repr

namespace Operator

/-- All operators. -/
def all : List Operator :=
  [.add, .sub, .mul, .div, .less, .equal, .and, .or, .not, .mov, .jmt, .jmf, .jmp, .prn, .nop]

/-- The name of an operator. -/
def name : Operator → List Char
  | .add => ['A', 'D', 'D']
  | .sub => ['S', 'U', 'B']
  | .mul => ['M', 'U', 'L']
  | .div => ['D', 'I', 'V']
  | .less => ['L', 'E', 'S', 'S']
  | .equal => ['E', 'Q', 'U', 'A', 'L']
  | .and => ['A', 'N', 'D']
  | .or => ['O', 'R']
  | .not => ['N', 'O', 'T']
  | .mov => ['M', 'O', 'V']
  | .jmt => ['J', 'M', 'T']
  | .jmf => ['J', 'M', 'F']
  | .jmp => ['J', 'M', 'P']
  | .prn => ['P', 'R', 'N']
  | .nop => ['N', 'O', 'P']

/-- The operator of a name. -/
def ofName? (cs : List Char) : Option Operator := all.find? (·.name == cs)

/-- Whether an operator may transfer control. -/
def isJump : Operator → Bool
  | .jmt | .jmf | .jmp => true
  | _ => false

theorem mem_all (op : Operator) : op ∈ all := by cases op <;> decide

@[simp] theorem ofName?_name (op : Operator) : ofName? op.name = some op := by cases op <;> decide

end Operator

/-- What an instruction names as its operation. -/
inductive Opcode where
  | known (op : Operator)
  | unknown (name : List Char)
  deriving DecidableEq, Repr

namespace Opcode

/-- The opcode of a name. -/
def ofName (cs : List Char) : Opcode :=
  match Operator.ofName? cs with
  | some op => .known op
  | none => .unknown cs

/-- The name of an opcode. -/
def name : Opcode → List Char
  | .known op => op.name
  | .unknown cs => cs

end Opcode

/-- The kinds of operands. -/
inductive Kind where
  | register
  | number
  | index
  | absent
  deriving DecidableEq, Repr

/-- A kind as messages name it. -/
def Kind.name : Kind → String
  | .register => "register"
  | .number => "float"
  | .index => "index"
  | .absent => "none"

/-- An operand. -/
inductive Operand where
  /-- The contents of a register. -/
  | register (r : Register)
  /-- A number as it stands. -/
  | number (x : Float)
  /-- An index into the program, the target of a jump. -/
  | index (n : Int)
  /-- Nothing. -/
  | absent
  deriving BEq

namespace Operand

/-- The kind of an operand. -/
def kind : Operand → Kind
  | .register _ => .register
  | .number _ => .number
  | .index _ => .index
  | .absent => .absent

/-- An operand as listings show it. -/
def text : Operand → List Char
  | .register r => r.name
  | .number x => '#' :: Number.text x
  | .index n => '@' :: Number.intText n
  | .absent => ['_']

/-- The number operand of an outside value. -/
def ofReal (s : Scalar) : Except ConversionError Operand := s.toReal.map .number

/-- The index operand of an outside value. -/
def ofInt (s : Scalar) : Except ConversionError Operand := s.toInt.map .index

end Operand

/-- An opcode with its two operands. -/
structure Instruction where
  op : Opcode
  src : Operand := .absent
  dst : Operand := .absent
  deriving BEq

namespace Instruction

/-- The operands as listings show them: up to the last that is not absent. -/
def operandText (ins : Instruction) : List Char :=
  match ins.src, ins.dst with
  | .absent, .absent => []
  | src, .absent => ' ' :: src.text
  | src, dst => ' ' :: src.text ++ ',' :: ' ' :: dst.text

/-- An instruction as listings show it. -/
def text (ins : Instruction) : List Char := ins.op.name ++ ins.operandText

/-- A line of a listing: the index in four digits or more, two blanks, the instruction. -/
def line (index : Int) (ins : Instruction) : List Char :=
  Number.padded 4 index ++ ' ' :: ' ' :: ins.text

end Instruction

/-- Instructions at their indices. -/
abbrev Program := Array Instruction

namespace Program

/-- The listing of a program, one line for each instruction. -/
def listing (p : Program) : List (List Char) :=
  p.toList.zipIdx.map fun e => e.1.line e.2

end Program

end RegisterMachine
