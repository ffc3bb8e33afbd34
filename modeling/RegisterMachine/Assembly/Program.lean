import RegisterMachine.Assembly.Row
import RegisterMachine.Instruction

/-!
# From rows to programs

Labels are collected first, so a label may be used before the line that defines it. Its value is
the number of instructions above that line.

* `Labels.collect`: the labels of the rows, or the first that is defined twice.
* `Labels.resolve`: the operand that a word stands for. In this order a word is nothing (`_`), a
  register, a target (`@` and a whole number or a label), a label, a number.
* `Instruction.assemble`: one instruction; a jump needs an index among its operands.
* `Program.assemble`: the program of a text.
-/

set_option autoImplicit false

namespace RegisterMachine

open Text

/-- The labels of a text with their indices. -/
abbrev Labels := List (List Char × Nat)

/-- Why a text is no program. -/
inductive AssembleError where
  /-- The text is malformed. -/
  | malformed (e : SyntaxError)
  /-- A target looks like a whole number and is none. -/
  | target (e : ConversionError)
  deriving DecidableEq, Repr

/-- Why a word is no operand. -/
inductive WordError where
  | cause (c : SyntaxCause)
  | target (e : ConversionError)
  deriving DecidableEq, Repr

/-- The same with the line of the word. -/
def WordError.inLine (line : Nat) : WordError → AssembleError
  | .cause c => .malformed ⟨c, line⟩
  | .target e => .target e

namespace Labels

/-- The index of a label. -/
def index? (labels : Labels) (name : List Char) : Option Nat := labels.lookup name

/-- The labels of rows that come after `pc` instructions, added to those above. -/
def collectFrom (labels : Labels) (pc : Nat) : List Row → Except SyntaxError Labels
  | [] => .ok labels
  | ⟨line, .label name⟩ :: rows =>
    if (labels.index? name).isSome then .error ⟨.duplicateLabel name, line⟩
    else collectFrom (labels ++ [(name, pc)]) pc rows
  | ⟨_, .instruction ..⟩ :: rows => collectFrom labels (pc + 1) rows

/-- The labels of a text. -/
def collect (rows : List Row) : Except SyntaxError Labels := collectFrom [] 0 rows

/-- Whether a target is meant as a whole number: digits of any kind after any number of dashes. -/
def isNumeric (target : List Char) : Bool :=
  let ds := target.dropWhile (· == '-')
  !ds.isEmpty && ds.all isDigitLike

/-- The index that a target stands for. -/
def resolveTarget (labels : Labels) (target : List Char) : Except WordError Operand :=
  if isNumeric target then
    match Scalar.textToInt target with
    | .ok n => .ok (.index n)
    | .error e => .error (.target e)
  else
    match labels.index? target with
    | some i => .ok (.index i)
    | none => .error (.cause (.unknownLabel target))

/-- The number that a word stands for, a hash sign before it being optional. -/
def resolveNumber (word : List Char) : Except WordError Operand :=
  let literal := if word.head? == some '#' then word.tail else word
  match Number.readReal? literal with
  | some x => .ok (.number x)
  | none => .error (.cause (.badOperand word))

/-- The operand that a word stands for. -/
def resolve (labels : Labels) (word : List Char) : Except WordError Operand :=
  if word = ['_'] then .ok .absent
  else
    match Register.ofName? (upper word) with
    | some r => .ok (.register r)
    | none =>
      if word.head? == some '@' then labels.resolveTarget word.tail
      else
        match labels.index? word with
        | some i => .ok (.index i)
        | none => resolveNumber word

end Labels

/-- The instruction of an operator's name and the words of its operands. -/
def Instruction.assemble (labels : Labels) (op : List Char) (words : List (List Char)) :
    Except WordError Instruction :=
  match Operator.ofName? op with
  | none => .error (.cause (.unknownOperator op))
  | some operator => do
    let operands ← words.mapM labels.resolve
    let src := operands[0]?.getD .absent
    let dst := operands[1]?.getD .absent
    if operator.isJump ∧ src.kind ≠ .index ∧ dst.kind ≠ .index then
      throw (.cause (.missingTarget op))
    return ⟨.known operator, src, dst⟩

namespace Program

/-- The instructions of rows, in order, up to the first that is wrong. -/
def ofRows (labels : Labels) : List Row → Except AssembleError (List Instruction)
  | [] => .ok []
  | ⟨_, .label _⟩ :: rows => ofRows labels rows
  | ⟨line, .instruction op words⟩ :: rows =>
    match Instruction.assemble labels op words with
    | .error e => .error (e.inLine line)
    | .ok ins => (ofRows labels rows).map (ins :: ·)

/-- The program of a text. -/
def assemble (text : List Char) : Except AssembleError Program := do
  let rows ← (Row.parse text).mapError .malformed
  let labels ← (Labels.collect rows).mapError .malformed
  let code ← ofRows labels rows
  return code.toArray

end Program

end RegisterMachine
