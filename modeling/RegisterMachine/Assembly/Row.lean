import RegisterMachine.Number.Layout
import RegisterMachine.Text.Split
import RegisterMachine.Text.Upper

/-!
# Rows of an assembly text

A text is read line by line. What follows a semicolon is a comment. A line that ends in a colon
defines a label, any other line that is not blank is an instruction of one to three words.

* `Statement.ofLine`: what one line says, nothing if it is blank.
* `Row.parse`: the statements of a text with their line numbers, or the first line that is wrong.
* `SyntaxError`: what is wrong with a text and where.
-/

set_option autoImplicit false

namespace RegisterMachine

open Text

/-- What can be wrong with an assembly text. -/
inductive SyntaxCause where
  /-- A line ends in a colon that no single word precedes. -/
  | invalidLabel (line : List Char)
  /-- A line has no words or more than three. -/
  | invalidLine (line : List Char)
  /-- A label is defined a second time. -/
  | duplicateLabel (name : List Char)
  /-- No operator has this name. -/
  | unknownOperator (name : List Char)
  /-- A target names no label. -/
  | unknownLabel (name : List Char)
  /-- A word is no operand. -/
  | badOperand (word : List Char)
  /-- A jump has no index among its operands. -/
  | missingTarget (name : List Char)
  deriving DecidableEq, Repr

/-- The wording of a cause. -/
def SyntaxCause.message : SyntaxCause → String
  | .invalidLabel line => "invalid label: " ++ String.ofList line
  | .invalidLine line => "invalid asm line: " ++ String.ofList line
  | .duplicateLabel name => "duplicate label: " ++ String.ofList name
  | .unknownOperator name => "unknown operator: " ++ String.ofList name
  | .unknownLabel name => "unknown label: " ++ String.ofList name
  | .badOperand word => "bad operand: " ++ String.ofList word
  | .missingTarget name => String.ofList name ++ " needs a jump target"

/-- What is wrong with a text, and in which line, counted from one. -/
structure SyntaxError where
  cause : SyntaxCause
  line : Nat
  deriving DecidableEq, Repr

/-- What a line says. -/
inductive Statement where
  /-- The next instruction has this label. -/
  | label (name : List Char)
  /-- An instruction: the operator's name in upper case and the words of its operands. -/
  | instruction (op : List Char) (operands : List (List Char))
  deriving DecidableEq, Repr

namespace Statement

/-- The part of a line before its comment, without blanks at the ends. -/
def code (line : List Char) : List Char := trim isBlank (line.takeWhile (· != ';'))

/-- What a line says, nothing if it holds no code. -/
def ofLine (line : List Char) : Except SyntaxCause (Option Statement) :=
  let cs := code line
  if cs.isEmpty then .ok none
  else if cs.getLast? == some ':' then
    let name := trim isBlank cs.dropLast
    if (words isBlank name).length = 1 then .ok (some (.label name)) else .error (.invalidLabel line)
  else
    match words isSeparator cs with
    | [] => .error (.invalidLine line)
    | op :: operands =>
      if operands.length ≤ 2 then .ok (some (.instruction (upper op) operands))
      else .error (.invalidLine line)

end Statement

/-- A statement with the number of its line. -/
structure Row where
  line : Nat
  statement : Statement
  deriving DecidableEq, Repr

namespace Row

/-- The rows of lines numbered from `n` on, up to the first line that is wrong. -/
def ofLines (n : Nat) : List (List Char) → Except SyntaxError (List Row)
  | [] => .ok []
  | line :: rest =>
    match Statement.ofLine line with
    | .error cause => .error ⟨cause, n⟩
    | .ok none => ofLines (n + 1) rest
    | .ok (some s) => (ofLines (n + 1) rest).map (⟨n, s⟩ :: ·)

/-- The rows of a text. -/
def parse (text : List Char) : Except SyntaxError (List Row) := ofLines 1 (lines text)

end Row

end RegisterMachine
