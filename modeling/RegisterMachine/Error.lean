import RegisterMachine.Assembly.Program
import RegisterMachine.Assignment
import RegisterMachine.Builder
import RegisterMachine.Machine
import RegisterMachine.Text.Utf8

/-!
# Errors

`Error` gathers what can go wrong in all parts of the library. `Error.message` words it in full,
with the index of the instruction or the number of the line where one is known.

`Error.isReported` tells the errors that a command line answers with a line of its own from those
that end it.
-/

set_option autoImplicit false

namespace RegisterMachine

/-- A message with the index of the instruction it is about. -/
def messageAt (message : String) : Option Int → String
  | none => message
  | some pc => message ++ " (pc=" ++ String.ofList (Number.padded 4 pc) ++ ")"

/-- A message with the number of the line it is about. -/
def messageInLine (message : String) : Option Int → String
  | none => message
  | some line => "line " ++ String.ofList (Number.intText line) ++ ": " ++ message

/-- Why a file cannot be read. -/
inductive FileError where
  /-- There is none of this name. -/
  | missing (path : List Char)
  /-- The name is that of a directory. -/
  | directory (path : List Char)
  /-- A part of the path that should be a directory is none. -/
  | notDirectory (path : List Char)
  /-- No path holds a null character. -/
  | nullInPath
  deriving DecidableEq, Repr

/-- The wording of a file error. -/
def FileError.message : FileError → String
  | .missing path => "[Errno 2] No such file or directory: " ++ String.ofList (Text.quoted path)
  | .directory path => "[Errno 21] Is a directory: " ++ String.ofList (Text.quoted path)
  | .notDirectory path => "[Errno 20] Not a directory: " ++ String.ofList (Text.quoted path)
  | .nullInPath => "embedded null byte"

/-- What can go wrong. -/
inductive Error where
  | conversion (e : ConversionError)
  | build (e : BuildError)
  | malformed (e : SyntaxError)
  | fault (f : Fault)
  | assignment (e : AssignmentError)
  /-- A word among numbers is none. -/
  | notANumber (word : List Char)
  | file (e : FileError)
  | encoding (f : Text.Utf8.Fault)
  /-- An option was given the mark that ends options as its value. -/
  | noValue

/-- An assembly error among all errors. -/
def AssembleError.toError : AssembleError → Error
  | .malformed e => .malformed e
  | .target e => .conversion e

/-- The wording of a fault; an unknown operator is reported without its index. -/
def Fault.message : Fault → String
  | .refused (.unknownOperator name) _ => (Refusal.unknownOperator name).message
  | .refused r pc => messageAt r.message (some pc)
  | .limitExceeded limit pc =>
    messageAt ("program did not halt within " ++ String.ofList (Number.intText limit) ++ " steps")
      (some pc)
  | .limitUnworded => TextError.tooManyDigits.message

/-- The wording of an error. -/
def Error.message : Error → String
  | .conversion e => e.message
  | .build e => e.message
  | .malformed e => messageInLine e.cause.message (some e.line)
  | .fault f => f.message
  | .assignment e => e.message
  | .notANumber word => "not a number: " ++ String.ofList (Text.quoted word)
  | .file e => e.message
  | .encoding f => f.message
  | .noValue => "not enough values to unpack (expected 1, got 0)"

/-- Whether a command line answers an error with a line of its own. -/
def Error.isReported : Error → Bool
  | .build (.unworded _) => false
  | .build _ | .malformed _ | .assignment _ | .notANumber _ => true
  | .fault (.refused (.unknownOperator _) _) | .fault .limitUnworded => false
  | .fault _ => true
  | .conversion _ | .file _ | .encoding _ | .noValue => false

end RegisterMachine
