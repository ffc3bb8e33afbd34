import RegisterMachine.CommandLine.Arguments
import RegisterMachine.Error

/-!
# What a command line answers

* `Report`: the lines for the two output channels and how the command ends.
* `Report.fail`: an error at the end of a report; one that is reported gives a line and the exit
  code 1, any other ends the command.
* `realValue`, `intValue`, `choice`: the values of switches, with the wording of their refusal.
-/

set_option autoImplicit false

namespace RegisterMachine.CommandLine

/-- How a command ends. -/
inductive Outcome where
  | exit (code : Nat)
  /-- An error that is not reported ends the command. -/
  | crashed (e : Error)
  /-- The command line is refused by the program named. -/
  | refused (program message : String)
  /-- Help was asked for. -/
  | helped
  /-- The bound on the steps of a run was too small to tell. -/
  | unfinished

/-- Lines for standard output and standard error, and how the command ends. -/
structure Report where
  out : List String := []
  err : List String := []
  outcome : Outcome := .exit 0

namespace Report

/-- A report with further lines of output. -/
def print (r : Report) (ls : List String) : Report := { r with out := r.out ++ ls }

/-- A report with further lines of errors. -/
def printErr (r : Report) (ls : List String) : Report := { r with err := r.err ++ ls }

/-- A report that ends as stated. -/
def finish (r : Report) (o : Outcome) : Report := { r with outcome := o }

/-- A report that ends with an error. -/
def fail (r : Report) (e : Error) : Report :=
  if e.isReported then (r.printErr ["error: " ++ e.message]).finish (.exit 1)
  else r.finish (.crashed e)

/-- The report on a command line that is not read to its end. -/
def ofComplaint : Complaint → Report
  | .usage program message => { outcome := .refused program message }
  | .noValue => { outcome := .crashed .noValue }
  | .help => { outcome := .helped }

end Report

/-- The real number of a value. -/
def realValue (w : Word) : Except String Float :=
  match Number.readReal? w with
  | some x => .ok x
  | none => .error ("invalid float value: " ++ String.ofList (Text.quoted w))

/-- The whole number of a value. -/
def intValue (w : Word) : Except String Int :=
  match Number.readInt w with
  | .ok n => .ok n
  | .error _ => .error ("invalid int value: " ++ String.ofList (Text.quoted w))

/-- The one of several names that a value is. -/
def choice {α : Type} (names : List (String × α)) (w : Word) : Except String α :=
  match names.find? fun e => e.1.toList == w with
  | some e => .ok e.2
  | none =>
    .error ("invalid choice: " ++ String.ofList (Text.quoted w) ++ " (choose from "
      ++ String.intercalate ", " (names.map fun e => String.ofList (Text.quoted e.1.toList)) ++ ")")

end RegisterMachine.CommandLine
