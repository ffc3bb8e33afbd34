import RegisterMachine.Instruction

/-!
# The log

* `Status`: whether a machine runs, has halted or has jumped out of its program.
* `LogEntry`: what the machine and the builder put on record.
* `LogEntry.line`: an entry with its level and its source; `LogEntry.message` without them.
-/

set_option autoImplicit false

namespace RegisterMachine

/-- How far a machine has come. -/
inductive Status where
  /-- It can go on. -/
  | running
  /-- It went past the last instruction. -/
  | halted
  /-- It took a jump to an index outside the program. -/
  | jumpedOut
  deriving DecidableEq, Repr

/-- A status as reports name it. -/
def Status.name : Status → String
  | .running => "running"
  | .halted => "halted"
  | .jumpedOut => "jump_out_of_range"

/-- How urgent an entry is. -/
inductive Level where
  | debug
  | warning
  deriving DecidableEq, Repr

/-- A level as log lines name it. -/
def Level.name : Level → String
  | .debug => "DEBUG"
  | .warning => "WARNING"

/-- What is put on record. -/
inductive LogEntry where
  /-- An instruction is about to be executed. -/
  | executing (pc : Nat) (ins : Instruction)
  /-- A jump was taken to an index outside the program. -/
  | jumpedOut (pc : Nat) (target : Int) (length : Nat)
  /-- A run came to its end. -/
  | stopped (status : Status) (steps : Nat)
  /-- An instruction under construction was replaced. -/
  | patched (index : Nat) (old new : Instruction)

namespace LogEntry

/-- The level of an entry. -/
def level : LogEntry → Level
  | .jumpedOut .. => .warning
  | _ => .debug

/-- The part of the system an entry comes from. -/
def source : LogEntry → String
  | .patched .. => "regvm.assembler"
  | _ => "regvm.core"

/-- The wording of an entry. -/
def message : LogEntry → String
  | .executing pc ins => "exec " ++ String.ofList (ins.line pc)
  | .jumpedOut pc target length =>
    "jump from " ++ String.ofList (Number.padded 4 pc) ++ " to "
      ++ String.ofList (Number.intText target) ++ " outside program of length " ++ toString length
  | .stopped status steps => "stopped: status=" ++ status.name ++ " steps=" ++ toString steps
  | .patched index old new =>
    "patch " ++ String.ofList (Number.padded 4 index) ++ ": " ++ String.ofList old.text ++ " -> "
      ++ String.ofList new.text

/-- An entry with its level and its source. -/
def line (e : LogEntry) : String := e.level.name ++ " " ++ e.source ++ ": " ++ e.message

end LogEntry

/-- The lines of the entries that are shown: all with `debug`, the warnings without. -/
def logLines (debug : Bool) (entries : Array LogEntry) : List String :=
  (entries.toList.filter fun e => debug || e.level == .warning).map LogEntry.line

end RegisterMachine
