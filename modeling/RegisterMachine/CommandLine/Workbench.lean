import RegisterMachine.CommandLine.Path
import RegisterMachine.CommandLine.Report
import RegisterMachine.Heron

/-!
# Programs from the command line

The command lists a built-in program, or assembles a file and runs it.

* `Workbench.Command`: what the command line asks for.
* `Workbench.runFile`: reading, decoding, assembling, setting registers and running, in this order;
  the first part that fails ends the command.
* `Workbench.main`: the command. The fuel bounds a run that has no limit.
-/

set_option autoImplicit false

namespace RegisterMachine.CommandLine.Workbench

/-- The settings for a run. -/
structure RunSettings where
  input : Word := []
  /-- Register assignments, in the order given. -/
  assignments : List Word := []
  limit : Option Int := none
  /-- Whether the registers are shown at the end. -/
  showRegisters : Bool := false

/-- The built-in programs by name. -/
def builtIns : List (String × Program) := [("heron", Heron.program)]

/-- What the command line asks for. -/
inductive Command where
  /-- The listing of a built-in program. -/
  | list (program : Program)
  /-- A run of a file. -/
  | run (s : RunSettings)

/-- The switches for a listing. -/
def listGrammar : Grammar Program where
  program := "regvm_tool list"
  switches := [helpSwitch, ⟨["--program"], .value fun w _ => choice builtIns w⟩]
  slot := none

/-- The switches and the operand for a run. -/
def runGrammar : Grammar RunSettings where
  program := "regvm_tool run"
  switches :=
    [helpSwitch,
     ⟨["--set"], .value fun w s => return { s with assignments := s.assignments ++ [w] }⟩,
     ⟨["--max-steps"], .value fun w s => do return { s with limit := some (← intValue w) }⟩,
     ⟨["--regs"], .flag fun s => { s with showRegisters := true }⟩]
  slot := some ⟨"input", false, fun ws s => return { s with input := ws.head?.getD [] }⟩

/-- What was asked for, once it is known, and what its own command line leaves over. -/
abbrev Request := Option Command × List Word

/-- The name of a command and all that follows it. -/
def readCommand (ws : List Word) : Except Complaint Request :=
  let rest := ws.drop 1
  match choice [("list", false), ("run", true)] (ws.head?.getD []) with
  | .error message => .error (.usage "regvm_tool" ("argument cmd: " ++ message))
  | .ok false => do
    let (program, leftOver) ← listGrammar.read Heron.program rest
    return (some (.list program), leftOver)
  | .ok true => do
    let (s, leftOver) ← runGrammar.read {} rest
    return (some (.run s), leftOver)

/-- The command line: a command that takes all that follows. -/
def grammar : Grammar Request where
  program := "regvm_tool"
  switches := [helpSwitch]
  slot := some ⟨"cmd", true, fun ws _ => readCommand ws⟩

/-- The command that a command line asks for; what the two grammars leave over is refused
together. -/
def readRequest (args : List Word) : Except Complaint (Option Command) := do
  let ((command, inner), outer) ← grammar.read (none, []) args
  let leftOver := outer ++ inner
  if leftOver.isEmpty then return command
  else
    grammar.refuse ("unrecognized arguments: "
      ++ String.intercalate " " (leftOver.map fun w => String.ofList w))

/-- The registers, the number of steps and the status of a machine, a line each. -/
def registerLines (m : Machine) : List String :=
  (m.bank.toList.map fun e =>
    String.ofList (e.1.name ++ '=' :: Number.text e.2))
    ++ ["steps=" ++ toString m.steps, "status=" ++ m.status.name]

/-- Runs a program on a bank, printing what it prints. -/
def runProgram (fuel : Nat) (s : RunSettings) (program : Program) (bank : Bank) : Report :=
  let m : Machine := { program := program, bank := bank, limit := s.limit }
  let (m, ending) := m.runWith fuel
  let r : Report := { out := m.output.toList, err := m.log.toList.map LogEntry.message }
  match ending with
  | .stopped => if s.showRegisters then r.print (registerLines m) else r
  | .failed f => r.fail (.fault f)
  | .unfinished => r.finish .unfinished

/-- Assembles a text and runs it. -/
def runText (fuel : Nat) (s : RunSettings) (text : List Char) : Report :=
  match Program.assemble text with
  | .error e => Report.fail {} e.toError
  | .ok program =>
    match Bank.parse s.assignments with
    | .error e => Report.fail {} (.assignment e)
    | .ok bank => runProgram fuel s program bank

/-- What stands under a path. -/
inductive Found where
  | bytes (bs : List UInt8)
  | missing
  | directory
  /-- A part of the path that should be a directory is none. -/
  | notDirectory

/-- The text of a file, given what stands under its path. -/
def readText (path : Word) (found : Found) : Except Error (List Char) :=
  if path.contains '\x00' then .error (.file .nullInPath)
  else
    let shown := Path.normal path
    match found with
    | .missing => .error (.file (.missing shown))
    | .directory => .error (.file (.directory shown))
    | .notDirectory => .error (.file (.notDirectory shown))
    | .bytes bs => (Text.Utf8.decode bs).mapError .encoding

/-- Reads a file, assembles it and runs it. -/
def runFile (fuel : Nat) (s : RunSettings) (found : Found) : Report :=
  match readText s.input found with
  | .error e => Report.fail {} e
  | .ok text => runText fuel s text

/-- The path of the file that the command reads for its arguments, if it reads one. -/
def fileToRead? (args : List Word) : Option (List Char) :=
  match readRequest args with
  | .ok (some (.run s)) => some (Path.normal s.input)
  | _ => none

/-- The command on its arguments; `found` tells what stands under the path of `fileToRead?`. -/
def main (fuel : Nat) (args : List Word) (found : Found) : Report :=
  match readRequest args with
  | .error c => .ofComplaint c
  | .ok none => {}
  | .ok (some (.list program)) => { out := program.listing.map fun cs => String.ofList cs }
  | .ok (some (.run s)) => runFile fuel s found

end RegisterMachine.CommandLine.Workbench
