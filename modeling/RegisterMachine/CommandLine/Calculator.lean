import RegisterMachine.CommandLine.Report
import RegisterMachine.Heron
import RegisterMachine.Values

/-!
# Square roots from the command line

The command runs Heron's program, either once for each number of its input or once with a report.

* `Calculator.Settings`: what the command line sets.
* `Calculator.demonstrate`: one run and a report on it.
* `Calculator.runValues`: a run for each number, each with a bank of its own.
* `Calculator.main`: the command. The fuel bounds each run that has no limit.
-/

set_option autoImplicit false

namespace RegisterMachine.CommandLine.Calculator

/-- Where the numbers come from. -/
inductive Mode where
  /-- From the input, printing what the program prints. -/
  | stdin
  /-- From a switch, with a report. -/
  | heron
  deriving DecidableEq, Repr

/-- What the command line sets. -/
structure Settings where
  mode : Mode := .stdin
  x : Float := 2.0
  iterations : Int := Heron.defaultIterations
  limit : Option Int := none
  listing : Bool := false
  verbosity : Nat := 0

/-- The switches of the command. -/
def grammar : Grammar Settings where
  program := "regvm"
  switches :=
    [helpSwitch,
     ⟨["--demo"], .value fun w s => do
       return { s with mode := ← choice [("stdin", .stdin), ("heron", .heron)] w }⟩,
     ⟨["--x"], .value fun w s => do return { s with x := ← realValue w }⟩,
     ⟨["--iterations"], .value fun w s => do return { s with iterations := ← intValue w }⟩,
     ⟨["--max-steps"], .value fun w s => do return { s with limit := some (← intValue w) }⟩,
     ⟨["--list"], .flag fun s => { s with listing := true }⟩,
     ⟨["-v", "--verbose"], .flag fun s => { s with verbosity := s.verbosity + 1 }⟩]
  slot := none

namespace Settings

/-- Whether every instruction is put on record. -/
def isDebug (s : Settings) : Bool := 2 ≤ s.verbosity

/-- The lines that building the program puts on record. -/
def buildLog (s : Settings) : List String := logLines s.isDebug Heron.builder.log

/-- A run of the program for a number. -/
def run (fuel : Nat) (s : Settings) (x : Float) : Except ConversionError (Machine × Machine.Ending) := do
  let bank ← Heron.start (.real x) (.int s.iterations)
  return { Heron.machine bank s.limit with tracing := s.isDebug }.runWith fuel

end Settings

/-- The lines of the program's listing. -/
def listing : List String := Heron.program.listing.map fun cs => String.ofList cs

/-- The lines of a report on a run: the number, the result, its distance from the square root if
there is one, and how the run went. -/
def summary (s : Settings) (m : Machine) : List String :=
  let result := m.bank.r6
  let root := s.x.sqrt
  let exact (x : Float) : String := String.ofList (Number.scientificText 16 x)
  let comparison :=
    if s.x ≥ 0.0 then
      ["py=" ++ exact root,
       "abs_err=" ++ String.ofList (Number.scientificText 3 (result - root).abs)]
    else []
  ["demo=heron_sqrt", "x=" ++ exact s.x,
   "iterations=" ++ String.ofList (Number.intText s.iterations), "vm=" ++ exact result]
    ++ comparison
    ++ ["steps=" ++ toString m.steps, "status=" ++ m.status.name,
        "program_len=" ++ toString Heron.program.size]
    ++ if s.listing then listing else []

/-- One run and a report on it. -/
def demonstrate (fuel : Nat) (s : Settings) : Report :=
  let r : Report := { err := s.buildLog }
  match s.run fuel s.x with
  | .error e => r.fail (.conversion e)
  | .ok (m, ending) =>
    let r := r.printErr (logLines s.isDebug m.log)
    match ending with
    | .stopped => r.print (summary s m)
    | .failed f => r.fail (.fault f)
    | .unfinished => r.finish .unfinished

/-- A run for each number, printing what the program prints, up to one that fails. -/
def runNumbers (fuel : Nat) (s : Settings) (r : Report) : List Float → Report × Bool
  | [] => (r, true)
  | x :: xs =>
    match s.run fuel x with
    | .error e => (r.fail (.conversion e), false)
    | .ok (m, ending) =>
      let r := (r.print m.output.toList).printErr (logLines s.isDebug m.log)
      match ending with
      | .stopped => runNumbers fuel s r xs
      | .failed f => (r.fail (.fault f), false)
      | .unfinished => (r.finish .unfinished, false)

/-- A run for each number of the input, up to a word that is none. -/
def runValues (fuel : Nat) (s : Settings) (input : List Char) : Report :=
  let r : Report := if s.listing then { out := listing, err := s.buildLog } else {}
  let values := Values.read input
  match runNumbers fuel s (r.printErr s.buildLog) values.numbers, values.bad with
  | (r, true), some w => r.fail (.notANumber w)
  | (r, _), _ => r

/-- The command on its arguments and its input. -/
def main (fuel : Nat) (args : List Word) (input : List Char) : Report :=
  match grammar.readAll {} args with
  | .error c => .ofComplaint c
  | .ok s =>
    match s.mode with
    | .heron => demonstrate fuel s
    | .stdin => runValues fuel s input

end RegisterMachine.CommandLine.Calculator
