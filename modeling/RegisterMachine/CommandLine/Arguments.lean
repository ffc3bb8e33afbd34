import RegisterMachine.Text.Digit
import RegisterMachine.Text.Quoted
import RegisterMachine.Text.Split

/-!
# Reading command lines

A `Grammar` lists the switches of a command line and the one operand it may have; reading folds
what was given into settings of a type `σ`.

* `Grammar.shape`: what an argument is taken for. An argument is an operand unless it starts with a
  dash; then it is still one if it is a lone dash, a negative number or holds a blank. A long switch
  may be shortened as far as it stays the only one; the value of a switch may follow an equals sign,
  that of a short switch its letter.
* `Grammar.read`: the arguments one by one, from left to right. Shapes are settled for all of them
  before the first is used. What fits nowhere is left over and returned.
* `Complaint`: why a command line is refused.

After two dashes on their own everything is an operand.
-/

set_option autoImplicit false

namespace RegisterMachine.CommandLine

open Text

/-- A word of a command line. -/
abbrev Word := List Char

/-- Why reading ends early. -/
inductive Complaint where
  /-- A command line is refused with a message of the program named. -/
  | usage (program message : String)
  /-- The mark that ends options was given as a value. -/
  | noValue
  /-- Help was asked for. -/
  | help
  deriving DecidableEq, Repr

/-- What a switch does to the settings. -/
inductive Action (σ : Type) where
  /-- It stands alone. -/
  | flag (apply : σ → σ)
  /-- It takes a value, which it may refuse with a message. -/
  | value (apply : Word → σ → Except String σ)
  /-- It asks for help. -/
  | help

/-- A switch with its names, each starting with one dash or two. -/
structure Switch (σ : Type) where
  names : List String
  action : Action σ

/-- A switch as messages name it. -/
def Switch.title {σ : Type} (s : Switch σ) : String := String.intercalate "/" s.names

/-- The one operand of a command line. -/
structure Slot (σ : Type) where
  name : String
  /-- Whether the operand takes all that follows it. -/
  takesRest : Bool
  /-- What the operand, with all that follows it if it takes that, does to the settings. -/
  apply : List Word → σ → Except Complaint σ

/-- What a command line may hold. -/
structure Grammar (σ : Type) where
  program : String
  switches : List (Switch σ)
  slot : Option (Slot σ)

/-- The switch that every command line has. -/
def helpSwitch {σ : Type} : Switch σ := ⟨["-h", "--help"], .help⟩

/-- A switch found in an argument: by which name, and the value written in the same argument. -/
structure Found (σ : Type) where
  switch : Switch σ
  name : Word
  value : Option Word

/-- What an argument is taken for. -/
inductive Shape (σ : Type) where
  | operand
  /-- Two dashes on their own. -/
  | divider
  | found (f : Found σ)
  /-- It looks like a switch and is none. -/
  | stray

/-- A dash and digits, or a dash and digits with a point before the last of them; a line feed may
follow. -/
def isNegativeNumber (w : Word) : Bool :=
  match w with
  | '-' :: rest =>
    let body := if rest.getLast? == some '\n' then rest.dropLast else rest
    match body.dropWhile isDecimal with
    | [] => !body.isEmpty
    | '.' :: fraction => !fraction.isEmpty && fraction.all isDecimal
    | _ => false
  | _ => false

namespace Grammar

variable {σ : Type}

/-- A refusal by the program. -/
def refuse {α : Type} (g : Grammar σ) (message : String) : Except Complaint α :=
  .error (.usage g.program message)

/-- A refusal on account of a switch or an operand. -/
def refuseAt {α : Type} (g : Grammar σ) (title message : String) : Except Complaint α :=
  g.refuse ("argument " ++ title ++ ": " ++ message)

/-- All names with their switches, in order. -/
def names (g : Grammar σ) : List (Word × Switch σ) :=
  g.switches.flatMap fun s => s.names.map fun n => (n.toList, s)

/-- The switch of a name. -/
def switch? (g : Grammar σ) (name : Word) : Option (Switch σ) :=
  (g.names.find? fun e => e.1 == name).map (·.2)

/-- The switches that an argument with two dashes may be short for. -/
def longCandidates (g : Grammar σ) (w : Word) : List (Found σ) :=
  let (stem, value) := cutAt '=' w
  (g.names.filter fun e => stem.isPrefixOf e.1).map fun e => ⟨e.2, e.1, value⟩

/-- The switches that an argument with one dash may mean: its first letter with the rest for a
value, or a name it is the beginning of. -/
def shortCandidates (g : Grammar σ) (w : Word) : List (Found σ) :=
  g.names.filterMap fun e =>
    if e.1 == w.take 2 then some ⟨e.2, e.1, some (w.drop 2)⟩
    else if w.isPrefixOf e.1 then some ⟨e.2, e.1, none⟩
    else none

/-- The switches that an argument may mean. -/
def candidates (g : Grammar σ) (w : Word) : List (Found σ) :=
  if "--".toList.isPrefixOf w then g.longCandidates w else g.shortCandidates w

/-- The switch that an argument spells out, alone or before an equals sign. -/
def spelledOut? (g : Grammar σ) (w : Word) : Option (Found σ) :=
  match g.switch? w with
  | some s => some ⟨s, w, none⟩
  | none =>
    match cutAt '=' w with
    | (name, some value) => (g.switch? name).map fun s => ⟨s, name, some value⟩
    | (_, none) => none

/-- What an argument is taken for, the divider apart. -/
def shape (g : Grammar σ) (w : Word) : Except Complaint (Shape σ) :=
  if w.head? != some '-' || w == ['-'] then .ok .operand
  else
    match g.spelledOut? w with
    | some f => .ok (.found f)
    | none =>
      match g.candidates w with
      | [f] => .ok (.found f)
      | [] => .ok (if isNegativeNumber w || w.contains ' ' then .operand else .stray)
      | fs =>
        g.refuse ("ambiguous option: " ++ String.ofList w ++ " could match "
          ++ String.intercalate ", " (fs.map fun f => String.ofList f.name))

/-- The shapes of all arguments. -/
def shapes (g : Grammar σ) : List Word → Except Complaint (List (Word × Shape σ))
  | [] => .ok []
  | w :: ws =>
    if w = ['-', '-'] then .ok ((w, .divider) :: ws.map fun v => (v, .operand))
    else do
      let s ← g.shape w
      return (w, s) :: (← g.shapes ws)

/-- What has been made of the arguments so far. -/
structure Progress (σ : Type) where
  settings : σ
  /-- The operand that is still missing. -/
  slot : Option (Slot σ)
  /-- The switch that waits for its value. -/
  waiting : Option (Switch σ) := none
  /-- What fits nowhere, latest first. -/
  leftOver : List Word := []

/-- The settings with a switch applied that stands alone. -/
def applyFlag (s : Switch σ) (settings : σ) : Except Complaint σ :=
  match s.action with
  | .flag f => .ok (f settings)
  | .help => .error .help
  | .value _ => .ok settings

/-- The settings with the value of a switch applied. -/
def applyValue (g : Grammar σ) (s : Switch σ) (f : Word → σ → Except String σ) (value : Word)
    (settings : σ) : Except Complaint σ :=
  if value = ['-', '-'] then .error .noValue
  else
    match f value settings with
    | .ok settings => .ok settings
    | .error message => g.refuseAt s.title message

/-- The complaint about a value for a switch that stands alone. -/
def refuseValue {α : Type} (g : Grammar σ) (s : Switch σ) (value : Word) : Except Complaint α :=
  g.refuseAt s.title ("ignored explicit argument " ++ String.ofList (quoted value))

/-- Reads the letters that follow a short switch in its argument: further switches that stand alone,
up to one that takes the rest for its value. The switches `before` are applied first. A last switch
that takes a value and has none in the argument is returned. -/
def letters (g : Grammar σ) (before : List (Switch σ)) (s : Switch σ) (settings : σ) :
    Word → Except Complaint (σ × Option (Switch σ))
  | [] =>
    match s.action with
    | .value _ => do return (← before.foldlM (fun σ s => applyFlag s σ) settings, some s)
    | _ => do return (← (before ++ [s]).foldlM (fun σ s => applyFlag s σ) settings, none)
  | c :: rest =>
    match s.action with
    | .value f => do
      let settings ← before.foldlM (fun σ s => applyFlag s σ) settings
      return (← g.applyValue s f (c :: rest) settings, none)
    | _ =>
      match g.switch? ['-', c] with
      | some next => g.letters (before ++ [s]) next settings rest
      | none => g.refuseValue s (c :: rest)

/-- Applies a switch as far as its own argument goes. A switch that takes a value and has none in
the argument is returned. -/
def applyFound (g : Grammar σ) (f : Found σ) (settings : σ) :
    Except Complaint (σ × Option (Switch σ)) :=
  let isShort := f.name[1]? != some '-'
  match f.value, f.switch.action with
  | none, _ => g.letters [] f.switch settings []
  | some value, .value apply => do return (← g.applyValue f.switch apply value settings, none)
  | some value, _ =>
    if isShort && !value.isEmpty then g.letters [] f.switch settings value
    else g.refuseValue f.switch value

/-- The settings with the value of a switch applied that waited for it. -/
def applyWaiting (g : Grammar σ) (s : Switch σ) (value : Word) (settings : σ) :
    Except Complaint σ :=
  match s.action with
  | .value f => g.applyValue s f value settings
  | _ => .ok settings

/-- The arguments one by one. -/
def readShapes (g : Grammar σ) (p : Progress σ) :
    List (Word × Shape σ) → Except Complaint (Progress σ)
  | [] =>
    match p.waiting with
    | none => .ok p
    | some s => g.refuseAt s.title "expected one argument"
  | (w, shape) :: rest =>
    match p.waiting, shape with
    | some s, .operand => do
      let settings ← g.applyWaiting s w p.settings
      g.readShapes { p with settings := settings, waiting := none } rest
    | some s, _ => g.refuseAt s.title "expected one argument"
    | none, .stray => g.readShapes { p with leftOver := w :: p.leftOver } rest
    | none, .found f => do
      let (settings, waiting) ← g.applyFound f p.settings
      g.readShapes { p with settings := settings, waiting := waiting } rest
    | none, .operand =>
      match p.slot with
      | none => g.readShapes { p with leftOver := w :: p.leftOver } rest
      | some slot =>
        if slot.takesRest then do
          let settings ← slot.apply (w :: rest.map (·.1)) p.settings
          return { p with settings := settings, slot := none }
        else do
          let settings ← slot.apply [w] p.settings
          match rest with
          | (_, .divider) :: rest => g.readShapes { p with settings := settings, slot := none } rest
          | rest => g.readShapes { p with settings := settings, slot := none } rest
    | none, .divider =>
      match p.slot, rest with
      | some slot, (v, .operand) :: rest =>
        if slot.takesRest then do
          let settings ← slot.apply (w :: v :: rest.map (·.1)) p.settings
          return { p with settings := settings, slot := none }
        else do
          let settings ← slot.apply [v] p.settings
          g.readShapes { p with settings := settings, slot := none } rest
      | _, rest => g.readShapes { p with leftOver := w :: p.leftOver } rest

/-- The settings of a command line, and what is left over of it. -/
def read (g : Grammar σ) (settings : σ) (args : List Word) : Except Complaint (σ × List Word) := do
  let shapes ← g.shapes args
  let p ← g.readShapes { settings := settings, slot := g.slot } shapes
  match p.slot with
  | some slot => g.refuse ("the following arguments are required: " ++ slot.name)
  | none => return (p.settings, p.leftOver.reverse)

/-- The settings of a command line that leaves nothing over. -/
def readAll (g : Grammar σ) (settings : σ) (args : List Word) : Except Complaint σ := do
  let (settings, leftOver) ← g.read settings args
  if leftOver.isEmpty then return settings
  else
    g.refuse ("unrecognized arguments: "
      ++ String.intercalate " " (leftOver.map fun w => String.ofList w))

end Grammar

end RegisterMachine.CommandLine
