import RegisterMachine.Scalar

/-!
# Registers and their bank

* `Register`: the six registers, with their names.
* `Bank`: a binary64 number for each register, zero unless stated.
* `Bank.ofScalars`: a bank from outside values, converted from the first register to the last.
* `Bank.ofAssignments`: a bank from a list of assignments, the last one to a register winning.

Reading after writing gives the value at the register written and leaves the others.
-/

set_option autoImplicit false

namespace RegisterMachine

/-- A register. -/
inductive Register where
  | r1
  | r2
  | r3
  | r4
  | r5
  | r6
  deriving DecidableEq, Repr

namespace Register

/-- All registers in order. -/
def all : List Register := [.r1, .r2, .r3, .r4, .r5, .r6]

/-- The name of a register. -/
def name : Register → List Char
  | .r1 => ['R', '1']
  | .r2 => ['R', '2']
  | .r3 => ['R', '3']
  | .r4 => ['R', '4']
  | .r5 => ['R', '5']
  | .r6 => ['R', '6']

/-- The register of a name. -/
def ofName? (cs : List Char) : Option Register := all.find? (·.name == cs)

theorem mem_all (r : Register) : r ∈ all := by cases r <;> decide

@[simp] theorem ofName?_name (r : Register) : ofName? r.name = some r := by cases r <;> decide

end Register

/-- The contents of the six registers. -/
structure Bank where
  r1 : Float := 0.0
  r2 : Float := 0.0
  r3 : Float := 0.0
  r4 : Float := 0.0
  r5 : Float := 0.0
  r6 : Float := 0.0
  deriving BEq

namespace Bank

/-- The bank of zeros. -/
def zero : Bank := {}

/-- The contents of a register. -/
def read (b : Bank) : Register → Float
  | .r1 => b.r1
  | .r2 => b.r2
  | .r3 => b.r3
  | .r4 => b.r4
  | .r5 => b.r5
  | .r6 => b.r6

/-- The bank with a register overwritten. -/
def write (b : Bank) (r : Register) (x : Float) : Bank :=
  match r with
  | .r1 => { b with r1 := x }
  | .r2 => { b with r2 := x }
  | .r3 => { b with r3 := x }
  | .r4 => { b with r4 := x }
  | .r5 => { b with r5 := x }
  | .r6 => { b with r6 := x }

@[simp] theorem read_write_self (b : Bank) (r : Register) (x : Float) : (b.write r x).read r = x := by
  cases r <;> rfl

theorem read_write_of_ne (b : Bank) {r s : Register} (x : Float) (h : s ≠ r) :
    (b.write r x).read s = b.read s := by
  cases r <;> cases s <;> first | rfl | exact absurd rfl h

theorem ext_read {b c : Bank} (h : ∀ r, b.read r = c.read r) : b = c := by
  have h1 := h .r1
  have h2 := h .r2
  have h3 := h .r3
  have h4 := h .r4
  have h5 := h .r5
  have h6 := h .r6
  cases b
  cases c
  simp_all [read]

/-- The bank with the given contents. -/
def ofFn (f : Register → Float) : Bank := ⟨f .r1, f .r2, f .r3, f .r4, f .r5, f .r6⟩

@[simp] theorem read_ofFn (f : Register → Float) (r : Register) : (ofFn f).read r = f r := by
  cases r <;> rfl

/-- The registers with their contents, in order. -/
def toList (b : Bank) : List (Register × Float) := Register.all.map fun r => (r, b.read r)

/-- A bank from outside values; the first register whose value has no conversion is reported. -/
def ofScalars (value : Register → Scalar) : Except ConversionError Bank := do
  return ⟨← (value .r1).toReal, ← (value .r2).toReal, ← (value .r3).toReal, ← (value .r4).toReal,
    ← (value .r5).toReal, ← (value .r6).toReal⟩

end Bank

/-- A table from registers to values in the order in which the registers were first named. -/
abbrev Assignments (α : Type) := List (Register × α)

namespace Assignments

/-- A register set to a value; one that is set already keeps its place. -/
def set {α : Type} (t : Assignments α) (r : Register) (a : α) : Assignments α :=
  if t.any (·.1 == r) then t.map fun e => if e.1 == r then (r, a) else e
  else t ++ [(r, a)]

/-- The table that a list of settings leads to. -/
def ofList {α : Type} (entries : List (Register × α)) : Assignments α :=
  entries.foldl (fun t e => t.set e.1 e.2) []

end Assignments

namespace Bank

/-- The zero bank with the registers of a table overwritten. -/
def ofTable (t : Assignments Float) : Bank := t.foldl (fun b e => b.write e.1 e.2) zero

/-- A bank from a list of assignments of outside values. The last value of each register counts;
the values are converted in the order in which their registers were first named. -/
def ofAssignments (entries : List (Register × Scalar)) : Except ConversionError Bank :=
  (Assignments.ofList entries).foldlM
    (fun b e => do return b.write e.1 (← e.2.toReal)) zero

end Bank

end RegisterMachine
