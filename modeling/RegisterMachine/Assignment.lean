import RegisterMachine.Register
import RegisterMachine.Text.Upper

/-!
# Register assignments in text

An assignment is a register's name in either case, an equals sign and a number. The first equals
sign divides it, so the number may not hold a second one.

* `Assignment.parse`: one assignment.
* `Bank.parse`: the bank that a list of assignments leads to, or the first item that is wrong.
-/

set_option autoImplicit false

namespace RegisterMachine

/-- What is wrong with an item. -/
inductive AssignmentError where
  /-- It has no equals sign or no register's name before it. -/
  | malformed (item : List Char)
  /-- What follows the equals sign is no number. -/
  | badValue (item : List Char)
  deriving DecidableEq, Repr

/-- The wording of a complaint, which quotes the item. -/
def AssignmentError.message : AssignmentError → String
  | .malformed item =>
    "bad register assignment: " ++ String.ofList (Text.quoted item) ++ " (want R1..R6=<number>)"
  | .badValue item => "bad register value: " ++ String.ofList (Text.quoted item)

/-- The register and the number of an item. -/
def Assignment.parse (item : List Char) : Except AssignmentError (Register × Float) :=
  match Text.cutAt '=' item with
  | (_, none) => .error (.malformed item)
  | (name, some value) =>
    match Register.ofName? (Text.upper name) with
    | none => .error (.malformed item)
    | some r =>
      match Number.readReal? value with
      | none => .error (.badValue item)
      | some x => .ok (r, x)

/-- The bank that a list of items leads to. -/
def Bank.parse (items : List (List Char)) : Except AssignmentError Bank := do
  let entries ← items.mapM Assignment.parse
  return Bank.ofTable (Assignments.ofList entries)

end RegisterMachine
