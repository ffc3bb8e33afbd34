import RegisterMachine.Number.Literal

/-!
# Numbers in a text

`Values.read` takes the words of a text for numbers, from the first on, up to one that is none.
-/

set_option autoImplicit false

namespace RegisterMachine

/-- The numbers that a text starts with, and the first word after them, which is no number. -/
structure Values where
  numbers : List Float
  bad : Option (List Char)

namespace Values

/-- The numbers that a list of words starts with. -/
def ofWords : List (List Char) → Values
  | [] => ⟨[], none⟩
  | w :: ws =>
    match Number.readReal? w with
    | none => ⟨[], some w⟩
    | some x =>
      let rest := ofWords ws
      ⟨x :: rest.numbers, rest.bad⟩

/-- The numbers that a text starts with. -/
def read (text : List Char) : Values := ofWords (Text.words Text.isBlank text)

end Values

end RegisterMachine
