import RegisterMachine.Number.Decimal
import RegisterMachine.Number.Layout

/-!
# Numbers as text

* `text x`: the shortest digits that read back as `x`, positional for exponents from -4 to 15.
* `scientificText places x`: a fixed number of places after the point, always with an exponent.

Both write `inf`, `-inf` and `nan` for what has no digits, and keep the sign of zero.
-/

set_option autoImplicit false

namespace RegisterMachine.Number

/-- Printed values are positional from `0.0001` up to sixteen digits before the point; an exponent
has two digits or more. -/
def valueLayout : Layout := ⟨-4, 16, 2⟩

/-- Reports always show an exponent. -/
def reportLayout : Layout := ⟨0, 0, 2⟩

/-- A number by its sign and the text of its magnitude; `nan` has no sign. -/
def signedText (magnitude : Nat → List Char) (x : Float) : List Char :=
  if x.isNaN then "nan".toList
  else
    let b := pattern x
    let body := if infinity ≤ b then "inf".toList else magnitude b
    if isNegative x then '-' :: body else body

/-- A finite magnitude by its shortest digits, zeros at their end left to the layout. -/
def magnitudeText (b : Nat) : List Char :=
  if b = 0 then valueLayout.write ['0'] 0
  else
    let d := shortest b
    let ds := digits d.coefficient
    let e := d.exponent + (ds.length : Int) - 1
    valueLayout.write (ds.reverse.dropWhile (· == '0')).reverse e

/-- A number as the machine prints it. -/
def text (x : Float) : List Char := signedText magnitudeText x

/-- A finite magnitude with `places` digits after the point. -/
def magnitudeScientific (places b : Nat) : List Char :=
  if b = 0 then reportLayout.write (List.replicate (places + 1) '0') 0
  else
    let d := significant (places + 1) b
    reportLayout.write (digits d.coefficient) (d.exponent + (places : Int))

/-- A number with `places` digits after the point and an exponent. -/
def scientificText (places : Nat) (x : Float) : List Char := signedText (magnitudeScientific places) x

end RegisterMachine.Number
