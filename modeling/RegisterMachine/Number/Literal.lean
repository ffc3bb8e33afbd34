import RegisterMachine.Number.Binary64
import RegisterMachine.Number.Layout
import RegisterMachine.Text.Digit
import RegisterMachine.Text.Split

/-!
# Reading numbers

* `readReal? cs`: the number nearest to a real literal, which is `inf`, `infinity` or `nan` in any
  case, or digits with an optional point and an optional exponent, after an optional sign.
* `readInt cs`: the whole number of an integer literal, which is digits after an optional sign.

Margins around a literal do not matter, digits may come from any script, and one underscore may
stand between two digits. An integer literal has at most `maxDigits` digits; that is checked as
soon as its digits end, before what follows them.
-/

set_option autoImplicit false

namespace RegisterMachine.Number

open RegisterMachine.Text

/-- A literal without the underscores that join two digits, or `none` if an underscore stands
elsewhere; `afterDigit` tells whether a digit stands before the text. -/
def dropJoiners (afterDigit : Bool) : List Char → Option (List Char)
  | [] => some []
  | c :: rest =>
    if c = '_' then
      if afterDigit && (rest.head?.any isDecimal) then dropJoiners false rest else none
    else (dropJoiners (isDecimal c) rest).map (c :: ·)

/-- The value of a run of digits. -/
def digitsValue (ds : List Char) : Nat :=
  ds.foldl (fun n c => 10 * n + (decimalValue? c).getD 0) 0

/-- An optional sign and what follows it; `true` for a dash. -/
def cutSign : List Char → Bool × List Char
  | '-' :: rest => (true, rest)
  | '+' :: rest => (false, rest)
  | cs => (false, cs)

/-- The exponent at the end of a literal: nothing for 0, or `e` and a signed run of digits. -/
def readExponent? : List Char → Option Int
  | [] => some 0
  | c :: rest =>
    if c = 'e' ∨ c = 'E' then
      let (negative, ds) := cutSign rest
      if !ds.isEmpty && ds.all isDecimal then
        some (if negative then -(digitsValue ds : Int) else digitsValue ds)
      else none
    else none

/-- The magnitude of digits with an optional point and an optional exponent. -/
def readMagnitude? (cs : List Char) : Option Nat :=
  let whole := cs.takeWhile isDecimal
  let (fraction, rest) :=
    match cs.dropWhile isDecimal with
    | '.' :: r => (r.takeWhile isDecimal, r.dropWhile isDecimal)
    | r => ([], r)
  if whole.isEmpty && fraction.isEmpty then none
  else
    (readExponent? rest).map fun e =>
      ofDecimal (digitsValue (whole ++ fraction)) (e - (fraction.length : Int))

/-- The number nearest to a real literal, or `none` if the text is no literal. -/
def readReal? (cs : List Char) : Option Float := do
  let (negative, body) := cutSign (trim isMargin cs)
  let name := String.ofList (body.map Char.toLower)
  if name = "inf" ∨ name = "infinity" then return ofPattern negative infinity
  else if name = "nan" then return notANumber
  else
    let plain ← dropJoiners false body
    return ofPattern negative (← readMagnitude? plain)

/-- Why a text is no whole number. -/
inductive IntFault where
  /-- The text is no integer literal. -/
  | malformed
  /-- The literal has more digits than are read. -/
  | tooLong (count : Nat)
  deriving DecidableEq, Repr

/-- The whole number of an integer literal. -/
def readInt (cs : List Char) : Except IntFault Int := do
  let (negative, body) := cutSign (cs.dropWhile isMargin)
  let isPart (c : Char) : Bool := isDecimal c || c == '_'
  match dropJoiners false (body.takeWhile isPart) with
  | none => throw .malformed
  | some ds =>
    if ds.isEmpty then throw .malformed
    else if maxDigits < ds.length then throw (.tooLong ds.length)
    else if (body.dropWhile isPart).all isMargin then
      return if negative then -(digitsValue ds : Int) else digitsValue ds
    else throw .malformed

end RegisterMachine.Number
