import RegisterMachine.Number.Format
import RegisterMachine.Number.Literal
import RegisterMachine.Text.Quoted

/-!
# Values from outside

A `Scalar` is what a caller may hand over where a number is wanted.

* `Scalar.toReal`, `Scalar.toInt`: conversion to a register value and to an index.
* `Scalar.isNonzero`, `Scalar.isTrue`: the two readings of a scalar as a truth value.
* `Scalar.shown`: a scalar as error messages show it.
* `ConversionError`: why a conversion fails, with its wording.
* `TextError`: why a value cannot be shown, with its wording.
-/

set_option autoImplicit false

namespace RegisterMachine

/-- A value from outside. -/
inductive Scalar where
  | int (n : Int)
  | bool (b : Bool)
  | real (x : Float)
  | text (cs : List Char)
  | absent

/-- Why a scalar has no value of the kind wanted. -/
inductive ConversionError where
  /-- A text is no real literal. -/
  | notReal (cs : List Char)
  /-- A text is no integer literal. -/
  | notInt (cs : List Char)
  /-- An integer literal has too many digits. -/
  | tooManyDigits (count : Nat)
  /-- A whole number is beyond the greatest register value. -/
  | tooLarge
  /-- Infinity is no whole number. -/
  | infiniteInt
  /-- What is no number is no whole number. -/
  | nanInt
  /-- Nothing was given for a real number. -/
  | absentReal
  /-- Nothing was given for a whole number. -/
  | absentInt
  deriving DecidableEq, Repr

/-- Why a value has no text. -/
inductive TextError where
  /-- A whole number has too many digits. -/
  | tooManyDigits
  /-- A foreign value fails when it is asked for its text, with an error of its own. -/
  | foreign (kind message : String)
  deriving DecidableEq, Repr

/-- What is said about too many digits, with what is known of their number. -/
def digitLimitMessage (count : String) : String :=
  "Exceeds the limit (" ++ toString Number.maxDigits
    ++ " digits) for integer string conversion" ++ count
    ++ "; use sys.set_int_max_str_digits() to increase the limit"

/-- The wording of a failure to show a value. -/
def TextError.message : TextError → String
  | .tooManyDigits => digitLimitMessage ""
  | .foreign _ message => message

/-- How much of a quoted text a message about an integer literal shows. -/
def shownLength : Nat := 200

/-- The wording of a failed conversion. -/
def ConversionError.message : ConversionError → String
  | .notReal cs => "could not convert string to float: " ++ String.ofList (Text.quoted cs)
  | .notInt cs =>
    "invalid literal for int() with base 10: " ++ String.ofList ((Text.quoted cs).take shownLength)
  | .tooManyDigits n => digitLimitMessage (": value has " ++ toString n ++ " digits")
  | .tooLarge => "int too large to convert to float"
  | .infiniteInt => "cannot convert float infinity to integer"
  | .nanInt => "cannot convert float NaN to integer"
  | .absentReal => "float() argument must be a string or a real number, not 'NoneType'"
  | .absentInt =>
    "int() argument must be a string, a bytes-like object or a real number, not 'NoneType'"

namespace Scalar

/-- The register value of a text. -/
def textToReal (cs : List Char) : Except ConversionError Float :=
  match Number.readReal? cs with
  | some x => .ok x
  | none => .error (.notReal cs)

/-- The whole number of a text. -/
def textToInt (cs : List Char) : Except ConversionError Int :=
  match Number.readInt cs with
  | .ok n => .ok n
  | .error .malformed => .error (.notInt cs)
  | .error (.tooLong count) => .error (.tooManyDigits count)

/-- The register value of a scalar: the nearest number, a truth value counting as one or zero. -/
def toReal : Scalar → Except ConversionError Float
  | .int n =>
    match Number.ofInt? n with
    | some x => .ok x
    | none => .error .tooLarge
  | .bool b => .ok (if b then 1.0 else 0.0)
  | .real x => .ok x
  | .text cs => textToReal cs
  | .absent => .error .absentReal

/-- The whole number of a scalar, a fraction being cut off. -/
def toInt : Scalar → Except ConversionError Int
  | .int n => .ok n
  | .bool b => .ok (if b then 1 else 0)
  | .real x =>
    if x.isNaN then .error .nanInt
    else if x.isInf then .error .infiniteInt
    else .ok (Number.truncate x)
  | .text cs => textToInt cs
  | .absent => .error .absentInt

/-- Whether a scalar differs from zero; what is no number does. -/
def isNonzero : Scalar → Bool
  | .int n => n != 0
  | .bool b => b
  | .real x => x != 0.0
  | .text _ => true
  | .absent => true

/-- Whether a scalar counts as true: neither zero nor empty nor absent. -/
def isTrue : Scalar → Bool
  | .int n => n != 0
  | .bool b => b
  | .real x => x != 0.0
  | .text cs => !cs.isEmpty
  | .absent => false

/-- A scalar as a message shows it. -/
def shown : Scalar → Except TextError (List Char)
  | .int n => if Number.hasText n then .ok (Number.intText n) else .error .tooManyDigits
  | .bool b => .ok (if b then "True".toList else "False".toList)
  | .real x => .ok (Number.text x)
  | .text cs => .ok (Text.quoted cs)
  | .absent => .ok "None".toList

end Scalar

end RegisterMachine
