/-!
# Digits on the page

* `digits n`: the decimal digits of a natural number.
* `intText n`: a whole number with its sign.
* `hasText n`: whether a whole number is written at all, which takes at most `maxDigits` digits.
* `padded width n`: the same, filled with zeros after the sign up to a width.
* `Layout`: where positional notation ends and how an exponent is written.
* `Layout.write`: the digits of `d.ddd * 10 ^ e` under a layout.
-/

set_option autoImplicit false

namespace RegisterMachine.Number

/-- The decimal digits of a natural number, without leading zeros; `0` has one digit. -/
def digits (n : Nat) : List Char := Nat.toDigits 10 n

/-- A list of characters filled with zeros on the left up to a width. -/
def zeroFill (width : Nat) (cs : List Char) : List Char :=
  List.replicate (width - cs.length) '0' ++ cs

/-- A whole number, the negative ones with a dash. -/
def intText (n : Int) : List Char :=
  if n < 0 then '-' :: digits n.natAbs else digits n.natAbs

/-- The greatest number of digits of a whole number that is read or written. -/
def maxDigits : Nat := 4300

/-- Whether a whole number has few enough digits to be written. -/
def hasText (n : Int) : Bool := (digits n.natAbs).length ≤ maxDigits

/-- A whole number in at least `width` characters, the dash counted, zeros after it. -/
def padded (width : Nat) (n : Int) : List Char :=
  if n < 0 then '-' :: zeroFill (width - 1) (digits n.natAbs) else zeroFill width (digits n.natAbs)

/-- Where the digits of a number go. -/
structure Layout where
  /-- The least decimal exponent written positionally. -/
  positionalFrom : Int
  /-- The least exponent above those written positionally. -/
  positionalBelow : Int
  /-- The least number of digits of a written exponent. -/
  exponentWidth : Nat

namespace Layout

/-- Positional notation: the point after the digit of the units, a zero on each side of it that
would be empty. -/
def positional (ds : List Char) (e : Int) : List Char :=
  if e < 0 then
    '0' :: '.' :: (List.replicate (-e - 1).toNat '0' ++ ds)
  else
    let n := e.toNat + 1
    if ds.length ≤ n then ds ++ List.replicate (n - ds.length) '0' ++ ['.', '0']
    else ds.take n ++ '.' :: ds.drop n

/-- Exponent notation: the point after the first digit, left out with no digit behind it; the
exponent always with a sign. -/
def scientific (f : Layout) (ds : List Char) (e : Int) : List Char :=
  let tail := if ds.length ≤ 1 then [] else '.' :: ds.drop 1
  let sign := if e < 0 then '-' else '+'
  ds.take 1 ++ tail ++ 'e' :: sign :: zeroFill f.exponentWidth (digits e.natAbs)

/-- The digits `ds` of `d.ddd * 10 ^ e` on the page. -/
def write (f : Layout) (ds : List Char) (e : Int) : List Char :=
  if f.positionalFrom ≤ e ∧ e < f.positionalBelow then positional ds e else f.scientific ds e

end Layout

end RegisterMachine.Number
