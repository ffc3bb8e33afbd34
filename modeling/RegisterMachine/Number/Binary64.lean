import RegisterMachine.Number.Rounding

/-!
# The numbers of binary64

A finite number or an infinity is a sign and a *pattern*, the lower 63 bits of its encoding.
Patterns are ordered as the magnitudes they stand for, and one more in the pattern is one more
unit in the last place, also across a power of two and from the greatest finite number to infinity.

* `nearest num den`: the pattern nearest to a ratio, a half going to the even pattern.
* `ofDecimal n x`: the pattern nearest to `n * 10 ^ x`, without forming powers that cannot matter.
* `ratio b`: the exact value of a finite pattern.
* `ofPattern`, `pattern`, `isNegative`: the passage to and from `Float`.
-/

set_option autoImplicit false

namespace RegisterMachine.Number

/-- The pattern of infinity, one above that of the greatest finite number. -/
def infinity : Nat := 0x7FF0000000000000

/-- The pattern of the number nearest to `num / den`; a half goes to the even pattern, and what is
too large becomes infinity. The unit in the last place is `2 ^ e`. -/
def nearest (num den : Nat) : Nat :=
  if num = 0 then 0
  else
    let e := max (-1074) (floorLog2 num den - 52)
    let q := roundDiv (num * 2 ^ (-e).toNat) (den * 2 ^ e.toNat)
    min infinity ((e + 1074).toNat * 2 ^ 52 + q)

/-- The pattern nearest to `n * 10 ^ x`. From `10 ^ 309` on every magnitude is infinite, and below
`2 ^ (-1075)` every one is zero, so powers of ten larger than the digits call for are not formed. -/
def ofDecimal (n : Nat) : Int → Nat
  | .ofNat p =>
    if n = 0 then 0
    else if 309 ≤ p then infinity
    else nearest (n * 10 ^ p) 1
  | .negSucc p =>
    if n.log2 + 1076 ≤ 3 * (p + 1) then 0
    else nearest n (10 ^ (p + 1))

/-- A finite pattern as `m * 2 ^ q`. -/
def scaled (b : Nat) : Nat × Int :=
  if b < 2 ^ 52 then (b, -1074)
  else (2 ^ 52 + b % 2 ^ 52, (b / 2 ^ 52 : Nat) - 1075)

/-- The exact value of a finite pattern, as numerator and denominator. -/
def ratio (b : Nat) : Nat × Nat :=
  let (m, q) := scaled b
  (m * 2 ^ q.toNat, 2 ^ (-q).toNat)

/-- The number with a given sign and pattern. -/
def ofPattern (negative : Bool) (b : Nat) : Float :=
  Float.ofBits (UInt64.ofNat (if negative then 2 ^ 63 + b else b))

/-- The pattern of a number, sign left out. -/
def pattern (x : Float) : Nat := x.toBits.toNat % 2 ^ 63

/-- Whether the sign bit is set; negative zero has it. -/
def isNegative (x : Float) : Bool := 2 ^ 63 ≤ x.toBits.toNat

/-- The number that stands for "no number". -/
def notANumber : Float := Float.ofBits 0x7FF8000000000000

/-- The number nearest to a whole number, or `none` if that is infinite. -/
def ofInt? (n : Int) : Option Float :=
  let b := nearest n.natAbs 1
  if b = infinity then none else some (ofPattern (n < 0) b)

/-- The whole number next to a finite number towards zero. -/
def truncate (x : Float) : Int :=
  let (num, den) := ratio (pattern x)
  if isNegative x then -((num / den : Nat) : Int) else (num / den : Nat)

end RegisterMachine.Number
