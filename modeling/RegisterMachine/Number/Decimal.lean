import RegisterMachine.Number.Binary64

/-!
# Decimals of a binary64 number

A `Decimal` is `coefficient * 10 ^ exponent`.

* `Decimal.pattern`: the pattern it is read as.
* `shortest b`: the decimal with the fewest digits that is read as the pattern `b`; of several the
  one nearest to it, of two equally near the even one.
* `significant n b`: the decimal of `n` digits nearest to `b`, a half going to the even one.

`shortest` reads each candidate back before it takes it, so `shortest b` is read as `b` by the way
it is found; the exact expansion stands behind the last candidate.
-/

set_option autoImplicit false

namespace RegisterMachine.Number

/-- The number `coefficient * 10 ^ exponent`. -/
structure Decimal where
  coefficient : Nat
  exponent : Int
  deriving DecidableEq, Repr

namespace Decimal

/-- The pattern of the binary64 number nearest to a decimal. -/
def pattern (d : Decimal) : Nat := ofDecimal d.coefficient d.exponent

/-- The finite pattern `b` written out in full. -/
def exact (b : Nat) : Decimal :=
  let (m, q) := scaled b
  ⟨m * 2 ^ q.toNat * 5 ^ (-q).toNat, min q 0⟩

end Decimal

/-- The decimal next to `num / den` from below on the grid of multiples of `10 ^ x`, and twice the
rest over a denominator in common: `(d, r, unit)` with `num / den = (d + r / unit) * 10 ^ x`. -/
def gridFloor (num den : Nat) (x : Int) : Nat × Nat × Nat :=
  let num' := num * 10 ^ (-x).toNat
  let den' := den * 10 ^ x.toNat
  (num' / den', num' % den', den')

/-- The better of the two neighbours of `b` on the grid of multiples of `10 ^ x` among those that
are read as `b`: the nearer, or the even one of two equally near. -/
def onGrid? (b num den : Nat) (x : Int) : Option Decimal :=
  let (d, r, unit) := gridFloor num den x
  let below : Decimal := ⟨d, x⟩
  let above : Decimal := ⟨d + 1, x⟩
  let preferAbove := unit < 2 * r || (unit == 2 * r && d % 2 == 1)
  let first := if preferAbove then above else below
  let second := if preferAbove then below else above
  if first.pattern = b then some first
  else if second.pattern = b then some second
  else none

/-- The shortest decimal that is read as the positive finite pattern `b`. Seventeen digits are
always enough. -/
def shortest (b : Nat) : Decimal :=
  let (num, den) := ratio b
  let e := floorLog10 num den
  let found := (List.range 17).findSome? fun (n : Nat) => onGrid? b num den (e - (n : Int))
  found.getD (Decimal.exact b)

/-- The decimal of `n` significant digits nearest to the positive finite pattern `b`, a half going
to the even one; a carry into a new digit gives up the last zero. -/
def significant (n b : Nat) : Decimal :=
  let (num, den) := ratio b
  let x := floorLog10 num den + 1 - (n : Int)
  let d := roundDiv (num * 10 ^ (-x).toNat) (den * 10 ^ x.toNat)
  if d = 10 ^ n then ⟨10 ^ (n - 1), x + 1⟩ else ⟨d, x⟩

end RegisterMachine.Number
