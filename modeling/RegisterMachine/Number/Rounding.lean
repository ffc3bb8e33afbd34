/-!
# Whole-number arithmetic on ratios

A positive real is given here by a numerator and a denominator.

* `roundDiv num den`: the whole number nearest to `num / den`, a half going to the even neighbour.
* `reaches base num den k`: whether `base ^ k ≤ num / den`, for a power of either sign.
* `floorLog2`, `floorLog10`: the greatest power of two, of ten, that a ratio reaches.
-/

set_option autoImplicit false

namespace RegisterMachine.Number

/-- A power of natural numbers is that of the core library, whatever else is imported. -/
@[default_instance 20000]
instance (priority := 2000) powNat : Pow Nat Nat := instPowNat

/-- The whole number nearest to `num / den`; a half goes to the even neighbour. -/
def roundDiv (num den : Nat) : Nat :=
  let q := num / den
  let r := num % den
  if 2 * r < den then q
  else if den < 2 * r then q + 1
  else q + q % 2

theorem roundDiv_mul_right (k : Nat) {den : Nat} (h : 0 < den) : roundDiv (k * den) den = k := by
  simp [roundDiv, Nat.mul_div_cancel k h, h]

/-- Whether `base ^ k ≤ num / den`. -/
def reaches (base num den : Nat) (k : Int) : Bool :=
  den * base ^ k.toNat ≤ num * base ^ (-k).toNat

/-- The greatest `k` with `2 ^ k ≤ num / den`, for a positive ratio. -/
def floorLog2 (num den : Nat) : Int :=
  let k := (num.log2 : Int) - (den.log2 : Int)
  if reaches 2 num den k then k else k - 1

/-- The greatest `k` with `10 ^ k ≤ num / den`, for a positive ratio between `2 ^ (-1100)` and
`2 ^ 1100`: there the product of the binary logarithm with `0.30103` is off by one at most. -/
def floorLog10 (num den : Nat) : Int :=
  let k := floorLog2 num den * 30103 / 100000
  if reaches 10 num den (k + 1) then k + 1
  else if reaches 10 num den k then k
  else k - 1

end RegisterMachine.Number
