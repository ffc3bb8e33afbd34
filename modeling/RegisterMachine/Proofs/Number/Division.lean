import RegisterMachine.Machine
import RegisterMachine.Proofs.Number.Encoding

/-!
# Division

The machine treats a zero divisor apart. What it does there is what division of binary64 numbers
does anyway: the quotient of a number that is not zero is infinite with the signs combined, and
zero by zero is no number.

Principal result: `divide_eq_div`.
-/

set_option autoImplicit false

namespace RegisterMachine

open Float.Model (Format UnpackedFloat)
open Float.Model.UnpackedFloat
open Number

theorem div_eq (a b : Float) : a / b =
    .ofModel (.pack (UnpackedFloat.div Format.binary64 a.toModel.unpack b.toModel.unpack)) := rfl

theorem beq_zero_eq (x : Float) :
    (x == 0.0) = (x.toModel.unpack.compare (.zero .positive) == some .eq) := rfl

theorem beq_zero_of_infinity {x : Float} {s : Sign} (h : x.toModel.unpack = .infinity s) :
    (x == 0.0) = false := by
  rw [beq_zero_eq, h]
  cases s <;> rfl

theorem beq_zero_of_zero {x : Float} {s : Sign} (h : x.toModel.unpack = .zero s) :
    (x == 0.0) = true := by
  rw [beq_zero_eq, h]
  rfl

theorem beq_zero_of_finite {x : Float} {m : Nat} {e : Int} {s : Sign} {hm : 0 < m}
    (h : x.toModel.unpack = .finite s m e hm) : (x == 0.0) = false := by
  rw [beq_zero_eq, h]
  cases s <;> rfl

theorem unpack_of_beq_zero {x : Float} (h : (x == 0.0) = true) :
    x.toModel.unpack = .zero (signOf (isNegative x)) := by
  rcases unpack_cases x with hx | hx | hx | ⟨m, e, hm, hx⟩
  · rw [beq_zero_eq, hx] at h
    cases h
  · rw [beq_zero_of_infinity hx] at h
    cases h
  · exact hx
  · rw [beq_zero_of_finite hx] at h
    cases h

theorem isNaN_eq (x : Float) : x.isNaN = x.toModel.unpack.isNaN := rfl

theorem ofPattern_infinity (a b : Bool) : ofPattern (a != b) infinity =
    .ofModel (.pack (.infinity (signOf a / signOf b))) := by
  cases a <;> cases b <;> rfl

/-- The quotient over a zero. -/
theorem divide_zero {a b : Float} (hb : (b == 0.0) = true) : divide a b = a / b := by
  have hne : (b != 0.0) = false := by simp [bne, hb]
  unfold divide
  rw [hne, if_neg (by decide), div_eq, unpack_of_beq_zero hb, isNaN_eq]
  rcases unpack_cases a with ha | ha | ha | ⟨m, e, hm, ha⟩
  · rw [ha]
    rfl
  · rw [beq_zero_of_infinity ha, ofPattern_infinity, ha]
    rfl
  · rw [beq_zero_of_zero ha, ha]
    rfl
  · rw [beq_zero_of_finite ha, ofPattern_infinity, ha]
    rfl

/-- **The quotient of the machine is that of binary64 numbers, over zeros too.** -/
theorem divide_eq_div (a b : Float) : divide a b = a / b := by
  cases hb : (b == 0.0) with
  | true => exact divide_zero hb
  | false => simp [divide, bne, hb]

end RegisterMachine
