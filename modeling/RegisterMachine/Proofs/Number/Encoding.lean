import Mathlib
import RegisterMachine.Number.Binary64

/-!
# The encoding of binary64 numbers

A number is stored in 64 bits: a sign, eleven bits of exponent, fifty-two of mantissa. The logical
model of `Float` takes them apart and puts them together again, and loses nothing.

* `ofPattern_pattern`: a number is given by its sign and its pattern.
* `eq_notANumber`: there is one number that is none.
* `pattern_ofPattern`, `isNegative_ofPattern`: so is every finite number made of them.
* `sign_unpack`: the sign of the parts is the sign bit.
* `pattern_eq_infinity`: above the finite patterns there is one more number on each side.
* `unpack_of_normal`: the parts of a number with a leading bit are those of its pattern.
-/

set_option autoImplicit false

namespace RegisterMachine.Number

open Float.Model (Format UnpackedFloat)
open Float.Model.UnpackedFloat

/-! ## Numbers, their bits and their patterns -/

theorem ofBits_toBits (x : Float) : Float.ofBits x.toBits = x := by
  obtain ⟨⟨b, h⟩⟩ := x
  have hmodel : ∀ b' h', b' = b → Float.ofModel ⟨b', h'⟩ = Float.ofModel ⟨b, h⟩ := by
    rintro _ _ rfl
    rfl
  exact hmodel _ _ (congrArg UInt64.ofBitVec (pack_unpack_of_valid h))

theorem isNegative_iff (x : Float) : isNegative x = true ↔ 2 ^ 63 ≤ x.toBits.toNat := by
  simp [isNegative]

/-- A number is given by its sign and its pattern. -/
theorem ofPattern_pattern (x : Float) : ofPattern (isNegative x) (pattern x) = x := by
  have hlt : x.toBits.toNat < 2 ^ 64 := x.toBits.toNat_lt
  have hbits : (if isNegative x then 2 ^ 63 + pattern x else pattern x) = x.toBits.toNat := by
    unfold pattern
    split
    · rename_i hn
      rw [isNegative_iff] at hn
      omega
    · rename_i hn
      rw [isNegative_iff] at hn
      omega
  unfold ofPattern
  rw [hbits, UInt64.ofNat_toNat, ofBits_toBits]

theorem ofModel_pack_unpack (x : Float) : .ofModel (.pack x.toModel.unpack) = x := ofBits_toBits x

theorem eq_notANumber {x : Float} (h : x.isNaN = true) : x = notANumber := by
  have hu : x.toModel.unpack = .notANumber := by
    rw [← isNaN_iff]
    exact h
  rw [← ofModel_pack_unpack x, hu]
  rfl

/-! ## Fields -/

theorem toNat_unpackExponent (u : UInt64) :
    (@unpackExponent Format.binary64 u.toBitVec).toNat = u.toNat / 2 ^ 52 % 2 ^ 11 := by
  unfold unpackExponent
  rw [BitVec.toNat_cast, BitVec.extractLsb_toNat, Nat.shiftRight_eq_div_pow]
  rfl

theorem toNat_unpackMantissa (u : UInt64) :
    (@unpackMantissa Format.binary64 u.toBitVec).toNat = u.toNat % 2 ^ 52 := by
  unfold unpackMantissa
  rw [BitVec.toNat_cast, BitVec.extractLsb_toNat, Nat.shiftRight_eq_div_pow]
  show u.toNat / 2 ^ 0 % 2 ^ 52 = _
  omega

/-- The bits of a finite number are kept. -/
theorem toBits_ofBits {u : UInt64} (h : u.toNat % 2 ^ 63 < infinity) : (Float.ofBits u).toBits = u := by
  have hfield : @unpackExponent Format.binary64 u.toBitVec ≠ -1#_ := by
    intro hones
    have hnat := congrArg BitVec.toNat hones
    rw [toNat_unpackExponent] at hnat
    have hmax : u.toNat / 2 ^ 52 % 2 ^ 11 = 2047 := hnat
    unfold infinity at h
    omega
  have hnan : ¬ @isNaNBits Format.binary64 u.toBitVec = true := by
    unfold isNaNBits
    rw [decide_eq_true_eq]
    exact fun h => hfield h.1
  show UInt64.ofBitVec (pack Format.binary64 (unpack Format.binary64 u.toBitVec)) = u
  rw [pack_unpack, if_neg hnan]

theorem toNat_toBits_ofPattern {b : Nat} (h : b < infinity) (negative : Bool) :
    (ofPattern negative b).toBits.toNat = if negative then 2 ^ 63 + b else b := by
  have hlt : (if negative then 2 ^ 63 + b else b) < 2 ^ 64 := by
    unfold infinity at h
    split <;> omega
  have hnat : (UInt64.ofNat (if negative then 2 ^ 63 + b else b)).toNat =
      if negative then 2 ^ 63 + b else b := by
    rw [UInt64.toNat_ofNat', Nat.mod_eq_of_lt hlt]
  unfold ofPattern
  rw [toBits_ofBits, hnat]
  rw [hnat]
  unfold infinity at h ⊢
  split <;> omega

theorem pattern_ofPattern {b : Nat} (h : b < infinity) (negative : Bool) :
    pattern (ofPattern negative b) = b := by
  unfold pattern
  rw [toNat_toBits_ofPattern h]
  unfold infinity at h
  split <;> omega

theorem isNegative_ofPattern {b : Nat} (h : b < infinity) (negative : Bool) :
    isNegative (ofPattern negative b) = negative := by
  unfold isNegative
  rw [toNat_toBits_ofPattern h]
  unfold infinity at h
  cases negative with
  | true => simp
  | false => simp; omega

/-! ## Signs -/

/-- The sign of a number that has one. -/
def signOf (negative : Bool) : Sign := if negative then .negative else .positive

theorem sign_unpack (x : Float) :
    Sign.ofBitVec (@unpackSign Format.binary64 x.toBits.toBitVec) =
      signOf (isNegative x) := by
  have hlt : x.toBits.toNat < 2 ^ 64 := x.toBits.toNat_lt
  have htop : (@unpackSign Format.binary64 x.toBits.toBitVec).toNat =
      x.toBits.toNat / 2 ^ 63 := by
    unfold unpackSign
    rw [BitVec.toNat_cast, BitVec.extractLsb_toNat, Nat.shiftRight_eq_div_pow]
    show x.toBits.toNat / 2 ^ 63 % 2 = _
    omega
  unfold Sign.ofBitVec signOf
  cases hn : isNegative x with
  | true =>
    rw [isNegative_iff] at hn
    rw [if_neg]
    · rfl
    · intro h0
      rw [h0] at htop
      have : (0 : Nat) = x.toBits.toNat / 2 ^ 63 := htop
      omega
  | false =>
    have hn' : ¬ 2 ^ 63 ≤ x.toBits.toNat := by
      rw [← isNegative_iff, hn]
      simp
    rw [if_pos]
    · rfl
    · apply BitVec.eq_of_toNat_eq
      rw [htop]
      show _ = 0
      omega

/-- A number that is one has the sign of its sign bit, whichever way it is taken apart. -/
theorem unpack_cases (x : Float) :
    x.toModel.unpack = .notANumber ∨
      x.toModel.unpack = .infinity (signOf (isNegative x)) ∨
      x.toModel.unpack = .zero (signOf (isNegative x)) ∨
      ∃ m e h, x.toModel.unpack = .finite (signOf (isNegative x)) m e h := by
  have hx : x.toModel.unpack = UnpackedFloat.unpack Format.binary64 x.toBits.toBitVec := rfl
  rw [← sign_unpack x, hx]
  unfold UnpackedFloat.unpack
  dsimp only
  split
  · split
    · exact .inr (.inl rfl)
    · exact .inl rfl
  · split
    · split
      · exact .inr (.inr (.inl rfl))
      · rename_i hm
        have hpos := Nat.pos_of_ne_zero fun h0 => hm (BitVec.eq_of_toNat_eq h0)
        exact .inr (.inr (.inr ⟨_, _, hpos, rfl⟩))
    · have hpos : 0 < (1#1 ++ @unpackMantissa Format.binary64 x.toBits.toBitVec).toNat := by
        rw [BitVec.toNat_append]
        exact Nat.lt_of_lt_of_le (by decide : 0 < 1 <<< 52) Nat.left_le_or
      exact .inr (.inr (.inr ⟨_, _, hpos, rfl⟩))

/-- A number that is one and whose pattern is not finite is infinite. -/
theorem pattern_eq_infinity {x : Float} (hnan : x.isNaN = false) (h : infinity ≤ pattern x) :
    pattern x = infinity := by
  have hfield : @unpackExponent Format.binary64 x.toBits.toBitVec = -1#_ := by
    apply BitVec.eq_of_toNat_eq
    rw [toNat_unpackExponent]
    show x.toBits.toNat / 2 ^ 52 % 2 ^ 11 = 2047
    have hlt : x.toBits.toNat < 2 ^ 64 := x.toBits.toNat_lt
    unfold infinity pattern at h
    omega
  have hparts : x.toModel.unpack = .infinity (signOf (isNegative x)) := by
    have hx : x.toModel.unpack = UnpackedFloat.unpack Format.binary64 x.toBits.toBitVec := rfl
    have hn : x.toModel.unpack.isNaN = false := hnan
    rw [← sign_unpack x]
    rw [hx] at hn ⊢
    unfold UnpackedFloat.unpack at hn ⊢
    dsimp only at hn ⊢
    rw [if_pos hfield] at hn ⊢
    split at hn
    · rename_i hm
      rw [if_pos hm]
    · cases hn
  rw [← ofModel_pack_unpack x, hparts]
  cases isNegative x <;> rfl

/-- The parts of a normal number. -/
theorem unpack_of_normal {x : Float} (h1 : 2 ^ 52 ≤ pattern x) (h2 : pattern x < infinity) :
    ∃ h, x.toModel.unpack = .finite (signOf (isNegative x)) (scaled (pattern x)).1
      (scaled (pattern x)).2 h := by
  have hexp : (@unpackExponent Format.binary64 x.toBits.toBitVec).toNat = pattern x / 2 ^ 52 := by
    rw [toNat_unpackExponent]
    unfold pattern
    omega
  have hman : (@unpackMantissa Format.binary64 x.toBits.toBitVec).toNat = pattern x % 2 ^ 52 := by
    rw [toNat_unpackMantissa]
    unfold pattern
    omega
  have hones : @unpackExponent Format.binary64 x.toBits.toBitVec ≠ -1#_ := by
    intro h
    have hnat := congrArg BitVec.toNat h
    rw [hexp] at hnat
    have hmax : pattern x / 2 ^ 52 = 2047 := hnat
    unfold infinity at h2
    omega
  have hzero : @unpackExponent Format.binary64 x.toBits.toBitVec ≠ 0#_ := by
    intro h
    have hnat := congrArg BitVec.toNat h
    rw [hexp] at hnat
    have hmin : pattern x / 2 ^ 52 = 0 := hnat
    omega
  have hsig : (1#1 ++ @unpackMantissa Format.binary64 x.toBits.toBitVec).toNat =
      2 ^ 52 + pattern x % 2 ^ 52 := by
    rw [BitVec.toNat_append, hman]
    exact (Nat.shiftLeft_add_eq_or_of_lt (Nat.mod_lt _ (by decide)) 1).symm
  have hscaled : scaled (pattern x) =
      (2 ^ 52 + pattern x % 2 ^ 52, ((pattern x / 2 ^ 52 : Nat) : Int) - 1075) := by
    unfold scaled
    rw [if_neg (by omega)]
  have hx : x.toModel.unpack = UnpackedFloat.unpack Format.binary64 x.toBits.toBitVec := rfl
  rw [hx, hscaled]
  unfold UnpackedFloat.unpack
  dsimp only
  rw [if_neg hones, if_neg hzero]
  simp only [hsig, hexp, sign_unpack]
  exact ⟨by omega, rfl⟩

end RegisterMachine.Number
