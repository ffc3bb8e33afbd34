import RegisterMachine.Proofs.Number.Division
import RegisterMachine.Proofs.OperandKinds

/-!
# Signs of quotients

The sign of a quotient is that of the two numbers combined, over zeros and infinities too. It stands
in front of the encoding and goes through a division beside the magnitudes, so it is followed here
through the parts of the numbers, from which the rules for quotients are read.

* `Number.sign?`: the sign of the parts of a number, nothing for what is no number.
* `copySign`: the magnitude of one number with the sign of another.
* `divideBy`: the quotient of the machine by a division that need not have an answer over zero.
* `IsQuotient`: when a quotient is no number, which sign it has, when it is infinite and when zero.

Principal results: `unpack_neg` (negation turns the sign and nothing else), `sign?_div` (the sign of
a quotient of parts) and `quotient_is_total`.
-/

set_option autoImplicit false

namespace RegisterMachine.Number

open Float.Model (Format UnpackedFloat)
open Float.Model.UnpackedFloat

/-! ## The sign in front -/

/-- The sign of the parts of a number. -/
def sign? : UnpackedFloat → Option Sign
  | .notANumber => none
  | .infinity s => some s
  | .zero s => some s
  | .finite s _ _ _ => some s

theorem isNone_sign? (f : UnpackedFloat) : (sign? f).isNone = f.isNaN := by
  cases f <;> rfl

/-- Packing puts the sign in front of two fields that do not depend on it and are not those of what
is no number. -/
theorem exists_fields {f : UnpackedFloat} {s : Sign} (h : sign? f = some s) :
    ∃ e m, f.pack Format.binary64 = packComponents Format.binary64 s e m ∧
      f.neg.pack Format.binary64 = packComponents Format.binary64 (-s) e m ∧
      (e = -1#_ → m = 0#_) := by
  cases f with
  | notANumber => cases h
  | infinity =>
    cases h
    exact ⟨_, _, rfl, rfl, fun _ => rfl⟩
  | zero =>
    cases h
    exact ⟨_, _, rfl, rfl, fun _ => rfl⟩
  | finite s m e hm =>
    cases h
    simp only [UnpackedFloat.neg, UnpackedFloat.pack]
    split
    · exact ⟨_, _, rfl, rfl, fun _ => rfl⟩
    · rename_i hsmall
      split
      · -- a normal number: its exponent is below that of infinity
        refine ⟨_, _, rfl, rfl, fun hones => absurd ?_ hsmall⟩
        have hnat := congrArg BitVec.toNat hones
        rw [BitVec.toNat_ofNat] at hnat
        generalize (e + _ + _).toNat = biased at hnat ⊢
        have hmax : biased % 2 ^ 11 = 2047 := hnat
        show 2 ^ 11 ≤ biased + 1
        omega
      · exact ⟨_, _, rfl, rfl, fun hones => absurd hones (by decide)⟩

theorem isNegative_pack {f : UnpackedFloat} {s : Sign} (h : sign? f = some s) :
    signOf (isNegative (.ofModel (.pack f))) = s := by
  obtain ⟨e, m, hpack, -, -⟩ := exists_fields h
  rw [← sign_unpack]
  show Sign.ofBitVec (unpackSign (f.pack Format.binary64)) = s
  rw [hpack, unpackSign_packComponents, Sign.ofBitVec_toBitVec]

/-- Parts are those of a number after packing if and only if they are before. -/
theorem isNaN_pack (f : UnpackedFloat) : (Float.ofModel (.pack f)).isNaN = f.isNaN := by
  cases hs : sign? f with
  | none =>
    cases f with
    | notANumber => rfl
    | _ => cases hs
  | some s =>
    obtain ⟨e, m, hpack, -, hfields⟩ := exists_fields hs
    rw [← isNone_sign? f, hs]
    show (unpack Format.binary64 (f.pack Format.binary64)).isNaN = false
    rw [hpack]
    unfold unpack
    simp only [unpackExponent_packComponents, unpackMantissa_packComponents]
    split_ifs with hones hzero
    · rfl
    · exact absurd (hfields hones) hzero
    · rfl
    · rfl
    · rfl

/-! ## Negation -/

/-- Another sign in front of the same fields is another sign of the same parts. -/
theorem unpack_fields_neg (s : Sign) (e : BitVec 11) (m : BitVec 52) :
    unpack Format.binary64 (packComponents Format.binary64 (-s) e m) =
      (unpack Format.binary64 (packComponents Format.binary64 s e m)).neg := by
  unfold unpack
  simp only [unpackExponent_packComponents, unpackMantissa_packComponents,
    unpackSign_packComponents, Sign.ofBitVec_toBitVec]
  split_ifs <;> rfl

theorem unpack_pack_unpack (b : BitVec Format.binary64.numBits) :
    unpack Format.binary64 ((unpack Format.binary64 b).pack Format.binary64) =
      unpack Format.binary64 b := by
  rw [pack_unpack]
  split
  · rename_i hnan
    simp only [isNaNBits, decide_eq_true_eq] at hnan
    rw [unpack_packedNaN]
    simp [unpack, hnan]
  · rfl

/-- **Negation turns the sign and nothing else.** -/
theorem unpack_neg (x : Float) : (-x).toModel.unpack = x.toModel.unpack.neg := by
  have hfields := @packComponents_unpackSign_unpackExponent_unpackMantissa Format.binary64
    x.toBits.toBitVec
  have hneg := unpack_fields_neg (Sign.ofBitVec (@unpackSign Format.binary64 x.toBits.toBitVec))
    (@unpackExponent Format.binary64 x.toBits.toBitVec)
    (@unpackMantissa Format.binary64 x.toBits.toBitVec)
  rw [hfields] at hneg
  show unpack Format.binary64 ((unpack Format.binary64 x.toBits.toBitVec).neg.pack
    Format.binary64) = (unpack Format.binary64 x.toBits.toBitVec).neg
  rw [← hneg, unpack_pack_unpack]

/-- The parts need not be rounded for that. -/
theorem neg_pack (f : UnpackedFloat) :
    -Float.ofModel (.pack f) = .ofModel (.pack f.neg) := by
  rw [← ofModel_pack_unpack (-_), unpack_neg]
  cases hs : sign? f with
  | none =>
    cases f with
    | notANumber => rfl
    | _ => cases hs
  | some s =>
    obtain ⟨e, m, hpack, hneg, hfields⟩ := exists_fields hs
    have hunpack : (Float.ofModel (.pack f)).toModel.unpack.neg =
        unpack Format.binary64 (f.neg.pack Format.binary64) := by
      rw [hneg, unpack_fields_neg, ← hpack]
      rfl
    have hnan : ¬ isNaNBits (f.neg.pack Format.binary64) = true := by
      rw [hneg]
      simpa [isNaNBits] using hfields
    rw [hunpack, ← Float.toBits_inj, ← UInt64.toBitVec_inj]
    show (unpack Format.binary64 (f.neg.pack Format.binary64)).pack Format.binary64 = _
    rw [pack_unpack, if_neg hnan]
    rfl

/-! ## Quotients of parts -/

/-- Whether the parts are those of a zero. -/
def isZero : UnpackedFloat → Bool
  | .zero _ => true
  | _ => false

theorem sign?_round (s : Sign) (m : Nat) (e : Int) (acc : Accuracy) :
    sign? (roundWithAccuracy Format.binary64 s m e acc) = some s := by
  unfold roundWithAccuracy
  dsimp only
  split <;> rfl

theorem round_neg (s : Sign) (m : Nat) (e : Int) (acc : Accuracy) :
    roundWithAccuracy Format.binary64 (-s) m e acc =
      (roundWithAccuracy Format.binary64 s m e acc).neg := by
  unfold roundWithAccuracy
  dsimp only
  split <;> rfl

/-- **The sign of a quotient of parts**: the two signs combined, unless one of them is missing, both
are zero or both infinite. -/
theorem sign?_div (u v : UnpackedFloat) : sign? (UnpackedFloat.div Format.binary64 u v) =
    if (isZero u && isZero v) || (u.isInf && v.isInf) then none
    else (sign? u).bind fun s => (sign? v).map fun t => s / t := by
  cases u with
  | notANumber => cases v <;> rfl
  | infinity s => cases v <;> rfl
  | zero s => cases v <;> rfl
  | finite s m e hm =>
    cases v with
    | finite t m' e' hm' => exact sign?_round _ _ _ _
    | _ => rfl

/-- A quotient over zero or of infinity is infinite. -/
theorem div_eq_infinity {u v : UnpackedFloat} (h : isZero v = true ∨ u.isInf = true)
    (hnan : (UnpackedFloat.div Format.binary64 u v).isNaN = false) :
    ∃ s, UnpackedFloat.div Format.binary64 u v = .infinity s := by
  rcases h with h | h
  · cases v with
    | zero t =>
      cases u with
      | infinity | finite => exact ⟨_, rfl⟩
      | notANumber | zero => cases hnan
    | _ => cases h
  · cases u with
    | infinity s =>
      cases v with
      | zero | finite => exact ⟨_, rfl⟩
      | notANumber | infinity => cases hnan
    | _ => cases h

/-- A quotient of zero or over infinity is zero. -/
theorem div_eq_zero {u v : UnpackedFloat} (h : isZero u = true ∨ v.isInf = true)
    (hnan : (UnpackedFloat.div Format.binary64 u v).isNaN = false) :
    ∃ s, UnpackedFloat.div Format.binary64 u v = .zero s := by
  rcases h with h | h
  · cases u with
    | zero s =>
      cases v with
      | infinity | finite => exact ⟨_, rfl⟩
      | notANumber | zero => cases hnan
    | _ => cases h
  · cases v with
    | infinity t =>
      cases u with
      | zero | finite => exact ⟨_, rfl⟩
      | notANumber | infinity => cases hnan
    | _ => cases h

theorem sign_neg_div (s t : Sign) : -s / t = -(s / t) := by cases s <;> cases t <;> rfl

theorem sign_div_neg (s t : Sign) : s / -t = -(s / t) := by cases s <;> cases t <;> rfl

theorem div_neg_left (u v : UnpackedFloat) :
    UnpackedFloat.div Format.binary64 u.neg v = (UnpackedFloat.div Format.binary64 u v).neg := by
  cases u with
  | notANumber => rfl
  | infinity s | zero s =>
    cases v <;> simp [UnpackedFloat.div, UnpackedFloat.neg, sign_neg_div]
  | finite s m e hm =>
    cases v with
    | finite t m' e' hm' =>
      simp only [UnpackedFloat.div, UnpackedFloat.neg, sign_neg_div]
      exact round_neg _ _ _ _
    | _ => simp [UnpackedFloat.div, UnpackedFloat.neg, sign_neg_div]

theorem div_neg_right (u v : UnpackedFloat) :
    UnpackedFloat.div Format.binary64 u v.neg = (UnpackedFloat.div Format.binary64 u v).neg := by
  cases v with
  | notANumber => cases u <;> rfl
  | infinity t | zero t =>
    cases u <;> simp [UnpackedFloat.div, UnpackedFloat.neg, sign_div_neg]
  | finite t m' e' hm' =>
    cases u with
    | finite s m e hm =>
      simp only [UnpackedFloat.div, UnpackedFloat.neg, sign_div_neg]
      exact round_neg _ _ _ _
    | _ => simp [UnpackedFloat.div, UnpackedFloat.neg, sign_div_neg]

end RegisterMachine.Number

namespace RegisterMachine

open Float.Model (Format UnpackedFloat)
open Float.Model.UnpackedFloat
open Number

/-! ## Quotients -/

theorem beq_zero_eq_isZero (x : Float) : (x == 0.0) = isZero x.toModel.unpack := by
  rcases unpack_cases x with hx | hx | hx | ⟨m, e, hm, hx⟩
  · rw [beq_zero_eq, hx]
    rfl
  · rw [beq_zero_of_infinity hx, hx]
    rfl
  · rw [beq_zero_of_zero hx, hx]
    rfl
  · rw [beq_zero_of_finite hx, hx]
    rfl

theorem sign?_unpack (x : Float) :
    sign? x.toModel.unpack = if x.isNaN then none else some (signOf (isNegative x)) := by
  rcases unpack_cases x with hx | hx | hx | ⟨m, e, hm, hx⟩ <;> rw [isNaN_eq, hx] <;> rfl

theorem signOf_bne (p q : Bool) : signOf (p != q) = signOf p / signOf q := by
  cases p <;> cases q <;> rfl

theorem signOf_injective {p q : Bool} (h : signOf p = signOf q) : p = q := by
  cases p with
  | true =>
    cases q with
    | true => rfl
    | false => cases h
  | false =>
    cases q with
    | true => cases h
    | false => rfl

/-- What the standard says of a quotient, its value apart. -/
structure IsQuotient (a b q : Float) : Prop where
  /-- It is no number if and only if one of the two is none, both are zero or both infinite. -/
  isNaN_iff : q.isNaN = true ↔ a.isNaN = true ∨ b.isNaN = true ∨
    ((a == 0.0) = true ∧ (b == 0.0) = true) ∨ (a.isInf = true ∧ b.isInf = true)
  /-- Otherwise the signs are combined. -/
  sign : q.isNaN = false → isNegative q = (isNegative a != isNegative b)
  /-- Otherwise it is infinite over zero and of an infinity. -/
  infinite : q.isNaN = false → (b == 0.0) = true ∨ a.isInf = true → q.isInf = true
  /-- Otherwise it is zero of zero and over an infinity. -/
  zero : q.isNaN = false → (a == 0.0) = true ∨ b.isInf = true → (q == 0.0) = true

/-- The sign of the parts that the quotient of two numbers is packed from. -/
theorem sign?_quotient (a b : Float) :
    sign? (UnpackedFloat.div Format.binary64 a.toModel.unpack b.toModel.unpack) =
      if a.isNaN || b.isNaN || (a == 0.0 && b == 0.0) || (a.isInf && b.isInf) then none
      else some (signOf (isNegative a != isNegative b)) := by
  have hinf : ∀ x : Float, x.isInf = x.toModel.unpack.isInf := fun _ => rfl
  rw [sign?_div, sign?_unpack, sign?_unpack, beq_zero_eq_isZero, beq_zero_eq_isZero, hinf, hinf,
    signOf_bne, Bool.or_assoc (a.isNaN || b.isNaN)]
  cases a.isNaN <;> cases b.isNaN <;> simp

theorem isNaN_div (a b : Float) : (a / b).isNaN =
    (a.isNaN || b.isNaN || (a == 0.0 && b == 0.0) || (a.isInf && b.isInf)) := by
  rw [div_eq, isNaN_pack, ← isNone_sign?, sign?_quotient]
  cases a.isNaN || b.isNaN || (a == 0.0 && b == 0.0) || (a.isInf && b.isInf) <;> rfl

/-- The quotient of binary64 numbers follows the standard. -/
theorem isQuotient_div (a b : Float) : IsQuotient a b (a / b) where
  isNaN_iff := by
    rw [isNaN_div, Bool.or_eq_true, Bool.or_eq_true, Bool.or_eq_true, Bool.and_eq_true,
      Bool.and_eq_true, or_assoc, or_assoc]
  sign hnan := by
    have hsign := sign?_quotient a b
    rw [← isNaN_div, hnan] at hsign
    exact signOf_injective (isNegative_pack hsign)
  infinite hnan h := by
    rw [beq_zero_eq_isZero] at h
    rw [div_eq, isNaN_pack] at hnan
    obtain ⟨s, hs⟩ := div_eq_infinity h hnan
    rw [div_eq, hs]
    cases s <;> rfl
  zero hnan h := by
    rw [beq_zero_eq_isZero] at h
    rw [div_eq, isNaN_pack] at hnan
    obtain ⟨s, hs⟩ := div_eq_zero h hnan
    rw [div_eq, hs]
    cases s <;> rfl

theorem neg_div (a b : Float) : -a / b = -(a / b) := by
  rw [div_eq, div_eq, unpack_neg, div_neg_left, neg_pack]

theorem div_neg (a b : Float) : a / -b = -(a / b) := by
  rw [div_eq, div_eq, unpack_neg, div_neg_right, neg_pack]

/-! ## Step by step -/

/-- The magnitude of one number with the sign of another. -/
def copySign (x y : Float) : Float := ofPattern (isNegative y) (pattern x)

/-- The quotient of the machine by a division that need not have an answer over zero: there the
infinity with the sign of the dividend is multiplied by the one with the sign of the divisor. -/
def divideBy (quotient? : Float → Float → Option Float) (a b : Float) : Option Float :=
  if b != 0.0 then quotient? a b
  else if a.isNaN || a == 0.0 then some notANumber
  else some (copySign (ofPattern false infinity) a * copySign 1.0 b)

theorem copySign_mul (a b : Float) : copySign (ofPattern false infinity) a * copySign 1.0 b =
    ofPattern (isNegative a != isNegative b) infinity := by
  unfold copySign
  cases isNegative a <;> cases isNegative b <;> decide +kernel

/-- No quotient over zero is asked for. -/
theorem divideBy_eq {quotient? : Float → Float → Option Float}
    (h : ∀ x y, (y == 0.0) = false → quotient? x y = some (x / y)) (a b : Float) :
    divideBy quotient? a b = some (divide a b) := by
  unfold divideBy divide
  split
  · rename_i hb
    exact h a b (by simpa [bne] using hb)
  · split
    · rfl
    · rw [copySign_mul]

/-- A division whose operands suit it is carried out: the destination is divided by the source. -/
theorem Machine.step_division {m : Machine} {ins : Instruction} (hb : m.isDone = false)
    (hf : m.program[m.pc]? = some ins) (hop : ins.op = .known .div) (hwell : ins.WellFormed) :
    ∃ r x, ins.dst = .register r ∧ ins.src.value m.bank = .ok x ∧
      m.step = ((m.fetch ins).apply (.store r (divide (m.bank.read r) x)), none) := by
  obtain ⟨hsrc, hdst⟩ : ins.src.kind.HasValue ∧ ins.dst.kind = .register := by
    obtain ⟨op, hop', haccepts⟩ := hwell
    rw [hop] at hop'
    cases hop'
    exact haccepts
  obtain ⟨r, hr⟩ : ∃ r, ins.dst = .register r := by
    cases hd : ins.dst with
    | register r => exact ⟨r, rfl⟩
    | _ => rw [hd] at hdst; cases hdst
  obtain ⟨x, hx⟩ : ∃ x, ins.src.value m.bank = .ok x := by
    have hdemands := ins.src.demands_value m.bank
    rwa [Demands, firstUnmet_cons_of_met (n := .value) _ hsrc] at hdemands
  have heffect : ins.effect m.bank = .ok (.store r (divide (m.bank.read r) x)) := by
    simp only [Instruction.effect, hop, Instruction.effectOf, Instruction.combine, hx, hr]
    rfl
  exact ⟨r, x, hr, hx, (Stepped.execute ins _ hb hf heffect).step_eq⟩

/-- **The quotient of the machine is total and follows the standard.** No division over zero is
asked for; the quotient is that of binary64 numbers over every divisor, with the signs, infinities,
zeros and missing numbers of the standard; a number as the quotient turns its sign with either of
the two; and a division of operands that suit it is carried out. -/
theorem quotient_is_total :
    (∀ (quotient? : Float → Float → Option Float) (a b : Float),
      (∀ x y, (y == 0.0) = false → quotient? x y = some (x / y)) →
        divideBy quotient? a b = some (divide a b)) ∧
    (∀ a b : Float, divide a b = a / b ∧ IsQuotient a b (divide a b) ∧
      ((divide a b).isNaN = false →
        divide (-a) b = -divide a b ∧ divide a (-b) = -divide a b)) ∧
    ∀ (m : Machine) (ins : Instruction), m.isDone = false → m.program[m.pc]? = some ins →
      ins.op = .known .div → ins.WellFormed →
        ∃ r x, ins.dst = .register r ∧ ins.src.value m.bank = .ok x ∧
          m.step = ((m.fetch ins).apply (.store r (divide (m.bank.read r) x)), none) := by
  refine ⟨fun quotient? a b h => divideBy_eq h a b, fun a b => ?_, ?_⟩
  · rw [divide_eq_div a b, divide_eq_div (-a) b, divide_eq_div a (-b)]
    exact ⟨rfl, isQuotient_div a b, fun _ => ⟨neg_div a b, div_neg a b⟩⟩
  · exact fun m ins hb hf hop hwell => Machine.step_division hb hf hop hwell

/-- One over negative zero, by a division that fails over zero: negative infinity, which turns to
infinity with either sign; and the machine writes it. -/
theorem quotient_is_total_negative_zero :
    divideBy (fun x y => if y == 0.0 then none else some (x / y)) 1.0 (-0.0) =
      some (divide 1.0 (-0.0)) ∧
    ((divide 1.0 (-0.0)).isNaN = false ∧ (divide 1.0 (-0.0)).isInf = true ∧
      isNegative (divide 1.0 (-0.0)) = true ∧ divide (-1.0) (-0.0) = -divide 1.0 (-0.0)) ∧
    let ins : Instruction := ⟨.known .div, .number (-0.0), .register .r1⟩
    ∃ r x, ins.dst = .register r ∧ ins.src.value Bank.zero = .ok x ∧
      (Machine.start #[ins] Bank.zero none false).step =
        (((Machine.start #[ins] Bank.zero none false).fetch ins).apply
          (.store r (divide (Bank.zero.read r) x)), none) := by
  obtain ⟨htotal, hquotient, hstep⟩ := quotient_is_total
  obtain ⟨-, hstandard, hturns⟩ := hquotient 1.0 (-0.0)
  have hnumber : (divide 1.0 (-0.0)).isNaN = false := by decide +kernel
  refine ⟨htotal _ _ _ fun x y hy => by simp [hy], ?_, ?_⟩
  · refine ⟨hnumber, hstandard.infinite hnumber (.inl (by decide +kernel)), ?_,
      (hturns hnumber).1⟩
    rw [hstandard.sign hnumber]
    decide +kernel
  · exact hstep _ _ rfl rfl rfl ⟨.div, rfl, .inr rfl, rfl⟩

end RegisterMachine
