import Mathlib

/-!
# Double precision numbers

`Float.Model` is the IEEE 754 format binary64, the `double` of C++.  The rules of signs: a product
of positive numbers is not negative, and neither is the integer that the conversion to `int64_t`
cuts it to.
-/

namespace Binary64

open Float.Model UnpackedFloat

/-- The sign bit is clear; of a number that is not a number nothing is asked. -/
def SignClear : UnpackedFloat → Prop
  | .notANumber => True
  | .infinity s | .zero s | .finite s _ _ _ => s = .positive

/-- Above zero, infinity included. -/
def Positive : UnpackedFloat → Prop
  | .notANumber | .zero _ => False
  | .infinity s | .finite s _ _ _ => s = .positive

/-- The number `0.0`. -/
theorem unpack_zero : (Float.Model.ofNat 0).unpack = .zero .positive := by rfl

theorem positive_of_lt {x : Float.Model} (h : Float.Model.ofNat 0 < x) : Positive x.unpack := by
  have h : UnpackedFloat.lt (Float.Model.ofNat 0).unpack x.unpack = true := h
  rw [unpack_zero] at h
  unfold UnpackedFloat.lt at h
  cases hx : x.unpack with
  | notANumber => rw [hx] at h; cases h
  | zero s => rw [hx] at h; cases h
  | infinity s =>
    rw [hx] at h
    cases s with
    | negative => cases h
    | positive => rfl
  | finite s m e hm =>
    rw [hx] at h
    cases s with
    | negative => cases h
    | positive => rfl

/-! ### Packing keeps the sign -/

theorem unpackSign_packComponents {spec : Format} {s : Sign} {e : BitVec spec.exponentBits}
    {m : BitVec spec.mantissaBitsWithoutImplicit} :
    unpackSign (packComponents spec s e m) = s.toBitVec := by
  ext i hi
  obtain rfl : i = 0 := by omega
  simp [unpackSign, packComponents, BitVec.getLsbD_eq_getElem, BitVec.getLsbD_append,
    BitVec.getElem_append]

/-- What is unpacked from a clear sign bit has a clear sign. -/
theorem signClear_unpack {spec : Format} {b : BitVec spec.numBits}
    (h : unpackSign b = Sign.toBitVec .positive) : SignClear (UnpackedFloat.unpack spec b) := by
  have hs : Sign.ofBitVec (unpackSign b) = .positive := by rw [h]; rfl
  unfold UnpackedFloat.unpack
  dsimp only
  rw [hs]
  split_ifs <;> trivial

theorem unpackSign_pack {spec : Format} {x : UnpackedFloat} (h : SignClear x) :
    unpackSign (UnpackedFloat.pack spec x) = Sign.toBitVec .positive := by
  cases x with
  | notANumber => exact unpackSign_packComponents
  | infinity s => cases h; exact unpackSign_packComponents
  | zero s => cases h; exact unpackSign_packComponents
  | finite s m e hm =>
    cases h
    unfold UnpackedFloat.pack
    dsimp only
    split_ifs <;> exact unpackSign_packComponents

theorem SignClear.pack {x : UnpackedFloat} (h : SignClear x) :
    SignClear (Float.Model.pack x).unpack :=
  signClear_unpack (unpackSign_pack h)

/-! ### Products and integer parts -/

theorem signClear_roundWithAccuracy (spec : Format) (m : ℕ) (e : ℤ) (a : Accuracy) :
    SignClear (roundWithAccuracy spec .positive m e a) := by
  unfold roundWithAccuracy
  dsimp only
  split_ifs <;> rfl

theorem Positive.mul {spec : Format} {x y : UnpackedFloat} (hx : Positive x) (hy : Positive y) :
    SignClear (UnpackedFloat.mul spec x y) := by
  cases x <;> cases y <;> cases hx <;> cases hy
  · rfl
  · rfl
  · rfl
  · exact signClear_roundWithAccuracy spec _ _ _

/-- Clamping keeps an integer that is not negative so. -/
theorem ofIntClamp_nonneg {n : ℤ} (h : 0 ≤ n) : 0 ≤ (Int64.ofIntClamp n).toInt := by
  have hmin : Int64.minValue.toInt ≤ n := (by decide : Int64.minValue.toInt ≤ 0).trans h
  by_cases hmax : n ≤ Int64.maxValue.toInt
  · rw [Int64.toInt_ofIntClamp hmin hmax]
    exact h
  · rw [Int64.ofIntClamp, dif_pos hmin, dif_neg hmax]
    decide

theorem SignClear.toInt64_nonneg {x : UnpackedFloat} (h : SignClear x) :
    0 ≤ x.toInt64.toInt := by
  refine ofIntClamp_nonneg ?_
  cases x with
  | notANumber => exact le_rfl
  | infinity s => cases h; exact (by decide : (0 : ℤ) ≤ Int64.maxValue.toInt)
  | zero s => exact le_rfl
  | finite s m e hm => cases h; exact Int.natCast_nonneg _

/-- **The rule of signs.** A product of positive numbers is cut to an integer that is not
negative. -/
theorem toInt64_mul_nonneg {x y : Float.Model} (hx : Float.Model.ofNat 0 < x)
    (hy : Float.Model.ofNat 0 < y) : 0 ≤ (x * y).toInt64.toInt :=
  ((positive_of_lt hx).mul (positive_of_lt hy)).pack.toInt64_nonneg

end Binary64
