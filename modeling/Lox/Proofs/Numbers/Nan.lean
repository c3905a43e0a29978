import Lox.Number.Text
import Lox.Proofs.Functions.Equality
import Mathlib.Data.Nat.Bitwise

/-!
# NaNs

There are many NaNs, and nothing tells them apart. Numbers that are equal, or are both NaNs
(`Number.EqUpToNaN`), give one result in arithmetic and comparisons, and one text. Only the bits of a literal
and of its negation are kept, and a negated NaN is a NaN. So what holds of equal numbers holds of such numbers
as well.

Number literals are compared by another equality, which takes the two zeros for one. That and the sign of
zeros is all that there is between the two (`Number.eqUpToNaN_iff`).
-/

namespace Lox.Number

variable {x x' y y' : Number}

/-! ## Bits -/

theorem toNat_magnitude (x : Number) : x.magnitude.toNat = x.bits.toNat % 2 ^ 63 := by
  have hmask : (~~~signMask).toNat = 2 ^ 63 - 1 := by decide
  rw [magnitude, UInt64.toNat_and, hmask, Nat.and_two_pow_sub_one_eq_mod]

theorem isNegative_iff : x.isNegative ↔ 2 ^ 63 ≤ x.bits.toNat := by
  have hmask : signMask.toNat = 2 ^ 63 := by decide
  have hlt := x.bits.toNat_lt
  have hbit : (x.bits &&& signMask).toNat = (x.bits.toNat / 2 ^ 63 % 2) * 2 ^ 63 := by
    rw [UInt64.toNat_and, hmask, Nat.and_two_pow, Nat.toNat_testBit]
  rw [isNegative, bne_iff_ne, ne_eq, ← UInt64.toNat_inj, hbit, UInt64.toNat_zero]
  omega

theorem isNaN_iff : x.isNaN ↔ x.bits.toNat / 2 ^ 52 % 2 ^ 11 = 2 ^ 11 - 1 ∧ x.bits.toNat % 2 ^ 52 ≠ 0 := by
  have hinfinity : infinityBits.toNat = (2 ^ 11 - 1) * 2 ^ 52 := by decide
  rw [isNaN, decide_eq_true_iff, UInt64.lt_iff_toNat_lt, toNat_magnitude, hinfinity]
  omega

theorem eq_of_magnitude_eq (hmagnitude : x.magnitude = y.magnitude)
    (hsign : x.isNegative = y.isNegative) : x = y := by
  have hlow := congrArg UInt64.toNat hmagnitude
  have hhigh : 2 ^ 63 ≤ x.bits.toNat ↔ 2 ^ 63 ≤ y.bits.toNat := by
    rw [← isNegative_iff, ← isNegative_iff, hsign]
  rw [toNat_magnitude, toNat_magnitude] at hlow
  have hx := x.bits.toNat_lt
  have hy := y.bits.toNat_lt
  have hbits : x.bits = y.bits := UInt64.toNat_inj.mp (by omega)
  cases x
  exact congrArg mk hbits

theorem magnitude_neg (x : Number) : (-x).magnitude = x.magnitude := by
  have hbit (a b : Bool) : ((a ^^ b) && !b) = (a && !b) := by cases a <;> cases b <;> rfl
  refine UInt64.toBitVec_inj.mp (BitVec.eq_of_getElem_eq fun i hi => ?_)
  show ((x.bits.toBitVec ^^^ signMask.toBitVec) &&& ~~~signMask.toBitVec)[i] =
    (x.bits.toBitVec &&& ~~~signMask.toBitVec)[i]
  simp only [BitVec.getElem_and, BitVec.getElem_xor, BitVec.getElem_not, hbit]

theorem isNaN_neg (x : Number) : (-x).isNaN = x.isNaN := by rw [isNaN, isNaN, magnitude_neg]

/-! ## Machine floats -/

open Float.Model in
theorem unpack_of_isNaN (h : x.isNaN) :
    UnpackedFloat.unpack .binary64 x.bits.toBitVec = .notANumber := by
  obtain ⟨hexponent, hfraction⟩ := isNaN_iff.mp h
  have hones : @UnpackedFloat.unpackExponent .binary64 x.bits.toBitVec = -1#11 := by
    refine BitVec.eq_of_toNat_eq ?_
    simpa [UnpackedFloat.unpackExponent, Nat.shiftRight_eq_div_pow] using hexponent
  have hnonzero : @UnpackedFloat.unpackMantissa .binary64 x.bits.toBitVec ≠ 0#52 := by
    refine fun hzero => hfraction ?_
    simpa [UnpackedFloat.unpackMantissa] using congrArg BitVec.toNat hzero
  exact (if_pos hones).trans (if_neg hnonzero)

/-- There is one NaN among machine floats. -/
theorem toFloat_of_isNaN (hx : x.isNaN) (hy : y.isNaN) : x.toFloat = y.toFloat := by
  have hmodel : Float.Model.ofBits x.bits = Float.Model.ofBits y.bits := by
    rw [Float.Model.ofBits, Float.Model.ofBits, unpack_of_isNaN hx, unpack_of_isNaN hy]
  exact congrArg Float.ofModel hmodel

/-! ## Equality up to the bits of NaNs -/

/-- The numbers have the same bits, or are both NaNs. -/
def EqUpToNaN (x y : Number) : Prop := x = y ∨ x.isNaN ∧ y.isNaN

namespace EqUpToNaN

theorem refl (x : Number) : x.EqUpToNaN x := .inl rfl

theorem toFloat (h : x.EqUpToNaN y) : x.toFloat = y.toFloat := by
  obtain rfl | ⟨hx, hy⟩ := h
  · rfl
  · exact toFloat_of_isNaN hx hy

theorem neg (h : x.EqUpToNaN y) : (-x).EqUpToNaN (-y) := by
  obtain rfl | ⟨hx, hy⟩ := h
  · exact .refl _
  · exact .inr ⟨(isNaN_neg x).trans hx, (isNaN_neg y).trans hy⟩

theorem write (h : x.EqUpToNaN y) (infinity : List Char) : x.write infinity = y.write infinity := by
  obtain rfl | ⟨hx, hy⟩ := h
  · rfl
  · rw [Number.write, if_pos hx, Number.write, if_pos hy]

theorem ieeeEq (h : x.EqUpToNaN x') (h' : y.EqUpToNaN y') : x.ieeeEq y = x'.ieeeEq y' := by
  obtain rfl | ⟨hx, hx'⟩ := h
  · obtain rfl | ⟨hy, hy'⟩ := h'
    · rfl
    · simp only [Number.ieeeEq, hy, hy', Bool.not_true, Bool.and_false, Bool.false_and]
  · simp only [Number.ieeeEq, hx, hx', Bool.not_true, Bool.false_and]

/-! The other operations work on machine floats. -/

section operations

variable (h : x.EqUpToNaN x') (h' : y.EqUpToNaN y')
include h h'

theorem add : x + y = x' + y' := congrArg₂ (fun a b => ofFloat (a + b)) h.toFloat h'.toFloat

theorem sub : x - y = x' - y' := congrArg₂ (fun a b => ofFloat (a - b)) h.toFloat h'.toFloat

theorem mul : x * y = x' * y' := congrArg₂ (fun a b => ofFloat (a * b)) h.toFloat h'.toFloat

theorem div : x / y = x' / y' := congrArg₂ (fun a b => ofFloat (a / b)) h.toFloat h'.toFloat

theorem lt : x.lt y = x'.lt y' := by rw [Number.lt, Number.lt, h.toFloat, h'.toFloat]

theorem le : x.le y = x'.le y' := by rw [Number.le, Number.le, h.toFloat, h'.toFloat]

end operations

end EqUpToNaN

theorem isZero_eq_false_of_isNaN (h : x.isNaN) : x.isZero = false := by
  rw [isNaN, decide_eq_true_iff] at h
  refine beq_false_of_ne fun hzero => ?_
  rw [hzero] at h
  exact absurd h (by decide)

/-- Number literals that are the same are equal up to the bits of NaNs, unless they are two zeros with
different signs. -/
theorem eqUpToNaN_iff :
    x.EqUpToNaN y ↔ x.sameLiteral y ∧ (x.isZero → y.isZero → x.isNegative = y.isNegative) := by
  rw [sameLiteral, Bool.or_eq_true, Bool.and_eq_true]
  constructor
  · rintro (rfl | ⟨hx, hy⟩)
    · refine ⟨?_, fun _ _ => rfl⟩
      cases hx : x.isNaN with
      | true => exact .inl ⟨rfl, rfl⟩
      | false => exact .inr (ieeeEq_self_iff.mpr hx)
    · exact ⟨.inl ⟨hx, hy⟩, fun hzero => absurd hzero (by simp [isZero_eq_false_of_isNaN hx])⟩
  · rintro ⟨hnan | heq, hsign⟩
    · exact .inr hnan
    · obtain ⟨_, _, rfl | ⟨hx, hy⟩⟩ := ieeeEq_iff.mp heq
      · exact .refl x
      · have hmagnitude : x.magnitude = y.magnitude := (beq_iff_eq.mp hx).trans (beq_iff_eq.mp hy).symm
        exact .inl (eq_of_magnitude_eq hmagnitude (hsign hx hy))

end Lox.Number
