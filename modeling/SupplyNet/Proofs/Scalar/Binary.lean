import Mathlib
import SupplyNet.Scalar.Binary

/-!
Binary numbers between finite bounds are finite, and a finite one is ordered against zero. NaN is
ordered against nothing, so of it only a comparison that must hold says something.
-/
set_option autoImplicit false

namespace SupplyNet.Binary

open Float.Model (UnpackedFloat Format)
open Float.Model.UnpackedFloat (unpack unpackExponent)

/-! ## Finite numbers -/

theorem parts?_isSome_iff {x : Float} :
    (parts? x).isSome = true ↔ x.toBits.toNat / 2 ^ 52 % 2 ^ 11 ≠ 2047 := by
  unfold parts?
  dsimp only
  split
  · next h => simpa using h
  · next h =>
    split
    · simpa using h
    · simpa using h

/-- A packed number is finite if not all bits of its exponent are set. -/
theorem isFinite_unpack_iff {bits : BitVec Format.binary64.numBits} :
    (unpack Format.binary64 bits).isFinite = true ↔ unpackExponent bits ≠ -1#_ := by
  unfold unpack
  dsimp only
  split
  · next h =>
    split
    · simp [UnpackedFloat.isFinite, h]
    · simp [UnpackedFloat.isFinite, h]
  · next h =>
    split
    · split
      · simpa [UnpackedFloat.isFinite] using h
      · simpa [UnpackedFloat.isFinite] using h
    · simpa [UnpackedFloat.isFinite] using h

theorem toNat_unpackExponent (bits : BitVec Format.binary64.numBits) :
    (unpackExponent bits).toNat = bits.toNat / 2 ^ 52 % 2 ^ 11 := by
  simp [unpackExponent, Nat.shiftRight_eq_div_pow]

/-- The finite numbers are those that have parts. -/
theorem isFinite_iff {x : Float} : Scalar.isFinite x = true ↔ x.toModel.unpack.isFinite = true := by
  have hscalar : Scalar.isFinite x = (parts? x).isSome := Option.isSome_map
  rw [hscalar, parts?_isSome_iff]
  unfold Float.Model.unpack
  rw [isFinite_unpack_iff, ne_eq, ne_eq, ← BitVec.toNat_inj, toNat_unpackExponent]
  exact Iff.rfl

/-! ## Comparisons -/

variable {x y low high : Float}

theorem lt_iff : x < y ↔ x.toModel.unpack.lt y.toModel.unpack = true :=
  decide_eq_true_iff (p := x.toModel < y.toModel)

theorem le_iff : x ≤ y ↔ x.toModel.unpack.le y.toModel.unpack = true :=
  decide_eq_true_iff (p := x.toModel ≤ y.toModel)

theorem le_of_lt (h : x < y) : x ≤ y := by
  rw [lt_iff] at h
  rw [le_iff]
  unfold UnpackedFloat.lt at h
  unfold UnpackedFloat.le
  rw [beq_iff_eq.1 h]
  rfl

theorem isFinite_zero : Scalar.isFinite (0 : Float) = true := rfl

theorem isFinite_one : Scalar.isFinite (1 : Float) = true := rfl

/-- What lies between finite numbers is finite. An infinity is beyond one of them, and NaN is
compared with neither. -/
theorem isFinite_of_between (hlow : Scalar.isFinite low = true) (hhigh : Scalar.isFinite high = true)
    (h₁ : low ≤ x) (h₂ : x ≤ high) : Scalar.isFinite x = true := by
  rw [isFinite_iff] at hlow hhigh ⊢
  rw [le_iff] at h₁ h₂
  generalize low.toModel.unpack = a at *
  generalize x.toModel.unpack = b at *
  generalize high.toModel.unpack = c at *
  cases b with
  | zero s => rfl
  | finite s m e hm => rfl
  | notANumber => cases a <;> simp [UnpackedFloat.le, UnpackedFloat.compare] at h₁
  | infinity s =>
    cases s with
    | negative =>
      cases a <;> simp_all [UnpackedFloat.le, UnpackedFloat.compare, UnpackedFloat.isFinite]
    | positive =>
      cases c <;> simp_all [UnpackedFloat.le, UnpackedFloat.compare, UnpackedFloat.isFinite]

/-- A finite number that is not negative is at least zero, which NaN is not. -/
theorem nonneg_of_not_neg (hx : Scalar.isFinite x = true) (h : ¬x < 0) : 0 ≤ x := by
  have hzero : (0 : Float).toModel.unpack = .zero .positive := rfl
  rw [isFinite_iff] at hx
  rw [lt_iff, hzero] at h
  rw [le_iff, hzero]
  generalize x.toModel.unpack = a at *
  cases a with
  | notANumber => simp [UnpackedFloat.isFinite] at hx
  | infinity s => simp [UnpackedFloat.isFinite] at hx
  | zero s => rfl
  | finite s m e hm =>
    cases s with
    | negative => simp [UnpackedFloat.lt, UnpackedFloat.compare] at h
    | positive => rfl

end SupplyNet.Binary
