import Mathlib
import SupplyNet.Proofs.Scalar.Binary

/-!
Ordered scalars. All rationals are ordered, and so are all binary numbers but NaN, which does not
come of a product or a difference of finite ones, even if it is too great to be finite. Among ordered
numbers there is a least and a greatest one.
-/
set_option autoImplicit false

namespace SupplyNet

/-- What is not unordered can be compared, and finite numbers are computed with in order. -/
class Scalar.Ordered (K : Type) [Scalar K] : Prop where
  le_of_lt {a b : K} : a < b → a ≤ b
  le_trans {a b c : K} : a ≤ b → b ≤ c → a ≤ c
  not_lt {a b : K} : unordered a = false → unordered b = false → (¬a < b ↔ b ≤ a)
  isFinite_zero : isFinite (0 : K) = true
  isFinite_one : isFinite (1 : K) = true
  of_isFinite {a : K} : isFinite a = true → unordered a = false
  mul {a b : K} : isFinite a = true → isFinite b = true → unordered (a * b) = false
  sub {a b : K} : isFinite a = true → unordered b = false → unordered (a - b) = false

instance : Scalar.Ordered Rat where
  le_of_lt := Rat.le_of_lt
  le_trans := Rat.le_trans
  not_lt _ _ := Rat.not_lt
  isFinite_zero := rfl
  isFinite_one := rfl
  of_isFinite _ := Scalar.unordered_rat _
  mul _ _ := Scalar.unordered_rat _
  sub _ _ := Scalar.unordered_rat _

/-! ## Binary numbers -/

namespace Binary

open Float.Model (UnpackedFloat Format)
open Float.Model.UnpackedFloat (unpack pack round roundWithAccuracy)

/-- Where a number stands among the others, by its sign, its exponent and its mantissa. -/
def rank : UnpackedFloat → ℤ ×ₗ ℤ ×ₗ ℤ
  | .infinity .negative => toLex (-2, toLex (0, 0))
  | .finite .negative m e _ => toLex (-1, toLex (-e, -m))
  | .zero _ | .notANumber => toLex (0, toLex (0, 0))
  | .finite .positive m e _ => toLex (1, toLex (e, m))
  | .infinity .positive => toLex (2, toLex (0, 0))

theorem isLE_then_compare {e e' : ℤ} {m m' : ℕ} :
    ((compare e e').then (compare m m')).isLE = true ↔ e < e' ∨ e = e' ∧ m ≤ m' := by
  rw [Ordering.isLE_then_iff_or, compare_lt_iff_lt, compare_eq_iff_eq, Nat.isLE_compare]

theorem isGE_then_compare {e e' : ℤ} {m m' : ℕ} :
    ((compare e e').then (compare m m')).isGE = true ↔ e' < e ∨ e = e' ∧ m' ≤ m := by
  rw [← Ordering.isLE_swap, Ordering.swap_then, Int.compare_swap, Nat.compare_swap,
    isLE_then_compare, eq_comm (a := e')]

section Order

variable {a b c : UnpackedFloat}

theorem lt_iff_rank (ha : a ≠ .notANumber) (hb : b ≠ .notANumber) :
    a.lt b = true ↔ rank a < rank b := by
  have hsigns : compare UnpackedFloat.Sign.negative .positive = .lt := rfl
  unfold UnpackedFloat.lt
  rw [beq_iff_eq]
  rcases a with (_ | _) | _ | _ | ⟨_ | _, m, e, hm⟩ <;>
    rcases b with (_ | _) | _ | _ | ⟨_ | _, m', e', hm'⟩ <;>
    simp_all [UnpackedFloat.compare, rank, Prod.Lex.lt_iff, Ordering.then_eq_lt,
      Ordering.then_eq_gt, compare_lt_iff_lt, compare_gt_iff_gt]

theorem le_iff_rank (ha : a ≠ .notANumber) (hb : b ≠ .notANumber) :
    a.le b = true ↔ rank a ≤ rank b := by
  have hsigns : ∀ s t : UnpackedFloat.Sign,
      (compare s t).isLE = true ↔ rank (.infinity s) ≤ rank (.infinity t) := by
    decide
  unfold UnpackedFloat.le
  rcases a with (_ | _) | _ | _ | ⟨_ | _, m, e, hm⟩ <;>
    rcases b with (_ | _) | _ | _ | ⟨_ | _, m', e', hm'⟩ <;>
    simp_all [UnpackedFloat.compare, rank, Prod.Lex.le_iff, isLE_then_compare, isGE_then_compare]

theorem ne_notANumber_of_le (h : a.le b = true) : a ≠ .notANumber ∧ b ≠ .notANumber := by
  constructor
  · rintro rfl
    exact absurd h (by simp [UnpackedFloat.le, UnpackedFloat.compare])
  · rintro rfl
    cases a <;> exact absurd h (by simp [UnpackedFloat.le, UnpackedFloat.compare])

theorem unpacked_le_trans (h : a.le b = true) (h' : b.le c = true) : a.le c = true := by
  obtain ⟨ha, hb⟩ := ne_notANumber_of_le h
  obtain ⟨-, hc⟩ := ne_notANumber_of_le h'
  rw [le_iff_rank ha hb] at h
  rw [le_iff_rank hb hc] at h'
  exact (le_iff_rank ha hc).2 (h.trans h')

end Order

theorem unordered_iff {x : Float} :
    Scalar.unordered x = false ↔ x.toModel.unpack ≠ .notANumber := by
  have hself : ∀ s : UnpackedFloat.Sign, compare s s = .eq := by decide
  have h : Scalar.unordered x = !x.toModel.unpack.beq x.toModel.unpack := rfl
  rw [h]
  generalize x.toModel.unpack = a
  rcases a with s | _ | _ | ⟨_ | _, m, e, hm⟩ <;>
    simp [UnpackedFloat.beq, UnpackedFloat.compare, hself]

/-! ### Results -/

theorem unpack_packComponents_ne {spec : Format} {s : UnpackedFloat.Sign}
    {e : BitVec spec.exponentBits} {m : BitVec spec.mantissaBitsWithoutImplicit}
    (h : e = -1#_ → m = 0#_) :
    unpack spec (UnpackedFloat.packComponents spec s e m) ≠ .notANumber := by
  unfold unpack
  simp only [UnpackedFloat.unpackExponent_packComponents,
    UnpackedFloat.unpackMantissa_packComponents]
  split
  · next he =>
    rw [if_pos (h he)]
    exact UnpackedFloat.noConfusion
  · split
    · split <;> exact UnpackedFloat.noConfusion
    · exact UnpackedFloat.noConfusion

/-- What is not NaN is not packed as NaN, though it may become an infinity. -/
theorem unpack_pack_ne {spec : Format} {a : UnpackedFloat} (h : a ≠ .notANumber) :
    unpack spec (pack spec a) ≠ .notANumber := by
  unfold pack
  cases a with
  | notANumber => exact absurd rfl h
  | infinity s => exact unpack_packComponents_ne fun _ => rfl
  | zero s => exact unpack_packComponents_ne fun _ => rfl
  | finite s m e hm =>
    dsimp only
    split
    · exact unpack_packComponents_ne fun _ => rfl
    · next hlt =>
      have hones : (-1#_ : BitVec spec.exponentBits).toNat = 2 ^ spec.exponentBits - 1 := by
        rw [BitVec.neg_one_eq_allOnes, BitVec.toNat_allOnes]
      split
      · refine unpack_packComponents_ne fun he => absurd (congrArg BitVec.toNat he) ?_
        rw [hones, BitVec.toNat_ofNat, Nat.mod_eq_of_lt (by omega)]
        omega
      · refine unpack_packComponents_ne fun he => absurd (congrArg BitVec.toNat he) ?_
        rw [hones, BitVec.toNat_zero]
        have hbits := Nat.one_lt_two_pow spec.he.ne'
        omega

theorem roundWithAccuracy_ne {spec : Format} {s : UnpackedFloat.Sign} {m : ℕ} {e : ℤ}
    {accuracy : UnpackedFloat.Accuracy} : roundWithAccuracy spec s m e accuracy ≠ .notANumber := by
  unfold roundWithAccuracy
  dsimp only
  split <;> exact UnpackedFloat.noConfusion

theorem mul_ne {spec : Format} {a b : UnpackedFloat} (ha : a.isFinite = true)
    (hb : b.isFinite = true) : a.mul spec b ≠ .notANumber := by
  cases a with
  | notANumber | infinity s => exact absurd ha Bool.false_ne_true
  | zero s =>
    cases b with
    | notANumber | infinity t => exact absurd hb Bool.false_ne_true
    | zero t | finite t m e hm => exact UnpackedFloat.noConfusion
  | finite s m e hm =>
    cases b with
    | notANumber | infinity t => exact absurd hb Bool.false_ne_true
    | zero t => exact UnpackedFloat.noConfusion
    | finite t m' e' hm' => exact roundWithAccuracy_ne

theorem normalize_ne {spec : Format} {m e : ℤ} {s : UnpackedFloat.Sign} :
    UnpackedFloat.normalize spec m e s ≠ .notANumber := by
  unfold UnpackedFloat.normalize
  split
  · exact roundWithAccuracy_ne
  · exact UnpackedFloat.noConfusion
  · exact roundWithAccuracy_ne

theorem sub_ne {spec : Format} {a b : UnpackedFloat} (ha : a.isFinite = true)
    (hb : b ≠ .notANumber) : a.sub spec b ≠ .notANumber := by
  cases a with
  | notANumber | infinity s => exact absurd ha Bool.false_ne_true
  | zero s =>
    cases b with
    | notANumber => exact absurd rfl hb
    | infinity t | finite t m e hm => exact UnpackedFloat.noConfusion
    | zero t =>
      change (if s == -t then UnpackedFloat.zero s else .zero .positive) ≠ .notANumber
      split <;> exact UnpackedFloat.noConfusion
  | finite s m e hm =>
    cases b with
    | notANumber => exact absurd rfl hb
    | infinity t | zero t => exact UnpackedFloat.noConfusion
    | finite t m' e' hm' => exact normalize_ne

end Binary

instance : Scalar.Ordered Float where
  le_of_lt := Binary.le_of_lt
  le_trans h h' := Binary.le_iff.2 (Binary.unpacked_le_trans (Binary.le_iff.1 h) (Binary.le_iff.1 h'))
  not_lt ha hb := by
    rw [Binary.unordered_iff] at ha hb
    rw [Binary.lt_iff, Binary.le_iff, Binary.lt_iff_rank ha hb, Binary.le_iff_rank hb ha, not_lt]
  isFinite_zero := Binary.isFinite_zero
  isFinite_one := Binary.isFinite_one
  of_isFinite h := by
    rw [Binary.isFinite_iff] at h
    rw [Binary.unordered_iff]
    intro hn
    rw [hn] at h
    exact Bool.false_ne_true h
  mul ha hb := Binary.unordered_iff.2
    (Binary.unpack_pack_ne (Binary.mul_ne (Binary.isFinite_iff.1 ha) (Binary.isFinite_iff.1 hb)))
  sub ha hb := Binary.unordered_iff.2
    (Binary.unpack_pack_ne (Binary.sub_ne (Binary.isFinite_iff.1 ha) (Binary.unordered_iff.1 hb)))

/-! ## Extremes -/

namespace Scalar.Ordered

variable {K : Type} [Scalar K] [Scalar.Ordered K] {a b : K}

theorem le_refl (ha : unordered a = false) : a ≤ a :=
  (not_lt ha ha).1 fun h => (not_lt ha ha).2 (le_of_lt h) h

theorem lesser_mem_and_le (ha : unordered a = false) (hb : unordered b = false) :
    (lesser a b = a ∨ lesser a b = b) ∧ lesser a b ≤ a ∧ lesser a b ≤ b := by
  unfold lesser
  simp only [ha, Bool.false_eq_true, or_false]
  split
  · next h => exact ⟨Or.inr rfl, le_of_lt h, le_refl hb⟩
  · next h => exact ⟨Or.inl rfl, le_refl ha, (not_lt hb ha).1 h⟩

theorem greater_mem_and_le (ha : unordered a = false) (hb : unordered b = false) :
    (greater a b = a ∨ greater a b = b) ∧ a ≤ greater a b ∧ b ≤ greater a b := by
  unfold greater
  simp only [ha, Bool.false_eq_true, or_false]
  split
  · next h => exact ⟨Or.inr rfl, le_of_lt h, le_refl hb⟩
  · next h => exact ⟨Or.inl rfl, le_refl ha, (not_lt ha hb).1 h⟩

theorem isFinite_greater (ha : isFinite a = true) (hb : isFinite b = true) :
    isFinite (greater a b) = true := by
  rcases (greater_mem_and_le (of_isFinite ha) (of_isFinite hb)).1 with h | h
  · rwa [h]
  · rwa [h]

omit [Scalar.Ordered K] in
/-- If a choice of two numbers is one of them and related to both, then the choice of many numbers
is one of them and related to all. -/
theorem foldl_mem_and_rel {choose : K → K → K} {r : K → K → Prop}
    (hrefl : ∀ a, unordered a = false → r a a) (htrans : ∀ a b c, r a b → r b c → r a c)
    (hchoose : ∀ a b, unordered a = false → unordered b = false →
      (choose a b = a ∨ choose a b = b) ∧ r (choose a b) a ∧ r (choose a b) b)
    {l : List K} (hl : ∀ b ∈ a :: l, unordered b = false) :
    l.foldl choose a ∈ a :: l ∧ ∀ b ∈ a :: l, r (l.foldl choose a) b := by
  induction l generalizing a with
  | nil => exact ⟨List.mem_cons_self, List.forall_mem_singleton.2 (hrefl a (hl a List.mem_cons_self))⟩
  | cons b l ih =>
    obtain ⟨ha, hb, hl⟩ := by simpa only [List.forall_mem_cons] using hl
    obtain ⟨hmem, hrelA, hrelB⟩ := hchoose a b ha hb
    have hchosen : unordered (choose a b) = false := by
      rcases hmem with h | h
      · rwa [h]
      · rwa [h]
    obtain ⟨hfold, hall⟩ := ih (List.forall_mem_cons.2 ⟨hchosen, hl⟩)
    rw [List.forall_mem_cons] at hall
    rw [List.foldl_cons]
    refine ⟨?_, List.forall_mem_cons.2 ⟨htrans _ _ _ hall.1 hrelA,
      List.forall_mem_cons.2 ⟨htrans _ _ _ hall.1 hrelB, hall.2⟩⟩⟩
    rcases List.mem_cons.1 hfold with h | h
    · rw [h]
      rcases hmem with h | h
      · rw [h]
        exact List.mem_cons_self
      · rw [h]
        exact List.mem_cons_of_mem a List.mem_cons_self
    · exact List.mem_cons_of_mem a (List.mem_cons_of_mem b h)

theorem foldl_lesser {l : List K} (hl : ∀ b ∈ a :: l, unordered b = false) :
    l.foldl lesser a ∈ a :: l ∧ ∀ b ∈ a :: l, l.foldl lesser a ≤ b :=
  foldl_mem_and_rel (r := fun a b => a ≤ b) (fun _ => le_refl) (fun _ _ _ => le_trans)
    (fun _ _ => lesser_mem_and_le) hl

theorem foldl_greater {l : List K} (hl : ∀ b ∈ a :: l, unordered b = false) :
    l.foldl greater a ∈ a :: l ∧ ∀ b ∈ a :: l, b ≤ l.foldl greater a :=
  foldl_mem_and_rel (r := fun a b => b ≤ a) (fun _ => le_refl) (fun _ _ _ h h' => le_trans h' h)
    (fun _ _ => greater_mem_and_le) hl

end Scalar.Ordered

end SupplyNet
