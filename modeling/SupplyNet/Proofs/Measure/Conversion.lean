import Mathlib
import SupplyNet.Proofs.Measure.Exponents
import SupplyNet.Proofs.Measure.Recounted

/-!
Conversion between units. Units of the same dimension differ by a factor, and the factors agree with
each other: from unit to unit and back to the first one, and through products, quotients and powers.
-/
set_option autoImplicit false

namespace SupplyNet

namespace Measure

/-! ## Powers -/

theorem pow_eq_mul_square (a : Rat) (n : Nat) : a ^ n = a ^ (n % 2) * (a * a) ^ (n / 2) := by
  rw [← pow_two, ← pow_mul, ← pow_add, Nat.mod_add_div]

theorem mulPow_eq (r a : Rat) (n : Nat) : Scalar.mulPow r a n = r * a ^ n := by
  have hproduct : ∀ (r a : Rat) (n : Nat), (if n % 2 = 1 then r * a else r) = r * a ^ (n % 2) := by
    intro r a n
    rcases Nat.mod_two_eq_zero_or_one n with h | h
    · simp [h]
    · simp [h]
  induction r, a, n using Scalar.mulPow.induct with
  | case1 r a n hn =>
    rw [Scalar.mulPow, if_pos hn, pow_eq_mul_square a n, hn, pow_zero, mul_one]
    exact hproduct r a n
  | case2 r a n product hn ih =>
    rw [Scalar.mulPow, if_neg hn, pow_eq_mul_square a n, ← mul_assoc, ← hproduct]
    exact ih

/-- Repeated squaring gives the power, and the reciprocal gives a negative one. -/
theorem zpow_eq (a : Rat) (n : Int) : Scalar.zpow a n = a ^ n := by
  unfold Scalar.zpow
  rw [mulPow_eq, one_mul]
  split
  · next h => rw [← zpow_natCast, Int.ofNat_natAbs_of_nonpos h.le, one_div, zpow_neg, inv_inv]
  · next h => rw [← zpow_natCast, Int.natAbs_of_nonneg (not_lt.1 h)]

/-! ## Dimensions -/

theorem Dimension.exponents_injective : Function.Injective Dimension.exponents := by
  rintro ⟨⟨m, _, _⟩, ⟨l, _, _⟩, ⟨t, _, _⟩, ⟨c, _, _⟩⟩ ⟨⟨m', _, _⟩, ⟨l', _, _⟩, ⟨t', _, _⟩, ⟨c', _, _⟩⟩ h
  obtain rfl : m = m' := congrFun h 0
  obtain rfl : l = l' := congrFun h 1
  obtain rfl : t = t' := congrFun h 2
  obtain rfl : c = c' := congrFun h 3
  rfl

namespace Unit

variable {K : Type} [Scalar K]

theorem Obtained.formed {u : Unit K} (h : Obtained u) : u.Formed := by
  induction h with
  | read h => exact formed_of_read h
  | one => exact .one
  | standard h => exact Catalogue.formed_standard.of_unitOf h
  | mul _ _ h ha hb => exact ha.mul hb h
  | div _ _ h ha hb => exact ha.div hb h
  | pow _ h ha => exact .pow ha (named_eq_ok_iff.1 h).1

theorem ratio_eq_ok_iff {a b : Unit K} {f : K} :
    a.ratio b = .ok f ↔ a.dimension = b.dimension ∧ a.scale / b.scale = f := by
  unfold ratio
  split
  · next h => simp [h]
  · next h => simp [h]

theorem exists_ratio_iff {a b : Unit K} :
    (∃ f, a.ratio b = .ok f) ↔ a.exponents = b.exponents := by
  rw [exponents, exponents, Dimension.exponents_injective.eq_iff]
  simp only [ratio_eq_ok_iff, exists_and_left, exists_eq', and_true]

/-! ## Factors -/

variable {a b c : Unit Rat} {f g : Rat}

/-- The factor between units is the one by which they count the same. -/
theorem ratio_eq_ok_iff_recounted (hb : b.Formed) : a.ratio b = .ok f ↔ Recounted f a b := by
  rw [ratio_eq_ok_iff, div_eq_iff hb.scale_pos.ne']
  exact ⟨fun h => ⟨h.1.symm, h.2⟩, fun h => ⟨h.dimension.symm, h.scale⟩⟩

namespace Recounted

theorem trans (h : Recounted f a b) (h' : Recounted g b c) : Recounted (f * g) a c :=
  ⟨h'.dimension.trans h.dimension, by rw [h.scale, h'.scale, mul_assoc]⟩

theorem carries_pow (h : Recounted f a c) (n : Exponent) :
    Carries (Recounted (f ^ n.val)) (a.pow n) (c.pow n) := by
  intro u hu
  obtain ⟨hgauge, -⟩ := named_eq_ok_iff.1 hu
  obtain ⟨d, hd, hg⟩ := Option.map_eq_some_iff.1 hgauge
  refine ⟨⟨⟨Scalar.zpow c.scale n.val, d⟩, enclosed c.symbol ++ "^" ++ toString n.val⟩,
    named_eq_ok_iff.2 ⟨?_, rfl⟩, ?_⟩
  · unfold Gauge.pow?
    rw [h.dimension, hd]
    rfl
  · refine ⟨by rw [← hg], ?_⟩
    rw [← hg]
    dsimp only
    rw [h.scale, zpow_eq, zpow_eq, mul_zpow]

end Recounted

end Unit

end Measure

/-! ## Quantities -/

namespace Quantity

variable {K : Type} [Scalar K]

theorem magnitudeIn_eq_ok_iff {q : Quantity K} {u v : Measure.Unit K} {r : K}
    (hq : q.unit = some v) : q.magnitudeIn u = .ok r ↔
      v.dimension = u.dimension ∧ q.magnitude * (v.scale / u.scale) = r := by
  unfold magnitudeIn
  rw [hq]
  dsimp only
  rw [map_eq_ok_iff]
  simp only [Measure.Unit.ratio_eq_ok_iff]
  constructor
  · rintro ⟨f, ⟨hd, rfl⟩, rfl⟩
    exact ⟨hd, rfl⟩
  · rintro ⟨hd, rfl⟩
    exact ⟨_, ⟨hd, rfl⟩, rfl⟩

theorem convert_eq_ok_iff {q r : Quantity K} {u : Measure.Unit K} :
    q.convert u = .ok r ↔ q.magnitudeIn u = .ok r.magnitude ∧ r.unit = some u := by
  unfold convert
  rw [map_eq_ok_iff]
  constructor
  · rintro ⟨m, hm, rfl⟩
    exact ⟨hm, rfl⟩
  · rintro ⟨hm, hu⟩
    exact ⟨_, hm, by rw [← hu]⟩

/-- Whatever unit a quantity was converted to, it measures the same. -/
theorem magnitudeIn_of_convert {q q' : Quantity Rat} {a b : Measure.Unit Rat}
    (hq : q.unit = some a) (hb : b.Formed) (h : q.convert b = .ok q') (c : Measure.Unit Rat)
    (r : Rat) : q'.magnitudeIn c = .ok r ↔ q.magnitudeIn c = .ok r := by
  obtain ⟨hm, hu⟩ := convert_eq_ok_iff.1 h
  obtain ⟨hd, hm⟩ := (magnitudeIn_eq_ok_iff hq).1 hm
  rw [magnitudeIn_eq_ok_iff hu, magnitudeIn_eq_ok_iff hq, ← hm, hd, mul_assoc,
    div_mul_div_cancel₀ hb.scale_pos.ne']

/-- The unit on the way is forgotten. -/
theorem convert_of_convert {q q' : Quantity Rat} {a b : Measure.Unit Rat} (hq : q.unit = some a)
    (hb : b.Formed) (h : q.convert b = .ok q') (c : Measure.Unit Rat) (r : Quantity Rat) :
    q'.convert c = .ok r ↔ q.convert c = .ok r := by
  rw [convert_eq_ok_iff, convert_eq_ok_iff, magnitudeIn_of_convert hq hb h]

end Quantity

/-! ## Coherence -/

namespace Measure.Unit

/-- Conversion is coherent. Units can be converted if their exponents are the same, and only then;
the factor from a unit to itself is one, and those of steps multiply. Where units have a product, a
quotient or a power, so do those that they are converted to, and the factor between both is that of
their parts. A quantity may be converted in steps. -/
theorem conversion_coherent {a b c d : Unit Rat} (ha : Obtained a) (hb : Obtained b)
    (hc : Obtained c) (hd : Obtained d) :
    ((∃ f, a.ratio b = .ok f) ↔ a.exponents = b.exponents) ∧
      a.ratio a = .ok 1 ∧
      (∀ f g, a.ratio b = .ok f → b.ratio c = .ok g → a.ratio c = .ok (f * g)) ∧
      (∀ f g, a.ratio c = .ok f → b.ratio d = .ok g →
        (∀ u, a.mul b = .ok u → ∃ v, c.mul d = .ok v ∧ u.ratio v = .ok (f * g)) ∧
        (∀ u, a.div b = .ok u → ∃ v, c.div d = .ok v ∧ u.ratio v = .ok (f / g))) ∧
      (∀ f, a.ratio c = .ok f → ∀ n u, a.pow n = .ok u →
        ∃ v, c.pow n = .ok v ∧ u.ratio v = .ok (f ^ n.val)) ∧
      ∀ q q' : Quantity Rat, q.unit = some a → q.convert b = .ok q' →
        ∀ r, q'.convert c = .ok r ↔ q.convert c = .ok r := by
  have counts : ∀ {x y : Unit Rat} {f : Rat}, Obtained y → x.ratio y = .ok f → Recounted f x y :=
    fun hy h => (ratio_eq_ok_iff_recounted hy.formed).1 h
  refine ⟨exists_ratio_iff, ?_, fun f g hf hg => ?_, fun f g hf hg => ⟨fun u hu => ?_,
    fun u hu => ?_⟩, fun f hf n u hu => ?_, fun q q' hq h => ?_⟩
  · exact (ratio_eq_ok_iff_recounted ha.formed).2 (.refl a)
  · exact (ratio_eq_ok_iff_recounted hc.formed).2 ((counts hb hf).trans (counts hc hg))
  · obtain ⟨v, hv, huv⟩ := (counts hc hf).carries_mul (counts hd hg) u hu
    exact ⟨v, hv, (ratio_eq_ok_iff_recounted (hc.formed.mul hd.formed hv)).2 huv⟩
  · obtain ⟨v, hv, huv⟩ := (counts hc hf).carries_div (counts hd hg) u hu
    exact ⟨v, hv, (ratio_eq_ok_iff_recounted (hc.formed.div hd.formed hv)).2 huv⟩
  · obtain ⟨v, hv, huv⟩ := (counts hc hf).carries_pow n u hu
    exact ⟨v, hv, (ratio_eq_ok_iff_recounted (Obtained.pow hc hv).formed).2 huv⟩
  · exact Quantity.convert_of_convert hq hb.formed h c

theorem conversion_coherent_of_power : ∃ a b c d : Unit Rat,
    (Unit.read "MW" = .ok a ∧ Unit.read "kW" = .ok b ∧ Unit.read "GW" = .ok c ∧
      Unit.read "W" = .ok d) ∧
    a.exponents = b.exponents ∧ a.ratio a = .ok 1 ∧ a.ratio c = .ok (1000 * 1e-6) ∧
    (∃ u v, a.mul b = .ok u ∧ c.mul d = .ok v ∧ u.ratio v = .ok (1e-3 * 1000)) ∧
    (∃ u v, a.div b = .ok u ∧ c.div d = .ok v ∧ u.ratio v = .ok (1e-3 / 1000)) ∧
    (∃ u v, a.pow { val := -2 } = .ok u ∧ c.pow { val := -2 } = .ok v ∧
      u.ratio v = .ok (1e-3 ^ (-2 : Int))) ∧
    ∃ q', (⟨5, some a⟩ : Quantity Rat).convert b = .ok q' ∧
      q'.convert c = .ok ⟨5e-3, some c⟩ := by
  let a : Unit Rat := ⟨⟨1e6, .ofPower⟩, "MW"⟩
  let b : Unit Rat := ⟨⟨1e3, .ofPower⟩, "kW"⟩
  let c : Unit Rat := ⟨⟨1e9, .ofPower⟩, "GW"⟩
  let d : Unit Rat := ⟨⟨1, .ofPower⟩, "W"⟩
  have ha : Unit.read "MW" = .ok a := by decide +kernel
  have hb : Unit.read "kW" = .ok b := by decide +kernel
  have hc : Unit.read "GW" = .ok c := by decide +kernel
  have hd : Unit.read "W" = .ok d := by decide +kernel
  have hab : a.ratio b = .ok 1000 := by decide +kernel
  have hac : a.ratio c = .ok 1e-3 := by decide +kernel
  have hbc : b.ratio c = .ok 1e-6 := by decide +kernel
  have hbd : b.ratio d = .ok 1000 := by decide +kernel
  obtain ⟨hexponents, hself, hsteps, hpairs, hpowers, hquantity⟩ :=
    conversion_coherent (.read ha) (.read hb) (.read hc) (.read hd)
  obtain ⟨u, hu⟩ := exists_of_isOk (show (a.mul b).isOk = true by decide +kernel)
  obtain ⟨v, hv, huv⟩ := (hpairs _ _ hac hbd).1 u hu
  obtain ⟨w, hw⟩ := exists_of_isOk (show (a.div b).isOk = true by decide +kernel)
  obtain ⟨x, hx, hwx⟩ := (hpairs _ _ hac hbd).2 w hw
  obtain ⟨y, hy⟩ := exists_of_isOk (show (a.pow { val := -2 }).isOk = true by decide +kernel)
  obtain ⟨z, hz, hyz⟩ := hpowers _ hac _ y hy
  have hfive : (⟨5, some a⟩ : Quantity Rat).convert b = .ok ⟨5000, some b⟩ := by decide +kernel
  exact ⟨a, b, c, d, ⟨ha, hb, hc, hd⟩, hexponents.1 ⟨_, hab⟩, hself, hsteps _ _ hab hbc,
    ⟨u, v, hu, hv, huv⟩, ⟨w, x, hw, hx, hwx⟩, ⟨y, z, hy, hz, hyz⟩, _, hfive,
    (hquantity _ _ rfl hfive _).2 (by decide +kernel)⟩

end Measure.Unit

end SupplyNet

