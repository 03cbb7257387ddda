import Mathlib
import SupplyNet.Network.Costs
import SupplyNet.Proofs.Measure.Formed
import SupplyNet.Proofs.Network.Balance
import SupplyNet.Proofs.Related

/-!
Other units for the same things. Two catalogues are comparable if they have the same commodities, in
units of the same dimensions; whatever is converted to the units of one can be converted to those of
the other, and the results differ by the factor between the units.
-/
set_option autoImplicit false

namespace SupplyNet

namespace Measure.Unit

/-- The second unit counts the same as the first one, `k` to one. -/
structure Recounted (k : Rat) (u u' : Unit Rat) : Prop where
  dimension : u'.dimension = u.dimension
  scale : u.scale = k * u'.scale

namespace Recounted

variable {j k : Rat} {a a' b b' u u' : Unit Rat}

theorem refl (u : Unit Rat) : Recounted 1 u u := ⟨rfl, (one_mul _).symm⟩

theorem carries_mul (ha : Recounted k a a') (hb : Recounted j b b') :
    Carries (Recounted (k * j)) (a.mul b) (a'.mul b') := by
  intro u hu
  obtain ⟨hgauge, -⟩ := mul_eq_ok_iff.1 hu
  obtain ⟨d, hd, hg⟩ := Option.map_eq_some_iff.1 hgauge
  refine ⟨⟨⟨a'.scale * b'.scale, d⟩, a'.symbol ++ "*" ++ enclosed b'.symbol⟩,
    mul_eq_ok_iff.2 ⟨?_, rfl⟩, ?_⟩
  · unfold Gauge.mul?
    rw [ha.dimension, hb.dimension, hd]
    rfl
  · refine ⟨by rw [← hg], ?_⟩
    rw [← hg]
    dsimp only
    rw [ha.scale, hb.scale]
    ring

theorem carries_div (ha : Recounted k a a') (hb : Recounted j b b') :
    Carries (Recounted (k / j)) (a.div b) (a'.div b') := by
  intro u hu
  obtain ⟨hgauge, -⟩ := div_eq_ok_iff.1 hu
  obtain ⟨d, hd, hg⟩ := Option.map_eq_some_iff.1 hgauge
  refine ⟨⟨⟨a'.scale / b'.scale, d⟩, a'.symbol ++ "/" ++ enclosed b'.symbol⟩,
    div_eq_ok_iff.2 ⟨?_, rfl⟩, ?_⟩
  · unfold Gauge.div?
    rw [ha.dimension, hb.dimension, hd]
    rfl
  · refine ⟨by rw [← hg], ?_⟩
    rw [← hg]
    dsimp only
    rw [ha.scale, hb.scale]
    exact mul_div_mul_comm k a'.scale j b'.scale

/-- What is measured in a unit comes to so many of the other units. -/
theorem carries_ratio (h : Recounted k u u') (hk : k ≠ 0) (v : Unit Rat) :
    Carries (fun r r' => r' = k * r) (v.ratio u) (v.ratio u') := by
  intro r hr
  unfold ratio at hr ⊢
  rw [h.dimension]
  split at hr
  · next hd =>
    rw [if_pos hd]
    refine ⟨_, rfl, ?_⟩
    dsimp only
    rw [← Except.ok.inj hr, h.scale, ← mul_div_assoc, mul_div_mul_left _ _ hk]
  · exact absurd hr (by simp)

theorem carries_magnitudeIn (h : Recounted k u u') (hk : k ≠ 0) {q : Quantity Rat}
    (hq : q.unit.isSome = true) :
    Carries (fun r r' => r' = k * r) (q.magnitudeIn u) (q.magnitudeIn u') := by
  obtain ⟨v, hv⟩ := Option.isSome_iff_exists.1 hq
  unfold Quantity.magnitudeIn
  rw [hv]
  exact (h.carries_ratio hk v).map fun r r' hr => by
    rw [hr]
    ring

theorem carries_valuesIn (h : Recounted k u u') (hk : k ≠ 0) {s : Series Rat}
    (hs : s.unit.isSome = true) :
    Carries (fun l l' => l' = l.map (k * ·)) (s.valuesIn u) (s.valuesIn u') := by
  obtain ⟨v, hv⟩ := Option.isSome_iff_exists.1 hs
  unfold Series.valuesIn
  rw [hv]
  refine (h.carries_ratio hk v).bind fun r r' hr => Carries.ok ?_
  rw [List.map_map]
  refine List.map_congr_left fun q _ => ?_
  rw [hr, Function.comp_apply]
  ring

/-- Costs for each unit fall as the units get smaller. -/
theorem carries_ofSize (h : Recounted k u u') (hk : k ≠ 0) (currency : Unit Rat)
    {costs : Quantity Rat} (hcosts : costs.unit.isSome = true) :
    Carries (fun r r' => r' * k = r) (Costs.ofSize currency u costs)
      (Costs.ofSize currency u' costs) := by
  refine ((refl currency).carries_div h).bind fun target target' ht => ?_
  refine (ht.carries_magnitudeIn (div_ne_zero one_ne_zero hk) hcosts).imp fun r r' hr => ?_
  rw [hr, mul_right_comm, div_mul_cancel₀ _ hk, one_mul]

theorem carries_ofAmount (h : Recounted k u u') (hk : k ≠ 0) (currency : Unit Rat)
    {costs : Quantity Rat} (hcosts : costs.unit.isSome = true) :
    Carries (fun r r' => r' * k = r) (Costs.ofAmount currency u costs)
      (Costs.ofAmount currency u' costs) := by
  refine (h.carries_mul (refl Costs.hour)).bind fun amount amount' ha => ?_
  rw [mul_one] at ha
  refine ((refl currency).carries_div ha).bind fun target target' ht => ?_
  refine (ht.carries_magnitudeIn (div_ne_zero one_ne_zero hk) hcosts).imp fun r r' hr => ?_
  rw [hr, mul_right_comm, div_mul_cancel₀ _ hk, one_mul]

end Recounted

end Measure.Unit

/-! ## Catalogues -/

/-- The same commodities, each in units of the same dimension. -/
def Catalogue.Comparable (catalogue catalogue' : Catalogue Rat) : Prop :=
  ∀ commodity, (catalogue'.units.find? commodity).map (·.dimension) =
    (catalogue.units.find? commodity).map (·.dimension)

/-- How many units of the second catalogue make one of the first. -/
def Catalogue.factor (catalogue catalogue' : Catalogue Rat) (commodity : String) : Rat :=
  catalogue.scaleOf commodity / catalogue'.scaleOf commodity

namespace Catalogue

variable {catalogue catalogue' : Catalogue Rat}

theorem Comparable.symm (h : catalogue.Comparable catalogue') : catalogue'.Comparable catalogue :=
  fun commodity => (h commodity).symm

theorem comparable_of_dimensions (h : catalogue'.units.entries.map (fun e => (e.1, e.2.dimension)) =
    catalogue.units.entries.map fun e => (e.1, e.2.dimension)) : catalogue.Comparable catalogue' := by
  have hlookup : ∀ (l : List (String × Measure.Unit Rat)) (commodity : String),
      (l.lookup commodity).map (·.dimension) =
        (l.map fun e => (e.1, e.2.dimension)).lookup commodity := by
    intro l commodity
    induction l with
    | nil => rfl
    | cons e l ih =>
      rw [List.map_cons, List.lookup_cons, List.lookup_cons]
      split
      · rfl
      · exact ih
  intro commodity
  unfold Keyed.find?
  rw [hlookup, hlookup, h]

theorem Formed.scaleOf_pos (h : catalogue.Formed) (commodity : String) :
    0 < catalogue.scaleOf commodity := by
  unfold scaleOf
  cases hu : catalogue.units.find? commodity with
  | none => exact one_pos
  | some u => exact (h _ (Keyed.mem_of_find? hu)).scale_pos

variable (h : catalogue.Comparable catalogue') (hc : catalogue.Formed) (hc' : catalogue'.Formed)

include hc hc'

theorem factor_pos (commodity : String) : 0 < catalogue.factor catalogue' commodity :=
  div_pos (hc.scaleOf_pos commodity) (hc'.scaleOf_pos commodity)

include h

omit hc in
theorem Comparable.carries_unitOf (commodity : String) :
    Carries (Measure.Unit.Recounted (catalogue.factor catalogue' commodity))
      (catalogue.unitOf commodity) (catalogue'.unitOf commodity) := by
  intro u hu
  have hdimension := h commodity
  have hscale := scale_of_unitOf hu
  unfold unitOf at hu
  cases hfind : catalogue.units.find? commodity with
  | none => simp [hfind] at hu
  | some v =>
    simp only [hfind, Except.ok.injEq] at hu
    rw [hfind, Option.map_some] at hdimension
    obtain ⟨u', hu', hd⟩ := Option.map_eq_some_iff.1 hdimension
    have hunit : catalogue'.unitOf commodity = .ok u' := by
      unfold unitOf
      rw [hu']
    refine ⟨u', hunit, ?_, ?_⟩
    · rw [hd, hu]
    · rw [factor, scale_of_unitOf hunit, hscale,
        div_mul_cancel₀ _ (hc'.scaleOf_pos commodity).ne']

/-- A factor between two commodities changes with the units of both; a plain one is left as it is,
which is right only if both are the same. -/
theorem Comparable.carries_factorFrom {output source : String} {factor : Quantity Rat}
    (hf : factor.unit.isSome = true ∨ output = source) :
    Carries (fun q q' => q' * catalogue.factor catalogue' source =
        catalogue.factor catalogue' output * q)
      (Node.factorFrom catalogue output source factor)
      (Node.factorFrom catalogue' output source factor) := by
  have houtput := (factor_pos hc hc' output).ne'
  have hsource := (factor_pos hc hc' source).ne'
  refine ((h.carries_unitOf hc' output).mapError _).bind fun u u' hu => ?_
  refine ((h.carries_unitOf hc' source).mapError _).bind fun v v' hv => ?_
  refine ((hu.carries_div hv).mapError _).bind fun target target' htarget => ?_
  by_cases hunit : factor.unit.isSome = true
  · refine ((htarget.carries_magnitudeIn (div_ne_zero houtput hsource) hunit).mapError _).imp ?_
    intro q q' hq
    rw [hq, div_mul_eq_mul_div, div_mul_cancel₀ _ hsource]
  · have hnone : factor.unit = none := by simpa using hunit
    have hsame : output = source := hf.resolve_left hunit
    unfold Quantity.magnitudeIn
    rw [hnone]
    exact Carries.ok (by rw [hsame, mul_comm])

end Catalogue

end SupplyNet
