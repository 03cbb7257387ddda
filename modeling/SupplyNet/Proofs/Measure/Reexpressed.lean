import Mathlib
import SupplyNet.Proofs.Measure.Conversion
import SupplyNet.Proofs.Related
import SupplyNet.Time.Series

/-!
Quantities and series that were converted to another unit. They have the same sign as before and
come to the same in every further unit.
-/
set_option autoImplicit false

namespace SupplyNet

/-- The quantity as it is or in another unit. -/
def Quantity.Reexpressed (q q' : Quantity Rat) : Prop :=
  q' = q ∨ ∃ v u : Measure.Unit Rat, q.unit = some v ∧ v.Formed ∧ u.Formed ∧ q.convert u = .ok q'

namespace Quantity.Reexpressed

variable {q q' : Quantity Rat}

theorem refl (q : Quantity Rat) : q.Reexpressed q := .inl rfl

/-- A magnitude was multiplied by a positive factor, which the new unit makes up for. -/
theorem exists_factor (h : q.Reexpressed q') : q' = q ∨ ∃ v u : Measure.Unit Rat,
    q.unit = some v ∧ q'.unit = some u ∧ v.Formed ∧ u.Formed ∧ v.dimension = u.dimension ∧
      q'.magnitude = q.magnitude * (v.scale / u.scale) := by
  refine h.imp_right ?_
  rintro ⟨v, u, hv, hvf, huf, hc⟩
  obtain ⟨hm, hu⟩ := convert_eq_ok_iff.1 hc
  obtain ⟨hd, hm⟩ := (magnitudeIn_eq_ok_iff hv).1 hm
  exact ⟨v, u, hv, hu, hvf, huf, hd, hm.symm⟩

theorem isSome_unit (h : q.Reexpressed q') : q'.unit.isSome = q.unit.isSome := by
  rcases h.exists_factor with rfl | ⟨v, u, hv, hu, -⟩
  · rfl
  · rw [hv, hu]
    rfl

theorem exists_pos_mul (h : q.Reexpressed q') :
    ∃ k : Rat, 0 < k ∧ q'.magnitude = q.magnitude * k := by
  rcases h.exists_factor with rfl | ⟨v, u, -, -, hv, hu, -, hm⟩
  · exact ⟨1, one_pos, (mul_one _).symm⟩
  · exact ⟨_, div_pos hv.scale_pos hu.scale_pos, hm⟩

theorem neg_iff (h : q.Reexpressed q') : q'.magnitude < 0 ↔ q.magnitude < 0 := by
  obtain ⟨k, hk, hm⟩ := h.exists_pos_mul
  rw [hm, ← not_le, ← not_le, mul_nonneg_iff_of_pos_right hk]

theorem pos_iff (h : q.Reexpressed q') : 0 < q'.magnitude ↔ 0 < q.magnitude := by
  obtain ⟨k, hk, hm⟩ := h.exists_pos_mul
  rw [hm, mul_pos_iff_of_pos_right hk]

theorem eq_zero_iff (h : q.Reexpressed q') : q'.magnitude = 0 ↔ q.magnitude = 0 := by
  obtain ⟨k, hk, hm⟩ := h.exists_pos_mul
  rw [hm, mul_eq_zero_iff_right hk.ne']

theorem symm (h : q.Reexpressed q') : q'.Reexpressed q := by
  rcases h.exists_factor with rfl | ⟨v, u, hv, hu, hvf, huf, hd, hm⟩
  · exact refl q'
  · refine .inr ⟨u, v, hu, huf, hvf, convert_eq_ok_iff.2 ⟨?_, hv⟩⟩
    rw [magnitudeIn_eq_ok_iff hu, hm, mul_assoc, div_mul_div_cancel₀ huf.scale_pos.ne',
      div_self hvf.scale_pos.ne', mul_one]
    exact ⟨hd.symm, rfl⟩

theorem carries_magnitudeIn (h : q.Reexpressed q') (target : Measure.Unit Rat) :
    Carries Eq (q.magnitudeIn target) (q'.magnitudeIn target) := by
  intro r hr
  rcases h with rfl | ⟨v, u, hv, -, hu, hc⟩
  · exact ⟨r, hr, rfl⟩
  · exact ⟨r, (magnitudeIn_of_convert hv hu hc target r).2 hr, rfl⟩

end Quantity.Reexpressed

/-! ## Series -/

/-- The series as it is or with its values in another unit. -/
def Series.Reexpressed (s s' : Series Rat) : Prop :=
  s' = s ∨ s'.grid = s.grid ∧ ∃ v u : Measure.Unit Rat, s.unit = some v ∧ v.Formed ∧ u.Formed ∧
    s'.unit = some u ∧ s.valuesIn u = .ok s'.values

namespace Series

theorem valuesIn_eq_ok_iff {s : Series Rat} {u v : Measure.Unit Rat} {values : List Rat}
    (hs : s.unit = some v) : s.valuesIn u = .ok values ↔
      v.dimension = u.dimension ∧ s.values.map (· * (v.scale / u.scale)) = values := by
  unfold valuesIn
  rw [hs, bind_eq_ok_iff]
  simp only [Measure.Unit.ratio_eq_ok_iff]
  constructor
  · rintro ⟨f, ⟨hd, rfl⟩, h⟩
    exact ⟨hd, Except.ok.inj h⟩
  · rintro ⟨hd, rfl⟩
    exact ⟨_, ⟨hd, rfl⟩, rfl⟩

namespace Reexpressed

variable {s s' : Series Rat}

theorem refl (s : Series Rat) : s.Reexpressed s := .inl rfl

theorem grid_eq (h : s.Reexpressed s') : s'.grid = s.grid := by
  rcases h with rfl | ⟨hg, -⟩
  · rfl
  · exact hg

theorem carries_valuesIn (h : s.Reexpressed s') (target : Measure.Unit Rat) :
    Carries Eq (s.valuesIn target) (s'.valuesIn target) := by
  intro values hvalues
  refine ⟨values, ?_, rfl⟩
  rcases h with rfl | ⟨-, v, u, hv, -, hu, hs', hc⟩
  · exact hvalues
  · obtain ⟨hd, hc⟩ := (valuesIn_eq_ok_iff hv).1 hc
    obtain ⟨hdt, rfl⟩ := (valuesIn_eq_ok_iff hv).1 hvalues
    refine (valuesIn_eq_ok_iff hs').2 ⟨hd.symm.trans hdt, ?_⟩
    rw [← hc, List.map_map]
    refine List.map_congr_left fun x _ => ?_
    rw [Function.comp_apply, mul_assoc, div_mul_div_cancel₀ hu.scale_pos.ne']

theorem symm (h : s.Reexpressed s') : s'.Reexpressed s := by
  rcases h with rfl | ⟨hg, v, u, hv, hvf, huf, hs', hc⟩
  · exact refl s'
  · refine .inr ⟨hg.symm, u, v, hs', huf, hvf, hv, ?_⟩
    have hown : s.valuesIn v = .ok s.values := by
      refine (valuesIn_eq_ok_iff hv).2 ⟨rfl, ?_⟩
      rw [div_self hvf.scale_pos.ne']
      simp
    obtain ⟨values, hvalues, rfl⟩ := carries_valuesIn
      (.inr ⟨hg, v, u, hv, hvf, huf, hs', hc⟩) v _ hown
    exact hvalues

end Reexpressed

end Series

end SupplyNet
