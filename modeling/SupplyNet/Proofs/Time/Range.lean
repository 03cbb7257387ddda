import Mathlib
import SupplyNet.Time.Grid

/-!
Grids in the range of the stamps that can be represented. Steps and milliseconds are counted in
words of 64 bits, and the range is so short that only a stamp outside of it could need a longer
count. So a step, a number of stamps and a start make a grid exactly if the last stamp is in range,
and then all stamps before it are in range as well: the grid yields every one of them.
-/
set_option autoImplicit false

namespace SupplyNet

/-! ## The range -/

section Range

variable {a b s : Stamp}

theorem Stamp.representable_of_between (ha : a.Representable) (hb : b.Representable)
    (has : a.nanos ≤ s.nanos) (hsb : s.nanos ≤ b.nanos) : s.Representable :=
  ⟨ha.1.trans has, hsb.trans_lt hb.2⟩

/-- The whole range is shorter than the milliseconds that a word can count. -/
theorem Stamp.sub_lt_of_representable (ha : a.Representable) (hb : b.Representable) :
    b.nanos - a.nanos < Int64.maxValue.toInt * nanosPerMilli := by
  have hrange : (startOfYear (lastYear + 1)).nanos - (startOfYear firstYear).nanos <
      Int64.maxValue.toInt * nanosPerMilli := by decide
  have hfirst := ha.1
  have hlast := hb.2
  omega

theorem Stamp.startOfYear_le {year year' : Int} (h : year ≤ year') :
    (startOfYear year).nanos ≤ (startOfYear year').nanos := by
  have hdays : Time.Date.toDays ⟨year, 1, 1⟩ ≤ Time.Date.toDays ⟨year', 1, 1⟩ := by
    simp only [Time.Date.toDays, Int.fdiv_eq_ediv]
    omega
  simp only [startOfYear, ofDate, nanosPerDay, nanosPerSecond]
  omega

theorem Stamp.representable_startOfYear {year : Int} (hfirst : firstYear ≤ year)
    (hlast : year ≤ lastYear) : (startOfYear year).Representable := by
  have hends : (startOfYear firstYear).Representable ∧ (startOfYear lastYear).Representable := by
    decide
  exact representable_of_between hends.1 hends.2 (startOfYear_le hfirst) (startOfYear_le hlast)

end Range

/-- A stamp is before those of later seconds. In one second, the leap second comes last. -/
def Stamp.Before (s t : Stamp) : Prop :=
  s.nanos / nanosPerSecond < t.nanos / nanosPerSecond ∨
    s.nanos / nanosPerSecond = t.nanos / nanosPerSecond ∧
      (s.leap < t.leap ∨ s.leap = t.leap ∧ s.nanos < t.nanos)

/-! ## Counting in words -/

section Words

variable {start : Stamp} {step : Int} {i : Nat} (hstep : Stamp.nanosPerSecond ≤ step)

include hstep

theorem Time.thousand_le_wholeMillis : 1000 ≤ wholeMillis step := by
  simp only [Stamp.nanosPerSecond] at hstep
  rw [wholeMillis, Int.tdiv_eq_ediv_of_nonneg (by omega)]
  simp only [Stamp.nanosPerMilli]
  omega

/-- Later stamps are later by a second at least. -/
theorem Time.nanos_stampAt_lt {j : Nat} (h : i < j) :
    (stampAt start step i).nanos + Stamp.nanosPerSecond ≤ (stampAt start step j).nanos := by
  have hmillis := thousand_le_wholeMillis hstep
  have hcount : wholeMillis step * (i + 1) ≤ wholeMillis step * j :=
    mul_le_mul_of_nonneg_left (by exact_mod_cast h) (by omega)
  rw [mul_add, mul_one] at hcount
  simp only [stampAt, Stamp.add, Stamp.nanosPerMilli, Stamp.nanosPerSecond]
  omega

theorem Time.nanos_stampAt_le {j : Nat} (h : i ≤ j) :
    (stampAt start step i).nanos ≤ (stampAt start step j).nanos := by
  rcases h.eq_or_lt with rfl | h
  · exact le_rfl
  · exact (le_add_of_nonneg_right (by decide)).trans (nanos_stampAt_lt hstep h)

variable (hstart : start.Representable)

include hstart

theorem Time.inWord_of_representable (h : (stampAt start step i).Representable) :
    InWord i ∧ InWord (wholeMillis step * i) := by
  have hmillis := thousand_le_wholeMillis hstep
  -- Every step is longer than a millisecond, so the milliseconds bound the number of steps as well.
  have hcount : (i : Int) ≤ wholeMillis step * i :=
    le_mul_of_one_le_left (Int.natCast_nonneg i) (by omega)
  have hspan := Stamp.sub_lt_of_representable hstart h
  simp only [stampAt, Stamp.add, Stamp.nanosPerMilli] at hspan
  simp only [InWord, Int64.toInt_minValue, Int64.toInt_maxValue] at hspan ⊢
  omega

/-- Nothing but the range keeps a stamp from being found. -/
theorem Time.isSome_stampAt?_iff :
    (stampAt? start step i).isSome = true ↔ (stampAt start step i).Representable := by
  refine ⟨representable_of_isSome, fun h => Option.isSome_iff_exists.2 ⟨stampAt start step i, ?_⟩⟩
  obtain ⟨hcount, hmillis⟩ := inWord_of_representable hstep hstart h
  exact stampAt?_eq_some_iff.2 ⟨hcount, hmillis, h, rfl⟩

/-- All stamps up to one in range are found. -/
theorem Time.stampAt?_of_le {n : Nat} (hn : (stampAt start step n).Representable) (hi : i ≤ n) :
    stampAt? start step i = some (stampAt start step i) := by
  have hlower : start.nanos ≤ (stampAt start step i).nanos := by
    have h : (stampAt start step 0).nanos ≤ _ := nanos_stampAt_le hstep (Nat.zero_le i)
    simpa [stampAt, Stamp.add] using h
  have hrange : (stampAt start step i).Representable :=
    Stamp.representable_of_between hstart hn hlower (nanos_stampAt_le hstep hi)
  obtain ⟨s, hs⟩ := Option.isSome_iff_exists.1 ((isSome_stampAt?_iff hstep hstart).2 hrange)
  rw [hs, (stampAt?_eq_some_iff.1 hs).2.2.2]

end Words

/-! ## Grids -/

namespace Grid

theorem mapWhile_eq_map {α β : Type} {f : α → Option β} {g : α → β} {l : List α}
    (h : ∀ a ∈ l, f a = some (g a)) : mapWhile f l = l.map g := by
  induction l with
  | nil => rfl
  | cons a l ih =>
    obtain ⟨ha, hl⟩ := List.forall_mem_cons.1 h
    rw [mapWhile, ha, List.map_cons, ← ih hl]

section Stamps

variable {g : Grid} (hstart : g.start.Representable)

include hstart

theorem stamps_eq : g.stamps = (List.range g.size).map g.stamp := by
  refine mapWhile_eq_map fun i hi => ?_
  have hlast : i ≤ g.size - 1 := Nat.le_pred_of_lt (List.mem_range.1 hi)
  exact Time.stampAt?_of_le g.step_ge hstart g.ends hlast

theorem length_stamps : g.stamps.length = g.size := by
  rw [stamps_eq hstart, List.length_map, List.length_range]

end Stamps

/-- From a start in range, a grid is made of whatever a grid can be made of. -/
theorem ofStep_eq_ok_iff {start : Stamp} {step : Int} {size : Nat} {g : Grid}
    (hstart : start.Representable) :
    ofStep start step size = .ok g ↔ g.start = start ∧ g.step = step ∧ g.size = size := by
  constructor
  · intro h
    unfold ofStep at h
    split_ifs at h
    obtain rfl := Except.ok.inj h
    exact ⟨rfl, rfl, rfl⟩
  · rintro ⟨rfl, rfl, rfl⟩
    have hpos : ¬g.step ≤ 0 := (lt_of_lt_of_le (by decide) g.step_ge).not_ge
    rw [ofStep, if_neg hpos, dif_neg g.step_ge.not_gt, dif_neg g.size_pos.ne',
      dif_pos ((Time.isSome_stampAt?_iff g.step_ge hstart).2 g.ends)]

/-! ## Grids made of stamps in range -/

/-- The grids that can be made, by any constructor, of stamps that can be represented. -/
inductive Made : Grid → Prop
  | standard : Made .standard
  | ofStep {start : Stamp} {step : Int} {size : Nat} {g : Grid} (hstart : start.Representable)
      (h : ofStep start step size = .ok g) : Made g
  | hourly {year : Int} {size : Nat} {g : Grid} (h : hourly year size = .ok g) : Made g
  | ofStamps {stamps : List Stamp} {g : Grid} (hstamps : ∀ s ∈ stamps, s.Representable)
      (h : ofStamps stamps = .ok g) : Made g

theorem Made.representable {g : Grid} (h : Made g) : g.start.Representable := by
  cases h with
  | standard => exact Stamp.representable_startOfYear (by decide) (by decide)
  | ofStep hstart h => exact ((ofStep_eq_ok_iff hstart).1 h).1 ▸ hstart
  | hourly h =>
    unfold Grid.hourly at h
    split_ifs at h with hyear
    have hstart := Stamp.representable_startOfYear hyear.1 hyear.2
    exact ((ofStep_eq_ok_iff hstart).1 h).1 ▸ hstart
  | ofStamps hstamps h =>
    unfold Grid.ofStamps at h
    split at h
    · next first second rest =>
      dsimp only at h
      split at h
      · exact absurd h (by simp)
      · have hstart := hstamps first List.mem_cons_self
        exact ((ofStep_eq_ok_iff hstart).1 h).1 ▸ hstart
    · exact absurd h (by simp)

theorem pairwise_stamps {g : Grid} (hstart : g.start.Representable) :
    g.stamps.Pairwise Stamp.Before := by
  rw [stamps_eq hstart, List.pairwise_map]
  -- Stamps are a second apart at least, so leap seconds need not be compared.
  refine List.pairwise_lt_range.imp fun {i j} h => Or.inl ?_
  have hlater : (g.stamp i).nanos + Stamp.nanosPerSecond ≤ (g.stamp j).nanos :=
    Time.nanos_stampAt_lt g.step_ge h
  simp only [Stamp.nanosPerSecond] at hlater ⊢
  omega

theorem hours_pos (grid : Grid) : (0 : Rat) < grid.hours := by
  have hmillis : 0 < grid.stepMillis :=
    lt_of_lt_of_le (by decide) (Time.thousand_le_wholeMillis grid.step_ge)
  have hcast : (0 : Rat) < Scalar.ofInt grid.stepMillis := Int.cast_pos.2 hmillis
  exact div_pos hcast (by norm_num)

/-- From a start in range, a grid of so many stamps is made exactly if its step is a second or more,
it has a stamp, and the last stamp is in range, however it is computed. Every grid that is made of
stamps in range yields as many stamps as it has, each of them as many steps in whole milliseconds
after the start, and each before the next ones. -/
theorem fits_iff_and_enumerates :
    (∀ (start : Stamp) (step : Int) (size : Nat), start.Representable →
      ((∃ g, ofStep start step size = .ok g ∧ g.start = start ∧ g.step = step ∧ g.size = size) ↔
        Stamp.nanosPerSecond ≤ step ∧ 1 ≤ size ∧
          (start.add (Time.wholeMillis step * ((size : Int) - 1) *
            Stamp.nanosPerMilli)).Representable)) ∧
    ∀ g : Grid, Made g → g.stamps.length = g.size ∧
      (∀ i < g.size, g.stamps[i]? =
        some (g.start.add (Time.wholeMillis g.step * i * Stamp.nanosPerMilli))) ∧
      g.stamps.Pairwise Stamp.Before ∧ 0 < (g.hours : Rat) := by
  refine ⟨fun start step size hstart => ?_, fun g hg => ?_⟩
  · constructor
    · rintro ⟨g, -, rfl, rfl, rfl⟩
      have hends := g.ends
      rw [Time.stampAt, Nat.cast_sub g.size_pos, Nat.cast_one] at hends
      exact ⟨g.step_ge, g.size_pos, hends⟩
    · rintro ⟨hstep, hsize, hends⟩
      rw [← Nat.cast_one, ← Nat.cast_sub hsize] at hends
      exact ⟨⟨start, step, size, hstep, hsize, hends⟩,
        (ofStep_eq_ok_iff hstart).2 ⟨rfl, rfl, rfl⟩, rfl, rfl, rfl⟩
  · have hstart := hg.representable
    refine ⟨length_stamps hstart, fun i hi => ?_, pairwise_stamps hstart, g.hours_pos⟩
    rw [stamps_eq hstart, List.getElem?_map, List.getElem?_range hi]
    rfl

/-- The last year that can be represented has no more than its 8760 hours. -/
theorem fits_lastYear : (Stamp.startOfYear Stamp.lastYear).Representable ∧
    (∃ g, ofStep (.startOfYear Stamp.lastYear) hour 8760 = .ok g ∧ Made g ∧
      g.stamps.length = 8760 ∧ g.stamps.Pairwise Stamp.Before) ∧
    ¬∃ g, ofStep (.startOfYear Stamp.lastYear) hour 8761 = .ok g ∧
      g.start = .startOfYear Stamp.lastYear ∧ g.step = hour ∧ g.size = 8761 := by
  have hstart : (Stamp.startOfYear Stamp.lastYear).Representable := by decide
  obtain ⟨hfits, hyields⟩ := fits_iff_and_enumerates
  obtain ⟨g, hg, -, -, hsize⟩ := (hfits _ hour 8760 hstart).2 (by decide)
  have hmade : Made g := .ofStep hstart hg
  obtain ⟨hlength, -, hpairwise, -⟩ := hyields g hmade
  refine ⟨hstart, ⟨g, hg, hmade, hlength.trans hsize, hpairwise⟩, fun h => ?_⟩
  exact absurd ((hfits _ hour 8761 hstart).1 h) (by decide)

end Grid

end SupplyNet
