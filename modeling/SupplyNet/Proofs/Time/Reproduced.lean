import Mathlib
import SupplyNet.Proofs.Time.Range

/-!
Grids of given stamps. A grid counts its steps in whole milliseconds: it starts at the first of the
given stamps, and each of its later ones falls behind by what the distance has below a millisecond.
-/
set_option autoImplicit false

namespace SupplyNet

/-! ## Distances without leap seconds -/

theorem Stamp.leapFrom_of_plain {s : Stamp} (other : Stamp) (h : s.leap = false) :
    s.leapFrom other = 0 := by
  rw [leapFrom, if_neg (by simp [h])]

theorem Stamp.since_of_plain {a b : Stamp} (ha : a.leap = false) (hb : b.leap = false) :
    b.since a = b.nanos - a.nanos := by
  rw [since, leapFrom_of_plain a hb, leapFrom_of_plain b ha, add_zero, sub_zero]

theorem Time.stampAt_of_plain {start : Stamp} (h : start.leap = false) (step : Int) (i : Nat) :
    stampAt start step i =
      ⟨start.nanos + wholeMillis step * i * Stamp.nanosPerMilli, false⟩ := by
  rw [stampAt, Stamp.add, h, Bool.false_and]

/-- The whole milliseconds of a step leave out what is below a millisecond. -/
theorem Time.wholeMillis_mul {step : Int} (h : 0 ≤ step) :
    wholeMillis step * Stamp.nanosPerMilli = step - step % Stamp.nanosPerMilli := by
  rw [wholeMillis, Int.tdiv_eq_ediv_of_nonneg h, Int.mul_comm]
  have := Int.mul_ediv_add_emod step Stamp.nanosPerMilli
  omega

/-! ## Equally spaced stamps -/

/-- Stamps outside leap seconds that can be represented, each of them one step after the last. -/
structure EquallySpaced (step : Int) (stamps : List Stamp) : Prop where
  representable : ∀ s ∈ stamps, s.Representable
  plain : ∀ s ∈ stamps, s.leap = false
  apart : stamps.IsChain fun a b => b.nanos = a.nanos + step

theorem nanos_getElem_of_apart {step : Int} {stamps : List Stamp}
    (h : stamps.IsChain fun a b => b.nanos = a.nanos + step) {i : Nat} (hi : i < stamps.length) :
    stamps[i].nanos = stamps[0].nanos + step * i := by
  induction i with
  | zero => simp
  | succ i ih =>
    have hnext : stamps[i + 1].nanos = stamps[i].nanos + step := List.isChain_iff_getElem.1 h i hi
    rw [hnext, ih (by omega)]
    push_cast
    ring

theorem Grid.firstUneven?_eq_none_iff {step : Int} {stamps : List Stamp} :
    firstUneven? step stamps = none ↔ stamps.IsChain fun a b => b.since a = step := by
  induction stamps with
  | nil => simp [firstUneven?]
  | cons a r ih =>
    cases r with
    | nil => simp [firstUneven?]
    | cons b r =>
      rw [firstUneven?, List.isChain_cons_cons, ← ih]
      split_ifs with h
      · simp [h]
      · simp [h]

/-- Each stamp is earlier than the given one by what as many steps have below a millisecond. -/
def behind (step : Int) (stamps : List Stamp) : List Stamp :=
  stamps.mapIdx fun i s => ⟨s.nanos - step % Stamp.nanosPerMilli * i, false⟩

section EquallySpaced

variable {step : Int} {stamps : List Stamp}

theorem EquallySpaced.since_eq (h : EquallySpaced step stamps) :
    stamps.IsChain fun a b => b.since a = step := by
  rw [List.isChain_iff_getElem]
  intro i hi
  have hnext : stamps[i + 1].nanos = stamps[i].nanos + step :=
    List.isChain_iff_getElem.1 h.apart i hi
  rw [Stamp.since_of_plain (h.plain _ (List.getElem_mem _)) (h.plain _ (List.getElem_mem _)), hnext]
  omega

/-- The stamps of a grid lie between the first and the last of the given ones. -/
theorem EquallySpaced.representable_stampAt (h : EquallySpaced step stamps) (hstep : 0 ≤ step)
    {i : Nat} (hi : i < stamps.length) :
    (Time.stampAt stamps[0] step i).Representable := by
  obtain ⟨hfirst, -⟩ := h.representable stamps[0] (List.getElem_mem _)
  obtain ⟨-, hlast⟩ := h.representable stamps[i] (List.getElem_mem _)
  rw [nanos_getElem_of_apart h.apart hi] at hlast
  have hpace : 0 ≤ step - step % Stamp.nanosPerMilli ∧
      step - step % Stamp.nanosPerMilli ≤ step := by
    have hnonneg := Int.emod_nonneg step (show Stamp.nanosPerMilli ≠ 0 by decide)
    have hle := Int.mul_ediv_add_emod step Stamp.nanosPerMilli
    have hdiv := Int.ediv_nonneg hstep (show (0 : Int) ≤ Stamp.nanosPerMilli by decide)
    have hmul := mul_nonneg (show (0 : Int) ≤ Stamp.nanosPerMilli by decide) hdiv
    omega
  have hbelow := mul_nonneg hpace.1 (Int.natCast_nonneg i)
  have habove := mul_le_mul_of_nonneg_right hpace.2 (Int.natCast_nonneg i)
  rw [Time.stampAt_of_plain (h.plain _ (List.getElem_mem _)), mul_right_comm,
    Time.wholeMillis_mul hstep]
  constructor
  · show _ ≤ stamps[0].nanos + _
    omega
  · show stamps[0].nanos + _ < _
    omega

/-- The grid of equally spaced stamps has their start, their distance and their number. -/
theorem EquallySpaced.exists_grid (h : EquallySpaced step stamps)
    (hstep : Stamp.nanosPerSecond ≤ step) (htwo : 2 ≤ stamps.length) :
    ∃ g, Grid.ofStamps stamps = .ok g ∧ g.start = stamps[0] ∧ g.step = step ∧
      g.size = stamps.length := by
  have hpos : 0 < step := lt_of_lt_of_le (by decide) hstep
  match stamps, h, htwo with
  | first :: second :: rest, h, _ =>
    have hstart : first.Representable := h.representable first List.mem_cons_self
    have hdistance : second.since first = step := (List.isChain_cons_cons.1 h.since_eq).1
    have hends : (Time.stampAt first step
        ((first :: second :: rest).length - 1)).Representable :=
      h.representable_stampAt hpos.le (Nat.sub_lt (by simp) Nat.one_pos)
    refine ⟨⟨first, step, (first :: second :: rest).length, hstep, by simp, hends⟩, ?_, rfl, rfl, rfl⟩
    simp only [Grid.ofStamps, hdistance, Grid.firstUneven?_eq_none_iff.2 h.since_eq]
    exact (Grid.ofStep_eq_ok_iff hstart).2 ⟨rfl, rfl, rfl⟩

/-- The given stamps themselves fall behind by nothing, if there are two of them to tell. -/
theorem behind_eq_iff (htwo : 2 ≤ stamps.length) (hplain : ∀ s ∈ stamps, s.leap = false) :
    behind step stamps = stamps ↔ Stamp.nanosPerMilli ∣ step := by
  constructor
  · intro h
    have hsecond : (behind step stamps)[1]? = stamps[1]? := by rw [h]
    rw [behind, List.getElem?_mapIdx, List.getElem?_eq_getElem (by omega)] at hsecond
    have hnanos := congrArg Stamp.nanos (Option.some.inj hsecond)
    refine Int.dvd_of_emod_eq_zero ?_
    simpa using hnanos
  · intro h
    refine List.ext_getElem (List.length_mapIdx ..) fun i _ hi => ?_
    have hleap := hplain stamps[i] (List.getElem_mem _)
    simp only [behind, List.getElem_mapIdx, Int.emod_eq_zero_of_dvd h, zero_mul, sub_zero, ← hleap]

end EquallySpaced

/-! ## What a grid yields -/

section Yielded

variable {g : Grid} (hstart : g.start.Representable) (hplain : g.start.leap = false)

include hstart hplain

theorem Grid.getElem_stamps {i : Nat} (hi : i < g.stamps.length) : g.stamps[i] =
    ⟨g.start.nanos + (g.step - g.step % Stamp.nanosPerMilli) * i, false⟩ := by
  have hnonneg : 0 ≤ g.step := le_trans (by decide) g.step_ge
  rw [← Time.wholeMillis_mul hnonneg, mul_right_comm, ← Time.stampAt_of_plain hplain]
  simp [stamps_eq hstart, stamp]

theorem Grid.since_stamps : g.stamps.IsChain fun a b =>
    b.since a = g.step - g.step % Stamp.nanosPerMilli := by
  rw [List.isChain_iff_getElem]
  intro i hi
  rw [getElem_stamps hstart hplain, getElem_stamps hstart hplain, Stamp.since_of_plain rfl rfl]
  push_cast
  ring

end Yielded

theorem Grid.hours_eq (g : Grid) :
    (g.hours : Rat) = ((g.step - g.step % Stamp.nanosPerMilli : Int) : Rat) / (hour : Int) := by
  have hnonneg : 0 ≤ g.step := le_trans (by decide) g.step_ge
  have hhours : (g.hours : Rat) = (Time.wholeMillis g.step : Int) / (3.6e6 : Rat) := rfl
  have hhour : ((hour : Int) : Rat) = 3.6e6 * (Stamp.nanosPerMilli : Int) := by
    norm_num [hour, Stamp.nanosPerMilli, Stamp.nanosPerSecond]
  have hmilli : ((Stamp.nanosPerMilli : Int) : Rat) ≠ 0 := by norm_num [Stamp.nanosPerMilli]
  rw [hhours, ← Time.wholeMillis_mul hnonneg, hhour, Int.cast_mul, mul_div_mul_right _ _ hmilli]

/-- Stamps at least a second apart make a grid of their distance. It yields as many stamps, from the
first one on and with whole milliseconds between them, and a step of it has the hours between two of
those. It yields the given stamps exactly if they are whole milliseconds apart, and then they are its
step apart. -/
theorem Grid.reproduced_iff {stamps : List Stamp} {step : Int} (htwo : 2 ≤ stamps.length)
    (hstep : Stamp.nanosPerSecond ≤ step) (h : EquallySpaced step stamps) :
    ∃ g, ofStamps stamps = .ok g ∧ g.step = step ∧
      (∀ s ∈ g.stamps, s.Representable) ∧
      g.stamps = behind step stamps ∧
      (g.stamps.IsChain fun a b => b.since a = step - step % Stamp.nanosPerMilli) ∧
      (g.hours : Rat) = ((step - step % Stamp.nanosPerMilli : Int) : Rat) / (hour : Int) ∧
      (g.stamps = stamps ↔ Stamp.nanosPerMilli ∣ step) ∧
      (g.stamps = stamps → g.stamps.IsChain fun a b => b.since a = g.step) := by
  obtain ⟨g, hg, hstart, hgstep, hsize⟩ := h.exists_grid hstep htwo
  have hrange : g.start.Representable := by
    rw [hstart]
    exact h.representable _ (List.getElem_mem _)
  have hplain : g.start.leap = false := by
    rw [hstart]
    exact h.plain _ (List.getElem_mem _)
  have hstamps : g.stamps = behind step stamps := by
    refine List.ext_getElem (by rw [length_stamps hrange, hsize, behind, List.length_mapIdx]) ?_
    intro i hi hi'
    have hlt : i < stamps.length := by rwa [length_stamps hrange, hsize] at hi
    simp only [getElem_stamps hrange hplain, behind, List.getElem_mapIdx, hstart, hgstep,
      nanos_getElem_of_apart h.apart hlt, Stamp.mk.injEq, and_true]
    ring
  have hchain := since_stamps hrange hplain
  have hhours := g.hours_eq
  rw [hgstep] at hchain hhours
  refine ⟨g, hg, hgstep, ?_, hstamps, hchain, hhours, ?_, ?_⟩
  · intro s hs
    rw [stamps_eq hrange] at hs
    obtain ⟨i, hi, rfl⟩ := List.mem_map.1 hs
    rw [stamp, hstart, hgstep]
    exact h.representable_stampAt (le_trans (by decide) hstep) (hsize ▸ List.mem_range.1 hi)
  · rw [hstamps]
    exact behind_eq_iff htwo h.plain
  · intro heq
    rw [heq, hgstep]
    exact h.since_eq

/-- The start of 2020, and one and a half seconds and three seconds after it. -/
def stopwatchStamps : List Stamp :=
  [.ofDate ⟨2020, 1, 1⟩ 0 0 0 0, .ofDate ⟨2020, 1, 1⟩ 0 0 1 500000000, .ofDate ⟨2020, 1, 1⟩ 0 0 3 0]

theorem equallySpaced_stopwatchStamps : EquallySpaced 1500000000 stopwatchStamps where
  representable := by decide
  plain := by decide
  apart := by decide

theorem Grid.reproduced_stopwatchStamps : 2 ≤ stopwatchStamps.length ∧
    Stamp.nanosPerSecond ≤ 1500000000 ∧ EquallySpaced 1500000000 stopwatchStamps ∧
    ∃ g, ofStamps stopwatchStamps = .ok g ∧ g.step = 1500000000 ∧ g.stamps = stopwatchStamps ∧
      (g.stamps.IsChain fun a b => b.since a = g.step) ∧ (g.hours : Rat) = 1 / 2400 := by
  refine ⟨by decide, by decide, equallySpaced_stopwatchStamps, ?_⟩
  obtain ⟨g, hg, hgstep, -, -, -, hhours, hiff, hstep⟩ :=
    reproduced_iff (by decide) (by decide) equallySpaced_stopwatchStamps
  have hstamps : g.stamps = stopwatchStamps := hiff.2 (by decide)
  refine ⟨g, hg, hgstep, hstamps, hstep hstamps, hhours.trans ?_⟩
  norm_num [hour, Stamp.nanosPerSecond, Stamp.nanosPerMilli]

/-- The start of 2020, and a second and half a microsecond after it. -/
def lateStamps : List Stamp :=
  [.ofDate ⟨2020, 1, 1⟩ 0 0 0 0, .ofDate ⟨2020, 1, 1⟩ 0 0 1 500]

/-- Half a microsecond below the last millisecond is left out of the stamps, but not of the step. -/
theorem Grid.not_reproduced_lateStamps : 2 ≤ lateStamps.length ∧
    Stamp.nanosPerSecond ≤ 1000000500 ∧ EquallySpaced 1000000500 lateStamps ∧
    ∃ g, ofStamps lateStamps = .ok g ∧ g.stamps ≠ lateStamps ∧
      ¬g.stamps.IsChain fun a b => b.since a = g.step :=
  ⟨by decide, by decide, ⟨by decide, by decide, by decide⟩,
    ⟨_, 1000000500, 2, by decide, by decide, by decide⟩, rfl, by decide, by decide⟩

end SupplyNet
