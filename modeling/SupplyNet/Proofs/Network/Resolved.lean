import Mathlib
import SupplyNet.Proofs.Keyed
import SupplyNet.Proofs.Network.Streams

/-!
Resolved commodities. Once the commodities of a node are settled, each of its flows has one with a
unit, each output commodity has its conversion from an input commodity, and each ratio has flows
that share it.
-/
set_option autoImplicit false

namespace SupplyNet

variable {K : Type} [Scalar K]

theorem distinct_eq_nil_iff {l : List String} : distinct l = [] ↔ l = [] := by
  constructor
  · intro h
    rw [List.eq_nil_iff_forall_not_mem] at h ⊢
    exact fun a ha => h a (mem_distinct.2 ha)
  · rintro rfl
    rfl

theorem Keyed.exists_of_mem_keys {α : Type} {m : Keyed α} {key : String} (h : key ∈ m.keys) :
    ∃ a, m.find? key = some a := by
  have hl : ∀ l : List (String × α), key ∈ l.map Prod.fst → ∃ a, l.lookup key = some a := by
    intro l hl
    induction l with
    | nil => exact absurd hl List.not_mem_nil
    | cons e r ih =>
      rw [List.lookup_cons]
      by_cases he : key = e.1
      · exact ⟨e.2, by simp [he]⟩
      · rw [beq_eq_false_iff_ne.2 he]
        exact ih (by simpa [he] using hl)
  exact hl m.entries h

/-- Entries under one key are one entry. -/
theorem Keyed.entries_eq_singleton {α : Type} {m : Keyed α} {key : String}
    (h : ∀ e ∈ m.entries, e.1 = key) {e : String × α} (he : e ∈ m.entries) : m.entries = [e] := by
  obtain ⟨entries, hascending⟩ := m
  match entries with
  | [] => exact absurd he List.not_mem_nil
  | [a] => rw [List.mem_singleton.1 he]
  | a :: b :: r =>
    have hlt := (List.pairwise_cons.1 hascending).1 b List.mem_cons_self
    rw [h a List.mem_cons_self, h b (List.mem_cons_of_mem a List.mem_cons_self)] at hlt
    exact absurd hlt (lt_irrefl key)

namespace Node

omit [Scalar K] in
/-- If the keys of some ratios are the commodities or the neighbours of some streams, then each key
has a stream. -/
theorem sharing_ne_nil {streams : List (Stream K)} {keys neighbours : List String}
    (hkeys : keys = distinct (streams.map (·.commodity)) ∨ keys = distinct neighbours)
    (hneighbours : ∀ name ∈ neighbours, ∃ s ∈ streams, s.neighbour = some name) {key : String}
    (hkey : key ∈ keys) :
    sharing streams (keys = distinct (streams.map (·.commodity))) key ≠ [] := by
  unfold sharing
  by_cases hcommodity : keys = distinct (streams.map (·.commodity))
  · rw [hcommodity, mem_distinct] at hkey
    obtain ⟨s, hs, rfl⟩ := List.mem_map.1 hkey
    exact List.ne_nil_of_mem (List.mem_filter.2 ⟨hs, by simp [hcommodity]⟩)
  · rw [hkeys.resolve_left hcommodity, mem_distinct] at hkey
    obtain ⟨s, hs, hname⟩ := hneighbours key hkey
    exact List.ne_nil_of_mem (List.mem_filter.2 ⟨hs, by simp [hcommodity, hname]⟩)

/-- The only one of some commodities is one of them. -/
theorem single?_eq_some_iff {l : List String} {commodity : String} :
    single? l = some commodity ↔ distinct l = [commodity] := by
  unfold single?
  split
  · next a h => rw [h]; simp
  · next h => simpa using h commodity

/-- The commodity out of nowhere is what the conversions have in common, or what goes out. -/
theorem leafInput_eq_ok {n : Node K} {outflow : List String} {commodity : String}
    (h : n.leafInput outflow = .ok commodity) {conversions : Keyed (Conversion K)}
    (hc : n.conversions = some conversions) :
    distinct (conversions.values.map (·.source)) = [commodity] ∨
      (∀ source, distinct (conversions.values.map (·.source)) ≠ [source]) ∧
        distinct outflow = [commodity] := by
  unfold leafInput at h
  rw [hc] at h
  dsimp only at h
  cases hs : single? (conversions.values.map (·.source)) with
  | some source =>
    rw [hs] at h
    rw [← Except.ok.inj h]
    exact .inl (single?_eq_some_iff.1 hs)
  | none =>
    have hnot : ∀ source, distinct (conversions.values.map (·.source)) ≠ [source] := by
      intro source hsource
      rw [single?_eq_some_iff.2 hsource] at hs
      cases hs
    rw [hs] at h
    cases ho : single? outflow with
    | some commodity' =>
      rw [ho] at h
      rw [← Except.ok.inj h]
      exact .inr ⟨hnot, single?_eq_some_iff.1 ho⟩
    | none =>
      rw [ho] at h
      cases h

section Settled

variable {n : Node K} {catalogue : Catalogue K} {served : List Outlet} {c : NodeCommodities}
variable (hc : n.settle catalogue served = .ok c)

include hc

theorem outflow_ne_nil : c.outflow ≠ [] := by
  by_cases hs : served = []
  · obtain ⟨commodity, -, ho⟩ := outflow_of_leaf hc hs
    simp [ho]
  · rw [outflow_of_served hc hs]
    simpa using hs

theorem inflow_eq_inputCommodities (h : n.inputCommodities ≠ []) :
    c.inflow = n.inputCommodities := by
  have hi := inflow_eq_ok_iff.1 (settle_eq_ok_iff.1 hc).2.1
  rwa [if_neg h] at hi

theorem inflow_eq_leafInput (h : n.inputCommodities = []) :
    ∃ commodity, n.leafInput c.outflow = .ok commodity ∧ c.inflow = [commodity] := by
  have hi := inflow_eq_ok_iff.1 (settle_eq_ok_iff.1 hc).2.1
  rwa [if_pos h] at hi

theorem inflow_ne_nil : c.inflow ≠ [] := by
  by_cases h : n.inputCommodities = []
  · obtain ⟨commodity, -, hi⟩ := inflow_eq_leafInput hc h
    simp [hi]
  · rwa [inflow_eq_inputCommodities hc h]

/-- There is a commodity for each input, or one for what comes out of nowhere. -/
theorem length_inflow : c.inflow.length = max 1 n.inputs.length := by
  unfold inputs
  rw [List.length_map]
  by_cases hi : n.inlets = []
  · obtain ⟨commodity, hin⟩ := inflow_of_leaf hc hi
    rw [hin, hi]
    rfl
  · rw [inflow_of_inlets hc hi, List.length_map, max_eq_right (List.length_pos_of_ne_nil hi)]

/-- There is a commodity for each outlet, or one for what goes nowhere. -/
theorem length_outflow : c.outflow.length = max 1 served.length := by
  by_cases hs : served = []
  · obtain ⟨commodity, -, ho⟩ := outflow_of_leaf hc hs
    rw [ho, hs]
    rfl
  · rw [outflow_of_served hc hs, List.length_map, max_eq_right (List.length_pos_of_ne_nil hs)]

/-- Input commodities that differ are those of the inputs. -/
theorem mixed_of_inflow (h : ∀ source, distinct c.inflow ≠ [source]) :
    1 < (distinct n.inputCommodities).length := by
  have hne : n.inputCommodities ≠ [] := by
    intro hnil
    obtain ⟨commodity, -, hi⟩ := inflow_eq_leafInput hc hnil
    exact h commodity (by rw [hi]; rfl)
  rw [inflow_eq_inputCommodities hc hne] at h
  have hpos : (distinct n.inputCommodities).length ≠ 0 := by
    rwa [Ne, List.length_eq_zero_iff, distinct_eq_nil_iff]
  have hone : (distinct n.inputCommodities).length ≠ 1 := by
    intro hlength
    obtain ⟨source, hsource⟩ := List.length_eq_one_iff.1 hlength
    exact h source hsource
  omega

theorem exists_unit {commodity : String} (h : commodity ∈ c.inflow ∨ commodity ∈ c.outflow) :
    ∃ unit, catalogue.unitOf commodity = .ok unit :=
  (commodities_eq_ok_iff.1 (settle_eq_ok_iff.1 hc).2.2).2.2.1 commodity (List.mem_append.2 h)

/-- Where a size counts, there is a commodity that it counts. -/
theorem exists_sizeCommodity (h : n.hasSize = true ∨ n.storage.isSome = true) :
    ∃ commodity ∈ c.outflow, c.size = some commodity := by
  obtain ⟨-, -, -, size, hsize, hsettled⟩ := commodities_eq_ok_iff.1 (settle_eq_ok_iff.1 hc).2.2
  rw [show c.size = size from congrArg NodeCommodities.size hsettled]
  unfold sizeCommodityAmong at hsize
  rw [if_pos (by simpa using h)] at hsize
  split at hsize
  · next declared _ =>
    split at hsize
    · next hmem =>
      exact ⟨declared, mem_distinct.1 (by simpa using hmem), (Except.ok.inj hsize).symm⟩
    · cases hsize
  · next commodity _ hone =>
    exact ⟨commodity, mem_distinct.1 (by simp [hone]), (Except.ok.inj hsize).symm⟩
  · cases hsize

/-- The conversions of a node are into its output commodities. -/
theorem keys_conversions {conversions : Keyed (Conversion K)}
    (h : n.conversions = some conversions) (commodity : String) :
    commodity ∈ conversions.keys ↔ commodity ∈ c.outflow := by
  have hfault := (commodities_eq_ok_iff.1 (settle_eq_ok_iff.1 hc).2.2).1
  unfold conversionFault at hfault
  split at hfault
  · cases hfault
  split at hfault
  · cases hfault
  rw [h] at hfault
  dsimp only at hfault
  split at hfault
  · cases hfault
  · cases hfault
  · next hall hused =>
    simp only [List.find?_eq_none, mem_distinct, Bool.not_eq_true', Bool.not_eq_false,
      List.contains_eq_mem, decide_eq_true_eq] at hall hused
    exact ⟨hused commodity, hall commodity⟩

/-- What an output commodity is converted from comes in. A leaf that nothing is known to come into
converts a single commodity, or it would not be known either. -/
theorem exists_conversion (hbuilt : n.Built) {conversions : Keyed (Conversion K)}
    (h : n.conversions = some conversions) {output : String} (ho : output ∈ c.outflow) :
    ∃ conversion, conversions.find? output = some conversion ∧ conversion.source ∈ c.inflow ∧
      (output, conversion) ∈ conversions.entries := by
  obtain ⟨conversion, hfind⟩ := Keyed.exists_of_mem_keys ((keys_conversions hc h output).2 ho)
  have hentry := Keyed.mem_of_find? hfind
  refine ⟨conversion, hfind, ?_, hentry⟩
  obtain ⟨-, hsources⟩ := hbuilt.conversions_eq_some h
  by_cases hnil : n.inputCommodities = []
  · obtain ⟨commodity, hleaf, hin⟩ := inflow_eq_leafInput hc hnil
    rcases leafInput_eq_ok hleaf h with hone | ⟨hnot, hone⟩
    · have hsource : conversion.source ∈ distinct (conversions.values.map (·.source)) :=
        mem_distinct.2 (List.mem_map_of_mem (List.mem_map_of_mem hentry))
      rw [hone] at hsource
      rwa [hin]
    · have hkey : ∀ e ∈ conversions.entries, e.1 = commodity := by
        intro e he
        have hmem := mem_distinct.2 ((keys_conversions hc h e.1).1 (List.mem_map_of_mem he))
        rw [hone] at hmem
        exact List.mem_singleton.1 hmem
      have hsingle := Keyed.entries_eq_singleton hkey hentry
      refine absurd ?_ (hnot conversion.source)
      rw [Keyed.values, hsingle]
      rfl
  · rw [inflow_eq_inputCommodities hc hnil]
    exact hsources _ hentry hnil

/-- No conversion is left unused, so that what any of them converts comes in. -/
theorem source_mem_inflow (hbuilt : n.Built) {conversions : Keyed (Conversion K)}
    (h : n.conversions = some conversions) {conversion : Conversion K}
    (hv : conversion ∈ conversions.values) : conversion.source ∈ c.inflow := by
  obtain ⟨⟨key, _⟩, hentry, rfl⟩ := List.mem_map.1 hv
  have hkey := (keys_conversions hc h key).1 (List.mem_map_of_mem hentry)
  obtain ⟨conversion', hfind, hsource, -⟩ := exists_conversion hc hbuilt h hkey
  obtain rfl := Option.some.inj ((Keyed.find?_of_mem hentry).symm.trans hfind)
  exact hsource

/-- The ratios of a node are those of its output commodities or of the nodes that it serves. -/
theorem outputProportions_eq_some {ratios : Keyed (Quantity K)}
    (h : n.outputProportions = some ratios) :
    (ratios.keys = distinct c.outflow ∨ ratios.keys = distinct (served.map (·.target))) ∧
      ∀ e ∈ ratios.entries, 0 < e.2.magnitude :=
  proportionFault_eq_none_iff.1
    ((commodities_eq_ok_iff.1 (settle_eq_ok_iff.1 hc).2.2).2.1 ratios h)

end Settled

namespace Bound

variable {n : Node K} {catalogue : Catalogue K} {served : List Outlet} {m : Model K}
variable {c : NodeCommodities} {f : NodeFlows K} (h : n.Bound catalogue served m c f)

include h

theorem hasSize_eq : n.hasSize = f.size.isSome := by
  rw [h.size, sizeIn]
  split
  · next hsize => simp [hsize]
  · next hsize => simp [hsize]

theorem storage_isSome_eq : n.storage.isSome = f.storage.isSome := by
  rw [h.storage, storageIn]
  split
  · next hstorage => simp [hstorage]
  · next hstorage => simp [hstorage]

end Bound

end Node

end SupplyNet
