import Mathlib
import SupplyNet.Network.Commodities
import SupplyNet.Proofs.Checked
import SupplyNet.Proofs.Network.Graph

/-!
The commodities of a network, settled node by node. Those of a node depend on the node and on its
outlets alone, so the three passes over all nodes come to one.
-/
set_option autoImplicit false

namespace SupplyNet

variable {K : Type} [Scalar K]

namespace Node

theorem asDeclared_eq_ok_iff {n : Node K} {commodities l : List String} :
    n.asDeclared commodities = .ok l ↔ l = commodities ∧
      ∀ declared ∈ n.outputCommodity, ∀ commodity ∈ l, commodity = declared := by
  unfold asDeclared
  cases n.outputCommodity with
  | none => exact ⟨fun h => ⟨(Except.ok.inj h).symm, by simp⟩, fun h => congrArg _ h.1.symm⟩
  | some declared =>
    dsimp only
    split
    · next hall =>
      refine ⟨fun h => ⟨(Except.ok.inj h).symm, ?_⟩, fun h => congrArg _ h.1.symm⟩
      rw [← Except.ok.inj h]
      simpa using hall
    · next hall =>
      refine ⟨fun h => absurd h (throw_ne_ok _ _), ?_⟩
      rintro ⟨rfl, h⟩
      exact absurd (by simpa using h) hall

/-- The commodities that go out are those of the edges, or that of a leaf, and all are as declared. -/
theorem outflow_eq_ok_iff {n : Node K} {edges l : List String} :
    n.outflow edges = .ok l ↔
      (if edges = [] then ∃ commodity, n.leafOutput = .ok commodity ∧ l = [commodity]
        else l = edges) ∧ ∀ declared ∈ n.outputCommodity, ∀ commodity ∈ l, commodity = declared := by
  unfold outflow
  by_cases he : edges = []
  · rw [if_pos he, he, List.isEmpty_nil, if_pos rfl, bind_eq_ok_iff]
    constructor
    · rintro ⟨commodities, hc, h⟩
      obtain ⟨commodity, hleaf, rfl⟩ := map_eq_ok_iff.1 hc
      obtain ⟨rfl, h⟩ := asDeclared_eq_ok_iff.1 h
      exact ⟨⟨commodity, hleaf, rfl⟩, h⟩
    · rintro ⟨⟨commodity, hleaf, rfl⟩, h⟩
      exact ⟨_, map_eq_ok_iff.2 ⟨commodity, hleaf, rfl⟩, asDeclared_eq_ok_iff.2 ⟨rfl, h⟩⟩
  · rw [if_neg he, if_neg (by simpa using he), bind_eq_ok_iff]
    constructor
    · rintro ⟨commodities, hc, h⟩
      rw [← Except.ok.inj hc] at h
      exact asDeclared_eq_ok_iff.1 h
    · exact fun h => ⟨edges, rfl, asDeclared_eq_ok_iff.2 h⟩

theorem inflow_eq_ok_iff {n : Node K} {outflow l : List String} :
    n.inflow outflow = .ok l ↔
      if n.inputCommodities = [] then ∃ commodity, n.leafInput outflow = .ok commodity ∧
        l = [commodity]
      else l = n.inputCommodities := by
  unfold inflow
  by_cases h : n.inputCommodities = []
  · rw [if_pos h, h, List.isEmpty_nil, if_pos rfl, map_eq_ok_iff]
    simp only [eq_comm]
  · rw [if_neg h, if_neg (by simpa using h), Except.ok.injEq, eq_comm]

/-- The checks of a node depend on its output commodities, on the names of its neighbours, and on
nothing else that is given. -/
theorem commodities_eq_ok_iff {n : Node K} {catalogue : Catalogue K}
    {outputNames inflow outflow : List String} {c : NodeCommodities} :
    n.commodities catalogue outputNames inflow outflow = .ok c ↔
      n.conversionFault (distinct outflow) = none ∧
      (∀ ratios ∈ n.outputProportions,
        proportionFault n.name .output ratios outflow outputNames = none) ∧
      (∀ commodity ∈ inflow ++ outflow, ∃ unit, catalogue.unitOf commodity = .ok unit) ∧
      ∃ size, n.sizeCommodityAmong (distinct outflow) = .ok size ∧ c = ⟨inflow, outflow, size⟩ := by
  have hunits : (∃ us, ((inflow ++ outflow).mapM fun commodity =>
      (catalogue.unitOf commodity).mapError (CommodityError.unit : UnitError → CommodityError K)) =
        .ok us) ↔ ∀ commodity ∈ inflow ++ outflow, ∃ unit, catalogue.unitOf commodity = .ok unit := by
    rw [isOk_mapM_iff]
    simp only [mapError_eq_ok_iff]
  have hratios : (n.outputProportions.bind fun ratios =>
      (proportionFault n.name .output ratios outflow outputNames).map CommodityError.proportions) =
        none ↔ ∀ ratios ∈ n.outputProportions,
          proportionFault n.name .output ratios outflow outputNames = none := by
    rw [Option.bind_eq_none_iff]
    simp only [Option.map_eq_none_iff]
    rfl
  rw [← hunits, ← hratios]
  unfold commodities
  constructor
  · intro h
    obtain ⟨u, hfault, h⟩ := bind_eq_ok_iff.1 h
    obtain ⟨size, hsize, h⟩ := bind_eq_ok_iff.1 h
    obtain ⟨v, hratio, h⟩ := bind_eq_ok_iff.1 h
    obtain ⟨us, hus, h⟩ := bind_eq_ok_iff.1 h
    exact ⟨(refuse_singleton _ _).1 hfault, (refuse_singleton _ _).1 hratio, ⟨us, hus⟩, size, hsize,
      (Except.ok.inj h).symm⟩
  · rintro ⟨hfault, hratio, ⟨us, hus⟩, size, hsize, rfl⟩
    exact bind_eq_ok_iff.2 ⟨(), (refuse_singleton _ _).2 hfault, bind_eq_ok_iff.2 ⟨size, hsize,
      bind_eq_ok_iff.2 ⟨(), (refuse_singleton _ _).2 hratio, bind_eq_ok_iff.2 ⟨us, hus, rfl⟩⟩⟩⟩

end Node

/-- The commodities of a node with the given outlets. -/
def Node.settle (n : Node K) (catalogue : Catalogue K) (served : List Outlet) :
    Except (CommodityError K) NodeCommodities := do
  let outflow ← n.outflow (served.map (·.commodity))
  let inflow ← n.inflow outflow
  n.commodities catalogue (served.map (·.target)) inflow outflow

theorem Node.settle_eq_ok_iff {n : Node K} {catalogue : Catalogue K} {served : List Outlet}
    {c : NodeCommodities} :
    n.settle catalogue served = .ok c ↔ n.outflow (served.map (·.commodity)) = .ok c.outflow ∧
      n.inflow c.outflow = .ok c.inflow ∧
      n.commodities catalogue (served.map (·.target)) c.inflow c.outflow = .ok c := by
  have hflows : ∀ {names inflow outflow}, n.commodities catalogue names inflow outflow = .ok c →
      inflow = c.inflow ∧ outflow = c.outflow := by
    intro names inflow outflow h
    obtain ⟨-, -, -, size, -, rfl⟩ := commodities_eq_ok_iff.1 h
    exact ⟨rfl, rfl⟩
  unfold settle
  rw [bind_eq_ok_iff]
  constructor
  · rintro ⟨outflow, ho, h⟩
    obtain ⟨inflow, hi, h⟩ := bind_eq_ok_iff.1 h
    obtain ⟨rfl, rfl⟩ := hflows h
    exact ⟨ho, hi, h⟩
  · rintro ⟨ho, hi, h⟩
    exact ⟨_, ho, bind_eq_ok_iff.2 ⟨_, hi, h⟩⟩

namespace Graph

theorem edgeCommodities_eq {nodes : List (Node K)} (hw : Wired nodes) {i : Nat} {n : Node K}
    (hi : nodes[i]? = some n) :
    (edgesFrom ⟨nodes, edgesOf nodes⟩ i).map (·.commodity) =
      (outlets nodes n.name).map (·.commodity) := by
  rw [← edgesFrom_eq hw hi, List.map_map]
  rfl

theorem outputNames_eq {nodes : List (Node K)} (hw : Wired nodes) {i : Nat} {n : Node K}
    (hi : nodes[i]? = some n) :
    outputNames ⟨nodes, edgesOf nodes⟩ i = (outlets nodes n.name).map (·.target) := by
  rw [← edgesFrom_eq hw hi, List.map_map]
  rfl

/-- The commodities of all nodes are settled one by one. -/
theorem commodities_eq_ok_iff {nodes : List (Node K)} (hw : Wired nodes) {catalogue : Catalogue K}
    {cs : List NodeCommodities} :
    commodities ⟨nodes, edgesOf nodes⟩ catalogue = .ok cs ↔
      List.Forall₂ (fun n c => n.settle catalogue (outlets nodes n.name) = .ok c) nodes cs := by
  unfold commodities
  simp only [bind_eq_ok_iff, mapM_eq_ok_iff, forall₂_iff_getElem?]
  constructor
  · rintro ⟨outs, ⟨hol, ho⟩, ins, ⟨hil, hi⟩, hcl, hc⟩
    rw [List.length_zipIdx] at hol
    rw [List.length_zip, ← hol, Nat.min_self] at hil
    rw [List.length_zip, List.length_zipIdx, List.length_zip, ← hil, ← hol, Nat.min_self,
      Nat.min_self] at hcl
    refine ⟨hcl, fun k n c hn hck => ?_⟩
    obtain ⟨hk, -⟩ := List.getElem?_eq_some_iff.1 hn
    have hok := List.getElem?_eq_getElem (hol ▸ hk)
    have hik := List.getElem?_eq_getElem (hil ▸ hk)
    have hnk : nodes.zipIdx[k]? = some (n, k) := by simp [List.getElem?_zipIdx, hn]
    have h₁ := ho k _ _ hnk hok
    have h₂ := hi k _ _ (getElem?_zip_of hn hok) hik
    have h₃ := hc k _ _ (getElem?_zip_of hnk (getElem?_zip_of hik hok)) hck
    rw [edgeCommodities_eq hw hn] at h₁
    rw [outputNames_eq hw hn] at h₃
    exact bind_eq_ok_iff.2 ⟨_, h₁, bind_eq_ok_iff.2 ⟨_, h₂, h₃⟩⟩
  · rintro ⟨hcl, hc⟩
    have hidx : ∀ {k j : Nat} {n}, nodes.zipIdx[k]? = some (n, j) → nodes[k]? = some n ∧ j = k := by
      intro k j n h
      rw [List.getElem?_zipIdx] at h
      obtain ⟨n', hn, he⟩ := Option.map_eq_some_iff.1 h
      obtain ⟨rfl, rfl⟩ := Prod.mk.inj he
      exact ⟨hn, Nat.zero_add k⟩
    have hget : ∀ {k : Nat} {n}, nodes[k]? = some n → ∃ c, cs[k]? = some c ∧
        (cs.map (·.outflow))[k]? = some c.outflow ∧ (cs.map (·.inflow))[k]? = some c.inflow ∧
        n.settle catalogue (outlets nodes n.name) = .ok c := by
      intro k n hn
      obtain ⟨hk, -⟩ := List.getElem?_eq_some_iff.1 hn
      have hck := List.getElem?_eq_getElem (hcl ▸ hk)
      exact ⟨_, hck, by rw [List.getElem?_map, hck]; rfl, by rw [List.getElem?_map, hck]; rfl,
        hc k n _ hn hck⟩
    refine ⟨cs.map (·.outflow), ⟨by simp [hcl], ?_⟩, cs.map (·.inflow), ⟨by simp [hcl], ?_⟩,
      by simp [hcl], ?_⟩
    · rintro k ⟨n, j⟩ o hnj ho
      obtain ⟨hn, rfl⟩ := hidx hnj
      obtain ⟨c, -, ho', -, h⟩ := hget hn
      rw [ho', Option.some.injEq] at ho
      rw [← ho, edgeCommodities_eq hw hn]
      exact (Node.settle_eq_ok_iff.1 h).1
    · rintro k ⟨n, o⟩ i hno hi
      obtain ⟨hn, ho⟩ := List.getElem?_zip_eq_some.1 hno
      obtain ⟨c, -, ho', hi', h⟩ := hget hn
      rw [ho', Option.some.injEq] at ho
      rw [hi', Option.some.injEq] at hi
      rw [← ho, ← hi]
      exact (Node.settle_eq_ok_iff.1 h).2.1
    · rintro k ⟨⟨n, j⟩, i, o⟩ c hnio hck
      obtain ⟨hnj, hio⟩ := List.getElem?_zip_eq_some.1 hnio
      obtain ⟨hi, ho⟩ := List.getElem?_zip_eq_some.1 hio
      obtain ⟨hn, rfl⟩ := hidx hnj
      obtain ⟨c', hck', ho', hi', h⟩ := hget hn
      rw [ho', Option.some.injEq] at ho
      rw [hi', Option.some.injEq] at hi
      rw [hck', Option.some.injEq] at hck
      rw [← ho, ← hi, ← hck, outputNames_eq hw hn]
      exact (Node.settle_eq_ok_iff.1 h).2.2

end Graph

end SupplyNet
