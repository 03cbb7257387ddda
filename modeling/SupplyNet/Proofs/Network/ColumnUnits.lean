import Mathlib
import SupplyNet.Proofs.Keyed
import SupplyNet.Proofs.Network.Columns
import SupplyNet.Proofs.Network.Values

/-!
What the columns of a network count in. The flow over an edge counts in the unit of the commodity of
the edge, the flow of a leaf in that of its own, and the columns of a size or a storage in that of
the size of the node.
-/
set_option autoImplicit false

namespace SupplyNet

theorem find?_eq_some_of_unique {α : Type} {p : α → Bool} {l : List α} {a : α} (ha : a ∈ l)
    (hp : p a = true) (hunique : ∀ b ∈ l, p b = true → b = a) : l.find? p = some a := by
  obtain ⟨b, hb⟩ := Option.isSome_iff_exists.1 (List.find?_isSome.2 ⟨a, ha, hp⟩)
  rw [hb, hunique b (List.mem_of_find?_eq_some hb) (List.find?_some hb)]

/-! ## Commodities -/

/-- The commodity of the size of a node and of its storage. -/
def Node.sizeName (nodes : List (Node Rat)) (n : Node Rat) : String :=
  match n.sizeCommodityAmong (distinct (outputNames nodes n)) with
  | .ok (some commodity) => commodity
  | _ => ""

/-- What is said of the node of a name. -/
def nodeText (nodes : List (Node Rat)) (name : String) (text : Node Rat → String) : String :=
  match nodes.find? (·.name = name) with
  | some n => text n
  | none => ""

/-- The commodity that a variable counts: that of its edge, that of the flow of a leaf, or that of
the size of the node. -/
def VariableKey.commodityIn (nodes : List (Node Rat)) : VariableKey → String
  | edge source target =>
    match (outlets nodes source).find? (·.target = target) with
    | some o => o.commodity
    | none => ""
  | outflow name => nodeText nodes name Node.leafOutputName
  | inflow name => nodeText nodes name (Node.leafInputName nodes)
  | size name | storageSize name | level name | charge name | discharge name =>
    nodeText nodes name (Node.sizeName nodes)

section Commodities

variable {nodes : List (Node Rat)} {n : Node Rat} (hw : Wired nodes)

include hw

theorem nodeText_eq (hn : n ∈ nodes) (text : Node Rat → String) :
    nodeText nodes n.name text = text n := by
  have hfind : nodes.find? (·.name = n.name) = some n :=
    find?_eq_some_of_unique hn (decide_eq_true rfl) fun _ hm he =>
      List.inj_on_of_nodup_map hw.names_nodup hm hn (of_decide_eq_true he)
  unfold nodeText
  rw [hfind]

theorem commodityIn_outlet (hinputs : ∀ n ∈ nodes, n.inputs.Nodup) {name : String} {o : Outlet}
    (ho : o ∈ outlets nodes name) : (VariableKey.edge name o.target).commodityIn nodes =
      o.commodity := by
  have hfind : (outlets nodes name).find? (·.target = o.target) = some o :=
    find?_eq_some_of_unique ho (decide_eq_true rfl) fun _ ho' he =>
      hw.outlet_unique hinputs ho' ho (of_decide_eq_true he)
  unfold VariableKey.commodityIn
  dsimp only
  rw [hfind]

/-- What flows in over an edge is what flows out at its other end. -/
theorem commodityIn_inlet (hinputs : ∀ n ∈ nodes, n.inputs.Nodup) (hn : n ∈ nodes) {inlet : Inlet}
    (hi : inlet ∈ n.inlets) : (VariableKey.edge inlet.source n.name).commodityIn nodes =
      inlet.commodity :=
  commodityIn_outlet hw hinputs (mem_outlets.2 ⟨n, hn, inlet, hi, rfl, rfl⟩)

theorem commodityIn_storage (hn : n ∈ nodes) :
    ∀ k ∈ n.storageKeys, k.commodityIn nodes = n.sizeName nodes := by
  intro k hk
  rcases mem_storageKeys.1 hk with rfl | rfl | rfl | rfl <;> exact nodeText_eq hw hn _

end Commodities

namespace Node

section Settled

variable {nodes : List (Node Rat)} {catalogue : Catalogue Rat} {n : Node Rat} {c : NodeCommodities}
variable {served : List Outlet}

/-- A node with a size or a storage has a commodity for it, which it puts out. -/
theorem exists_size (hc : n.settle catalogue served = .ok c)
    (h : (n.hasSize || n.storage.isSome) = true) :
    ∃ commodity ∈ c.outflow, c.size = some commodity ∧
      n.sizeCommodityAmong (distinct c.outflow) = .ok (some commodity) := by
  obtain ⟨-, -, -, size, hsize, hcs⟩ := commodities_eq_ok_iff.1 (settle_eq_ok_iff.1 hc).2.2
  have hcsize : c.size = size := congrArg NodeCommodities.size hcs
  rw [hcsize]
  have hamong := hsize
  unfold sizeCommodityAmong at hsize
  rw [if_pos h] at hsize
  cases hdeclared : n.sizeCommodity with
  | some declared =>
    simp only [hdeclared] at hsize
    split at hsize
    · next hmem =>
      obtain rfl := Except.ok.inj hsize
      exact ⟨declared, mem_distinct.1 (by simpa using hmem), rfl, hamong⟩
    · exact absurd hsize (by simp)
  | none =>
    simp only [hdeclared] at hsize
    rcases hd : distinct c.outflow with _ | ⟨commodity, _ | ⟨second, rest⟩⟩
    · simp [hd] at hsize
    · simp only [hd, Except.ok.injEq] at hsize
      obtain rfl := hsize
      refine ⟨commodity, mem_distinct.1 ?_, rfl, by rw [← hd]; exact hamong⟩
      rw [hd]
      exact List.mem_cons_self
    · simp [hd] at hsize

theorem size_eq_sizeName (hc : n.settle catalogue (outlets nodes n.name) = .ok c)
    (h : (n.hasSize || n.storage.isSome) = true) : c.size = some (n.sizeName nodes) := by
  obtain ⟨commodity, -, hsize, hamong⟩ := exists_size hc h
  rw [outflow_eq_outputNames hc] at hamong
  unfold sizeName
  rw [hsize, hamong]

/-- What a node with a storage puts out is what it stores. -/
theorem outflow_of_storage (hc : n.settle catalogue served = .ok c)
    (h : n.storage.isSome = true) : ∀ output ∈ c.outflow, c.size = some output := by
  intro output ho
  obtain ⟨commodity, hmem, hsize, -⟩ := exists_size hc (by rw [h, Bool.or_true])
  obtain ⟨hfault, -⟩ := commodities_eq_ok_iff.1 (settle_eq_ok_iff.1 hc).2.2
  unfold conversionFault at hfault
  have hlength : ¬1 < (distinct c.outflow).length := by
    intro hlt
    split at hfault
    · exact absurd hfault (by simp)
    · rw [if_pos ⟨hlt, h⟩] at hfault
      exact absurd hfault (by simp)
  rw [← mem_distinct] at ho hmem
  rw [hsize]
  cases hd : distinct c.outflow with
  | nil =>
    rw [hd] at ho
    exact absurd ho List.not_mem_nil
  | cons first rest =>
    rw [hd, List.length_cons] at hlength
    have hrest : rest = [] := List.length_eq_zero_iff.1 (by omega)
    rw [hd, hrest, List.mem_singleton] at ho hmem
    rw [ho, hmem]

/-- A leaf without conversions takes in the only commodity that it puts out. -/
theorem distinct_outflow_of_leafInput {outflow : List String} {commodity : String}
    (hconv : n.conversions = none) (h : n.leafInput outflow = .ok commodity) :
    distinct outflow = [commodity] := by
  unfold leafInput single? at h
  rw [hconv] at h
  dsimp only at h
  split at h
  · next he =>
    split at he
    · next hd =>
      rw [hd, ← Except.ok.inj h]
      exact congrArg (fun a => [a]) (Option.some.inj he)
    · exact absurd he (by simp)
  · exact absurd h (by simp)

/-- The flow of a scalable input is of the commodity of its size. -/
theorem leafInputName_of_scalableInput (hbuilt : n.Built) (hk : n.kind = .scalableInput)
    (hc : n.settle catalogue (outlets nodes n.name) = .ok c) :
    n.leafInputName nodes = n.sizeName nodes := by
  have hconv := hbuilt.conversions_of_ne_generic (by rw [hk]; decide)
  obtain ⟨factors, hr⟩ : ∃ factors, n.role = .scalableInput factors := by
    rcases role_of_isInput (n := n) (by rw [hk]; decide) with ⟨flow, hr⟩ | ⟨factors, hr⟩
    · rw [kind, hr] at hk
      exact absurd hk (by simp [Role.kind])
    · exact ⟨factors, hr⟩
  have hinput : n.inputCommodities = [] := by
    unfold inputCommodities
    rw [hr]
    rfl
  have hin := inflow_eq_ok_iff.1 (settle_eq_ok_iff.1 hc).2.1
  rw [if_pos hinput] at hin
  obtain ⟨commodity, hleaf, hin⟩ := hin
  have hname : n.leafInputName nodes = commodity := by
    have hi : n.inlets = [] := inlets_of_isInput (by rw [hk]; decide)
    rw [inflow_eq_leafInputName hc hi] at hin
    exact List.head_eq_of_cons_eq hin
  have hsingle := distinct_outflow_of_leafInput hconv hleaf
  obtain ⟨size, hmem, hsize, -⟩ := exists_size hc (by simp [hasSize, hk])
  rw [size_eq_sizeName hc (by simp [hasSize, hk])] at hsize
  rw [← mem_distinct, hsingle, List.mem_singleton] at hmem
  rw [hname, ← hmem]
  exact (Option.some.inj hsize).symm

end Settled

end Node

/-! ## Factors -/

namespace Model

/-- The variable that a column belongs to. -/
def keyAt? (m : Model Rat) (nodes : List (Node Rat)) (v : Var) : Option VariableKey :=
  m.addresses[v.index]?.bind fun a => (variableKeys nodes).find? (·.name = a.1)

/-- The factor of the commodity that a column counts. -/
def columnFactor (m : Model Rat) (nodes : List (Node Rat)) (factor : String → Rat) (v : Var) :
    Rat :=
  match m.keyAt? nodes v with
  | some k => factor (k.commodityIn nodes)
  | none => 1

theorem columnFactor_pos {factor : String → Rat} (h : ∀ commodity, 0 < factor commodity)
    (m : Model Rat) (nodes : List (Node Rat)) (v : Var) : 0 < m.columnFactor nodes factor v := by
  unfold columnFactor
  split
  · exact h _
  · exact one_pos

end Model

section Factors

variable {nodes : List (Node Rat)} {steps : Nat} {factor : String → Rat}
variable (hnames : ((variableKeys nodes).map (·.name)).Nodup)

include hnames

theorem columnFactor_of_mem_places {k : VariableKey} (hk : k ∈ variableKeys nodes) {v : Var}
    {t : Option Nat} (h : (v, (k.name, t)) ∈ (registry nodes steps).places) :
    (registry nodes steps).columnFactor nodes factor v = factor (k.commodityIn nodes) := by
  have hfind : (variableKeys nodes).find? (·.name = k.name) = some k :=
    find?_eq_some_of_unique hk (decide_eq_true rfl) fun _ hk' he =>
      key_eq_of_name_eq hnames hk' hk (of_decide_eq_true he)
  unfold Model.columnFactor Model.keyAt?
  rw [(consistent_registry steps hnames).getElem?_addresses h, Option.bind_some, hfind]

theorem columnFactor_scalarOf {k : VariableKey} (hk : k ∈ variableKeys nodes)
    (hs : k.steps? steps = none) : (registry nodes steps).columnFactor nodes factor
      ((registry nodes steps).scalarOf k) = factor (k.commodityIn nodes) :=
  columnFactor_of_mem_places hnames hk (mem_places_scalarOf hnames hk hs)

theorem columnFactor_of_mem_seriesOf {k : VariableKey} (hk : k ∈ variableKeys nodes)
    (hs : k.steps? steps = some steps) : ∀ v ∈ (registry nodes steps).seriesOf k,
      (registry nodes steps).columnFactor nodes factor v = factor (k.commodityIn nodes) := by
  intro v hv
  obtain ⟨t, hplace⟩ := mem_places_of_mem_seriesOf hnames hk hs hv
  exact columnFactor_of_mem_places hnames hk hplace

end Factors

end SupplyNet
