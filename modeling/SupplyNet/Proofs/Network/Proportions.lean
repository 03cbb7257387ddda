import Mathlib
import SupplyNet.Proofs.Network.Enumeration
import SupplyNet.Proofs.Network.Permutation
import SupplyNet.Proofs.Network.Resolved

/-!
Proportions between all flows on one side of a node. The stored conditions compare the first share
with each other one, and as no ratio is zero, this makes any two of them proportional. Each flow
shares exactly one ratio, be the ratios those of commodities or those of neighbours.
-/
set_option autoImplicit false

namespace SupplyNet

/-! ## Groups of flows -/

namespace Label

variable {labels : List Label} {ratios : Keyed (Quantity Rat)} {neighbours : List String}
variable {l : Label}

theorem mem_members {key : String} : l ∈ members labels ratios key ↔
    l ∈ labels ∧ if ratios.keys = distinct (labels.map (·.commodity)) then l.commodity = key
      else l.neighbour = some key := by
  unfold members sharesKey
  rw [List.mem_filter]
  by_cases hby : ratios.keys = distinct (labels.map (·.commodity)) <;> simp [hby]

/-- If the keys are all commodities or all neighbours, then each flow shares exactly one ratio. -/
theorem existsUnique_key (hkeys : ratios.keys = distinct (labels.map (·.commodity)) ∨
      ratios.keys = distinct neighbours)
    (hneighbours : ∀ l ∈ labels, ratios.keys ≠ distinct (labels.map (·.commodity)) →
      ∃ name ∈ neighbours, l.neighbour = some name) (hl : l ∈ labels) :
    ∃! key, key ∈ ratios.keys ∧ l ∈ members labels ratios key := by
  by_cases hby : ratios.keys = distinct (labels.map (·.commodity))
  · refine ⟨l.commodity, ⟨?_, mem_members.2 ⟨hl, by rw [if_pos hby]⟩⟩, fun key hkey => ?_⟩
    · rw [hby, mem_distinct]
      exact List.mem_map_of_mem hl
    · have hshares := (mem_members.1 hkey.2).2
      rw [if_pos hby] at hshares
      exact hshares.symm
  · obtain ⟨name, hname, heq⟩ := hneighbours l hl hby
    refine ⟨name, ⟨?_, mem_members.2 ⟨hl, by rw [if_neg hby, heq]⟩⟩, fun key hkey => ?_⟩
    · rw [hkeys.resolve_left hby, mem_distinct]
      exact hname
    · have hshares := (mem_members.1 hkey.2).2
      rw [if_neg hby, heq] at hshares
      exact (Option.some.inj hshares).symm

variable {catalogue : Catalogue Rat} {value : Label → Rat} {e e' : String × Quantity Rat}

/-- What flows under a key. -/
def flowUnder (labels : List Label) (ratios : Keyed (Quantity Rat)) (value : Label → Rat)
    (key : String) : Rat :=
  ((members labels ratios key).map value).sum

/-- The ratio of an entry in the unit of the flows that share it. -/
def ratioOf (catalogue : Catalogue Rat) (labels : List Label) (ratios : Keyed (Quantity Rat))
    (e : String × Quantity Rat) : Rat :=
  ratioAmong catalogue (members labels ratios e.1) e.2

/-- What flows under any two keys is in proportion to their ratios. -/
def Proportional (catalogue : Catalogue Rat) (labels : List Label) (ratios : Keyed (Quantity Rat))
    (value : Label → Rat) : Prop :=
  ∀ e ∈ ratios.entries, ∀ e' ∈ ratios.entries,
    ratioOf catalogue labels ratios e' * flowUnder labels ratios value e.1 =
      ratioOf catalogue labels ratios e * flowUnder labels ratios value e'.1

/-- Each ratio is shared by some flows, and it is positive in the unit of any of them. If there are
ratios, then each flow shares exactly one. -/
structure Apportioned (catalogue : Catalogue Rat) (labels : List Label)
    (ratios : Keyed (Quantity Rat)) : Prop where
  shared : ∀ e ∈ ratios.entries, members labels ratios e.1 ≠ []
  positive : ∀ e ∈ ratios.entries, 0 < ratioOf catalogue labels ratios e
  converted : ∀ e ∈ ratios.entries, ∀ l ∈ members labels ratios e.1, ∃ unit,
    catalogue.unitOf l.commodity = .ok unit ∧
    e.2.magnitudeIn unit = .ok (ratioOf catalogue labels ratios e)
  once : ratios.keys ≠ [] →
    ∀ l ∈ labels, ∃! key, key ∈ ratios.keys ∧ l ∈ members labels ratios key

theorem inProportion_iff (h : Apportioned catalogue labels ratios) :
    InProportion catalogue labels ratios value ↔ Proportional catalogue labels ratios value := by
  refine forall₂_congr fun e he => forall₂_congr fun e' he' => ?_
  change flowUnder labels ratios value e.1 / ratioOf catalogue labels ratios e =
    flowUnder labels ratios value e'.1 / ratioOf catalogue labels ratios e' ↔ _
  rw [div_eq_div_iff (h.positive e he).ne' (h.positive e' he').ne', mul_comm,
    mul_comm (flowUnder _ _ _ e'.1)]

end Label

/-! ## The sides of a node -/

def NodeFlows.streams (f : NodeFlows Rat) : Direction → List (Stream Rat)
  | .input => f.inflows
  | .output => f.outflows

namespace Node

section Sides

variable (nodes : List (Node Rat)) (catalogue : Catalogue Rat) (m : Model Rat) (x : Var → Rat)

/-- The labels of the flows on one side. -/
def labels (n : Node Rat) : Direction → List Label
  | .input => n.inLabels nodes
  | .output => n.outLabels nodes

/-- The inputs of a node, or the nodes that it serves. -/
def neighbours (n : Node Rat) : Direction → List String
  | .input => n.inputs
  | .output => (outlets nodes n.name).map (·.target)

/-- The value of a flow on one side in a time step. -/
def flowAt (n : Node Rat) : Direction → Nat → Label → Rat
  | .input => n.inflowOf catalogue m x
  | .output => n.outflowOf catalogue m x

end Sides

theorem inflow_eq_inputNames {nodes : List (Node Rat)} {catalogue : Catalogue Rat} {n : Node Rat}
    {c : NodeCommodities} (hc : n.settle catalogue (outlets nodes n.name) = .ok c) :
    c.inflow = inputNames nodes n := by
  unfold inputNames
  split
  · next hi => exact inflow_eq_leafInputName hc hi
  · next hi =>
    have hcommodities := inputCommodities_of_inlets hi
    rw [inflow_eq_inputCommodities hc (by rw [hcommodities]; simpa using hi), hcommodities]

section Bound

variable {nodes : List (Node Rat)} {catalogue : Catalogue Rat} {n : Node Rat}
variable {c : NodeCommodities} {f : NodeFlows Rat} {steps : Nat} {side : Direction}
variable {ratios : Keyed (Quantity Rat)} {rows : Rows Rat} {l : Label}

theorem exists_neighbour (hl : l ∈ n.labels nodes side) (hne : n.neighbours nodes side ≠ []) :
    ∃ name ∈ n.neighbours nodes side, l.neighbour = some name := by
  cases side with
  | input =>
    obtain ⟨hi, -⟩ | ⟨i, hi, rfl⟩ := mem_inLabels.1 hl
    · exact absurd (by rw [neighbours, inputs, hi, List.map_nil]) hne
    · exact ⟨i.source, List.mem_map_of_mem hi, rfl⟩
  | output =>
    obtain ⟨ho, -⟩ | ⟨o, ho, rfl⟩ := mem_outLabels.1 hl
    · exact absurd (by rw [neighbours, ho, List.map_nil]) hne
    · exact ⟨o.target, List.mem_map_of_mem ho, rfl⟩

variable (h : n.Bound catalogue (outlets nodes n.name) (registry nodes steps) c f)

include h

theorem label_streams (side : Direction) :
    (f.streams side).map Stream.label = n.labels nodes side := by
  cases side with
  | input => exact label_inflows h
  | output => exact label_outflows h

/-- Ratios are those of the commodities on their side or those of the neighbours there. -/
theorem keys_of_proportions (hbuilt : n.Built) (hratios : n.proportions side = some ratios)
    (hne : ratios.keys ≠ []) :
    ratios.keys = distinct ((n.labels nodes side).map (·.commodity)) ∨
      ratios.keys = distinct (n.neighbours nodes side) := by
  have hlabels : (n.labels nodes side).map (·.commodity) =
      (f.streams side).map (·.commodity) := by
    rw [← label_streams h side, List.map_map]
    rfl
  rw [hlabels]
  cases side with
  | input =>
    obtain ⟨hkeys | hkeys, -⟩ := hbuilt.inputProportions_eq_some hratios
    · -- Ratios of no commodity are no ratios, so the leaf that they are given for has one.
      have hinputs : n.inputCommodities ≠ [] := by
        intro hnil
        rw [hnil] at hkeys
        exact hne hkeys
      rw [← inflow_eq_inputCommodities h.settled hinputs, inflow_eq_inputNames h.settled,
        ← map_commodity_inflows h] at hkeys
      exact .inl hkeys
    · exact .inr hkeys
  | output =>
    obtain ⟨hkeys | hkeys, -⟩ := outputProportions_eq_some h.settled hratios
    · rw [outflow_eq_outputNames h.settled, ← map_commodity_outflows h] at hkeys
      exact .inl hkeys
    · exact .inr hkeys

/-- If the conditions of proportions are made, the ratios apportion the flows. The conditions convert
each ratio to the unit of the first flow that shares it, but all of them have one commodity. -/
theorem apportioned (hw : Wired nodes) (hbuilt : ∀ n ∈ nodes, n.Built) (hn : n ∈ nodes)
    (hratios : n.proportions side = some ratios)
    (hr : n.proportionRows catalogue steps side (f.streams side) (some ratios) = .ok rows) :
    Label.Apportioned catalogue (n.labels nodes side) ratios := by
  have hinputs : ∀ n ∈ nodes, n.inputs.Nodup := fun n hn => (hbuilt n hn).inputs_nodup.2
  have hone : OneCommodityEach (f.streams side) := by
    cases side with
    | input => exact oneCommodityEach_inStreams (hinputs n hn) h.inflows
    | output => exact oneCommodityEach_outStreams hw hinputs h.outflows
  have hconverted := fun e he => converted_of_proportionRows hr (e := e) he
  rw [← label_streams h side]
  refine ⟨fun e he => ?_, fun e he => ?_, fun e he l hl => ?_, fun hne l hl => ?_⟩
  · obtain ⟨first, rest, -, hmembers, -, -, -⟩ := hconverted e he
    rw [hmembers]
    exact List.cons_ne_nil first rest
  · obtain ⟨first, rest, -, hmembers, -, -, hpos⟩ := hconverted e he
    rwa [Label.ratioOf, hmembers]
  · obtain ⟨first, rest, unit, hmembers, hunit, hratio, -⟩ := hconverted e he
    have hfirst : first ∈ Label.members ((f.streams side).map Stream.label) ratios e.1 := by
      rw [hmembers]
      exact List.mem_cons_self
    rw [Label.ratioOf, hmembers]
    rw [members_map_label] at hl hfirst
    obtain ⟨s, hs, rfl⟩ := List.mem_map.1 hl
    obtain ⟨s', hs', rfl⟩ := List.mem_map.1 hfirst
    have hcommodity : s.commodity = s'.commodity := commodity_of_sharing hone hs hs'
    exact ⟨unit, (congrArg catalogue.unitOf hcommodity).trans hunit, hratio⟩
  · rw [label_streams h side] at hl ⊢
    have hkeys := keys_of_proportions h (hbuilt n hn) hratios hne
    refine Label.existsUnique_key hkeys (fun l hl hby => exists_neighbour hl fun hnil => ?_) hl
    rw [hkeys.resolve_left hby, hnil] at hne
    exact hne rfl

variable (hnames : ((variableKeys nodes).map (·.name)).Nodup) (hn : n ∈ nodes)

include hnames hn

theorem eval_streams (x : Var → Rat) {t : Nat} (ht : t < steps) : ∀ s ∈ f.streams side,
    (s.flow.atStep t).eval x = n.flowAt catalogue (registry nodes steps) x side t s.label := by
  cases side with
  | input => exact eval_inflow hnames hn h ht
  | output => exact eval_outflow hnames hn h ht

theorem isConst_proportionRows (hw : Wired nodes) (hbuilt : ∀ n ∈ nodes, n.Built)
    (hr : n.proportionRows catalogue steps side (f.streams side) (n.proportions side) = .ok rows) :
    ∀ d ∈ rows, d.expr.isConst = false := by
  cases side with
  | input => exact isConst_proportionRows_input hnames hn h (hbuilt n hn) hr
  | output => exact isConst_proportionRows_output hnames hn h hw hbuilt hr

end Bound

end Node

/-! ## The proportions of a network -/

section Network

variable {nodes : List (Node Rat)} {grid : Grid} {config : Config Rat} {net : Network Rat}
variable {cs : List NodeCommodities} {groups : List (Rows Rat)} {n : Node Rat}
variable {side : Direction} {ratios : Keyed (Quantity Rat)}

/-- The conditions of the proportions on one side of a node, as they are stored in a network. -/
def Network.StoresProportions (net : Network Rat) (nodes : List (Node Rat)) (grid : Grid)
    (config : Config Rat) (n : Node Rat) (side : Direction) (stored : Rows Rat) : Prop :=
  ∃ f rows, (n, f) ∈ nodes.zip net.flows ∧
    n.proportionRows config.catalogue grid.size side (f.streams side) (n.proportions side) =
      .ok rows ∧
    stored = rows.map (·.normalized) ∧ ∀ c ∈ stored, c ∈ net.model.constraints

theorem Node.proportionRows_mem_rows (n : Node Rat) (catalogue : Catalogue Rat) (steps : Nat)
    (hours : Rat) (f : NodeFlows Rat) (side : Direction) :
    n.proportionRows catalogue steps side (f.streams side) (n.proportions side) ∈
      n.rows catalogue steps hours f := by
  refine List.mem_append_right _ (List.mem_cons_of_mem _ ?_)
  cases side with
  | input => exact List.mem_cons_self
  | output => exact List.mem_cons_of_mem _ List.mem_cons_self

/-- The stored conditions of the proportions on one side of a node hold exactly if the flows under
any two keys are in proportion to their ratios in each time step, and the ratios apportion all flows
on that side. -/
theorem Network.proportions_hold_iff (hbuilt : ∀ n ∈ nodes, n.Built)
    (h : Network.build nodes grid config = .ok net) (hn : n ∈ nodes)
    (hratios : n.proportions side = some ratios) :
    ∃ stored, net.StoresProportions nodes grid config n side stored ∧
      (∀ x : Var → Rat, (∀ c ∈ stored, c.Holds x) ↔ ∀ t < grid.size,
        Label.Proportional config.catalogue (n.labels nodes side) ratios
          (n.flowAt config.catalogue net.model x side t)) ∧
      Label.Apportioned config.catalogue (n.labels nodes side) ratios := by
  obtain ⟨cs, groups, hc⟩ := Network.build_eq_ok_iff.1 h
  obtain ⟨f, hp⟩ := hc.exists_flows hn
  obtain ⟨c, hbound⟩ := hc.bound hp
  have hmem := n.proportionRows_mem_rows config.catalogue grid.size grid.hours f side
  obtain ⟨rows, hr⟩ := hc.exists_rows hp hmem
  rw [hr] at hmem
  have hstored : ∀ c ∈ rows.map (·.normalized), c ∈ net.model.constraints := by
    intro c hrow
    obtain ⟨d, hd, rfl⟩ := List.mem_map.1 hrow
    have hconst := Node.isConst_proportionRows hbound hc.names_nodup hn hc.wired hbuilt hr d hd
    exact hc.mem_constraints.2 ⟨n, f, rows, hp, hmem, d, hd, hconst, rfl⟩
  have happortioned := Node.apportioned hbound hc.wired hbuilt hn hratios (hratios ▸ hr)
  refine ⟨rows.map (·.normalized), ⟨f, rows, hp, hr, rfl, hstored⟩, fun x => ?_, happortioned⟩
  have hholds := Node.proportionRows_hold_iff (x := x)
    (fun t ht => Node.eval_streams hbound hc.names_nodup hn x ht) hr
  simp only [hratios, Option.mem_some_iff, forall_eq', Node.label_streams hbound] at hholds
  have hflow : n.flowAt config.catalogue net.model x side =
      n.flowAt config.catalogue (registry nodes grid.size) x side := by
    rw [hc.model]
    cases side <;> rfl
  simp only [List.forall_mem_map, Constraint.holds_normalized, hholds, hflow,
    Label.inProportion_iff happortioned]

end Network

/-- A plant that takes in a unit of electricity for each three of gas, and serves a town with twice
as much methanol as a port. -/
def methanolDrafts : List (Draft Rat) :=
  [windDraft,
    { name := "gas", role := .generic ⟨[], .single "gas"⟩ },
    { name := "plant", role := .generic ⟨["wind", "gas"], .perInput ["electricity", "gas"]⟩,
      convertFactor := some (.plain (1 / 2)),
      inputProportions := some (.ofList
        [("electricity", ⟨1, some Catalogue.megawatt⟩), ("gas", .plain 3)]),
      outputProportions := some (.ofList [("town", .plain 2), ("port", .plain 1)]) },
    { name := "town", role := .generic ⟨["plant"], .single "methanol"⟩ },
    { name := "port", role := .generic ⟨["plant"], .single "methanol"⟩ }]

/-- The inputs of the plant are in proportion by commodity, and its outputs by neighbour. -/
theorem proportions_of_methanolNetwork :
    (∀ n ∈ builtNodes methanolDrafts, n.Built) ∧
    ∃ (net : Network Rat) (n : Node Rat),
      Network.build (builtNodes methanolDrafts) windGrid .standard = .ok net ∧
      n ∈ builtNodes methanolDrafts ∧
      ∀ side, ∃ ratios stored, n.proportions side = some ratios ∧ ratios.keys.length = 2 ∧
        net.StoresProportions (builtNodes methanolDrafts) windGrid .standard n side stored ∧
        ∀ x : Var → Rat, (∀ c ∈ stored, c.Holds x) ↔ ∀ t < windGrid.size,
          Label.Proportional Config.standard.catalogue (n.labels (builtNodes methanolDrafts) side)
            ratios (n.flowAt Config.standard.catalogue net.model x side t) := by
  have hbuilt : ∀ n ∈ builtNodes methanolDrafts, n.Built := fun _ hn => built_of_mem hn
  obtain ⟨net, h⟩ : ∃ net, Network.build (builtNodes methanolDrafts) windGrid .standard = .ok net :=
    exists_of_isOk (by decide +kernel)
  obtain ⟨n, hn, hkeys⟩ : ∃ n ∈ builtNodes methanolDrafts,
      ∀ side ∈ [Direction.input, .output],
        (n.proportions side).map (·.keys.length) = some 2 := by
    decide +kernel
  refine ⟨hbuilt, net, n, h, hn, fun side => ?_⟩
  obtain ⟨ratios, hratios, hlength⟩ :=
    Option.map_eq_some_iff.1 (hkeys side (by cases side <;> simp))
  obtain ⟨stored, hstores, hholds, -⟩ := Network.proportions_hold_iff hbuilt h hn hratios
  exact ⟨ratios, stored, hratios, hlength, hstores, hholds⟩

end SupplyNet
