import Mathlib
import SupplyNet.Proofs.Network.Conditions

/-!
Conservation in a whole network. The flow over an edge leaves one node and enters another, so if
nothing is converted, what comes into a network from outside leaves it or stays in its storages.
-/
set_option autoImplicit false

namespace SupplyNet

namespace NodeFlows

/-- What flows into a node in a time step, all input flows together. -/
def inflowAt (f : NodeFlows Rat) (x : Var → Rat) (t : Nat) : Rat :=
  (f.inflows.map fun s => (s.flow.atStep t).eval x).sum

/-- What flows out of a node in a time step, all output flows together. -/
def outflowAt (f : NodeFlows Rat) (x : Var → Rat) (t : Nat) : Rat :=
  (f.outflows.map fun s => (s.flow.atStep t).eval x).sum

/-- What is charged more than discharged in a step of `hours`, as a flow. -/
def netChargeAt (f : NodeFlows Rat) (hours : Rat) (x : Var → Rat) (t : Nat) : Rat :=
  match f.storage with
  | some s => ((varAt s.charge t).eval x - (varAt s.discharge t).eval x) / hours
  | none => 0

/-- The flows of a node in a time step are the values of the columns that are named for its edges,
its leaves and its storage, or of its profile. -/
structure ReadFrom (nodes : List (Node Rat)) (catalogue : Catalogue Rat) (m : Model Rat)
    (hours : Rat) (x : Var → Rat) (t : Nat) (n : Node Rat) (f : NodeFlows Rat) : Prop where
  inflows : f.inflows.map (fun s => (s.commodity, (s.flow.atStep t).eval x)) =
    n.inflowsAt nodes catalogue m x t
  outflows : f.outflows.map (fun s => (s.commodity, (s.flow.atStep t).eval x)) =
    n.outflowsAt nodes catalogue m x t
  netCharge : f.netChargeAt hours x t = n.storedAt m x hours t

end NodeFlows

/-! ## Sums over edges -/

/-- A sum in which the terms of some items are counted apart. -/
theorem sum_map_split {α : Type} (l : List α) (p : α → Bool) (g rest : α → Rat)
    (hp : ∀ a ∈ l, p a = true → rest a = 0) (hrest : ∀ a ∈ l, p a = false → g a = rest a) :
    (l.map g).sum = ((l.filter p).map g).sum + (l.map rest).sum := by
  induction l with
  | nil => simp
  | cons a l ih =>
    have ih := ih (fun b hb => hp b (List.mem_cons_of_mem a hb))
      fun b hb => hrest b (List.mem_cons_of_mem a hb)
    cases ha : p a with
    | true =>
      have hzero := hp a List.mem_cons_self ha
      rw [List.filter_cons_of_pos ha, List.map_cons, List.map_cons, List.map_cons, List.sum_cons,
        List.sum_cons, List.sum_cons, ih, hzero]
      ring
    | false =>
      have heq := hrest a List.mem_cons_self ha
      rw [List.filter_cons_of_neg (by simp [ha]), List.map_cons, List.map_cons, List.sum_cons,
        List.sum_cons, ih, heq]
      ring

theorem sum_map_flatMap {α β : Type} (l : List α) (f : α → List β) (g : β → Rat) :
    ((l.flatMap f).map g).sum = (l.map fun a => ((f a).map g).sum).sum := by
  induction l with
  | nil => rfl
  | cons a l ih =>
    rw [List.flatMap_cons, List.map_append, List.sum_append, ih, List.map_cons, List.sum_cons]

theorem sum_map_filter {α : Type} (l : List α) (p : α → Prop) [DecidablePred p] (g : α → Rat) :
    ((l.filter p).map g).sum = (l.map fun a => if p a then g a else 0).sum := by
  rw [List.sum_map_ite, List.map_const', List.sum_replicate, smul_zero, add_zero]

theorem sum_map_comm {α β : Type} (l : List α) (r : List β) (g : α → β → Rat) :
    (l.map fun a => (r.map fun b => g a b).sum).sum =
      (r.map fun b => (l.map fun a => g a b).sum).sum := by
  have h := Multiset.sum_map_sum_map (l : Multiset α) (r : Multiset β) (f := g)
  simpa only [Multiset.map_coe, Multiset.sum_coe] using h

theorem sum_map_zip_fst {α β : Type} {l : List α} {r : List β} (h : l.length = r.length)
    (g : α → Rat) : ((l.zip r).map fun p => g p.1).sum = (l.map g).sum := by
  conv_rhs => rw [← List.map_fst_zip (le_of_eq h), List.map_map]
  rfl

theorem sum_map_zip_snd {α β : Type} {l : List α} {r : List β} (h : l.length = r.length)
    (g : β → Rat) : ((l.zip r).map fun p => g p.2).sum = (r.map g).sum := by
  conv_rhs => rw [← List.map_snd_zip (le_of_eq h.symm), List.map_map]
  rfl

/-- Exactly one node has the name of the source of an edge. -/
theorem sum_named {nodes : List (Node Rat)} (hw : Wired nodes) {m : Node Rat} (hm : m ∈ nodes)
    {inlet : Inlet} (hi : inlet ∈ m.inlets) (q : Rat) :
    (nodes.map fun n => if inlet.source = n.name then q else 0).sum = q := by
  obtain ⟨n, hn, hname⟩ := hw.known m hm inlet.source (List.mem_map_of_mem hi)
  have hcount : (nodes.map (·.name)).count inlet.source = 1 :=
    List.count_eq_one_of_mem hw.names_nodup (hname ▸ List.mem_map_of_mem hn)
  have hsum := List.sum_map_ite_eq (nodes.map (·.name)) (fun _ => q) (fun _ => 0) inlet.source
  rw [List.map_map, hcount, List.map_const', List.sum_replicate] at hsum
  simp only [Function.comp_def, eq_comm (b := inlet.source)] at hsum
  rw [hsum]
  simp

/-- The edges that leave all nodes are those that enter all nodes. -/
theorem sum_outlets {nodes : List (Node Rat)} (hw : Wired nodes) (g : String → String → Rat) :
    (nodes.map fun n => ((outlets nodes n.name).map fun o => g n.name o.target).sum).sum =
      (nodes.map fun m => (m.inlets.map fun i => g i.source m.name).sum).sum := by
  have hout : ∀ n ∈ nodes, ((outlets nodes n.name).map fun o => g n.name o.target).sum =
      (nodes.map fun m => (m.inlets.map fun i =>
        if i.source = n.name then g i.source m.name else 0).sum).sum := by
    intro n _
    unfold outlets
    rw [sum_map_flatMap]
    refine congrArg List.sum (List.map_congr_left fun m _ => ?_)
    rw [List.map_map, sum_map_filter]
    refine congrArg List.sum (List.map_congr_left fun i _ => ?_)
    by_cases h : i.source = n.name
    · rw [if_pos h, if_pos h, h]
      rfl
    · rw [if_neg h, if_neg h]
  rw [List.map_congr_left hout, sum_map_comm]
  refine congrArg List.sum (List.map_congr_left fun m hm => ?_)
  rw [sum_map_comm]
  exact congrArg List.sum (List.map_congr_left fun i hi => sum_named hw hm hi _)

/-! ## The flows of a node -/

theorem Node.outputNames_ne_nil (nodes : List (Node Rat)) (n : Node Rat) :
    outputNames nodes n ≠ [] := by
  unfold outputNames
  split
  · simp
  · next hs => simpa using hs

section Flows

variable {nodes : List (Node Rat)} {catalogue : Catalogue Rat} {n : Node Rat}
variable {c : NodeCommodities} {f : NodeFlows Rat} {steps : Nat} {x : Var → Rat} {t : Nat}
variable (hnames : ((variableKeys nodes).map (·.name)).Nodup) (ht : t < steps) (hn : n ∈ nodes)
variable (h : n.Bound catalogue (outlets nodes n.name) (registry nodes steps) c f)

include hnames ht hn h

theorem netChargeAt_eq (hours : Rat) :
    f.netChargeAt hours x t = n.storedAt (registry nodes steps) x hours t := by
  unfold NodeFlows.netChargeAt
  rw [h.storage]
  unfold Node.storageIn
  by_cases hs : n.storage.isSome = true
  · have hrate := Node.eval_netChargeRate x hnames ht hn hs hours
    unfold StorageVars.netChargeRate at hrate
    rw [LinearExpr.eval_scale, LinearExpr.eval_sub, mul_one_div] at hrate
    rw [if_pos hs, ← hrate]
  · rw [if_neg hs, Node.storedAt, if_neg hs]

theorem readFrom_registry (hours : Rat) :
    f.ReadFrom nodes catalogue (registry nodes steps) hours x t n :=
  ⟨Node.map_inflows x hnames ht hn h, Node.map_outflows x hnames ht hn h,
    netChargeAt_eq hnames ht hn h hours⟩

theorem outflowAt_of_served (hs : outlets nodes n.name ≠ []) :
    f.outflowAt x t = ((outlets nodes n.name).map fun o =>
      x ((registry nodes steps).columnOf (.edge n.name o.target) t)).sum := by
  have hmap := congrArg (List.map Prod.snd) (Node.map_outflows x hnames ht hn h)
  unfold Node.outflowsAt at hmap
  rw [List.map_map] at hmap
  unfold NodeFlows.outflowAt
  split at hmap
  · next he => exact absurd he hs
  · rw [List.map_map] at hmap
    exact congrArg List.sum hmap

theorem inflowAt_of_inlets (hi : n.inlets ≠ []) :
    f.inflowAt x t = (n.inlets.map fun i =>
      x ((registry nodes steps).columnOf (.edge i.source n.name) t)).sum := by
  have hmap := congrArg (List.map Prod.snd) (Node.map_inflows x hnames ht hn h)
  unfold Node.inflowsAt at hmap
  rw [List.map_map] at hmap
  unfold NodeFlows.inflowAt
  split at hmap
  · next he => exact absurd he hi
  · rw [List.map_map] at hmap
    exact congrArg List.sum hmap

end Flows

section Conserved

variable {nodes : List (Node Rat)} {grid : Grid} {config : Config Rat} {cs : List NodeCommodities}
variable {groups : List (Rows Rat)} {net : Network Rat} {x : Var → Rat} {t : Nat}

theorem Compiled.readFrom (h : Compiled nodes grid config cs groups net) (ht : t < grid.size)
    {n : Node Rat} {f : NodeFlows Rat} (hp : (n, f) ∈ nodes.zip net.flows) :
    f.ReadFrom nodes config.catalogue net.model grid.hours x t n := by
  obtain ⟨c, hbound⟩ := h.bound hp
  have hread := readFrom_registry (x := x) h.names_nodup ht (List.of_mem_zip hp).1 hbound grid.hours
  rw [h.model]
  exact ⟨hread.inflows, hread.outflows, hread.netCharge⟩

/-- A node that converts nothing passes on or stores what it takes in. -/
theorem Compiled.passes_on (h : Compiled nodes grid config cs groups net)
    (hall : ∀ c ∈ net.model.constraints, c.Holds x) (ht : t < grid.size) {n : Node Rat}
    {f : NodeFlows Rat} (hp : (n, f) ∈ nodes.zip net.flows) (hbuilt : n.Built) {commodity : String}
    (hsame : ∀ s ∈ f.inflows ++ f.outflows, s.commodity = commodity)
    (hconv : n.conversions = none)
    (hfactor : n.factorTo nodes config.catalogue commodity = 1) :
    f.outflowAt x t + f.netChargeAt grid.hours x t = f.inflowAt x t := by
  have hn : n ∈ nodes := (List.of_mem_zip hp).1
  obtain ⟨c, hbound⟩ := h.bound hp
  have hout : ∀ s ∈ f.outflows, s.commodity = commodity := fun s hs =>
    hsame s (List.mem_append_right _ hs)
  have hmem : commodity ∈ Node.outputNames nodes n := by
    obtain ⟨q, hq⟩ := List.exists_mem_of_ne_nil _ (Node.outputNames_ne_nil nodes n)
    rw [← Node.map_commodity_outflows hbound] at hq ⊢
    obtain ⟨s, hs, rfl⟩ := List.mem_map.1 hq
    exact List.mem_map.2 ⟨s, hs, hout s hs⟩
  obtain ⟨inputs, factor, hconversion, hzero⟩ :=
    h.exists_balanceAt_eq_zero hall hp hbuilt hmem ht
  obtain ⟨rfl, rfl⟩ := Node.conversion_eq hbound hconversion
  have houtflows : (Flow.sumAt (flowsOf f.outflows commodity) t).eval x = f.outflowAt x t := by
    rw [Node.eval_sumAt, flowsOf, List.filter_eq_self.2 (by simpa using hout), List.map_map]
    rfl
  have hinflows : (Flow.sumAt ((f.inflows.filter fun s => n.madeFrom commodity s.commodity).map
      (·.flow)) t).eval x = f.inflowAt x t := by
    have hmade : (f.inflows.filter fun s => n.madeFrom commodity s.commodity) = f.inflows :=
      List.filter_eq_self.2 fun s _ => by simp [Node.madeFrom, hconv]
    rw [Node.eval_sumAt, hmade, List.map_map]
    rfl
  unfold Node.balanceAt at hzero
  rw [LinearExpr.eval_sub, LinearExpr.eval_scale, hinflows, hfactor] at hzero
  unfold NodeFlows.netChargeAt
  cases hs : f.storage with
  | none =>
    simp only [hs, houtflows] at hzero ⊢
    linarith
  | some s =>
    simp only [hs, LinearExpr.eval_add, houtflows, StorageVars.netChargeRate,
      LinearExpr.eval_scale, LinearExpr.eval_sub, mul_one_div] at hzero ⊢
    linarith

/-- All that flows out of nodes, with the flows over edges counted at their sources. -/
theorem Compiled.sum_outflowAt (h : Compiled nodes grid config cs groups net)
    (ht : t < grid.size) :
    ((nodes.zip net.flows).map fun p => p.2.outflowAt x t).sum =
      (((nodes.zip net.flows).filter fun p => (outlets nodes p.1.name).isEmpty).map
          fun p => p.2.outflowAt x t).sum +
        (nodes.map fun n => ((outlets nodes n.name).map fun o =>
          x ((registry nodes grid.size).columnOf (.edge n.name o.target) t)).sum).sum := by
  rw [← sum_map_zip_fst h.length_flows.symm]
  apply sum_map_split
  · intro p _ hs
    rw [List.isEmpty_iff.1 hs, List.map_nil, List.sum_nil]
  · intro p hp hs
    obtain ⟨c, hbound⟩ := h.bound hp
    exact outflowAt_of_served h.names_nodup ht (List.of_mem_zip hp).1 hbound (by simpa using hs)

/-- All that flows into nodes, with the flows over edges counted at their targets. -/
theorem Compiled.sum_inflowAt (h : Compiled nodes grid config cs groups net)
    (ht : t < grid.size) :
    ((nodes.zip net.flows).map fun p => p.2.inflowAt x t).sum =
      (((nodes.zip net.flows).filter fun p => p.1.inputs.isEmpty).map
          fun p => p.2.inflowAt x t).sum +
        (nodes.map fun n => (n.inlets.map fun i =>
          x ((registry nodes grid.size).columnOf (.edge i.source n.name) t)).sum).sum := by
  rw [← sum_map_zip_fst h.length_flows.symm]
  apply sum_map_split
  · intro p _ hi
    have hinlets : p.1.inlets = [] := by simpa [Node.inputs] using hi
    rw [hinlets, List.map_nil, List.sum_nil]
  · intro p hp hi
    obtain ⟨c, hbound⟩ := h.bound hp
    exact inflowAt_of_inlets h.names_nodup ht (List.of_mem_zip hp).1 hbound
      (by simpa [Node.inputs] using hi)

/-- Without conversions, what comes into a network where no node supplies it is what leaves it where
it supplies no node, with what is charged more than discharged in all storages. Each node has its
flows, and these are read from the columns that are named for its edges, its leaves and its storage;
no two of these have the same name. -/
theorem Network.flow_conserved (hbuilt : ∀ n ∈ nodes, n.Built)
    (h : Network.build nodes grid config = .ok net) {commodity : String}
    (hsame : ∀ f ∈ net.flows, ∀ s ∈ f.inflows ++ f.outflows, s.commodity = commodity)
    (hfactor : ∀ n ∈ nodes, n.conversions = none ∧
      n.factorTo nodes config.catalogue commodity = 1)
    (hx : ∀ c ∈ net.model.constraints, c.Holds x) (ht : t < grid.size) :
    ((variableKeys nodes).map (·.name)).Nodup ∧
    (∀ k ∈ variableKeys nodes, net.model.Has grid.size k) ∧
    net.flows.length = nodes.length ∧
    (∀ p ∈ nodes.zip net.flows,
      p.2.ReadFrom nodes config.catalogue net.model grid.hours x t p.1) ∧
    (((nodes.zip net.flows).filter fun p => p.1.inputs.isEmpty).map
        fun p => p.2.inflowAt x t).sum =
      (((nodes.zip net.flows).filter fun p => (outlets nodes p.1.name).isEmpty).map
          fun p => p.2.outflowAt x t).sum +
        (net.flows.map fun f => f.netChargeAt grid.hours x t).sum := by
  obtain ⟨cs, groups, hc⟩ := Network.build_eq_ok_iff.1 h
  have hnodes : ((nodes.zip net.flows).map fun p => p.2.outflowAt x t).sum +
      (net.flows.map fun f => f.netChargeAt grid.hours x t).sum =
      ((nodes.zip net.flows).map fun p => p.2.inflowAt x t).sum := by
    rw [← sum_map_zip_snd hc.length_flows.symm, ← List.sum_map_add]
    refine congrArg List.sum (List.map_congr_left fun p hp => ?_)
    obtain ⟨hn, hf⟩ := List.of_mem_zip hp
    exact hc.passes_on hx ht hp (hbuilt _ hn) (hsame _ hf) (hfactor _ hn).1 (hfactor _ hn).2
  have hedges := sum_outlets hc.wired fun source target =>
    x ((registry nodes grid.size).columnOf (.edge source target) t)
  rw [hc.sum_outflowAt ht, hc.sum_inflowAt ht] at hnodes
  exact ⟨hc.names_nodup, fun _ hk => hc.has hk, hc.length_flows, fun p hp => hc.readFrom ht hp,
    by linarith⟩

end Conserved

/-- Of the six units of wind in each hour, five reach the town and one is stored. -/
theorem flow_of_windNetwork :
    ∃ net, Network.build (builtNodes windDrafts) windGrid .standard = .ok net ∧
      (∀ f ∈ net.flows, ∀ s ∈ f.inflows ++ f.outflows, s.commodity = "electricity") ∧
      (∀ n ∈ builtNodes windDrafts, n.conversions = none ∧
        n.factorTo (builtNodes windDrafts) Config.standard.catalogue "electricity" = 1) ∧
      (∀ c ∈ net.model.constraints, c.Holds (assignment windValues)) ∧
      ∀ t < windGrid.size,
        let items := (builtNodes windDrafts).zip net.flows
        let supplied := ((items.filter fun p => p.1.inputs.isEmpty).map
          fun p => p.2.inflowAt (assignment windValues) t).sum
        let delivered := ((items.filter fun p =>
          (outlets (builtNodes windDrafts) p.1.name).isEmpty).map
          fun p => p.2.outflowAt (assignment windValues) t).sum
        let stored := (net.flows.map fun f =>
          f.netChargeAt windGrid.hours (assignment windValues) t).sum
        (∀ p ∈ items, p.2.ReadFrom (builtNodes windDrafts) Config.standard.catalogue net.model
          windGrid.hours (assignment windValues) t p.1) ∧
        supplied = delivered + stored ∧ supplied = 6 ∧ delivered = 5 ∧ stored = 1 := by
  obtain ⟨net, h, hx⟩ := exists_feasible_windNetwork
  have hsame : (Network.build (builtNodes windDrafts) windGrid .standard).toOption.all
      (fun net => net.flows.all fun f =>
        (f.inflows ++ f.outflows).all fun s => s.commodity = "electricity") = true := by
    decide +kernel
  have hplain : ∀ n ∈ builtNodes windDrafts,
      n.conversions.isNone = true ∧ n.convertFactor = .plain 1 := by
    decide +kernel
  have hsums : (Network.build (builtNodes windDrafts) windGrid .standard).toOption.all
      (fun net => decide (∀ t < windGrid.size,
        (((((builtNodes windDrafts).zip net.flows).filter fun p => p.1.inputs.isEmpty).map
          fun p => p.2.inflowAt (assignment windValues) t).sum = 6) ∧
        (((((builtNodes windDrafts).zip net.flows).filter fun p =>
          (outlets (builtNodes windDrafts) p.1.name).isEmpty).map
          fun p => p.2.outflowAt (assignment windValues) t).sum = 5) ∧
        ((net.flows.map fun f =>
          f.netChargeAt windGrid.hours (assignment windValues) t).sum = 1))) = true := by
    decide +kernel
  rw [h] at hsame hsums
  have hsame : ∀ f ∈ net.flows, ∀ s ∈ f.inflows ++ f.outflows, s.commodity = "electricity" :=
    fun f hf s hs => of_decide_eq_true (List.all_eq_true.1 (List.all_eq_true.1 hsame f hf) s hs)
  have hfactor : ∀ n ∈ builtNodes windDrafts, n.conversions = none ∧
      n.factorTo (builtNodes windDrafts) Config.standard.catalogue "electricity" = 1 := by
    intro n hn
    have hconv := Option.isNone_iff_eq_none.1 (hplain n hn).1
    exact ⟨hconv, Node.factorTo_of_plain_one hconv (hplain n hn).2 _⟩
  refine ⟨net, h, hsame, hfactor, hx.2, fun t ht => ?_⟩
  obtain ⟨-, -, -, hread, hconserved⟩ :=
    Network.flow_conserved (fun _ hn => built_of_mem hn) h hsame hfactor hx.2 ht
  exact ⟨hread, hconserved, of_decide_eq_true hsums t ht⟩

end SupplyNet
