import Mathlib
import SupplyNet.Proofs.Network.Complete

/-!
Tables of flows and commodities. The passes over a network fill one table of flows and one of
commodities for each side of each node, and put them together entry by entry at the end, so that
what one table has and the other has not would be lost without notice. Nothing is lost: the tables
are as long as each other, what leaves a node in an entry enters another one in a slot, and so it is
with the flows that they are put together to.
-/
set_option autoImplicit false

namespace SupplyNet

variable {K : Type} [Scalar K]

/-! ## The tables -/

/-- The flows of a node on both sides before they are put together with its commodities. -/
structure FlowTable (K : Type) extends Declared K where
  outflows : List (Flow K)

/-- The entries of both tables on both sides, put together as far as they go. -/
def FlowTable.toFlows (t : FlowTable K) (n : Node K) (outputNames : List String)
    (c : NodeCommodities) : NodeFlows K :=
  ⟨t.size, c.size, t.storage, Node.streams n.inputs c.inflow t.inflows,
    Node.streams outputNames c.outflow t.outflows⟩

/-- The table of a node, given the flows over the edges that leave it. -/
def Node.bindTable (catalogue : Catalogue K) (steps : Nat) (m : Model K) (n : Node K)
    (c : NodeCommodities) (d : Declared K) (edgeFlows : List (Flow K)) :
    Except (CompileError K) (FlowTable K × Model K) := do
  let (outflows, m) ← n.addOutflows catalogue steps c edgeFlows m
  let (inflows, m) ← orOwnFlow s!"input_flow_{n.name}" steps d.inflows m
  return (⟨⟨d.size, inflows, d.storage⟩, outflows⟩, m)

/-- The tables of all nodes after both passes. -/
def Graph.addTables (g : Graph K) (catalogue : Catalogue K) (steps : Nat)
    (cs : List NodeCommodities) (m : Model K) :
    Except (CompileError K) (List (FlowTable K) × Model K) := do
  let (declared, m) ← runEach (Node.declare catalogue steps) m (g.nodes.zip cs)
  runEach (fun m ((n, c, d), i) => n.bindTable catalogue steps m c d
    (((g.wires declared).filter (·.1.source = i)).map Prod.snd)) m
    (g.nodes.zip (cs.zip declared)).zipIdx

/-- All tables of flows put together with those of the commodities. -/
def Graph.zipTables (g : Graph K) (cs : List NodeCommodities) (ts : List (FlowTable K)) :
    List (NodeFlows K) :=
  (g.nodes.zip (cs.zip ts)).zipIdx.map fun ((n, c, t), i) => t.toFlows n (g.outputNames i) c

/-- The node at a position, with its entries in all tables. -/
structure Graph.At (g : Graph K) (cs : List NodeCommodities) (ts : List (FlowTable K)) (i : Nat)
    (n : Node K) (c : NodeCommodities) (t : FlowTable K) : Prop where
  node : g.nodes[i]? = some n
  commodities : cs[i]? = some c
  flows : ts[i]? = some t

/-- The tables have an entry for each input of a node, and for each edge that leaves it, or a single
one where there is none. The flows in them have an expression for each step, and the commodities have
units. Over each edge the same commodity and the same flow go out of an entry and into a slot, and
each input is the end of a single edge. What a node converts comes in, and what it converts to is
what goes out. -/
structure Graph.Aligned (g : Graph K) (catalogue : Catalogue K) (steps : Nat)
    (cs : List NodeCommodities) (ts : List (FlowTable K)) : Prop where
  commodities_length : cs.length = g.nodes.length
  flows_length : ts.length = g.nodes.length
  inflow_length : ∀ {i n c t}, g.At cs ts i n c t →
    c.inflow.length = max 1 n.inputs.length ∧ t.inflows.length = max 1 n.inputs.length
  outflow_length : ∀ {i n c t}, g.At cs ts i n c t →
    c.outflow.length = max 1 (g.edgesFrom i).length ∧
      t.outflows.length = max 1 (g.edgesFrom i).length
  flow_size : ∀ {i n c t}, g.At cs ts i n c t → ∀ f ∈ t.inflows ++ t.outflows, f.size = steps
  unit : ∀ {i n c t}, g.At cs ts i n c t → ∀ commodity ∈ c.inflow ++ c.outflow,
    ∃ unit, catalogue.unitOf commodity = .ok unit
  edge : ∀ {i n c t}, g.At cs ts i n c t → ∀ {k : Nat} {e : Edge}, (g.edgesFrom i)[k]? = some e →
    ∃ n' c' t', g.At cs ts e.target n' c' t' ∧ n'.inputs[e.slot]? = some n.name ∧
      (∃ commodity, c.outflow[k]? = some commodity ∧ c'.inflow[e.slot]? = some commodity) ∧
      ∃ flow, t.outflows[k]? = some flow ∧ t'.inflows[e.slot]? = some flow
  input : ∀ {j n}, g.nodes[j]? = some n → ∀ slot < n.inputs.length,
    ∃! p : Nat × Nat, ∃ e, (g.edgesFrom p.1)[p.2]? = some e ∧ e.target = j ∧ e.slot = slot
  source : ∀ {i n c t}, g.At cs ts i n c t → ∀ conversions, n.conversions = some conversions →
    ∀ conversion ∈ conversions.values, conversion.source ∈ c.inflow
  keys : ∀ {i n c t}, g.At cs ts i n c t → ∀ conversions, n.conversions = some conversions →
    ∀ commodity, commodity ∈ conversions.keys ↔ commodity ∈ c.outflow

/-- The flows of the nodes have all entries of both tables, one for each input of a node, and one for
each edge that leaves it, or a single one where there is none. What flows over an edge is the same at
both ends, but for the neighbour. -/
structure Graph.Streamed (g : Graph K) (cs : List NodeCommodities) (ts : List (FlowTable K))
    (fs : List (NodeFlows K)) : Prop where
  length : fs.length = g.nodes.length
  inflows : ∀ {i n c t f}, g.At cs ts i n c t → fs[i]? = some f →
    f.inflows.map (·.commodity) = c.inflow ∧ f.inflows.map (·.flow) = t.inflows
  outflows : ∀ {i n c t f}, g.At cs ts i n c t → fs[i]? = some f →
    f.outflows.map (·.commodity) = c.outflow ∧ f.outflows.map (·.flow) = t.outflows
  inflow_length : ∀ {i : Nat} {n f}, g.nodes[i]? = some n → fs[i]? = some f →
    f.inflows.length = max 1 n.inputs.length
  outflow_length : ∀ {i : Nat} {n f}, g.nodes[i]? = some n → fs[i]? = some f →
    f.outflows.length = max 1 (g.edgesFrom i).length
  edge : ∀ {i : Nat} {n f}, g.nodes[i]? = some n → fs[i]? = some f →
    ∀ {k : Nat} {e : Edge}, (g.edgesFrom i)[k]? = some e →
      ∃ n' f' commodity flow, g.nodes[e.target]? = some n' ∧ fs[e.target]? = some f' ∧
        f.outflows[k]? = some ⟨some n'.name, commodity, flow⟩ ∧
        f'.inflows[e.slot]? = some ⟨some n.name, commodity, flow⟩

/-! ## Aligned tables put together -/

namespace Node

section Streams

variable {neighbours commodities : List String} {flows : List (Flow K)}

omit [Scalar K] in
theorem getElem?_streams {i : Nat} {commodity : String} {flow : Flow K}
    (hc : commodities[i]? = some commodity) (hf : flows[i]? = some flow) :
    (streams neighbours commodities flows)[i]? = some ⟨neighbours[i]?, commodity, flow⟩ := by
  unfold streams
  rw [List.getElem?_map, List.getElem?_zipIdx, getElem?_zip_of hc hf, Nat.zero_add]
  rfl

omit [Scalar K] in
/-- Lists of the same length are put together as a whole. -/
theorem map_streams (h : commodities.length = flows.length) :
    (streams neighbours commodities flows).map (·.commodity) = commodities ∧
      (streams neighbours commodities flows).map (·.flow) = flows := by
  have hpairs : (streams neighbours commodities flows).map (fun s => (s.commodity, s.flow)) =
      commodities.zip flows := by
    unfold streams
    rw [List.map_map]
    exact List.zipIdx_map_fst 0 (commodities.zip flows)
  have hfst := congrArg (List.map Prod.fst) hpairs
  have hsnd := congrArg (List.map Prod.snd) hpairs
  rw [List.map_map, List.map_fst_zip h.le] at hfst
  rw [List.map_map, List.map_snd_zip h.ge] at hsnd
  exact ⟨hfst, hsnd⟩

end Streams

end Node

namespace Graph

variable {g : Graph K} {catalogue : Catalogue K} {steps : Nat} {cs : List NodeCommodities}
variable {ts : List (FlowTable K)}

theorem At.getElem?_zipTables {i : Nat} {n : Node K} {c : NodeCommodities} {t : FlowTable K}
    (h : g.At cs ts i n c t) :
    (g.zipTables cs ts)[i]? = some (t.toFlows n (g.outputNames i) c) := by
  unfold zipTables
  rw [List.getElem?_map, List.getElem?_zipIdx,
    getElem?_zip_of h.node (getElem?_zip_of h.commodities h.flows), Nat.zero_add]
  rfl

namespace Aligned

variable (h : g.Aligned catalogue steps cs ts) {i : Nat} {n : Node K} {c : NodeCommodities}
variable {t : FlowTable K} {f : NodeFlows K}

include h

theorem exists_at (hi : g.nodes[i]? = some n) : ∃ c t, g.At cs ts i n c t := by
  have hlt := (List.getElem?_eq_some_iff.1 hi).1
  exact ⟨_, _, hi, List.getElem?_eq_getElem (h.commodities_length.symm ▸ hlt),
    List.getElem?_eq_getElem (h.flows_length.symm ▸ hlt)⟩

theorem inflows_zipTables (hat : g.At cs ts i n c t) (hf : (g.zipTables cs ts)[i]? = some f) :
    f.inflows.map (·.commodity) = c.inflow ∧ f.inflows.map (·.flow) = t.inflows := by
  obtain rfl := Option.some.inj (hat.getElem?_zipTables.symm.trans hf)
  obtain ⟨hc, ht⟩ := h.inflow_length hat
  exact Node.map_streams (hc.trans ht.symm)

theorem outflows_zipTables (hat : g.At cs ts i n c t) (hf : (g.zipTables cs ts)[i]? = some f) :
    f.outflows.map (·.commodity) = c.outflow ∧ f.outflows.map (·.flow) = t.outflows := by
  obtain rfl := Option.some.inj (hat.getElem?_zipTables.symm.trans hf)
  obtain ⟨hc, ht⟩ := h.outflow_length hat
  exact Node.map_streams (hc.trans ht.symm)

/-- An edge has the same commodity and the same flow at both ends. -/
theorem edge_zipTables (hi : g.nodes[i]? = some n) (hf : (g.zipTables cs ts)[i]? = some f)
    {k : Nat} {e : Edge} (he : (g.edgesFrom i)[k]? = some e) :
    ∃ n' f' commodity flow, g.nodes[e.target]? = some n' ∧
      (g.zipTables cs ts)[e.target]? = some f' ∧
      f.outflows[k]? = some ⟨some n'.name, commodity, flow⟩ ∧
      f'.inflows[e.slot]? = some ⟨some n.name, commodity, flow⟩ := by
  obtain ⟨c, t, hat⟩ := h.exists_at hi
  obtain ⟨n', c', t', hat', hname, ⟨commodity, hc, hc'⟩, flow, ht, ht'⟩ := h.edge hat he
  obtain rfl := Option.some.inj (hat.getElem?_zipTables.symm.trans hf)
  have hneighbour : (g.outputNames i)[k]? = some n'.name := by
    rw [outputNames, List.getElem?_map, he, Option.map_some, nameAt_eq hat'.node]
  refine ⟨n', _, commodity, flow, hat'.node, hat'.getElem?_zipTables, ?_, ?_⟩
  · rw [← hneighbour]
    exact Node.getElem?_streams hc ht
  · rw [← hname]
    exact Node.getElem?_streams hc' ht'

/-- Putting together what is aligned loses nothing. -/
theorem streamed : g.Streamed cs ts (g.zipTables cs ts) where
  length := by
    unfold zipTables
    rw [List.length_map, List.length_zipIdx, List.length_zip, List.length_zip, h.flows_length,
      h.commodities_length, Nat.min_self, Nat.min_self]
  inflows := h.inflows_zipTables
  outflows := h.outflows_zipTables
  inflow_length := by
    intro i n f hi hf
    obtain ⟨c, t, hat⟩ := h.exists_at hi
    rw [← (h.inflow_length hat).1, ← (h.inflows_zipTables hat hf).1, List.length_map]
  outflow_length := by
    intro i n f hi hf
    obtain ⟨c, t, hat⟩ := h.exists_at hi
    rw [← (h.outflow_length hat).1, ← (h.outflows_zipTables hat hf).1, List.length_map]
  edge := fun hi hf _ _ he => h.edge_zipTables hi hf he

end Aligned

end Graph

/-! ## Putting tables together -/

section Passes

variable {σ α β γ ε : Type} {f : σ → α → Except ε (β × σ)}

theorem runEach_map (h : α → β → γ) (s : σ) (l : List α) :
    runEach (fun s a => (f s a).map fun r => (h a r.1, r.2)) s l =
      (runEach f s l).map fun r => (List.zipWith h l r.1, r.2) := by
  induction l generalizing s with
  | nil => rfl
  | cons a l ih =>
    change (((f s a).map fun r => (h a r.1, r.2)) >>= fun p => (runEach
        (fun s a => (f s a).map fun r => (h a r.1, r.2)) p.2 l).map fun q => (p.1 :: q.1, q.2)) =
      (f s a >>= fun p => (runEach f p.2 l).map fun q => (p.1 :: q.1, q.2)).map _
    cases f s a with
    | error e => rfl
    | ok p =>
      change ((runEach _ p.2 l).map fun q => (h a p.1 :: q.1, q.2)) =
        ((runEach f p.2 l).map fun q => (p.1 :: q.1, q.2)).map _
      rw [ih]
      cases runEach f p.2 l with
      | error e => rfl
      | ok q => rfl

/-- Each result of a pass comes of a step in some state. -/
theorem forall₂_of_runEach {s s' : σ} {l : List α} {r : List β} (h : runEach f s l = .ok (r, s')) :
    List.Forall₂ (fun a b => ∃ s s', f s a = .ok (b, s')) l r := by
  induction l generalizing s r with
  | nil =>
    obtain ⟨rfl, -⟩ := Prod.mk.inj (Except.ok.inj h)
    exact .nil
  | cons a l ih =>
    unfold runEach at h
    obtain ⟨⟨b, s₁⟩, hb, h⟩ := bind_eq_ok_iff.1 h
    obtain ⟨⟨bs, s₂⟩, hbs, h⟩ := bind_eq_ok_iff.1 h
    obtain ⟨rfl, rfl⟩ := Prod.mk.inj (Except.ok.inj h)
    exact .cons ⟨s, s₁, hb⟩ (ih hbs)

end Passes

theorem Node.bind_eq_map (catalogue : Catalogue K) (steps : Nat) (m : Model K) (n : Node K)
    (c : NodeCommodities) (d : Declared K) (outputNames : List String)
    (edgeFlows : List (Flow K)) :
    n.bind catalogue steps m c d outputNames edgeFlows =
      (n.bindTable catalogue steps m c d edgeFlows).map
        fun r => (r.1.toFlows n outputNames c, r.2) := by
  unfold bind bindTable
  cases n.addOutflows catalogue steps c edgeFlows m with
  | error e => rfl
  | ok r =>
    cases hin : orOwnFlow s!"input_flow_{n.name}" steps d.inflows r.2 with
    | error e => simp only [Bind.bind, Except.bind, hin]; rfl
    | ok r' => simp only [Bind.bind, Except.bind, hin]; rfl

namespace Graph

section Tables

variable {g : Graph K} {catalogue : Catalogue K} {steps : Nat} {cs : List NodeCommodities}
variable {ds : List (Declared K)} {m : Model K}

/-- What the nodes have declared is in step with their commodities, so that going along with it
leaves nothing out. -/
theorem zipWith_toFlows {ts : List (FlowTable K)} (hds : ds.length = (g.nodes.zip cs).length)
    (hts : ts.length = (g.nodes.zip (cs.zip ds)).zipIdx.length) :
    List.zipWith (fun p t => FlowTable.toFlows t p.1.1 (g.outputNames p.2) p.1.2.1)
      (g.nodes.zip (cs.zip ds)).zipIdx ts = g.zipTables cs ts := by
  simp only [List.length_zipIdx, List.length_zip] at hds hts
  unfold zipTables
  apply List.ext_getElem
  · simp only [List.length_zipWith, List.length_map, List.length_zipIdx, List.length_zip]
    omega
  · intro i h₁ h₂
    simp

/-- The pass that binds the nodes gives their tables put together. -/
theorem runEach_bind_eq_map (hds : ds.length = (g.nodes.zip cs).length) :
    runEach (fun m ((n, c, d), i) => n.bind catalogue steps m c d (g.outputNames i)
        (((g.wires ds).filter (·.1.source = i)).map Prod.snd)) m
        (g.nodes.zip (cs.zip ds)).zipIdx =
      (runEach (fun m ((n, c, d), i) => n.bindTable catalogue steps m c d
        (((g.wires ds).filter (·.1.source = i)).map Prod.snd)) m
        (g.nodes.zip (cs.zip ds)).zipIdx).map fun r => (g.zipTables cs r.1, r.2) := by
  simp only [Node.bind_eq_map]
  refine (runEach_map (fun (p : (Node K × NodeCommodities × Declared K) × Nat) t =>
    FlowTable.toFlows t p.1.1 (g.outputNames p.2) p.1.2.1) m _).trans ?_
  cases hts : runEach (fun m ((n, c, d), i) => n.bindTable catalogue steps m c d
      (((g.wires ds).filter (·.1.source = i)).map Prod.snd)) m
      (g.nodes.zip (cs.zip ds)).zipIdx with
  | error e => rfl
  | ok r =>
    exact congrArg (fun fs => Except.ok (fs, r.2))
      (zipWith_toFlows hds (forall₂_of_runEach hts).length_eq.symm)

/-- The flows of a network are its tables put together. -/
theorem addFlows_eq_map : g.addFlows catalogue steps cs m =
    (g.addTables catalogue steps cs m).map fun r => (g.zipTables cs r.1, r.2) := by
  unfold addFlows addTables
  cases hds : runEach (Node.declare catalogue steps) m (g.nodes.zip cs) with
  | error e => rfl
  | ok r => exact runEach_bind_eq_map (forall₂_of_runEach hds).length_eq.symm

end Tables

end Graph

/-! ## The flows of a node -/

/-- Flows are what was given, or a single one that is as long as it should be. -/
structure Filled (steps : Nat) (given flows : List (Flow K)) : Prop where
  length : flows.length = max 1 given.length
  kept : given ≠ [] → flows = given
  size : (∀ f ∈ given, f.size = steps) → ∀ f ∈ flows, f.size = steps

omit [Scalar K] in
theorem filled_self {steps : Nat} {given : List (Flow K)} (h : given ≠ []) :
    Filled steps given given :=
  ⟨(max_eq_right (List.length_pos_of_ne_nil h)).symm, fun _ => rfl, id⟩

omit [Scalar K] in
theorem filled_single {steps : Nat} {flow : Flow K} (h : flow.size = steps) :
    Filled steps [] [flow] :=
  ⟨rfl, fun hne => absurd rfl hne, fun _ => List.forall_mem_singleton.2 h⟩

namespace Node

variable {catalogue : Catalogue K} {steps : Nat} {c : NodeCommodities} {n : Node K}
variable {m m' : Model K}

theorem size_of_addFlow {name : String} {flow : Flow K}
    (h : addFlow m name steps = .ok (flow, m')) : flow.size = steps := by
  obtain ⟨⟨vs, m₁⟩, hvs, h⟩ := bind_eq_ok_iff.1 h
  obtain ⟨rfl, -⟩ := Prod.mk.inj (Except.ok.inj h)
  have hadded := mapError_eq_ok_iff.1 hvs
  rw [m.addSeries_eq] at hadded
  split at hadded
  · cases hadded
  · obtain ⟨rfl, -⟩ := Prod.mk.inj (Except.ok.inj hadded)
    simp [Flow.size_ofVars]

theorem filled_of_orOwnFlow {name : String} {given flows : List (Flow K)}
    (h : orOwnFlow name steps given m = .ok (flows, m')) : Filled steps given flows := by
  unfold orOwnFlow at h
  split at h
  · next hnil =>
    obtain ⟨⟨flow, m₁⟩, hflow, h⟩ := map_eq_ok_iff.1 h
    obtain ⟨rfl, -⟩ := Prod.mk.inj h
    rw [List.isEmpty_iff.1 hnil]
    exact filled_single (size_of_addFlow hflow)
  · next hne =>
    obtain ⟨rfl, -⟩ := Prod.mk.inj (Except.ok.inj h)
    exact filled_self (by simpa using hne)

variable (hprofile : ∀ profile ∈ n.role.profile?, profile.grid.size = steps)

include hprofile

/-- An input node has a flow of its own, and other nodes have one for each inlet. -/
theorem inflows_of_addInflows {size : Option Var} {inflows : List (Flow K)}
    (h : n.addInflows catalogue steps c size m = .ok (inflows, m')) :
    inflows.length = (if n.kind.isInput then 1 else n.inlets.length) ∧
      ∀ f ∈ inflows, f.size = steps := by
  unfold addInflows at h
  cases hr : n.role with
  | fixedInput flow =>
    have hk : n.kind.isInput := by rw [kind, hr]; rfl
    rw [hr] at h hprofile
    obtain ⟨f, hf, h⟩ := bind_eq_ok_iff.1 h
    obtain ⟨rfl, -⟩ := Prod.mk.inj (Except.ok.inj h)
    rw [if_pos hk]
    exact ⟨rfl, List.forall_mem_singleton.2 ((size_of_flowIn hf).trans (hprofile flow rfl))⟩
  | scalableInput factors =>
    have hk : n.kind.isInput := by rw [kind, hr]; rfl
    rw [hr] at h hprofile
    obtain ⟨values, hvalues, h⟩ := bind_eq_ok_iff.1 h
    obtain ⟨rfl, -⟩ := Prod.mk.inj (Except.ok.inj h)
    rw [if_pos hk]
    refine ⟨rfl, List.forall_mem_singleton.2 ?_⟩
    unfold Flow.ofFactors
    rw [List.size_toArray, List.length_map,
      Series.length_valuesIn (mapError_eq_ok_iff.1 hvalues), hprofile factors rfl]
  | fixedOutput inputs flow | scalableOutput inputs profile | generic inputs =>
    have hk : ¬n.kind.isInput := by
      simp [kind, hr, Role.kind, NodeKind.isInput, NodeKind.part]
    rw [hr] at h
    have hall := forall₂_of_runEach h
    rw [if_neg hk]
    refine ⟨hall.length_eq.symm, fun f hf => ?_⟩
    obtain ⟨i, hi, rfl⟩ := List.getElem_of_mem hf
    obtain ⟨m₁, m₂, hflow⟩ := hall.get (hall.length_eq ▸ hi) hi
    exact size_of_addFlow hflow

theorem inflows_of_declare {d : Declared K}
    (h : Node.declare catalogue steps m (n, c) = .ok (d, m')) :
    d.inflows.length = (if n.kind.isInput then 1 else n.inlets.length) ∧
      ∀ f ∈ d.inflows, f.size = steps := by
  obtain ⟨⟨size, m₁⟩, -, h⟩ := bind_eq_ok_iff.1 h
  obtain ⟨⟨inflows, m₂⟩, hinflows, h⟩ := bind_eq_ok_iff.1 h
  obtain ⟨⟨storage, m₃⟩, -, h⟩ := bind_eq_ok_iff.1 h
  obtain ⟨rfl, -⟩ := Prod.mk.inj (Except.ok.inj h)
  exact inflows_of_addInflows hprofile hinflows

/-- The flows that are bound fill up those over the edges, as nothing leaves an output. -/
theorem filled_of_addOutflows {edgeFlows outflows : List (Flow K)}
    (hedges : n.kind.isOutput → edgeFlows = [])
    (h : n.addOutflows catalogue steps c edgeFlows m = .ok (outflows, m')) :
    Filled steps edgeFlows outflows := by
  unfold addOutflows at h
  cases hr : n.role with
  | fixedOutput inputs flow =>
    have hk : n.kind.isOutput := by rw [kind, hr]; rfl
    rw [hr] at h hprofile
    obtain ⟨f, hf, h⟩ := bind_eq_ok_iff.1 h
    obtain ⟨rfl, -⟩ := Prod.mk.inj (Except.ok.inj h)
    rw [hedges hk]
    exact filled_single ((size_of_flowIn hf).trans (hprofile flow rfl))
  | fixedInput flow | scalableInput factors | scalableOutput inputs profile | generic inputs =>
    rw [hr] at h
    exact filled_of_orOwnFlow h

theorem filled_of_bindTable {d : Declared K} {edgeFlows : List (Flow K)} {t : FlowTable K}
    (hedges : n.kind.isOutput → edgeFlows = [])
    (h : n.bindTable catalogue steps m c d edgeFlows = .ok (t, m')) :
    Filled steps d.inflows t.inflows ∧ Filled steps edgeFlows t.outflows := by
  obtain ⟨⟨outflows, m₁⟩, hout, h⟩ := bind_eq_ok_iff.1 h
  obtain ⟨⟨inflows, m₂⟩, hin, h⟩ := bind_eq_ok_iff.1 h
  obtain ⟨rfl, -⟩ := Prod.mk.inj (Except.ok.inj h)
  exact ⟨filled_of_orOwnFlow hin, filled_of_addOutflows hprofile hedges hout⟩

end Node

/-! ## The tables of a network -/

namespace Graph

/-- What the passes leave behind: a node declares a flow for each input, or one if it is an input
itself, and what it is bound to fills up what it has declared and what its edges carry. -/
structure Bindings (g : Graph K) (steps : Nat) (ds : List (Declared K)) (ts : List (FlowTable K)) :
    Prop where
  declared_length : ds.length = g.nodes.length
  length : ts.length = g.nodes.length
  declared : ∀ {i : Nat} {n d}, g.nodes[i]? = some n → ds[i]? = some d →
    d.inflows.length = (if n.kind.isInput then 1 else n.inlets.length) ∧
      ∀ f ∈ d.inflows, f.size = steps
  inflows : ∀ {i : Nat} {d t}, ds[i]? = some d → ts[i]? = some t →
    Filled steps d.inflows t.inflows
  outflows : ∀ {i : Nat} {t}, ts[i]? = some t →
    Filled steps ((g.edgesFrom i).map (flowAt ds)) t.outflows

section Wired

variable {nodes : List (Node K)} {grid : Grid} {catalogue : Catalogue K}
variable {cs : List NodeCommodities} (hw : Wired nodes)

include hw

theorem edgesFrom_of_isOutput {i : Nat} {n : Node K} (hi : nodes[i]? = some n)
    (hk : n.kind.isOutput) : edgesFrom ⟨nodes, edgesOf nodes⟩ i = [] := by
  by_contra hne
  refine hw.not_isOutput_of_served (List.mem_of_getElem? hi) ?_ hk
  rw [← edgesFrom_eq hw hi]
  simpa using hne

omit hw in
theorem size_of_onGrid (hgrid : OnGrid nodes grid) {i : Nat} {n : Node K}
    (hi : nodes[i]? = some n) : ∀ profile ∈ n.role.profile?, profile.grid.size = grid.size :=
  fun profile hprofile =>
    congrArg Grid.size (hgrid n (List.mem_of_getElem? hi) profile hprofile)

omit hw in
/-- The first pass declares a flow for each input of each node. -/
theorem inflows_of_runEach (hlen : cs.length = nodes.length) (hgrid : OnGrid nodes grid)
    {ds : List (Declared K)} {m m' : Model K}
    (h : runEach (Node.declare catalogue grid.size) m (nodes.zip cs) = .ok (ds, m')) :
    ds.length = nodes.length ∧ ∀ {i : Nat} {n d}, nodes[i]? = some n → ds[i]? = some d →
      d.inflows.length = (if n.kind.isInput then 1 else n.inlets.length) ∧
        ∀ f ∈ d.inflows, f.size = grid.size := by
  obtain ⟨hdlen, hdget⟩ := forall₂_iff_getElem?.1 (forall₂_of_runEach h)
  refine ⟨?_, fun {i n d} hn hd => ?_⟩
  · rw [← hdlen, List.length_zip, hlen, Nat.min_self]
  · have hc := List.getElem?_eq_getElem (hlen ▸ (List.getElem?_eq_some_iff.1 hn).1)
    obtain ⟨s, s', hdeclare⟩ := hdget i _ d (getElem?_zip_of hn hc) hd
    exact Node.inflows_of_declare (size_of_onGrid hgrid hn) hdeclare

theorem exists_bindings (hlen : cs.length = nodes.length) (hgrid : OnGrid nodes grid)
    {ts : List (FlowTable K)} {m m' : Model K}
    (h : addTables ⟨nodes, edgesOf nodes⟩ catalogue grid.size cs m = .ok (ts, m')) :
    ∃ ds, Bindings ⟨nodes, edgesOf nodes⟩ grid.size ds ts := by
  obtain ⟨⟨ds, m₁⟩, hds, hts⟩ := bind_eq_ok_iff.1 h
  obtain ⟨hlength, hdeclared⟩ := inflows_of_runEach hlen hgrid hds
  obtain ⟨htlen, htget⟩ := forall₂_iff_getElem?.1 (forall₂_of_runEach hts)
  dsimp only at htlen htget
  have hlength' : ts.length = nodes.length := by
    rw [← htlen, List.length_zipIdx, List.length_zip, List.length_zip, hlength, hlen, Nat.min_self,
      Nat.min_self]
  have hslots : ∀ (t : Nat) (m : Node K) (d : Declared K), nodes[t]? = some m →
      ds[t]? = some d → m.inlets ≠ [] → d.inflows.length = m.inlets.length := by
    intro t m d hm hd hne
    rw [(hdeclared hm hd).1, if_neg fun hk => hne (Node.inlets_of_isInput hk)]
  have hbound : ∀ {i : Nat} {d t}, ds[i]? = some d → ts[i]? = some t →
      Filled grid.size d.inflows t.inflows ∧
        Filled grid.size ((edgesFrom ⟨nodes, edgesOf nodes⟩ i).map (flowAt ds)) t.outflows := by
    intro i d t hd ht
    obtain ⟨n, hn⟩ : ∃ n, nodes[i]? = some n :=
      ⟨_, List.getElem?_eq_getElem (hlength ▸ (List.getElem?_eq_some_iff.1 hd).1)⟩
    obtain ⟨c, hc⟩ : ∃ c, cs[i]? = some c :=
      ⟨_, List.getElem?_eq_getElem (hlen ▸ (List.getElem?_eq_some_iff.1 hn).1)⟩
    have hitem : (nodes.zip (cs.zip ds)).zipIdx[i]? = some ((n, c, d), i) := by
      rw [List.getElem?_zipIdx, getElem?_zip_of hn (getElem?_zip_of hc hd), Nat.zero_add]
      rfl
    obtain ⟨s, s', hbind⟩ := htget i _ t hitem ht
    dsimp only at hbind
    rw [edgeFlows_eq hw hlength hslots] at hbind
    refine Node.filled_of_bindTable (size_of_onGrid hgrid hn) (fun hk => ?_) hbind
    rw [edgesFrom_of_isOutput hw hn hk, List.map_nil]
  refine ⟨ds, hlength, hlength', hdeclared, fun hd ht => (hbound hd ht).1, fun {i t} ht => ?_⟩
  have hd := List.getElem?_eq_getElem (hlength.symm ▸ hlength' ▸ (List.getElem?_eq_some_iff.1 ht).1)
  exact (hbound hd ht).2

/-- An edge comes from the node that the inlet in its slot names, and is of its commodity. -/
theorem inlet_of_mem_edgesFrom {i : Nat} {n : Node K} (hi : nodes[i]? = some n) {e : Edge}
    (he : e ∈ edgesFrom ⟨nodes, edgesOf nodes⟩ i) : ∃ n' inlet, nodes[e.target]? = some n' ∧
      n'.inlets[e.slot]? = some inlet ∧ inlet.source = n.name ∧ inlet.commodity = e.commodity := by
  obtain ⟨he, hsource⟩ := List.mem_filter.1 he
  obtain ⟨n', inlet, hn', hinlet, hindex, hcommodity⟩ := mem_edgesOf.1 he
  refine ⟨n', inlet, hn', hinlet, ?_, hcommodity⟩
  exact (source_eq_iff hw hi (List.mem_of_getElem? hn') (List.mem_of_getElem? hinlet)).1
    (by rw [hindex, Option.getD_some, of_decide_eq_true hsource])

theorem nodup_edgesOf : (edgesOf nodes).Nodup := by
  unfold edgesOf
  rw [List.nodup_flatMap]
  constructor
  · rintro ⟨n, t⟩ hp
    have hslots : (edgesInto nodes t n).map (·.slot) = n.inlets.zipIdx.map Prod.snd := by
      rw [edgesInto_eq hw (List.mem_of_getElem? (List.mk_mem_zipIdx_iff_getElem?.1 hp)),
        List.map_map]
      rfl
    exact List.Nodup.of_map (·.slot) (hslots ▸ List.nodup_zipIdx_map_snd n.inlets)
  · refine (List.pairwise_map.1 (List.nodup_zipIdx_map_snd nodes)).imp fun {p q} hne e hp hq => ?_
    exact hne ((target_of_mem_edgesInto hp).symm.trans (target_of_mem_edgesInto hq))

/-- Each input of a node is the end of a single edge, which leaves a single node in one entry. -/
theorem existsUnique_entry {j slot : Nat} {n : Node K} (hj : nodes[j]? = some n)
    (hslot : slot < n.inputs.length) : ∃! p : Nat × Nat, ∃ e,
      (edgesFrom ⟨nodes, edgesOf nodes⟩ p.1)[p.2]? = some e ∧ e.target = j ∧ e.slot = slot := by
  obtain ⟨inlet, hinlet⟩ : ∃ inlet, n.inlets[slot]? = some inlet :=
    ⟨_, List.getElem?_eq_getElem (by simpa [Node.inputs] using hslot)⟩
  obtain ⟨m, hm, hname⟩ := hw.known n (List.mem_of_getElem? hj) inlet.source
    (List.mem_map_of_mem (List.mem_of_getElem? hinlet))
  obtain ⟨i, hi⟩ := List.mem_iff_getElem?.1 hm
  have hindex : indexIn nodes inlet.source = some i := hname ▸ indexIn_eq hw hi
  have hedge : ∀ e ∈ edgesOf nodes, e.target = j → e.slot = slot →
      e = ⟨i, j, slot, inlet.commodity⟩ := by
    rintro ⟨source, _, _, commodity⟩ he rfl rfl
    obtain ⟨n', inlet', hn', hinlet', hindex', rfl⟩ := mem_edgesOf.1 he
    obtain rfl := Option.some.inj (hj.symm.trans hn')
    obtain rfl := Option.some.inj (hinlet.symm.trans hinlet')
    rw [Option.some.inj (hindex.symm.trans hindex')]
  have hmem : ⟨i, j, slot, inlet.commodity⟩ ∈ edgesFrom ⟨nodes, edgesOf nodes⟩ i :=
    List.mem_filter.2 ⟨mem_edgesOf.2 ⟨n, inlet, hj, hinlet, hindex, rfl⟩, decide_eq_true rfl⟩
  obtain ⟨k, hk⟩ := List.mem_iff_getElem?.1 hmem
  refine ⟨(i, k), ⟨_, hk, rfl, rfl⟩, ?_⟩
  rintro ⟨i', k'⟩ ⟨e, he, htarget, heslot⟩
  obtain ⟨hedges, hsource⟩ := List.mem_filter.1 (List.mem_of_getElem? he)
  obtain rfl := hedge e hedges htarget heslot
  obtain rfl : i = i' := of_decide_eq_true hsource
  have hnodup : (edgesFrom ⟨nodes, edgesOf nodes⟩ i).Nodup := (nodup_edgesOf hw).filter _
  rw [(List.getElem?_inj (List.getElem?_eq_some_iff.1 hk).1 hnodup).1 (hk.trans he.symm)]

theorem length_edgesFrom {i : Nat} {n : Node K} (hi : nodes[i]? = some n) :
    (edgesFrom ⟨nodes, edgesOf nodes⟩ i).length = (outlets nodes n.name).length := by
  rw [← edgesFrom_eq hw hi, List.length_map]

/-- The flow over an edge is the one that its target has declared in its slot. -/
theorem Bindings.flowAt_spec {steps : Nat} {ds : List (Declared K)} {ts : List (FlowTable K)}
    (h : Bindings ⟨nodes, edgesOf nodes⟩ steps ds ts) {i : Nat} {n : Node K}
    (hi : nodes[i]? = some n) {e : Edge} (he : e ∈ edgesFrom ⟨nodes, edgesOf nodes⟩ i) :
    ∃ d, ds[e.target]? = some d ∧ d.inflows[e.slot]? = some (flowAt ds e) ∧
      (flowAt ds e).size = steps := by
  obtain ⟨n', inlet, hn', hinlet, -, -⟩ := inlet_of_mem_edgesFrom hw hi he
  obtain ⟨d, hd⟩ : ∃ d, ds[e.target]? = some d :=
    ⟨_, List.getElem?_eq_getElem (h.declared_length.symm ▸ (List.getElem?_eq_some_iff.1 hn').1)⟩
  have hinlets : n'.inlets ≠ [] := List.ne_nil_of_mem (List.mem_of_getElem? hinlet)
  obtain ⟨hlength, hsize⟩ := h.declared hn' hd
  rw [if_neg fun hk => hinlets (Node.inlets_of_isInput hk)] at hlength
  have hslot : e.slot < d.inflows.length := hlength ▸ (List.getElem?_eq_some_iff.1 hinlet).1
  have hflow : flowAt ds e = d.inflows[e.slot] := by simp [flowAt, hd, hslot]
  exact ⟨d, hd, by rw [hflow, List.getElem?_eq_getElem hslot],
    hflow ▸ hsize _ (List.getElem_mem hslot)⟩

section Settled

variable {steps : Nat} {ds : List (Declared K)} {ts : List (FlowTable K)}
variable (h : Bindings ⟨nodes, edgesOf nodes⟩ steps ds ts)
variable (hc : List.Forall₂ (fun n c => n.settle catalogue (outlets nodes n.name) = .ok c) nodes cs)

include h hc

/-- What leaves a node in an entry enters another one in a slot. -/
theorem Bindings.entry {i k : Nat} {n : Node K} {c : NodeCommodities} {t : FlowTable K}
    (hat : At ⟨nodes, edgesOf nodes⟩ cs ts i n c t) {e : Edge}
    (he : (edgesFrom ⟨nodes, edgesOf nodes⟩ i)[k]? = some e) :
    ∃ n' c' t', At ⟨nodes, edgesOf nodes⟩ cs ts e.target n' c' t' ∧
      n'.inputs[e.slot]? = some n.name ∧
      (∃ commodity, c.outflow[k]? = some commodity ∧ c'.inflow[e.slot]? = some commodity) ∧
      ∃ flow, t.outflows[k]? = some flow ∧ t'.inflows[e.slot]? = some flow := by
  obtain ⟨hlen, hget⟩ := forall₂_iff_getElem?.1 hc
  have hmem := List.mem_of_getElem? he
  obtain ⟨n', inlet, hn', hinlet, hname, hcommodity⟩ := inlet_of_mem_edgesFrom hw hat.node hmem
  have hlt := (List.getElem?_eq_some_iff.1 hn').1
  obtain ⟨c', hc'⟩ : ∃ c', cs[e.target]? = some c' := ⟨_, List.getElem?_eq_getElem (hlen ▸ hlt)⟩
  obtain ⟨t', ht'⟩ : ∃ t', ts[e.target]? = some t' :=
    ⟨_, List.getElem?_eq_getElem (h.length.symm ▸ hlt)⟩
  obtain ⟨d, hd, hflow, -⟩ := h.flowAt_spec hw hat.node hmem
  have hinlets : n'.inlets ≠ [] := List.ne_nil_of_mem (List.mem_of_getElem? hinlet)
  have houtlets : outlets nodes n.name ≠ [] := by
    rw [← edgesFrom_eq hw hat.node]
    exact List.ne_nil_of_mem (List.mem_map_of_mem hmem)
  refine ⟨n', c', t', ⟨hn', hc', ht'⟩, ?_, ⟨e.commodity, ?_, ?_⟩, flowAt ds e, ?_, ?_⟩
  · rw [Node.inputs, List.getElem?_map, hinlet, Option.map_some, hname]
  · rw [Node.outflow_of_served (hget i n c hat.node hat.commodities) houtlets,
      ← edgeCommodities_eq hw hat.node, List.getElem?_map, he, Option.map_some]
  · rw [Node.inflow_of_inlets (hget _ n' c' hn' hc') hinlets, List.getElem?_map, hinlet,
      Option.map_some, hcommodity]
  · rw [(h.outflows hat.flows).kept (List.ne_nil_of_mem (List.mem_map_of_mem hmem)),
      List.getElem?_map, he, Option.map_some]
  · rw [(h.inflows hd ht').kept (List.ne_nil_of_mem (List.mem_of_getElem? hflow)), hflow]

/-- Tables that the passes fill are aligned with the commodities that were settled before. -/
theorem Bindings.aligned (hbuilt : ∀ n ∈ nodes, n.Built) :
    Aligned ⟨nodes, edgesOf nodes⟩ catalogue steps cs ts := by
  obtain ⟨hlen, hget⟩ := forall₂_iff_getElem?.1 hc
  have hsettled : ∀ {i n c t}, At ⟨nodes, edgesOf nodes⟩ cs ts i n c t →
      n.settle catalogue (outlets nodes n.name) = .ok c := fun hat =>
    hget _ _ _ hat.node hat.commodities
  have hdeclared : ∀ {i n c t}, At ⟨nodes, edgesOf nodes⟩ cs ts i n c t →
      ∃ d : Declared K, Filled steps d.inflows t.inflows ∧
        d.inflows.length = (if n.kind.isInput then 1 else n.inlets.length) ∧
        ∀ f ∈ d.inflows, f.size = steps := by
    intro i n c t hat
    have hlt := (List.getElem?_eq_some_iff.1 hat.node).1
    obtain ⟨d, hd⟩ : ∃ d, ds[i]? = some d :=
      ⟨_, List.getElem?_eq_getElem (h.declared_length.symm ▸ hlt)⟩
    exact ⟨d, h.inflows hd hat.flows, h.declared hat.node hd⟩
  exact {
    commodities_length := hlen.symm
    flows_length := h.length
    inflow_length := by
      intro i n c t hat
      refine ⟨Node.length_inflow (hsettled hat), ?_⟩
      obtain ⟨d, hfilled, hlength, -⟩ := hdeclared hat
      rw [hfilled.length, hlength, Node.inputs, List.length_map]
      split
      · next hk =>
        rw [Node.inlets_of_isInput hk]
        rfl
      · rfl
    outflow_length := by
      intro i n c t hat
      rw [Node.length_outflow (hsettled hat), (h.outflows hat.flows).length, List.length_map,
        length_edgesFrom hw hat.node]
      exact ⟨rfl, rfl⟩
    flow_size := by
      intro i n c t hat
      obtain ⟨d, hfilled, -, hsize⟩ := hdeclared hat
      refine List.forall_mem_append.2 ⟨hfilled.size hsize, (h.outflows hat.flows).size ?_⟩
      refine List.forall_mem_map.2 fun e he => ?_
      obtain ⟨-, -, -, hsize⟩ := h.flowAt_spec hw hat.node he
      exact hsize
    unit := fun hat _ hcommodity =>
      Node.exists_unit (hsettled hat) (List.mem_append.1 hcommodity)
    edge := fun hat _ _ he => h.entry hw hc hat he
    input := fun hj _ hslot => existsUnique_entry hw hj hslot
    source := fun hat _ hconversions _ hconversion => Node.source_mem_inflow (hsettled hat)
      (hbuilt _ (List.mem_of_getElem? hat.node)) hconversions hconversion
    keys := fun hat _ hconversions => Node.keys_conversions (hsettled hat) hconversions }

end Settled

end Wired

/-- If all passes over some nodes succeed, then the flows of the network are its tables of flows and
commodities put together. These tables are aligned, and nothing of them is lost in the flows. -/
theorem tables_aligned {nodes : List (Node K)} {g : Graph K} {grid : Grid}
    {catalogue : Catalogue K} {cs : List NodeCommodities} {fs : List (NodeFlows K)} {m : Model K}
    (hbuilt : ∀ n ∈ nodes, n.Built) (hg : ofNodes nodes = .ok g) (hv : g.validate grid = .ok ())
    (hc : g.commodities catalogue = .ok cs)
    (hf : g.addFlows catalogue grid.size cs .empty = .ok (fs, m)) :
    g.nodes = nodes ∧ ∃ ts, g.addTables catalogue grid.size cs .empty = .ok (ts, m) ∧
      fs = g.zipTables cs ts ∧ g.Aligned catalogue grid.size cs ts ∧ g.Streamed cs ts fs := by
  obtain ⟨hw, rfl⟩ := ofNodes_eq_ok_iff.1 hg
  have hgrid := ((validate_eq_ok_iff hw).1 hv).2.1
  have hsettled := (commodities_eq_ok_iff hw).1 hc
  rw [addFlows_eq_map] at hf
  obtain ⟨⟨ts, m'⟩, hts, hfs⟩ := map_eq_ok_iff.1 hf
  obtain ⟨rfl, rfl⟩ := Prod.mk.inj hfs
  obtain ⟨ds, hbindings⟩ := exists_bindings hw hsettled.length_eq.symm hgrid hts
  have haligned := hbindings.aligned hw hsettled hbuilt
  exact ⟨rfl, ts, hts, rfl, haligned, haligned.streamed⟩

end Graph

/-! ## A plant -/

/-- A plant that makes electricity for a town and hydrogen of the gas of a well. -/
def plantDrafts : List (Draft Rat) :=
  [{ name := "well", role := .generic ⟨[], .single "gas"⟩ },
    { name := "tanks", role := .generic ⟨["plant"], .single "hydrogen"⟩ },
    { name := "plant", role := .generic ⟨["well"], .single "gas"⟩,
      conversions := some (.ofList [("electricity", ⟨"gas", .plain (1 / 2)⟩),
        ("hydrogen", ⟨"gas", .plain (1 / 4)⟩)]) },
    { name := "town",
      role := .fixedOutput ⟨["plant"], .single "electricity"⟩ (.constant windGrid 5) }]

/-- The two entries of the plant go to the tanks and to the town. -/
theorem tables_of_plantDrafts :
    (∀ n ∈ builtNodes plantDrafts, n.Built) ∧
    ∃ g cs fs m, Graph.ofNodes (builtNodes plantDrafts) = .ok g ∧ g.validate windGrid = .ok () ∧
      g.commodities .standard = .ok cs ∧
      g.addFlows .standard windGrid.size cs .empty = .ok (fs, m) ∧
      (g.edgesFrom 2).map (·.target) = [1, 3] ∧
      ∃ ts, g.addTables .standard windGrid.size cs .empty = .ok (ts, m) ∧ fs = g.zipTables cs ts ∧
        g.Aligned .standard windGrid.size cs ts ∧ g.Streamed cs ts fs := by
  have hbuilt : ∀ n ∈ builtNodes plantDrafts, n.Built := fun _ hn => built_of_mem hn
  obtain ⟨g, hg⟩ := exists_of_isOk (x := Graph.ofNodes (builtNodes plantDrafts))
    (by decide +kernel)
  obtain ⟨-, rfl⟩ := Graph.ofNodes_eq_ok_iff.1 hg
  have hv : Graph.validate ⟨builtNodes plantDrafts, Graph.edgesOf (builtNodes plantDrafts)⟩
      windGrid = .ok () := by
    decide +kernel
  obtain ⟨cs, hc⟩ := exists_of_isOk (x := Graph.commodities
    ⟨builtNodes plantDrafts, Graph.edgesOf (builtNodes plantDrafts)⟩ .standard) (by decide +kernel)
  have hadded : (Graph.commodities
      ⟨builtNodes plantDrafts, Graph.edgesOf (builtNodes plantDrafts)⟩ .standard).toOption.all
        (fun cs => (Graph.addFlows ⟨builtNodes plantDrafts, Graph.edgesOf (builtNodes plantDrafts)⟩
          .standard windGrid.size cs .empty).isOk) = true := by
    decide +kernel
  rw [hc] at hadded
  obtain ⟨⟨fs, m⟩, hf⟩ := exists_of_isOk hadded
  obtain ⟨-, hts⟩ := Graph.tables_aligned hbuilt hg hv hc hf
  exact ⟨hbuilt, _, cs, fs, m, hg, hv, hc, hf, by decide +kernel, hts⟩

end SupplyNet
