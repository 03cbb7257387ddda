import Mathlib
import SupplyNet.Proofs.Network.Commodities
import SupplyNet.Proofs.Network.Flows

/-!
The variables and flows of a whole network. They are added in two passes, as the flow over an edge
is a variable of its target and leaves its source; what comes of it can be read node by node.
-/
set_option autoImplicit false

namespace SupplyNet

variable {K : Type} [Scalar K]

/-- The keys of all variables in the order in which they are added. -/
def variableKeys (nodes : List (Node K)) : List VariableKey :=
  nodes.flatMap (·.declaredKeys) ++ nodes.flatMap fun n => n.leafKeys (outlets nodes n.name)

section Keys

variable {nodes : List (Node K)}

theorem mem_variableKeys {k : VariableKey} : k ∈ variableKeys nodes ↔
    ∃ n ∈ nodes, k ∈ n.declaredKeys ∨ k ∈ n.leafKeys (outlets nodes n.name) := by
  unfold variableKeys
  rw [List.mem_append, List.mem_flatMap, List.mem_flatMap, ← exists_or]
  exact exists_congr fun n => and_or_left.symm

theorem size_mem_variableKeys {name : String} :
    .size name ∈ variableKeys nodes ↔ ∃ n ∈ nodes, n.hasSize = true ∧ name = n.name := by
  simp [mem_variableKeys, mem_declaredKeys, mem_leafKeys, Node.storageKeys]

theorem storageSize_mem_variableKeys {name : String} : .storageSize name ∈ variableKeys nodes ↔
    ∃ n ∈ nodes, n.storage.isSome = true ∧ name = n.name := by
  simp [mem_variableKeys, mem_declaredKeys, mem_leafKeys, Node.storageKeys]

theorem edge_mem_variableKeys {source target : String} : .edge source target ∈ variableKeys nodes ↔
    ∃ n ∈ nodes, source ∈ n.inputs ∧ target = n.name := by
  simp [mem_variableKeys, mem_declaredKeys, mem_leafKeys, Node.storageKeys]

theorem outflow_mem_variableKeys {name : String} : .outflow name ∈ variableKeys nodes ↔
    ∃ n ∈ nodes, name = n.name ∧ n.kind ≠ .fixedOutput ∧ outlets nodes n.name = [] := by
  simp [mem_variableKeys, mem_declaredKeys, mem_leafKeys, Node.storageKeys]

theorem inflow_mem_variableKeys {name : String} : .inflow name ∈ variableKeys nodes ↔
    ∃ n ∈ nodes, name = n.name ∧ ¬n.kind.isInput ∧ n.inlets = [] := by
  simp [mem_variableKeys, mem_declaredKeys, mem_leafKeys, Node.storageKeys]

end Keys

/-- The flows of a node with the given outlets, read from the registry. -/
def Node.flowsIn (catalogue : Catalogue K) (served : List Outlet) (c : NodeCommodities)
    (n : Node K) (m : Model K) : Except (CompileError K) (NodeFlows K) := do
  let inflows ← n.ownInflows catalogue c (n.sizeIn m) m
  let outflows ← n.boundOutflows catalogue c
    (served.map fun o => m.flowOf (.edge n.name o.target)) m
  return ⟨n.sizeIn m, c.size, n.storageIn m,
    Node.streams n.inputs c.inflow (n.boundInflows inflows m),
    Node.streams (served.map (·.target)) c.outflow outflows⟩

namespace Graph

/-! ## Edges as flows -/

/-- The flow that the target of an edge has declared in its slot. -/
def flowAt (declared : List (Declared K)) (e : Edge) : Flow K :=
  ((declared[e.target]?.map (·.inflows)).getD [])[e.slot]?.getD #[]

/-- If there is a flow for each inlet, each edge is wired to the flow in its slot. -/
theorem wires_eq {nodes : List (Node K)} (hw : Wired nodes) {declared : List (Declared K)}
    (hlen : declared.length = nodes.length)
    (hslots : ∀ (t : Nat) (m : Node K) (d : Declared K), nodes[t]? = some m →
      declared[t]? = some d → m.inlets ≠ [] → d.inflows.length = m.inlets.length) :
    wires ⟨nodes, edgesOf nodes⟩ declared = (edgesOf nodes).map fun e => (e, flowAt declared e) := by
  have hright : (edgesOf nodes).map (fun e => (e, flowAt declared e)) =
      nodes.zipIdx.flatMap fun p => (edgesInto nodes p.2 p.1).map fun e => (e, flowAt declared e) :=
    List.map_flatMap
  rw [hright]
  unfold wires
  rw [List.flatMap_def, List.flatMap_def]
  congr 1
  apply List.ext_getElem (by simp [hlen])
  intro t h₁ h₂
  have ht : t < nodes.length := by simpa using h₂
  have htd : t < declared.length := hlen ▸ ht
  simp only [List.getElem_map, List.getElem_zipIdx, Nat.zero_add]
  rw [edgesTo_eq (List.getElem?_eq_getElem ht), edgesInto_eq hw (List.getElem_mem ht)]
  by_cases hnil : nodes[t].inlets = []
  · simp [hnil]
  have hlength := hslots t _ _ (List.getElem?_eq_getElem ht) (List.getElem?_eq_getElem htd) hnil
  apply List.ext_getElem (by simp [hlength])
  intro k h₁ h₂
  have hk : k < declared[t].inflows.length := by simpa [hlength] using h₂
  simp [flowAt, htd, hk]

/-- The flows over the edges out of a node. -/
theorem edgeFlows_eq {nodes : List (Node K)} (hw : Wired nodes) {declared : List (Declared K)}
    (hlen : declared.length = nodes.length)
    (hslots : ∀ (t : Nat) (m : Node K) (d : Declared K), nodes[t]? = some m →
      declared[t]? = some d → m.inlets ≠ [] → d.inflows.length = m.inlets.length) (i : Nat) :
    ((wires ⟨nodes, edgesOf nodes⟩ declared).filter (·.1.source = i)).map Prod.snd =
      (edgesFrom ⟨nodes, edgesOf nodes⟩ i).map (flowAt declared) := by
  rw [wires_eq hw hlen hslots, List.filter_map, List.map_map]
  rfl

/-- The flows over the edges out of a node are those of the inlets that it serves. -/
theorem wires_from {nodes : List (Node K)} (hw : Wired nodes) {declared : List (Declared K)}
    (hlen : declared.length = nodes.length) {f : String → String → Flow K}
    (hflow : ∀ (t : Nat) (m : Node K) (d : Declared K), nodes[t]? = some m →
      declared[t]? = some d → m.inlets ≠ [] →
      d.inflows = m.inlets.map fun inlet => f inlet.source m.name)
    {i : Nat} {n : Node K} (hi : nodes[i]? = some n) :
    ((wires ⟨nodes, edgesOf nodes⟩ declared).filter (·.1.source = i)).map Prod.snd =
      (outlets nodes n.name).map fun o => f n.name o.target := by
  have hslots : ∀ (t : Nat) (m : Node K) (d : Declared K), nodes[t]? = some m →
      declared[t]? = some d → m.inlets ≠ [] → d.inflows.length = m.inlets.length := by
    intro t m d hm hd hne
    rw [hflow t m d hm hd hne, List.length_map]
  rw [edgeFlows_eq hw hlen hslots, ← edgesFrom_eq hw hi, List.map_map]
  apply List.map_congr_left
  intro e he
  obtain ⟨he, hsource⟩ := List.mem_filter.1 he
  obtain ⟨m, inlet, hm, hinlet, hindex, -⟩ := mem_edgesOf.1 he
  have hd := List.getElem?_eq_getElem (hlen ▸ (List.getElem?_eq_some_iff.1 hm).1)
  have hinlets : m.inlets ≠ [] := List.ne_nil_of_mem (List.mem_of_getElem? hinlet)
  have hname := (source_eq_iff hw hi (List.mem_of_getElem? hm) (List.mem_of_getElem? hinlet)).1
    (by rw [hindex, Option.getD_some, of_decide_eq_true hsource])
  dsimp only [Function.comp_apply]
  rw [nameAt_eq hm]
  simp [flowAt, hd, hflow _ m _ hm hd hinlets, hinlet, hname]

end Graph

/-! ## Both passes -/

/-- The flows that a node with the given outlets is bound to. -/
def Node.boundIn (catalogue : Catalogue K) (c : NodeCommodities) (n : Node K) (d : Declared K)
    (targets : List String) (edgeFlows : List (Flow K)) (m : Model K) :
    Except (CompileError K) (NodeFlows K) :=
  (n.boundOutflows catalogue c edgeFlows m).map fun outflows =>
    ⟨d.size, c.size, d.storage, Node.streams n.inputs c.inflow (n.boundInflows d.inflows m),
      Node.streams targets c.outflow outflows⟩

theorem realizes_bind (catalogue : Catalogue K) (steps : Nat) (n : Node K) (c : NodeCommodities)
    (d : Declared K) (hd : d.inflows.isEmpty = true ↔ ¬n.kind.isInput ∧ n.inlets = [])
    (served : List Outlet) (edgeFlows : List (Flow K))
    (hs : edgeFlows.isEmpty = true ↔ served = []) (targets : List String) (m : Model K) :
    Realizes (n.boundIn catalogue c d targets edgeFlows) m
      ((n.leafKeys served).map (·.block steps))
      (n.bind catalogue steps m c d targets edgeFlows) := by
  unfold Node.leafKeys
  rw [List.map_append]
  refine Realizes.congr_eq (Realizes.bind
    (realizes_addOutflows catalogue steps c n edgeFlows served hs m) fun outflows _ =>
      Realizes.map (realizes_leafInflow steps n d.inflows hd _) fun inflows =>
        (⟨d.size, c.size, d.storage, Node.streams n.inputs c.inflow inflows,
          Node.streams targets c.outflow outflows⟩ : NodeFlows K)) fun m' => ?_
  unfold Node.boundIn
  cases n.boundOutflows catalogue c edgeFlows m' with
  | error e => rfl
  | ok outflows => rfl

/-- What a node declares has a flow for each inlet. -/
theorem Node.inflows_of_declaredIn {catalogue : Catalogue K} {c : NodeCommodities} {n : Node K}
    {m : Model K} {d : Declared K} (h : n.declaredIn catalogue c m = .ok d) :
    (n.inlets ≠ [] → d.inflows = n.inlets.map fun inlet => m.flowOf (.edge inlet.source n.name)) ∧
      (d.inflows.isEmpty = true ↔ ¬n.kind.isInput ∧ n.inlets = []) := by
  obtain ⟨inflows, hi, rfl⟩ := map_eq_ok_iff.1 h
  have hedges : n.kind.isInput = false →
      inflows = n.inlets.map (fun inlet => m.flowOf (.edge inlet.source n.name)) →
      (n.inlets ≠ [] → inflows = n.inlets.map fun inlet => m.flowOf (.edge inlet.source n.name)) ∧
        (inflows.isEmpty = true ↔ ¬n.kind.isInput ∧ n.inlets = []) := by
    intro hk he
    refine ⟨fun _ => he, ?_⟩
    rw [he, hk, List.isEmpty_iff, List.map_eq_nil_iff]
    simp
  unfold Node.ownInflows at hi
  cases hr : n.role with
  | fixedInput flow =>
    simp only [hr] at hi
    obtain ⟨f, -, rfl⟩ := map_eq_ok_iff.1 hi
    have hk : n.kind.isInput := by
      simp [Node.kind, hr, Role.kind, NodeKind.isInput, NodeKind.part]
    exact ⟨fun hne => absurd (Node.inlets_of_isInput hk) hne, by simp [hk]⟩
  | scalableInput factors =>
    simp only [hr] at hi
    obtain ⟨f, -, rfl⟩ := map_eq_ok_iff.1 hi
    have hk : n.kind.isInput := by
      simp [Node.kind, hr, Role.kind, NodeKind.isInput, NodeKind.part]
    exact ⟨fun hne => absurd (Node.inlets_of_isInput hk) hne, by simp [hk]⟩
  | fixedOutput inputs flow =>
    simp only [hr, Except.ok.injEq] at hi
    exact hedges (by rw [Node.kind, hr]; rfl) hi.symm
  | scalableOutput inputs profile =>
    simp only [hr, Except.ok.injEq] at hi
    exact hedges (by rw [Node.kind, hr]; rfl) hi.symm
  | generic inputs =>
    simp only [hr, Except.ok.injEq] at hi
    exact hedges (by rw [Node.kind, hr]; rfl) hi.symm

/-- What a node declares and is bound to, read one after the other. -/
theorem Node.boundIn_eq_flowsIn {catalogue : Catalogue K} {c : NodeCommodities} {n : Node K}
    {m : Model K} {d : Declared K} (h : n.declaredIn catalogue c m = .ok d)
    (served : List Outlet) :
    n.boundIn catalogue c d (served.map (·.target))
        (served.map fun o => m.flowOf (.edge n.name o.target)) m =
      n.flowsIn catalogue served c m := by
  obtain ⟨inflows, hi, rfl⟩ := map_eq_ok_iff.1 h
  unfold Node.flowsIn Node.boundIn
  rw [hi]
  rfl

namespace Graph

section Passes

variable {nodes : List (Node K)} {cs : List NodeCommodities} {ds : List (Declared K)}
variable {catalogue : Catalogue K} {m : Model K}

/-- The items of the second pass. -/
theorem getElem?_of_mem_items {n : Node K} {c : NodeCommodities} {d : Declared K} {i : Nat}
    (h : ((n, c, d), i) ∈ (nodes.zip (cs.zip ds)).zipIdx) :
    nodes[i]? = some n ∧ cs[i]? = some c ∧ ds[i]? = some d := by
  have hi := List.mk_mem_zipIdx_iff_getElem?.1 h
  obtain ⟨hn, hcd⟩ := List.getElem?_zip_eq_some.1 hi
  exact ⟨hn, List.getElem?_zip_eq_some.1 hcd⟩

theorem map_items (hlen : cs.length = nodes.length) (hds : ds.length = nodes.length) :
    (nodes.zip (cs.zip ds)).zipIdx.map (fun p => (p.1.1, p.1.2.1)) = nodes.zip cs := by
  apply List.ext_getElem (by simp [hlen, hds])
  intro i h₁ h₂
  simp

/-- The flows of an item of the second pass. -/
def boundAt (catalogue : Catalogue K) (nodes : List (Node K)) (ds : List (Declared K))
    (p : (Node K × NodeCommodities × Declared K) × Nat) (m : Model K) :
    Except (CompileError K) (NodeFlows K) :=
  p.1.1.boundIn catalogue p.1.2.1 p.1.2.2 (outputNames ⟨nodes, edgesOf nodes⟩ p.2)
    (((wires ⟨nodes, edgesOf nodes⟩ ds).filter (·.1.source = p.2)).map Prod.snd) m

section Declared

variable (hlen : cs.length = nodes.length)
variable (h : ((nodes.zip cs).mapM fun p => p.1.declaredIn catalogue p.2 m) = .ok ds)

include hlen h

theorem length_of_declaredIn : ds.length = nodes.length := by
  have h₂ := (mapM_eq_ok_iff.1 h).length_eq
  rw [List.length_zip, hlen, Nat.min_self] at h₂
  exact h₂.symm

omit hlen in
theorem declaredIn_of_getElem? {i : Nat} {n : Node K} {c : NodeCommodities} {d : Declared K}
    (hn : nodes[i]? = some n) (hc : cs[i]? = some c) (hd : ds[i]? = some d) :
    n.declaredIn catalogue c m = .ok d := by
  obtain ⟨hi, rfl⟩ := List.getElem?_eq_some_iff.1 hd
  have hp := getElem?_zip_of hn hc
  obtain ⟨hi', hget⟩ := List.getElem?_eq_some_iff.1 hp
  have h₂ := (mapM_eq_ok_iff.1 h).get hi' hi
  rw [List.get_eq_getElem, List.get_eq_getElem, hget] at h₂
  exact h₂

theorem edgeFlows_of_declaredIn (hw : Wired nodes) {i : Nat} {n : Node K}
    (hi : nodes[i]? = some n) :
    ((wires ⟨nodes, edgesOf nodes⟩ ds).filter (·.1.source = i)).map Prod.snd =
      (outlets nodes n.name).map fun o => m.flowOf (.edge n.name o.target) := by
  refine wires_from hw (length_of_declaredIn hlen h) (f := fun a b => m.flowOf (.edge a b))
    (fun t k d hk hd hne => ?_) hi
  have hlt : t < cs.length := hlen ▸ (List.getElem?_eq_some_iff.1 hk).1
  exact (Node.inflows_of_declaredIn (declaredIn_of_getElem? h hk
    (List.getElem?_eq_getElem hlt) hd)).1 hne

/-- The second pass binds each node to the flows that are read for it. -/
theorem mapM_boundIn (hw : Wired nodes) :
    ((nodes.zip (cs.zip ds)).zipIdx.mapM fun p => boundAt catalogue nodes ds p m) =
      (nodes.zip cs).mapM fun p => p.1.flowsIn catalogue (outlets nodes p.1.name) p.2 m := by
  rw [← map_items hlen (length_of_declaredIn hlen h), List.mapM_map]
  apply mapM_congr
  rintro ⟨⟨n, c, d⟩, i⟩ hmem
  obtain ⟨hn, hc, hd⟩ := getElem?_of_mem_items hmem
  unfold boundAt
  dsimp only
  rw [outputNames_eq hw hn, edgeFlows_of_declaredIn hlen h hw hn]
  exact Node.boundIn_eq_flowsIn (declaredIn_of_getElem? h hn hc hd) _

theorem realizes_bindings (hw : Wired nodes) (steps : Nat) (m' : Model K) :
    Realizes (fun m => (nodes.zip (cs.zip ds)).zipIdx.mapM fun p =>
        boundAt catalogue nodes ds p m) m'
      (nodes.flatMap fun n => (n.leafKeys (outlets nodes n.name)).map (·.block steps))
      (runEach (fun m p => p.1.1.bind catalogue steps m p.1.2.1 p.1.2.2
        (outputNames ⟨nodes, edgesOf nodes⟩ p.2)
        (((wires ⟨nodes, edgesOf nodes⟩ ds).filter (·.1.source = p.2)).map Prod.snd)) m'
        (nodes.zip (cs.zip ds)).zipIdx) := by
  have hnodes : (nodes.zip (cs.zip ds)).zipIdx.map (·.1.1) = nodes := by
    have hmap := congrArg (List.map Prod.fst) (map_items hlen (length_of_declaredIn hlen h))
    rw [List.map_map, List.map_fst_zip (by omega)] at hmap
    exact hmap
  have hflat : ∀ blocks : Node K → List (Block K), nodes.flatMap blocks =
      (nodes.zip (cs.zip ds)).zipIdx.flatMap fun p => blocks p.1.1 := by
    intro blocks
    conv_lhs => rw [← hnodes]
    rw [List.flatMap_map]
  rw [hflat]
  apply Realizes.runEach
  rintro ⟨⟨n, c, d⟩, i⟩ hmem m'
  obtain ⟨hn, hc, hd⟩ := getElem?_of_mem_items hmem
  refine realizes_bind catalogue steps n c d
    (Node.inflows_of_declaredIn (declaredIn_of_getElem? h hn hc hd)).2 _ _ ?_ _ m'
  rw [edgeFlows_of_declaredIn hlen h hw hn, List.isEmpty_iff, List.map_eq_nil_iff]

end Declared

/-- The variables of a network are added in two passes, and each node has its own flows then. -/
theorem realizes_addFlows (catalogue : Catalogue K) (steps : Nat) (hw : Wired nodes)
    (hlen : cs.length = nodes.length) (m : Model K) :
    Realizes (fun m => (nodes.zip cs).mapM fun p =>
        p.1.flowsIn catalogue (outlets nodes p.1.name) p.2 m) m
      ((variableKeys nodes).map (·.block steps))
      (addFlows ⟨nodes, edgesOf nodes⟩ catalogue steps cs m) := by
  have hfirst := Realizes.runEach (l := nodes.zip cs)
    (fun p _ m => realizes_declare catalogue steps p.1 p.2 m) m
  have hboth : Realizes (fun m => ((nodes.zip cs).mapM fun p => p.1.declaredIn catalogue p.2 m) >>=
        fun ds => (nodes.zip (cs.zip ds)).zipIdx.mapM fun p => boundAt catalogue nodes ds p m) m
      (((nodes.zip cs).flatMap fun p => p.1.declaredKeys.map (·.block steps)) ++
        nodes.flatMap fun n => (n.leafKeys (outlets nodes n.name)).map (·.block steps))
      (addFlows ⟨nodes, edgesOf nodes⟩ catalogue steps cs m) := by
    exact hfirst.bind fun ds hread => realizes_bindings hlen (hread []) hw steps _
  have hblocks : (variableKeys nodes).map (·.block steps) =
      ((nodes.zip cs).flatMap fun p => p.1.declaredKeys.map (·.block steps)) ++
        nodes.flatMap fun n => (n.leafKeys (outlets nodes n.name)).map
          (fun k => (k.block steps : Block K)) := by
    unfold variableKeys
    rw [List.map_append, List.map_flatMap, List.map_flatMap]
    congr 1
    have hfst : (nodes.zip cs).map Prod.fst = nodes := List.map_fst_zip (by omega)
    conv_lhs => rw [← hfst]
    rw [List.flatMap_map]
  rw [hblocks]
  refine hboth.congr fun m' fs => ?_
  rw [bind_eq_ok_iff]
  constructor
  · rintro ⟨ds, hds, hfs⟩
    rw [← mapM_boundIn hlen hds hw]
    exact hfs
  · intro hfs
    have hds : ∃ ds, ((nodes.zip cs).mapM fun p => p.1.declaredIn catalogue p.2 m') = .ok ds := by
      rw [isOk_mapM_iff]
      intro p hp
      obtain ⟨f, hf⟩ := isOk_mapM_iff.1 ⟨fs, hfs⟩ p hp
      obtain ⟨inflows, hi, -⟩ := bind_eq_ok_iff.1 hf
      exact ⟨_, map_eq_ok_iff.2 ⟨inflows, hi, rfl⟩⟩
    obtain ⟨ds, hds⟩ := hds
    exact ⟨ds, hds, (mapM_boundIn hlen hds hw).trans hfs⟩

/-- Variables can be added to an empty model if their names differ. -/
theorem fresh_variables_iff (steps : Nat) :
    Model.empty.Fresh ((variableKeys nodes).map fun k => (k.block steps : Block K)) ↔
      ((variableKeys nodes).map (·.name)).Nodup := by
  unfold Model.Fresh
  rw [List.map_map]
  exact ⟨fun h => h.1, fun h => ⟨h, fun b _ => List.not_mem_nil⟩⟩

/-- Adding the variables of a network succeeds exactly if their names differ and the flows of all
nodes can be read from them. -/
theorem addFlows_eq_ok_iff (hw : Wired nodes) (hlen : cs.length = nodes.length) {steps : Nat}
    {fs : List (NodeFlows K)} {m' : Model K} :
    addFlows ⟨nodes, edgesOf nodes⟩ catalogue steps cs .empty = .ok (fs, m') ↔
      ((variableKeys nodes).map (·.name)).Nodup ∧
        m' = Model.empty.extend ((variableKeys nodes).map (·.block steps)) ∧
        List.Forall₂ (fun p f => p.1.flowsIn catalogue (outlets nodes p.1.name) p.2 m' = .ok f)
          (nodes.zip cs) fs := by
  rw [(realizes_addFlows catalogue steps hw hlen .empty).eq_ok_iff, mapM_eq_ok_iff]
  rw [fresh_variables_iff]

end Passes

end Graph

end SupplyNet
