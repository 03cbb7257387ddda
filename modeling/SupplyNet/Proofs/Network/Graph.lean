import Mathlib
import SupplyNet.Network.Graph

/-!
Graphs in terms of names. A list of nodes is wired if its names differ and each input is the name
of a node that is not an output; then the edges out of a node are the inlets that name it, in the
order of the nodes that have them.
-/
set_option autoImplicit false

namespace SupplyNet

/-- A node that takes input from another one, with the commodity that it takes. -/
structure Outlet where
  target : String
  commodity : String
  deriving DecidableEq

variable {K : Type} [Scalar K]

/-- The inlets of some nodes that a node of the given name serves. -/
def outlets (nodes : List (Node K)) (name : String) : List Outlet :=
  nodes.flatMap fun m => (m.inlets.filter (·.source = name)).map fun i => ⟨m.name, i.commodity⟩

/-- No two nodes have the same name, and each input is a node other than an output. -/
structure Wired (nodes : List (Node K)) : Prop where
  names_nodup : (nodes.map (·.name)).Nodup
  known : ∀ n ∈ nodes, ∀ input ∈ n.inputs, ∃ m ∈ nodes, m.name = input
  not_output : ∀ n ∈ nodes, ∀ m ∈ nodes, m.name ∈ n.inputs → ¬m.kind.isOutput

theorem mem_outlets {nodes : List (Node K)} {name : String} {o : Outlet} :
    o ∈ outlets nodes name ↔ ∃ m ∈ nodes, ∃ inlet ∈ m.inlets, inlet.source = name ∧
      ⟨m.name, inlet.commodity⟩ = o := by
  unfold outlets
  simp only [List.mem_flatMap, List.mem_map, List.mem_filter, decide_eq_true_eq, and_assoc]

/-- Nothing flows out of an output node. -/
theorem Wired.not_isOutput_of_served {nodes : List (Node K)} (h : Wired nodes) {n : Node K}
    (hn : n ∈ nodes) (hs : outlets nodes n.name ≠ []) : ¬n.kind.isOutput := by
  obtain ⟨o, ho⟩ := List.exists_mem_of_ne_nil _ hs
  obtain ⟨m, hm, inlet, hi, hsource, -⟩ := mem_outlets.1 ho
  exact h.not_output m hm n hn (hsource ▸ List.mem_map_of_mem hi)

/-- A node that is served twice by another one would name it twice. -/
theorem Wired.outlet_unique {nodes : List (Node K)} (h : Wired nodes)
    (hinputs : ∀ n ∈ nodes, n.inputs.Nodup) {name : String} {o o' : Outlet}
    (ho : o ∈ outlets nodes name) (ho' : o' ∈ outlets nodes name) (ht : o.target = o'.target) :
    o = o' := by
  obtain ⟨m, hm, inlet, hi, hs, rfl⟩ := mem_outlets.1 ho
  obtain ⟨m', hm', inlet', hi', hs', rfl⟩ := mem_outlets.1 ho'
  obtain rfl := List.inj_on_of_nodup_map h.names_nodup hm hm' ht
  obtain rfl := List.inj_on_of_nodup_map (hinputs m hm) hi hi' (hs.trans hs'.symm)
  rfl

namespace Graph

theorem duplicate?_eq_none_iff (seen names : List String) :
    duplicate? seen names = none ↔ names.Nodup ∧ ∀ name ∈ names, name ∉ seen := by
  induction names generalizing seen with
  | nil => simp [duplicate?]
  | cons name r ih =>
    unfold duplicate?
    cases h : seen.idxOf? name with
    | some i =>
      have hmem : name ∈ seen := by
        by_contra hnot
        rw [List.idxOf?_eq_none_iff.2 hnot] at h
        exact absurd h (by simp)
      simp only [reduceCtorEq, false_iff]
      exact fun hn => hn.2 name List.mem_cons_self hmem
    | none =>
      have hname : name ∉ seen := List.idxOf?_eq_none_iff.1 h
      simp only [ih, List.nodup_cons, List.mem_cons, List.mem_append]
      constructor
      · rintro ⟨hr, hs⟩
        refine ⟨⟨fun hmem => hs name hmem (Or.inr (by simp)), hr⟩, ?_⟩
        rintro x (rfl | hx)
        · exact hname
        · exact fun hxs => hs x hx (Or.inl hxs)
      · rintro ⟨⟨hnr, hr⟩, hs⟩
        refine ⟨hr, fun x hx => ?_⟩
        rintro (hxs | hxn)
        · exact hs x (Or.inr hx) hxs
        · rcases hxn with rfl | hxn
          · exact hnr hx
          · exact absurd hxn List.not_mem_nil

theorem indexIn_eq_none_iff (nodes : List (Node K)) (name : String) :
    indexIn nodes name = none ↔ ¬∃ m ∈ nodes, m.name = name := by
  unfold indexIn
  rw [List.findIdx?_eq_none_iff]
  simp

theorem outputAsInput?_eq_none_iff (nodes : List (Node K)) :
    outputAsInput? nodes = none ↔
      ∀ n ∈ nodes, ∀ m ∈ nodes, m.name ∈ n.inputs → ¬m.kind.isOutput := by
  unfold outputAsInput?
  simp only [List.findSome?_eq_none_iff, Option.map_eq_none_iff, List.find?_eq_none,
    List.any_eq_true, Bool.and_eq_true, decide_eq_true_eq, not_exists, not_and]
  constructor
  · intro h n hn m hm hmem
    exact h n hn m.name hmem m hm rfl
  · intro h n hn input hinput m hm hname
    exact h n hn m hm (hname ▸ hinput)

theorem ofNodes_eq_ok_iff {nodes : List (Node K)} {g : Graph K} :
    ofNodes nodes = .ok g ↔ Wired nodes ∧ g = ⟨nodes, edgesOf nodes⟩ := by
  have hmissing : ((nodes.flatMap (·.inputs)).filter fun input => (indexIn nodes input).isNone) =
      [] ↔ ∀ n ∈ nodes, ∀ input ∈ n.inputs, ∃ m ∈ nodes, m.name = input := by
    simp only [List.filter_eq_nil_iff, Option.isNone_iff_eq_none, indexIn_eq_none_iff,
      List.mem_flatMap, not_not]
    exact ⟨fun h n hn input hi => h input ⟨n, hn, hi⟩, fun h input ⟨n, hn, hi⟩ => h n hn input hi⟩
  unfold ofNodes
  cases hd : duplicate? [] (nodes.map (·.name)) with
  | some d =>
    simp only [reduceCtorEq, false_iff]
    rintro ⟨hw, -⟩
    rw [(duplicate?_eq_none_iff _ _).2 ⟨hw.names_nodup, fun _ _ => List.not_mem_nil⟩] at hd
    exact absurd hd (by simp)
  | none =>
    have hnodup := ((duplicate?_eq_none_iff _ _).1 hd).1
    dsimp only
    split
    · next hm =>
      cases ho : outputAsInput? nodes with
      | some o =>
        simp only [reduceCtorEq, false_iff]
        rintro ⟨hw, -⟩
        rw [(outputAsInput?_eq_none_iff nodes).2 hw.not_output] at ho
        exact absurd ho (by simp)
      | none =>
        simp only [Except.ok.injEq]
        constructor
        · rintro rfl
          exact ⟨⟨hnodup, hmissing.1 hm, (outputAsInput?_eq_none_iff nodes).1 ho⟩, rfl⟩
        · rintro ⟨-, rfl⟩
          rfl
    · next hm =>
      simp only [reduceCtorEq, false_iff]
      rintro ⟨hw, -⟩
      exact hm (hmissing.2 hw.known)

/-! ## Edges -/

/-- An edge is an inlet of its target in its slot, with the position of the source. -/
theorem mem_edgesOf {nodes : List (Node K)} {e : Edge} : e ∈ edgesOf nodes ↔ ∃ n inlet,
    nodes[e.target]? = some n ∧ n.inlets[e.slot]? = some inlet ∧
    indexIn nodes inlet.source = some e.source ∧ inlet.commodity = e.commodity := by
  unfold edgesOf edgesInto
  simp only [List.mem_flatMap, List.mem_filterMap, Option.map_eq_some_iff, Prod.exists,
    List.mk_mem_zipIdx_iff_getElem?]
  constructor
  · rintro ⟨n, target, hn, inlet, slot, hinlet, source, hsource, rfl⟩
    exact ⟨n, inlet, hn, hinlet, hsource, rfl⟩
  · rintro ⟨n, inlet, hn, hinlet, hsource, hcommodity⟩
    exact ⟨n, e.target, hn, inlet, e.slot, hinlet, e.source, hsource, by rw [hcommodity]⟩

theorem indexIn_eq {nodes : List (Node K)} (hw : Wired nodes) {i : Nat} {n : Node K}
    (h : nodes[i]? = some n) : indexIn nodes n.name = some i := by
  have hi : (nodes.map (·.name))[i]? = some n.name := by rw [List.getElem?_map, h]; rfl
  unfold indexIn
  rw [List.findIdx?_eq_some_iff_getElem]
  obtain ⟨hlt, rfl⟩ := List.getElem?_eq_some_iff.1 h
  refine ⟨hlt, by simp, fun j hj => ?_⟩
  have hne : nodes[j].name ≠ nodes[i].name := by
    have hnd := List.nodup_iff_injective_getElem.1 hw.names_nodup
    intro he
    have hji : (⟨j, by simp; omega⟩ : Fin (nodes.map (·.name)).length) = ⟨i, by simp; omega⟩ :=
      hnd (by simpa using he)
    have := Fin.mk.inj hji
    omega
  simpa using hne

/-- The edges into a node, one for each inlet. -/
theorem edgesInto_eq {nodes : List (Node K)} (hw : Wired nodes) {n : Node K} (hn : n ∈ nodes)
    (target : Nat) :
    edgesInto nodes target n = n.inlets.zipIdx.map fun (inlet, slot) =>
      ⟨(indexIn nodes inlet.source).getD 0, target, slot, inlet.commodity⟩ := by
  unfold edgesInto
  rw [← List.filterMap_eq_map]
  apply List.filterMap_congr
  rintro ⟨inlet, slot⟩ h
  have hmem : inlet.source ∈ n.inputs :=
    List.mem_map.2 ⟨inlet, (List.mem_zipIdx' h).2 ▸ List.getElem_mem _, rfl⟩
  obtain ⟨m, hm, hname⟩ := hw.known n hn inlet.source hmem
  cases hi : indexIn nodes inlet.source with
  | none => exact absurd ⟨m, hm, hname⟩ ((indexIn_eq_none_iff _ _).1 hi)
  | some i => simp [hi]

/-- An inlet leads from the node at position `i` if it names that node. -/
theorem source_eq_iff {nodes : List (Node K)} (hw : Wired nodes) {i : Nat} {n m : Node K}
    (hi : nodes[i]? = some n) (hm : m ∈ nodes) {inlet : Inlet} (h : inlet ∈ m.inlets) :
    (indexIn nodes inlet.source).getD 0 = i ↔ inlet.source = n.name := by
  constructor
  · intro he
    obtain ⟨k, hk, hname⟩ := hw.known m hm inlet.source (List.mem_map.2 ⟨inlet, h, rfl⟩)
    obtain ⟨j, hj⟩ := List.mem_iff_getElem?.1 hk
    rw [← hname, indexIn_eq hw hj, Option.getD_some] at he
    subst he
    rw [hj] at hi
    rw [← hname, Option.some.inj hi]
  · intro he
    rw [he, indexIn_eq hw hi, Option.getD_some]

theorem nameAt_eq {nodes : List (Node K)} {edges : List Edge} {i : Nat} {n : Node K}
    (h : nodes[i]? = some n) : nameAt ⟨nodes, edges⟩ i = n.name := by
  unfold nameAt
  rw [h]

/-- The edges out of a node, with the names of their targets, are its outlets. -/
theorem edgesFrom_eq {nodes : List (Node K)} (hw : Wired nodes) {i : Nat} {n : Node K}
    (hi : nodes[i]? = some n) :
    (edgesFrom ⟨nodes, edgesOf nodes⟩ i).map
        (fun e => (⟨nameAt ⟨nodes, edgesOf nodes⟩ e.target, e.commodity⟩ : Outlet)) =
      outlets nodes n.name := by
  unfold edgesFrom outlets
  simp only [edgesOf, List.filter_flatMap, List.map_flatMap]
  rw [List.flatMap_def, List.flatMap_def]
  congr 1
  apply List.ext_getElem (by simp)
  intro t h₁ h₂
  have ht : t < nodes.length := by simpa using h₂
  simp only [List.getElem_map, List.getElem_zipIdx, Nat.zero_add]
  rw [edgesInto_eq hw (List.getElem_mem ht), List.filter_map, List.map_map]
  have hf : (nodes[t].inlets.zipIdx.filter ((fun e : Edge => decide (e.source = i)) ∘
      fun (inlet, slot) => ⟨(indexIn nodes inlet.source).getD 0, t, slot, inlet.commodity⟩)) =
      nodes[t].inlets.zipIdx.filter ((fun inlet : Inlet => decide (inlet.source = n.name)) ∘
        Prod.fst) := by
    apply List.filter_congr
    rintro ⟨inlet, slot⟩ h
    have hmem : inlet ∈ nodes[t].inlets := (List.mem_zipIdx' h).2 ▸ List.getElem_mem _
    exact decide_eq_decide.2 (source_eq_iff hw hi (List.getElem_mem ht) hmem)
  rw [hf]
  conv_rhs => rw [← List.zipIdx_map_fst 0 nodes[t].inlets, List.filter_map, List.map_map]
  apply List.map_congr_left
  intro p _
  simp only [Function.comp_apply]
  rw [nameAt_eq (List.getElem?_eq_getElem ht)]

theorem target_of_mem_edgesInto {nodes : List (Node K)} {target : Nat} {n : Node K} {e : Edge}
    (h : e ∈ edgesInto nodes target n) : e.target = target := by
  unfold edgesInto at h
  obtain ⟨p, -, he⟩ := List.mem_filterMap.1 h
  obtain ⟨i, -, rfl⟩ := Option.map_eq_some_iff.1 he
  rfl

theorem flatMap_zipIdx_eq {α β : Type} (l : List α) (f : α → List β) (start t : Nat) :
    ((l.zipIdx start).flatMap fun p => if p.2 = start + t then f p.1 else []) =
      (l[t]?.map f).getD [] := by
  induction l generalizing start t with
  | nil => rfl
  | cons a l ih =>
    rw [List.zipIdx_cons, List.flatMap_cons]
    cases t with
    | zero =>
      have hrest : ((l.zipIdx (start + 1)).flatMap fun p => if p.2 = start + 0 then f p.1 else []) =
          [] := by
        rw [List.flatMap_eq_nil_iff]
        rintro ⟨b, i⟩ h
        have hle := List.le_snd_of_mem_zipIdx h
        dsimp only at hle ⊢
        rw [if_neg (by omega)]
      rw [hrest]
      simp
    | succ t =>
      have h := ih (start + 1) t
      simp only [show start + 1 + t = start + (t + 1) by omega] at h
      rw [h]
      simp

/-- The edges into the node at a position. -/
theorem edgesTo_eq {nodes : List (Node K)} {t : Nat} {n : Node K} (ht : nodes[t]? = some n) :
    (edgesOf nodes).filter (·.target = t) = edgesInto nodes t n := by
  have h : (fun p : Node K × Nat => (edgesInto nodes p.2 p.1).filter (·.target = t)) =
      fun p => if p.2 = 0 + t then edgesInto nodes t p.1 else [] := by
    funext p
    split
    · next he =>
      rw [Nat.zero_add] at he
      rw [he, List.filter_eq_self]
      intro e hm
      exact decide_eq_true (target_of_mem_edgesInto hm)
    · next hne =>
      rw [List.filter_eq_nil_iff]
      intro e hm hd
      rw [← target_of_mem_edgesInto hm, Nat.zero_add] at hne
      exact hne (of_decide_eq_true hd)
  unfold edgesOf
  rw [List.filter_flatMap]
  change nodes.zipIdx.flatMap (fun p => (edgesInto nodes p.2 p.1).filter (·.target = t)) = _
  rw [h, flatMap_zipIdx_eq nodes (fun m => edgesInto nodes t m) 0 t, ht]
  rfl

end Graph

end SupplyNet
