import Mathlib
import SupplyNet.Proofs.Network.Alike
import SupplyNet.Proofs.Network.Assigned

/-!
Assignments that trace each other. The nodes of two networks are alike, and an assignment of one
network gives every size and every flow the values of the other one, where each step of the flows is
read at a step that it is mapped to.
-/
set_option autoImplicit false

namespace SupplyNet

/-- A variable that is a flow. -/
def VariableKey.isFlow : VariableKey → Bool
  | edge _ _ | outflow _ | inflow _ => true
  | _ => false

/-- A variable that belongs to a storage. -/
def VariableKey.isStored : VariableKey → Bool
  | storageSize _ | level _ | charge _ | discharge _ => true
  | _ => false

theorem isStored_of_mem_storageKeys {n : Node Rat} {k : VariableKey} (h : k ∈ n.storageKeys) :
    k.isStored = true := by
  rcases mem_storageKeys.1 h with rfl | rfl | rfl | rfl <;> rfl

/-- Only a node with a storage has such variables. -/
theorem exists_stored {nodes : List (Node Rat)} {k : VariableKey} (hk : k ∈ variableKeys nodes)
    (h : k.isStored = true) : ∃ n ∈ nodes, n.storage.isSome = true ∧ k ∈ n.storageKeys := by
  obtain ⟨n, hn, hmem⟩ := mem_variableKeys.1 hk
  refine ⟨n, hn, ?_⟩
  rcases hmem with hmem | hmem
  · rcases mem_declaredKeys.1 hmem with ⟨-, rfl⟩ | ⟨input, -, rfl⟩ | hmem
    · exact absurd h (by simp [VariableKey.isStored])
    · exact absurd h (by simp [VariableKey.isStored])
    · exact hmem
  · rcases mem_leafKeys.1 hmem with ⟨rfl, -⟩ | ⟨rfl, -⟩ <;>
      exact absurd h (by simp [VariableKey.isStored])

/-- One assignment has the sizes of the other one, and its flows at the steps they are mapped to. -/
structure Traces (nodes : List (Node Rat)) (m m' : Model Rat) (steps : Nat) (φ : Nat → Nat)
    (x y : Var → Rat) : Prop where
  scalar : ∀ k ∈ variableKeys nodes, k.steps? steps = none →
    y (m'.scalarOf k) = x (m.scalarOf k)
  flow : ∀ k ∈ variableKeys nodes, k.isFlow = true → ∀ t < steps,
    y (m'.columnOf k t) = x (m.columnOf k (φ t))

/-- The profile of a role is that of another one, read at the steps it is mapped to. -/
def Role.Traces (steps : Nat) (φ : Nat → Nat) (r r' : Role Inlets Rat) : Prop :=
  ∀ s ∈ r.profile?, ∃ s' ∈ r'.profile?, ∀ scale : Rat, ∀ t < steps,
    s'.valueAt scale t = s.valueAt scale (φ t)

theorem Role.Traces.refl (steps : Nat) (r : Role Inlets Rat) : r.Traces steps id r :=
  fun s hs => ⟨s, hs, fun _ _ _ => rfl⟩

namespace Traces

variable {nodes : List (Node Rat)} {catalogue : Catalogue Rat} {m m' : Model Rat} {steps : Nat}
variable {φ : Nat → Nat} {x y : Var → Rat} {n n' : Node Rat}
variable (h : Traces nodes m m' steps φ x y) (hn : n ∈ nodes) (ha : n.Alike n')

include h hn ha

theorem leafInflowAt (hr : n.role.Traces steps φ n'.role) (hi : n.inlets = []) {t : Nat}
    (ht : t < steps) (commodity : String) :
    n'.leafInflowAt catalogue m' y commodity t =
      n.leafInflowAt catalogue m x commodity (φ t) := by
  have hown : ¬n.kind.isInput →
      y (m'.columnOf (.inflow n.name) t) = x (m.columnOf (.inflow n.name) (φ t)) :=
    fun hk => h.flow _ (mem_variableKeys_inflow hn hk hi) rfl t ht
  have hkind := ha.kind
  unfold Node.leafInflowAt
  unfold Node.kind at hkind hown
  rw [ha.name]
  cases hrole : n.role with
  | fixedInput flow =>
    obtain ⟨flow', hflow', hvalue⟩ := hr flow (by rw [hrole]; rfl)
    cases hrole' : n'.role with
    | fixedInput flow'' =>
      rw [hrole'] at hflow'
      rw [show flow'' = flow' from Option.some.inj hflow']
      exact hvalue _ t ht
    | _ => simp [hrole, hrole', Role.kind] at hkind
  | scalableInput factors =>
    obtain ⟨factors', hfactors', hvalue⟩ := hr factors (by rw [hrole]; rfl)
    cases hrole' : n'.role with
    | scalableInput factors'' =>
      rw [hrole'] at hfactors'
      have hsize : n.hasSize = true := by simp [Node.hasSize, Node.kind, hrole, Role.kind]
      rw [show factors'' = factors' from Option.some.inj hfactors']
      dsimp only
      rw [hvalue _ t ht, h.scalar _ (mem_variableKeys_size hn hsize) rfl]
    | _ => simp [hrole, hrole', Role.kind] at hkind
  | fixedOutput _ _ | scalableOutput _ _ | generic _ =>
    cases hrole' : n'.role with
    | fixedOutput _ _ | scalableOutput _ _ | generic _ =>
      exact hown (by simp [hrole, Role.kind, NodeKind.isInput, NodeKind.part])
    | _ => simp [hrole, hrole', Role.kind] at hkind

theorem leafOutflowAt (hr : n.kind = .fixedOutput → n.role.Traces steps φ n'.role)
    (hs : outlets nodes n.name = []) {t : Nat} (ht : t < steps) (commodity : String) :
    n'.leafOutflowAt catalogue m' y commodity t =
      n.leafOutflowAt catalogue m x commodity (φ t) := by
  have hown : n.kind ≠ .fixedOutput →
      y (m'.columnOf (.outflow n.name) t) = x (m.columnOf (.outflow n.name) (φ t)) :=
    fun hk => h.flow _ (mem_variableKeys_outflow hn hk hs) rfl t ht
  have hkind := ha.kind
  unfold Node.leafOutflowAt
  unfold Node.kind at hkind hown hr
  rw [ha.name]
  cases hrole : n.role with
  | fixedOutput inputs flow =>
    obtain ⟨flow', hflow', hvalue⟩ := hr (by rw [hrole]; rfl) flow (by rw [hrole]; rfl)
    cases hrole' : n'.role with
    | fixedOutput inputs' flow'' =>
      rw [hrole'] at hflow'
      rw [show flow'' = flow' from Option.some.inj hflow']
      exact hvalue _ t ht
    | _ => simp [hrole, hrole', Role.kind] at hkind
  | _ =>
    cases hrole' : n'.role with
    | fixedOutput _ _ => simp [hrole, hrole', Role.kind] at hkind
    | _ => exact hown (by simp [hrole, Role.kind])

/-- The input flows of a node are those of the other node, read at the mapped steps. -/
theorem inflowOf (hr : n.role.Traces steps φ n'.role) {t : Nat} (ht : t < steps) {l : Label}
    (hl : l ∈ n.inLabels nodes) : n'.inflowOf catalogue m' y t l =
      n.inflowOf catalogue m x (φ t) l := by
  unfold Node.inLabels at hl
  unfold Node.inflowOf
  split at hl
  · next hi =>
    rw [List.mem_singleton.1 hl]
    exact h.leafInflowAt hn ha hr hi ht _
  · obtain ⟨inlet, hi, rfl⟩ := List.mem_map.1 hl
    dsimp only
    rw [ha.name]
    exact h.flow _ (mem_variableKeys_edge hn hi) rfl t ht

theorem outflowOf (hr : n.kind = .fixedOutput → n.role.Traces steps φ n'.role) {t : Nat}
    (ht : t < steps) {l : Label} (hl : l ∈ n.outLabels nodes) : n'.outflowOf catalogue m' y t l =
      n.outflowOf catalogue m x (φ t) l := by
  unfold Node.outLabels at hl
  unfold Node.outflowOf
  split at hl
  · next hs =>
    rw [List.mem_singleton.1 hl]
    exact h.leafOutflowAt hn ha hr hs ht _
  · obtain ⟨o, ho, rfl⟩ := List.mem_map.1 hl
    dsimp only
    rw [ha.name]
    exact h.flow _ (mem_variableKeys_outlet ho) rfl t ht

end Traces

/-! ## Storages -/

/-- No value of a storage is negative if no column is. -/
theorem nonneg_storageValues {nodes : List (Node Rat)} {steps : Nat} {n : Node Rat} {x : Var → Rat}
    (hnames : ((variableKeys nodes).map (·.name)).Nodup) (hn : n ∈ nodes)
    (hst : n.storage.isSome = true)
    (hx : ∀ v : Var, v.index < (registry nodes steps).columns.size → 0 ≤ x v) :
    ((registry nodes steps).storageValues x n.name).Nonneg steps := by
  obtain ⟨hsize, hlevel, hcharge, hdischarge⟩ := stored_mem_variableKeys hn hst
  rw [nonneg_iff hnames] at hx
  exact ⟨(hx _ hsize).1 rfl, (hx _ hlevel).2 rfl, (hx _ hcharge).2 rfl, (hx _ hdischarge).2 rfl⟩

/-! ## Assignments that are kept -/

/-- One assignment has the values of another one at all columns of the latter. -/
def Model.Keeps {K : Type} (m m' : Model K) (x y : Var → Rat) : Prop :=
  ∀ v a, (v, a) ∈ m.places → ∃ w, (w, a) ∈ m'.places ∧ y w = x v

section Keeps

variable {nodes nodes' : List (Node Rat)} {catalogue : Catalogue Rat} {steps : Nat}
variable {x y : Var → Rat} {n n' : Node Rat}
variable (hnames : ((variableKeys nodes).map (·.name)).Nodup)
variable (hnames' : ((variableKeys nodes').map (·.name)).Nodup)
variable (hkeys : ∀ k ∈ variableKeys nodes, k ∈ variableKeys nodes')

include hnames hnames' hkeys

/-- An assignment is kept if it is at the columns of each variable. -/
theorem keeps_registry_iff :
    (registry nodes steps).Keeps (registry nodes' steps) x y ↔ ∀ k ∈ variableKeys nodes,
      (k.steps? steps = none →
        y ((registry nodes' steps).scalarOf k) = x ((registry nodes steps).scalarOf k)) ∧
      (k.steps? steps = some steps → ∀ t < steps,
        y ((registry nodes' steps).columnOf k t) = x ((registry nodes steps).columnOf k t)) := by
  constructor
  · intro h k hk
    refine ⟨fun hs => ?_, fun hs t ht => ?_⟩
    · obtain ⟨w, hw, he⟩ := h _ _ (mem_places_scalarOf hnames hk hs)
      rw [eq_of_mem_places hnames' (mem_places_scalarOf hnames' (hkeys k hk) hs) hw, he]
    · obtain ⟨w, hw, he⟩ := h _ _ (mem_places_columnOf hnames hk hs ht)
      rw [eq_of_mem_places hnames' (mem_places_columnOf hnames' (hkeys k hk) hs ht) hw, he]
  · intro h v a hv
    obtain ⟨k, hk, ⟨hs, rfl, rfl⟩ | ⟨hs, t, ht, rfl, rfl⟩⟩ := (mem_places_registry hnames).1 hv
    · exact ⟨_, mem_places_scalarOf hnames' (hkeys k hk) hs, (h k hk).1 hs⟩
    · exact ⟨_, mem_places_columnOf hnames' (hkeys k hk) hs ht, (h k hk).2 hs t ht⟩

variable (h : (registry nodes steps).Keeps (registry nodes' steps) x y)

include h

theorem Model.Keeps.traces :
    Traces nodes (registry nodes steps) (registry nodes' steps) steps id x y := by
  have hcolumns := (keeps_registry_iff hnames hnames' hkeys).1 h
  refine ⟨fun k hk => (hcolumns k hk).1, fun k hk hflow t ht => (hcolumns k hk).2 ?_ t ht⟩
  cases k with
  | edge _ _ | outflow _ | inflow _ => rfl
  | _ => exact absurd hflow (by simp [VariableKey.isFlow])

/-- A node with the same role does the same under an assignment that is kept. -/
theorem Model.Keeps.agree (hn : n ∈ nodes) (ha : n.Alike n') (hrole : n'.role = n.role) :
    n.Agree nodes steps (n.operation catalogue (registry nodes steps) x)
      (n'.operation catalogue (registry nodes' steps) y) := by
  have hcolumns := (keeps_registry_iff hnames hnames' hkeys).1 h
  have htraces := h.traces hnames hnames' hkeys
  have hprofile : n.role.Traces steps id n'.role := hrole ▸ .refl steps _
  have hstorage := stored_mem_variableKeys hn
  refine ⟨fun hsize => ?_, fun hst => ⟨?_, fun t ht => ?_, fun t ht => ?_, fun t ht => ?_⟩,
    fun t ht l hl => htraces.inflowOf hn ha hprofile ht hl,
    fun t ht l hl => htraces.outflowOf hn ha (fun _ => hprofile) ht hl⟩
  all_goals
    unfold Node.operation Model.storageValues
    dsimp only
    rw [ha.name]
  · exact htraces.scalar _ (mem_variableKeys_size hn hsize) rfl
  · exact htraces.scalar _ (hstorage hst).1 rfl
  · exact (hcolumns _ (hstorage hst).2.1).2 rfl t ht
  · exact (hcolumns _ (hstorage hst).2.2.1).2 rfl t ht
  · exact (hcolumns _ (hstorage hst).2.2.2).2 rfl t ht

end Keeps

theorem Compiled.keeps_iff {nodes nodes' : List (Node Rat)} {grid grid' : Grid}
    {config config' : Config Rat} {cs cs' : List NodeCommodities} {groups groups' : List (Rows Rat)}
    {net net' : Network Rat} {x y : Var → Rat} (h : Compiled nodes grid config cs groups net)
    (h' : Compiled nodes' grid' config' cs' groups' net') :
    net.model.Keeps net'.model x y ↔
      (registry nodes grid.size).Keeps (registry nodes' grid'.size) x y := by
  rw [h.model, h'.model]
  rfl

end SupplyNet
