import Mathlib
import SupplyNet.Proofs.Network.ColumnUnits
import SupplyNet.Proofs.Network.Conditions

/-!
Assignments by variables. Every column of a network is that of one variable in one of its steps, so
an assignment can be given as a number for each variable and step.
-/
set_option autoImplicit false

namespace SupplyNet

theorem VariableKey.steps?_eq (k : VariableKey) (steps : Nat) :
    k.steps? steps = none ∨ k.steps? steps = some steps := by
  cases k with
  | size _ | storageSize _ => exact Or.inl rfl
  | edge _ _ | level _ | charge _ | discharge _ | outflow _ | inflow _ => exact Or.inr rfl

theorem VariableKey.steps?_eq_none_iff (k : VariableKey) (steps steps' : Nat) :
    k.steps? steps = none ↔ k.steps? steps' = none := by
  cases k <;> simp [steps?]

section Columns

variable {nodes : List (Node Rat)} {steps : Nat} {x : Var → Rat}
variable (hnames : ((variableKeys nodes).map (·.name)).Nodup)

include hnames

theorem eq_of_mem_places {v w : Var} {a : Address} (hv : (v, a) ∈ (registry nodes steps).places)
    (hw : (w, a) ∈ (registry nodes steps).places) : v = w := by
  have hconsistent := consistent_registry steps hnames
  have hidx := Model.idxOf_of_getElem? (nodup_addresses_registry hnames steps)
    (hconsistent.getElem?_addresses hv)
  rw [Model.idxOf_of_getElem? (nodup_addresses_registry hnames steps)
    (hconsistent.getElem?_addresses hw)] at hidx
  exact (LinearExpr.Var.ext_index hidx).symm

/-- The places of a network are those of its variables. -/
theorem mem_places_registry {v : Var} {a : Address} :
    (v, a) ∈ (registry nodes steps).places ↔ ∃ k ∈ variableKeys nodes,
      k.steps? steps = none ∧ v = (registry nodes steps).scalarOf k ∧ a = (k.name, none) ∨
      k.steps? steps = some steps ∧
        ∃ t < steps, v = (registry nodes steps).columnOf k t ∧ a = (k.name, some t) := by
  constructor
  · intro h
    have hget := (consistent_registry steps hnames).getElem?_addresses h
    have hmem := List.mem_of_getElem? hget
    rw [addresses_registry] at hmem
    obtain ⟨k, hk, hmem⟩ := List.mem_flatMap.1 hmem
    refine ⟨k, hk, ?_⟩
    unfold Block.addresses VariableKey.block at hmem
    rcases k.steps?_eq steps with hs | hs
    · simp only [hs, List.mem_singleton] at hmem
      rw [hmem] at h
      exact Or.inl ⟨hs, eq_of_mem_places hnames h (mem_places_scalarOf hnames hk hs), hmem⟩
    · simp only [hs] at hmem
      obtain ⟨t, ht, ha⟩ := List.mem_map.1 hmem
      have ht := List.mem_range.1 ht
      rw [← ha] at h
      exact Or.inr ⟨hs, t, ht, eq_of_mem_places hnames h (mem_places_columnOf hnames hk hs ht),
        ha.symm⟩
  · rintro ⟨k, hk, ⟨hs, rfl, rfl⟩ | ⟨hs, t, ht, rfl, rfl⟩⟩
    · exact mem_places_scalarOf hnames hk hs
    · exact mem_places_columnOf hnames hk hs ht

/-- No column is negative if none of a variable is. -/
theorem nonneg_iff :
    (∀ v : Var, v.index < (registry nodes steps).columns.size → 0 ≤ x v) ↔
      ∀ k ∈ variableKeys nodes,
        (k.steps? steps = none → 0 ≤ x ((registry nodes steps).scalarOf k)) ∧
        (k.steps? steps = some steps →
          ∀ t < steps, 0 ≤ x ((registry nodes steps).columnOf k t)) := by
  have hconsistent := consistent_registry steps hnames
  constructor
  · intro hall k hk
    exact ⟨fun hs => hall _ (index_scalarOf_lt hnames hk hs),
      fun hs t ht => hall _ (index_columnOf_lt hnames hk hs ht)⟩
  · intro hall v hv
    have hmem : v ∈ (registry nodes steps).places.map Prod.fst := by
      rw [hconsistent.columns]
      exact List.mem_map.2 ⟨v.index, List.mem_range.2 hv, rfl⟩
    obtain ⟨⟨w, a⟩, hplace, rfl⟩ := List.mem_map.1 hmem
    obtain ⟨k, hk, ⟨hs, hw, -⟩ | ⟨hs, t, ht, hw, -⟩⟩ := (mem_places_registry hnames).1 hplace
    · rw [show w = _ from hw]
      exact (hall k hk).1 hs
    · rw [show w = _ from hw]
      exact (hall k hk).2 hs t ht

end Columns

/-! ## Realizing a reading -/

/-- The assignment of a number to each column, given for its variable and its step. -/
def Model.assigned (m : Model Rat) (nodes : List (Node Rat)) (g : VariableKey → Option Nat → Rat)
    (v : Var) : Rat :=
  match m.keyAt? nodes v, m.addresses[v.index]? with
  | some k, some a => g k a.2
  | _, _ => 0

section Assigned

variable {nodes : List (Node Rat)} {steps : Nat} (g : VariableKey → Option Nat → Rat)
variable (hnames : ((variableKeys nodes).map (·.name)).Nodup)

include hnames

theorem assigned_of_mem_places {k : VariableKey} (hk : k ∈ variableKeys nodes) {v : Var}
    {t : Option Nat} (h : (v, (k.name, t)) ∈ (registry nodes steps).places) :
    (registry nodes steps).assigned nodes g v = g k t := by
  have hget := (consistent_registry steps hnames).getElem?_addresses h
  have hfind : (variableKeys nodes).find? (·.name = k.name) = some k :=
    find?_eq_some_of_unique hk (decide_eq_true rfl) fun _ hk' he =>
      key_eq_of_name_eq hnames hk' hk (of_decide_eq_true he)
  unfold Model.assigned Model.keyAt?
  rw [hget, Option.bind_some, hfind]

theorem assigned_scalarOf {k : VariableKey} (hk : k ∈ variableKeys nodes)
    (hs : k.steps? steps = none) :
    (registry nodes steps).assigned nodes g ((registry nodes steps).scalarOf k) = g k none :=
  assigned_of_mem_places g hnames hk (mem_places_scalarOf hnames hk hs)

theorem assigned_columnOf {k : VariableKey} (hk : k ∈ variableKeys nodes)
    (hs : k.steps? steps = some steps) {t : Nat} (ht : t < steps) :
    (registry nodes steps).assigned nodes g ((registry nodes steps).columnOf k t) = g k (some t) :=
  assigned_of_mem_places g hnames hk (mem_places_columnOf hnames hk hs ht)

end Assigned

end SupplyNet
