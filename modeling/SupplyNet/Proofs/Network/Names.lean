import Mathlib
import SupplyNet.Proofs.Network.Compile

/-!
The names of variables. They are put together from the names of nodes, so different variables get
the same name if one node is named like the storage of another one, or like an edge, or if two edges
have the same names when these are joined.
-/
set_option autoImplicit false

namespace SupplyNet

/-- If none of some texts starts like another, texts that go on from them start with the same one. -/
theorem append_eq_append_iff_of_apart {starts : List String}
    (hapart : ∀ a ∈ starts, ∀ b ∈ starts, a.toList <+: b.toList → a = b) {a b r s : String}
    (ha : a ∈ starts) (hb : b ∈ starts) : a ++ r = b ++ s ↔ a = b ∧ r = s := by
  constructor
  · intro h
    have hl := congrArg String.toList h
    rw [String.toList_append, String.toList_append] at hl
    have hab : a = b := by
      rcases List.prefix_or_prefix_of_prefix (List.prefix_append _ _)
        (hl ▸ List.prefix_append _ _) with hp | hp
      · exact (hapart _ hb _ ha hp).symm
      · exact hapart _ ha _ hb hp
    rw [hab] at hl
    exact ⟨hab, String.toList_inj.1 (List.append_cancel_left hl)⟩
  · rintro ⟨rfl, rfl⟩
    rfl

namespace VariableKey

/-- What the name of a variable starts with. -/
def family : VariableKey → String
  | size _ | storageSize _ => "size_"
  | edge _ _ | outflow _ => "flow_"
  | level _ => "storage_level_"
  | charge _ => "storage_charge_"
  | discharge _ => "storage_discharge_"
  | inflow _ => "input_flow_"

/-- How the name of a variable goes on. -/
def rest : VariableKey → String
  | storageSize node => "storage_" ++ node
  | edge source target => source ++ "_" ++ target
  | size node | level node | charge node | discharge node | outflow node | inflow node => node

theorem name_eq (k : VariableKey) : k.name = k.family ++ k.rest := by
  cases k with
  | edge source target =>
    change "flow_" ++ source ++ "_" ++ target = "flow_" ++ (source ++ "_" ++ target)
    rw [String.append_assoc, String.append_assoc, String.append_assoc]
  | storageSize node =>
    have h : "size_" ++ "storage_" = "size_storage_" := by decide
    change "size_storage_" ++ node = "size_" ++ ("storage_" ++ node)
    rw [← String.append_assoc, h]
  | size | level | charge | discharge | outflow | inflow => rfl

def families : List String :=
  ["size_", "flow_", "storage_level_", "storage_charge_", "storage_discharge_", "input_flow_"]

theorem family_mem (k : VariableKey) : k.family ∈ families := by
  cases k <;> simp [family, families]

/-- No name of a family starts like one of another. -/
theorem families_apart : ∀ a ∈ families, ∀ b ∈ families, a.toList <+: b.toList → a = b := by
  decide

theorem name_eq_name_iff (k k' : VariableKey) :
    k.name = k'.name ↔ k.family = k'.family ∧ k.rest = k'.rest := by
  rw [name_eq, name_eq]
  exact append_eq_append_iff_of_apart families_apart k.family_mem k'.family_mem

/-- Different variables under one name, in one of the two orders. -/
def Clashes : VariableKey → VariableKey → Prop
  | size n, storageSize m => n = "storage_" ++ m
  | edge a b, edge c d => a ++ "_" ++ b = c ++ "_" ++ d ∧ ¬(a = c ∧ b = d)
  | outflow n, edge a b => n = a ++ "_" ++ b
  | _, _ => False

theorem not_clashes_self (k : VariableKey) : ¬k.Clashes k := by
  cases k with
  | edge a b => exact fun h => h.2 ⟨rfl, rfl⟩
  | size | storageSize | level | charge | discharge | outflow | inflow => exact id

/-- Names are the same in no other case. -/
theorem name_eq_name_iff_clashes (k k' : VariableKey) :
    k.name = k'.name ↔ k = k' ∨ k.Clashes k' ∨ k'.Clashes k := by
  rw [name_eq_name_iff]
  cases k <;> cases k'
  case edge.edge a b c d =>
    simp only [family, rest, Clashes, true_and, edge.injEq]
    constructor
    · intro h
      by_cases hs : a = c ∧ b = d
      · exact Or.inl hs
      · exact Or.inr (Or.inl ⟨h, hs⟩)
    · rintro (⟨rfl, rfl⟩ | ⟨h, -⟩ | ⟨h, -⟩)
      · rfl
      · exact h
      · exact h.symm
  case edge.outflow a b n =>
    simp only [family, rest, Clashes, true_and, reduceCtorEq, false_or]
    exact eq_comm
  case storageSize.size m n =>
    simp only [family, rest, Clashes, true_and, reduceCtorEq, false_or]
    exact eq_comm
  all_goals simp [family, rest, Clashes]

end VariableKey

variable {K : Type} [Scalar K]

/-! ## Different variables -/

section Keys

variable {nodes : List (Node K)}

/-- The node that a variable is added for. -/
def VariableKey.owner : VariableKey → String
  | .size n | .storageSize n | .level n | .charge n | .discharge n | .outflow n | .inflow n => n
  | .edge _ target => target

theorem owner_of_mem_declaredKeys {n : Node K} {k : VariableKey} (h : k ∈ n.declaredKeys) :
    k.owner = n.name := by
  rcases mem_declaredKeys.1 h with ⟨-, rfl⟩ | ⟨input, -, rfl⟩ | ⟨-, hk⟩
  · rfl
  · rfl
  · rcases mem_storageKeys.1 hk with rfl | rfl | rfl | rfl <;> rfl

/-- What a node declares is not the flow of a leaf. -/
theorem not_leaf_of_mem_declaredKeys {n : Node K} {k : VariableKey} (h : k ∈ n.declaredKeys)
    (name : String) : k ≠ .outflow name ∧ k ≠ .inflow name := by
  rcases mem_declaredKeys.1 h with ⟨-, rfl⟩ | ⟨input, -, rfl⟩ | ⟨-, hk⟩
  · exact ⟨VariableKey.noConfusion, VariableKey.noConfusion⟩
  · exact ⟨VariableKey.noConfusion, VariableKey.noConfusion⟩
  · rcases mem_storageKeys.1 hk with rfl | rfl | rfl | rfl <;>
      exact ⟨VariableKey.noConfusion, VariableKey.noConfusion⟩

theorem owner_of_mem_leafKeys {n : Node K} {served : List Outlet} {k : VariableKey}
    (h : k ∈ n.leafKeys served) : k.owner = n.name := by
  rcases mem_leafKeys.1 h with ⟨rfl, -⟩ | ⟨rfl, -⟩ <;> rfl

theorem nodup_declaredKeys {n : Node K} (h : n.inputs.Nodup) : n.declaredKeys.Nodup := by
  have hedges : n.edgeKeys.Nodup := by
    have hmap : n.edgeKeys = n.inputs.map fun source => .edge source n.name := by
      unfold Node.edgeKeys Node.inputs
      rw [List.map_map]
      rfl
    rw [hmap]
    exact h.map fun a b hab => (VariableKey.edge.inj hab).1
  have hsize : (if n.hasSize then [VariableKey.size n.name] else []).Nodup := by
    split <;> simp
  have hstorage : (if n.storage.isSome then n.storageKeys else []).Nodup := by
    split <;> simp [Node.storageKeys]
  unfold Node.declaredKeys
  refine List.nodup_append.2 ⟨List.nodup_append.2 ⟨hsize, hedges, ?_⟩, hstorage, ?_⟩
  · rintro a ha b hb rfl
    obtain ⟨inlet, -, rfl⟩ := List.mem_map.1 hb
    split at ha <;> simp at ha
  · rintro a ha b hb rfl
    rcases List.mem_append.1 ha with ha | ha
    · split at ha
      · rw [List.mem_singleton.1 ha] at hb
        split at hb <;> simp [Node.storageKeys] at hb
      · exact List.not_mem_nil ha
    · obtain ⟨inlet, -, rfl⟩ := List.mem_map.1 ha
      split at hb <;> simp [Node.storageKeys] at hb

/-- No variable is added twice. -/
theorem nodup_variableKeys (hnames : (nodes.map (·.name)).Nodup)
    (hinputs : ∀ n ∈ nodes, n.inputs.Nodup) : (variableKeys nodes).Nodup := by
  have hpairwise : nodes.Pairwise fun n m => n.name ≠ m.name := List.pairwise_map.1 hnames
  unfold variableKeys
  refine List.nodup_append.2 ⟨?_, ?_, ?_⟩
  · refine List.nodup_flatMap.2 ⟨fun n hn => nodup_declaredKeys (hinputs n hn), ?_⟩
    refine hpairwise.imp fun {n m} hne k hk hk' => hne ?_
    rw [← owner_of_mem_declaredKeys hk, owner_of_mem_declaredKeys hk']
  · refine List.nodup_flatMap.2 ⟨fun n hn => ?_, ?_⟩
    · unfold Node.leafKeys
      split <;> split <;> simp
    · refine hpairwise.imp fun {n m} hne k hk hk' => hne ?_
      rw [← owner_of_mem_leafKeys hk, owner_of_mem_leafKeys hk']
  · intro a ha b hb hab
    obtain ⟨n, -, hn⟩ := List.mem_flatMap.1 ha
    obtain ⟨m, -, hm⟩ := List.mem_flatMap.1 hb
    have hleaf := not_leaf_of_mem_declaredKeys hn m.name
    rcases mem_leafKeys.1 (hab ▸ hm) with ⟨h, -⟩ | ⟨h, -⟩
    · exact hleaf.1 h
    · exact hleaf.2 h

/-! ## Different names -/

/-- No node of a size is named like the storage of a node, no two edges have the same joined names,
and no leaf is named like an edge. -/
structure DistinctNames (nodes : List (Node K)) : Prop where
  sizes : ∀ n ∈ nodes, n.hasSize = true → ∀ m ∈ nodes, m.storage.isSome = true →
    n.name ≠ "storage_" ++ m.name
  edges : ∀ n ∈ nodes, ∀ a ∈ n.inputs, ∀ m ∈ nodes, ∀ b ∈ m.inputs,
    a ++ "_" ++ n.name = b ++ "_" ++ m.name → a = b ∧ n.name = m.name
  leaves : ∀ n ∈ nodes, n.kind ≠ .fixedOutput → outlets nodes n.name = [] →
    ∀ m ∈ nodes, ∀ a ∈ m.inputs, n.name ≠ a ++ "_" ++ m.name

theorem distinctNames_iff : DistinctNames nodes ↔
    ∀ k ∈ variableKeys nodes, ∀ k' ∈ variableKeys nodes, ¬k.Clashes k' := by
  constructor
  · intro h k hk k' hk' hclash
    cases k <;> cases k' <;> try exact hclash
    case size.storageSize name name' =>
      obtain ⟨n, hn, hs, rfl⟩ := size_mem_variableKeys.1 hk
      obtain ⟨m, hm, hst, rfl⟩ := storageSize_mem_variableKeys.1 hk'
      exact h.sizes n hn hs m hm hst hclash
    case edge.edge a t b t' =>
      obtain ⟨n, hn, ha, rfl⟩ := edge_mem_variableKeys.1 hk
      obtain ⟨m, hm, hb, rfl⟩ := edge_mem_variableKeys.1 hk'
      exact hclash.2 (h.edges n hn a ha m hm b hb hclash.1)
    case outflow.edge name a t =>
      obtain ⟨n, hn, rfl, hkind, hout⟩ := outflow_mem_variableKeys.1 hk
      obtain ⟨m, hm, ha, rfl⟩ := edge_mem_variableKeys.1 hk'
      exact h.leaves n hn hkind hout m hm a ha hclash
  · intro h
    refine ⟨fun n hn hs m hm hst heq => ?_, fun n hn a ha m hm b hb heq => ?_,
      fun n hn hkind hout m hm a ha heq => ?_⟩
    · exact h _ (size_mem_variableKeys.2 ⟨n, hn, hs, rfl⟩) _
        (storageSize_mem_variableKeys.2 ⟨m, hm, hst, rfl⟩) heq
    · by_contra hne
      exact h _ (edge_mem_variableKeys.2 ⟨n, hn, ha, rfl⟩) _
        (edge_mem_variableKeys.2 ⟨m, hm, hb, rfl⟩) ⟨heq, hne⟩
    · exact h _ (outflow_mem_variableKeys.2 ⟨n, hn, rfl, hkind, hout⟩) _
        (edge_mem_variableKeys.2 ⟨m, hm, ha, rfl⟩) heq

/-- The names of all variables differ exactly if the nodes have such names. -/
theorem nodup_names_iff (hnames : (nodes.map (·.name)).Nodup)
    (hinputs : ∀ n ∈ nodes, n.inputs.Nodup) :
    ((variableKeys nodes).map (·.name)).Nodup ↔ DistinctNames nodes := by
  rw [List.nodup_map_iff_inj_on (nodup_variableKeys hnames hinputs), distinctNames_iff]
  constructor
  · intro h k hk k' hk' hclash
    have heq : k = k' := h k hk k' hk'
      ((VariableKey.name_eq_name_iff_clashes k k').2 (Or.inr (Or.inl hclash)))
    exact VariableKey.not_clashes_self k (heq ▸ hclash)
  · intro h k hk k' hk' heq
    rcases (VariableKey.name_eq_name_iff_clashes k k').1 heq with heq | hclash | hclash
    · exact heq
    · exact absurd hclash (h k hk k' hk')
    · exact absurd hclash (h k' hk' k hk)

end Keys

end SupplyNet
