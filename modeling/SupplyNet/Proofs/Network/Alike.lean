import Mathlib
import SupplyNet.Proofs.Network.Expenses
import SupplyNet.Proofs.Network.Place

/-!
Nodes that are alike. They may differ in the values of their profiles and in their storages, but in
nothing that decides where flows go and what they are made of.
-/
set_option autoImplicit false

namespace SupplyNet

section Alike

variable {K : Type} [Scalar K]

/-- Two nodes that differ in their profiles and in their storages at most. -/
structure Node.Alike (n n' : Node K) : Prop where
  name : n'.name = n.name
  kind : n'.kind = n.kind
  inputs? : n'.role.inputs? = n.role.inputs?
  costs : n'.costs = n.costs
  convertFactor : n'.convertFactor = n.convertFactor
  conversions : n'.conversions = n.conversions
  inputProportions : n'.inputProportions = n.inputProportions
  outputProportions : n'.outputProportions = n.outputProportions
  sizeCommodity : n'.sizeCommodity = n.sizeCommodity
  outputCommodity : n'.outputCommodity = n.outputCommodity
  inputFlowCosts : n'.inputFlowCosts = n.inputFlowCosts

namespace Node.Alike

variable {n n' : Node K}

theorem refl (n : Node K) : n.Alike n := ⟨rfl, rfl, rfl, rfl, rfl, rfl, rfl, rfl, rfl, rfl, rfl⟩

theorem symm (h : n.Alike n') : n'.Alike n :=
  ⟨h.name.symm, h.kind.symm, h.inputs?.symm, h.costs.symm, h.convertFactor.symm,
    h.conversions.symm, h.inputProportions.symm, h.outputProportions.symm, h.sizeCommodity.symm,
    h.outputCommodity.symm, h.inputFlowCosts.symm⟩

variable (h : n.Alike n')

include h

theorem samePlace : n.SamePlace n' := ⟨h.name, h.kind, h.inputs?⟩

theorem inlets : n'.inlets = n.inlets := h.samePlace.inlets

theorem inputCommodities : n'.inputCommodities = n.inputCommodities := h.samePlace.inputCommodities

theorem hasSize : n'.hasSize = n.hasSize := by
  unfold Node.hasSize Node.hasCosts
  rw [h.kind, h.costs]

theorem leafOutput : n'.leafOutput = n.leafOutput := by
  unfold Node.leafOutput
  rw [h.conversions, h.kind, h.inputCommodities, h.outputCommodity, h.name]

theorem leafInput : n'.leafInput = n.leafInput := by
  funext outflow
  unfold Node.leafInput
  rw [h.conversions, h.name]

/-- The commodity of a size does not depend on the storage of a node with a size. -/
theorem sizeCommodityAmong (hs : n.hasSize = true ∨ n'.storage.isSome = n.storage.isSome) :
    n'.sizeCommodityAmong = n.sizeCommodityAmong := by
  have hsame : (n'.hasSize || n'.storage.isSome) = (n.hasSize || n.storage.isSome) := by
    rw [h.hasSize]
    rcases hs with hs | hs
    · rw [hs, Bool.true_or, Bool.true_or]
    · rw [hs]
  funext outputs
  unfold Node.sizeCommodityAmong
  rw [hsame, h.sizeCommodity, h.name]

end Node.Alike

/-! ## Alike networks -/

variable {nodes nodes' : List (Node K)} (h : List.Forall₂ Node.Alike nodes nodes')

include h

theorem alike_symm : List.Forall₂ Node.Alike nodes' nodes :=
  h.flip.imp fun _ _ ha => ha.symm

theorem exists_of_mem_alike {n' : Node K} (hn : n' ∈ nodes') : ∃ n ∈ nodes, n.Alike n' := by
  obtain ⟨n, hmem, ha⟩ := exists_of_mem_forall₂ (alike_symm h) hn
  exact ⟨n, hmem, ha.symm⟩

/-- Only nodes with inputs pay for them. -/
theorem not_isInput_of_alike (hbuilt : ∀ n ∈ nodes, n.Built) {n' : Node K} (hn : n' ∈ nodes')
    (hc : n'.inputFlowCosts.isSome = true) : ¬n'.kind.isInput := by
  obtain ⟨n, hmem, ha⟩ := exists_of_mem_alike h hn
  rw [ha.kind]
  exact (hbuilt n hmem).not_isInput_of_flowCosts (ha.inputFlowCosts ▸ hc)

theorem samePlace_of_alike : List.Forall₂ Node.SamePlace nodes nodes' :=
  h.imp fun _ _ ha => ha.samePlace

theorem outlets_eq_of_alike (name : String) : outlets nodes' name = outlets nodes name :=
  outlets_eq_of_samePlace (samePlace_of_alike h) name

theorem Wired.of_alike (hw : Wired nodes) : Wired nodes' := hw.of_samePlace (samePlace_of_alike h)

end Alike

namespace Node.Alike

section Values

variable {nodes nodes' : List (Node Rat)} {n n' : Node Rat} (h : n.Alike n')
variable (hs : List.Forall₂ Node.Alike nodes nodes')

include h

theorem madeFrom : n'.madeFrom = n.madeFrom := by
  funext output commodity
  unfold Node.madeFrom
  rw [h.conversions]

theorem storage_operation (catalogue : Catalogue Rat) (m : Model Rat) (x : Var → Rat) :
    (n'.operation catalogue m x).storage = m.storageValues x n.name := by
  unfold Node.operation
  rw [h.name]

theorem leafOutputName : n'.leafOutputName = n.leafOutputName := by
  unfold Node.leafOutputName
  rw [h.leafOutput]

include hs

theorem outlets : SupplyNet.outlets nodes' n'.name = SupplyNet.outlets nodes n.name := by
  rw [h.name, outlets_eq_of_alike hs]

theorem outputNames : n'.outputNames nodes' = n.outputNames nodes := by
  unfold Node.outputNames
  rw [h.outlets hs, h.leafOutputName]

theorem leafInputName : n'.leafInputName nodes' = n.leafInputName nodes := by
  unfold Node.leafInputName
  rw [h.inputCommodities, h.outputNames hs, h.leafInput]

theorem inputNames : n'.inputNames nodes' = n.inputNames nodes := by
  unfold Node.inputNames
  rw [h.inlets, h.leafInputName hs]

theorem inLabels : n'.inLabels nodes' = n.inLabels nodes := by
  unfold Node.inLabels
  rw [h.inlets, h.leafInputName hs]

theorem outLabels : n'.outLabels nodes' = n.outLabels nodes := by
  unfold Node.outLabels
  rw [h.outlets hs, h.leafOutputName]

theorem factorTo (catalogue : Catalogue Rat) :
    n'.factorTo nodes' catalogue = n.factorTo nodes catalogue := by
  funext output
  unfold Node.factorTo
  rw [h.conversions, h.inputNames hs, h.convertFactor]

theorem sizeName (hsize : n.hasSize = true ∨ n'.storage.isSome = n.storage.isSome) :
    n'.sizeName nodes' = n.sizeName nodes := by
  unfold Node.sizeName
  rw [h.sizeCommodityAmong hsize, h.outputNames hs]

/-- What it takes for an alike node to operate, whatever storage it has. -/
theorem operates_of {catalogue : Catalogue Rat} {hours : Rat} {steps : Nat} {o : Operation}
    (hbalanced : ∀ output ∈ Node.outputNames nodes n, ∀ t < steps,
      Label.total (Node.outLabels nodes n) (fun l => l.commodity = output) (o.outflow t) +
          n'.netCharge hours o t =
        Node.factorTo nodes catalogue n output *
          Label.total (Node.inLabels nodes n) (fun l => n.madeFrom output l.commodity) (o.inflow t))
    (hcycle : ∀ s ∈ n'.storage, s.Cycle hours steps o.storage)
    (hinputs : ∀ r ∈ n.inputProportions, ∀ t < steps,
      Label.InProportion catalogue (Node.inLabels nodes n) r (o.inflow t))
    (houtputs : ∀ r ∈ n.outputProportions, ∀ t < steps,
      Label.InProportion catalogue (Node.outLabels nodes n) r (o.outflow t))
    (hlimited : n.hasSize = true → n.kind ≠ .scalableInput → ∀ t < steps,
      Label.total (Node.outLabels nodes n) (fun l => l.commodity = Node.sizeName nodes n)
        (o.outflow t) + n'.chargeFlow hours o t ≤ o.size) :
    n'.Operates nodes' catalogue hours steps o := by
  constructor
  · rw [h.outputNames hs, h.outLabels hs, h.inLabels hs, h.madeFrom, h.factorTo hs]
    exact hbalanced
  · exact hcycle
  · rw [h.inputProportions, h.inLabels hs]
    exact hinputs
  · rw [h.outputProportions, h.outLabels hs]
    exact houtputs
  · rw [h.hasSize, h.kind, h.outLabels hs]
    intro hsize hk
    rw [h.sizeName hs (Or.inl hsize)]
    exact hlimited hsize hk

/-- What a node does, an alike one with the same storage does as well. -/
theorem operates {catalogue : Catalogue Rat} {hours : Rat} {steps : Nat} {o : Operation}
    (hstorage : n'.storage = n.storage) (ho : n.Operates nodes catalogue hours steps o) :
    n'.Operates nodes' catalogue hours steps o := by
  have hnet : netCharge hours n' o = netCharge hours n o := by
    funext t
    unfold netCharge
    rw [hstorage]
  have hcharge : chargeFlow hours n' o = chargeFlow hours n o := by
    funext t
    unfold chargeFlow
    rw [hstorage]
  refine h.operates_of hs ?_ ?_ ho.inputs ho.outputs ?_
  · rw [hnet]
    exact ho.balanced
  · rw [hstorage]
    exact ho.cycle
  · rw [hcharge]
    exact ho.limited

theorem sizeExpenses (catalogue : Catalogue Rat) (currency : Rat) (o : Operation) :
    n'.sizeExpenses nodes' catalogue currency o = n.sizeExpenses nodes catalogue currency o := by
  unfold Node.sizeExpenses
  rw [h.costs, h.hasSize]
  cases n.costs with
  | none => rfl
  | some costs =>
    dsimp only
    split
    · next hsize => rw [h.sizeName hs (Or.inl hsize)]
    · rfl

theorem flowExpenses (catalogue : Catalogue Rat) (currency hours : Rat) (steps : Nat)
    (o : Operation) : n'.flowExpenses nodes' catalogue currency hours steps o =
      n.flowExpenses nodes catalogue currency hours steps o := by
  unfold Node.flowExpenses
  rw [h.inputFlowCosts, h.inLabels hs]

theorem expenses (hstorage : n'.storage = n.storage) (catalogue : Catalogue Rat)
    (currency hours : Rat) (steps : Nat) (o : Operation) :
    n'.expenses nodes' catalogue currency hours steps o =
      n.expenses nodes catalogue currency hours steps o := by
  unfold Node.expenses Node.storageExpenses
  rw [h.sizeExpenses hs, h.flowExpenses hs, hstorage, h.sizeName hs (Or.inr (by rw [hstorage]))]

end Values

end Node.Alike

end SupplyNet
