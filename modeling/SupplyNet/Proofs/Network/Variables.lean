import Mathlib
import SupplyNet.Network.Flows
import SupplyNet.Proofs.Linear.Registry
import SupplyNet.Proofs.Checked

/-!
The variables of a network. Each has a key, which says what it stands for, and a name made from the
names of nodes; under this name its columns are read from the registry of a model.
-/
set_option autoImplicit false

namespace SupplyNet

inductive VariableKey
  | size (node : String)
  | edge (source target : String)
  | storageSize (node : String)
  | level (node : String)
  | charge (node : String)
  | discharge (node : String)
  | outflow (node : String)
  | inflow (node : String)
  deriving DecidableEq

namespace VariableKey

def name : VariableKey → String
  | size node => s!"size_{node}"
  | edge source target => s!"flow_{source}_{target}"
  | storageSize node => s!"size_storage_{node}"
  | level node => s!"storage_level_{node}"
  | charge node => s!"storage_charge_{node}"
  | discharge node => s!"storage_discharge_{node}"
  | outflow node => s!"flow_{node}"
  | inflow node => s!"input_flow_{node}"

/-- Sizes are single columns, all else has one for each step. -/
def steps? (steps : Nat) : VariableKey → Option Nat
  | size _ | storageSize _ => none
  | _ => some steps

def block {K : Type} [Scalar K] (steps : Nat) (k : VariableKey) : Block K :=
  ⟨k.name, some 0, k.steps? steps⟩

end VariableKey

variable {K : Type} [Scalar K]

/-! ## Reading the registry -/

namespace Model

def scalarOf (m : Model K) (k : VariableKey) : Var := (m.scalar? k.name).getD ⟨0⟩

def seriesOf (m : Model K) (k : VariableKey) : Array Var := (m.series? k.name).getD #[]

def flowOf (m : Model K) (k : VariableKey) : Flow K := .ofVars (m.seriesOf k)

def storageOf (m : Model K) (node : String) : StorageVars :=
  ⟨m.scalarOf (.storageSize node), m.seriesOf (.level node), m.seriesOf (.charge node),
    m.seriesOf (.discharge node)⟩

end Model

end SupplyNet
