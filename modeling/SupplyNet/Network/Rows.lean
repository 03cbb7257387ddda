import SupplyNet.Network.Flows

/-!
The conditions that the flows of a node fulfil in each time step: flow balance, storage dynamics,
proportions between flows, and the limit that its size puts on its output.
-/
set_option autoImplicit false

namespace SupplyNet

variable {K : Type} [Scalar K]

/-- Conditions that belong together. -/
abbrev Rows (K : Type) := List (Constraint K)

/-- The conditions of a name for all time steps, with zero on the right side. -/
def rowsOver (steps : Nat) (name : String) (relation : Relation) (lhs : Nat → LinearExpr K) :
    Rows K :=
  (List.range steps).map fun t => ⟨s!"{name}[{t}]", lhs t, relation, 0⟩

def flowsOf (streams : List (Stream K)) (commodity : String) : List (Flow K) :=
  (streams.filter (·.commodity = commodity)).map (·.flow)

def varAt (vs : Array Var) (t : Nat) : LinearExpr K :=
  match vs[t]? with
  | some v => .ofVar v
  | none => 0

def termAt (vs : Array Var) (t : Nat) (coeff : K) : LinearExpr K :=
  match vs[t]? with
  | some v => .term v coeff
  | none => 0

namespace StorageVars

/-- What is charged more than discharged in a step of `hours`, as a flow. -/
def netChargeRate (s : StorageVars) (hours : K) (t : Nat) : LinearExpr K :=
  LinearExpr.scale (varAt s.charge t - varAt s.discharge t) (1 / hours)

def chargeRate (s : StorageVars) (hours : K) (t : Nat) : LinearExpr K :=
  termAt s.charge t (1 / hours)

end StorageVars

namespace Node

/-! ## Flow balance -/

/-- A factor in the unit of an output commodity for each unit of an input commodity. -/
def factorFrom (catalogue : Catalogue K) (output source : String) (factor : Quantity K) :
    Except (CompileError K) K := do
  let outputUnit ← (catalogue.unitOf output).mapError .unit
  let sourceUnit ← (catalogue.unitOf source).mapError .unit
  let target ← (outputUnit.div sourceUnit).mapError .unit
  (factor.magnitudeIn target).mapError .unit

/-- The input flows that become an output commodity, and how much of it comes of one unit. -/
def conversion (n : Node K) (catalogue : Catalogue K) (f : NodeFlows K) (output : String) :
    Except (CompileError K) (List (Flow K) × K) :=
  match n.conversions with
  | some conversions =>
    match conversions.find? output with
    | some c => do
      return (flowsOf f.inflows c.source, ← factorFrom catalogue output c.source c.factor)
    | none => .error (.noConversion n.name output)
  | none =>
    let flows := f.inflows.map (·.flow)
    match distinct (f.inflows.map (·.commodity)) with
    | [source] => do return (flows, ← factorFrom catalogue output source n.convertFactor)
    | _ =>
      if n.convertFactor.unit.isSome then .error (.mixedInputs n.name)
      else .ok (flows, n.convertFactor.magnitude)

/-- What flows out of a commodity and into the storage, less what is converted into it. -/
def balanceAt (hours : K) (f : NodeFlows K) (output : String) (inputs : List (Flow K)) (factor : K)
    (t : Nat) : LinearExpr K :=
  let flows := Flow.sumAt (flowsOf f.outflows output) t
  let stored := match f.storage with
    | some s => flows + s.netChargeRate hours t
    | none => flows
  stored - (Flow.sumAt inputs t).scale factor

/-- The output commodity is named if there are several. -/
def balanceName (n : Node K) (outputs : List String) (output : String) : String :=
  if 1 < outputs.length then s!"inout_flow_balance_{n.name}_{output}"
  else s!"inout_flow_balance_{n.name}"

/-- The output flows of a commodity and what goes into the storage equal the converted input
flows. -/
def balanceRows (n : Node K) (catalogue : Catalogue K) (steps : Nat) (hours : K) (f : NodeFlows K)
    (outputs : List String) (output : String) : Except (CompileError K) (Rows K) := do
  let (inputs, factor) ← n.conversion catalogue f output
  return rowsOver steps (n.balanceName outputs output) .eq
    (balanceAt hours f output inputs factor)

/-! ## Storage -/

/-- Charge and discharge are limited by the speed, the level by the size, and the level follows from
the one before. The last time step precedes the first one. -/
def storageRows (n : Node K) (steps : Nat) (hours : K) (f : NodeFlows K) : Rows K :=
  match n.storage, f.storage with
  | some storage, some s =>
    let amount := storage.speed * hours
    (List.range steps).flatMap fun t =>
      let row (name : String) (lhs : LinearExpr K) (relation : Relation) : Constraint K :=
        ⟨s!"{name}_{n.name}[{t}]", lhs, relation, 0⟩
      let previous := (t + steps - 1) % steps
      [row "max_charging_speed" (varAt s.charge t - .term s.size amount) .le,
        row "max_discharging_speed" (varAt s.discharge t - .term s.size amount) .le,
        row "storage_max_level" (varAt s.level t - .ofVar s.size) .le,
        row "storage_level_balance"
          (varAt s.level t - termAt s.level previous (1 - storage.storageLoss) -
            termAt s.charge t (1 - storage.chargingLoss) + varAt s.discharge t) .eq]
  | _, _ => []

/-! ## Proportions -/

/-- The flows that share a ratio. -/
structure ProportionGroup (K : Type) where
  key : String
  flows : List (Flow K)
  ratio : K

def ProportionGroup.shareAt (g : ProportionGroup K) (t : Nat) : LinearExpr K :=
  (Flow.sumAt g.flows t).scale (1 / g.ratio)

/-- What a key stands for: the flows of a commodity, or those to or from a neighbour. -/
def sharing (streams : List (Stream K)) (byCommodity : Bool) (key : String) : List (Stream K) :=
  streams.filter fun s => if byCommodity then s.commodity = key else s.neighbour = some key

/-- The ratio counts in the unit of the first flow of the group. -/
def proportionGroup (n : Node K) (catalogue : Catalogue K) (side : Direction)
    (streams : List (Stream K)) (byCommodity : Bool) (key : String) (ratio : Quantity K) :
    Except (CompileError K) (ProportionGroup K) :=
  let members := sharing streams byCommodity key
  match members with
  | [] => .error (.proportions (.noFlow n.name side key))
  | first :: _ => do
    let unit ← (catalogue.unitOf first.commodity).mapError .unit
    let value ← (ratio.magnitudeIn unit).mapError .unit
    if 0 < value then return ⟨key, members.map (·.flow), value⟩
    else throw (.proportions (.notPositive n.name side key (.plain value)))

/-- All groups have the same share in proportion to their ratios. -/
def proportionRows (n : Node K) (catalogue : Catalogue K) (steps : Nat) (side : Direction)
    (streams : List (Stream K)) (ratios : Option (Keyed (Quantity K))) :
    Except (CompileError K) (Rows K) :=
  match ratios with
  | none => .ok []
  | some ratios => do
    let byCommodity := ratios.keys = distinct (streams.map (·.commodity))
    let groups ← ratios.entries.mapM fun (key, ratio) =>
      n.proportionGroup catalogue side streams byCommodity key ratio
    match groups with
    | [] => return []
    | reference :: others =>
      return others.flatMap fun g =>
        rowsOver steps s!"proportion_{n.name}_{side.text}_{g.key}" .eq fun t =>
          reference.shareAt t - g.shareAt t

/-! ## Size -/

/-- What flows out of the size commodity and is charged, less the size. -/
def excessAt (hours : K) (f : NodeFlows K) (size : Var) (commodity : String) (t : Nat) :
    LinearExpr K :=
  let flows := Flow.sumAt (flowsOf f.outflows commodity) t
  let charged := match f.storage with
    | some s => flows + s.chargeRate hours t
    | none => flows
  charged - .ofVar size

/-- The output flows of the size commodity, with what is charged, do not exceed the size. The
profile of a scalable input does that already. -/
def sizeRows (n : Node K) (steps : Nat) (hours : K) (f : NodeFlows K) :
    Except (CompileError K) (Rows K) :=
  match f.size with
  | none => .ok []
  | some size =>
    if n.kind = .scalableInput then .ok []
    else
      match f.sizeCommodity with
      | none => .error (.noSizeCommodity n.name)
      | some commodity =>
        .ok <| rowsOver steps s!"limit_outflow_by_size_{n.name}" .le
          (excessAt hours f size commodity)

/-- All conditions of a node in their order. -/
def rows (n : Node K) (catalogue : Catalogue K) (steps : Nat) (hours : K) (f : NodeFlows K) :
    List (Except (CompileError K) (Rows K)) :=
  let outputs := distinct (f.outflows.map (·.commodity))
  outputs.map (n.balanceRows catalogue steps hours f outputs) ++
    [.ok (n.storageRows steps hours f),
      n.proportionRows catalogue steps .input f.inflows n.inputProportions,
      n.proportionRows catalogue steps .output f.outflows n.outputProportions,
      n.sizeRows steps hours f]

end Node

/-- Adds conditions to a model up to the first that fails. -/
def Model.addRows (m : Model K) (rows : List (Except (CompileError K) (Rows K))) :
    Except (CompileError K) (Model K) :=
  rows.foldlM (fun m rows => do (m.addConstraints (← rows)).mapError .model) m

end SupplyNet
