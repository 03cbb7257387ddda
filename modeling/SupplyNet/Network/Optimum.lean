import SupplyNet.Network.Basic

/-!
Optimization of a network, and the check of the levels of its storages: one that is never empty or
never full could have been built smaller.
-/
set_option autoImplicit false

namespace SupplyNet.Network

variable {K : Type} [Scalar K]

/-- The least and the greatest of some numbers. -/
def extremes? : List K → Option (K × K)
  | [] => none
  | x :: r => some (r.foldl Scalar.lesser x, r.foldl Scalar.greater x)

/-- What is implausible about the levels of a storage in a solution. Storages that cost nothing may
be larger than needed. -/
def levelFault? (tolerance : K) (s : Solution K) (n : Node K) (f : NodeFlows K) :
    Option (LevelError K) := do
  let storage ← n.storage
  let vars ← f.storage
  guard ¬storage.costs.magnitude ≤ 0
  let size := s.valueOf vars.size
  let (least, greatest) ← extremes? (vars.level.toList.map s.valueOf)
  let leeway := tolerance * Scalar.greater size 1
  if leeway < least then some (.neverEmpty n.name least size)
  else if greatest < size - leeway then some (.neverFull n.name greatest size)
  else none

/-- Finds the first storage whose levels are implausible. -/
def checkLevels (n : Network K) : Except (Error K) Unit :=
  match n.solution with
  | none => .error (.query .notOptimized)
  | some s =>
    match (n.graph.nodes.zip n.flows).findSome? fun (node, f) =>
        levelFault? n.config.tolerance s node f with
    | some fault => .error (.level fault)
    | none => .ok ()

/-- Solves the model and keeps the solution in place of the former one, even if the check of the
levels fails. -/
def optimizeWith (n : Network K) (solver : Solver K) : Except (Error K) (Solution K) × Network K :=
  match n.model.solve solver with
  | .error e => (.error (.solve e), { n with solution := none })
  | .ok s =>
    let solved := { n with solution := some s }
    if n.config.checksLevels then (solved.checkLevels.map fun _ => s, solved) else (.ok s, solved)

/-- With the solver that the configuration names. -/
def optimize (n : Network K) : Except (Error K) (Solution K) × Network K :=
  match SolverChoice.read n.config.solver with
  | .error e => (.error (.solver e), n)
  | .ok choice => n.optimizeWith choice.solver

end SupplyNet.Network
