import SupplyNet.Linear.SolverChoice
import SupplyNet.Network.Error
import SupplyNet.Time.Grid

/-!
All errors, with their kinds and texts.
-/
set_option autoImplicit false

namespace SupplyNet

inductive ErrorKind
  | implausible
  | internal
  | invalidConfig
  | invalidNetwork
  | invalidNode
  | invalidProportions
  | invalidUnit
  | nodeNotFound
  | notImplemented
  | solveFailed
  deriving DecidableEq

def ErrorKind.text : ErrorKind → String
  | implausible => "Implausible"
  | internal => "Internal"
  | invalidConfig => "InvalidConfig"
  | invalidNetwork => "InvalidNetwork"
  | invalidNode => "InvalidNode"
  | invalidProportions => "InvalidProportions"
  | invalidUnit => "InvalidUnit"
  | nodeNotFound => "NodeNotFound"
  | notImplemented => "NotImplemented"
  | solveFailed => "SolveFailed"

/-- How a solver ended without a solution. -/
inductive FailedStatus
  | infeasible
  | unbounded
  | error
  deriving DecidableEq

def FailedStatus.text : FailedStatus → String
  | infeasible => "infeasible"
  | unbounded => "unbounded"
  | error => "error"

inductive Error (K : Type)
  | unit (e : UnitError)
  | grid (e : GridError)
  | solver (e : UnknownSolver)
  | model (e : ModelError K)
  | solve (e : SolveError K)
  | storage (e : StorageError K)
  | node (e : NodeError K)
  | graph (e : GraphError)
  | commodity (e : CommodityError K)
  | compile (e : CompileError K)
  | level (e : LevelError K)
  | query (e : QueryError)
  deriving DecidableEq

variable {K : Type}

/-! ## Kinds -/

def ModelError.kind : ModelError K → ErrorKind
  | duplicate _ => .internal
  | neverHolds _ _ _ => .solveFailed

def NodeError.kind : NodeError K → ErrorKind
  | notImplemented _ => .notImplemented
  | proportions _ => .invalidProportions
  | _ => .invalidNode

def CommodityError.kind : CommodityError K → ErrorKind
  | proportions _ => .invalidProportions
  | unit _ => .invalidUnit
  | _ => .invalidNode

def CompileError.kind : CompileError K → ErrorKind
  | unit _ | mixedInputs _ => .invalidUnit
  | model e => e.kind
  | proportions _ => .invalidProportions
  | noConversion _ _ | noSizeCommodity _ => .internal

def QueryError.kind : QueryError → ErrorKind
  | noNode _ => .nodeNotFound
  | noSize _ | noStorage _ => .invalidNode
  | noEdge _ _ => .invalidNetwork
  | notOptimized => .solveFailed

def Error.kind : Error K → ErrorKind
  | unit _ => .invalidUnit
  | grid _ | solver _ => .invalidConfig
  | model e => e.kind
  | solve _ => .solveFailed
  | storage _ => .invalidNode
  | node e => e.kind
  | graph _ => .invalidNetwork
  | commodity e => e.kind
  | compile e => e.kind
  | level _ => ErrorKind.implausible
  | query e => e.kind

/-! ## Status -/

def SolveError.status : SolveError K → FailedStatus
  | infeasible => .infeasible
  | unbounded _ => .unbounded
  | failed _ => .error

/-- A condition that can never hold makes a model infeasible. -/
def Error.status? : Error K → Option FailedStatus
  | solve e => some e.status
  | model (.neverHolds _ _ _) | compile (.model (.neverHolds _ _ _)) => some .infeasible
  | _ => none

/-! ## Text -/

variable [Scalar K] [ScalarText K]

def Error.message : Error K → String
  | unit e => e.message
  | grid e => e.message
  | solver e => e.message
  | model e => e.message
  | solve e => e.message
  | storage e => e.message
  | node e => e.message
  | graph e => e.message
  | commodity e => e.message
  | compile e => e.message
  | level e => e.message
  | query e => e.message

/-- The kind with the status, if there is one, and the message. -/
def Error.text (e : Error K) : String :=
  match e.status? with
  | some status => s!"{e.kind.text} ({status.text}): {e.message}"
  | none => s!"{e.kind.text}: {e.message}"

end SupplyNet
