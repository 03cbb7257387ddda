import Mathlib
import SupplyNet.Proofs.Linear.Constraints
import SupplyNet.Proofs.Linear.Registry

/-!
Edits of a model. A model is set up by any calls in any order, of which some fail, all of them before
their first change. So one call adds the block of a variable whose name is not taken, or leaves the
registry as it is, and after any number of calls the registry is consistent, each variable is found
under its name as the call that made it returned it, and the columns that were there are still the
same.
-/
set_option autoImplicit false

namespace SupplyNet

/-- A call that sets up a model. -/
inductive Edit (K : Type)
  | scalar (name : String) (lower : Option K)
  | series (name : String) (lower : Option K) (size : Nat)
  | condition (c : Constraint K)
  | objective (e : LinearExpr K)

/-- What a call adds to the registry, if it is for a variable. -/
def Edit.block? {K : Type} : Edit K → Option (Block K)
  | scalar name lower => some ⟨name, lower, none⟩
  | series name lower size => some ⟨name, lower, some size⟩
  | condition _ | objective _ => none

/-- What the call does. It returns the variable that it is for, if it is for one. -/
def Edit.call {K : Type} [Scalar K] : Edit K → Model.Call K (Option Variable)
  | scalar name lower => do return some (.scalar (← Model.Call.scalar name lower))
  | series name lower size => do return some (.series (← Model.Call.series name lower size))
  | condition c => do
    Model.Call.condition c
    return none
  | objective e => do
    Model.Call.objective e
    return none

namespace Model

variable {K : Type}

/-! ## Registries -/

/-- The same columns and variables. -/
structure SameRegistry (m m' : Model K) : Prop where
  columns : m'.columns = m.columns
  named : m'.named = m.named
  indices : m'.indices = m.indices

theorem SameRegistry.find?_eq {m m' : Model K} (h : SameRegistry m m') (name : String) :
    m'.find? name = m.find? name := by
  unfold find?
  rw [h.named, h.indices]

theorem Consistent.congr {m m' : Model K} (hm : m.Consistent) (h : SameRegistry m m') :
    m'.Consistent := by
  have hnames : m'.names = m.names := by
    unfold names
    rw [h.named]
  have hplaces : m'.places = m.places := by
    unfold places
    rw [h.named]
  refine ⟨hnames ▸ hm.names_nodup, ?_, ?_⟩
  · rw [hplaces, h.columns, hm.columns]
  · unfold addresses
    rw [hplaces, h.columns, hm.texts, addresses]

theorem find?_push_iff {m : Model K} {b : Block K} (hb : b.name ∉ m.names) {name : String}
    {x : Variable} : (m.push b).find? name = some x ↔
      m.find? name = some x ∨ b.name = name ∧ x = b.shape m.columns.size := by
  by_cases hname : b.name = name
  · subst hname
    rw [find?_push_self m b hb, (find?_eq_none_iff m b.name).2 hb]
    simp [eq_comm]
  · rw [find?_push_of_ne m (Ne.symm hname)]
    simp [hname]

theorem scalar?_eq_some_iff {m : Model K} {name : String} {v : Var} :
    m.scalar? name = some v ↔ m.find? name = some (.scalar v) := by
  unfold scalar?
  split <;> simp_all

theorem series?_eq_some_iff {m : Model K} {name : String} {vs : Array Var} :
    m.series? name = some vs ↔ m.find? name = some (.series vs) := by
  unfold series?
  split <;> simp_all

/-- A column bears the text of its address. -/
theorem Consistent.columnName_eq {m : Model K} (hm : m.Consistent) {v : Var} {a : Address}
    (h : (v, a) ∈ m.places) : m.columnName v = a.text := by
  have htext : (m.columns.toList.map (·.name))[v.index]? = some a.text := by
    rw [hm.texts, List.getElem?_map, hm.getElem?_addresses h]
    rfl
  rw [List.getElem?_map, Array.getElem?_toList] at htext
  obtain ⟨column, hcolumn, hname⟩ := Option.map_eq_some_iff.1 htext
  unfold columnName
  rw [hcolumn]
  exact hname

variable [Scalar K]

/-! ## One call -/

/-- The model that a call leaves behind, whether it fails or not. -/
def after (m : Model K) (e : Edit K) : Model K :=
  match e.call.run m with
  | .ok _ m' => m'
  | .error _ m' => m'

/-- The call succeeds and returns the variable, which is made under the name. -/
def Returns (m : Model K) (e : Edit K) (name : String) (x : Variable) : Prop :=
  (∃ m', e.call.run m = .ok (some x) m') ∧ ∃ b, e.block? = some b ∧ b.name = name

section Call

variable {m m' : Model K} {e : Edit K}

theorem run_call_of_block {b : Block K} (h : e.block? = some b) : e.call.run m =
    if b.name ∈ m.names then .error (.duplicate b.name) m
    else .ok (some (b.shape m.columns.size)) (m.push b) := by
  cases e with
  | scalar name lower =>
    obtain rfl := Option.some.inj h
    unfold Edit.call
    rw [EStateM.run_bind, Call.run_scalar]
    split_ifs <;> rfl
  | series name lower size =>
    obtain rfl := Option.some.inj h
    unfold Edit.call
    rw [EStateM.run_bind, Call.run_series]
    split_ifs <;> rfl
  | condition c => exact absurd h (by simp [Edit.block?])
  | objective e => exact absurd h (by simp [Edit.block?])

theorem run_call_condition {c : Constraint K} (h : c.Admissible) :
    (Edit.condition c).call.run m =
      .ok none { m with constraints := m.constraints ++ (Constraint.stored [c]).toArray } := by
  unfold Edit.call
  rw [EStateM.run_bind, Call.run_condition m h]
  rfl

theorem run_call_condition_of_not {c : Constraint K} (h : ¬c.Admissible) :
    (Edit.condition c).call.run m =
      .error (.neverHolds c.name c.relation (c.rhs - c.expr.const)) m := by
  unfold Edit.call
  rw [EStateM.run_bind, Call.run_condition_of_not m h]

/-- A call fails if the name of its variable is taken, or its condition can never hold. It leaves
nothing behind. -/
theorem run_call_eq_error_iff {fault : ModelError K} : e.call.run m = .error fault m' ↔ m' = m ∧
    ((∃ b, e.block? = some b ∧ b.name ∈ m.names ∧ fault = .duplicate b.name) ∨
      ∃ c, e = .condition c ∧ ¬c.Admissible ∧
        fault = .neverHolds c.name c.relation (c.rhs - c.expr.const)) := by
  cases hblock : e.block? with
  | some b =>
    have hcondition : ∀ c, e ≠ .condition c := by
      rintro c rfl
      exact absurd hblock (by simp [Edit.block?])
    rw [run_call_of_block hblock]
    split
    · next hname => simp [hname, hcondition, eq_comm, and_comm]
    · next hname => simp [hname, hcondition]
  | none =>
    cases e with
    | scalar name lower => exact absurd hblock (by simp [Edit.block?])
    | series name lower size => exact absurd hblock (by simp [Edit.block?])
    | objective e => simp [Edit.call, Call.objective]
    | condition c =>
      by_cases hadm : c.Admissible
      · simp [run_call_condition hadm, hadm]
      · simp [run_call_condition_of_not hadm, hadm, eq_comm, and_comm]

/-- Calls for conditions and objectives return no variable and leave the registry alone. -/
theorem run_call_of_no_block (h : e.block? = none) {x : Option Variable}
    (hcall : e.call.run m = .ok x m') : x = none ∧ SameRegistry m m' := by
  cases e with
  | scalar name lower => exact absurd h (by simp [Edit.block?])
  | series name lower size => exact absurd h (by simp [Edit.block?])
  | condition c =>
    by_cases hadm : c.Admissible
    · rw [run_call_condition hadm] at hcall
      obtain ⟨rfl, rfl⟩ := EStateM.Result.ok.inj hcall
      exact ⟨rfl, rfl, rfl, rfl⟩
    · rw [run_call_condition_of_not hadm] at hcall
      exact absurd hcall (by simp)
  | objective e =>
    obtain ⟨rfl, rfl⟩ := EStateM.Result.ok.inj hcall
    exact ⟨rfl, rfl, rfl, rfl⟩

theorem after_of_fresh {b : Block K} (h : e.block? = some b) (hb : b.name ∉ m.names) :
    m.after e = m.push b := by
  unfold after
  rw [run_call_of_block h, if_neg hb]

theorem after_of_taken {b : Block K} (h : e.block? = some b) (hb : b.name ∈ m.names) :
    m.after e = m := by
  unfold after
  rw [run_call_of_block h, if_pos hb]

theorem sameRegistry_after (h : e.block? = none) : SameRegistry m (m.after e) := by
  unfold after
  cases hcall : e.call.run m with
  | error fault m' =>
    rw [(run_call_eq_error_iff.1 hcall).1]
    exact ⟨rfl, rfl, rfl⟩
  | ok x m' => exact (run_call_of_no_block h hcall).2

theorem Consistent.after (hm : m.Consistent) (e : Edit K) : (m.after e).Consistent := by
  cases h : e.block? with
  | none => exact hm.congr (sameRegistry_after h)
  | some b =>
    by_cases hb : b.name ∈ m.names
    · rwa [after_of_taken h hb]
    · rw [after_of_fresh h hb]
      exact hm.push hb

/-- A call adds to what is found under a name only what it returns for this name. -/
theorem find?_after {name : String} {x : Variable} : (m.after e).find? name = some x ↔
    m.find? name = some x ∨ m.Returns e name x := by
  cases h : e.block? with
  | none =>
    have hreturns : ¬m.Returns e name x := fun ⟨_, b, hb, _⟩ => absurd (h.symm.trans hb) (by simp)
    rw [(sameRegistry_after h).find?_eq, or_iff_left hreturns]
  | some b =>
    by_cases hb : b.name ∈ m.names
    · have hreturns : ¬m.Returns e name x := by
        rintro ⟨⟨m', hm'⟩, -⟩
        rw [run_call_of_block h, if_pos hb] at hm'
        exact absurd hm' (by simp)
      rw [after_of_taken h hb, or_iff_left hreturns]
    · have hreturns : m.Returns e name x ↔ b.name = name ∧ x = b.shape m.columns.size := by
        unfold Returns
        rw [run_call_of_block h, if_neg hb, h]
        simp [and_comm, eq_comm]
      rw [after_of_fresh h hb, find?_push_iff hb, hreturns]

theorem columns_after (m : Model K) (e : Edit K) :
    m.columns.toList <+: (m.after e).columns.toList := by
  cases h : e.block? with
  | none => rw [(sameRegistry_after h).columns]
  | some b =>
    by_cases hb : b.name ∈ m.names
    · rw [after_of_taken h hb]
    · rw [after_of_fresh h hb, columns_push]
      exact List.prefix_append _ _

end Call

/-! ## Any number of calls -/

def run (m : Model K) (edits : List (Edit K)) : Model K := edits.foldl after m

section Run

variable {m : Model K}

theorem run_append (m : Model K) (before later : List (Edit K)) :
    m.run (before ++ later) = (m.run before).run later :=
  List.foldl_append

theorem Consistent.run (hm : m.Consistent) (edits : List (Edit K)) : (m.run edits).Consistent := by
  induction edits generalizing m with
  | nil => exact hm
  | cons e edits ih => exact ih (hm.after e)

/-- What is found under a name was there before, or one of the calls returned it. -/
theorem find?_run {edits : List (Edit K)} {name : String} {x : Variable} :
    (m.run edits).find? name = some x ↔ m.find? name = some x ∨
      ∃ before e later, edits = before ++ e :: later ∧ (m.run before).Returns e name x := by
  -- The model changes with each call, and the calls before one that returns grow at their front.
  induction edits generalizing m with
  | nil =>
    refine ⟨Or.inl, fun h => h.resolve_right ?_⟩
    rintro ⟨before, e, later, hsplit, -⟩
    exact absurd hsplit (by simp)
  | cons e edits ih =>
    change ((m.after e).run edits).find? name = some x ↔ _
    rw [ih, find?_after, or_assoc]
    refine or_congr_right ⟨?_, ?_⟩
    · rintro (hreturns | ⟨before, d, later, rfl, hreturns⟩)
      · exact ⟨[], e, edits, rfl, hreturns⟩
      · exact ⟨e :: before, d, later, rfl, hreturns⟩
    · rintro ⟨before, d, later, hsplit, hreturns⟩
      cases before with
      | nil =>
        obtain ⟨rfl, -⟩ := List.cons.inj hsplit
        exact Or.inl hreturns
      | cons e' before =>
        obtain ⟨rfl, rfl⟩ := List.cons.inj hsplit
        exact Or.inr ⟨before, d, later, rfl, hreturns⟩

theorem columns_run (m : Model K) (edits : List (Edit K)) :
    m.columns.toList <+: (m.run edits).columns.toList := by
  induction edits generalizing m with
  | nil => exact List.prefix_refl _
  | cons e edits ih => exact (m.columns_after e).trans (ih (m.after e))

/-- A column stays what it is, whatever is called from then on. -/
theorem getElem?_columns_run {edits : List (Edit K)} {i : Nat} {column : Column K}
    (h : m.columns[i]? = some column) : (m.run edits).columns[i]? = some column := by
  rw [← Array.getElem?_toList] at h ⊢
  obtain ⟨rest, hrest⟩ := m.columns_run edits
  rw [← hrest, List.getElem?_append_left (List.getElem?_eq_some_iff.1 h).1]
  exact h

end Run

/-! ## Models that calls set up -/

def ofEdits (edits : List (Edit K)) : Model K := empty.run edits

/-- One of the calls returned the variable for the name. -/
def Returned (edits : List (Edit K)) (name : String) (x : Variable) : Prop :=
  ∃ before e later, edits = before ++ e :: later ∧ (ofEdits before).Returns e name x

section History

variable {edits before later : List (Edit K)} {e : Edit K}

theorem consistent_ofEdits (edits : List (Edit K)) : (ofEdits edits).Consistent :=
  consistent_empty.run edits

theorem find?_ofEdits {name : String} {x : Variable} :
    (ofEdits edits).find? name = some x ↔ Returned edits name x := by
  unfold ofEdits
  rw [find?_run]
  exact or_iff_right fun h => absurd h (by simp [find?, empty])

/-- What a column is never changes again. -/
theorem getElem?_columns_ofEdits (h : edits = before ++ later) {i : Nat} {column : Column K}
    (hcolumn : (ofEdits before).columns[i]? = some column) :
    (ofEdits edits).columns[i]? = some column := by
  subst h
  unfold ofEdits
  rw [run_append]
  exact getElem?_columns_run hcolumn

/-- Each column of a variable has its name and the bound that was asked for. -/
theorem column_of_returns (h : edits = before ++ e :: later) {b : Block K} (hb : e.block? = some b)
    {x : Variable} (hx : (ofEdits before).Returns e b.name x) {v : Var} {a : Address}
    (hv : (v, a) ∈ x.places b.name) : (ofEdits edits).columns[v.index]? = some ⟨a.text, b.lower⟩ := by
  obtain ⟨⟨m', hm'⟩, -⟩ := hx
  rw [run_call_of_block hb] at hm'
  split at hm'
  · exact absurd hm' (by simp)
  · next hname =>
    obtain ⟨hshape, -⟩ := EStateM.Result.ok.inj hm'
    obtain rfl := Option.some.inj hshape
    have hstep : ofEdits (before ++ [e]) = (ofEdits before).push b := by
      unfold ofEdits
      rw [run_append]
      exact after_of_fresh hb hname
    rw [List.append_cons] at h
    refine getElem?_columns_ofEdits h ?_
    rw [Block.places_shape] at hv
    obtain ⟨⟨a', i⟩, hi, hplace⟩ := List.mem_map.1 hv
    obtain ⟨rfl, rfl⟩ := Prod.mk.inj hplace
    rw [hstep, ← Array.getElem?_toList, columns_push,
      List.getElem?_append_right (by simp), List.getElem?_map]
    simp [List.mk_mem_zipIdx_iff_getElem?.1 hi]

end History

/-- The registry after any calls, some of which may fail. All names differ, each leads to the place
of its variable, and the columns of the variables are all columns, in the order in which they were
made. A variable is found under a name in one form only, and exactly as a call returned it for this
name. Its columns bear its name, with the step if it is a series. From the call that makes them on,
columns have the bound that it asked for, and never change. A call fails exactly if its name is
taken or its condition can never hold, and then it leaves the model as it was. -/
theorem registry_of_edits (edits : List (Edit K)) :
    (ofEdits edits).names.Nodup ∧
    (∀ name i, (ofEdits edits).indices.find? name = some i ↔
      ∃ x, (ofEdits edits).named[i]? = some (name, x)) ∧
    ((ofEdits edits).places.map Prod.fst = (List.range (ofEdits edits).columns.size).map Var.mk) ∧
    (∀ name v, (ofEdits edits).scalar? name = some v ↔ Returned edits name (.scalar v)) ∧
    (∀ name vs, (ofEdits edits).series? name = some vs ↔ Returned edits name (.series vs)) ∧
    (∀ name, (ofEdits edits).scalar? name = none ∨ (ofEdits edits).series? name = none) ∧
    (∀ name v, (ofEdits edits).scalar? name = some v → (ofEdits edits).columnName v = name) ∧
    (∀ name vs (t : Nat) v, (ofEdits edits).series? name = some vs → vs[t]? = some v →
      (ofEdits edits).columnName v = s!"{name}[{t}]") ∧
    ∀ before e later, edits = before ++ e :: later →
      (∀ (i : Nat) column, (ofEdits before).columns[i]? = some column →
        (ofEdits edits).columns[i]? = some column) ∧
      (∀ b x, e.block? = some b → (ofEdits before).Returns e b.name x →
        ∀ v a, (v, a) ∈ x.places b.name →
          (ofEdits edits).columns[v.index]? = some ⟨a.text, b.lower⟩) ∧
      ∀ fault m', e.call.run (ofEdits before) = .error fault m' ↔ m' = ofEdits before ∧
        ((∃ b, e.block? = some b ∧ b.name ∈ (ofEdits before).names ∧ fault = .duplicate b.name) ∨
          ∃ c, e = .condition c ∧ ¬c.Admissible ∧
            fault = .neverHolds c.name c.relation (c.rhs - c.expr.const)) := by
  have hconsistent := consistent_ofEdits edits
  refine ⟨hconsistent.names_nodup, fun name i => find?_indices_iff hconsistent.names_nodup,
    hconsistent.columns, fun name v => ?_, fun name vs => ?_, fun name => ?_, fun name v hv => ?_,
    fun name vs t v hvs hv => ?_, fun before e later h => ?_⟩
  · rw [scalar?_eq_some_iff, find?_ofEdits]
  · rw [series?_eq_some_iff, find?_ofEdits]
  · unfold scalar? series?
    cases (ofEdits edits).find? name with
    | none => exact Or.inl rfl
    | some x =>
      cases x with
      | scalar v => exact Or.inr rfl
      | series vs => exact Or.inl rfl
  · exact hconsistent.columnName_eq (mem_places_of_scalar? hv)
  · exact hconsistent.columnName_eq (mem_places_of_series? hvs hv)
  · exact ⟨fun i column => getElem?_columns_ofEdits h, fun b x hb hx v a => column_of_returns h hb hx,
      fun fault m' => run_call_eq_error_iff⟩

end Model

/-! ## A model of two variables -/

def flowEdits : List (Edit Rat) := [.scalar "size" (some 0), .series "flow" (some 0) 2]

/-- A name that is taken, a condition that can never hold, and a series of no steps. -/
def failingEdits : List (Edit Rat) :=
  [.series "size" none 3, .condition ⟨"impossible", .ofConst 3, .eq, 2⟩, .series "idle" none 0]

/-- The calls that fail in between change nothing of the flow. -/
theorem registry_of_flowEdits :
    (Model.ofEdits (flowEdits ++ failingEdits)).series? "flow" = some #[⟨1⟩, ⟨2⟩] ∧
    (Model.ofEdits (flowEdits ++ failingEdits)).columnName ⟨2⟩ = "flow[1]" ∧
    (Edit.series "size" none 3).call.run (Model.ofEdits flowEdits) =
      .error (.duplicate "size") (Model.ofEdits flowEdits) := by
  obtain ⟨-, -, -, -, -, -, -, hname, hcalls⟩ :=
    Model.registry_of_edits (flowEdits ++ failingEdits)
  have hflow : (Model.ofEdits (flowEdits ++ failingEdits)).series? "flow" = some #[⟨1⟩, ⟨2⟩] := by
    decide +kernel
  have htaken : "size" ∈ (Model.ofEdits flowEdits).names := by decide +kernel
  obtain ⟨-, -, hfails⟩ := hcalls flowEdits (.series "size" none 3) _ rfl
  exact ⟨hflow, hname "flow" _ 1 ⟨2⟩ hflow rfl,
    (hfails _ _).2 ⟨rfl, Or.inl ⟨_, rfl, htaken, rfl⟩⟩⟩

end SupplyNet
