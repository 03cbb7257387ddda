import Mathlib
import SupplyNet.Network.Query
import SupplyNet.Proofs.Network.Compile

/-!
Histories. A network may be optimized any number of times, and each time the solver may answer
anything. What is kept is the answer to the last call that reached the solver: its solution, even if
the levels of the storages are implausible, and nothing if it found none.
-/
set_option autoImplicit false

namespace SupplyNet

variable {K : Type}

/-- A call that optimizes a network with the solver that is configured or with one that is chosen,
given how this solver solves programs. -/
inductive Call (K : Type)
  | configured (solver : Solver K)
  | chosen (solver : Solver K)

namespace Call

def solver : Call K → Solver K
  | configured solver | chosen solver => solver

/-- A configured solver is not reached if its name is unknown. -/
def Reaches (config : Config K) : Call K → Prop
  | configured _ => ∃ choice, SolverChoice.read config.solver = .ok choice
  | chosen _ => True

/-- The last of some calls that reaches the solver. -/
structure Last (config : Config K) (calls before : List (Call K)) (c : Call K)
    (after : List (Call K)) : Prop where
  split : calls = before ++ c :: after
  reaches : c.Reaches config
  rest : ∀ d ∈ after, ¬d.Reaches config

end Call

/-- Among items of which some have a property there is a last one. -/
theorem exists_last_or_none {α : Type} (p : α → Prop) (l : List α) :
    (∀ a ∈ l, ¬p a) ∨ ∃ before a after, l = before ++ a :: after ∧ p a ∧ ∀ b ∈ after, ¬p b := by
  induction l with
  | nil => exact Or.inl fun a ha => absurd ha List.not_mem_nil
  | cons a l ih =>
    rcases ih with hnone | ⟨before, b, after, rfl, hb, hafter⟩
    · by_cases ha : p a
      · exact Or.inr ⟨[], a, l, rfl, ha, hnone⟩
      · exact Or.inl (List.forall_mem_cons.2 ⟨ha, hnone⟩)
    · exact Or.inr ⟨a :: before, b, after, rfl, hb, hafter⟩

namespace Network

variable [Scalar K]

def call (n : Network K) : Call K → Except (Error K) (Solution K) × Network K
  | .configured solver =>
    match SolverChoice.read n.config.solver with
    | .error e => (.error (.solver e), n)
    | .ok _ => n.optimizeWith solver
  | .chosen solver => n.optimizeWith solver

/-- The network after some calls. -/
def run (n : Network K) (calls : List (Call K)) : Network K :=
  calls.foldl (fun n c => (n.call c).2) n

theorem optimize_eq_call (n : Network K) :
    n.optimize = n.call (.configured Linear.simplex) := by
  unfold optimize call
  cases SolverChoice.read n.config.solver with
  | error e => rfl
  | ok choice =>
    cases choice with
    | simplex => rfl

/-! ## One call -/

section Call

variable (n : Network K) {solver : Solver K} {s : Solution K}

/-- Only a level can be wrong with a network that has a solution. -/
theorem checkLevels_of_solution (h : n.solution = some s) :
    n.checkLevels = .ok () ∨ ∃ fault, n.checkLevels = .error (.level fault) := by
  unfold checkLevels
  rw [h]
  dsimp only
  split
  · exact Or.inr ⟨_, rfl⟩
  · exact Or.inl rfl

/-- Whatever the answer, the solution that the solver found is kept. -/
theorem optimizeWith_snd (solver : Solver K) : (n.optimizeWith solver).2 =
    { n with solution := (n.model.solve solver).toOption } := by
  unfold optimizeWith
  cases n.model.solve solver with
  | error e => rfl
  | ok s =>
    dsimp only
    split <;> rfl

/-- If the solver finds a solution, only the check of the levels may still fail. -/
theorem answer_of_solved (h : n.model.solve solver = .ok s) :
    (n.optimizeWith solver).1 = .ok s ∨
      ∃ fault, (n.optimizeWith solver).1 = .error (.level fault) := by
  unfold optimizeWith
  rw [h]
  dsimp only
  split
  · rcases checkLevels_of_solution { n with solution := some s } rfl with hok | ⟨fault, hfault⟩
    · rw [hok]
      exact Or.inl rfl
    · rw [hfault]
      exact Or.inr ⟨fault, rfl⟩
  · exact Or.inl rfl

/-- If the solution passes the check, the call succeeds. -/
theorem answer_of_checked (h : n.model.solve solver = .ok s)
    (hcheck : ({ n with solution := some s } : Network K).checkLevels = .ok ()) :
    (n.optimizeWith solver).1 = .ok s := by
  unfold optimizeWith
  rw [h]
  dsimp only
  split
  · rw [hcheck]
    rfl
  · rfl

/-- A solver that finds no solution makes the call fail with its reason. -/
theorem answer_eq_solve_error_iff {e : SolveError K} :
    (n.optimizeWith solver).1 = .error (.solve e) ↔ n.model.solve solver = .error e := by
  cases hsolve : n.model.solve solver with
  | error e' => simp [optimizeWith, hsolve]
  | ok s =>
    rcases n.answer_of_solved hsolve with hok | ⟨fault, hfault⟩
    · simp [hok]
    · simp [hfault]

variable {n} {c : Call K}

theorem call_of_reaches (h : c.Reaches n.config) : n.call c = n.optimizeWith c.solver := by
  cases c with
  | configured solver =>
    obtain ⟨choice, hchoice⟩ := h
    unfold call
    rw [hchoice]
    rfl
  | chosen solver => rfl

/-- A call that does not reach the solver changes nothing. -/
theorem call_of_not_reaches (h : ¬c.Reaches n.config) : (n.call c).2 = n := by
  cases c with
  | configured solver =>
    unfold call
    cases hread : SolverChoice.read n.config.solver with
    | error e => rfl
    | ok choice => exact absurd ⟨choice, hread⟩ h
  | chosen solver => exact absurd trivial h

/-- No call changes anything but the solution. -/
theorem call_snd (n : Network K) (c : Call K) :
    ∃ kept, (n.call c).2 = { n with solution := kept } := by
  by_cases h : c.Reaches n.config
  · rw [call_of_reaches h, optimizeWith_snd]
    exact ⟨_, rfl⟩
  · exact ⟨n.solution, call_of_not_reaches h⟩

end Call

/-! ## Any number of calls -/

section Run

variable (n : Network K)

theorem run_nil : n.run [] = n := rfl

theorem run_cons (c : Call K) (calls : List (Call K)) :
    n.run (c :: calls) = (n.call c).2.run calls := rfl

theorem run_append (before after : List (Call K)) :
    n.run (before ++ after) = (n.run before).run after :=
  List.foldl_append

theorem run_eq (calls : List (Call K)) : ∃ kept, n.run calls = { n with solution := kept } := by
  induction calls generalizing n with
  | nil => exact ⟨n.solution, rfl⟩
  | cons c calls ih =>
    obtain ⟨kept, hkept⟩ := n.call_snd c
    obtain ⟨kept', hkept'⟩ := ih (n.call c).2
    refine ⟨kept', hkept'.trans ?_⟩
    rw [hkept]

theorem config_run (calls : List (Call K)) : (n.run calls).config = n.config := by
  obtain ⟨kept, h⟩ := n.run_eq calls
  rw [h]

theorem model_run (calls : List (Call K)) : (n.run calls).model = n.model := by
  obtain ⟨kept, h⟩ := n.run_eq calls
  rw [h]

variable {n}

theorem run_of_not_reaches {calls : List (Call K)} (h : ∀ c ∈ calls, ¬c.Reaches n.config) :
    n.run calls = n := by
  induction calls with
  | nil => rfl
  | cons c calls ih =>
    obtain ⟨hc, hcalls⟩ := List.forall_mem_cons.1 h
    rw [run_cons, call_of_not_reaches hc]
    exact ih hcalls

section Last

variable {calls before after : List (Call K)} {c : Call K} (h : Call.Last n.config calls before c after)

include h

theorem call_of_last : (n.run before).call c = (n.run before).optimizeWith c.solver :=
  call_of_reaches ((n.config_run before).symm ▸ h.reaches)

/-- Nothing counts but the last call that reaches the solver. -/
theorem solution_run_of_last : (n.run calls).solution = (n.model.solve c.solver).toOption := by
  have hcall : ((n.run before).call c).2 =
      { n.run before with solution := (n.model.solve c.solver).toOption } := by
    rw [call_of_last h, optimizeWith_snd, ← n.model_run before]
  have hrest : ((n.run before).call c).2.run after = ((n.run before).call c).2 := by
    refine run_of_not_reaches fun d hd => ?_
    rw [hcall]
    exact (n.config_run before).symm ▸ h.rest d hd
  rw [h.split, run_append, run_cons, hrest, hcall]

/-- What is kept is what the solver found in the last call that reaches it, whether this call
succeeded or the levels were implausible. -/
theorem solution_eq_some_iff_of_last {s : Solution K} : (n.run calls).solution = some s ↔
    n.model.solve c.solver = .ok s ∧ (((n.run before).call c).1 = .ok s ∨
      ∃ fault, ((n.run before).call c).1 = .error (.level fault)) := by
  rw [solution_run_of_last h, call_of_last h]
  constructor
  · intro hsome
    have hsolve : n.model.solve c.solver = .ok s := toOption_eq_some_iff.1 hsome
    exact ⟨hsolve, (n.run before).answer_of_solved ((n.model_run before).symm ▸ hsolve)⟩
  · exact fun hsolve => toOption_eq_some_iff.2 hsolve.1

/-- Nothing is kept if the solver found nothing in the last call that reaches it. -/
theorem solution_eq_none_iff_of_last : (n.run calls).solution = none ↔
    ∃ e, ((n.run before).call c).1 = .error (.solve e) := by
  rw [solution_run_of_last h, call_of_last h]
  simp only [answer_eq_solve_error_iff, model_run]
  cases n.model.solve c.solver with
  | error e => simp [Except.toOption]
  | ok s => simp [Except.toOption]

end Last

end Run

/-! ## Without a solution -/

/-- Nothing that is solved for can be asked of a network without a solution. -/
structure Unanswered (n : Network K) : Prop where
  levels : n.checkLevels = .error (.query .notOptimized)
  size : ∀ name i, n.indexOf name = .ok i → (n.flowsAt i).size.isSome = true →
    n.size name = .error .notOptimized
  storageSize : ∀ name i, n.indexOf name = .ok i → (n.flowsAt i).storage.isSome = true →
    n.storageSize name = .error .notOptimized
  flow : ∀ source target i j, n.indexOf source = .ok i → n.indexOf target = .ok j →
    (∃ e ∈ n.graph.edges, e.source = i ∧ e.target = j) →
    n.flow source target = .error .notOptimized

section NotOptimized

variable {n : Network K} (h : n.solution = none)

include h

theorem solved_of_none : n.solved = .error .notOptimized := by
  unfold solved
  rw [h]

theorem unanswered_of_none : n.Unanswered := by
  have hsolved := solved_of_none h
  refine ⟨?_, fun name i hi hsize => ?_, fun name i hi hstorage => ?_,
    fun source target i j hi hj he => ?_⟩
  · unfold checkLevels
    rw [h]
  · obtain ⟨v, hv⟩ := Option.isSome_iff_exists.1 hsize
    unfold size
    simp [hi, hv, hsolved, bind, Except.bind]
  · obtain ⟨vars, hvars⟩ := Option.isSome_iff_exists.1 hstorage
    unfold storageSize
    simp [hi, hvars, hsolved, bind, Except.bind]
  · obtain ⟨e, he, hsource, htarget⟩ := he
    have hfind : (n.graph.edges.find? fun e => e.source = i && e.target = j).isSome = true := by
      rw [List.find?_isSome]
      exact ⟨e, he, by simp [hsource, htarget]⟩
    obtain ⟨edge, hedge⟩ := Option.isSome_iff_exists.1 hfind
    unfold flow
    simp [hi, hj, hedge, hsolved, bind, Except.bind]

end NotOptimized

theorem unanswered_iff {n : Network K} : n.Unanswered ↔ n.solution = none := by
  refine ⟨fun h => ?_, unanswered_of_none⟩
  by_contra hsome
  obtain ⟨s, hs⟩ := Option.ne_none_iff_exists'.1 hsome
  rcases n.checkLevels_of_solution hs with hok | ⟨fault, hfault⟩
  · exact absurd (h.levels.symm.trans hok) (by simp)
  · exact absurd (h.levels.symm.trans hfault) (by simp)

/-! ## Built networks -/

variable {nodes : List (Node K)} {grid : Grid} {config : Config K} {net : Network K}

/-- After any number of calls, a network keeps what the solver found in the last call that reached
it. This is the answer to that call, unless the levels were implausible: then the call failed, and
its solution is kept all the same. Nothing is kept, and nothing can be asked, exactly if there was
no such call or the solver found nothing in it. -/
theorem kept_after_run (h : Network.build nodes grid config = .ok net) (calls : List (Call K)) :
    (∀ before c after, Call.Last config calls before c after →
      (∀ s, (net.run calls).solution = some s ↔ net.model.solve c.solver = .ok s ∧
        (((net.run before).call c).1 = .ok s ∨
          ∃ fault, ((net.run before).call c).1 = .error (.level fault))) ∧
      ((net.run calls).solution = none ↔ ∃ e, ((net.run before).call c).1 = .error (.solve e)) ∧
      ((∀ s, (net.run calls).solution = some s → ((net.run before).call c).1 = .ok s) ↔
        ∀ fault, ((net.run before).call c).1 ≠ .error (.level fault))) ∧
    (∀ s, (net.run calls).solution = some s →
      ∃ before c after, Call.Last config calls before c after) ∧
    ((net.run calls).Unanswered ↔ (net.run calls).solution = none) ∧
    QueryError.notOptimized.message = "Network has not been optimized yet." := by
  obtain ⟨cs, groups, hc⟩ := Network.build_eq_ok_iff.1 h
  have hconfig : net.config = config := by rw [hc.network]
  have hnone : net.solution = none := by rw [hc.network]
  subst hconfig
  refine ⟨fun before c after hlast => ?_, fun s hs => ?_, unanswered_iff, rfl⟩
  · have hsome := fun s => solution_eq_some_iff_of_last (s := s) hlast
    refine ⟨hsome, solution_eq_none_iff_of_last hlast, fun hkept fault hfault => ?_,
      fun hfault s hs => ?_⟩
    · cases hsolution : (net.run calls).solution with
      | none =>
        obtain ⟨e, he⟩ := (solution_eq_none_iff_of_last hlast).1 hsolution
        exact absurd (he.symm.trans hfault) (by simp)
      | some s => exact absurd ((hkept s hsolution).symm.trans hfault) (by simp)
    · obtain ⟨-, hok | ⟨fault, hlevel⟩⟩ := (hsome s).1 hs
      · exact hok
      · exact absurd hlevel (hfault fault)
  · rcases exists_last_or_none (Call.Reaches net.config) calls with hall | ⟨before, c, after, hlast⟩
    · rw [run_of_not_reaches hall, hnone] at hs
      exact absurd hs (by simp)
    · exact ⟨before, c, after, hlast.1, hlast.2.1, hlast.2.2⟩

end Network

/-! ## A slow storage -/

theorem half_mem : (0 : Rat) ≤ 1 / 2 ∧ (1 / 2 : Rat) < 1 := by norm_num

theorem one_mem : (0 : Rat) < 1 ∧ (1 : Rat) ≤ 1 := ⟨one_pos, le_rfl⟩

/-- It loses half of its level in an hour. -/
def slowBattery : Storage Rat :=
  ⟨.plain 1, 1 / 2, 1 / 2, 0, half_mem, windBattery.storageLoss_mem, windBattery.speed_mem,
    windBattery.costs_nonneg⟩

/-- Wind in the first hour only, of which a storage keeps what a town needs in the second. -/
def lullDrafts (s : Storage Rat) : List (Draft Rat) :=
  [{ name := "wind", role := .scalableInput (.ofFn windGrid fun t => if t = 0 then 1 else 0),
      costs := some (.plain 1), storage := some s },
    { name := "town",
      role := .fixedOutput ⟨["wind"], .single "electricity"⟩ (.constant windGrid 1) }]

/-- The battery takes half of its size in an hour at most. -/
def slowDrafts : List (Draft Rat) := lullDrafts slowBattery

theorem exists_slowNetwork :
    ∃ net, Network.build (builtNodes slowDrafts) windGrid .standard = .ok net :=
  exists_of_isOk (by decide +kernel)

/-- The battery is only half full at its fullest, which makes the call fail, but the solution is
kept. -/
theorem kept_slowNetwork : ∃ net : Network Rat,
    Network.build (builtNodes slowDrafts) windGrid .standard = .ok net ∧
    Call.Last (.standard : Config Rat) [.configured Linear.simplex] [] (.configured Linear.simplex) [] ∧
    (net.call (.configured Linear.simplex)).1 = .error (.level (.neverFull "wind" 2 4)) ∧
    ∃ s, (net.run [.configured Linear.simplex]).solution = some s ∧
      (net.call (.configured Linear.simplex)).1 ≠ .ok s := by
  obtain ⟨net, h⟩ := exists_slowNetwork
  have hcall : (Network.build (builtNodes slowDrafts) windGrid .standard).toOption.all
      (fun (net : Network Rat) => match net.call (.configured Linear.simplex) with
        | (.error (.level fault), after) =>
          fault = .neverFull "wind" 2 4 && after.solution.isSome
        | _ => false) = true := by
    decide +kernel
  rw [h] at hcall
  have hanswer : (net.call (.configured Linear.simplex)).1 =
        .error (.level (.neverFull "wind" 2 4)) ∧
      (net.call (.configured Linear.simplex)).2.solution.isSome = true := by
    simp only [Except.toOption, Option.all_some] at hcall
    split at hcall
    · next fault after hfault =>
      obtain ⟨rfl, hsome⟩ := by simpa using hcall
      exact ⟨by rw [hfault], by rw [hfault]; exact hsome⟩
    · exact absurd hcall Bool.false_ne_true
  obtain ⟨s, hs⟩ := Option.isSome_iff_exists.1 hanswer.2
  have hread : SolverChoice.read (.standard : Config Rat).solver = .ok .simplex := by
    decide +kernel
  have hlast : Call.Last (.standard : Config Rat) [.configured Linear.simplex] []
      (.configured Linear.simplex) [] :=
    ⟨rfl, ⟨.simplex, hread⟩, fun d hd => absurd hd List.not_mem_nil⟩
  refine ⟨net, h, hlast, hanswer.1, s, ?_, ?_⟩
  · rw [Network.run_cons, Network.run_nil, hs]
  · rw [hanswer.1]
    simp

/-- Whatever came before, a solver that finds nothing takes away what a wind farm had kept. -/
theorem unanswered_windNetwork :
    ∃ net, Network.build (builtNodes windDrafts) windGrid .standard = .ok net ∧
      ∀ calls : List (Call Rat),
        (net.run (calls ++ [.chosen fun _ => .infeasible])).Unanswered := by
  obtain ⟨net, h⟩ := exists_windNetwork
  refine ⟨net, h, fun calls => ?_⟩
  obtain ⟨hkept, -, hunanswered, -⟩ :=
    Network.kept_after_run h (calls ++ [.chosen fun _ => .infeasible])
  have hlast : Call.Last (.standard : Config Rat) (calls ++ [.chosen fun _ => .infeasible]) calls
      (.chosen fun _ => .infeasible) [] :=
    ⟨rfl, trivial, fun d hd => absurd hd List.not_mem_nil⟩
  exact hunanswered.2 ((hkept _ _ _ hlast).2.1.2 ⟨.infeasible, rfl⟩)

end SupplyNet
