import Mathlib
import SupplyNet.Proofs.Network.Names
import SupplyNet.Proofs.Network.Streams

/-!
Networks whose variables would get the same names. These networks are not built, and no others fail
for the name of a variable.
-/
set_option autoImplicit false

namespace SupplyNet

variable {K α β γ : Type}

/-! ## Errors of the model -/

/-- Whatever goes wrong, the model is not at fault. -/
def NoModelError (x : Except (CompileError K) β) : Prop := ∀ e, x ≠ .error (.model e)

theorem noModelError_ok (b : β) : NoModelError (.ok b : Except (CompileError K) β) :=
  fun _ h => by cases h

theorem noModelError_unit (x : Except UnitError β) :
    NoModelError (x.mapError .unit : Except (CompileError K) β) := by
  intro e h
  obtain ⟨u, -, hu⟩ := mapError_eq_error_iff.1 h
  cases hu

theorem NoModelError.bind {x : Except (CompileError K) β} {f : β → Except (CompileError K) γ}
    (hx : NoModelError x) (hf : ∀ b, NoModelError (f b)) : NoModelError (x >>= f) := by
  intro e h
  rcases bind_eq_error_iff.1 h with h | ⟨b, -, h⟩
  · exact hx e h
  · exact hf b e h

theorem noModelError_mapM {f : α → Except (CompileError K) β} (l : List α)
    (hf : ∀ a, NoModelError (f a)) : NoModelError (l.mapM f) := by
  induction l with
  | nil => exact noModelError_ok []
  | cons a l ih =>
    rw [List.mapM_cons]
    exact (hf a).bind fun b => ih.bind fun bs => noModelError_ok (b :: bs)

theorem noModelError_foldlM {f : β → α → Except (CompileError K) β} (l : List α)
    (hf : ∀ b a, NoModelError (f b a)) (b : β) : NoModelError (l.foldlM f b) := by
  induction l generalizing b with
  | nil => exact noModelError_ok b
  | cons a l ih =>
    rw [List.foldlM_cons]
    exact (hf b a).bind ih

variable [Scalar K]

namespace Node

variable (n : Node K) (catalogue : Catalogue K) (steps : Nat) (hours : K) (f : NodeFlows K)

theorem noModelError_factorFrom (output source : String) (factor : Quantity K) :
    NoModelError (factorFrom catalogue output source factor) :=
  (noModelError_unit _).bind fun _ => (noModelError_unit _).bind fun _ =>
    (noModelError_unit _).bind fun _ => noModelError_unit _

theorem noModelError_conversion (output : String) :
    NoModelError (n.conversion catalogue f output) := by
  unfold conversion
  split
  · split
    · exact (noModelError_factorFrom catalogue _ _ _).bind fun _ => noModelError_ok _
    · exact fun _ h => by cases h
  · dsimp only
    split
    · exact (noModelError_factorFrom catalogue _ _ _).bind fun _ => noModelError_ok _
    · split
      · exact fun _ h => by cases h
      · exact noModelError_ok _

theorem noModelError_proportionGroup (side : Direction) (streams : List (Stream K))
    (byCommodity : Bool) (key : String) (ratio : Quantity K) :
    NoModelError (n.proportionGroup catalogue side streams byCommodity key ratio) := by
  unfold proportionGroup
  dsimp only
  split
  · exact fun _ h => by cases h
  · refine (noModelError_unit _).bind fun unit => (noModelError_unit _).bind fun value => ?_
    split
    · exact noModelError_ok _
    · exact fun _ h => by cases h

theorem noModelError_proportionRows (side : Direction) (streams : List (Stream K))
    (ratios : Option (Keyed (Quantity K))) :
    NoModelError (n.proportionRows catalogue steps side streams ratios) := by
  unfold proportionRows
  split
  · exact noModelError_ok _
  · refine (noModelError_mapM _ fun (key, ratio) =>
      n.noModelError_proportionGroup catalogue side streams _ key ratio).bind fun groups => ?_
    split <;> exact noModelError_ok _

theorem noModelError_sizeRows : NoModelError (n.sizeRows steps hours f) := by
  unfold sizeRows
  split
  · exact noModelError_ok _
  · split
    · exact noModelError_ok _
    · split
      · exact fun _ h => by cases h
      · exact noModelError_ok _

theorem noModelError_of_mem_rows {r : Except (CompileError K) (Rows K)}
    (h : r ∈ n.rows catalogue steps hours f) : NoModelError r := by
  unfold rows at h
  simp only [List.mem_append, List.mem_map, List.mem_cons, List.not_mem_nil, or_false] at h
  rcases h with ⟨output, -, rfl⟩ | rfl | rfl | rfl | rfl
  · exact (n.noModelError_conversion catalogue f output).bind fun p => noModelError_ok _
  · exact noModelError_ok _
  · exact n.noModelError_proportionRows catalogue steps _ _ _
  · exact n.noModelError_proportionRows catalogue steps _ _ _
  · exact n.noModelError_sizeRows steps hours f

theorem noModelError_sizeUnit : NoModelError (n.sizeUnit catalogue f) := by
  unfold sizeUnit
  split
  · exact noModelError_unit _
  · exact fun _ h => by cases h

theorem noModelError_totalCosts (currency : Measure.Unit K) :
    NoModelError (n.totalCosts catalogue currency hours f) := by
  have hsize : NoModelError (n.sizeCosts catalogue currency f) := by
    unfold sizeCosts
    split
    · exact (n.noModelError_sizeUnit catalogue f).bind fun _ =>
        (noModelError_unit _).bind fun _ => noModelError_ok _
    · exact noModelError_ok _
  have hstorage : NoModelError (n.storageCosts catalogue currency f) := by
    unfold storageCosts
    split
    · exact (n.noModelError_sizeUnit catalogue f).bind fun _ =>
        (noModelError_unit _).bind fun _ => noModelError_ok _
    · exact noModelError_ok _
  have hflows : NoModelError (n.flowCosts catalogue currency hours f) := by
    unfold flowCosts
    split
    · exact noModelError_ok _
    · exact noModelError_foldlM _ (fun _ _ => (noModelError_unit _).bind fun _ =>
        (noModelError_unit _).bind fun _ => noModelError_ok _) _
  exact hsize.bind fun _ => hstorage.bind fun _ => hflows.bind fun _ => noModelError_ok _

end Node

/-! ## Building -/

/-- The profile of a node, if it has one, can be given in the unit of the commodity it flows in. -/
def Node.ProfileFits (n : Node K) (catalogue : Catalogue K) (c : NodeCommodities) : Prop :=
  match n.role with
  | .fixedInput flow => ∃ f, Node.flowIn catalogue c.inflow flow = .ok f
  | .scalableInput factors => ∃ values, factors.valuesIn .one = .ok values
  | .fixedOutput _ flow => ∃ f, Node.flowIn catalogue c.outflow flow = .ok f
  | _ => True

theorem Node.ProfileFits.exists_flowsIn {n : Node K} {catalogue : Catalogue K}
    {c : NodeCommodities} (h : n.ProfileFits catalogue c) (served : List Outlet) (m : Model K) :
    ∃ f, n.flowsIn catalogue served c m = .ok f := by
  have hown : ∃ inflows, n.ownInflows catalogue c (n.sizeIn m) m = .ok inflows := by
    unfold ProfileFits at h
    unfold ownInflows
    cases hr : n.role with
    | fixedInput flow =>
      simp only [hr] at h ⊢
      obtain ⟨f, hf⟩ := h
      exact ⟨[f], map_eq_ok_iff.2 ⟨f, hf, rfl⟩⟩
    | scalableInput factors =>
      simp only [hr] at h ⊢
      obtain ⟨values, hv⟩ := h
      exact ⟨_, map_eq_ok_iff.2 ⟨values, mapError_eq_ok_iff.2 hv, rfl⟩⟩
    | fixedOutput inputs flow => exact ⟨_, rfl⟩
    | scalableOutput inputs profile => exact ⟨_, rfl⟩
    | generic inputs => exact ⟨_, rfl⟩
  have hbound : ∀ edgeFlows, ∃ outflows, n.boundOutflows catalogue c edgeFlows m = .ok outflows := by
    intro edgeFlows
    unfold ProfileFits at h
    unfold boundOutflows
    cases hr : n.role with
    | fixedOutput inputs flow =>
      simp only [hr] at h ⊢
      obtain ⟨f, hf⟩ := h
      exact ⟨[f], map_eq_ok_iff.2 ⟨f, hf, rfl⟩⟩
    | fixedInput flow => exact ⟨_, rfl⟩
    | scalableInput factors => exact ⟨_, rfl⟩
    | scalableOutput inputs profile => exact ⟨_, rfl⟩
    | generic inputs => exact ⟨_, rfl⟩
  obtain ⟨inflows, hi⟩ := hown
  obtain ⟨outflows, ho⟩ := hbound _
  exact ⟨_, bind_eq_ok_iff.2 ⟨inflows, hi, bind_eq_ok_iff.2 ⟨outflows, ho, rfl⟩⟩⟩

section Building

variable {nodes : List (Node K)} {grid : Grid} {config : Config K} {cs : List NodeCommodities}

theorem names_registry (nodes : List (Node K)) (steps : Nat) :
    (registry nodes steps).names = (variableKeys nodes).map (·.name) := by
  unfold registry
  rw [Model.names_extend, List.map_map]
  rfl

namespace Network

/-- Only adding the variables can fail for a name. -/
theorem compile_ne_duplicate (hw : Wired nodes) (hlen : cs.length = nodes.length)
    (hnames : ((variableKeys nodes).map (·.name)).Nodup) (name : String) :
    compile ⟨nodes, Graph.edgesOf nodes⟩ grid config cs ≠
      .error (.model (.duplicate name)) := by
  intro h
  unfold compile at h
  dsimp only at h
  rcases bind_eq_error_iff.1 h with h | ⟨⟨fs, m⟩, -, h⟩
  · exact (Graph.realizes_addFlows config.catalogue grid.size hw hlen .empty).not_fresh h
      ((Graph.fresh_variables_iff grid.size).2 hnames)
  rcases bind_eq_error_iff.1 h with h | ⟨m', -, h⟩
  · refine Model.addRows_ne_duplicate (fun r hr => ?_) h
    obtain ⟨⟨n, f⟩, -, hr⟩ := List.mem_flatMap.1 hr
    exact n.noModelError_of_mem_rows config.catalogue grid.size _ f hr _
  rcases bind_eq_error_iff.1 h with h | ⟨currency, -, h⟩
  · exact noModelError_unit _ _ h
  rcases bind_eq_error_iff.1 h with h | ⟨costs, -, h⟩
  · refine noModelError_foldlM _ (fun total p => ?_) _ _ h
    exact (p.1.noModelError_totalCosts config.catalogue _ p.2 currency).bind fun e =>
      noModelError_ok _
  · cases h

/-- If names clash, nothing else comes before that. -/
theorem exists_duplicate_of_compile (hw : Wired nodes) (hlen : cs.length = nodes.length)
    (hnames : ¬((variableKeys nodes).map (·.name)).Nodup)
    (hfits : ∀ p ∈ nodes.zip cs, p.1.ProfileFits config.catalogue p.2) :
    ∃ name, compile ⟨nodes, Graph.edgesOf nodes⟩ grid config cs =
      .error (.model (.duplicate name)) := by
  have hread : ∃ fs, ((nodes.zip cs).mapM fun p => p.1.flowsIn config.catalogue
      (outlets nodes p.1.name) p.2 (registry nodes grid.size)) = .ok fs :=
    isOk_mapM_iff.2 fun p hp => (hfits p hp).exists_flowsIn _ _
  obtain ⟨fs, hread⟩ := hread
  obtain ⟨name, hdup⟩ := (Graph.realizes_addFlows config.catalogue grid.size hw hlen .empty).duplicate
    (fun hf => hnames ((Graph.fresh_variables_iff grid.size).1 hf)) hread
  refine ⟨name, ?_⟩
  unfold compile
  dsimp only
  rw [hdup]
  rfl

/-- In a network of which graph and commodities are in order, the names of all variables differ
exactly if the names of the nodes do not make two of them the same. Then building it does not fail
for the name of a variable. Otherwise it is not built, and if all profiles fit their commodities,
it fails for the name of a variable. -/
theorem duplicate_iff {g : Graph K} (hbuilt : ∀ n ∈ nodes, n.Built)
    (hg : Graph.ofNodes nodes = .ok g) (hv : g.validate grid = .ok ())
    (hc : g.commodities config.catalogue = .ok cs) :
    (((variableKeys nodes).map (·.name)).Nodup ↔ DistinctNames nodes) ∧
    (∀ net, build nodes grid config = .ok net →
      net.model.names = (variableKeys nodes).map (·.name)) ∧
    (DistinctNames nodes → ∀ name,
      build nodes grid config ≠ .error (.compile (.model (.duplicate name)))) ∧
    (¬DistinctNames nodes → (∀ net, build nodes grid config ≠ .ok net) ∧
      ((∀ p ∈ nodes.zip cs, p.1.ProfileFits config.catalogue p.2) → ∃ name,
        build nodes grid config = .error (.compile (.model (.duplicate name))))) := by
  obtain ⟨hw, rfl⟩ := Graph.ofNodes_eq_ok_iff.1 hg
  have hiff := nodup_names_iff hw.names_nodup fun n hn => (hbuilt n hn).inputs_nodup.2
  have hlen := ((Graph.commodities_eq_ok_iff hw).1 hc).length_eq.symm
  have hbuild : build nodes grid config =
      (compile ⟨nodes, Graph.edgesOf nodes⟩ grid config cs).mapError .compile >>= fun p =>
        .ok ⟨⟨nodes, Graph.edgesOf nodes⟩, grid, config, p.1, p.2, none⟩ := by
    unfold build
    rw [hg]
    change ((Graph.validate ⟨nodes, Graph.edgesOf nodes⟩ grid).mapError Error.graph >>= _) = _
    rw [hv]
    change ((Graph.commodities ⟨nodes, Graph.edgesOf nodes⟩ config.catalogue).mapError
      Error.commodity >>= _) = _
    rw [hc]
    rfl
  refine ⟨hiff, fun net hnet => ?_, fun hd name h => ?_, fun hd => ⟨fun net hnet => ?_, ?_⟩⟩
  · obtain ⟨cs', groups, hcomp⟩ := build_eq_ok_iff.1 hnet
    rw [hcomp.model]
    exact names_registry nodes grid.size
  · rw [hbuild] at h
    rcases bind_eq_error_iff.1 h with h | ⟨p, -, h⟩
    · obtain ⟨e, he, hdup⟩ := mapError_eq_error_iff.1 h
      exact compile_ne_duplicate hw hlen (hiff.2 hd) name
        (he.trans (congrArg _ (Error.compile.inj hdup)))
    · cases h
  · obtain ⟨cs', groups, hcomp⟩ := build_eq_ok_iff.1 hnet
    exact hd (hiff.1 hcomp.names_nodup)
  · intro hfits
    obtain ⟨name, hdup⟩ : ∃ name, compile ⟨nodes, Graph.edgesOf nodes⟩ grid config cs =
        .error (.model (.duplicate name)) :=
      exists_duplicate_of_compile hw hlen (mt hiff.1 hd) hfits
    refine ⟨name, ?_⟩
    rw [hbuild, hdup]
    rfl

end Network

end Building

theorem duplicate_of_windNetwork :
    ∃ g cs, Graph.ofNodes (builtNodes windDrafts) = .ok g ∧ g.validate windGrid = .ok () ∧
      g.commodities Config.standard.catalogue = .ok cs ∧ DistinctNames (builtNodes windDrafts) ∧
      ∀ name, Network.build (builtNodes windDrafts) windGrid .standard ≠
        .error (.compile (.model (.duplicate name))) := by
  obtain ⟨net, hnet⟩ := exists_windNetwork
  obtain ⟨cs, groups, h⟩ := Network.build_eq_ok_iff.1 hnet
  have hg := Graph.ofNodes_eq_ok_iff.2 ⟨h.wired, rfl⟩
  have hc := (Graph.commodities_eq_ok_iff h.wired).2 h.settled
  obtain ⟨hiff, -, hbuilt, -⟩ := Network.duplicate_iff
    (fun _ hn => built_of_mem hn) hg h.valid hc
  exact ⟨_, cs, hg, h.valid, hc, hiff.1 h.names_nodup, hbuilt (hiff.1 h.names_nodup)⟩

/-- Three nodes in a row, of which the last is named like the edge between the others. -/
def chainDrafts : List (Draft Rat) :=
  [{ name := "a", role := .generic ⟨[], .single "electricity"⟩ },
    { name := "b", role := .generic ⟨["a"], .single "electricity"⟩ },
    { name := "a_b", role := .generic ⟨["b"], .single "electricity"⟩ }]

/-- The flow out of the last node has the name of the flow over the edge. -/
theorem duplicate_of_chain :
    (∀ n ∈ builtNodes chainDrafts, n.Built) ∧ (builtNodes chainDrafts).length = 3 ∧
    (∃ g cs, Graph.ofNodes (builtNodes chainDrafts) = .ok g ∧ g.validate windGrid = .ok () ∧
      g.commodities Config.standard.catalogue = .ok cs) ∧
    ¬((variableKeys (builtNodes chainDrafts)).map (·.name)).Nodup ∧
    Network.build (builtNodes chainDrafts) windGrid .standard =
      .error (.compile (.model (.duplicate "flow_a_b"))) := by
  refine ⟨fun _ hn => built_of_mem hn, by decide +kernel, ?_, by decide +kernel, ?_⟩
  · obtain ⟨g, hg⟩ := exists_of_isOk
      (show (Graph.ofNodes (builtNodes chainDrafts)).isOk = true by decide +kernel)
    obtain ⟨-, rfl⟩ := Graph.ofNodes_eq_ok_iff.1 hg
    obtain ⟨⟨⟩, hv⟩ := exists_of_isOk (show (Graph.validate ⟨builtNodes chainDrafts,
      Graph.edgesOf (builtNodes chainDrafts)⟩ windGrid).isOk = true by decide +kernel)
    obtain ⟨cs, hc⟩ := exists_of_isOk (show (Graph.commodities ⟨builtNodes chainDrafts,
      Graph.edgesOf (builtNodes chainDrafts)⟩ Config.standard.catalogue).isOk = true by
        decide +kernel)
    exact ⟨_, cs, hg, hv, hc⟩
  · have h : (match Network.build (builtNodes chainDrafts) windGrid .standard with
        | .error e => decide (e = .compile (.model (.duplicate "flow_a_b")))
        | .ok _ => false) = true := by
      decide +kernel
    split at h
    · next e he => rw [he, of_decide_eq_true h]
    · exact absurd h Bool.false_ne_true

end SupplyNet
