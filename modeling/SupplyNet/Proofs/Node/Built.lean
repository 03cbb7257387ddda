import Mathlib
import SupplyNet.Proofs.Checked
import SupplyNet.Proofs.Node.Faultless

/-!
Built nodes: what holds of every node that comes of a draft.
-/
set_option autoImplicit false

namespace SupplyNet

variable {K : Type} [Scalar K]

namespace Draft

omit [Scalar K] in
theorem inputFault_eq_none_iff (name : String) (seen inputs : List String) :
    (inputFault name seen inputs : Option (NodeError K)) = none ↔
      name ∉ inputs ∧ inputs.Nodup ∧ ∀ input ∈ inputs, input ∉ seen := by
  induction inputs generalizing seen with
  | nil => simp [inputFault]
  | cons input r ih =>
    unfold inputFault
    by_cases hname : input = name
    · simp [hname]
    · by_cases hseen : input ∈ seen
      · simp [hname, hseen]
      · rw [if_neg hname, if_neg hseen, ih]
        simp only [List.mem_cons, List.nodup_cons, not_or]
        constructor
        · rintro ⟨hn, hr, hs⟩
          refine ⟨⟨fun h => hname h.symm, hn⟩, ⟨fun h => (hs input h).1 rfl, hr⟩, ?_⟩
          rintro x (rfl | hx)
          · exact hseen
          · exact (hs x hx).2
        · rintro ⟨⟨-, hn⟩, ⟨hi, hr⟩, hs⟩
          exact ⟨hn, hr, fun x hx => ⟨fun h => hi (h ▸ hx), hs x (Or.inr hx)⟩⟩

omit [Scalar K] in
theorem sources_of_resolveInputs {name : String} {inputs : DraftInputs} {inlets : Inlets}
    (h : (resolveInputs name inputs : Except (NodeError K) Inlets) = .ok inlets) :
    inlets.edges.map (·.source) = inputs.names := by
  unfold resolveInputs at h
  split at h
  · rw [← Except.ok.inj h]
    simp [Function.comp_def]
  · split at h
    · next hnil =>
      rw [← Except.ok.inj h, hnil.1]
      rfl
    · split at h
      · next hlen =>
        rw [← Except.ok.inj h, List.map_zipWith]
        apply List.ext_getElem (by simp [hlen])
        intro i h₁ h₂
        simp
      · exact absurd h (by simp)

/-- The node of a draft whose inputs have been resolved. -/
def resolved (d : Draft K) (role : Role Inlets K) : Node K :=
  { d with role, convertFactor := d.convertFactor.getD (.plain 1) }

/-- What it takes to build a node. -/
theorem build_eq_ok_iff {d : Draft K} {n : Node K} :
    d.build = .ok n ↔ d.role.kind ≠ .scalableOutput ∧ d.name ≠ "" ∧
      inputFault (K := K) d.name [] d.inputs = none ∧
      ∃ role, d.role.mapInputs (resolveInputs (K := K) d.name) = .ok role ∧ n = d.resolved role ∧
        ∀ fault ∈ d.faults n.inputCommodities, fault = none := by
  have hrefuse : (∀ fault ∈ [faultIf (d.role.kind = .scalableOutput) (.notImplemented d.name),
      faultIf d.name.isEmpty .unnamed, inputFault (K := K) d.name [] d.inputs], fault = none) ↔
      d.role.kind ≠ .scalableOutput ∧ d.name ≠ "" ∧
        inputFault (K := K) d.name [] d.inputs = none := by
    simp [faultIf]
  rw [← and_assoc, ← and_assoc, and_assoc (a := d.role.kind ≠ .scalableOutput), ← hrefuse]
  unfold build
  rw [bind_eq_ok_iff]
  constructor
  · rintro ⟨⟨⟩, hr, h⟩
    obtain ⟨role, hrole, h⟩ := bind_eq_ok_iff.1 h
    obtain ⟨⟨⟩, hf, h⟩ := bind_eq_ok_iff.1 h
    have hn : d.resolved role = n := Except.ok.inj h
    refine ⟨refuse_eq_ok_iff.1 hr, role, hrole, hn.symm, ?_⟩
    rw [← hn]
    exact refuse_eq_ok_iff.1 hf
  · rintro ⟨hr, role, hrole, rfl, hf⟩
    exact ⟨(), refuse_eq_ok_iff.2 hr, bind_eq_ok_iff.2 ⟨role, hrole,
      bind_eq_ok_iff.2 ⟨(), refuse_eq_ok_iff.2 hf, rfl⟩⟩⟩

end Draft

omit [Scalar K] in
theorem Role.inputs?_of_mapInputs {ε Inputs Inputs' : Type} {f : Inputs → Except ε Inputs'}
    {r : Role Inputs K} {r' : Role Inputs' K} (h : r.mapInputs f = .ok r') :
    r'.kind = r.kind ∧ match r.inputs? with
      | some inputs => ∃ inputs', f inputs = .ok inputs' ∧ r'.inputs? = some inputs'
      | none => r'.inputs? = none := by
  cases r with
  | fixedInput flow =>
    rw [← Except.ok.inj h]
    exact ⟨rfl, rfl⟩
  | scalableInput factors =>
    rw [← Except.ok.inj h]
    exact ⟨rfl, rfl⟩
  | fixedOutput inputs flow =>
    obtain ⟨inputs', hf, rfl⟩ := map_eq_ok_iff.1 h
    exact ⟨rfl, inputs', hf, rfl⟩
  | scalableOutput inputs profile =>
    obtain ⟨inputs', hf, rfl⟩ := map_eq_ok_iff.1 h
    exact ⟨rfl, inputs', hf, rfl⟩
  | generic inputs =>
    obtain ⟨inputs', hf, rfl⟩ := map_eq_ok_iff.1 h
    exact ⟨rfl, inputs', hf, rfl⟩

omit [Scalar K] in
theorem Role.profile?_of_mapInputs {ε Inputs Inputs' : Type} {f : Inputs → Except ε Inputs'}
    {r : Role Inputs K} {r' : Role Inputs' K} (h : r.mapInputs f = .ok r') :
    r'.profile? = r.profile? := by
  cases r with
  | fixedInput flow | scalableInput factors =>
    rw [← Except.ok.inj h]
    rfl
  | fixedOutput inputs flow | scalableOutput inputs profile | generic inputs =>
    obtain ⟨inputs', -, rfl⟩ := map_eq_ok_iff.1 h
    rfl

omit [Scalar K] in
theorem Role.eq_scalableInput {Inputs : Type} {r : Role Inputs K} {factors : Series K}
    (hk : r.kind = .scalableInput) (hp : r.profile? = some factors) :
    r = .scalableInput factors := by
  cases r with
  | scalableInput factors' => rw [Option.some.inj hp]
  | fixedInput flow | fixedOutput inputs flow | scalableOutput inputs profile | generic inputs =>
    cases hk

theorem Draft.inputs_resolved {d : Draft K} {role : Role Inlets K}
    (hrole : d.role.mapInputs (resolveInputs (K := K) d.name) = .ok role) :
    (d.resolved role).inputs = d.inputs := by
  have h := (Role.inputs?_of_mapInputs hrole).2
  unfold Node.inputs Node.inlets Draft.inputs Draft.resolved
  dsimp only
  cases hr : d.role.inputs? with
  | none =>
    simp only [hr] at h
    rw [h]
    rfl
  | some inputs =>
    simp only [hr] at h
    obtain ⟨inputs', hf, hi⟩ := h
    rw [hi]
    exact Draft.sources_of_resolveInputs hf

/-- Nodes that come of a draft. -/
def Node.Built (n : Node K) : Prop := ∃ d : Draft K, d.build = .ok n

/-- The nodes of some drafts, as far as they can be built. -/
def builtNodes (drafts : List (Draft K)) : List (Node K) := drafts.filterMap fun d => d.build.toOption

theorem built_of_mem {drafts : List (Draft K)} {n : Node K} (h : n ∈ builtNodes drafts) :
    n.Built := by
  obtain ⟨d, -, hd⟩ := List.mem_filterMap.1 h
  refine ⟨d, ?_⟩
  cases hb : d.build with
  | error e =>
    rw [hb] at hd
    exact absurd hd (by simp [Except.toOption])
  | ok n' =>
    rw [hb] at hd
    rw [Option.some.inj hd]

/-- A draft that can be built is among them, with its name and its storage. -/
theorem exists_builtNode {drafts : List (Draft K)} {d : Draft K} (hd : d ∈ drafts)
    (h : d.build.isOk = true) :
    ∃ n ∈ builtNodes drafts, n.name = d.name ∧ n.storage = d.storage := by
  obtain ⟨n, hn⟩ := exists_of_isOk h
  refine ⟨n, List.mem_filterMap.2 ⟨d, hd, by rw [hn]; rfl⟩, ?_⟩
  obtain ⟨-, -, -, role, -, rfl, -⟩ := Draft.build_eq_ok_iff.1 hn
  exact ⟨rfl, rfl⟩

namespace Node.Built

variable {n : Node K}

/-- A node neither feeds itself nor names an input twice. -/
theorem inputs_nodup (h : n.Built) : n.name ∉ n.inputs ∧ n.inputs.Nodup := by
  obtain ⟨d, hd⟩ := h
  obtain ⟨-, -, hinputs, role, hrole, rfl, -⟩ := Draft.build_eq_ok_iff.1 hd
  obtain ⟨hname, hnodup, -⟩ := (Draft.inputFault_eq_none_iff _ _ _).1 hinputs
  rw [Draft.inputs_resolved hrole]
  exact ⟨hname, hnodup⟩

/-- A node has the values of a draft without faults. -/
theorem exists_draft (h : n.Built) : ∃ (d : Draft K) (role : Role Inlets K),
    d.role.kind = n.kind ∧ d.inputs = n.inputs ∧ n = d.resolved role ∧
      d.Faultless n.inputCommodities := by
  obtain ⟨d, hd⟩ := h
  obtain ⟨-, -, -, role, hrole, rfl, hfaults⟩ := Draft.build_eq_ok_iff.1 hd
  exact ⟨d, role, (Role.inputs?_of_mapInputs hrole).1.symm, (Draft.inputs_resolved hrole).symm, rfl,
    Draft.faults_eq_none_iff.1 hfaults⟩

/-! ## What a node of its kind does not have -/

/-- Only a generic node has conversions of its own. -/
theorem conversions_of_ne_generic (h : n.Built) (hk : n.kind ≠ .generic) :
    n.conversions = none := by
  obtain ⟨d, role, hkind, -, rfl, hd⟩ := h.exists_draft
  exact (hd.generic (hkind ▸ hk)).2.1

/-- Only a generic node has a factor of its own. -/
theorem convertFactor_of_ne_generic (h : n.Built) (hk : n.kind ≠ .generic) :
    n.convertFactor = .plain 1 := by
  obtain ⟨d, role, hkind, -, rfl, hd⟩ := h.exists_draft
  have hnone : d.convertFactor = none := (hd.generic (hkind ▸ hk)).1
  simp [Draft.resolved, hnone]

/-- A fixed output puts out what comes in, and it comes of one commodity at most. -/
theorem of_fixedOutput (h : n.Built) (hk : n.kind = .fixedOutput) :
    n.convertFactor = .plain 1 ∧ n.conversions = none ∧
      (distinct n.inputCommodities).length ≤ 1 := by
  have hne : n.kind ≠ .generic := by
    rw [hk]
    decide
  refine ⟨h.convertFactor_of_ne_generic hne, h.conversions_of_ne_generic hne, ?_⟩
  obtain ⟨d, role, hkind, -, rfl, hd⟩ := h.exists_draft
  exact (hd.fixedOutput (hkind.trans hk)).1

/-- The given flow of an input has no share in anything. -/
theorem inputProportions_of_isInput (h : n.Built) (hk : n.kind.isInput) :
    n.inputProportions = none := by
  obtain ⟨d, role, hkind, -, rfl, hd⟩ := h.exists_draft
  exact hd.input (hkind ▸ hk)

/-- The given flow of an output has no share in anything. -/
theorem outputProportions_of_isOutput (h : n.Built) (hk : n.kind.isOutput) :
    n.outputProportions = none := by
  obtain ⟨d, role, hkind, -, rfl, hd⟩ := h.exists_draft
  exact hd.output (hkind ▸ hk)

/-! ## What holds of the values that a node has -/

theorem costs_nonneg (h : n.Built) {costs : Quantity K} (hc : n.costs = some costs) :
    ¬costs.magnitude < 0 := by
  obtain ⟨d, role, -, -, rfl, hd⟩ := h.exists_draft
  exact hd.costs costs hc

/-- Only a generic node pays for its input flows, and it gains nothing by them. -/
theorem flowCosts_nonneg (h : n.Built) {costs : Quantity K} (hc : n.inputFlowCosts = some costs) :
    n.kind = .generic ∧ ¬costs.magnitude < 0 := by
  obtain ⟨d, role, hkind, -, rfl, hd⟩ := h.exists_draft
  refine ⟨?_, (hd.flowCosts costs hc).1⟩
  by_contra hne
  have hnone : d.inputFlowCosts = none := (hd.generic (hkind ▸ hne)).2.2.1
  exact Option.some_ne_none costs (hc.symm.trans hnone)

theorem not_isInput_of_flowCosts (h : n.Built) (hc : n.inputFlowCosts.isSome = true) :
    ¬n.kind.isInput := by
  obtain ⟨costs, hcosts⟩ := Option.isSome_iff_exists.1 hc
  rw [(h.flowCosts_nonneg hcosts).1]
  decide

/-- The ratios of a node are those of its input commodities or of its inputs, and positive. -/
theorem inputProportions_eq_some (h : n.Built) {ratios : Keyed (Quantity K)}
    (hr : n.inputProportions = some ratios) :
    (ratios.keys = distinct n.inputCommodities ∨ ratios.keys = distinct n.inputs) ∧
      ∀ e ∈ ratios.entries, 0 < e.2.magnitude := by
  obtain ⟨d, role, -, hinputs, rfl, hd⟩ := h.exists_draft
  rw [← hinputs]
  exact hd.inputProportions ratios hr

/-- There is a conversion, and what is converted comes in, unless nothing is known to come in. -/
theorem conversions_eq_some (h : n.Built) {conversions : Keyed (Conversion K)}
    (hc : n.conversions = some conversions) :
    conversions.entries ≠ [] ∧ ∀ e ∈ conversions.entries,
      n.inputCommodities ≠ [] → e.2.source ∈ n.inputCommodities := by
  obtain ⟨d, role, -, -, rfl, hd⟩ := h.exists_draft
  exact (hd.conversions conversions hc).2

end Node.Built

end SupplyNet
