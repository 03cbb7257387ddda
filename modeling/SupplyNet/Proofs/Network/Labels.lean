import Mathlib
import SupplyNet.Proofs.Network.Balance
import SupplyNet.Proofs.Network.BalanceRows
import SupplyNet.Proofs.Related

/-!
Labelled flows. The label of a flow on one side of a node tells its neighbour and its commodity. The
labels of a node follow from the nodes alone, and the values of its flows are a function of them.
-/
set_option autoImplicit false

namespace SupplyNet

/-- A flow without a neighbour comes out of nowhere or goes there. -/
structure Label where
  neighbour : Option String
  commodity : String
  deriving DecidableEq

def Stream.label {K : Type} (s : Stream K) : Label := ⟨s.neighbour, s.commodity⟩

namespace Label

/-! ## Totals -/

/-- The sum of the values under the labels of some kind. -/
def total (labels : List Label) (p : Label → Bool) (value : Label → Rat) : Rat :=
  ((labels.filter p).map value).sum

section Total

variable {labels : List Label} {p : Label → Bool} {v w : Label → Rat}

theorem total_congr (h : ∀ l ∈ labels, v l = w l) : total labels p v = total labels p w :=
  congrArg List.sum (List.map_congr_left fun l hl => h l (List.mem_of_mem_filter hl))

theorem total_blend (labels : List Label) (p : Label → Bool) (a b : Rat) (v w : Label → Rat) :
    total labels p (fun l => a * v l + b * w l) =
      a * total labels p v + b * total labels p w := by
  unfold total
  rw [List.sum_map_add, List.sum_map_mul_left, List.sum_map_mul_left]

end Total

/-! ## Proportions -/

section Proportions

variable (catalogue : Catalogue Rat) (labels : List Label) (ratios : Keyed (Quantity Rat))

/-- What a key stands for: the flows of a commodity, or those to or from a neighbour. -/
def sharesKey (byCommodity : Bool) (key : String) (l : Label) : Bool :=
  if byCommodity then l.commodity = key else l.neighbour = some key

def members (key : String) : List Label :=
  labels.filter (sharesKey (ratios.keys = distinct (labels.map (·.commodity))) key)

/-- A ratio in the unit of the first flow that shares it. -/
def ratioAmong (members : List Label) (ratio : Quantity Rat) : Rat :=
  match members with
  | first :: _ => ratio.magnitude * ratioTo ratio.unit (catalogue.scaleOf first.commodity)
  | [] => 1

/-- What flows under a key for each unit of its ratio. -/
def shareOf (value : Label → Rat) (e : String × Quantity Rat) : Rat :=
  ((members labels ratios e.1).map value).sum / ratioAmong catalogue (members labels ratios e.1) e.2

/-- All keys have the same share. -/
def InProportion (value : Label → Rat) : Prop :=
  ∀ e ∈ ratios.entries, ∀ e' ∈ ratios.entries,
    shareOf catalogue labels ratios value e = shareOf catalogue labels ratios value e'

variable {catalogue labels ratios} {v w : Label → Rat}

theorem shareOf_congr (h : ∀ l ∈ labels, v l = w l) (e : String × Quantity Rat) :
    shareOf catalogue labels ratios v e = shareOf catalogue labels ratios w e := by
  unfold shareOf members
  rw [List.map_congr_left fun l hl => h l (List.mem_of_mem_filter hl)]

theorem shareOf_blend (a b : Rat) (v w : Label → Rat) (e : String × Quantity Rat) :
    shareOf catalogue labels ratios (fun l => a * v l + b * w l) e =
      a * shareOf catalogue labels ratios v e + b * shareOf catalogue labels ratios w e := by
  have hsum := total_blend labels
    (sharesKey (ratios.keys = distinct (labels.map (·.commodity))) e.1) a b v w
  unfold total at hsum
  unfold shareOf members
  rw [hsum]
  ring

theorem InProportion.congr (hv : InProportion catalogue labels ratios v)
    (h : ∀ l ∈ labels, v l = w l) : InProportion catalogue labels ratios w := by
  intro e he e' he'
  rw [← shareOf_congr h, ← shareOf_congr h]
  exact hv e he e' he'

theorem InProportion.blend (a b : Rat) (hv : InProportion catalogue labels ratios v)
    (hw : InProportion catalogue labels ratios w) :
    InProportion catalogue labels ratios fun l => a * v l + b * w l := by
  intro e he e' he'
  rw [shareOf_blend, shareOf_blend, hv e he e' he', hw e he e' he']

end Proportions

end Label

/-! ## The conditions of proportions -/

/-- All items agree if all others agree with the first one. -/
theorem forall_mem_eq_iff {α β : Type} {a : α} {l : List α} {f : α → β} :
    (∀ b ∈ a :: l, ∀ c ∈ a :: l, f b = f c) ↔ ∀ b ∈ l, f a = f b := by
  constructor
  · intro h b hb
    exact h a List.mem_cons_self b (List.mem_cons_of_mem a hb)
  · intro h
    have hfirst : ∀ b ∈ a :: l, f a = f b := List.forall_mem_cons.2 ⟨rfl, h⟩
    exact fun b hb c hc => (hfirst b hb).symm.trans (hfirst c hc)

theorem forall_mem_map_eq_iff {α β : Type} {l : List α} {f : α → β} :
    (∀ p ∈ l.map f, ∀ q ∈ l.map f, p = q) ↔ ∀ a ∈ l, ∀ b ∈ l, f a = f b := by
  simp only [List.forall_mem_map]

namespace Node

/-- The labels of the flows that share a ratio. -/
theorem members_map_label (streams : List (Stream Rat)) (ratios : Keyed (Quantity Rat))
    (key : String) : Label.members (streams.map Stream.label) ratios key =
      (sharing streams (ratios.keys = distinct (streams.map (·.commodity))) key).map
        Stream.label := by
  unfold Label.members sharing
  rw [List.filter_map, List.map_map]
  rfl

section Proportions

variable {n : Node Rat} {catalogue : Catalogue Rat} {steps : Nat} {side : Direction}
variable {streams : List (Stream Rat)} {x : Var → Rat} {value : Nat → Label → Rat}
variable (hvalue : ∀ t < steps, ∀ s ∈ streams, (s.flow.atStep t).eval x = value t s.label)

include hvalue

theorem eval_shareAt {ratios : Keyed (Quantity Rat)} {e : String × Quantity Rat}
    {g : ProportionGroup Rat}
    (h : n.proportionGroup catalogue side streams
      (ratios.keys = distinct (streams.map (·.commodity))) e.1 e.2 = .ok g) {t : Nat}
    (ht : t < steps) : (g.shareAt t).eval x =
      Label.shareOf catalogue (streams.map Stream.label) ratios (value t) e := by
  unfold proportionGroup at h
  unfold Label.shareOf
  rw [members_map_label]
  have hmem : ∀ s ∈ sharing streams (ratios.keys = distinct (streams.map (·.commodity))) e.1,
      s ∈ streams := fun s hs => List.mem_of_mem_filter hs
  generalize sharing streams (ratios.keys = distinct (streams.map (·.commodity))) e.1 = members
    at h hmem
  dsimp only at h
  split at h
  · exact absurd h (by simp)
  · next first rest =>
    obtain ⟨unit, hu, h⟩ := bind_eq_ok_iff.1 h
    obtain ⟨ratio, hr, h⟩ := bind_eq_ok_iff.1 h
    split at h
    · rw [← Except.ok.inj h]
      unfold ProportionGroup.shareAt
      rw [LinearExpr.eval_scale, eval_sumAt, mul_one_div, List.map_map, List.map_map,
        Quantity.magnitudeIn_eq (mapError_eq_ok_iff.1 hr),
        Catalogue.scale_of_unitOf (mapError_eq_ok_iff.1 hu)]
      refine congrArg (· / _) (congrArg List.sum (List.map_congr_left fun s hs => ?_))
      exact hvalue t ht s (hmem s hs)
    · exact absurd h (throw_ne_ok _ _)

/-- The conditions of proportions hold exactly if the flows are in proportion in each time step. -/
theorem proportionRows_hold_iff {ratios : Option (Keyed (Quantity Rat))} {rows : Rows Rat}
    (h : n.proportionRows catalogue steps side streams ratios = .ok rows) :
    (∀ d ∈ rows, d.Holds x) ↔ ∀ r ∈ ratios, ∀ t < steps,
      Label.InProportion catalogue (streams.map Stream.label) r (value t) := by
  unfold proportionRows at h
  cases ratios with
  | none =>
    rw [← Except.ok.inj h]
    simp
  | some ratios =>
    obtain ⟨groups, hgroups, h⟩ := bind_eq_ok_iff.1 h
    have hrows : (∀ d ∈ rows, d.Holds x) ↔ ∀ t < steps, ∀ g ∈ groups, ∀ g' ∈ groups,
        (g.shareAt t).eval x = (g'.shareAt t).eval x := by
      split at h
      · rw [← Except.ok.inj h]
        simp
      · next reference others =>
        rw [← Except.ok.inj h]
        simp only [forall_mem_eq_iff, List.forall_mem_flatMap, rowsOver, List.forall_mem_map,
          List.mem_range, Constraint.Holds, LinearExpr.eval_sub, sub_eq_zero]
        exact ⟨fun hall t ht g hg => hall g hg t ht, fun hall g hg t ht => hall t ht g hg⟩
    rw [hrows]
    simp only [Option.mem_some_iff, forall_eq']
    refine forall₂_congr fun t ht => ?_
    have hshares := map_eq_map_of_forall₂ (mapM_eq_ok_iff.1 hgroups)
      (f := Label.shareOf catalogue (streams.map Stream.label) ratios (value t))
      (g := fun g => (g.shareAt t).eval x) fun e g hg => (eval_shareAt hvalue hg ht).symm
    unfold Label.InProportion
    rw [← forall_mem_map_eq_iff (l := groups), ← forall_mem_map_eq_iff (l := ratios.entries),
      hshares]

end Proportions

/-! ## The labels of a node -/

section Labels

variable (nodes : List (Node Rat)) (catalogue : Catalogue Rat) (m : Model Rat) (x : Var → Rat)

/-- One label for each inlet, or that of the leaf. -/
def inLabels (n : Node Rat) : List Label :=
  match n.inlets with
  | [] => [⟨none, leafInputName nodes n⟩]
  | inlets => inlets.map fun i => ⟨some i.source, i.commodity⟩

/-- One label for each outlet, or that of the leaf. -/
def outLabels (n : Node Rat) : List Label :=
  match outlets nodes n.name with
  | [] => [⟨none, n.leafOutputName⟩]
  | served => served.map fun o => ⟨some o.target, o.commodity⟩

/-- The value of an input flow in a time step. -/
def inflowOf (n : Node Rat) (t : Nat) (l : Label) : Rat :=
  match l.neighbour with
  | some source => x (m.columnOf (.edge source n.name) t)
  | none => n.leafInflowAt catalogue m x l.commodity t

/-- The value of an output flow in a time step. -/
def outflowOf (n : Node Rat) (t : Nat) (l : Label) : Rat :=
  match l.neighbour with
  | some target => x (m.columnOf (.edge n.name target) t)
  | none => n.leafOutflowAt catalogue m x l.commodity t

variable {nodes catalogue m x} {n : Node Rat}

theorem totalOf_inflowsAt (p : String → Bool) (t : Nat) :
    totalOf p (inflowsAt nodes catalogue m x n t) =
      Label.total (inLabels nodes n) (fun l => p l.commodity) (n.inflowOf catalogue m x t) := by
  have hmap : inflowsAt nodes catalogue m x n t =
      (inLabels nodes n).map fun l => (l.commodity, n.inflowOf catalogue m x t l) := by
    unfold inflowsAt inLabels
    cases n.inlets with
    | nil => rfl
    | cons i r => rw [List.map_map]; rfl
  rw [hmap, totalOf_map]
  rfl

theorem totalOf_outflowsAt (p : String → Bool) (t : Nat) :
    totalOf p (outflowsAt nodes catalogue m x n t) =
      Label.total (outLabels nodes n) (fun l => p l.commodity) (n.outflowOf catalogue m x t) := by
  have hmap : outflowsAt nodes catalogue m x n t =
      (outLabels nodes n).map fun l => (l.commodity, n.outflowOf catalogue m x t l) := by
    unfold outflowsAt outLabels
    cases outlets nodes n.name with
    | nil => rfl
    | cons o r => rw [List.map_map]; rfl
  rw [hmap, totalOf_map]
  rfl

end Labels

section Bound

variable {nodes : List (Node Rat)} {catalogue : Catalogue Rat} {x : Var → Rat} {n : Node Rat}
variable {c : NodeCommodities} {f : NodeFlows Rat} {steps : Nat}

theorem label_inflows {m : Model Rat} (h : n.Bound catalogue (outlets nodes n.name) m c f) :
    f.inflows.map Stream.label = inLabels nodes n := by
  have hin := h.inflows
  unfold inStreams at hin
  unfold inLabels
  split
  · next hi =>
    rw [if_pos hi, inflow_eq_leafInputName h.settled hi] at hin
    obtain ⟨flow, -, hf⟩ := map_eq_ok_iff.1 hin
    rw [← hf]
    rfl
  · next hi =>
    rw [if_neg hi] at hin
    rw [← Except.ok.inj hin, List.map_map]
    rfl

theorem label_outflows {m : Model Rat} (h : n.Bound catalogue (outlets nodes n.name) m c f) :
    f.outflows.map Stream.label = outLabels nodes n := by
  have hout := h.outflows
  unfold outStreams at hout
  unfold outLabels
  split
  · next hs =>
    obtain ⟨commodity, hleaf, hc⟩ := outflow_of_leaf h.settled hs
    rw [if_pos hs, hc] at hout
    obtain ⟨flow, -, hf⟩ := map_eq_ok_iff.1 hout
    rw [← hf, leafOutputName_eq hleaf]
    rfl
  · next hs =>
    rw [if_neg hs] at hout
    rw [← Except.ok.inj hout, List.map_map]
    rfl

variable (hnames : ((variableKeys nodes).map (·.name)).Nodup) (hn : n ∈ nodes)
variable (h : n.Bound catalogue (outlets nodes n.name) (registry nodes steps) c f)

include hnames hn h

theorem eval_inflow {t : Nat} (ht : t < steps) : ∀ s ∈ f.inflows, (s.flow.atStep t).eval x =
    n.inflowOf catalogue (registry nodes steps) x t s.label := by
  have hin := h.inflows
  unfold inStreams at hin
  intro s hs
  split at hin
  · next hi =>
    obtain ⟨flow, hflow, hf⟩ := map_eq_ok_iff.1 hin
    rw [← hf, List.mem_singleton] at hs
    rw [hs]
    exact eval_leafInflow x hnames ht hn hi hflow
  · rw [← Except.ok.inj hin] at hs
    obtain ⟨inlet, hi, rfl⟩ := List.mem_map.1 hs
    exact eval_flowOf x hnames ht (mem_variableKeys_edge hn hi) rfl

theorem eval_outflow {t : Nat} (ht : t < steps) : ∀ s ∈ f.outflows, (s.flow.atStep t).eval x =
    n.outflowOf catalogue (registry nodes steps) x t s.label := by
  have hout := h.outflows
  unfold outStreams at hout
  intro s hs
  split at hout
  · next he =>
    obtain ⟨flow, hflow, hf⟩ := map_eq_ok_iff.1 hout
    rw [← hf, List.mem_singleton] at hs
    rw [hs]
    exact eval_leafOutflow x hnames ht hn he hflow
  · rw [← Except.ok.inj hout] at hs
    obtain ⟨o, ho, rfl⟩ := List.mem_map.1 hs
    exact eval_flowOf x hnames ht (mem_variableKeys_outlet ho) rfl

end Bound

end Node

end SupplyNet
