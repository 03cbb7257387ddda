import Mathlib
import SupplyNet.Proofs.Network.Conservation
import SupplyNet.Proofs.Network.Enumeration
import SupplyNet.Proofs.Network.Names

/-!
The names of conditions. They are put together from the names of nodes and commodities, and nothing
checks that they differ. Balances have the same name if a node is named like another one together
with one of its commodities, and so have proportions if the names of two nodes go on alike.
-/
set_option autoImplicit false

namespace SupplyNet

/-! ## Time steps in names -/

theorem bracket_not_mem_repr (t : Nat) : '[' ∉ t.repr.toList := by
  rw [Nat.toList_repr]
  intro h
  exact absurd (Nat.isDigit_of_mem_toDigits (by decide) (by decide) h) (by decide)

/-- What stands before the last of some item is the same, and so is what stands behind it. -/
theorem append_cons_inj_of_not_mem {α : Type} {a : α} {x y u v : List α} (hu : a ∉ u) (hv : a ∉ v)
    (h : x ++ a :: u = y ++ a :: v) : x = y ∧ u = v := by
  obtain ⟨m, hy, hm⟩ | ⟨m, hx, hm⟩ := List.append_eq_append_iff.1 h
  · cases m with
    | nil => exact ⟨by rw [hy, List.append_nil], (List.cons.inj hm).2⟩
    | cons b m =>
      rw [(List.cons.inj hm).2] at hu
      exact absurd (List.mem_append_right m List.mem_cons_self) hu
  · cases m with
    | nil => exact ⟨by rw [hx, List.append_nil], (List.cons.inj hm).2.symm⟩
    | cons b m =>
      rw [(List.cons.inj hm).2] at hv
      exact absurd (List.mem_append_right m List.mem_cons_self) hv

/-- The name of a condition tells its time step. -/
theorem stepName_inj {a b : String} {t u : Nat} : s!"{a}[{t}]" = s!"{b}[{u}]" ↔ a = b ∧ t = u := by
  constructor
  · intro h
    have hl : (a ++ "[" ++ t.repr ++ "]").toList = (b ++ "[" ++ u.repr ++ "]").toList :=
      congrArg String.toList h
    simp only [String.toList_append] at hl
    have hl := List.append_cancel_right hl
    rw [List.append_assoc, List.append_assoc] at hl
    obtain ⟨hname, hstep⟩ :=
      append_cons_inj_of_not_mem (bracket_not_mem_repr t) (bracket_not_mem_repr u) hl
    exact ⟨String.toList_inj.1 hname, Nat.repr_injective (String.toList_inj.1 hstep)⟩
  · rintro ⟨rfl, rfl⟩
    rfl

/-! ## Titles -/

namespace Subject

/-- What the name of a condition starts with. -/
def heading : Subject → String
  | balance _ => "inout_flow_balance_"
  | chargeLimit => "max_charging_speed_"
  | dischargeLimit => "max_discharging_speed_"
  | levelLimit => "storage_max_level_"
  | levelBalance => "storage_level_balance_"
  | proportion _ _ => "proportion_"
  | sizeLimit => "limit_outflow_by_size_"

def headings : List String :=
  ["inout_flow_balance_", "max_charging_speed_", "max_discharging_speed_", "storage_max_level_",
    "storage_level_balance_", "proportion_", "limit_outflow_by_size_"]

theorem heading_mem (s : Subject) : s.heading ∈ headings := by
  cases s <;> simp [heading, headings]

theorem headings_apart : ∀ a ∈ headings, ∀ b ∈ headings, a.toList <+: b.toList → a = b := by
  decide

end Subject

namespace Node

section Titles

variable (nodes : List (Node Rat))

/-- Whether a node has several output commodities, so that its balances name them. -/
def Several (n : Node Rat) : Prop := 1 < (distinct (outputNames nodes n)).length

instance (n : Node Rat) : Decidable (n.Several nodes) :=
  inferInstanceAs (Decidable (1 < (distinct (outputNames nodes n)).length))

/-- The keys of the ratios that are compared with the first one. -/
def comparedKeys (n : Node Rat) (side : Direction) : List String :=
  (n.proportions side).elim [] fun ratios => ratios.keys.tail

/-- How the name of a condition goes on before its time step. -/
def tail (n : Node Rat) : Subject → String
  | .balance output => if n.Several nodes then n.name ++ "_" ++ output else n.name
  | .proportion side key => n.name ++ "_" ++ side.text ++ "_" ++ key
  | .chargeLimit | .dischargeLimit | .levelLimit | .levelBalance | .sizeLimit => n.name

/-- What the conditions of a node are about. -/
def Covers (n : Node Rat) : Subject → Prop
  | .balance output => output ∈ outputNames nodes n
  | .proportion side key => key ∈ n.comparedKeys side
  | .chargeLimit | .dischargeLimit | .levelLimit | .levelBalance => n.storage.isSome = true
  | .sizeLimit => n.hasSize = true ∧ n.kind ≠ .scalableInput

end Titles

section Clauses

variable {nodes : List (Node Rat)} {catalogue : Catalogue Rat} {hours : Rat} {steps : Nat}
variable {n : Node Rat} {clause : Clause}

/-- The name of a condition is put together from what it is about. -/
structure Titles (nodes : List (Node Rat)) (n : Node Rat) (clause : Clause) : Prop where
  name : clause.name =
    s!"{clause.subject.heading ++ n.tail nodes clause.subject}[{clause.step}]"
  covers : n.Covers nodes clause.subject

theorem titles_overSteps {subject : Subject} {name : String} {relation : Relation}
    {excess : Nat → Operation → Rat} (hname : name = subject.heading ++ n.tail nodes subject)
    (hcovers : n.Covers nodes subject)
    (h : clause ∈ Clause.overSteps steps subject name relation excess) : n.Titles nodes clause := by
  obtain ⟨t, -, rfl⟩ := List.mem_map.1 h
  exact ⟨by rw [hname], hcovers⟩

theorem balanceName_eq (nodes : List (Node Rat)) (n : Node Rat) (output : String) :
    n.balanceName (distinct (outputNames nodes n)) output =
      "inout_flow_balance_" ++ n.tail nodes (.balance output) := by
  unfold balanceName tail
  dsimp only
  by_cases hseveral : n.Several nodes
  · rw [if_pos hseveral, if_pos (show 1 < (distinct (outputNames nodes n)).length from hseveral)]
    change "inout_flow_balance_" ++ n.name ++ "_" ++ output = _
    rw [String.append_assoc, String.append_assoc, String.append_assoc]
  · rw [if_neg hseveral, if_neg (show ¬1 < (distinct (outputNames nodes n)).length from hseveral)]
    rfl

theorem titles_balanceClauses {output : String} (ho : output ∈ outputNames nodes n)
    (h : clause ∈ n.balanceClauses nodes catalogue hours steps output) : n.Titles nodes clause := by
  have hcovers : n.Covers nodes (.balance output) := ho
  exact titles_overSteps (balanceName_eq nodes n output) hcovers h

theorem titles_storageClauses {s : Storage Rat} (hs : n.storage = some s)
    (h : clause ∈ n.storageClauses hours steps s) : n.Titles nodes clause := by
  have hcovers : n.storage.isSome = true := by rw [hs]; rfl
  obtain ⟨t, -, h⟩ := List.mem_flatMap.1 h
  simp only [List.mem_cons, List.not_mem_nil, or_false] at h
  rcases h with rfl | rfl | rfl | rfl <;> exact ⟨rfl, hcovers⟩

theorem titles_proportionClauses (side : Direction) {labels : List Label}
    {flow : Operation → Nat → Label → Rat} (h : clause ∈ (n.proportions side).elim []
      (n.proportionClauses catalogue steps side labels flow)) : n.Titles nodes clause := by
  cases hratios : n.proportions side with
  | none =>
    rw [hratios] at h
    exact absurd h List.not_mem_nil
  | some ratios =>
    rw [hratios] at h
    obtain ⟨first, others, hentries, e, he, t, -, rfl⟩ := mem_proportionClauses.1 h
    have htail : "proportion_" ++ n.name ++ "_" ++ side.text ++ "_" ++ e.1 =
        "proportion_" ++ n.tail nodes (.proportion side e.1) := by
      unfold tail
      simp only [String.append_assoc]
    have hkey : e.1 ∈ n.comparedKeys side := by
      rw [comparedKeys, hratios, Option.elim_some, Keyed.keys, hentries]
      exact List.mem_map_of_mem he
    refine ⟨?_, hkey⟩
    change "proportion_" ++ n.name ++ "_" ++ side.text ++ "_" ++ e.1 ++ "[" ++ t.repr ++ "]" =
      "proportion_" ++ n.tail nodes (.proportion side e.1) ++ "[" ++ t.repr ++ "]"
    rw [htail]

theorem titles_sizeClauses (h : clause ∈ n.sizeClauses nodes hours steps) :
    n.Titles nodes clause := by
  unfold sizeClauses at h
  split at h
  · next hsize =>
    have hcovers : n.Covers nodes .sizeLimit := hsize
    exact titles_overSteps rfl hcovers h
  · exact absurd h List.not_mem_nil

theorem titles_of_mem_clauses (h : clause ∈ n.clauses nodes catalogue hours steps) :
    n.Titles nodes clause := by
  simp only [clauses, List.mem_append, List.mem_flatMap] at h
  rcases h with ⟨output, ho, h⟩ | h | h | h | h
  · exact titles_balanceClauses (mem_distinct.1 ho) h
  · cases hs : n.storage with
    | none =>
      rw [hs] at h
      exact absurd h List.not_mem_nil
    | some s =>
      rw [hs] at h
      exact titles_storageClauses hs h
  · exact titles_proportionClauses .input h
  · exact titles_proportionClauses .output h
  · exact titles_sizeClauses h

theorem exists_of_mem_comparedKeys {side : Direction} {key : String} (h : key ∈ n.comparedKeys side) :
    ∃ ratios first others, n.proportions side = some ratios ∧ ratios.entries = first :: others ∧
      ∃ e ∈ others, e.1 = key := by
  unfold comparedKeys at h
  cases hratios : n.proportions side with
  | none =>
    rw [hratios] at h
    exact absurd h List.not_mem_nil
  | some ratios =>
    rw [hratios, Option.elim_some, Keyed.keys] at h
    cases hentries : ratios.entries with
    | nil =>
      rw [hentries] at h
      exact absurd h List.not_mem_nil
    | cons first others =>
      rw [hentries] at h
      exact ⟨ratios, first, others, rfl, hentries, List.mem_map.1 h⟩

theorem exists_balanceClause {output : String} (ho : output ∈ outputNames nodes n) {t : Nat}
    (ht : t < steps) : ∃ clause ∈ n.clauses nodes catalogue hours steps,
      clause.subject = .balance output ∧ clause.step = t :=
  ⟨_, List.mem_append_left _ (List.mem_flatMap.2
    ⟨output, mem_distinct.2 ho, List.mem_map_of_mem (List.mem_range.2 ht)⟩), rfl, rfl⟩

theorem exists_proportionClause {side : Direction} {key : String}
    (hkey : key ∈ n.comparedKeys side) {t : Nat} (ht : t < steps) :
    ∃ clause ∈ n.clauses nodes catalogue hours steps,
      clause.subject = .proportion side key ∧ clause.step = t := by
  obtain ⟨ratios, first, others, hratios, hentries, e, he, rfl⟩ := exists_of_mem_comparedKeys hkey
  have hex : ∀ labels flow, ∃ clause ∈ (n.proportions side).elim []
      (n.proportionClauses catalogue steps side labels flow),
        clause.subject = .proportion side e.1 ∧ clause.step = t := by
    rw [hratios]
    exact fun labels flow =>
      ⟨_, mem_proportionClauses.2 ⟨first, others, hentries, e, he, t, ht, rfl⟩, rfl, rfl⟩
  cases side with
  | input =>
    obtain ⟨clause, hmem, hclause⟩ := hex (inLabels nodes n) Operation.inflow
    exact ⟨clause, List.mem_append_right _ (List.mem_append_right _ (List.mem_append_left _ hmem)),
      hclause⟩
  | output =>
    obtain ⟨clause, hmem, hclause⟩ := hex (outLabels nodes n) Operation.outflow
    exact ⟨clause, List.mem_append_right _ (List.mem_append_right _ (List.mem_append_right _
      (List.mem_append_left _ hmem))), hclause⟩

end Clauses

/-! ## Titles that differ -/

/-- If headings are the same, there are two balances, two proportions or twice the same. -/
theorem eq_of_heading_eq {s s' : Subject} (h : s.heading = s'.heading) :
    (∃ a b, s = .balance a ∧ s' = .balance b) ∨
      (∃ side a side' b, s = .proportion side a ∧ s' = .proportion side' b) ∨
      s = s' ∧ ∀ (nodes : List (Node Rat)) (n : Node Rat), n.tail nodes s = n.name := by
  cases s <;> cases s' <;> simp_all [Subject.heading, tail]

theorem output_unique {nodes : List (Node Rat)} {n : Node Rat} (h : ¬n.Several nodes)
    {a b : String} (ha : a ∈ outputNames nodes n) (hb : b ∈ outputNames nodes n) : a = b := by
  rw [← mem_distinct] at ha hb
  have hlength : (distinct (outputNames nodes n)).length ≤ 1 := not_lt.1 h
  generalize distinct (outputNames nodes n) = outputs at ha hb hlength
  match outputs, hlength with
  | [], _ => exact absurd ha List.not_mem_nil
  | [c], _ => rw [List.mem_singleton.1 ha, List.mem_singleton.1 hb]

end Node

section Network

variable {nodes : List (Node Rat)} {catalogue : Catalogue Rat} {hours : Rat} {steps : Nat}

/-- No two nodes go on alike in the names of their balances or of their proportions. A node with a
single output commodity is not named like another one together with one of its commodities. -/
structure DistinctTitles (nodes : List (Node Rat)) : Prop where
  balances : ∀ n ∈ nodes, n.Several nodes → ∀ a ∈ n.outputNames nodes,
    ∀ m ∈ nodes, m.Several nodes → ∀ b ∈ m.outputNames nodes,
      n.name ++ "_" ++ a = m.name ++ "_" ++ b → n.name = m.name ∧ a = b
  single : ∀ n ∈ nodes, ¬n.Several nodes → ∀ m ∈ nodes, m.Several nodes →
    ∀ b ∈ m.outputNames nodes, n.name ≠ m.name ++ "_" ++ b
  proportions : ∀ n ∈ nodes, ∀ side, ∀ a ∈ n.comparedKeys side,
    ∀ m ∈ nodes, ∀ side', ∀ b ∈ m.comparedKeys side',
      n.name ++ "_" ++ side.text ++ "_" ++ a = m.name ++ "_" ++ side'.text ++ "_" ++ b →
        n.name = m.name ∧ side = side' ∧ a = b

/-- A title tells the node and what the condition is about. -/
theorem DistinctTitles.eq_of_title_eq (h : DistinctTitles nodes)
    (hnames : (nodes.map (·.name)).Nodup) {n m : Node Rat} (hn : n ∈ nodes) (hm : m ∈ nodes)
    {s s' : Subject} (hs : n.Covers nodes s) (hs' : m.Covers nodes s')
    (hheading : s.heading = s'.heading) (htail : n.tail nodes s = m.tail nodes s') :
    n.name = m.name ∧ s = s' := by
  obtain ⟨a, b, rfl, rfl⟩ | ⟨side, a, side', b, rfl, rfl⟩ | ⟨rfl, hplain⟩ :=
    Node.eq_of_heading_eq hheading
  · unfold Node.tail at htail
    dsimp only at htail
    by_cases hseveral : n.Several nodes <;> by_cases hseveral' : m.Several nodes
    · rw [if_pos hseveral, if_pos hseveral'] at htail
      obtain ⟨hname, rfl⟩ := h.balances n hn hseveral a hs m hm hseveral' b hs' htail
      exact ⟨hname, rfl⟩
    · rw [if_pos hseveral, if_neg hseveral'] at htail
      exact absurd htail.symm (h.single m hm hseveral' n hn hseveral a hs)
    · rw [if_neg hseveral, if_pos hseveral'] at htail
      exact absurd htail (h.single n hn hseveral m hm hseveral' b hs')
    · rw [if_neg hseveral, if_neg hseveral'] at htail
      obtain rfl := List.inj_on_of_nodup_map hnames hn hm htail
      exact ⟨rfl, by rw [Node.output_unique hseveral hs hs']⟩
  · obtain ⟨hname, rfl, rfl⟩ := h.proportions n hn side a hs m hm side' b hs' htail
    exact ⟨hname, rfl⟩
  · rw [hplain, hplain] at htail
    exact ⟨htail, rfl⟩

theorem mem_clausesOf {p : Node Rat × Clause} : p ∈ clausesOf nodes catalogue hours steps ↔
    p.1 ∈ nodes ∧ p.2 ∈ p.1.clauses nodes catalogue hours steps := by
  unfold clausesOf
  simp only [List.mem_flatMap, List.mem_map]
  constructor
  · rintro ⟨n, hn, clause, hclause, rfl⟩
    exact ⟨hn, hclause⟩
  · rintro ⟨hn, hclause⟩
    exact ⟨p.1, hn, p.2, hclause, rfl⟩

theorem Node.Titles.name_eq_iff {n m : Node Rat} {c d : Clause} (hc : n.Titles nodes c)
    (hd : m.Titles nodes d) : c.name = d.name ↔
      (c.subject.heading = d.subject.heading ∧
        n.tail nodes c.subject = m.tail nodes d.subject) ∧ c.step = d.step := by
  rw [hc.name, hd.name, stepName_inj, append_eq_append_iff_of_apart Subject.headings_apart
    (Subject.heading_mem _) (Subject.heading_mem _)]

/-- If no two conditions have the same name, then the title of any two of the same time step tells
the node and what they are about. -/
theorem eq_of_title_eq_of_names (h : ∀ p ∈ clausesOf nodes catalogue hours steps,
      ∀ q ∈ clausesOf nodes catalogue hours steps, p.2.name = q.2.name → p = q)
    {n m : Node Rat} (hn : n ∈ nodes) (hm : m ∈ nodes) {s s' : Subject} {t : Nat}
    (hs : ∃ c ∈ n.clauses nodes catalogue hours steps, c.subject = s ∧ c.step = t)
    (hs' : ∃ c ∈ m.clauses nodes catalogue hours steps, c.subject = s' ∧ c.step = t)
    (hheading : s.heading = s'.heading) (htail : n.tail nodes s = m.tail nodes s') :
    n = m ∧ s = s' := by
  obtain ⟨c, hc, rfl, rfl⟩ := hs
  obtain ⟨d, hd, rfl, hstep⟩ := hs'
  have hname : c.name = d.name :=
    ((Node.titles_of_mem_clauses hc).name_eq_iff (Node.titles_of_mem_clauses hd)).2
      ⟨⟨hheading, htail⟩, hstep.symm⟩
  have hp : (n, c) ∈ clausesOf nodes catalogue hours steps := mem_clausesOf.2 ⟨hn, hc⟩
  have hq : (m, d) ∈ clausesOf nodes catalogue hours steps := mem_clausesOf.2 ⟨hm, hd⟩
  obtain ⟨rfl, rfl⟩ := Prod.mk.inj (h (n, c) hp (m, d) hq hname)
  exact ⟨rfl, rfl⟩

/-- If no two conditions have the same name, the titles differ. The conditions of the first time
step show it. -/
theorem distinctTitles_of_names (hsteps : 0 < steps)
    (h : ∀ p ∈ clausesOf nodes catalogue hours steps,
      ∀ q ∈ clausesOf nodes catalogue hours steps, p.2.name = q.2.name → p = q) :
    DistinctTitles nodes where
  balances n hn hseveral a ha m hm hseveral' b hb heq := by
    obtain ⟨rfl, hab⟩ := eq_of_title_eq_of_names h hn hm (Node.exists_balanceClause ha hsteps)
      (Node.exists_balanceClause hb hsteps) rfl
      (by rw [Node.tail, Node.tail, if_pos hseveral, if_pos hseveral', heq])
    exact ⟨rfl, Subject.balance.inj hab⟩
  single n hn hseveral m hm hseveral' b hb heq := by
    obtain ⟨a, ha⟩ := List.exists_mem_of_ne_nil _ (Node.outputNames_ne_nil nodes n)
    obtain ⟨rfl, -⟩ := eq_of_title_eq_of_names h hn hm (Node.exists_balanceClause ha hsteps)
      (Node.exists_balanceClause hb hsteps) rfl
      (by rw [Node.tail, Node.tail, if_neg hseveral, if_pos hseveral', heq])
    exact hseveral hseveral'
  proportions n hn side a ha m hm side' b hb heq := by
    obtain ⟨rfl, hab⟩ := eq_of_title_eq_of_names h hn hm (Node.exists_proportionClause ha hsteps)
      (Node.exists_proportionClause hb hsteps) rfl heq
    exact ⟨rfl, Subject.proportion.inj hab⟩

/-- The names of all conditions differ exactly if the titles do. -/
theorem nodup_titles_iff (hw : Wired nodes) (hsteps : 0 < steps) :
    ((clausesOf nodes catalogue hours steps).map fun p => p.2.name).Nodup ↔
      DistinctTitles nodes := by
  have hkeys : ((clausesOf nodes catalogue hours steps).map fun p => (p.1.name, p.2.key)).Nodup :=
    nodup_key_clausesOf hw
  rw [List.nodup_map_iff_inj_on (List.Nodup.of_map _ hkeys)]
  refine ⟨fun h => distinctTitles_of_names hsteps h, fun h p hp q hq heq => ?_⟩
  obtain ⟨hn, hclause⟩ := mem_clausesOf.1 hp
  obtain ⟨hm, hclause'⟩ := mem_clausesOf.1 hq
  have htitles := Node.titles_of_mem_clauses hclause
  have htitles' := Node.titles_of_mem_clauses hclause'
  obtain ⟨⟨hheading, htail⟩, hstep⟩ := (htitles.name_eq_iff htitles').1 heq
  obtain ⟨hname, hsubject⟩ :=
    h.eq_of_title_eq hw.names_nodup hn hm htitles.covers htitles'.covers hheading htail
  exact List.inj_on_of_nodup_map hkeys hp hq (Prod.ext hname (Prod.ext hsubject hstep))

variable {grid : Grid} {config : Config Rat} {net : Network Rat}

theorem Compiled.map_name_constraints {cs : List NodeCommodities} {groups : List (Rows Rat)}
    (hc : Compiled nodes grid config cs groups net) (hbuilt : ∀ n ∈ nodes, n.Built) :
    net.model.constraints.toList.map (·.name) =
      (clausesOf nodes config.catalogue grid.hours grid.size).map fun p => p.2.name :=
  (map_eq_map_of_forall₂ (hc.forall₂_states hbuilt) fun _ _ h => h.1.name.symm).symm

/-- The names of the conditions of a network differ exactly if the titles do. Then each condition is
found under its name. -/
theorem Network.constraint_names_iff (hbuilt : ∀ n ∈ nodes, n.Built)
    (h : Network.build nodes grid config = .ok net) :
    ((net.model.constraints.toList.map (·.name)).Nodup ↔ DistinctTitles nodes) ∧
    (DistinctTitles nodes →
      ∀ c ∈ net.model.constraints, net.model.constraint? c.name = some c) := by
  obtain ⟨cs, groups, hc⟩ := Network.build_eq_ok_iff.1 h
  have hiff : (net.model.constraints.toList.map (·.name)).Nodup ↔ DistinctTitles nodes := by
    rw [hc.map_name_constraints hbuilt]
    exact nodup_titles_iff hc.wired grid.size_pos
  refine ⟨hiff, fun htitles c hmem => ?_⟩
  rw [Model.constraint?, ← Array.find?_toList]
  refine find?_eq_some_of_unique (Array.mem_toList_iff.2 hmem) (decide_eq_true rfl)
    fun d hd hname => ?_
  exact List.inj_on_of_nodup_map (hiff.2 htitles) hd (Array.mem_toList_iff.2 hmem)
    (of_decide_eq_true hname)

end Network

/-! ## Two plants -/

/-- A plant that makes electricity and hydrogen, and another one that takes in the hydrogen. -/
def hydrogenDrafts (name : String) : List (Draft Rat) :=
  [{ name := "plant", role := .generic ⟨[], .single "gas"⟩,
      conversions := some (.ofList [("electricity", ⟨"gas", .plain (1 / 2)⟩),
        ("hydrogen", ⟨"gas", .plain (1 / 4)⟩)]) },
    { name := "grid", role := .generic ⟨["plant"], .single "electricity"⟩ },
    { name := name, role := .generic ⟨["plant"], .single "hydrogen"⟩ }]

theorem distinctTitles_hydrogenDrafts : DistinctTitles (builtNodes (hydrogenDrafts "tanks")) where
  balances := by decide +kernel
  single := by decide +kernel
  proportions n hn side a ha := by
    have hnone : ∀ n ∈ builtNodes (hydrogenDrafts "tanks"), ∀ side ∈ [Direction.input, .output],
        n.comparedKeys side = [] := by
      decide +kernel
    rw [hnone n hn side (by cases side <;> simp)] at ha
    exact absurd ha List.not_mem_nil

/-- If the second plant is named otherwise, each condition is found under its name. -/
theorem constraint_names_of_hydrogenNetwork :
    (∀ n ∈ builtNodes (hydrogenDrafts "tanks"), n.Built) ∧
    ∃ net, Network.build (builtNodes (hydrogenDrafts "tanks")) windGrid .standard = .ok net ∧
      (net.model.constraints.toList.map (·.name)).Nodup ∧
      ∀ c ∈ net.model.constraints, net.model.constraint? c.name = some c := by
  have hbuilt : ∀ n ∈ builtNodes (hydrogenDrafts "tanks"), n.Built := fun _ hn => built_of_mem hn
  obtain ⟨net, h⟩ : ∃ net,
      Network.build (builtNodes (hydrogenDrafts "tanks")) windGrid .standard = .ok net :=
    exists_of_isOk (by decide +kernel)
  obtain ⟨hnodup, hfound⟩ := Network.constraint_names_iff hbuilt h
  exact ⟨hbuilt, net, h, hnodup.2 distinctTitles_hydrogenDrafts,
    hfound distinctTitles_hydrogenDrafts⟩

/-- The balance of the second plant may have the name of that of the hydrogen of the first one, and
then it is not found under it. -/
theorem constraint_names_clash :
    (∀ n ∈ builtNodes (hydrogenDrafts "plant_hydrogen"), n.Built) ∧
    (builtNodes (hydrogenDrafts "plant_hydrogen")).length = 3 ∧
    ∃ net, Network.build (builtNodes (hydrogenDrafts "plant_hydrogen")) windGrid .standard =
        .ok net ∧
      ¬(net.model.constraints.toList.map (·.name)).Nodup ∧
      ∃ c ∈ net.model.constraints, c.name = "inout_flow_balance_plant_hydrogen[0]" ∧
        net.model.constraint? c.name ≠ some c := by
  obtain ⟨net, h⟩ : ∃ net,
      Network.build (builtNodes (hydrogenDrafts "plant_hydrogen")) windGrid .standard = .ok net :=
    exists_of_isOk (by decide +kernel)
  have hclash : (Network.build (builtNodes (hydrogenDrafts "plant_hydrogen")) windGrid
      .standard).toOption.all (fun (net : Network Rat) => decide (
        ¬(net.model.constraints.toList.map (·.name)).Nodup ∧
        ∃ c ∈ net.model.constraints, c.name = "inout_flow_balance_plant_hydrogen[0]" ∧
          net.model.constraint? c.name ≠ some c)) = true := by
    decide +kernel
  rw [h] at hclash
  exact ⟨fun _ hn => built_of_mem hn, by decide +kernel, net, h, of_decide_eq_true hclash⟩

end SupplyNet
