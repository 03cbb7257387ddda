import Mathlib
import SupplyNet.Measure.Catalogue
import SupplyNet.Measure.Quantity
import SupplyNet.Measure.Reader
import SupplyNet.Proofs.Checked
import SupplyNet.Proofs.Keyed

/-!
Formed units: those that come of the known symbols by products, quotients and powers. Whatever is
read is formed, and the scale of a formed unit is positive.
-/
set_option autoImplicit false

namespace SupplyNet.Measure

open Text

variable {K : Type} [Scalar K]

/-- What can be made of the known symbols. -/
inductive Gauge.Formed : Gauge K → Prop
  | one : Formed .one
  | known {symbol : String} {g : Gauge K} (h : Gauge.known? symbol = some g) : Formed g
  | mul {a b g : Gauge K} (ha : Formed a) (hb : Formed b) (h : a.mul? b = some g) : Formed g
  | div {a b g : Gauge K} (ha : Formed a) (hb : Formed b) (h : a.div? b = some g) : Formed g
  | pow {a g : Gauge K} {n : Exponent} (ha : Formed a) (h : a.pow? n = some g) : Formed g

def Unit.Formed (u : Unit K) : Prop := u.toGauge.Formed

/-! ## Reading -/

namespace Reader

theorem inRange_eq_ok_iff {α : Type} {o : Option α} {a : α} : inRange o = .ok a ↔ o = some a := by
  cases o with
  | none => simp [inRange]
  | some b => simp [inRange]

theorem known_eq_ok_iff {symbol : String} {g : Gauge K} :
    known symbol = .ok g ↔ Gauge.known? symbol = some g := by
  unfold known
  cases Gauge.known? (K := K) symbol with
  | none => simp
  | some b => simp

/-- A reading that ends in a formed gauge, if it succeeds. -/
def Forms {α : Type} (x : Except Fault (Gauge K × α)) : Prop :=
  ∀ g r, x = .ok (g, r) → g.Formed

theorem forms_expression {s : List Char} (hterm : Forms (term (K := K) s))
    (hfactors : ∀ (unit : Gauge K) r, unit.Formed → r.length < s.length → Forms (factors unit r)) :
    Forms (expression (K := K) s) := by
  intro g r h
  rw [expression] at h
  obtain ⟨⟨unit, r₁, h₁⟩, ht, h⟩ := bind_eq_ok_iff.1 h
  obtain ⟨⟨unit', r₂, h₂⟩, hf, h⟩ := bind_eq_ok_iff.1 h
  obtain ⟨rfl, -⟩ := Prod.mk.inj (Except.ok.inj h)
  exact hfactors unit r₁ (hterm unit _ ht) h₁ _ _ hf

/-- Every further factor and divisor is formed, so all that is read of them is. -/
theorem forms_factors {unit : Gauge K} {s : List Char} (hunit : unit.Formed)
    (hterm : ∀ r, r.length < s.length → Forms (term (K := K) r))
    (hfactors : ∀ (unit : Gauge K) r, unit.Formed → r.length < s.length → Forms (factors unit r)) :
    Forms (factors unit s) := by
  intro g r h
  have hs := length_skipBlanks_le s
  rw [factors] at h
  split at h
  · next s' hmul =>
    have hlt : s'.length < s.length := by rw [hmul, List.length_cons] at hs; omega
    obtain ⟨⟨rhs, r₁, h₁⟩, ht, h⟩ := bind_eq_ok_iff.1 h
    obtain ⟨product, hp, h⟩ := bind_eq_ok_iff.1 h
    obtain ⟨⟨g', r₂, h₂⟩, hf, h⟩ := bind_eq_ok_iff.1 h
    obtain ⟨rfl, -⟩ := Prod.mk.inj (Except.ok.inj h)
    exact hfactors product r₁ (.mul hunit (hterm s' hlt rhs _ ht) (inRange_eq_ok_iff.1 hp))
      (h₁.trans hlt) _ _ hf
  · next s' hdiv =>
    have hlt : s'.length < s.length := by rw [hdiv, List.length_cons] at hs; omega
    obtain ⟨⟨rhs, r₁, h₁⟩, ht, h⟩ := bind_eq_ok_iff.1 h
    obtain ⟨quotient, hq, h⟩ := bind_eq_ok_iff.1 h
    obtain ⟨⟨g', r₂, h₂⟩, hf, h⟩ := bind_eq_ok_iff.1 h
    obtain ⟨rfl, -⟩ := Prod.mk.inj (Except.ok.inj h)
    exact hfactors quotient r₁ (.div hunit (hterm s' hlt rhs _ ht) (inRange_eq_ok_iff.1 hq))
      (h₁.trans hlt) _ _ hf
  · obtain ⟨rfl, -⟩ := Prod.mk.inj (Except.ok.inj h)
    exact hunit

theorem forms_term {s : List Char} (hatom : Forms (atom (K := K) s)) :
    Forms (term (K := K) s) := by
  intro g r h
  rw [term] at h
  obtain ⟨⟨unit, r₁, h₁⟩, ha, h⟩ := bind_eq_ok_iff.1 h
  dsimp only at h
  split at h
  · obtain ⟨⟨n, r₂, h₂⟩, hn, h⟩ := bind_eq_ok_iff.1 h
    obtain ⟨power, hp, h⟩ := bind_eq_ok_iff.1 h
    obtain ⟨rfl, -⟩ := Prod.mk.inj (Except.ok.inj h)
    exact .pow (hatom unit _ ha) (inRange_eq_ok_iff.1 hp)
  · obtain ⟨rfl, -⟩ := Prod.mk.inj (Except.ok.inj h)
    exact hatom unit _ ha

theorem forms_atom {s : List Char}
    (hexpression : ∀ r, r.length < s.length → Forms (expression (K := K) r)) :
    Forms (atom (K := K) s) := by
  intro g r h
  have hs := length_skipBlanks_le s
  rw [atom] at h
  split at h
  · exact absurd h (by simp)
  · next s' hbracket =>
    have hlt : s'.length < s.length := by rw [hbracket, List.length_cons] at hs; omega
    obtain ⟨⟨unit, r₁, h₁⟩, he, h⟩ := bind_eq_ok_iff.1 h
    dsimp only at h
    split at h
    · obtain ⟨rfl, -⟩ := Prod.mk.inj (Except.ok.inj h)
      exact hexpression s' hlt unit _ he
    · exact absurd h (by simp)
  · obtain ⟨rfl, -⟩ := Prod.mk.inj (Except.ok.inj h)
    exact .one
  · split at h
    · obtain ⟨unit, hu, h⟩ := bind_eq_ok_iff.1 h
      obtain ⟨rfl, -⟩ := Prod.mk.inj (Except.ok.inj h)
      exact .known (known_eq_ok_iff.1 hu)
    · exact absurd h (by simp)

/-- Whatever the reader makes is formed, if the unit before further factors is. -/
theorem forms_all (s : List Char) :
    Forms (expression (K := K) s) ∧ ∀ unit : Gauge K, unit.Formed → Forms (factors unit s) := by
  -- By the length of the text, as an expression begins with a term and an atom of the same text.
  have hatom : ∀ t : List Char, t.length ≤ s.length → Forms (atom (K := K) t) :=
    fun t ht => forms_atom fun r hr => (forms_all r).1
  have hfactors : ∀ (unit : Gauge K) r, unit.Formed → r.length < s.length →
      Forms (factors unit r) :=
    fun unit r hunit hr => (forms_all r).2 unit hunit
  exact ⟨forms_expression (forms_term (hatom s le_rfl)) hfactors,
    fun unit hunit => forms_factors hunit (fun r hr => forms_term (hatom r hr.le)) hfactors⟩
termination_by s.length

theorem formed_of_atom {s : List Char} {g : Gauge K} {r : Rest s} (h : atom s = .ok (g, r)) :
    g.Formed :=
  forms_atom (fun r _ => (forms_all r).1) g r h

theorem formed_of_term {s : List Char} {g : Gauge K} {r : Rest s} (h : term s = .ok (g, r)) :
    g.Formed :=
  forms_term (fun _ _ => formed_of_atom) g r h

theorem formed_of_read {s : List Char} {g : Gauge K} (h : read s = .ok g) : g.Formed := by
  unfold read at h
  obtain ⟨⟨unit, r, hr⟩, he, h⟩ := bind_eq_ok_iff.1 h
  dsimp only at h
  split at h
  · rw [← Except.ok.inj h]
    exact (forms_all s).1 unit _ he
  · exact absurd h (by simp)

end Reader

/-! ## Units -/

namespace Unit

theorem formed_of_read {text : String} {u : Unit K} (h : Unit.read text = .ok u) : u.Formed := by
  unfold Unit.read at h
  split at h
  · next g hg =>
    rw [← Except.ok.inj h]
    exact Reader.formed_of_read hg
  · exact absurd h (by simp)

omit [Scalar K] in
theorem named_eq_ok_iff {symbol : String} {gauge : Option (Gauge K)} {u : Unit K} :
    named symbol gauge = .ok u ↔ gauge = some u.toGauge ∧ u.symbol = symbol := by
  obtain ⟨g, s⟩ := u
  cases gauge with
  | none => simp [named]
  | some g' => simp [named, eq_comm]

/-- A product has the gauge of a product, unless its dimension cannot be counted. -/
theorem mul_eq_ok_iff {a b u : Unit K} : a.mul b = .ok u ↔
    a.toGauge.mul? b.toGauge = some u.toGauge ∧ u.symbol = a.symbol ++ "*" ++ enclosed b.symbol :=
  named_eq_ok_iff

theorem div_eq_ok_iff {a b u : Unit K} : a.div b = .ok u ↔
    a.toGauge.div? b.toGauge = some u.toGauge ∧ u.symbol = a.symbol ++ "/" ++ enclosed b.symbol :=
  named_eq_ok_iff

theorem Formed.mul {a b u : Unit K} (ha : a.Formed) (hb : b.Formed) (h : a.mul b = .ok u) :
    u.Formed :=
  Gauge.Formed.mul ha hb (mul_eq_ok_iff.1 h).1

theorem Formed.div {a b u : Unit K} (ha : a.Formed) (hb : b.Formed) (h : a.div b = .ok u) :
    u.Formed :=
  Gauge.Formed.div ha hb (div_eq_ok_iff.1 h).1

end Unit

/-! ## Scales -/

theorem mulPow_pos (r a : Rat) (n : Nat) (hr : 0 < r) (ha : 0 < a) : 0 < Scalar.mulPow r a n := by
  induction r, a, n using Scalar.mulPow.induct with
  | case1 r a n hn =>
    rw [Scalar.mulPow, if_pos hn]
    split
    · exact mul_pos hr ha
    · exact hr
  | case2 r a n product hn ih =>
    have hproduct : 0 < product := by
      dsimp only [product]
      split
      · exact mul_pos hr ha
      · exact hr
    rw [Scalar.mulPow, if_neg hn]
    exact ih hproduct (mul_pos ha ha)

theorem zpow_pos (a : Rat) (n : Int) (ha : 0 < a) : 0 < Scalar.zpow a n := by
  have hpower : 0 < Scalar.mulPow 1 a n.natAbs := mulPow_pos 1 a n.natAbs one_pos ha
  unfold Scalar.zpow
  dsimp only
  split
  · exact one_div_pos.2 hpower
  · exact hpower

namespace Gauge

theorem scale_pos_of_known {symbol : String} {g : Gauge Rat} (h : known? symbol = some g) :
    0 < g.scale := by
  unfold known? at h
  split at h <;> cases h <;> norm_num

/-- No unit counts nothing or backwards. -/
theorem Formed.scale_pos {g : Gauge Rat} (h : g.Formed) : 0 < g.scale := by
  induction h with
  | one => exact one_pos
  | known h => exact scale_pos_of_known h
  | mul _ _ h ha hb =>
    obtain ⟨d, -, rfl⟩ := Option.map_eq_some_iff.1 h
    exact mul_pos ha hb
  | div _ _ h ha hb =>
    obtain ⟨d, -, rfl⟩ := Option.map_eq_some_iff.1 h
    exact div_pos ha hb
  | pow _ h ha =>
    obtain ⟨d, -, rfl⟩ := Option.map_eq_some_iff.1 h
    exact zpow_pos _ _ ha

end Gauge

end SupplyNet.Measure

/-! ## Quantities and catalogues -/

namespace SupplyNet

variable {K : Type} [Scalar K]

/-- A quantity whose unit is formed, if it has one. -/
def Quantity.Formed (q : Quantity K) : Prop := ∀ unit, q.unit = some unit → unit.Formed

def Catalogue.Formed (catalogue : Catalogue K) : Prop :=
  ∀ e ∈ catalogue.units.entries, e.2.Formed

namespace Catalogue

theorem Formed.of_unitOf {catalogue : Catalogue K} (h : catalogue.Formed) {commodity : String}
    {unit : Measure.Unit K} (hu : catalogue.unitOf commodity = .ok unit) : unit.Formed := by
  unfold unitOf at hu
  split at hu
  · next u hfind =>
    rw [← Except.ok.inj hu]
    exact h _ (Keyed.mem_of_find? hfind)
  · exact absurd hu (by simp)

theorem formed_ofList {l : List (String × Measure.Unit K)} (h : ∀ e ∈ l, e.2.Formed) :
    (⟨.ofList l⟩ : Catalogue K).Formed :=
  Keyed.forall_mem_ofList (P := fun e : String × Measure.Unit K => e.2.Formed) h

theorem formed_megawatt : (megawatt : Measure.Unit K).Formed :=
  .known (show Measure.Gauge.known? "MW" = some _ from rfl)

theorem formed_tonnePerHour : (tonnePerHour : Measure.Unit K).Formed :=
  Measure.Gauge.Formed.div (.known (show Measure.Gauge.known? "t" = some _ from rfl))
    (.known (show Measure.Gauge.known? "h" = some _ from rfl)) rfl

theorem formed_standard : (standard : Catalogue K).Formed := by
  apply formed_ofList
  simp only [List.forall_mem_cons, List.not_mem_nil, false_implies, implies_true, and_true]
  exact ⟨formed_megawatt, formed_tonnePerHour, formed_tonnePerHour, formed_megawatt,
    formed_tonnePerHour⟩

end Catalogue

end SupplyNet
