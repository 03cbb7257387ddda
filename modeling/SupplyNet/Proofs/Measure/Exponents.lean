import Mathlib
import SupplyNet.Proofs.Measure.Symbols

/-!
The range of exponents. Counted with integers, every product, quotient and power of units has its
exponents, and the unit exists if these have eight bits. There is one exception: a divisor with an
exponent of -128 is refused whatever the quotient is, as its negative has more than eight bits.
-/
set_option autoImplicit false

namespace SupplyNet.Measure

namespace Dimension

/-- The exponents as integers, of which there are enough. -/
def exponents (d : Dimension) : Fin 4 → Int := ![d.mass.val, d.length.val, d.time.val, d.currency.val]

/-- Integers of eight bits. -/
def Fit (e : Fin 4 → Int) : Prop := ∀ i, -128 ≤ e i ∧ e i ≤ 127

/-- Integers whose negatives have eight bits if they do themselves. -/
def Reversible (e : Fin 4 → Int) : Prop := ∀ i, e i ≠ -128

instance (e : Fin 4 → Int) : Decidable (Fit e) :=
  inferInstanceAs (Decidable (∀ i, -128 ≤ e i ∧ e i ≤ 127))

instance (e : Fin 4 → Int) : Decidable (Reversible e) :=
  inferInstanceAs (Decidable (∀ i, e i ≠ -128))

theorem fit_exponents (d : Dimension) : Fit d.exponents := by
  intro i
  fin_cases i
  · exact ⟨d.mass.lower, d.mass.upper⟩
  · exact ⟨d.length.lower, d.length.upper⟩
  · exact ⟨d.time.lower, d.time.upper⟩
  · exact ⟨d.currency.lower, d.currency.upper⟩

theorem fit_zero : Fit 0 := by decide

theorem exponents_dimensionless : dimensionless.exponents = 0 := by
  funext i
  fin_cases i <;> rfl

theorem exists_exponents_eq {e : Fin 4 → Int} (h : Fit e) : ∃ d : Dimension, d.exponents = e := by
  refine ⟨⟨⟨e 0, (h 0).1, (h 0).2⟩, ⟨e 1, (h 1).1, (h 1).2⟩, ⟨e 2, (h 2).1, (h 2).2⟩,
    ⟨e 3, (h 3).1, (h 3).2⟩⟩, ?_⟩
  funext i
  fin_cases i <;> rfl

/-- What is counted for each exponent by itself is counted for all of them. -/
theorem zip?_eq_some_iff {f : Exponent → Exponent → Option Exponent} {P : Int → Int → Int → Prop}
    (h : ∀ x y z, f x y = some z ↔ P x.val y.val z.val) {a b c : Dimension} :
    zip? f a b = some c ↔ ∀ i, P (a.exponents i) (b.exponents i) (c.exponents i) := by
  obtain ⟨m, l, t, u⟩ := c
  unfold zip?
  simp only [Option.bind_eq_bind, Option.pure_def, Option.bind_eq_some_iff, Option.some.injEq,
    Dimension.mk.injEq, h]
  constructor
  · rintro ⟨m, hm, l, hl, t, ht, u, hu, rfl, rfl, rfl, rfl⟩ i
    fin_cases i
    · exact hm
    · exact hl
    · exact ht
    · exact hu
  · intro hall
    exact ⟨m, hall 0, l, hall 1, t, hall 2, u, hall 3, rfl, rfl, rfl, rfl⟩

theorem mul?_eq_some_iff {a b c : Dimension} :
    a.mul? b = some c ↔ c.exponents = a.exponents + b.exponents := by
  rw [funext_iff]
  exact zip?_eq_some_iff (P := fun x y z => z = x + y) fun _ _ _ =>
    Exponent.add?_eq_some_iff.trans eq_comm

theorem pow?_eq_some_iff {a c : Dimension} {n : Exponent} :
    a.pow? n = some c ↔ c.exponents = n.val • a.exponents := by
  have hconst : ∀ i, exponents ⟨n, n, n, n⟩ i = n.val := fun i => by fin_cases i <;> rfl
  rw [funext_iff]
  refine (zip?_eq_some_iff (P := fun x y z => z = y * x) fun _ _ _ => ?_).trans ?_
  · rw [Exponent.mul?_eq_some_iff, mul_comm, eq_comm]
  · simp only [hconst, Pi.smul_apply, smul_eq_mul]

end Dimension

theorem Exponent.sub?_eq_some_iff {a b c : Exponent} :
    a.sub? b = some c ↔ b.val ≠ -128 ∧ c.val = a.val - b.val := by
  unfold sub? neg?
  rw [Option.bind_eq_some_iff]
  simp only [ofInt?_eq_some_iff, add?_eq_some_iff]
  constructor
  · rintro ⟨n, hn, hc⟩
    have := n.upper
    omega
  · rintro ⟨hb, hc⟩
    have hlower := b.lower
    have hupper := b.upper
    exact ⟨⟨-b.val, by omega, by omega⟩, rfl, by dsimp only; omega⟩

theorem Dimension.div?_eq_some_iff {a b c : Dimension} :
    a.div? b = some c ↔ Reversible b.exponents ∧ c.exponents = a.exponents - b.exponents := by
  rw [funext_iff, Reversible, ← forall_and]
  exact zip?_eq_some_iff (P := fun x y z => y ≠ -128 ∧ z = x - y) fun _ _ _ =>
    Exponent.sub?_eq_some_iff

/-- A dimension is found under a condition if that holds and its exponents have eight bits. -/
theorem Dimension.exists_iff {o : Option Dimension} {p : Prop} {e : Fin 4 → Int}
    (h : ∀ d, o = some d ↔ p ∧ d.exponents = e) : (∃ d, o = some d) ↔ p ∧ Fit e := by
  simp only [h, exists_and_left]
  refine and_congr_right fun _ => ⟨?_, exists_exponents_eq⟩
  rintro ⟨d, rfl⟩
  exact d.fit_exponents

/-! ## Gauges -/

namespace Gauge

open Dimension

variable {K : Type}

/-- A gauge with the exponents `e` is found if `p` holds and they fit. -/
structure Found (o : Option (Gauge K)) (p : Prop) (e : Fin 4 → Int) : Prop where
  exists_iff : (∃ g, o = some g) ↔ p ∧ Fit e
  exponents_eq : ∀ g, o = some g → g.dimension.exponents = e

theorem found_map {o : Option Dimension} {p : Prop} {e : Fin 4 → Int} (scale : K)
    (h : ∀ d, o = some d ↔ p ∧ d.exponents = e) : Found (o.map (⟨scale, ·⟩)) p e := by
  constructor
  · rw [← Dimension.exists_iff h]
    cases o <;> simp
  · intro g hg
    obtain ⟨d, hd, rfl⟩ := Option.map_eq_some_iff.1 hg
    exact ((h d).1 hd).2

variable [Scalar K]

theorem found_mul? (a b : Gauge K) :
    Found (a.mul? b) True (a.dimension.exponents + b.dimension.exponents) :=
  found_map _ fun _ => Dimension.mul?_eq_some_iff.trans (iff_of_eq (true_and _)).symm

theorem found_div? (a b : Gauge K) : Found (a.div? b) (Reversible b.dimension.exponents)
    (a.dimension.exponents - b.dimension.exponents) :=
  found_map _ fun _ => Dimension.div?_eq_some_iff

theorem found_pow? (a : Gauge K) (n : Exponent) :
    Found (a.pow? n) True (n.val • a.dimension.exponents) :=
  found_map _ fun _ => Dimension.pow?_eq_some_iff.trans (iff_of_eq (true_and _)).symm

end Gauge

/-! ## Units -/

namespace Unit

open Dimension

variable {K : Type}

def exponents (u : Unit K) : Fin 4 → Int := u.dimension.exponents

/-- A computation that gives a unit with certain exponents if these fit, and none otherwise. -/
structure Gives (x : Except UnitError (Unit K)) (e : Fin 4 → Int) : Prop where
  exists_iff : (∃ u, x = .ok u) ↔ Fit e
  exponents_eq : ∀ u, x = .ok u → u.exponents = e

theorem exists_named_iff {symbol : String} {o : Option (Gauge K)} :
    (∃ u, named symbol o = .ok u) ↔ ∃ g, o = some g := by
  cases o <;> simp [named]

/-- The symbol adds nothing to the condition under which there is a unit. -/
theorem gives_named_iff {symbol : String} {o : Option (Gauge K)} {p : Prop} {e : Fin 4 → Int}
    (h : Gauge.Found o p e) : Gives (named symbol o) e ↔ (Fit e → p) := by
  have hexists : (∃ u, named symbol o = .ok u) ↔ p ∧ Fit e := exists_named_iff.trans h.exists_iff
  constructor
  · intro hgives hfit
    exact (hexists.1 (hgives.exists_iff.2 hfit)).1
  · intro hp
    refine ⟨hexists.trans ⟨fun hboth => hboth.2, fun hfit => ⟨hp hfit, hfit⟩⟩, fun u hu => ?_⟩
    exact h.exponents_eq _ (named_eq_ok_iff.1 hu).1

variable [Scalar K]

theorem gives_mul (a b : Unit K) : Gives (a.mul b) (a.exponents + b.exponents) :=
  (gives_named_iff (Gauge.found_mul? _ _)).2 fun _ => trivial

theorem gives_pow (a : Unit K) (n : Exponent) : Gives (a.pow n) (n.val • a.exponents) :=
  (gives_named_iff (Gauge.found_pow? _ _)).2 fun _ => trivial

theorem gives_div_iff (a b : Unit K) : Gives (a.div b) (a.exponents - b.exponents) ↔
    (Fit (a.exponents - b.exponents) → Reversible b.exponents) :=
  gives_named_iff (Gauge.found_div? _ _)

end Unit

/-! ## Phrases -/

namespace Grammar

open Dimension

variable {K : Type} [Scalar K]

namespace Operator

def exponents : Operator → (Fin 4 → Int) → (Fin 4 → Int) → Fin 4 → Int
  | mul => fun a b => a + b
  | div => fun a b => a - b

/-- What may stand behind an operator, whatever stands before it. -/
def Admits : Operator → (Fin 4 → Int) → Prop
  | mul => fun _ => True
  | div => Reversible

theorem found_combine? (op : Operator) (a b : Gauge K) :
    Gauge.Found (op.combine? a b) (op.Admits b.dimension.exponents)
      (op.exponents a.dimension.exponents b.dimension.exponents) := by
  cases op with
  | mul => exact Gauge.found_mul? a b
  | div => exact Gauge.found_div? a b

end Operator

theorem Integer.exists_exponent_iff (n : Integer) :
    (∃ e, n.exponent = .ok e) ↔ -128 ≤ n.value ∧ n.value ≤ 127 := by
  unfold Integer.exponent Exponent.ofInt?
  split
  · next e h => split at h <;> simp_all
  · next h => split at h <;> simp_all

theorem Integer.val_of_exponent {n : Integer} {e : Exponent} (h : n.exponent = .ok e) :
    e.val = n.value := by
  unfold Integer.exponent at h
  split at h
  · next e' he =>
    obtain rfl := Except.ok.inj h
    exact (Exponent.ofInt?_eq_some_iff.1 he).symm
  · cases h

namespace Phrase

variable (K) in
/-- The exponents of a phrase, however many bits they need. What is not known counts as a number. -/
def exponents : {l : Level} → Phrase l → Fin 4 → Int
  | _, symbol _ word =>
    ((Gauge.known? (K := K) (String.ofList word.1)).map (·.dimension.exponents)).getD 0
  | _, one _ => 0
  | _, bracketed _ e _ => e.exponents
  | _, atom a => a.exponents
  | _, power a _ _ n => n.value • a.exponents
  | _, term t => t.exponents
  | _, chain e _ op t => op.exponents e.exponents t.exponents

variable (K) in
/-- All symbols are known, and all integers behind a `^` have eight bits. -/
def Understood : {l : Level} → Phrase l → Prop
  | _, symbol _ word => (Gauge.known? (K := K) (String.ofList word.1)).isSome
  | _, one _ => True
  | _, bracketed _ e _ => e.Understood
  | _, atom a => a.Understood
  | _, power a _ _ n => a.Understood ∧ -128 ≤ n.value ∧ n.value ≤ 127
  | _, term t => t.Understood
  | _, chain e _ _ t => e.Understood ∧ t.Understood

/-- A phrase and all the phrases in it. As expressions lean to the left, what stands before an
operator is one of them. -/
def parts : {l : Level} → Phrase l → List ((l : Level) × Phrase l)
  | _, symbol before word => [⟨_, symbol before word⟩]
  | _, one before => [⟨_, one before⟩]
  | _, bracketed before e behind => ⟨_, bracketed before e behind⟩ :: e.parts
  | _, atom a => ⟨_, atom a⟩ :: a.parts
  | _, power a before behind n => ⟨_, power a before behind n⟩ :: a.parts
  | _, term t => ⟨_, term t⟩ :: t.parts
  | _, chain e before op t => ⟨_, chain e before op t⟩ :: (e.parts ++ t.parts)

/-- The terms that stand behind a `/`. -/
def divisors : {l : Level} → Phrase l → List (Phrase .term)
  | _, symbol _ _ => []
  | _, one _ => []
  | _, bracketed _ e _ => e.divisors
  | _, atom a => a.divisors
  | _, power a _ _ _ => a.divisors
  | _, term t => t.divisors
  | _, chain e _ .mul t => e.divisors ++ t.divisors
  | _, chain e _ .div t => e.divisors ++ t :: t.divisors

variable (K) in
/-- Wherever one looks in a phrase, the exponents fit. -/
def Fits {l : Level} (p : Phrase l) : Prop := ∀ q ∈ p.parts, Fit (q.2.exponents K)

variable (K) in
/-- No divisor has an exponent of -128. -/
def Divides {l : Level} (p : Phrase l) : Prop := ∀ d ∈ p.divisors, Reversible (d.exponents K)

/-! ### What a phrase demands of its parts -/

theorem mem_parts_self {l : Level} (p : Phrase l) : ⟨l, p⟩ ∈ p.parts := by
  cases p <;> exact List.mem_cons_self

theorem Fits.fit {l : Level} {p : Phrase l} (h : p.Fits K) : Fit (p.exponents K) :=
  h _ p.mem_parts_self

theorem fits_symbol (before : Blanks) (word : Word) : (symbol before word).Fits K := by
  intro q hq
  obtain rfl := List.mem_singleton.1 hq
  change Fit (((Gauge.known? (K := K) (String.ofList word.1)).map (·.dimension.exponents)).getD 0)
  cases Gauge.known? (K := K) (String.ofList word.1) with
  | none => exact fit_zero
  | some g => exact g.dimension.fit_exponents

theorem fits_one (before : Blanks) : (one before).Fits K := by
  intro q hq
  obtain rfl := List.mem_singleton.1 hq
  exact fit_zero

theorem fits_bracketed_iff {before behind : Blanks} {e : Phrase .expression} :
    (bracketed before e behind).Fits K ↔ e.Fits K := by
  exact ⟨fun h q hq => h q (List.mem_cons_of_mem _ hq), fun h => List.forall_mem_cons.2 ⟨h.fit, h⟩⟩

theorem fits_atom_iff {a : Phrase .atom} : (atom a).Fits K ↔ a.Fits K := by
  exact ⟨fun h q hq => h q (List.mem_cons_of_mem _ hq), fun h => List.forall_mem_cons.2 ⟨h.fit, h⟩⟩

theorem fits_power_iff {a : Phrase .atom} {before behind : Blanks} {n : Integer} :
    (power a before behind n).Fits K ↔ Fit (n.value • a.exponents K) ∧ a.Fits K := by
  unfold Fits
  rw [parts, List.forall_mem_cons]
  rfl

theorem fits_term_iff {t : Phrase .term} : (term t).Fits K ↔ t.Fits K := by
  exact ⟨fun h q hq => h q (List.mem_cons_of_mem _ hq), fun h => List.forall_mem_cons.2 ⟨h.fit, h⟩⟩

theorem fits_chain_iff {e : Phrase .expression} {before : Blanks} {op : Operator}
    {t : Phrase .term} : (chain e before op t).Fits K ↔
      Fit (op.exponents (e.exponents K) (t.exponents K)) ∧ e.Fits K ∧ t.Fits K := by
  unfold Fits
  rw [parts, List.forall_mem_cons, List.forall_mem_append]
  rfl

theorem divides_chain_iff {e : Phrase .expression} {before : Blanks} {op : Operator}
    {t : Phrase .term} : (chain e before op t).Divides K ↔
      op.Admits (t.exponents K) ∧ e.Divides K ∧ t.Divides K := by
  unfold Divides
  cases op with
  | mul =>
    rw [divisors, List.forall_mem_append]
    exact (iff_of_eq (true_and _)).symm
  | div =>
    rw [divisors, List.forall_mem_append, List.forall_mem_cons]
    exact and_left_comm

/-! ### What a phrase has -/

/-- A phrase has no exponents but its exact ones. -/
theorem exponents_of_gauge {l : Level} {p : Phrase l} {g : Gauge K} (h : p.gauge = .ok g) :
    g.dimension.exponents = p.exponents K := by
  induction p generalizing g with
  | symbol before word =>
    have hknown := Reader.known_eq_ok_iff.1 h
    simp only [exponents, hknown, Option.map_some, Option.getD_some]
  | one before =>
    obtain rfl := Except.ok.inj h
    exact exponents_dimensionless
  | bracketed before e behind ih => exact ih h
  | atom a ih => exact ih h
  | power a before behind n ih =>
    rw [gauge_power] at h
    obtain ⟨b, hb, h⟩ := bind_eq_ok_iff.1 h
    obtain ⟨m, hm, h⟩ := bind_eq_ok_iff.1 h
    rw [(Gauge.found_pow? b m).exponents_eq g (Reader.inRange_eq_ok_iff.1 h), ih hb,
      Integer.val_of_exponent hm]
    rfl
  | term t ih => exact ih h
  | chain e before op t ihe iht =>
    rw [gauge_chain] at h
    obtain ⟨a, ha, h⟩ := bind_eq_ok_iff.1 h
    obtain ⟨b, hb, h⟩ := bind_eq_ok_iff.1 h
    rw [(op.found_combine? a b).exponents_eq g (Reader.inRange_eq_ok_iff.1 h), ihe ha, iht hb]
    rfl

/-- A power has a gauge if its base has one, its integer is an exponent and the product fits. -/
theorem exists_gauge_power_iff {a : Phrase .atom} {before behind : Blanks} {n : Integer} :
    (∃ g, (power a before behind n).gauge (K := K) = .ok g) ↔ (∃ g, a.gauge (K := K) = .ok g) ∧
      (-128 ≤ n.value ∧ n.value ≤ 127) ∧ Fit (n.value • a.exponents K) := by
  rw [gauge_power, ← n.exists_exponent_iff]
  constructor
  · rintro ⟨g, h⟩
    obtain ⟨b, hb, h⟩ := bind_eq_ok_iff.1 h
    obtain ⟨m, hm, h⟩ := bind_eq_ok_iff.1 h
    have hfit := ((Gauge.found_pow? b m).exists_iff.1 ⟨g, Reader.inRange_eq_ok_iff.1 h⟩).2
    rw [exponents_of_gauge hb, Integer.val_of_exponent hm] at hfit
    exact ⟨⟨b, hb⟩, ⟨m, hm⟩, hfit⟩
  · rintro ⟨⟨b, hb⟩, ⟨m, hm⟩, hfit⟩
    rw [← exponents_of_gauge hb, ← Integer.val_of_exponent hm] at hfit
    obtain ⟨g, hg⟩ := (Gauge.found_pow? b m).exists_iff.2 ⟨trivial, hfit⟩
    exact ⟨g, bind_eq_ok_iff.2 ⟨b, hb, bind_eq_ok_iff.2 ⟨m, hm, Reader.inRange_eq_ok_iff.2 hg⟩⟩⟩

theorem exists_gauge_chain_iff {e : Phrase .expression} {before : Blanks} {op : Operator}
    {t : Phrase .term} : (∃ g, (chain e before op t).gauge (K := K) = .ok g) ↔
      (∃ g, e.gauge (K := K) = .ok g) ∧ (∃ g, t.gauge (K := K) = .ok g) ∧
        op.Admits (t.exponents K) ∧ Fit (op.exponents (e.exponents K) (t.exponents K)) := by
  rw [gauge_chain]
  constructor
  · rintro ⟨g, h⟩
    obtain ⟨a, ha, h⟩ := bind_eq_ok_iff.1 h
    obtain ⟨b, hb, h⟩ := bind_eq_ok_iff.1 h
    have hfound := (op.found_combine? a b).exists_iff.1 ⟨g, Reader.inRange_eq_ok_iff.1 h⟩
    rw [exponents_of_gauge ha, exponents_of_gauge hb] at hfound
    exact ⟨⟨a, ha⟩, ⟨b, hb⟩, hfound⟩
  · rintro ⟨⟨a, ha⟩, ⟨b, hb⟩, hfound⟩
    rw [← exponents_of_gauge ha, ← exponents_of_gauge hb] at hfound
    obtain ⟨g, hg⟩ := (op.found_combine? a b).exists_iff.2 hfound
    exact ⟨g, bind_eq_ok_iff.2 ⟨a, ha, bind_eq_ok_iff.2 ⟨b, hb, Reader.inRange_eq_ok_iff.2 hg⟩⟩⟩

variable (K) in
theorem exists_gauge_iff {l : Level} (p : Phrase l) :
    (∃ g, p.gauge (K := K) = .ok g) ↔ p.Understood K ∧ p.Fits K ∧ p.Divides K := by
  induction p with
  | symbol before word =>
    have hgauge : (∃ g, (symbol before word).gauge (K := K) = .ok g) ↔
        (symbol before word).Understood K :=
      (exists_congr fun _ => Reader.known_eq_ok_iff).trans Option.isSome_iff_exists.symm
    rw [hgauge]
    exact ⟨fun h => ⟨h, fits_symbol before word, nofun⟩, And.left⟩
  | one before => exact ⟨fun _ => ⟨trivial, fits_one before, nofun⟩, fun _ => ⟨_, rfl⟩⟩
  | bracketed before e behind ih =>
    rw [fits_bracketed_iff]
    exact ih
  | atom a ih =>
    rw [fits_atom_iff]
    exact ih
  | power a before behind n ih =>
    rw [exists_gauge_power_iff, ih, fits_power_iff]
    simp only [Understood, Divides, divisors]
    tauto
  | term t ih =>
    rw [fits_term_iff]
    exact ih
  | chain e before op t ihe iht =>
    rw [exists_gauge_chain_iff, ihe, iht, fits_chain_iff, divides_chain_iff]
    simp only [Understood]
    tauto

end Phrase

end Grammar

namespace Unit

open Dimension Grammar

/-! ## When units are computed -/

variable {K : Type} [Scalar K]

theorem read_eq_ok_iff {text : String} {u : Unit K} : Unit.read text = .ok u ↔
    Reader.read text.toList = .ok u.toGauge ∧ u.symbol = String.ofList (Text.trim text.toList) := by
  obtain ⟨g, symbol⟩ := u
  unfold Unit.read
  cases Reader.read (K := K) text.toList with
  | error fault => simp
  | ok g' => simp [eq_comm]

theorem exists_read_iff {text : String} :
    (∃ u : Unit K, Unit.read text = .ok u) ↔ ∃ g : Gauge K, Reader.read text.toList = .ok g := by
  simp only [read_eq_ok_iff]
  exact ⟨fun ⟨u, hu⟩ => ⟨u.toGauge, hu.1⟩, fun ⟨g, hg⟩ => ⟨⟨g, _⟩, hg, rfl⟩⟩

variable (K) in
/-- A product or a power of units exists if its exponents fit, and has these exponents. So it is
with a quotient, unless its divisor has an exponent of -128 while those of the quotient fit; and a
text is read if its symbols and integers are understood, all exponents fit wherever one looks in it,
and it has no such divisor. -/
theorem computed_iff_fit :
    (∀ a b : Unit K, Gives (a.mul b) (a.exponents + b.exponents)) ∧
    (∀ (a : Unit K) (n : Exponent), Gives (a.pow n) (n.val • a.exponents)) ∧
    (∀ a b : Unit K, Gives (a.div b) (a.exponents - b.exponents) ↔
      (Fit (a.exponents - b.exponents) → Reversible b.exponents)) ∧
    ∀ (text : String) (p : Phrase .expression), p.Derives text.toList →
      ((∃ u : Unit K, Unit.read text = .ok u) ↔ p.Understood K ∧ p.Fits K ∧ p.Divides K) ∧
      ∀ u : Unit K, Unit.read text = .ok u → u.exponents = p.exponents K := by
  refine ⟨gives_mul, gives_pow, gives_div_iff, fun text p hp => ?_⟩
  constructor
  · rw [exists_read_iff, Reader.read_of_derives hp]
    exact p.exists_gauge_iff K
  · intro u hu
    rw [read_eq_ok_iff, Reader.read_of_derives hp] at hu
    exact Phrase.exponents_of_gauge hu.1

theorem read_costPerFlow : ∃ u : Unit Rat, Unit.read "EUR/(t/h)" = .ok u ∧
    u.exponents = ![-1, 0, 1, 1] := by
  let word (w : List Char) (hne : w ≠ []) (hw : w.all Text.isLetter = true) : Phrase .term :=
    .atom (.symbol noBlanks ⟨w, hne, List.all_eq_true.1 hw⟩)
  let p : Phrase .expression :=
    .chain (.term (word ['E', 'U', 'R'] (by decide) rfl)) noBlanks .div
      (.atom (.bracketed noBlanks (.chain (.term (word ['t'] (by decide) rfl)) noBlanks .div
        (word ['h'] (by decide) rfl)) noBlanks))
  have hp : p.Derives "EUR/(t/h)".toList := ⟨noBlanks, by decide +kernel⟩
  obtain ⟨hiff, hexponents⟩ := (computed_iff_fit Rat).2.2.2 _ p hp
  have hunderstood : p.Understood Rat := by
    simp only [Phrase.Understood, p, word]
    decide +kernel
  have hfits : p.Fits Rat := by
    unfold Phrase.Fits
    decide +kernel
  have hdivides : p.Divides Rat := by
    unfold Phrase.Divides
    decide +kernel
  obtain ⟨u, hu⟩ := hiff.2 ⟨hunderstood, hfits, hdivides⟩
  refine ⟨u, hu, ?_⟩
  rw [hexponents u hu]
  decide +kernel

/-- The exponent of the quotient would be 127, but the divisor has the exponent -128. -/
theorem refused_perMetre : ∃ a b : Unit Rat,
    Unit.read "m^-1" = .ok a ∧ Unit.read "m^-128" = .ok b ∧
    a.exponents - b.exponents = ![0, 127, 0, 0] ∧
    a.div b = .error (.exponentOutOfRange "m^-1/(m^-128)") ∧
    ¬Gives (a.div b) (a.exponents - b.exponents) ∧
    ∃ p : Phrase .expression, p.Derives "m^-1/m^-128".toList ∧ p.Understood Rat ∧ p.Fits Rat ∧
      Unit.read (K := Rat) "m^-1/m^-128" = .error (.malformed "m^-1/m^-128" .exponentOutOfRange) := by
  let metre : Phrase .atom := .symbol noBlanks ⟨['m'], by decide, List.all_eq_true.1 rfl⟩
  let power (n : Exponent) : Phrase .term := .power metre noBlanks noBlanks (.ofExponent n)
  let quotient : Phrase .expression :=
    .chain (.term (power { val := -1 })) noBlanks .div (power { val := -128 })
  have hread₁ : Unit.read "m^-1" =
      .ok (⟨⟨1, { Dimension.dimensionless with length := { val := -1 } }⟩, "m^-1"⟩ : Unit Rat) := by
    have hderives : (Phrase.term (power { val := -1 })).Derives "m^-1".toList :=
      ⟨noBlanks, by decide +kernel⟩
    unfold Unit.read
    rw [Reader.read_of_derives hderives]
    decide +kernel
  have hread₂ : Unit.read "m^-128" = .ok
      (⟨⟨1, { Dimension.dimensionless with length := { val := -128 } }⟩, "m^-128"⟩ : Unit Rat) := by
    have hderives : (Phrase.term (power { val := -128 })).Derives "m^-128".toList :=
      ⟨noBlanks, by decide +kernel⟩
    unfold Unit.read
    rw [Reader.read_of_derives hderives]
    decide +kernel
  have hderives : quotient.Derives "m^-1/m^-128".toList := ⟨noBlanks, by decide +kernel⟩
  refine ⟨_, _, hread₁, hread₂, by decide +kernel, by decide +kernel, fun h => ?_, quotient,
    hderives, ?_, ?_, ?_⟩
  · have hlimit := (gives_div_iff _ _).1 h (by decide +kernel) 1
    exact hlimit rfl
  · simp only [Phrase.Understood, quotient, power, metre]
    decide +kernel
  · unfold Phrase.Fits
    decide +kernel
  · unfold Unit.read
    rw [Reader.read_of_derives hderives]
    decide +kernel

end Unit

end SupplyNet.Measure
