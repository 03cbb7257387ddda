import Mathlib
import SupplyNet.Measure.Catalogue
import SupplyNet.Proofs.Measure.Formed
import SupplyNet.Proofs.Measure.Grammar

/-!
Symbols denote their units. The symbol of a unit that was read or computed is derived by a phrase
with the gauge of the unit, as brackets stand wherever an operand is more than an atom.
-/
set_option autoImplicit false

namespace SupplyNet.Measure

open Text

namespace Grammar

/-! ## Texts without blanks at their ends -/

def Begins (s : List Char) : Prop := ∃ c r, s = c :: r ∧ isBlank c = false

def Ends (s : List Char) : Prop := ∃ r c, s = r ++ [c] ∧ isBlank c = false

theorem Begins.append {s : List Char} (h : Begins s) (t : List Char) : Begins (s ++ t) := by
  obtain ⟨c, r, rfl, hc⟩ := h
  exact ⟨c, r ++ t, rfl, hc⟩

theorem Ends.append {t : List Char} (h : Ends t) (s : List Char) : Ends (s ++ t) := by
  obtain ⟨r, c, rfl, hc⟩ := h
  exact ⟨s ++ r, c, (List.append_assoc s r [c]).symm, hc⟩

theorem Ends.cons {t : List Char} (h : Ends t) (c : Char) : Ends (c :: t) := h.append [c]

theorem begins_of_forall {s : List Char} (hne : s ≠ []) (h : ∀ c ∈ s, isBlank c = false) :
    Begins s := by
  obtain ⟨c, r, rfl⟩ := List.exists_cons_of_ne_nil hne
  exact ⟨c, r, rfl, h c List.mem_cons_self⟩

theorem ends_of_forall {s : List Char} (hne : s ≠ []) (h : ∀ c ∈ s, isBlank c = false) : Ends s :=
  ⟨s.dropLast, s.getLast hne, (List.dropLast_append_getLast hne).symm, h _ (List.getLast_mem hne)⟩

theorem Begins.skipBlanks {s : List Char} (h : Begins s) : skipBlanks s = s := by
  obtain ⟨c, r, rfl, hc⟩ := h
  exact skipBlanks_cons hc r

/-- Only blanks at the ends are taken away. -/
theorem trim_append {s : List Char} (hb : Begins s) (he : Ends s) (before behind : Blanks) :
    trim (before.1 ++ (s ++ behind.1)) = s := by
  have hbehind : ∀ c ∈ behind.1.reverse, isBlank c = true :=
    fun c hc => behind.2 c (List.mem_reverse.1 hc)
  have hreverse : Begins s.reverse := by
    obtain ⟨r, c, rfl, hc⟩ := he
    exact ⟨c, r.reverse, by simp, hc⟩
  unfold trim
  rw [skipBlanks_append, (hb.append behind.1).skipBlanks, List.reverse_append,
    skipBlanks_append ⟨behind.1.reverse, hbehind⟩, hreverse.skipBlanks, List.reverse_reverse]

def noBlanks : Blanks := ⟨[], fun _ h => absurd h List.not_mem_nil⟩

theorem trim_eq_self {s : List Char} (hb : Begins s) (he : Ends s) : trim s = s := by
  have h := trim_append hb he noBlanks noBlanks
  rwa [noBlanks, List.append_nil, List.nil_append] at h

/-! ## Phrases that begin with a token -/

namespace Phrase

theorem ends {l : Level} (p : Phrase l) : Ends p.text := by
  induction p with
  | symbol before word =>
    exact (ends_of_forall word.2.1 fun c hc => not_isBlank_of_isLetter (word.2.2 c hc)).append _
  | one before => exact ⟨before.1, '1', rfl, rfl⟩
  | bracketed before e behind _ =>
    have hbracket : Ends [')'] := ⟨[], ')', rfl, rfl⟩
    exact (((hbracket.append _).append _).cons _).append _
  | atom a ih => exact ih
  | power a before behind n _ =>
    have hinteger : Ends n.text := by
      have hdigits := ends_of_forall n.digits_ne_nil fun c hc =>
        not_isBlank_of_isDigit (n.isDigit c hc)
      unfold Integer.text
      split
      · exact hdigits.cons '-'
      · exact hdigits
    exact (((hinteger.append _).cons _).append _).append _
  | term t ih => exact ih
  | chain e before op t _ ih => exact ((ih.cons _).append _).append _

/-- Without the blanks before its first token a phrase means the same. -/
theorem exists_begins {K : Type} [Scalar K] {l : Level} (p : Phrase l) :
    ∃ (b : Blanks) (p' : Phrase l),
      p.text = b.1 ++ p'.text ∧ Begins p'.text ∧ p'.gauge (K := K) = p.gauge := by
  induction p with
  | symbol before word =>
    exact ⟨before, .symbol noBlanks word, rfl,
      begins_of_forall word.2.1 fun c hc => not_isBlank_of_isLetter (word.2.2 c hc), rfl⟩
  | one before => exact ⟨before, .one noBlanks, rfl, ⟨'1', [], rfl, rfl⟩, rfl⟩
  | bracketed before e behind _ =>
    exact ⟨before, .bracketed noBlanks e behind, rfl, ⟨'(', _, rfl, rfl⟩, rfl⟩
  | atom a ih =>
    obtain ⟨b, a', htext, hbegins, hgauge⟩ := ih
    exact ⟨b, .atom a', htext, hbegins, hgauge⟩
  | power a before behind n ih =>
    obtain ⟨b, a', htext, hbegins, hgauge⟩ := ih
    exact ⟨b, .power a' before behind n, by simp [htext], hbegins.append _, by simp [hgauge]⟩
  | term t ih =>
    obtain ⟨b, t', htext, hbegins, hgauge⟩ := ih
    exact ⟨b, .term t', htext, hbegins, hgauge⟩
  | chain e before op t ih _ =>
    obtain ⟨b, e', htext, hbegins, hgauge⟩ := ih
    exact ⟨b, .chain e' before op t, by simp [htext], hbegins.append _, by simp [hgauge]⟩

/-! ## Operands -/

/-- A phrase without an operator in its text is an atom. -/
theorem exists_atom {p : Phrase .expression} (h : ∀ c ∈ p.text, c ∉ ['*', '/', '^']) :
    ∃ a : Phrase .atom, p = .term (.atom a) := by
  cases p with
  | term t =>
    cases t with
    | atom a => exact ⟨a, rfl⟩
    | power a before behind n => exact absurd (h '^' (by simp)) (by decide)
  | chain e before op t =>
    have hop := h op.char (by simp)
    cases op <;> exact absurd hop (by decide)

end Phrase

/-- Exponents are written with a sign if they are negative. -/
def Integer.ofExponent (n : Exponent) : Integer where
  negative := decide (n.val < 0)
  digits := Nat.toDigits 10 n.val.natAbs
  digits_ne_nil := Nat.toDigits_ne_nil
  isDigit _ h := Nat.isDigit_of_mem_toDigits (by decide) (by decide) h

namespace Integer

theorem text_ofExponent (n : Exponent) : (ofExponent n).text = (toString n.val).toList := by
  obtain ⟨v, h₁, h₂⟩ := n
  cases v with
  | ofNat m => exact Nat.toList_repr.symm
  | negSucc m =>
    have hnegative : (ofExponent ⟨.negSucc m, h₁, h₂⟩).negative = true :=
      decide_eq_true (Int.negSucc_lt_zero m)
    unfold text
    rw [if_pos hnegative]
    change '-' :: Nat.toDigits 10 (m + 1) = ("-" ++ (m + 1).repr).toList
    rw [String.toList_append, Nat.toList_repr]
    rfl

theorem exponent_ofExponent (n : Exponent) : (ofExponent n).exponent = .ok n := by
  have hvalue : (ofExponent n).value = n.val := by
    unfold value ofExponent
    rw [Nat.ofDigitChars_ten_toDigits]
    simp only [decide_eq_true_eq]
    omega
  unfold exponent
  rw [Exponent.ofInt?_eq_some_iff.2 hvalue]

end Integer

end Grammar

/-! ## Units and their symbols -/

namespace Unit

open Grammar

variable {K : Type} [Scalar K]

/-- The symbol of a unit is derived by a phrase that has the gauge of the unit. -/
def Denoted (u : Unit K) : Prop :=
  ∃ p : Phrase .expression, u.symbol.toList = p.text ∧ Begins p.text ∧ p.gauge = .ok u.toGauge

theorem Denoted.read_symbol {u : Unit K} (h : u.Denoted) : Unit.read u.symbol = .ok u := by
  obtain ⟨p, htext, hbegins, hgauge⟩ := h
  have hderives : p.Derives u.symbol.toList := ⟨noBlanks, by simp [htext, noBlanks]⟩
  have htrim : trim u.symbol.toList = u.symbol.toList := by
    rw [htext]
    exact trim_eq_self hbegins p.ends
  unfold Unit.read
  rw [Reader.read_of_derives hderives, hgauge]
  dsimp only
  rw [htrim, String.ofList_toList]

/-- An operand has the gauge of its unit, in brackets or as an atom. -/
theorem Denoted.enclosed {u : Unit K} (h : u.Denoted) : ∃ a : Phrase .atom,
    (enclosed u.symbol).toList = a.text ∧ Begins a.text ∧ a.gauge = .ok u.toGauge := by
  obtain ⟨p, htext, hbegins, hgauge⟩ := h
  unfold Unit.enclosed
  split
  · refine ⟨.bracketed noBlanks p noBlanks, ?_, ⟨'(', _, rfl, rfl⟩, hgauge⟩
    rw [String.toList_append, String.toList_append, htext]
    simp [noBlanks]
  · next hoperator =>
    have hnone : ∀ c ∈ p.text, c ∉ ['*', '/', '^'] := by
      rw [htext, List.any_eq_true] at hoperator
      exact fun c hc hmem => hoperator ⟨c, hc, by simpa using hmem⟩
    obtain ⟨a, rfl⟩ := Phrase.exists_atom hnone
    exact ⟨a, htext, hbegins, hgauge⟩

theorem denoted_of_read {text : String} {u : Unit K} (h : Unit.read text = .ok u) : u.Denoted := by
  unfold Unit.read at h
  split at h
  · next g hg =>
    obtain rfl := Except.ok.inj h
    obtain ⟨p, ⟨behind, htext⟩, hgauge⟩ := Reader.exists_derives_of_read hg
    obtain ⟨before, p', hp, hbegins, hgauge'⟩ := p.exists_begins (K := K)
    refine ⟨p', ?_, hbegins, hgauge'.trans hgauge⟩
    dsimp only
    rw [String.toList_ofList, htext, hp, List.append_assoc, trim_append hbegins p'.ends]
  · cases h

/-- The left operand stands as it is, as operators of equal rank are read from the left. -/
theorem Denoted.operate {a b u : Unit K} (ha : a.Denoted) (hb : b.Denoted) (op : Operator)
    (hgauge : op.combine? a.toGauge b.toGauge = some u.toGauge)
    (hsymbol : u.symbol = a.symbol ++ String.singleton op.char ++ Unit.enclosed b.symbol) :
    u.Denoted := by
  obtain ⟨e, htext, hbegins, he⟩ := ha
  obtain ⟨c, henclosed, -, hc⟩ := hb.enclosed
  refine ⟨.chain e noBlanks op (.atom c), ?_, hbegins.append _, ?_⟩
  · rw [hsymbol, String.toList_append, String.toList_append, htext, henclosed]
    simp [noBlanks]
  · rw [Phrase.gauge_chain, he, Phrase.gauge_atom, hc]
    exact Reader.inRange_eq_ok_iff.2 hgauge

theorem Denoted.power {a u : Unit K} (ha : a.Denoted) {n : Exponent} (h : a.pow n = .ok u) :
    u.Denoted := by
  obtain ⟨hgauge, hsymbol⟩ := named_eq_ok_iff.1 h
  obtain ⟨c, henclosed, hbegins, hc⟩ := ha.enclosed
  refine ⟨.term (.power c noBlanks noBlanks (.ofExponent n)), ?_, hbegins.append _, ?_⟩
  · rw [hsymbol, String.toList_append, String.toList_append, henclosed]
    simp [noBlanks, Integer.text_ofExponent]
  · rw [Phrase.gauge_term, Phrase.gauge_power, hc, Integer.exponent_ofExponent]
    exact Reader.inRange_eq_ok_iff.2 hgauge

/-! ## Units that are obtained -/

theorem denoted_one : (one : Unit K).Denoted :=
  ⟨.term (.atom (.one noBlanks)), by simp [one, noBlanks], ⟨'1', [], rfl, rfl⟩, rfl⟩

/-- A known symbol denotes what it stands for. -/
theorem denoted_known (word : List Char) {g : Gauge K}
    (hg : Gauge.known? (String.ofList word) = some g) (hne : word ≠ [])
    (hletters : word.all isLetter = true) : (⟨g, String.ofList word⟩ : Unit K).Denoted := by
  have hword := List.all_eq_true.1 hletters
  exact ⟨.term (.atom (.symbol noBlanks ⟨word, hne, hword⟩)), String.toList_ofList,
    begins_of_forall hne fun c hc => not_isBlank_of_isLetter (hword c hc),
    Reader.known_eq_ok_iff.2 hg⟩

theorem denoted_megawatt : (Catalogue.megawatt : Unit K).Denoted :=
  denoted_known ['M', 'W'] rfl (by decide) rfl

theorem denoted_tonnePerHour : (Catalogue.tonnePerHour : Unit K).Denoted := by
  have htonne : (⟨⟨1e3, .ofMass⟩, "t"⟩ : Unit K).Denoted :=
    denoted_known ['t'] rfl (by decide) rfl
  have hhour : (⟨⟨3600.0, .ofTime⟩, "h"⟩ : Unit K).Denoted :=
    denoted_known ['h'] rfl (by decide) rfl
  have hsymbol : "t/h" = "t" ++ String.singleton '/' ++ enclosed "h" := by decide +kernel
  exact htonne.operate hhour .div rfl hsymbol

theorem denoted_standard {commodity : String} {u : Unit K}
    (h : Catalogue.standard.unitOf commodity = .ok u) : u.Denoted := by
  have hall : ∀ e ∈ (Catalogue.standard (K := K)).units.entries, e.2.Denoted := by
    apply Keyed.forall_mem_ofList
    simp only [List.forall_mem_cons, List.not_mem_nil, false_implies, implies_true, and_true]
    exact ⟨denoted_megawatt, denoted_tonnePerHour, denoted_tonnePerHour, denoted_megawatt,
      denoted_tonnePerHour⟩
  unfold Catalogue.unitOf at h
  split at h
  · next u' hfind =>
    rw [← Except.ok.inj h]
    exact hall _ (Keyed.mem_of_find? hfind)
  · cases h

/-- The units that are read, the unit of numbers, the units of the standard catalogue, and what is
computed from them. -/
inductive Obtained : Unit K → Prop
  | read {text : String} {u : Unit K} (h : Unit.read text = .ok u) : Obtained u
  | one : Obtained one
  | standard {commodity : String} {u : Unit K} (h : Catalogue.standard.unitOf commodity = .ok u) :
      Obtained u
  | mul {a b u : Unit K} (ha : Obtained a) (hb : Obtained b) (h : a.mul b = .ok u) : Obtained u
  | div {a b u : Unit K} (ha : Obtained a) (hb : Obtained b) (h : a.div b = .ok u) : Obtained u
  | pow {a u : Unit K} {n : Exponent} (ha : Obtained a) (h : a.pow n = .ok u) : Obtained u

/-- What a unit was computed from can be told from its symbol. -/
theorem Obtained.denoted {u : Unit K} (h : Obtained u) : u.Denoted := by
  induction h with
  | read h => exact denoted_of_read h
  | one => exact denoted_one
  | standard h => exact denoted_standard h
  | mul _ _ h ha hb => exact ha.operate hb .mul (mul_eq_ok_iff.1 h).1 (mul_eq_ok_iff.1 h).2
  | div _ _ h ha hb => exact ha.operate hb .div (div_eq_ok_iff.1 h).1 (div_eq_ok_iff.1 h).2
  | pow _ h ha => exact ha.power h

/-- The symbol of a unit is read as the same unit. -/
theorem read_symbol_of_obtained {u : Unit K} (h : Obtained u) : Unit.read u.symbol = .ok u :=
  h.denoted.read_symbol

/-- Blanks and brackets within a symbol that was read are kept. -/
theorem read_symbol_heatRate : ∃ u : Unit Rat, Obtained u ∧
    u.symbol = "(( kWh )/(t/h))^-2" ∧ Unit.read u.symbol = .ok u := by
  let blank : Blanks := ⟨[' '], List.all_eq_true.1 rfl⟩
  let word : Word := ⟨['k', 'W', 'h'], by decide, List.all_eq_true.1 rfl⟩
  have hread : Unit.read " ( kWh ) " = .ok (⟨⟨3.6e6, .ofEnergy⟩, "( kWh )"⟩ : Unit Rat) := by
    have hderives : (Phrase.term (.atom (.bracketed blank (.term (.atom (.symbol blank word)))
        blank))).Derives " ( kWh ) ".toList := ⟨blank, by decide +kernel⟩
    unfold Unit.read
    rw [Reader.read_of_derives hderives]
    decide +kernel
  have htonne : Catalogue.standard.unitOf "co2" = .ok (Catalogue.tonnePerHour : Unit Rat) := by
    decide +kernel
  have hquotient : (⟨⟨3.6e6, .ofEnergy⟩, "( kWh )"⟩ : Unit Rat).div Catalogue.tonnePerHour =
      .ok ⟨⟨3.6e6 / (1e3 / 3600.0), ⟨.zero, { val := 2 }, { val := -1 }, .zero⟩⟩,
        "( kWh )/(t/h)"⟩ := by decide +kernel
  obtain ⟨u, hpower⟩ : ∃ u, (⟨⟨3.6e6 / (1e3 / 3600.0), ⟨.zero, { val := 2 }, { val := -1 }, .zero⟩⟩,
      "( kWh )/(t/h)"⟩ : Unit Rat).pow { val := -2 } = .ok u := exists_of_isOk rfl
  have hobtained : Obtained u := .pow (.div (.read hread) (.standard htonne) hquotient) hpower
  refine ⟨u, hobtained, ?_, read_symbol_of_obtained hobtained⟩
  rw [(named_eq_ok_iff.1 hpower).2]
  decide +kernel

end Unit

end SupplyNet.Measure
