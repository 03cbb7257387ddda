import Mathlib
import SupplyNet.Error
import SupplyNet.Measure.Reader
import SupplyNet.Proofs.Checked

/-!
The grammar of units. A phrase is a derivation with all its characters, blanks included, and it has
a gauge if its symbols are known, its exponents have eight bits and no dimension leaves its range.
The reader accepts the texts of the phrases that have a gauge, and no others.
-/
set_option autoImplicit false

namespace SupplyNet.Measure

open Text

/-! ## Phrases -/

namespace Grammar

/-- Blanks may stand before each token and behind the last one. -/
abbrev Blanks := { b : List Char // ∀ c ∈ b, isBlank c = true }

/-- The letters of a symbol, without blanks between them. -/
abbrev Word := { w : List Char // w ≠ [] ∧ ∀ c ∈ w, isLetter c = true }

/-- A sign and digits, without blanks between them. Leading zeros are allowed. -/
structure Integer where
  negative : Bool
  digits : List Char
  digits_ne_nil : digits ≠ []
  isDigit : ∀ c ∈ digits, c.isDigit = true

namespace Integer

def text (n : Integer) : List Char := if n.negative then '-' :: n.digits else n.digits

def value (n : Integer) : Int :=
  if n.negative then -Nat.ofDigitChars 10 n.digits 0 else Nat.ofDigitChars 10 n.digits 0

def exponent (n : Integer) : Except Fault Exponent :=
  match Exponent.ofInt? n.value with
  | some e => .ok e
  | none => .error .exponentExpected

end Integer

inductive Operator
  | mul
  | div

namespace Operator

def char : Operator → Char
  | mul => '*'
  | div => '/'

def combine? {K : Type} [Scalar K] : Operator → Gauge K → Gauge K → Option (Gauge K)
  | mul => Gauge.mul?
  | div => Gauge.div?

end Operator

inductive Level
  | atom
  | term
  | expression

/-- The derivations of each level. Those of expressions lean to the left. -/
inductive Phrase : Level → Type
  | symbol (before : Blanks) (word : Word) : Phrase .atom
  | one (before : Blanks) : Phrase .atom
  | bracketed (before : Blanks) (e : Phrase .expression) (behind : Blanks) : Phrase .atom
  | atom (a : Phrase .atom) : Phrase .term
  | power (a : Phrase .atom) (before behind : Blanks) (n : Integer) : Phrase .term
  | term (t : Phrase .term) : Phrase .expression
  | chain (e : Phrase .expression) (before : Blanks) (op : Operator) (t : Phrase .term) :
      Phrase .expression

namespace Phrase

def text : {l : Level} → Phrase l → List Char
  | _, symbol before word => before.1 ++ word.1
  | _, one before => before.1 ++ ['1']
  | _, bracketed before e behind => before.1 ++ '(' :: (e.text ++ (behind.1 ++ [')']))
  | _, atom a => a.text
  | _, power a before behind n => a.text ++ (before.1 ++ '^' :: (behind.1 ++ n.text))
  | _, term t => t.text
  | _, chain e before op t => e.text ++ (before.1 ++ op.char :: t.text)

/-- What a phrase amounts to, or its first fault from the left. -/
def gauge {K : Type} [Scalar K] : {l : Level} → Phrase l → Except Fault (Gauge K)
  | _, symbol _ word => Reader.known (String.ofList word.1)
  | _, one _ => .ok .one
  | _, bracketed _ e _ => e.gauge
  | _, atom a => a.gauge
  | _, power a _ _ n => do
    let g ← a.gauge
    let e ← n.exponent
    Reader.inRange (g.pow? e)
  | _, term t => t.gauge
  | _, chain e _ op t => do
    let g ← e.gauge
    let h ← t.gauge
    Reader.inRange (op.combine? g h)

section Texts

variable (a : Phrase .atom) (t : Phrase .term) (e : Phrase .expression) (before behind : Blanks)

@[simp]
theorem text_symbol (word : Word) : (symbol before word).text = before.1 ++ word.1 := rfl

@[simp]
theorem text_one : (one before).text = before.1 ++ ['1'] := rfl

@[simp]
theorem text_bracketed : (bracketed before e behind).text =
    before.1 ++ '(' :: (e.text ++ (behind.1 ++ [')'])) := rfl

@[simp]
theorem text_atom : (atom a).text = a.text := rfl

@[simp]
theorem text_power (n : Integer) : (power a before behind n).text =
    a.text ++ (before.1 ++ '^' :: (behind.1 ++ n.text)) := rfl

@[simp]
theorem text_term : (term t).text = t.text := rfl

@[simp]
theorem text_chain (op : Operator) : (chain e before op t).text =
    e.text ++ (before.1 ++ op.char :: t.text) := rfl

end Texts

section Gauges

variable {K : Type} [Scalar K] (a : Phrase .atom) (t : Phrase .term) (e : Phrase .expression)
  (before behind : Blanks)

@[simp]
theorem gauge_bracketed : (bracketed before e behind).gauge (K := K) = e.gauge := rfl

@[simp]
theorem gauge_atom : (atom a).gauge (K := K) = a.gauge := rfl

@[simp]
theorem gauge_power (n : Integer) : (power a before behind n).gauge (K := K) =
    a.gauge >>= fun g => n.exponent >>= fun e => Reader.inRange (g.pow? e) := rfl

@[simp]
theorem gauge_term : (term t).gauge (K := K) = t.gauge := rfl

@[simp]
theorem gauge_chain (op : Operator) : (chain e before op t).gauge (K := K) =
    e.gauge >>= fun g => t.gauge >>= fun h => Reader.inRange (op.combine? g h) := rfl

end Gauges

/-- A text is derived by a phrase if there are only blanks behind it. -/
def Derives (p : Phrase .expression) (s : List Char) : Prop := ∃ b : Blanks, s = p.text ++ b.1

end Phrase

end Grammar

/-! ## Characters -/

namespace Grammar

theorem not_isLetter_of_isBlank {c : Char} (h : isBlank c = true) : isLetter c = false := by
  -- Outside ASCII, no run of letters meets one of blanks.
  have hruns : letterRuns.all (fun run => 0x3000 < run.1 ||
      [(0x85, 0x85), (0xA0, 0xA0), (0x1680, 0x1680), (0x2000, 0x200A), (0x2028, 0x2029),
        (0x202F, 0x202F), (0x205F, 0x205F), (0x3000, 0x3000)].all fun blank =>
          run.2 < blank.1 || blank.2 < run.1) = true := by
    decide +kernel
  simp only [isBlank, Bool.or_eq_true, Bool.and_eq_true, decide_eq_true_eq] at h
  unfold isLetter
  split
  · simp only [Char.isAlpha, Char.isUpper, Char.isLower, UInt32.le_iff_toNat_le,
      Bool.or_eq_false_iff, Bool.and_eq_false_iff, decide_eq_false_iff_not]
    change ¬(65 ≤ c.toNat ∧ c.toNat ≤ 90) ∧ (¬97 ≤ c.toNat ∨ ¬c.toNat ≤ 122)
    omega
  · rw [List.any_eq_false]
    intro run hrun
    have hrun := List.all_eq_true.1 hruns run hrun
    simp only [List.all_cons, List.all_nil, Bool.and_true, Bool.or_eq_true, Bool.and_eq_true,
      decide_eq_true_eq] at hrun ⊢
    omega

theorem not_isBlank_of_isLetter {c : Char} (h : isLetter c = true) : isBlank c = false := by
  by_contra hb
  rw [not_isLetter_of_isBlank (Bool.not_eq_false _ ▸ hb)] at h
  exact absurd h Bool.false_ne_true

theorem exists_digit {c : Char} (h : c.isDigit = true) : ∃ d < 10, c = Char.ofNat (48 + d) := by
  have hle : 48 ≤ c.toNat ∧ c.toNat ≤ 57 := by simpa [Char.isDigit_iff_toNat] using h
  exact ⟨c.toNat - 48, by omega, by rw [Nat.add_sub_of_le hle.1, Char.ofNat_toNat]⟩

theorem not_isBlank_of_isDigit {c : Char} (h : c.isDigit = true) : isBlank c = false := by
  obtain ⟨d, hd, rfl⟩ := exists_digit h
  interval_cases d <;> rfl

theorem skipBlanks_append (b : Blanks) (s : List Char) : skipBlanks (b.1 ++ s) = skipBlanks s :=
  List.dropWhile_append_of_pos b.2

theorem skipBlanks_cons {c : Char} (h : isBlank c = false) (s : List Char) :
    skipBlanks (c :: s) = c :: s := by
  simp [skipBlanks, h]

theorem exists_blanks (s : List Char) : ∃ b : Blanks, s = b.1 ++ skipBlanks s :=
  ⟨⟨s.takeWhile isBlank, fun _ h => List.mem_takeWhile_imp h⟩, List.takeWhile_append_dropWhile.symm⟩

theorem Integer.skipBlanks_text (n : Integer) (s : List Char) :
    skipBlanks (n.text ++ s) = n.text ++ s := by
  obtain ⟨negative, digits, hne, hdigits⟩ := n
  unfold Integer.text
  cases negative with
  | true => rfl
  | false =>
    cases digits with
    | nil => exact absurd rfl hne
    | cons c digits =>
      exact skipBlanks_cons (not_isBlank_of_isDigit (hdigits c List.mem_cons_self)) _

/-- A text that a symbol does not go on with. -/
def EndsWord (s : List Char) : Prop := ∀ c ∈ s.head?, isLetter c = false

/-- A text that goes on with an operator between terms or with a closing bracket, if at all. -/
def EndsTerm (s : List Char) : Prop := ∀ c ∈ (skipBlanks s).head?, c = '*' ∨ c = '/' ∨ c = ')'

/-- What stands behind a token begins with a blank or with the next token. -/
theorem head?_append {b : Blanks} {s : List Char} {c : Char} (h : c ∈ (b.1 ++ s).head?) :
    isBlank c = true ∨ c ∈ s.head? := by
  obtain ⟨b, hb⟩ := b
  cases b with
  | nil => exact .inr h
  | cons a b =>
    obtain rfl := Option.some.inj h
    exact .inl (hb _ List.mem_cons_self)

theorem EndsTerm.endsWord {s : List Char} (h : EndsTerm s) : EndsWord s := by
  obtain ⟨b, hb⟩ := exists_blanks s
  intro c hc
  rw [hb] at hc
  rcases head?_append hc with hblank | hc
  · exact not_isLetter_of_isBlank hblank
  · rcases h c hc with rfl | rfl | rfl <;> rfl

theorem EndsTerm.not_digit {s : List Char} (h : EndsTerm s) : ∀ c ∈ s.head?, c.isDigit = false := by
  obtain ⟨b, hb⟩ := exists_blanks s
  intro c hc
  rw [hb] at hc
  rcases head?_append hc with hblank | hc
  · by_contra hd
    rw [not_isBlank_of_isDigit (Bool.not_eq_false _ ▸ hd)] at hblank
    exact absurd hblank Bool.false_ne_true
  · rcases h c hc with rfl | rfl | rfl <;> rfl

theorem EndsTerm.not_caret {s s' : List Char} (h : EndsTerm s) : skipBlanks s ≠ '^' :: s' := by
  intro hs
  rcases h '^' (by rw [hs]; rfl) with hc | hc | hc <;> exact absurd hc (by decide)

theorem endsWord_append {b : Blanks} {c : Char} {s : List Char} (h : isLetter c = false) :
    EndsWord (b.1 ++ c :: s) := by
  intro d hd
  rcases head?_append hd with hblank | hd
  · exact not_isLetter_of_isBlank hblank
  · obtain rfl := Option.some.inj hd
    exact h

theorem endsTerm_append {b : Blanks} {c : Char} {s : List Char} (h : c = '*' ∨ c = '/' ∨ c = ')') :
    EndsTerm (b.1 ++ c :: s) := by
  have hblank : isBlank c = false := by rcases h with rfl | rfl | rfl <;> rfl
  intro d hd
  rw [skipBlanks_append, skipBlanks_cons hblank] at hd
  obtain rfl := Option.some.inj hd
  exact h

theorem endsTerm_blanks (b : Blanks) : EndsTerm b.1 := by
  intro c hc
  have hnil : skipBlanks b.1 = [] := by simpa [skipBlanks] using b.2
  rw [hnil] at hc
  cases hc

end Grammar

/-! ## The reader without the lengths of its rests -/

namespace Reader

open Grammar

variable {K : Type} [Scalar K] {α β : Type}

/-- What was read and what remains, whatever is known of the length. -/
def bare {p : List Char → Prop} (x : Except Fault (α × { r : List Char // p r })) :
    Except Fault (α × List Char) :=
  x.map fun y => (y.1, y.2.1)

theorem bare_bind {p : List Char → Prop} (x : Except Fault β)
    (f : β → Except Fault (α × { r : List Char // p r })) :
    bare (x >>= f) = x >>= fun b => bare (f b) := by
  cases x <;> rfl

/-- What comes after a part was read may depend on all but the length of the rest. -/
theorem bare_bind_rest {p q : List Char → Prop} {x : Except Fault (β × { r : List Char // p r })}
    {f : β × { r : List Char // p r } → Except Fault (α × { r : List Char // q r })}
    {f' : β × List Char → Except Fault (α × List Char)}
    (h : ∀ b r hr, bare (f (b, ⟨r, hr⟩)) = f' (b, r)) : bare (x >>= f) = bare x >>= f' := by
  cases x with
  | error e => rfl
  | ok y => exact h y.1 y.2.1 y.2.2

theorem bare_bind_return {p q : List Char → Prop} {x : Except Fault (α × { r : List Char // p r })}
    {f : α × { r : List Char // p r } → Except Fault (α × { r : List Char // q r })}
    (h : ∀ a r hr, bare (f (a, ⟨r, hr⟩)) = .ok (a, r)) : bare (x >>= f) = bare x := by
  cases x with
  | error e => rfl
  | ok y => exact h y.1 y.2.1 y.2.2

/-! ### Integers -/

theorem bare_exponent (s : List Char) : bare (exponent s) =
    let negative := s.head? = some '-'
    let t := if negative then s.tail else s
    let digits := t.takeWhile Char.isDigit
    let value : Int := digitsValue digits
    match if digits = [] then none else Exponent.ofInt? (if negative then -value else value) with
    | none => .error .exponentExpected
    | some n => .ok (n, t.dropWhile Char.isDigit) := by
  unfold exponent
  dsimp only
  split <;> simp only [bare, Except.map, *]

theorem bare_exponent_of_integer (n : Integer) {r : List Char}
    (hr : ∀ c ∈ r.head?, c.isDigit = false) :
    bare (exponent (n.text ++ r)) = n.exponent.map (·, r) := by
  obtain ⟨negative, digits, hne, hdigits⟩ := n
  have hstop : r.takeWhile Char.isDigit = [] ∧ r.dropWhile Char.isDigit = r := by
    cases r with
    | nil => exact ⟨rfl, rfl⟩
    | cons c r => simp [hr c rfl]
  have htake : (digits ++ r).takeWhile Char.isDigit = digits := by
    rw [List.takeWhile_append_of_pos hdigits, hstop.1, List.append_nil]
  have hdrop : (digits ++ r).dropWhile Char.isDigit = r := by
    rw [List.dropWhile_append_of_pos hdigits, hstop.2]
  have hsign : (digits ++ r).head? ≠ some '-' := by
    cases digits with
    | nil => exact absurd rfl hne
    | cons c digits =>
      rintro ⟨⟩
      exact absurd (hdigits '-' List.mem_cons_self) (by decide)
  have hvalue : digitsValue digits = Nat.ofDigitChars 10 digits 0 := rfl
  rw [bare_exponent]
  unfold Integer.exponent Integer.value Integer.text
  cases negative with
  | true =>
    simp only [if_true, List.cons_append, List.head?_cons, List.tail_cons, htake, hdrop, hne,
      if_false, hvalue]
    cases Exponent.ofInt? (-(Nat.ofDigitChars 10 digits 0 : Int)) <;> rfl
  | false =>
    simp only [Bool.false_eq_true, if_false, hsign, htake, hdrop, hne, hvalue]
    cases Exponent.ofInt? (Nat.ofDigitChars 10 digits 0 : Int) <;> rfl

theorem exists_integer {s r : List Char} {e : Exponent} (h : bare (exponent s) = .ok (e, r)) :
    ∃ n : Integer, s = n.text ++ r ∧ n.exponent = .ok e := by
  have hsplit : ∃ (negative : Bool) (t : List Char), s = (if negative then ['-'] else []) ++ t ∧
      t = if s.head? = some '-' then s.tail else s := by
    cases s with
    | nil => exact ⟨false, [], rfl, rfl⟩
    | cons c s =>
      by_cases hc : c = '-'
      · exact ⟨true, s, by simp [hc], by simp [hc]⟩
      · exact ⟨false, c :: s, rfl, by simp [hc]⟩
  obtain ⟨negative, t, hs, ht⟩ := hsplit
  have hdigits : t.takeWhile Char.isDigit ≠ [] := by
    intro hnil
    rw [bare_exponent] at h
    simp only [← ht, hnil, if_true] at h
    cases h
  let n : Integer := ⟨negative, t.takeWhile Char.isDigit, hdigits,
    fun _ hc => List.mem_takeWhile_imp hc⟩
  have htext : s = n.text ++ t.dropWhile Char.isDigit := by
    have happend : t.takeWhile Char.isDigit ++ t.dropWhile Char.isDigit = t :=
      List.takeWhile_append_dropWhile
    rw [hs]
    unfold Integer.text
    cases negative <;> simp [n, happend]
  have hrest : ∀ c ∈ (t.dropWhile Char.isDigit).head?, c.isDigit = false := by
    intro c hc
    have hnot := List.head?_dropWhile_not Char.isDigit t
    rwa [Option.mem_def.1 hc] at hnot
  rw [htext, bare_exponent_of_integer n hrest] at h
  obtain ⟨e', he, hr⟩ := map_eq_ok_iff.1 h
  obtain ⟨rfl, rfl⟩ := Prod.mk.inj hr
  exact ⟨n, htext, he⟩

/-! ### Expressions, terms and atoms -/

variable (K) in
theorem bare_expression (s : List Char) : bare (expression (K := K) s) =
    bare (term s) >>= fun y => bare (factors y.1 y.2) := by
  rw [expression]
  exact bare_bind_rest fun g r hr => bare_bind_return fun _ _ _ => rfl

theorem bare_factors_operator {g : Gauge K} {s s' : List Char} {op : Operator}
    (h : skipBlanks s = op.char :: s') : bare (factors g s) =
      bare (term s') >>= fun y => inRange (op.combine? g y.1) >>= fun p =>
        bare (factors p y.2) := by
  rw [factors]
  split
  · next s'' hs =>
    cases op with
    | div => rw [hs] at h; cases h
    | mul =>
      obtain rfl := (List.cons.inj (hs.symm.trans h)).2
      exact bare_bind_rest fun _ _ _ =>
        (bare_bind _ _).trans (bind_congr fun _ => bare_bind_return fun _ _ _ => rfl)
  · next s'' hs =>
    cases op with
    | mul => rw [hs] at h; cases h
    | div =>
      obtain rfl := (List.cons.inj (hs.symm.trans h)).2
      exact bare_bind_rest fun _ _ _ =>
        (bare_bind _ _).trans (bind_congr fun _ => bare_bind_return fun _ _ _ => rfl)
  · next hmul hdiv =>
    cases op with
    | mul => exact absurd h (hmul s')
    | div => exact absurd h (hdiv s')

theorem bare_factors_end {g : Gauge K} {s : List Char}
    (h : ∀ (op : Operator) s', skipBlanks s ≠ op.char :: s') : bare (factors g s) = .ok (g, s) := by
  rw [factors]
  split
  · next s' hs => exact absurd hs (h .mul s')
  · next s' hs => exact absurd hs (h .div s')
  · rfl

variable (K) in
theorem bare_term (s : List Char) : bare (term (K := K) s) = bare (atom s) >>= fun y =>
    match skipBlanks y.2 with
    | '^' :: r => bare (exponent (skipBlanks r)) >>= fun z =>
      inRange (y.1.pow? z.1) >>= fun g => .ok (g, z.2)
    | _ => .ok (y.1, y.2) := by
  rw [term]
  refine bare_bind_rest fun g r hr => ?_
  dsimp only
  split
  · next r' h =>
    split
    · next r'' h' =>
      obtain rfl := (List.cons.inj (h.symm.trans h')).2
      exact bare_bind_rest fun _ _ _ => bare_bind _ _
    · next h' => exact absurd h (h' r')
  · next h =>
    split
    · next r' h' => exact absurd h' (h r')
    · rfl

theorem bare_term_power {s r s' : List Char} {g : Gauge K} (h : bare (atom s) = .ok (g, r))
    (hr : skipBlanks r = '^' :: s') :
    bare (term s) = bare (exponent (skipBlanks s')) >>= fun z =>
      inRange (g.pow? z.1) >>= fun p => .ok (p, z.2) := by
  rw [bare_term, h]
  change (match skipBlanks r with | '^' :: _ => _ | _ => _) = _
  rw [hr]
  rfl

theorem bare_term_atom {s r : List Char} {g : Gauge K} (h : bare (atom s) = .ok (g, r))
    (hr : ∀ s', skipBlanks r ≠ '^' :: s') : bare (term s) = .ok (g, r) := by
  rw [bare_term, h]
  change (match skipBlanks r with | '^' :: _ => _ | _ => _) = _
  split
  · next s' hs => exact absurd hs (hr s')
  · rfl

theorem bare_atom_bracketed {s s' : List Char} (h : skipBlanks s = '(' :: s') :
    bare (atom (K := K) s) = bare (expression s') >>= fun y =>
      match skipBlanks y.2 with
      | ')' :: r => .ok (y.1, r)
      | _ => .error .bracketMissing := by
  rw [atom]
  split
  · next hs => rw [hs] at h; cases h
  · next s'' hs =>
    obtain rfl := (List.cons.inj (hs.symm.trans h)).2
    refine bare_bind_rest fun g r hr => ?_
    dsimp only
    split
    · next r' h' =>
      split
      · next r'' h'' =>
        obtain rfl := (List.cons.inj (h'.symm.trans h'')).2
        rfl
      · next h'' => exact absurd h' (h'' r')
    · next h' =>
      split
      · next r' h'' => exact absurd h'' (h' r')
      · rfl
  · next s'' hs => rw [hs] at h; cases h
  · next c s'' hbracket _ hs => exact absurd (List.cons.inj (hs.symm.trans h)).1 hbracket

theorem bare_atom_closed {s s' r r' : List Char} {g : Gauge K} (h : skipBlanks s = '(' :: s')
    (he : bare (expression s') = .ok (g, r)) (hr : skipBlanks r = ')' :: r') :
    bare (atom s) = .ok (g, r') := by
  rw [bare_atom_bracketed h, he]
  change (match skipBlanks r with | ')' :: _ => _ | _ => _) = _
  rw [hr]
  rfl

theorem bare_atom_one {s s' : List Char} (h : skipBlanks s = '1' :: s') :
    bare (atom (K := K) s) = .ok (.one, s') := by
  rw [atom]
  split
  · next hs => rw [hs] at h; cases h
  · next s'' hs => rw [hs] at h; cases h
  · next s'' hs =>
    obtain rfl := (List.cons.inj (hs.symm.trans h)).2
    rfl
  · next c s'' _ hone hs => exact absurd (List.cons.inj (hs.symm.trans h)).1 hone

theorem bare_atom_symbol {s s' : List Char} {c : Char} (h : skipBlanks s = c :: s')
    (hc : isLetter c = true) : bare (atom (K := K) s) =
      (known (String.ofList (c :: s'.takeWhile isLetter))).map (·, s'.dropWhile isLetter) := by
  rw [atom]
  split
  · next hs => rw [hs] at h; cases h
  · next s'' hs =>
    obtain rfl := (List.cons.inj (hs.symm.trans h)).1
    exact absurd hc (by decide)
  · next s'' hs =>
    obtain rfl := (List.cons.inj (hs.symm.trans h)).1
    exact absurd hc (by decide)
  · next c' s'' _ _ hs =>
    obtain ⟨rfl, rfl⟩ := List.cons.inj (hs.symm.trans h)
    rw [if_pos hc]
    cases known (K := K) (String.ofList (c' :: s''.takeWhile isLetter)) <;> rfl

/-- Nothing else begins an atom. -/
theorem bare_atom_fails {s : List Char} (hbracket : ∀ s', skipBlanks s ≠ '(' :: s')
    (hone : ∀ s', skipBlanks s ≠ '1' :: s')
    (hletter : ∀ c s', skipBlanks s = c :: s' → isLetter c = false) :
    ∃ fault, bare (atom (K := K) s) = .error fault := by
  rw [atom]
  split
  · exact ⟨_, rfl⟩
  · next s' hs => exact absurd hs (hbracket s')
  · next s' hs => exact absurd hs (hone s')
  · next c s' _ _ hs =>
    rw [if_neg (by rw [hletter c s' hs]; exact Bool.false_ne_true)]
    exact ⟨_, rfl⟩

/-! ## Phrases are read -/

/-- The reader of each level finds the phrase in front of a text that does not go on with it, and
that of expressions then sees to further factors. -/
def Reads : {l : Level} → Phrase l → Prop
  | .atom, p => ∀ r, EndsWord r → bare (atom (K := K) (p.text ++ r)) = p.gauge.map (·, r)
  | .term, p => ∀ r, EndsTerm r → bare (term (K := K) (p.text ++ r)) = p.gauge.map (·, r)
  | .expression, p => ∀ r, EndsTerm r →
      bare (expression (K := K) (p.text ++ r)) = p.gauge >>= fun g => bare (factors g r)

theorem reads_symbol (before : Blanks) (word : Word) : Reads (K := K) (.symbol before word) := by
  obtain ⟨w, hne, hw⟩ := word
  intro r hr
  cases w with
  | nil => exact absurd rfl hne
  | cons c w =>
    obtain ⟨hc, hw⟩ := List.forall_mem_cons.1 hw
    have hstop : r.takeWhile isLetter = [] ∧ r.dropWhile isLetter = r := by
      cases r with
      | nil => exact ⟨rfl, rfl⟩
      | cons d r => simp [hr d rfl]
    have hskip :
        skipBlanks ((Phrase.symbol before ⟨c :: w, hne, by simpa using ⟨hc, hw⟩⟩).text ++ r) =
          c :: (w ++ r) := by
      rw [Phrase.text_symbol, List.append_assoc, skipBlanks_append]
      exact skipBlanks_cons (not_isBlank_of_isLetter hc) _
    rw [bare_atom_symbol hskip hc, List.takeWhile_append_of_pos hw,
      List.dropWhile_append_of_pos hw, hstop.1, hstop.2, List.append_nil]
    rfl

theorem reads_one (before : Blanks) : Reads (K := K) (.one before) := by
  intro r _
  have hskip : skipBlanks ((Phrase.one before).text ++ r) = '1' :: r := by
    rw [Phrase.text_one, List.append_assoc, skipBlanks_append]
    rfl
  exact bare_atom_one hskip

theorem reads_bracketed (before : Blanks) {e : Phrase .expression} (behind : Blanks)
    (he : Reads (K := K) e) : Reads (K := K) (.bracketed before e behind) := by
  intro r _
  have hskip : skipBlanks ((Phrase.bracketed before e behind).text ++ r) =
      '(' :: (e.text ++ (behind.1 ++ ')' :: r)) := by
    rw [Phrase.text_bracketed, List.append_assoc, skipBlanks_append, List.cons_append,
      List.append_assoc, List.append_assoc]
    rfl
  have hbehind : skipBlanks (behind.1 ++ ')' :: r) = ')' :: r := by
    rw [skipBlanks_append]
    rfl
  have hexpression := he _ (endsTerm_append (b := behind) (s := r) (.inr (.inr rfl)))
  rw [Phrase.gauge_bracketed]
  cases hg : e.gauge (K := K) with
  | error fault => rw [bare_atom_bracketed hskip, hexpression, hg]; rfl
  | ok g =>
    have hend : bare (factors g (behind.1 ++ ')' :: r)) = .ok (g, behind.1 ++ ')' :: r) := by
      apply bare_factors_end
      intro op s' h
      rw [hbehind] at h
      cases op <;> exact absurd (List.cons.inj h).1 (by decide)
    rw [hg] at hexpression
    exact bare_atom_closed hskip (hexpression.trans hend) hbehind

theorem reads_atom {a : Phrase .atom} (ha : Reads (K := K) a) : Reads (K := K) (.atom a) := by
  intro r hr
  have hatom := ha r hr.endsWord
  rw [Phrase.text_atom, Phrase.gauge_atom]
  cases hg : a.gauge (K := K) with
  | error fault => rw [bare_term, hatom, hg]; rfl
  | ok g =>
    rw [hg] at hatom
    exact bare_term_atom hatom fun s' => hr.not_caret

theorem reads_power {a : Phrase .atom} (before behind : Blanks) (n : Integer)
    (ha : Reads (K := K) a) : Reads (K := K) (.power a before behind n) := by
  intro r hr
  have htext : (Phrase.power a before behind n).text ++ r =
      a.text ++ (before.1 ++ '^' :: (behind.1 ++ (n.text ++ r))) := by
    simp only [Phrase.text_power, List.append_assoc, List.cons_append]
  have hskip : skipBlanks (before.1 ++ '^' :: (behind.1 ++ (n.text ++ r))) =
      '^' :: (behind.1 ++ (n.text ++ r)) := by
    rw [skipBlanks_append]
    rfl
  have hinteger : skipBlanks (behind.1 ++ (n.text ++ r)) = n.text ++ r := by
    rw [skipBlanks_append, n.skipBlanks_text]
  have hatom := ha _ (endsWord_append (b := before) (c := '^')
    (s := behind.1 ++ (n.text ++ r)) rfl)
  rw [htext, Phrase.gauge_power]
  cases hg : a.gauge (K := K) with
  | error fault => rw [bare_term, hatom, hg]; rfl
  | ok g =>
    rw [hg] at hatom
    rw [bare_term_power hatom hskip, hinteger, bare_exponent_of_integer n hr.not_digit]
    cases n.exponent with
    | error fault => rfl
    | ok e =>
      change inRange (g.pow? e) >>= _ = Except.map _ (inRange (g.pow? e))
      cases inRange (g.pow? e) <;> rfl

theorem reads_term {t : Phrase .term} (ht : Reads (K := K) t) : Reads (K := K) (.term t) := by
  intro r hr
  rw [bare_expression, Phrase.text_term, ht r hr]
  rw [Phrase.gauge_term]
  cases t.gauge (K := K) <;> rfl

theorem reads_chain {e : Phrase .expression} (before : Blanks) (op : Operator) {t : Phrase .term}
    (he : Reads (K := K) e) (ht : Reads (K := K) t) : Reads (K := K) (.chain e before op t) := by
  intro r hr
  have htext : (Phrase.chain e before op t).text ++ r =
      e.text ++ (before.1 ++ op.char :: (t.text ++ r)) := by
    simp only [Phrase.text_chain, List.append_assoc, List.cons_append]
  have hskip : skipBlanks (before.1 ++ op.char :: (t.text ++ r)) = op.char :: (t.text ++ r) := by
    rw [skipBlanks_append]
    cases op <;> rfl
  have hends : EndsTerm (before.1 ++ op.char :: (t.text ++ r)) :=
    endsTerm_append (by cases op <;> simp [Operator.char])
  rw [htext, he _ hends]
  rw [Phrase.gauge_chain]
  cases e.gauge (K := K) with
  | error fault => rfl
  | ok g =>
    change bare (factors g (before.1 ++ op.char :: (t.text ++ r))) = _
    rw [bare_factors_operator hskip, ht r hr]
    cases t.gauge (K := K) with
    | error fault => rfl
    | ok h => rfl

variable (K) in
theorem reads {l : Level} (p : Phrase l) : Reads (K := K) p := by
  induction p with
  | symbol before word => exact reads_symbol before word
  | one before => exact reads_one before
  | bracketed before e behind he => exact reads_bracketed before behind he
  | atom a ha => exact reads_atom ha
  | power a before behind n ha => exact reads_power before behind n ha
  | term t ht => exact reads_term ht
  | chain e before op t he ht => exact reads_chain before op he ht

/-! ## What is read is a phrase -/

/-- What was read of a text is a phrase with the gauge that was found. -/
def Finds (l : Level) (s : List Char) (x : Except Fault (Gauge K × List Char)) : Prop :=
  ∀ g r, x = .ok (g, r) → ∃ p : Phrase l, s = p.text ++ r ∧ p.gauge = .ok g

theorem finds_atom {s : List Char}
    (hexpression : ∀ r, r.length < s.length →
      Finds .expression r (bare (expression (K := K) r))) :
    Finds .atom s (bare (atom (K := K) s)) := by
  intro g r h
  obtain ⟨before, hb⟩ := exists_blanks s
  have hs := length_skipBlanks_le s
  by_cases hbracket : ∃ s', skipBlanks s = '(' :: s'
  · obtain ⟨s', hs'⟩ := hbracket
    rw [hs', List.length_cons] at hs
    rw [bare_atom_bracketed hs'] at h
    obtain ⟨⟨g', r'⟩, he, h⟩ := bind_eq_ok_iff.1 h
    dsimp only at h
    split at h
    · next r'' hr =>
      obtain ⟨rfl, rfl⟩ := Prod.mk.inj (Except.ok.inj h)
      obtain ⟨e, htext, hg⟩ := hexpression s' (by omega) g' r' he
      obtain ⟨behind, hb'⟩ := exists_blanks r'
      refine ⟨.bracketed before e behind, ?_, hg⟩
      rw [hb, hs', htext, hb', hr]
      simp
    · cases h
  by_cases hone : ∃ s', skipBlanks s = '1' :: s'
  · obtain ⟨s', hs'⟩ := hone
    rw [bare_atom_one hs'] at h
    obtain ⟨rfl, rfl⟩ := Prod.mk.inj (Except.ok.inj h)
    refine ⟨.one before, ?_, rfl⟩
    rw [hb, hs']
    simp
  by_cases hletter : ∃ c s', skipBlanks s = c :: s' ∧ isLetter c = true
  · obtain ⟨c, s', hs', hc⟩ := hletter
    rw [bare_atom_symbol hs' hc] at h
    obtain ⟨g', hg, h⟩ := map_eq_ok_iff.1 h
    obtain ⟨rfl, rfl⟩ := Prod.mk.inj h
    have hword : ∀ d ∈ c :: s'.takeWhile isLetter, isLetter d = true :=
      List.forall_mem_cons.2 ⟨hc, fun _ hd => List.mem_takeWhile_imp hd⟩
    refine ⟨.symbol before ⟨c :: s'.takeWhile isLetter, List.cons_ne_nil _ _, hword⟩, ?_, hg⟩
    rw [hb, hs']
    simp
  · obtain ⟨fault, hfault⟩ := bare_atom_fails (K := K) (fun s' hs' => hbracket ⟨s', hs'⟩)
      (fun s' hs' => hone ⟨s', hs'⟩)
      (fun c s' hs' => by simpa using fun hc => hletter ⟨c, s', hs', hc⟩)
    rw [hfault] at h
    cases h

theorem finds_term {s : List Char} (hatom : Finds .atom s (bare (atom (K := K) s))) :
    Finds .term s (bare (term (K := K) s)) := by
  intro g r h
  have h' := h
  rw [bare_term] at h
  obtain ⟨⟨g', r'⟩, ha, -⟩ := bind_eq_ok_iff.1 h
  obtain ⟨a, htext, hg⟩ := hatom g' r' ha
  by_cases hcaret : ∃ s', skipBlanks r' = '^' :: s'
  · obtain ⟨s', hs'⟩ := hcaret
    rw [bare_term_power ha hs'] at h'
    obtain ⟨⟨e, r''⟩, he, h'⟩ := bind_eq_ok_iff.1 h'
    obtain ⟨p, hp, h'⟩ := bind_eq_ok_iff.1 h'
    obtain ⟨rfl, rfl⟩ := Prod.mk.inj (Except.ok.inj h')
    obtain ⟨n, hn, he⟩ := exists_integer he
    obtain ⟨before, hb⟩ := exists_blanks r'
    obtain ⟨behind, hb'⟩ := exists_blanks s'
    refine ⟨.power a before behind n, ?_, ?_⟩
    · rw [htext, hb, hs', hb', hn]
      simp
    · rw [Phrase.gauge_power, hg, he]
      exact hp
  · rw [bare_term_atom ha fun s' hs' => hcaret ⟨s', hs'⟩] at h'
    obtain ⟨rfl, rfl⟩ := Prod.mk.inj (Except.ok.inj h')
    exact ⟨.atom a, htext, hg⟩

/-- Each further factor or divisor prolongs the phrase that was read before it. -/
theorem finds_factors {s : List Char}
    (hterm : ∀ r, r.length < s.length → Finds .term r (bare (term (K := K) r)))
    (hfactors : ∀ r, r.length < s.length → ∀ (e : Phrase .expression) (g : Gauge K),
      e.gauge = .ok g → Finds .expression (e.text ++ r) (bare (factors g r)))
    {e : Phrase .expression} {g : Gauge K} (he : e.gauge = .ok g) :
    Finds .expression (e.text ++ s) (bare (factors g s)) := by
  intro g' r h
  have hs := length_skipBlanks_le s
  by_cases hop : ∃ (op : Operator) (s' : List Char), skipBlanks s = op.char :: s'
  · obtain ⟨op, s', hs'⟩ := hop
    rw [hs', List.length_cons] at hs
    rw [bare_factors_operator hs'] at h
    obtain ⟨⟨b, r'⟩, ht, h⟩ := bind_eq_ok_iff.1 h
    obtain ⟨p, hp, h⟩ := bind_eq_ok_iff.1 h
    obtain ⟨t, htext, hb⟩ := hterm s' (by omega) b r' ht
    have hr : r'.length < s.length := by
      have hlength := congrArg List.length htext
      rw [List.length_append] at hlength
      omega
    obtain ⟨before, hbefore⟩ := exists_blanks s
    have hgauge : (Phrase.chain e before op t).gauge = .ok p := by
      rw [Phrase.gauge_chain, he, hb]
      exact hp
    have hphrase : e.text ++ s = (Phrase.chain e before op t).text ++ r' := by
      rw [hbefore, hs', htext]
      simp
    rw [hphrase]
    exact hfactors r' hr _ p hgauge g' r h
  · rw [bare_factors_end fun op s' hs' => hop ⟨op, s', hs'⟩] at h
    obtain ⟨rfl, rfl⟩ := Prod.mk.inj (Except.ok.inj h)
    exact ⟨e, rfl, he⟩

theorem finds_expression {s : List Char} (hterm : Finds .term s (bare (term (K := K) s)))
    (hfactors : ∀ r, r.length ≤ s.length → ∀ (e : Phrase .expression) (g : Gauge K),
      e.gauge = .ok g → Finds .expression (e.text ++ r) (bare (factors g r))) :
    Finds .expression s (bare (expression (K := K) s)) := by
  intro g r h
  rw [bare_expression] at h
  obtain ⟨⟨b, r'⟩, ht, h⟩ := bind_eq_ok_iff.1 h
  obtain ⟨t, htext, hb⟩ := hterm b r' ht
  have hr : r'.length ≤ s.length := by
    have hlength := congrArg List.length htext
    rw [List.length_append] at hlength
    omega
  rw [htext]
  exact hfactors r' hr (.term t) b hb g r h

variable (K) in
theorem finds (n : Nat) :
    (∀ s : List Char, s.length ≤ n → Finds .expression s (bare (expression (K := K) s))) ∧
      ∀ s : List Char, s.length ≤ n → ∀ (e : Phrase .expression) (g : Gauge K), e.gauge = .ok g →
        Finds .expression (e.text ++ s) (bare (factors g s)) := by
  -- By the length of the text: only what stands behind a bracket or an operator is read again.
  induction n using Nat.strong_induction_on with
  | _ n ih =>
    have hterm : ∀ s : List Char, s.length ≤ n → Finds .term s (bare (term (K := K) s)) :=
      fun s hs => finds_term (finds_atom fun r hr => (ih r.length (by omega)).1 r le_rfl)
    have hfactors : ∀ s : List Char, s.length ≤ n → ∀ (e : Phrase .expression) (g : Gauge K),
        e.gauge = .ok g → Finds .expression (e.text ++ s) (bare (factors g s)) :=
      fun s hs e g he => finds_factors (fun r hr => hterm r (by omega))
        (fun r hr => (ih r.length (by omega)).2 r le_rfl) he
    exact ⟨fun s hs => finds_expression (hterm s hs) fun r hr => hfactors r (by omega), hfactors⟩

/-! ## Whole texts -/

theorem read_eq_bind (s : List Char) : read (K := K) s = bare (expression s) >>= fun y =>
    match skipBlanks y.2 with
    | [] => .ok y.1
    | c :: _ => .error (.unexpected c) := by
  unfold read
  cases expression (K := K) s <;> rfl

/-- A derived text is read as its derivation says, down to the fault. -/
theorem read_of_derives {p : Phrase .expression} {s : List Char} (h : p.Derives s) :
    read (K := K) s = p.gauge := by
  obtain ⟨b, rfl⟩ := h
  have hblank : skipBlanks b.1 = [] := by simpa [skipBlanks] using b.2
  rw [read_eq_bind, reads K p b.1 (endsTerm_blanks b)]
  cases p.gauge (K := K) with
  | error fault => rfl
  | ok g =>
    have hend : bare (factors g b.1) = .ok (g, b.1) := by
      apply bare_factors_end
      intro op s' h
      rw [hblank] at h
      cases h
    change (bare (factors g b.1) >>= _) = _
    rw [hend]
    change (match skipBlanks b.1 with | [] => _ | c :: _ => _) = _
    rw [hblank]

theorem exists_derives_of_read {s : List Char} {g : Gauge K} (h : read s = .ok g) :
    ∃ p : Phrase .expression, p.Derives s ∧ p.gauge = .ok g := by
  rw [read_eq_bind] at h
  obtain ⟨⟨g', r⟩, he, h⟩ := bind_eq_ok_iff.1 h
  dsimp only at h
  split at h
  · next hr =>
    obtain rfl := Except.ok.inj h
    obtain ⟨p, htext, hg⟩ := (finds K s.length).1 s le_rfl g' r he
    obtain ⟨b, hb⟩ := exists_blanks r
    rw [hr, List.append_nil] at hb
    exact ⟨p, ⟨b, hb ▸ htext⟩, hg⟩
  · cases h

end Reader

namespace Unit

open Grammar

variable {K : Type} [Scalar K]

/-- A text is the symbol of a unit if it is derived by a phrase that has a gauge: the unit then has
this gauge, and the text without the blanks around it as its symbol. A derivation that has none
gives the fault of the error, and whatever is not the text of a unit is an invalid unit. -/
theorem read_iff_derives (text : String) :
    (∀ u : Unit K, Unit.read text = .ok u ↔ ∃ p : Phrase .expression, p.Derives text.toList ∧
      p.gauge = .ok u.toGauge ∧ u.symbol = String.ofList (trim text.toList)) ∧
    (∀ (p : Phrase .expression) (fault : Fault), p.Derives text.toList →
      p.gauge (K := K) = .error fault → Unit.read (K := K) text = .error (.malformed text fault)) ∧
    ((∀ u : Unit K, Unit.read text ≠ .ok u) →
      ∃ e, Unit.read (K := K) text = .error e ∧ (Error.unit e : Error K).kind = .invalidUnit) := by
  refine ⟨fun u => ⟨fun h => ?_, ?_⟩, fun p fault hp hg => ?_, fun h => ?_⟩
  · unfold Unit.read at h
    split at h
    · next g hg =>
      obtain rfl := Except.ok.inj h
      obtain ⟨p, hp, hgauge⟩ := Reader.exists_derives_of_read hg
      exact ⟨p, hp, hgauge, rfl⟩
    · cases h
  · rintro ⟨p, hp, hg, hsymbol⟩
    obtain ⟨g, symbol⟩ := u
    obtain rfl := hsymbol
    unfold Unit.read
    rw [Reader.read_of_derives hp, hg]
  · unfold Unit.read
    rw [Reader.read_of_derives hp, hg]
  · cases hr : Unit.read (K := K) text with
    | ok u => exact absurd hr (h u)
    | error e => exact ⟨e, rfl, rfl⟩

end Unit

end SupplyNet.Measure
