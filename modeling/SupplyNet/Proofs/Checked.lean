import Mathlib
import SupplyNet.Network.Flows

/-!
Computations that may fail: when a chain of them, or one for each item of a list, succeeds.
-/
set_option autoImplicit false

namespace SupplyNet

variable {ε ε' σ α β γ : Type}

theorem exists_of_isOk {x : Except ε α} (h : x.isOk = true) : ∃ a, x = .ok a := by
  cases x with
  | error e => exact absurd h (by simp [Except.isOk, Except.toBool])
  | ok a => exact ⟨a, rfl⟩

theorem bind_eq_ok_iff {x : Except ε α} {f : α → Except ε β} {b : β} :
    (x >>= f) = .ok b ↔ ∃ a, x = .ok a ∧ f a = .ok b := by
  cases x with
  | error e => exact ⟨fun h => absurd h (by simp [bind, Except.bind]), fun ⟨_, h, _⟩ => by cases h⟩
  | ok a => exact ⟨fun h => ⟨a, rfl, h⟩, fun ⟨_, ha, h⟩ => by cases ha; exact h⟩

theorem bind_eq_error_iff {x : Except ε α} {f : α → Except ε β} {e : ε} :
    x >>= f = .error e ↔ x = .error e ∨ ∃ a, x = .ok a ∧ f a = .error e := by
  cases x <;> simp [bind, Except.bind]

@[simp]
theorem throw_ne_ok (e : ε) (a : α) : (throw e : Except ε α) ≠ .ok a := by
  intro h
  cases h

theorem map_eq_ok_iff {x : Except ε α} {f : α → β} {b : β} :
    x.map f = .ok b ↔ ∃ a, x = .ok a ∧ f a = b := by
  cases x with
  | error e => simp [Except.map]
  | ok a => simp [Except.map]

theorem toOption_eq_some_iff {x : Except ε α} {a : α} : x.toOption = some a ↔ x = .ok a := by
  cases x with
  | error e => simp [Except.toOption]
  | ok b => simp [Except.toOption]

theorem mapError_eq_ok_iff {x : Except ε α} {f : ε → ε'} {a : α} :
    x.mapError f = .ok a ↔ x = .ok a := by
  cases x with
  | error e => simp [Except.mapError]
  | ok b => simp [Except.mapError]

theorem mapError_eq_error_iff {x : Except ε α} {f : ε → ε'} {e' : ε'} :
    x.mapError f = .error e' ↔ ∃ e, x = .error e ∧ f e = e' := by
  cases x with
  | error e => simp [Except.mapError]
  | ok b => simp [Except.mapError]

theorem forall₂_iff_getElem? {R : α → β → Prop} {l : List α} {r : List β} :
    List.Forall₂ R l r ↔ l.length = r.length ∧
      ∀ (i : Nat) a b, l[i]? = some a → r[i]? = some b → R a b := by
  rw [List.forall₂_iff_get]
  refine and_congr_right fun _ => ⟨fun h i a b ha hb => ?_, fun h i h₁ h₂ => ?_⟩
  · obtain ⟨h₁, rfl⟩ := List.getElem?_eq_some_iff.1 ha
    obtain ⟨h₂, rfl⟩ := List.getElem?_eq_some_iff.1 hb
    exact h i h₁ h₂
  · exact h i _ _ (List.getElem?_eq_getElem h₁) (List.getElem?_eq_getElem h₂)

theorem getElem?_zip_of {l : List α} {r : List β} {i : Nat} {a : α} {b : β}
    (ha : l[i]? = some a) (hb : r[i]? = some b) : (l.zip r)[i]? = some (a, b) :=
  List.getElem?_zip_eq_some.2 ⟨ha, hb⟩

theorem mapM_eq_ok_iff {f : α → Except ε β} {l : List α} {r : List β} :
    l.mapM f = .ok r ↔ List.Forall₂ (fun a b => f a = .ok b) l r := by
  induction l generalizing r with
  | nil =>
    rw [List.mapM_nil, List.forall₂_nil_left_iff]
    exact ⟨fun h => (Except.ok.inj h).symm, fun h => by rw [h]; rfl⟩
  | cons a l ih =>
    rw [List.mapM_cons, bind_eq_ok_iff, List.forall₂_cons_left_iff]
    constructor
    · rintro ⟨b, hb, h⟩
      obtain ⟨bs, hbs, h⟩ := bind_eq_ok_iff.1 h
      exact ⟨b, bs, hb, ih.1 hbs, (Except.ok.inj h).symm⟩
    · rintro ⟨b, bs, hb, hbs, rfl⟩
      exact ⟨b, hb, bind_eq_ok_iff.2 ⟨bs, ih.2 hbs, rfl⟩⟩

theorem mapM_congr {f g : α → Except ε β} {l : List α} (h : ∀ a ∈ l, f a = g a) :
    l.mapM f = l.mapM g := by
  induction l with
  | nil => rfl
  | cons a l ih =>
    rw [List.mapM_cons, List.mapM_cons, h a List.mem_cons_self,
      ih fun b hb => h b (List.mem_cons_of_mem a hb)]

theorem mapM_ok (f : α → β) (l : List α) :
    l.mapM (fun a => (.ok (f a) : Except ε β)) = .ok (l.map f) :=
  mapM_eq_ok_iff.2 (List.forall₂_map_right_iff.2 (List.forall₂_same.2 fun _ _ => rfl))

theorem isOk_mapM_iff {f : α → Except ε β} {l : List α} :
    (∃ r, l.mapM f = .ok r) ↔ ∀ a ∈ l, ∃ b, f a = .ok b := by
  constructor
  · rintro ⟨r, h⟩ a ha
    obtain ⟨i, hi, rfl⟩ := List.getElem_of_mem ha
    have h₂ := mapM_eq_ok_iff.1 h
    exact ⟨_, h₂.get hi (h₂.length_eq ▸ hi)⟩
  · intro h
    induction l with
    | nil => exact ⟨[], rfl⟩
    | cons a l ih =>
      obtain ⟨b, hb⟩ := h a List.mem_cons_self
      obtain ⟨r, hr⟩ := ih fun c hc => h c (List.mem_cons_of_mem _ hc)
      rw [mapM_eq_ok_iff] at hr
      exact ⟨b :: r, mapM_eq_ok_iff.2 (.cons hb hr)⟩

theorem exists_eq_map_ok {l : List (Except ε α)} (h : ∀ x ∈ l, ∃ a, x = .ok a) :
    ∃ r : List α, l = r.map .ok := by
  induction l with
  | nil => exact ⟨[], rfl⟩
  | cons x l ih =>
    obtain ⟨a, rfl⟩ := h x List.mem_cons_self
    obtain ⟨r, rfl⟩ := ih fun y hy => h y (List.mem_cons_of_mem _ hy)
    exact ⟨a :: r, rfl⟩

/-- A fold that adds up what is computed for each item computes all of them first. -/
theorem foldlM_eq_ok_iff {f : α → Except ε β} {add : γ → β → γ} {l : List α} {c r : γ} :
    l.foldlM (fun c a => do return add c (← f a)) c = .ok r ↔
      ∃ bs, List.Forall₂ (fun a b => f a = .ok b) l bs ∧ r = bs.foldl add c := by
  induction l generalizing c with
  | nil =>
    simp only [List.forall₂_nil_left_iff, exists_eq_left]
    exact ⟨fun h => (Except.ok.inj h).symm, fun h => congrArg _ h.symm⟩
  | cons a l ih =>
    rw [List.foldlM_cons, bind_eq_ok_iff]
    constructor
    · rintro ⟨c', hc, h⟩
      obtain ⟨b, hb, hc⟩ := bind_eq_ok_iff.1 hc
      obtain ⟨bs, hbs, rfl⟩ := ih.1 h
      exact ⟨b :: bs, .cons hb hbs, by rw [← Except.ok.inj hc]; rfl⟩
    · rintro ⟨bs, hbs, rfl⟩
      obtain ⟨b, rest, hb, hrest, rfl⟩ := List.forall₂_cons_left_iff.1 hbs
      exact ⟨add c b, bind_eq_ok_iff.2 ⟨b, hb, rfl⟩, ih.2 ⟨rest, hrest, rfl⟩⟩

/-- What each step of a fold keeps up holds in the end. -/
theorem foldlM_invariant {P : β → Prop} {f : β → α → Except ε β} {l : List α} {b r : β}
    (hf : ∀ a ∈ l, ∀ b b', P b → f b a = .ok b' → P b') (hb : P b)
    (h : l.foldlM f b = .ok r) : P r := by
  induction l generalizing b with
  | nil =>
    rw [← Except.ok.inj h]
    exact hb
  | cons a l ih =>
    rw [List.foldlM_cons] at h
    obtain ⟨b', hb', h⟩ := bind_eq_ok_iff.1 h
    exact ih (fun c hc => hf c (List.mem_cons_of_mem a hc))
      (hf a List.mem_cons_self b b' hb hb') h

theorem refuse_singleton (fault : Option ε) (u : Unit) :
    refuse [fault] = .ok u ↔ fault = none := by
  rw [show u = () from rfl, refuse_eq_ok_iff]
  simp

end SupplyNet
