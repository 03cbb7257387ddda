import Mathlib
import SupplyNet.Proofs.Checked

/-!
Related runs. Two lists are matched if their items are related one to one in whatever order, and one
computation carries over to another one if that succeeds with a related result whenever the first
one does.
-/
set_option autoImplicit false

namespace SupplyNet

variable {ε α β γ δ : Type} {R : α → β → Prop} {S : γ → δ → Prop}

/-! ## Lists -/

theorem exists_forall₂ {l : List α} (h : ∀ a ∈ l, ∃ b, R a b) : ∃ r, List.Forall₂ R l r := by
  induction l with
  | nil => exact ⟨[], .nil⟩
  | cons a l ih =>
    obtain ⟨b, hb⟩ := h a List.mem_cons_self
    obtain ⟨r, hr⟩ := ih fun c hc => h c (List.mem_cons_of_mem a hc)
    exact ⟨b :: r, .cons hb hr⟩

theorem exists_of_mem_forall₂ {l : List α} {r : List β} (h : List.Forall₂ R l r) {a : α}
    (ha : a ∈ l) : ∃ b ∈ r, R a b := by
  induction h with
  | nil => exact absurd ha List.not_mem_nil
  | cons hab _ ih =>
    rcases List.mem_cons.1 ha with rfl | ha
    · exact ⟨_, List.mem_cons_self, hab⟩
    · obtain ⟨b, hb, hr⟩ := ih ha
      exact ⟨b, List.mem_cons_of_mem _ hb, hr⟩

theorem forall₂_imp_of_mem {T : α → β → Prop} {l : List α} {r : List β} (h : List.Forall₂ R l r)
    (hT : ∀ a ∈ l, ∀ b, R a b → T a b) : List.Forall₂ T l r :=
  List.forall₂_iff_zip.2 ⟨h.length_eq, fun hab =>
    hT _ (List.of_mem_zip hab).1 _ ((List.forall₂_iff_zip.1 h).2 hab)⟩

/-- What is related to an item leads on to what is related in another way. -/
theorem exists_forall₂_of_forall₂ {T : α → γ → Prop} {U : β → γ → Prop} {l : List α} {r : List β}
    (h : List.Forall₂ R l r) (hex : ∀ a ∈ l, ∀ b, R a b → ∃ c, T a c ∧ U b c) :
    ∃ s, List.Forall₂ T l s ∧ List.Forall₂ U r s := by
  induction h with
  | nil => exact ⟨[], .nil, .nil⟩
  | cons hab _ ih =>
    obtain ⟨c, hc, hc'⟩ := hex _ List.mem_cons_self _ hab
    obtain ⟨s, hs, hs'⟩ := ih fun a ha => hex a (List.mem_cons_of_mem _ ha)
    exact ⟨c :: s, .cons hc hs, .cons hc' hs'⟩

/-- What is related to the same items is related. -/
theorem forall₂_of_forall₂ {T : α → γ → Prop} {U : β → γ → Prop} {l : List α} {r : List β}
    {s : List γ} (h : List.Forall₂ R l r) (hT : List.Forall₂ T l s)
    (hU : ∀ a ∈ l, ∀ b c, R a b → T a c → U b c) : List.Forall₂ U r s := by
  induction h generalizing s with
  | nil =>
    cases hT
    exact .nil
  | cons hab _ ih =>
    cases hT with
    | cons hac hT =>
      exact .cons (hU _ List.mem_cons_self _ _ hab hac)
        (ih hT fun a ha => hU a (List.mem_cons_of_mem _ ha))

theorem map_eq_map_of_forall₂ {l : List α} {r : List β} (h : List.Forall₂ R l r) {f : α → γ}
    {g : β → γ} (hfg : ∀ a b, R a b → f a = g b) : l.map f = r.map g := by
  induction h with
  | nil => rfl
  | cons hab _ ih => rw [List.map_cons, List.map_cons, hfg _ _ hab, ih]

theorem forall₂_of_map_eq {l : List α} {r : List β} {f : α → γ} {g : β → γ}
    (h : l.map f = r.map g) : List.Forall₂ (fun a b => f a = g b) l r := by
  have hmap : List.Forall₂ Eq (l.map f) (r.map g) := by rwa [List.forall₂_eq_eq_eq]
  exact List.forall₂_map_right_iff.1 (List.forall₂_map_left_iff.1 hmap)

/-- The items of a list beside what is read from the items related to them. -/
theorem forall₂_zip_map {l : List α} {r : List β} (h : List.Forall₂ R l r) (f : β → γ) :
    List.Forall₂ (fun q b => R q.1 b ∧ q.2 = f b) (l.zip (r.map f)) r := by
  induction h with
  | nil => exact .nil
  | cons hab _ ih => exact .cons ⟨hab, rfl⟩ ih

/-- A list whose item at each position can be read from what is related to that position. -/
theorem map_eq_of_forall₂_zipIdx {T : α × Nat → β → Prop} {l : List α} {r : List β} {s : List γ}
    (h : List.Forall₂ T l.zipIdx r) (hlen : s.length = l.length) {g : β → γ}
    (hg : ∀ q b, T q b → s[q.2]? = some (g b)) : r.map g = s := by
  have hr : r.length = l.length := h.length_eq.symm.trans List.length_zipIdx
  refine List.ext_getElem? fun i => ?_
  rw [List.getElem?_map]
  by_cases hi : i < l.length
  · have hb := List.getElem?_eq_getElem (hr ▸ hi)
    have hq : l.zipIdx[i]? = some (l[i], i) := by simp [hi]
    rw [hb, hg _ _ ((forall₂_iff_getElem?.1 h).2 i _ _ hq hb)]
    rfl
  · rw [List.getElem?_eq_none (hr ▸ not_lt.1 hi), List.getElem?_eq_none (hlen ▸ not_lt.1 hi)]
    rfl

/-- Keys that tell from which item of a list they come, and that differ for each item. -/
theorem nodup_map_flatMap {κ : Type} {l : List α} {f : α → List β} {key : β → κ} (group : κ → γ)
    (tag : α → γ) (hl : (l.map tag).Nodup) (hf : ∀ a ∈ l, ((f a).map key).Nodup)
    (htag : ∀ a ∈ l, ∀ b ∈ f a, group (key b) = tag a) : ((l.flatMap f).map key).Nodup := by
  rw [List.map_flatMap, List.nodup_flatMap]
  refine ⟨hf, (List.pairwise_map.1 hl).imp_of_mem fun ha hb hne => ?_⟩
  intro k hk hk'
  obtain ⟨c, hc, rfl⟩ := List.mem_map.1 hk
  obtain ⟨d, hd, he⟩ := List.mem_map.1 hk'
  exact hne (by rw [← htag _ ha c hc, ← htag _ hb d hd, he])

def Matched (R : α → β → Prop) (l : List α) (l' : List β) : Prop :=
  ∃ r, List.Forall₂ R l r ∧ r.Perm l'

namespace Matched

variable {l : List α} {l' : List β}

theorem of_forall₂ (h : List.Forall₂ R l l') : Matched R l l' := ⟨l', h, .refl l'⟩

/-- The same items in another order, each in two readings. -/
theorem of_perm {r r' : List γ} (h : r.Perm r') {f : γ → α} {g : γ → β}
    (hR : ∀ c ∈ r, R (f c) (g c)) : Matched R (r.map f) (r'.map g) := by
  refine ⟨r.map g, ?_, h.map g⟩
  rw [List.forall₂_map_left_iff, List.forall₂_map_right_iff, List.forall₂_same]
  exact hR

theorem map (h : Matched R l l') {f : α → γ} {g : β → δ} (hS : ∀ a b, R a b → S (f a) (g b)) :
    Matched S (l.map f) (l'.map g) := by
  obtain ⟨r, hr, hp⟩ := h
  refine ⟨r.map g, ?_, hp.map g⟩
  rw [List.forall₂_map_left_iff, List.forall₂_map_right_iff]
  exact hr.imp fun a b => hS a b

theorem filter (h : Matched R l l') {p : α → Bool} {q : β → Bool}
    (hpq : ∀ a b, R a b → p a = q b) : Matched R (l.filter p) (l'.filter q) := by
  obtain ⟨r, hr, hp⟩ := h
  refine ⟨r.filter q, ?_, hp.filter q⟩
  exact List.rel_filter (fun a b hab => Bool.eq_iff_iff.1 (hpq a b hab)) hr

theorem flatten {l : List (List α)} {l' : List (List β)} (h : Matched (Matched R) l l') :
    Matched R l.flatten l'.flatten := by
  obtain ⟨r, hr, hp⟩ := h
  have hflat : ∀ {l : List (List α)} {r : List (List β)}, List.Forall₂ (Matched R) l r →
      Matched R l.flatten r.flatten := by
    intro l r hr
    induction hr with
    | nil => exact of_forall₂ .nil
    | cons ha _ ih =>
      obtain ⟨s, hs, hps⟩ := ha
      obtain ⟨t, ht, hpt⟩ := ih
      exact ⟨s ++ t, List.rel_append hs ht, hps.append hpt⟩
  obtain ⟨s, hs, hps⟩ := hflat hr
  exact ⟨s, hs, hps.trans hp.flatten⟩

/-- Items that have the same reading are the same up to order when read. -/
theorem perm_map {f : α → γ} {g : β → γ} (h : Matched R l l') (hfg : ∀ a b, R a b → f a = g b) :
    (l.map f).Perm (l'.map g) := by
  obtain ⟨r, hr, hp⟩ := h
  rw [map_eq_map_of_forall₂ hr hfg]
  exact hp.map g

theorem length_eq (h : Matched R l l') : l.length = l'.length := by
  obtain ⟨r, hr, hp⟩ := h
  exact hr.length_eq.trans hp.length_eq

theorem forall_mem (h : Matched R l l') {P : β → Prop} (hP : ∀ a ∈ l, ∀ b, R a b → P b) :
    ∀ b ∈ l', P b := by
  obtain ⟨r, hr, hp⟩ := h
  intro b hb
  obtain ⟨i, hi⟩ := List.mem_iff_getElem?.1 (hp.mem_iff.2 hb)
  obtain ⟨hlt, -⟩ := List.getElem?_eq_some_iff.1 hi
  have ha := List.getElem?_eq_getElem (hr.length_eq ▸ hlt)
  exact hP _ (List.mem_of_getElem? ha) b ((forall₂_iff_getElem?.1 hr).2 i _ _ ha hi)

end Matched

/-! ## Options and keyed values -/

theorem isSome_of_rel {o : Option α} {o' : Option β} (h : Option.Rel R o o') :
    o'.isSome = o.isSome := by
  cases h <;> rfl

theorem eq_none_iff_of_rel {o : Option α} {o' : Option β} (h : Option.Rel R o o') :
    o' = none ↔ o = none := by
  cases h <;> simp

theorem exists_of_mem_rel {o : Option α} {o' : Option β} (h : Option.Rel R o o') {b : β}
    (hb : b ∈ o') : ∃ a ∈ o, R a b := by
  cases h with
  | none => cases hb
  | some hab =>
    cases hb
    exact ⟨_, rfl, hab⟩

theorem rel_symm {o : Option α} {o' : Option β} (h : Option.Rel R o o') {T : β → α → Prop}
    (hRT : ∀ a b, R a b → T b a) : Option.Rel T o' o := by
  cases h with
  | none => exact .none
  | some hab => exact .some (hRT _ _ hab)

theorem getD_of_rel {o : Option α} {o' : Option β} (h : Option.Rel R o o') {a : α} {b : β}
    (hab : R a b) : R (o.getD a) (o'.getD b) := by
  cases h with
  | none => exact hab
  | some h => exact h

/-- Related values under the same keys. -/
def Keyed.Related (R : α → β → Prop) (k : Keyed α) (k' : Keyed β) : Prop :=
  List.Forall₂ (fun e e' => e'.1 = e.1 ∧ R e.2 e'.2) k.entries k'.entries

namespace Keyed.Related

variable {k : Keyed α} {k' : Keyed β} (h : Keyed.Related R k k')

include h

theorem symm {T : β → α → Prop} (hRT : ∀ a b, R a b → T b a) : Keyed.Related T k' k :=
  (List.Forall₂.flip h).imp fun _ _ he => ⟨he.1.symm, hRT _ _ he.2⟩

theorem keys : k'.keys = k.keys :=
  (map_eq_map_of_forall₂ h fun _ _ he => he.1.symm).symm

theorem map_values {f : α → γ} {g : β → γ} (hfg : ∀ a b, R a b → f a = g b) :
    k'.values.map g = k.values.map f := by
  unfold Keyed.values
  rw [List.map_map, List.map_map]
  exact (map_eq_map_of_forall₂ h fun _ _ he => hfg _ _ he.2).symm

theorem find? (key : String) : Option.Rel R (k.find? key) (k'.find? key) := by
  have hlookup : ∀ {l : List (String × α)} {l' : List (String × β)},
      List.Forall₂ (fun e e' => e'.1 = e.1 ∧ R e.2 e'.2) l l' →
        Option.Rel R (l.lookup key) (l'.lookup key) := by
    intro l l' hl
    induction hl with
    | nil => exact .none
    | cons he _ ih =>
      rw [Keyed.lookup_cons_eq, Keyed.lookup_cons_eq, he.1]
      split
      · exact .some he.2
      · exact ih
  exact hlookup h

theorem exists_of_mem {e' : String × β} (he : e' ∈ k'.entries) :
    ∃ e ∈ k.entries, e'.1 = e.1 ∧ R e.2 e'.2 := by
  have hflip : List.Forall₂ (fun e' e => e'.1 = e.1 ∧ R e.2 e'.2) k'.entries k.entries :=
    List.Forall₂.flip h
  exact exists_of_mem_forall₂ hflip he

end Keyed.Related

/-! ## Computations -/

def Carries (R : α → β → Prop) (x : Except ε α) (y : Except ε β) : Prop :=
  ∀ a, x = .ok a → ∃ b, y = .ok b ∧ R a b

namespace Carries

theorem ok {a : α} {b : β} (h : R a b) : Carries R (.ok a : Except ε α) (.ok b) := by
  intro a' ha
  cases ha
  exact ⟨b, rfl, h⟩

theorem of_error (e : ε) (y : Except ε β) : Carries R (.error e) y := fun _ h => by cases h

theorem rel {x : Except ε α} {y : Except ε β} (h : Carries R x y) {a : α} {b : β}
    (ha : x = .ok a) (hb : y = .ok b) : R a b := by
  obtain ⟨b', hb', hab⟩ := h a ha
  obtain rfl : b' = b := Except.ok.inj (hb'.symm.trans hb)
  exact hab

/-- Two computations that carry over to each other succeed together. -/
theorem succeeds_iff {T : β → α → Prop} {x : Except ε α} {y : Except ε β} (h : Carries R x y)
    (h' : Carries T y x) : (∃ a, x = .ok a) ↔ ∃ b, y = .ok b := by
  constructor
  · rintro ⟨a, ha⟩
    obtain ⟨b, hb, -⟩ := h a ha
    exact ⟨b, hb⟩
  · rintro ⟨b, hb⟩
    obtain ⟨a, ha, -⟩ := h' b hb
    exact ⟨a, ha⟩

theorem imp {T : α → β → Prop} {x : Except ε α} {y : Except ε β} (h : Carries R x y)
    (hRT : ∀ a b, R a b → T a b) : Carries T x y := by
  intro a ha
  obtain ⟨b, hb, hab⟩ := h a ha
  exact ⟨b, hb, hRT a b hab⟩

theorem mapError {ε' : Type} {x : Except ε α} {y : Except ε β} (h : Carries R x y) (f : ε → ε') :
    Carries R (x.mapError f) (y.mapError f) := by
  intro a ha
  obtain ⟨b, hb, hab⟩ := h a (mapError_eq_ok_iff.1 ha)
  exact ⟨b, mapError_eq_ok_iff.2 hb, hab⟩

theorem bind {x : Except ε α} {y : Except ε β} {f : α → Except ε γ} {g : β → Except ε δ}
    (h : Carries R x y) (hfg : ∀ a b, R a b → Carries S (f a) (g b)) :
    Carries S (x >>= f) (y >>= g) := by
  intro c hc
  obtain ⟨a, ha, hc⟩ := bind_eq_ok_iff.1 hc
  obtain ⟨b, hb, hab⟩ := h a ha
  obtain ⟨d, hd, hcd⟩ := hfg a b hab c hc
  exact ⟨d, bind_eq_ok_iff.2 ⟨b, hb, hd⟩, hcd⟩

/-- The first step is the same in both runs. -/
theorem bind_same {x : Except ε α} {f : α → Except ε γ} {g : α → Except ε δ}
    (hfg : ∀ a, x = .ok a → Carries S (f a) (g a)) : Carries S (x >>= f) (x >>= g) := by
  intro c hc
  obtain ⟨a, ha, hc⟩ := bind_eq_ok_iff.1 hc
  obtain ⟨d, hd, hcd⟩ := hfg a ha c hc
  exact ⟨d, bind_eq_ok_iff.2 ⟨a, ha, hd⟩, hcd⟩

theorem map {x : Except ε α} {y : Except ε β} {f : α → γ} {g : β → δ} (h : Carries R x y)
    (hfg : ∀ a b, R a b → S (f a) (g b)) : Carries S (x.map f) (y.map g) :=
  h.bind fun a b hab => ok (hfg a b hab)

theorem mapM {l : List γ} {l' : List δ} {f : γ → Except ε α} {g : δ → Except ε β}
    (h : List.Forall₂ (fun c d => Carries R (f c) (g d)) l l') :
    Carries (List.Forall₂ R) (l.mapM f) (l'.mapM g) := by
  induction h with
  | nil => exact ok .nil
  | cons hcd _ ih =>
    rw [List.mapM_cons, List.mapM_cons]
    exact hcd.bind fun a b hab => ih.bind fun as bs h => ok (.cons hab h)

/-- A fold over related items keeps a relation of what is carried along. -/
theorem foldlM {l : List γ} {l' : List δ} {f : α → γ → Except ε α} {g : β → δ → Except ε β}
    (h : List.Forall₂ S l l')
    (hfg : ∀ a b c d, R a b → S c d → Carries R (f a c) (g b d)) {a : α} {b : β} (hab : R a b) :
    Carries R (l.foldlM f a) (l'.foldlM g b) := by
  induction h generalizing a b with
  | nil => exact ok hab
  | cons hcd _ ih =>
    rw [List.foldlM_cons, List.foldlM_cons]
    exact (hfg a b _ _ hab hcd).bind fun a' b' hab' => ih hab'

theorem exists_map_ok {l : List α} {ys : List (Except ε β)}
    (h : List.Forall₂ (Carries R) (l.map .ok) ys) :
    ∃ l' : List β, ys = l'.map .ok ∧ List.Forall₂ R l l' := by
  induction l generalizing ys with
  | nil => exact ⟨[], List.forall₂_nil_left_iff.1 h, .nil⟩
  | cons a l ih =>
    obtain ⟨y, ys, hy, hys, rfl⟩ := List.forall₂_cons_left_iff.1 h
    obtain ⟨b, rfl, hab⟩ := hy a rfl
    obtain ⟨l', rfl, hl⟩ := ih hys
    exact ⟨b :: l', rfl, .cons hab hl⟩

end Carries

end SupplyNet
