import Mathlib
import SupplyNet.Keyed

/-!
Entries under keys, and the different texts of a list: the same as its members, each once, whatever
the order.
-/
set_option autoImplicit false

namespace SupplyNet

variable {α : Type}

theorem Keyed.mem_keys_insert {m : Keyed α} {key : String} {a : α} {k : String} :
    k ∈ (m.insert key a).keys ↔ k = key ∨ k ∈ m.keys := by
  have h : ∀ l : List (String × α),
      k ∈ (insertEntry key a l).map Prod.fst ↔ k = key ∨ k ∈ l.map Prod.fst := by
    intro l
    induction l with
    | nil => simp [insertEntry]
    | cons e r ih =>
      unfold insertEntry
      split
      · simp
      · split
        · simp only [List.map_cons, List.mem_cons, ih]
          exact or_left_comm
        · next hle hge =>
          have heq : key = e.1 := String.le_antisymm hge hle
          simp [heq]
  exact h m.entries

/-- An entry is the one that was put in or was there before. -/
theorem Keyed.forall_mem_insert {P : String × α → Prop} {m : Keyed α} {key : String} {a : α}
    (ha : P (key, a)) (hm : ∀ e ∈ m.entries, P e) : ∀ e ∈ (m.insert key a).entries, P e := by
  have h : ∀ l : List (String × α), (∀ e ∈ l, P e) → ∀ e ∈ insertEntry key a l, P e := by
    intro l hl
    induction l with
    | nil => exact List.forall_mem_singleton.2 ha
    | cons b r ih =>
      obtain ⟨hb, hr⟩ := List.forall_mem_cons.1 hl
      unfold insertEntry
      split
      · exact List.forall_mem_cons.2 ⟨ha, hl⟩
      · split
        · exact List.forall_mem_cons.2 ⟨hb, ih hr⟩
        · exact List.forall_mem_cons.2 ⟨ha, hr⟩
  exact h m.entries hm

theorem Keyed.forall_mem_ofList {P : String × α → Prop} {l : List (String × α)}
    (h : ∀ e ∈ l, P e) : ∀ e ∈ (ofList l).entries, P e := by
  have hfold : ∀ m : Keyed α, (∀ e ∈ m.entries, P e) →
      ∀ e ∈ (l.foldl (fun m e => m.insert e.1 e.2) m).entries, P e := by
    induction l with
    | nil => exact fun m hm => hm
    | cons e l ih =>
      obtain ⟨he, hl⟩ := List.forall_mem_cons.1 h
      exact fun m hm => ih hl (m.insert e.1 e.2) (forall_mem_insert he hm)
  exact hfold .empty fun e he => absurd he List.not_mem_nil

theorem Keyed.mem_of_find? {m : Keyed α} {key : String} {a : α} (h : m.find? key = some a) :
    (key, a) ∈ m.entries := by
  have hl : ∀ l : List (String × α), l.lookup key = some a → (key, a) ∈ l := by
    intro l hl
    induction l with
    | nil => exact absurd hl (by simp)
    | cons e r ih =>
      rw [List.lookup_cons] at hl
      split at hl
      · next he =>
        rw [← Option.some.inj hl, beq_iff_eq.1 he]
        exact List.mem_cons_self
      · exact List.mem_cons_of_mem e (ih hl)
  exact hl m.entries h

/-- What is found under the key of an entry is the entry, as no key is there twice. -/
theorem Keyed.find?_of_mem {m : Keyed α} {key : String} {a : α} (h : (key, a) ∈ m.entries) :
    m.find? key = some a := by
  have hl : ∀ l : List (String × α), l.Pairwise (fun d e => d.1 < e.1) → (key, a) ∈ l →
      l.lookup key = some a := by
    intro l hl hmem
    induction l with
    | nil => exact absurd hmem List.not_mem_nil
    | cons e r ih =>
      obtain ⟨he, hr⟩ := List.pairwise_cons.1 hl
      rw [List.lookup_cons]
      rcases List.mem_cons.1 hmem with rfl | hmem
      · rw [beq_self_eq_true]
      · rw [beq_false_of_ne (he _ hmem).ne']
        exact ih hr hmem
  exact hl m.entries m.ascending h

theorem mem_distinct {l : List String} {a : String} : a ∈ distinct l ↔ a ∈ l := by
  have h : ∀ (l : List String) (m : Keyed Unit),
      a ∈ ((l.map (·, ())).foldl (fun m e => m.insert e.1 e.2) m).keys ↔ a ∈ l ∨ a ∈ m.keys := by
    intro l
    induction l with
    | nil => simp
    | cons b r ih =>
      intro m
      rw [List.map_cons, List.foldl_cons, ih, Keyed.mem_keys_insert, List.mem_cons]
      tauto
  have hl := h l .empty
  unfold distinct Keyed.ofList
  rw [hl]
  simp [Keyed.empty, Keyed.keys]

theorem pairwise_distinct (l : List String) : (distinct l).Pairwise (· < ·) :=
  List.pairwise_map.2 (Keyed.ofList (l.map (·, ()))).ascending

/-- The order of the list and repetitions do not count. -/
theorem distinct_congr {l l' : List String} (h : ∀ a, a ∈ l ↔ a ∈ l') : distinct l = distinct l' := by
  refine (pairwise_distinct l).eq_of_mem_iff (pairwise_distinct l') fun a => ?_
  rw [mem_distinct, mem_distinct, h]

end SupplyNet
