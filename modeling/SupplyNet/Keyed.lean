/-!
Entries under text keys, one for each key, in ascending order of the code points.
-/
set_option autoImplicit false

namespace SupplyNet

structure Keyed (α : Type) where
  entries : List (String × α)
  ascending : entries.Pairwise (fun a b => a.1 < b.1) := by simp
  deriving DecidableEq

namespace Keyed

variable {α : Type}

def empty : Keyed α := { entries := [] }

/-- The entries with one more. It takes the place of an entry with the same key. -/
def insertEntry (key : String) (a : α) : List (String × α) → List (String × α)
  | [] => [(key, a)]
  | e :: r =>
    if key < e.1 then (key, a) :: e :: r
    else if e.1 < key then e :: insertEntry key a r
    else (key, a) :: r

theorem mem_insertEntry {key : String} {a : α} {l : List (String × α)} {e : String × α}
    (h : e ∈ insertEntry key a l) : e.1 = key ∨ e ∈ l := by
  induction l with
  | nil => simp_all [insertEntry]
  | cons b r ih =>
    simp only [insertEntry] at h
    split at h
    · grind
    · split at h <;> grind

theorem ascending_insertEntry {key : String} {a : α} {l : List (String × α)}
    (h : l.Pairwise (fun a b => a.1 < b.1)) :
    (insertEntry key a l).Pairwise (fun a b => a.1 < b.1) := by
  induction l with
  | nil => simp [insertEntry]
  | cons b r ih =>
    obtain ⟨hb, hr⟩ := List.pairwise_cons.1 h
    simp only [insertEntry]
    split
    · next hlt =>
      exact List.pairwise_cons.2 ⟨fun e he => (List.mem_cons.1 he).elim (fun h => h ▸ hlt)
        fun he => String.lt_trans hlt (hb e he), h⟩
    · next hge =>
      split
      · next hlt =>
        exact List.pairwise_cons.2 ⟨fun e he => (mem_insertEntry he).elim (fun h => h ▸ hlt) (hb e),
          ih hr⟩
      · next hle =>
        have heq : key = b.1 := String.le_antisymm hle hge
        exact List.pairwise_cons.2 ⟨fun e he => heq ▸ hb e he, hr⟩

def insert (m : Keyed α) (key : String) (a : α) : Keyed α :=
  ⟨insertEntry key a m.entries, ascending_insertEntry m.ascending⟩

/-- Of several entries with one key the last one is kept. -/
def ofList (l : List (String × α)) : Keyed α := l.foldl (fun m e => m.insert e.1 e.2) empty

def find? (m : Keyed α) (key : String) : Option α := m.entries.lookup key

theorem find?_empty (key : String) : (empty : Keyed α).find? key = none := rfl

theorem lookup_cons_eq (k : String) (e : String × α) (l : List (String × α)) :
    (e :: l).lookup k = if k = e.1 then some e.2 else l.lookup k := by
  rw [List.lookup_cons]
  by_cases h : k = e.1
  · rw [if_pos h, beq_iff_eq.2 h]
  · rw [if_neg h, beq_false_of_ne h]

theorem find?_insert (m : Keyed α) (key : String) (a : α) (k : String) :
    (m.insert key a).find? k = if k = key then some a else m.find? k := by
  have h : ∀ l : List (String × α),
      (insertEntry key a l).lookup k = if k = key then some a else l.lookup k := by
    intro l
    induction l with
    | nil => exact lookup_cons_eq k (key, a) []
    | cons e r ih =>
      unfold insertEntry
      split
      · exact lookup_cons_eq k (key, a) (e :: r)
      · split
        · next hlt =>
          rw [lookup_cons_eq, lookup_cons_eq, ih]
          by_cases hk : k = e.1
          · subst hk
            rw [if_pos rfl, if_neg (String.ne_of_lt hlt), if_pos rfl]
          · rw [if_neg hk, if_neg hk]
        · next hge hle =>
          have heq : key = e.1 := String.le_antisymm hle hge
          rw [lookup_cons_eq, lookup_cons_eq, heq]
          split <;> rfl
  exact h m.entries

def keys (m : Keyed α) : List String := m.entries.map Prod.fst

def values (m : Keyed α) : List α := m.entries.map Prod.snd

def isEmpty (m : Keyed α) : Bool := m.entries.isEmpty

end Keyed

/-- The different texts of a list, in ascending order. -/
def distinct (l : List String) : List String := (Keyed.ofList (l.map (·, ()))).keys

end SupplyNet
