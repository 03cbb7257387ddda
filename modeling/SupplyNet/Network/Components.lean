/-!
The connected components of an undirected graph on the numbers below a bound. A search starts at
each number that no search before has seen, and goes on to all neighbours of what it visits.
-/
set_option autoImplicit false

namespace SupplyNet.Components

/-- The other ends of the edges at a number. -/
def neighbours (edges : List (Nat × Nat)) (i : Nat) : List Nat :=
  (edges.filter (·.1 = i)).map (·.2) ++ (edges.filter (·.2 = i)).map (·.1)

/-- What all searches have seen, what this one has still to visit, the last find first, and what it
has visited. -/
structure Search where
  seen : List Nat
  queue : List Nat
  visited : List Nat

namespace Search

/-- Each find is queued once. -/
def find (s : Search) (i : Nat) : Search :=
  if i ∈ s.seen then s else { s with seen := i :: s.seen, queue := i :: s.queue }

/-- Visits the first of a queue and finds its neighbours. -/
def visit (edges : List (Nat × Nat)) (s : Search) (i : Nat) (queue : List Nat) : Search :=
  (neighbours edges i).foldl find { s with queue, visited := i :: s.visited }

/-! ## Termination -/

def ends (edges : List (Nat × Nat)) : List Nat := edges.flatMap fun e => [e.1, e.2]

/-- What is queued and what may still be found. A find moves from one to the other. -/
def outstanding (edges : List (Nat × Nat)) (s : Search) : Nat :=
  s.queue.length + (ends edges).countP (· ∉ s.seen)

theorem mem_ends_of_mem_neighbours {edges : List (Nat × Nat)} {i j : Nat}
    (h : j ∈ neighbours edges i) : j ∈ ends edges := by
  simp only [neighbours, List.mem_append, List.mem_map, List.mem_filter] at h
  simp only [ends, List.mem_flatMap]
  rcases h with ⟨e, ⟨he, -⟩, rfl⟩ | ⟨e, ⟨he, -⟩, rfl⟩
  · exact ⟨e, he, by simp⟩
  · exact ⟨e, he, by simp⟩

theorem countP_unseen_lt {l seen : List Nat} {i : Nat} (hi : i ∈ l) (hn : i ∉ seen) :
    l.countP (· ∉ i :: seen) < l.countP (· ∉ seen) := by
  have hle : ∀ r : List Nat, r.countP (· ∉ i :: seen) ≤ r.countP (· ∉ seen) := fun r =>
    List.countP_mono_left fun j _ hj =>
      decide_eq_true fun h => of_decide_eq_true hj (List.mem_cons_of_mem i h)
  obtain ⟨before, behind, rfl⟩ := List.append_of_mem hi
  have hbefore := hle before
  have hbehind := hle behind
  simp only [List.countP_append, List.countP_cons, List.mem_cons_self, not_true_eq_false, hn,
    not_false_eq_true, decide_true, decide_false, Bool.false_eq_true, if_true, if_false]
  omega

theorem outstanding_find_le {edges : List (Nat × Nat)} (s : Search) {i : Nat}
    (hi : i ∈ ends edges) : (s.find i).outstanding edges ≤ s.outstanding edges := by
  unfold find
  split
  · exact Nat.le_refl _
  · next hn =>
    have hlt := countP_unseen_lt hi hn
    simp only [outstanding, List.length_cons]
    omega

theorem outstanding_foldl_find_le {edges : List (Nat × Nat)} {l : List Nat}
    (h : ∀ i ∈ l, i ∈ ends edges) (s : Search) :
    (l.foldl find s).outstanding edges ≤ s.outstanding edges := by
  induction l generalizing s with
  | nil => exact Nat.le_refl _
  | cons i l ih =>
    exact Nat.le_trans (ih (fun j hj => h j (List.mem_cons_of_mem i hj)) (s.find i))
      (outstanding_find_le s (h i List.mem_cons_self))

/-- A visit takes one number from the queue for good. -/
theorem outstanding_visit_lt (edges : List (Nat × Nat)) {s : Search} {i : Nat} {queue : List Nat}
    (h : s.queue = i :: queue) : (s.visit edges i queue).outstanding edges < s.outstanding edges := by
  have hle := outstanding_foldl_find_le (fun _ hj => mem_ends_of_mem_neighbours hj)
    { s with queue, visited := i :: s.visited } (l := neighbours edges i)
  simp only [outstanding, h, List.length_cons] at hle ⊢
  exact Nat.lt_of_le_of_lt hle (by omega)

/-! ## Search -/

/-- Visits what is queued until nothing is left. -/
def run (edges : List (Nat × Nat)) (s : Search) : Search :=
  match _h : s.queue with
  | [] => s
  | i :: queue => run edges (s.visit edges i queue)
termination_by s.outstanding edges
decreasing_by exact outstanding_visit_lt edges _h

/-- A search that has just begun. -/
def initial (seen : List Nat) (start : Nat) : Search := ⟨start :: seen, [start], []⟩

end Search

def insertAscending (i : Nat) : List Nat → List Nat
  | [] => [i]
  | j :: r => if i ≤ j then i :: j :: r else j :: insertAscending i r

def ascending (l : List Nat) : List Nat := l.foldr insertAscending []

/-- Searches from each of some numbers, unless it was seen before. -/
def search (edges : List (Nat × Nat)) (seen : List Nat) : List Nat → List (List Nat)
  | [] => []
  | start :: starts =>
    if start ∈ seen then search edges seen starts
    else
      let s := (Search.initial seen start).run edges
      ascending s.visited :: search edges s.seen starts

/-- The components in the order of their first members, each in ascending order. -/
def components (size : Nat) (edges : List (Nat × Nat)) : List (List Nat) :=
  search edges [] (List.range size)

end SupplyNet.Components
