import Mathlib
import SupplyNet.Network.Components

/-!
Connected components. A search visits exactly the numbers that some edges join to its start, in
whatever direction, and the searches from all numbers split these into components.
-/
set_option autoImplicit false

namespace SupplyNet.Components

/-- Numbers that some edges join, whatever their directions. -/
def Joined (edges : List (Nat × Nat)) : Nat → Nat → Prop :=
  Relation.EqvGen fun i j => (i, j) ∈ edges

theorem eq_of_eqvGen {α β : Type} {r : α → α → Prop} (f : α → β) (h : ∀ a b, r a b → f a = f b)
    {a b : α} (hab : Relation.EqvGen r a b) : f a = f b := by
  induction hab with
  | rel a b hr => exact h a b hr
  | refl a => rfl
  | symm a b _ ih => exact ih.symm
  | trans a b c _ _ ih ih' => exact ih.trans ih'

section Joined

variable {edges : List (Nat × Nat)} {i j : Nat}

theorem mem_neighbours : j ∈ neighbours edges i ↔ (i, j) ∈ edges ∨ (j, i) ∈ edges := by
  simp [neighbours]

theorem joined_of_mem_neighbours (h : j ∈ neighbours edges i) : Joined edges i j := by
  rcases mem_neighbours.1 h with h | h
  · exact .rel _ _ h
  · exact .symm _ _ (.rel _ _ h)

/-- No edge leaves a set of numbers. -/
def Closed (edges : List (Nat × Nat)) (P : Nat → Prop) : Prop :=
  ∀ i, P i → ∀ j ∈ neighbours edges i, P j

theorem Closed.iff_of_joined {P : Nat → Prop} (h : Closed edges P) (hij : Joined edges i j) :
    P i ↔ P j := by
  refine iff_of_eq (eq_of_eqvGen P (fun a b hab => propext ⟨fun ha => ?_, fun hb => ?_⟩) hij)
  · exact h a ha b (mem_neighbours.2 (.inl hab))
  · exact h b hb a (mem_neighbours.2 (.inr hab))

theorem lt_of_joined {size : Nat} (h : ∀ e ∈ edges, e.1 < size ∧ e.2 < size)
    (hij : Joined edges i j) (hi : i < size) : j < size := by
  have hclosed : Closed edges (· < size) := by
    intro a _ b hab
    rcases mem_neighbours.1 hab with he | he
    · exact (h _ he).2
    · exact (h _ he).1
  exact (hclosed.iff_of_joined hij).1 hi

end Joined

/-! ## One search -/

namespace Search

variable {edges : List (Nat × Nat)} {old : List Nat} {start : Nat} {s : Search}

theorem mem_seen_find {i j : Nat} : j ∈ (s.find i).seen ↔ j = i ∨ j ∈ s.seen := by
  unfold find
  split
  · next h =>
    refine ⟨Or.inr, ?_⟩
    rintro (rfl | hj)
    · exact h
    · exact hj
  · exact List.mem_cons

theorem mem_seen_foldl_find {l : List Nat} {j : Nat} :
    j ∈ (l.foldl find s).seen ↔ j ∈ l ∨ j ∈ s.seen := by
  induction l generalizing s with
  | nil => simp
  | cons i l ih => rw [List.foldl_cons, ih, mem_seen_find, List.mem_cons, or_left_comm, or_assoc]

theorem visited_foldl_find (l : List Nat) (s : Search) :
    (l.foldl find s).visited = s.visited := by
  induction l generalizing s with
  | nil => rfl
  | cons i l ih =>
    rw [List.foldl_cons, ih]
    unfold find
    split <;> rfl

/-- What has been seen is queued, was visited or is old, and nothing is so twice. -/
structure Tidy (old : List Nat) (s : Search) : Prop where
  perm : s.seen.Perm (s.queue ++ (s.visited ++ old))
  nodup : s.seen.Nodup

namespace Tidy

theorem find (h : s.Tidy old) (i : Nat) : (s.find i).Tidy old := by
  unfold Search.find
  split
  · exact h
  · next hi => exact ⟨h.perm.cons i, List.nodup_cons.2 ⟨hi, h.nodup⟩⟩

theorem foldl_find (h : s.Tidy old) (l : List Nat) : (l.foldl Search.find s).Tidy old := by
  induction l generalizing s with
  | nil => exact h
  | cons i l ih => exact ih (h.find i)

theorem visit (h : s.Tidy old) {i : Nat} {queue : List Nat} (hq : s.queue = i :: queue) :
    (s.visit edges i queue).Tidy old := by
  refine foldl_find (s := { s with queue, visited := i :: s.visited }) ⟨?_, h.nodup⟩ _
  refine h.perm.trans ?_
  rw [hq]
  exact List.perm_middle.symm

theorem mem_seen_iff (h : s.Tidy old) {j : Nat} :
    j ∈ s.seen ↔ j ∈ s.queue ∨ j ∈ s.visited ∨ j ∈ old := by
  rw [h.perm.mem_iff, List.mem_append, List.mem_append]

end Tidy

/-- A search that goes on: what it has found is joined to its start, and whatever is next to what it
has visited has been seen. -/
structure Ongoing (edges : List (Nat × Nat)) (old : List Nat) (start : Nat) (s : Search) : Prop where
  tidy : s.Tidy old
  started : start ∈ s.seen
  joined : ∀ i ∈ s.seen, i ∉ old → Joined edges start i
  closed : ∀ i ∈ s.visited, ∀ j ∈ neighbours edges i, j ∈ s.seen

theorem ongoing_initial (hold : old.Nodup) (hstart : start ∉ old) :
    (initial old start).Ongoing edges old start := by
  refine ⟨⟨.refl _, List.nodup_cons.2 ⟨hstart, hold⟩⟩, List.mem_cons_self, fun i hi hn => ?_,
    fun i hi => absurd hi List.not_mem_nil⟩
  rw [(List.mem_cons.1 hi).resolve_right hn]
  exact .refl _

namespace Ongoing

/-- One visit: what is new is next to the visited number, which is joined to the start. -/
theorem visit (h : s.Ongoing edges old start) {i : Nat} {queue : List Nat}
    (hq : s.queue = i :: queue) : (s.visit edges i queue).Ongoing edges old start := by
  have hseen : ∀ j, j ∈ (s.visit edges i queue).seen ↔ j ∈ neighbours edges i ∨ j ∈ s.seen :=
    fun j => mem_seen_foldl_find
  have hqueued : i ∈ s.queue := hq ▸ List.mem_cons_self
  have hi : i ∈ s.seen := h.tidy.mem_seen_iff.2 (.inl hqueued)
  have hnew : i ∉ old := by
    intro hold
    have hnodup := h.tidy.perm.nodup_iff.1 h.tidy.nodup
    exact (List.disjoint_of_nodup_append hnodup) hqueued (List.mem_append_right _ hold)
  refine ⟨h.tidy.visit hq, (hseen _).2 (.inr h.started), fun j hj hn => ?_, fun k hk j hj => ?_⟩
  · rcases (hseen j).1 hj with hj | hj
    · exact .trans _ _ _ (h.joined i hi hnew) (joined_of_mem_neighbours hj)
    · exact h.joined j hj hn
  · unfold Search.visit at hk
    rw [visited_foldl_find] at hk
    rcases List.mem_cons.1 hk with rfl | hk
    · exact (hseen j).2 (.inl hj)
    · exact (hseen j).2 (.inr (h.closed k hk j hj))

/-- A search goes on until nothing is queued. -/
theorem run (h : s.Ongoing edges old start) :
    (s.run edges).Ongoing edges old start ∧ (s.run edges).queue = [] := by
  induction s using Search.run.induct edges with
  | case1 s hq =>
    rw [Search.run]
    split
    · exact ⟨h, hq⟩
    · next hq' => rw [hq] at hq'; cases hq'
  | case2 s i queue hq ih =>
    rw [Search.run]
    split
    · next hq' => rw [hq] at hq'; cases hq'
    · next i' queue' hq' =>
      rw [hq] at hq'
      obtain ⟨rfl, rfl⟩ := List.cons.inj hq'
      exact ih (h.visit hq)

end Ongoing

/-- A finished search has visited what is joined to its start, and nothing is lost of what was seen
before. -/
theorem visited_run (hold : old.Nodup) (hclosed : Closed edges (· ∈ old)) (hstart : start ∉ old) :
    (((initial old start).run edges).seen.Perm (((initial old start).run edges).visited ++ old)) ∧
      ((initial old start).run edges).seen.Nodup ∧
      ∀ j, j ∈ ((initial old start).run edges).visited ↔ Joined edges start j := by
  have hinitial : (initial old start).Ongoing edges old start := ongoing_initial hold hstart
  obtain ⟨h, hq⟩ := hinitial.run
  generalize (initial old start).run edges = s at h hq
  have hperm : s.seen.Perm (s.visited ++ old) := by
    have hp := h.tidy.perm
    rwa [hq, List.nil_append] at hp
  have hmem : ∀ j, j ∈ s.seen ↔ j ∈ s.visited ∨ j ∈ old := fun j => by
    rw [hperm.mem_iff, List.mem_append]
  have hdisjoint : ∀ j ∈ s.visited, j ∉ old := fun j hj hj' =>
    List.disjoint_of_nodup_append (hperm.nodup_iff.1 h.tidy.nodup) hj hj'
  -- An edge from a visited number to an old one would make the visited one old.
  have hvisited : Closed edges (· ∈ s.visited) := by
    intro i hi j hj
    refine ((hmem j).1 (h.closed i hi j hj)).resolve_right fun hj' => ?_
    exact hdisjoint i hi ((hclosed.iff_of_joined (joined_of_mem_neighbours hj)).2 hj')
  have hfirst : start ∈ s.visited := ((hmem start).1 h.started).resolve_right hstart
  refine ⟨hperm, h.tidy.nodup, fun j => ⟨fun hj => ?_, fun hj => ?_⟩⟩
  · exact h.joined j ((hmem j).2 (.inl hj)) (hdisjoint j hj)
  · exact (hvisited.iff_of_joined hj).1 hfirst

end Search

/-! ## All searches -/

/-- Some numbers in components: each number is in one of them, and in that once, together with all
that is joined to it. Each component is in ascending order, and they are in the order of their first
members. -/
structure Partition (edges : List (Nat × Nat)) (numbers : List Nat) (cs : List (List Nat)) : Prop where
  perm : cs.flatten.Perm numbers
  nonempty : ∀ c ∈ cs, c ≠ []
  joined : ∀ c ∈ cs, ∀ i ∈ c, ∀ j, j ∈ c ↔ Joined edges i j
  ascending : ∀ c ∈ cs, c.Pairwise (· < ·)
  ordered : cs.Pairwise fun c d => ∀ i ∈ c.head?, ∀ j ∈ d.head?, i < j

theorem ascending_eq_insertionSort (l : List Nat) : ascending l = l.insertionSort (· ≤ ·) := by
  have hinsert : ∀ (i : Nat) (r : List Nat), insertAscending i r = r.orderedInsert (· ≤ ·) i := by
    intro i r
    induction r with
    | nil => rfl
    | cons j r ih => rw [insertAscending, ih, List.orderedInsert]
  induction l with
  | nil => rfl
  | cons i l ih => rw [List.insertionSort_cons, ← ih, ← hinsert]; rfl

theorem perm_ascending (l : List Nat) : (ascending l).Perm l := by
  rw [ascending_eq_insertionSort]
  exact List.perm_insertionSort _ l

theorem pairwise_lt_ascending {l : List Nat} (h : l.Nodup) : (ascending l).Pairwise (· < ·) := by
  have hle : (ascending l).Pairwise (· ≤ ·) := by
    rw [ascending_eq_insertionSort]
    exact List.pairwise_insertionSort _ l
  have hne : (ascending l).Nodup := (perm_ascending l).nodup_iff.2 h
  exact hle.imp₂ (fun a b hab hne => Nat.lt_of_le_of_ne hab hne) hne

theorem head_le_of_mem {l : List Nat} (h : l.Pairwise (· < ·)) {i j : Nat} (hi : i ∈ l.head?)
    (hj : j ∈ l) : i ≤ j := by
  cases l with
  | nil => cases hj
  | cons first l =>
    obtain rfl : first = i := by simpa using hi
    rcases List.mem_cons.1 hj with rfl | hj
    · exact Nat.le_refl _
    · exact Nat.le_of_lt ((List.pairwise_cons.1 h).1 j hj)

/-- What one search visits and what is left for the others. -/
theorem perm_visited_append_filter {starts seen seen' visited : List Nat} (hstarts : starts.Nodup)
    (hvisited : visited.Nodup) (hseen' : ∀ j, j ∈ seen' ↔ j ∈ visited ∨ j ∈ seen)
    (hfound : ∀ j ∈ visited, j ∈ starts) (hnew : visited.Disjoint seen) :
    (visited ++ starts.filter (· ∉ seen')).Perm (starts.filter (· ∉ seen)) := by
  have hleft : visited.Disjoint (starts.filter (· ∉ seen')) := fun j hj hj' => by
    simp [hseen', hj] at hj'
  refine (List.perm_ext_iff_of_nodup (hvisited.append (hstarts.filter _) hleft)
    (hstarts.filter _)).2 fun j => ?_
  simp only [List.mem_append, List.mem_filter, decide_eq_true_eq, hseen', not_or]
  constructor
  · rintro (hj | ⟨hj, -, hn⟩)
    · exact ⟨hfound j hj, hnew hj⟩
    · exact ⟨hj, hn⟩
  · rintro ⟨hj, hn⟩
    by_cases hv : j ∈ visited
    · exact .inl hv
    · exact .inr ⟨hj, hv, hn⟩

variable {edges : List (Nat × Nat)} {size : Nat}

theorem Partition.of_perm {numbers numbers' : List Nat} {cs : List (List Nat)}
    (h : Partition edges numbers cs) (hn : numbers.Perm numbers') : Partition edges numbers' cs :=
  { h with perm := h.perm.trans hn }

/-- One more component in front, if a member of it comes before all that is in the others. -/
theorem Partition.cons {numbers c : List Nat} {cs : List (List Nat)} {start : Nat}
    (h : Partition edges numbers cs) (hstart : start ∈ c) (hc : c.Pairwise (· < ·))
    (hjoined : ∀ j, j ∈ c ↔ Joined edges start j) (hbefore : ∀ j ∈ numbers, start < j) :
    Partition edges (c ++ numbers) (c :: cs) where
  perm := h.perm.append_left c
  nonempty := List.forall_mem_cons.2 ⟨List.ne_nil_of_mem hstart, h.nonempty⟩
  joined := by
    refine List.forall_mem_cons.2 ⟨fun i hi j => ?_, h.joined⟩
    rw [hjoined] at hi ⊢
    exact ⟨fun hj => .trans _ _ _ (.symm _ _ hi) hj, fun hj => .trans _ _ _ hi hj⟩
  ascending := List.forall_mem_cons.2 ⟨hc, h.ascending⟩
  ordered := by
    refine List.pairwise_cons.2 ⟨fun d hd i hi j hj => ?_, h.ordered⟩
    have hlater : j ∈ numbers :=
      h.perm.subset (List.mem_flatten.2 ⟨d, hd, List.mem_of_mem_head? hj⟩)
    exact Nat.lt_of_le_of_lt (head_le_of_mem hc hi hstart) (hbefore j hlater)

/-- The searches from some numbers in ascending order find all components of what has not been seen
yet, if all that has not been seen is among them. -/
theorem partition_search (hedges : ∀ e ∈ edges, e.1 < size ∧ e.2 < size) {starts seen : List Nat}
    (hstarts : starts.Pairwise (· < ·)) (hbelow : ∀ i ∈ starts, i < size)
    (hall : ∀ i < size, i ∉ seen → i ∈ starts) (hseen : seen.Nodup)
    (hclosed : Closed edges (· ∈ seen)) :
    Partition edges (starts.filter (· ∉ seen)) (search edges seen starts) := by
  induction starts generalizing seen with
  | nil => exact ⟨.refl _, by simp [search], by simp [search], by simp [search], .nil⟩
  | cons start starts ih =>
    have hnodups : (start :: starts).Nodup := hstarts.imp Nat.ne_of_lt
    obtain ⟨hlt, hstarts⟩ := List.pairwise_cons.1 hstarts
    obtain ⟨hstart, hbelow⟩ := List.forall_mem_cons.1 hbelow
    unfold search
    split
    · next hmem =>
      rw [List.filter_cons_of_neg (by simpa using hmem)]
      refine ih hstarts hbelow (fun i hi hn => ?_) hseen hclosed
      refine (List.mem_cons.1 (hall i hi hn)).resolve_left ?_
      rintro rfl
      exact hn hmem
    · next hnew =>
      obtain ⟨hperm, hnodup, hvisited⟩ := Search.visited_run hseen hclosed hnew
      dsimp only
      generalize (Search.initial seen start).run edges = s at hperm hnodup hvisited
      have hmem : ∀ j, j ∈ s.seen ↔ j ∈ s.visited ∨ j ∈ seen := fun j => by
        rw [hperm.mem_iff, List.mem_append]
      have hsplit := List.nodup_append'.1 (hperm.nodup_iff.1 hnodup)
      have hfirst : start ∈ s.visited := (hvisited start).2 (.refl _)
      have hrest : Partition edges (starts.filter (· ∉ s.seen)) (search edges s.seen starts) := by
        refine ih hstarts hbelow (fun i hi hn => ?_) hnodup fun i hi j hj => ?_
        · rw [hmem, not_or] at hn
          refine (List.mem_cons.1 (hall i hi hn.2)).resolve_left ?_
          rintro rfl
          exact hn.1 hfirst
        · refine (hmem j).2 (((hmem i).1 hi).imp (fun hi => ?_) fun hi => hclosed i hi j hj)
          exact (hvisited j).2 (.trans _ _ _ ((hvisited i).1 hi) (joined_of_mem_neighbours hj))
      -- What is joined to the start has not been seen, so it is the start or comes behind it.
      have hfound : ∀ j ∈ s.visited, j ∈ start :: starts := fun j hj =>
        hall j (lt_of_joined hedges ((hvisited j).1 hj) hstart) (hsplit.2.2 hj)
      have hcons := hrest.cons ((perm_ascending _).mem_iff.2 hfirst)
        (pairwise_lt_ascending hsplit.1) (fun j => (perm_ascending _).mem_iff.trans (hvisited j))
        fun j hj => hlt j (List.mem_of_mem_filter hj)
      have hleft : (start :: starts).filter (· ∉ s.seen) = starts.filter (· ∉ s.seen) :=
        List.filter_cons_of_neg (by simpa using (hmem start).2 (.inl hfirst))
      have hnumbers := perm_visited_append_filter hnodups hsplit.1 hmem hfound hsplit.2.2
      rw [hleft] at hnumbers
      exact hcons.of_perm (((perm_ascending _).append_right _).trans hnumbers)

theorem partition_components (hedges : ∀ e ∈ edges, e.1 < size ∧ e.2 < size) :
    Partition edges (List.range size) (components size edges) := by
  have h : Partition edges ((List.range size).filter (· ∉ [])) (search edges [] (List.range size)) :=
    partition_search hedges List.pairwise_lt_range (fun i hi => List.mem_range.1 hi)
      (fun i hi _ => List.mem_range.2 hi) .nil (fun i hi => absurd hi List.not_mem_nil)
  rwa [List.filter_eq_self.2 (by simp)] at h

namespace Partition

variable {numbers : List Nat} {cs : List (List Nat)}

theorem exists_mem (h : Partition edges numbers cs) {i : Nat} (hi : i ∈ numbers) :
    ∃ c ∈ cs, i ∈ c :=
  List.mem_flatten.1 (h.perm.mem_iff.2 hi)

/-- No more than one component holds all numbers if all are joined. -/
theorem length_le_one_iff (h : Partition edges numbers cs) :
    cs.length ≤ 1 ↔ ∀ i ∈ numbers, ∀ j ∈ numbers, Joined edges i j := by
  constructor
  · intro hlen i hi j hj
    obtain ⟨c, hc, hic⟩ := h.exists_mem hi
    obtain ⟨d, hd, hjd⟩ := h.exists_mem hj
    have hcd : c = d := by
      cases cs with
      | nil => cases hc
      | cons c' cs =>
        obtain rfl : cs = [] := List.length_eq_zero_iff.1 (by simpa using hlen)
        exact (List.mem_singleton.1 hc).trans (List.mem_singleton.1 hd).symm
    exact (h.joined c hc i hic j).1 (hcd ▸ hjd)
  · intro hall
    match cs with
    | [] | [_] => simp
    | c :: d :: cs =>
      have hc : c ∈ c :: d :: cs := List.mem_cons_self
      have hd : d ∈ c :: d :: cs := List.mem_cons_of_mem c List.mem_cons_self
      have hi := List.head?_eq_some_head (h.nonempty c hc)
      have hj := List.head?_eq_some_head (h.nonempty d hd)
      generalize c.head _ = i, d.head _ = j at hi hj
      have hmem : ∀ k, ∀ b ∈ c :: d :: cs, k ∈ b → k ∈ numbers := fun k b hb hk =>
        h.perm.mem_iff.1 (List.mem_flatten.2 ⟨b, hb, hk⟩)
      have hic := List.mem_of_mem_head? hi
      have hjd := List.mem_of_mem_head? hj
      -- The first member of the first component would be in the second one, before its first.
      have hlt : i < j :=
        (List.pairwise_cons.1 h.ordered).1 d List.mem_cons_self i hi j hj
      have hid : i ∈ d := (h.joined d hd j hjd i).2 (hall j (hmem j d hd hjd) i (hmem i c hc hic))
      exact absurd (head_le_of_mem (h.ascending d hd) hj hid) (Nat.not_le_of_lt hlt)

end Partition

theorem length_components_le_one_iff (hedges : ∀ e ∈ edges, e.1 < size ∧ e.2 < size) :
    (components size edges).length ≤ 1 ↔ ∀ i < size, ∀ j < size, Joined edges i j := by
  simpa using (partition_components hedges).length_le_one_iff

end SupplyNet.Components
