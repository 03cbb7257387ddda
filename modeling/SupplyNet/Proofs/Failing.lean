import Mathlib
import SupplyNet.Proofs.Checked

/-!
How computations fail: which errors a chain of them may end in, or one for each item of a list.
-/
set_option autoImplicit false

namespace SupplyNet

variable {ε ε' σ α β : Type} {P : ε → Prop}

/-- A computation fails if it does not succeed. -/
theorem exists_error_iff {x : Except ε α} : (∃ e, x = .error e) ↔ ∀ a, x ≠ .ok a := by
  cases x with
  | error e => simp
  | ok a => simp

/-- If a computation fails, then in one of the given ways. -/
def FailsOnly (P : ε → Prop) (x : Except ε α) : Prop := ∀ e, x = .error e → P e

theorem failsOnly_ok (a : α) : FailsOnly P (.ok a : Except ε α) := fun _ h => by cases h

theorem failsOnly_error {e : ε} (he : P e) : FailsOnly P (.error e : Except ε α) := by
  rintro e' ⟨⟩
  exact he

theorem failsOnly_of_exists {x : Except ε α} (h : ∃ a, x = .ok a) : FailsOnly P x := by
  obtain ⟨a, rfl⟩ := h
  exact failsOnly_ok a

namespace FailsOnly

theorem imp {P' : ε → Prop} {x : Except ε α} (hx : FailsOnly P x) (h : ∀ e, P e → P' e) :
    FailsOnly P' x :=
  fun e he => h e (hx e he)

theorem bind {x : Except ε α} {f : α → Except ε β} (hx : FailsOnly P x)
    (hf : ∀ a, x = .ok a → FailsOnly P (f a)) : FailsOnly P (x >>= f) := by
  intro e h
  rcases bind_eq_error_iff.1 h with h | ⟨a, ha, h⟩
  · exact hx e h
  · exact hf a ha e h

theorem map {x : Except ε α} {f : α → β} (hx : FailsOnly P x) : FailsOnly P (x.map f) := by
  cases x with
  | error e => exact failsOnly_error (hx e rfl)
  | ok a => exact failsOnly_ok (f a)

theorem mapError {x : Except ε' α} {f : ε' → ε} (hx : FailsOnly (fun e => P (f e)) x) :
    FailsOnly P (x.mapError f) := by
  intro e h
  obtain ⟨e', he, rfl⟩ := mapError_eq_error_iff.1 h
  exact hx e' he

end FailsOnly

theorem failsOnly_mapM {f : α → Except ε β} {l : List α} (hf : ∀ a ∈ l, FailsOnly P (f a)) :
    FailsOnly P (l.mapM f) := by
  induction l with
  | nil => exact failsOnly_ok []
  | cons a l ih =>
    obtain ⟨ha, hl⟩ := List.forall_mem_cons.1 hf
    rw [List.mapM_cons]
    exact ha.bind fun b _ => (ih hl).bind fun bs _ => failsOnly_ok (b :: bs)

theorem failsOnly_foldlM {f : σ → α → Except ε σ} {l : List α}
    (hf : ∀ a ∈ l, ∀ s, FailsOnly P (f s a)) (s : σ) : FailsOnly P (l.foldlM f s) := by
  induction l generalizing s with
  | nil => exact failsOnly_ok s
  | cons a l ih =>
    obtain ⟨ha, hl⟩ := List.forall_mem_cons.1 hf
    rw [List.foldlM_cons]
    exact (ha s).bind fun s' _ => ih hl s'

theorem failsOnly_runEach {f : σ → α → Except ε (β × σ)} {l : List α}
    (hf : ∀ a ∈ l, ∀ s, FailsOnly P (f s a)) (s : σ) : FailsOnly P (runEach f s l) := by
  induction l generalizing s with
  | nil => exact failsOnly_ok ([], s)
  | cons a l ih =>
    obtain ⟨ha, hl⟩ := List.forall_mem_cons.1 hf
    exact (ha s).bind fun p _ => (ih hl p.2).bind fun q _ => failsOnly_ok (p.1 :: q.1, q.2)

end SupplyNet
