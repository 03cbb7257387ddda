import Mathlib
import SupplyNet.Proofs.Network.Variables

/-!
Steps that add variables. What such a step does depends on the model only through the names that
are taken: it *realizes* a reading of the registry if, with fresh names, it extends the model by
its blocks and answers what is read from any later model.
-/
set_option autoImplicit false

namespace SupplyNet

variable {K : Type} {β γ : Type}

/-- A step from the model `m` either adds some blocks and answers what is read from then on, or it
fails as a name is taken, or it fails as a unit does not fit and then nothing can be read. -/
def Realizes (read : Model K → Except (CompileError K) β) (m : Model K) (bs : List (Block K)) :
    Except (CompileError K) (β × Model K) → Prop
  | .ok (b, m') => m.Fresh bs ∧ m' = m.extend bs ∧ ∀ cs, read (m'.extend cs) = .ok b
  | .error e =>
    (∃ name, e = .model (.duplicate name)) ∧ ¬m.Fresh bs ∨
      (∃ u, e = .unit u) ∧ ∀ cs b, read ((m.extend bs).extend cs) ≠ .ok b

namespace Realizes

variable {m : Model K} {bs cs : List (Block K)}
variable {read : Model K → Except (CompileError K) β} {r : Except (CompileError K) (β × Model K)}

theorem congr {read' : Model K → Except (CompileError K) β} (h : Realizes read m bs r)
    (he : ∀ m b, read m = .ok b ↔ read' m = .ok b) : Realizes read' m bs r := by
  cases r with
  | ok p => exact ⟨h.1, h.2.1, fun ds => (he _ _).1 (h.2.2 ds)⟩
  | error e =>
    rcases h with hname | ⟨hunit, hread⟩
    · exact Or.inl hname
    · exact Or.inr ⟨hunit, fun ds b hb => hread ds b ((he _ _).2 hb)⟩

theorem congr_eq {read' : Model K → Except (CompileError K) β} (h : Realizes read m bs r)
    (he : ∀ m, read m = read' m) : Realizes read' m bs r :=
  h.congr fun m _ => by rw [he m]

theorem pure (b : β) : Realizes (fun _ => .ok b) m [] (.ok (b, m)) :=
  ⟨m.fresh_nil, rfl, fun _ => rfl⟩

/-- A computation beside the model, of which only a unit may be wrong. -/
theorem beside (x : Except UnitError β) (f : β → γ) :
    Realizes (fun _ => (x.mapError .unit).map f) m []
      (x.mapError .unit >>= fun b => Except.ok (f b, m)) := by
  cases x with
  | ok b => exact pure (f b)
  | error e => exact Or.inr ⟨⟨e, rfl⟩, fun _ _ h => absurd h (by simp [Except.mapError, Except.map])⟩

theorem bind {readNext : β → Model K → Except (CompileError K) γ}
    {next : β × Model K → Except (CompileError K) (γ × Model K)} (h : Realizes read m bs r)
    (hnext : ∀ b, (∀ ds, read ((m.extend bs).extend ds) = .ok b) →
      Realizes (readNext b) (m.extend bs) cs (next (b, m.extend bs))) :
    Realizes (fun m => read m >>= fun b => readNext b m) m (bs ++ cs) (r >>= next) := by
  cases r with
  | error e =>
    rcases h with ⟨hname, hf⟩ | ⟨hunit, hread⟩
    · exact Or.inl ⟨hname, fun hf' => hf ((m.fresh_append bs cs).1 hf').1⟩
    · refine Or.inr ⟨hunit, fun ds c hc => ?_⟩
      obtain ⟨b, hb, -⟩ := bind_eq_ok_iff.1 hc
      rw [m.extend_append, ← (m.extend bs).extend_append] at hb
      exact hread (cs ++ ds) b hb
  | ok p =>
    obtain ⟨b, m'⟩ := p
    obtain ⟨hf, rfl, hread⟩ := h
    have hread' : ∀ ds, (read (((m.extend bs).extend cs).extend ds) >>= fun b =>
        readNext b (((m.extend bs).extend cs).extend ds)) =
        readNext b (((m.extend bs).extend cs).extend ds) := by
      intro ds
      have hb := hread (cs ++ ds)
      rw [(m.extend bs).extend_append] at hb
      rw [hb]
      rfl
    have hn := hnext b hread
    change Realizes _ m (bs ++ cs) (next (b, m.extend bs))
    cases hr : next (b, m.extend bs) with
    | ok q =>
      obtain ⟨c, m''⟩ := q
      rw [hr] at hn
      obtain ⟨hf', rfl, hc⟩ := hn
      refine ⟨(m.fresh_append bs cs).2 ⟨hf, hf'⟩, (m.extend_append bs cs).symm, fun ds => ?_⟩
      exact (hread' ds).trans (hc ds)
    | error e =>
      rw [hr] at hn
      rcases hn with ⟨hname, hf'⟩ | ⟨hunit, hu⟩
      · exact Or.inl ⟨hname, fun h => hf' ((m.fresh_append bs cs).1 h).2⟩
      · refine Or.inr ⟨hunit, fun ds c hc => ?_⟩
        rw [m.extend_append] at hc
        exact hu ds c ((hread' ds).symm.trans hc)

theorem map (h : Realizes read m bs r) (f : β → γ) :
    Realizes (fun m => (read m).map f) m bs (r.map fun p => (f p.1, p.2)) := by
  have hb : Realizes (fun m => read m >>= fun b => .ok (f b)) m (bs ++ [])
      (r >>= fun p => .ok (f p.1, p.2)) := h.bind fun b _ => pure (f b)
  rw [List.append_nil] at hb
  exact hb

theorem runEach {α : Type} {read : α → Model K → Except (CompileError K) β}
    {blocks : α → List (Block K)} {f : Model K → α → Except (CompileError K) (β × Model K)}
    {l : List α} (h : ∀ a ∈ l, ∀ m, Realizes (read a) m (blocks a) (f m a)) (m : Model K) :
    Realizes (fun m => l.mapM fun a => read a m) m (l.flatMap blocks)
      (SupplyNet.runEach f m l) := by
  induction l generalizing m with
  | nil => exact pure []
  | cons a l ih =>
    have hrest : ∀ b, Realizes (fun m => (l.mapM fun a => read a m).map (b :: ·))
        (m.extend (blocks a)) (l.flatMap blocks)
        ((SupplyNet.runEach f (m.extend (blocks a)) l).map fun p => (b :: p.1, p.2)) :=
      fun b => (ih (fun c hc => h c (List.mem_cons_of_mem a hc)) (m.extend (blocks a))).map (b :: ·)
    have hall : Realizes (fun m => read a m >>= fun b => (l.mapM fun a => read a m).map (b :: ·)) m
        (blocks a ++ l.flatMap blocks)
        (f m a >>= fun p => (SupplyNet.runEach f p.2 l).map fun q => (p.1 :: q.1, q.2)) :=
      (h a List.mem_cons_self m).bind fun b _ => hrest b
    refine hall.congr_eq fun m => ?_
    rw [List.mapM_cons]
    rfl

/-- The step succeeds exactly if the names are fresh and there is something to be read. -/
theorem eq_ok_iff (h : Realizes read m bs r) {b : β} {m' : Model K} :
    r = .ok (b, m') ↔ m.Fresh bs ∧ m' = m.extend bs ∧ read m' = .ok b := by
  constructor
  · rintro rfl
    exact ⟨h.1, h.2.1, h.2.2 []⟩
  · rintro ⟨hf, rfl, hread⟩
    cases r with
    | ok p =>
      obtain ⟨b', m''⟩ := p
      obtain ⟨-, rfl, hread'⟩ := h
      have hb : Except.ok b' = (.ok b : Except (CompileError K) β) := (hread' []).symm.trans hread
      rw [Except.ok.inj hb]
    | error e =>
      rcases h with ⟨-, hf'⟩ | ⟨-, hu⟩
      · exact absurd hf hf'
      · exact absurd hread (hu [] b)

theorem not_fresh (h : Realizes read m bs r) {name : String}
    (hr : r = .error (.model (.duplicate name))) : ¬m.Fresh bs := by
  subst hr
  rcases h with ⟨-, hf⟩ | ⟨⟨u, hu⟩, -⟩
  · exact hf
  · exact absurd hu (by simp)

/-- If a name is taken, the step fails, and for no other reason if there is something to be read. -/
theorem duplicate (h : Realizes read m bs r) (hf : ¬m.Fresh bs) {b : β}
    (hread : read (m.extend bs) = .ok b) : ∃ name, r = .error (.model (.duplicate name)) := by
  cases r with
  | ok p => exact absurd h.1 hf
  | error e =>
    rcases h with ⟨⟨name, rfl⟩, -⟩ | ⟨-, hu⟩
    · exact ⟨name, rfl⟩
    · exact absurd hread (hu [] b)

end Realizes

end SupplyNet
