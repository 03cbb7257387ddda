import Mathlib
import SupplyNet.Linear.Model

/-!
The registry of a model. A variable takes a block of columns behind those that exist, so a model
whose variables were added one by one is determined by the list of its blocks. Every column has an
address: the name of its variable, with the step if the variable is a series.
-/
set_option autoImplicit false

namespace SupplyNet

/-- What a variable asks for: one column, or one for each of some steps. -/
structure Block (K : Type) where
  name : String
  lower : Option K
  steps : Option Nat

/-- The name of a variable, with a step of it. -/
abbrev Address := String × Option Nat

def Address.text : Address → String
  | (name, none) => name
  | (name, some t) => s!"{name}[{t}]"

/-- The columns of a variable under its name. -/
def Variable.places (name : String) : Variable → List (Var × Address)
  | .scalar v => [(v, (name, none))]
  | .series vs => vs.toList.zipIdx.map fun (v, t) => (v, (name, some t))

namespace Block

variable {K : Type}

def addresses (b : Block K) : List Address :=
  match b.steps with
  | none => [(b.name, none)]
  | some n => (List.range n).map fun t => (b.name, some t)

/-- The variable that the block makes behind `start` columns. -/
def shape (b : Block K) (start : Nat) : Variable :=
  match b.steps with
  | none => .scalar ⟨start⟩
  | some n => .series ((Array.range n).map fun t => ⟨start + t⟩)

def columns (b : Block K) : Array (Column K) :=
  match b.steps with
  | none => #[⟨b.name, b.lower⟩]
  | some n => (Array.range n).map fun t => ⟨s!"{b.name}[{t}]", b.lower⟩

theorem columns_toList (b : Block K) :
    b.columns.toList = b.addresses.map fun a => ⟨a.text, b.lower⟩ := by
  unfold columns addresses
  cases b.steps with
  | none => rfl
  | some n => simp [Address.text]

theorem fst_of_mem_addresses {b : Block K} {a : Address} (h : a ∈ b.addresses) : a.1 = b.name := by
  unfold addresses at h
  split at h
  · rw [List.mem_singleton.1 h]
  · obtain ⟨t, -, rfl⟩ := List.mem_map.1 h
    rfl

theorem nodup_addresses (b : Block K) : b.addresses.Nodup := by
  unfold addresses
  split
  · exact List.nodup_singleton _
  · refine List.nodup_range.map fun s t h => ?_
    exact Option.some.inj (Prod.mk.inj h).2

theorem places_shape (b : Block K) (start : Nat) :
    (b.shape start).places b.name =
      b.addresses.zipIdx.map fun (a, i) => ((⟨start + i⟩ : Var), a) := by
  unfold shape addresses
  cases b.steps with
  | none => rfl
  | some n =>
    simp only [Variable.places, Array.toList_map, Array.toList_range, List.zipIdx_map, List.map_map]
    apply List.map_congr_left
    rintro ⟨s, t⟩ h
    obtain ⟨ht, hs⟩ := List.mem_zipIdx' h
    rw [List.getElem_range] at hs
    simp [hs]

end Block

theorem Indexes.exists_getElem? {indices : Keyed Nat} {named : Array (String × Variable)}
    (h : Indexes indices named) (name : String) (x : Variable) :
    ∃ y, (named.push (name, x))[(indices.find? name).getD named.size]? = some (name, y) := by
  cases hfind : indices.find? name with
  | none => exact ⟨x, Array.getElem?_push_size⟩
  | some i => exact h.getElem?_push hfind (name, x)

namespace Model

variable {K : Type}

def names (m : Model K) : List String := m.named.toList.map Prod.fst

/-- All columns with their addresses, variable by variable. -/
def places (m : Model K) : List (Var × Address) :=
  m.named.toList.flatMap fun e => e.2.places e.1

def addresses (m : Model K) : List Address := m.places.map Prod.snd

/-! ## Adding blocks -/

/-- The model with one more block, whatever the names that are taken. A name that is taken still
leads to the block that took it. -/
def push (m : Model K) (b : Block K) : Model K :=
  { m with
    columns := m.columns ++ b.columns
    named := m.named.push (b.name, b.shape m.columns.size)
    indices := m.indices.insert b.name ((m.indices.find? b.name).getD m.named.size)
    indexed := m.indexed.push (m.indexed.exists_getElem? b.name _) }

def extend (m : Model K) (bs : List (Block K)) : Model K := bs.foldl push m

theorem extend_append (m : Model K) (bs cs : List (Block K)) :
    m.extend (bs ++ cs) = (m.extend bs).extend cs :=
  List.foldl_append

theorem names_push (m : Model K) (b : Block K) : (m.push b).names = m.names ++ [b.name] := by
  simp [names, push]

theorem names_extend (m : Model K) (bs : List (Block K)) :
    (m.extend bs).names = m.names ++ bs.map (·.name) := by
  induction bs generalizing m with
  | nil => simp [extend]
  | cons b bs ih =>
    have h := ih (m.push b)
    rw [names_push, List.append_assoc] at h
    exact h

/-! ## Names and their places -/

/-- What is found under a name is a variable of this name. -/
theorem find?_eq_some_iff {m : Model K} {name : String} {x : Variable} :
    m.find? name = some x ↔
      ∃ i, m.indices.find? name = some i ∧ m.named[i]? = some (name, x) := by
  unfold find?
  cases hfind : m.indices.find? name with
  | none => simp
  | some i =>
    obtain ⟨y, hy⟩ := m.indexed.getElem? hfind
    simp [hy]

theorem find?_indices_eq_none_iff {m : Model K} {name : String} :
    m.indices.find? name = none ↔ name ∉ m.names := by
  constructor
  · intro hnone hmem
    obtain ⟨⟨_, x⟩, hx, rfl⟩ := List.mem_map.1 hmem
    exact m.indexed.not_mem hnone x (Array.mem_toList_iff.1 hx)
  · intro hname
    by_contra hsome
    obtain ⟨i, hi⟩ := Option.ne_none_iff_exists'.1 hsome
    obtain ⟨x, hx⟩ := m.indexed.getElem? hi
    exact hname (List.mem_map_of_mem (Array.mem_toList_iff.2 (Array.mem_of_getElem? hx)))

theorem find?_eq_none_iff (m : Model K) (name : String) : m.find? name = none ↔ name ∉ m.names := by
  rw [← find?_indices_eq_none_iff]
  constructor
  · intro h
    by_contra hsome
    obtain ⟨i, hi⟩ := Option.ne_none_iff_exists'.1 hsome
    obtain ⟨x, hx⟩ := m.indexed.getElem? hi
    exact absurd (h.symm.trans (find?_eq_some_iff.2 ⟨i, hi, hx⟩)) (by simp)
  · intro h
    unfold find?
    rw [h, Option.bind_none]

theorem find?_isSome_of_mem {m : Model K} {name : String} (h : name ∈ m.names) :
    ∃ x, m.find? name = some x := by
  rw [← Option.ne_none_iff_exists']
  exact fun hnone => (find?_eq_none_iff m name).1 hnone h

/-- If no two variables have the same name, the first one of a name is the one that is found. -/
theorem find?_eq_of_nodup {m : Model K} (h : m.names.Nodup) (name : String) :
    m.find? name = (m.named.find? (·.1 = name)).map Prod.snd := by
  rw [← Array.find?_toList]
  cases hfirst : m.named.toList.find? (·.1 = name) with
  | none =>
    refine (find?_eq_none_iff m name).2 fun hname => ?_
    obtain ⟨e, he, rfl⟩ := List.mem_map.1 hname
    exact absurd (List.find?_eq_none.1 hfirst e he) (by simp)
  | some e =>
    have he := List.mem_of_find?_eq_some hfirst
    have hname : e.1 = name := by simpa using List.find?_some hfirst
    obtain ⟨x, hx⟩ := find?_isSome_of_mem (hname ▸ List.mem_map_of_mem he : name ∈ m.names)
    obtain ⟨i, -, hi⟩ := find?_eq_some_iff.1 hx
    have hmem := Array.mem_toList_iff.2 (Array.mem_of_getElem? hi)
    obtain rfl : e = (name, x) := List.inj_on_of_nodup_map h he hmem hname
    exact hx

/-- If no two variables have the same name, each name leads to the place of its variable, and to no
other place. -/
theorem find?_indices_iff {m : Model K} (h : m.names.Nodup) {name : String} {i : Nat} :
    m.indices.find? name = some i ↔ ∃ x, m.named[i]? = some (name, x) := by
  have hentry : ∀ {j : Nat}, (∃ x, m.named[j]? = some (name, x)) → m.names[j]? = some name := by
    rintro j ⟨x, hx⟩
    unfold names
    rw [List.getElem?_map, Array.getElem?_toList, hx]
    rfl
  refine ⟨m.indexed.getElem?, fun hi => ?_⟩
  have hname := hentry hi
  obtain ⟨hlt, -⟩ := List.getElem?_eq_some_iff.1 hname
  cases hj : m.indices.find? name with
  | none => exact absurd (List.mem_of_getElem? hname) (find?_indices_eq_none_iff.1 hj)
  | some j =>
    rw [(List.getElem?_inj hlt h).1 (hname.trans (hentry (m.indexed.getElem? hj)).symm)]

/-! ## Calls -/

theorem registered_eq_push {m : Model K} {b : Block K} (h : b.name ∉ m.names) :
    { m with columns := m.columns ++ b.columns }.registered b.name (b.shape m.columns.size) =
      m.push b := by
  simp only [registered, push, find?_indices_eq_none_iff.2 h, Option.getD_none]

namespace Call

variable {m : Model K} {name : String} {lower : Option K}

theorem run_checkUnique (name : String) (m : Model K) : (checkUnique name).run m =
    if name ∈ m.names then .error (.duplicate name) m else .ok () m := by
  have hnone : m.indices.find? name = none ↔ name ∉ m.names := find?_indices_eq_none_iff
  unfold checkUnique
  rw [EStateM.run_bind, EStateM.run_get]
  by_cases h : name ∈ m.names
  · have hsome : (m.indices.find? name).isSome = true :=
      Option.isSome_iff_ne_none.2 fun hfind => hnone.1 hfind h
    simp [h, hsome]
  · simp [h, hnone.2 h]

/-- Columns that are added one by one are the next ones. -/
theorem run_mapM_column (title : Nat → String) (ts : List Nat) (m : Model K) :
    (ts.mapM fun t => column (title t) lower).run m =
      .ok ((List.range ts.length).map fun i => ⟨m.columns.size + i⟩)
        { m with columns := m.columns ++ (ts.map fun t => ⟨title t, lower⟩).toArray } := by
  induction ts generalizing m with
  | nil => simp
  | cons t ts ih =>
    unfold column at ih ⊢
    rw [List.mapM_cons, EStateM.run_bind, EStateM.run_modifyGet]
    dsimp only
    rw [EStateM.run_bind, ih]
    simp [List.range_succ_eq_map, Function.comp_def, Nat.add_assoc, Nat.add_comm 1]

theorem run_scalar (name : String) (lower : Option K) (m : Model K) : (scalar name lower).run m =
    if name ∈ m.names then .error (.duplicate name) m
    else .ok ⟨m.columns.size⟩ (m.push ⟨name, lower, none⟩) := by
  unfold scalar
  rw [EStateM.run_bind, run_checkUnique]
  by_cases h : name ∈ m.names
  · rw [if_pos h, if_pos h]
  · rw [if_neg h, if_neg h, ← registered_eq_push h]
    rfl

theorem run_series (name : String) (lower : Option K) (size : Nat) (m : Model K) :
    (series name lower size).run m = if name ∈ m.names then .error (.duplicate name) m
      else .ok ((Array.range size).map fun t => ⟨m.columns.size + t⟩)
        (m.push ⟨name, lower, some size⟩) := by
  have hrange : ∀ {α : Type} (f : Nat → α),
      ((List.range size).map f).toArray = (Array.range size).map f := fun f => by
    rw [← List.map_toArray, List.toArray_range]
  unfold series
  rw [EStateM.run_bind, run_checkUnique]
  by_cases h : name ∈ m.names
  · rw [if_pos h, if_pos h]
  · rw [if_neg h, if_neg h, ← registered_eq_push h]
    dsimp only
    rw [EStateM.run_bind, run_mapM_column, List.length_range, hrange]
    dsimp only
    rw [hrange]
    rfl

end Call

theorem addScalar_eq (m : Model K) (name : String) (lower : Option K) :
    m.addScalar name lower = if name ∈ m.names then .error (.duplicate name)
      else .ok (⟨m.columns.size⟩, m.push ⟨name, lower, none⟩) := by
  unfold addScalar Call.made
  rw [Call.run_scalar]
  split_ifs <;> rfl

theorem addSeries_eq (m : Model K) (name : String) (lower : Option K) (size : Nat) :
    m.addSeries name lower size = if name ∈ m.names then .error (.duplicate name)
      else .ok ((Array.range size).map fun t => ⟨m.columns.size + t⟩,
        m.push ⟨name, lower, some size⟩) := by
  unfold addSeries Call.made
  rw [Call.run_series]
  split_ifs <;> rfl

/-! ## Looking up what was added -/

theorem find?_indices_push_of_some {m : Model K} {name : String} {i : Nat} (b : Block K)
    (h : m.indices.find? name = some i) : (m.push b).indices.find? name = some i := by
  unfold push
  dsimp only
  rw [Keyed.find?_insert]
  by_cases hname : name = b.name
  · subst hname
    rw [if_pos rfl, h, Option.getD_some]
  · rw [if_neg hname, h]

theorem find?_push_self (m : Model K) (b : Block K) (h : b.name ∉ m.names) :
    (m.push b).find? b.name = some (b.shape m.columns.size) := by
  have hindex : (m.push b).indices.find? b.name = some m.named.size := by
    unfold push
    dsimp only
    rw [Keyed.find?_insert, if_pos rfl, find?_indices_eq_none_iff.2 h, Option.getD_none]
  exact find?_eq_some_iff.2 ⟨_, hindex, Array.getElem?_push_size⟩

theorem find?_push_of_ne (m : Model K) {b : Block K} {name : String} (h : name ≠ b.name) :
    (m.push b).find? name = m.find? name := by
  have hindices : (m.push b).indices.find? name = m.indices.find? name := by
    unfold push
    dsimp only
    rw [Keyed.find?_insert, if_neg h]
  unfold find?
  rw [hindices]
  cases hfind : m.indices.find? name with
  | none => rfl
  | some i =>
    obtain ⟨x, hx⟩ := m.indexed.getElem? hfind
    have hlt : i < m.named.size := (Array.getElem?_eq_some_iff.1 hx).1
    unfold push
    dsimp only [Option.bind_some]
    rw [Array.getElem?_push, if_neg hlt.ne]

theorem find?_push_of_some {m : Model K} {name : String} {x : Variable} (b : Block K)
    (h : m.find? name = some x) : (m.push b).find? name = some x := by
  obtain ⟨i, hi, hx⟩ := find?_eq_some_iff.1 h
  refine find?_eq_some_iff.2 ⟨i, find?_indices_push_of_some b hi, ?_⟩
  have hlt : i < m.named.size := (Array.getElem?_eq_some_iff.1 hx).1
  unfold push
  dsimp only
  rw [Array.getElem?_push, if_neg hlt.ne, hx]

theorem find?_extend_of_some {m : Model K} {name : String} {x : Variable} (bs : List (Block K))
    (h : m.find? name = some x) : (m.extend bs).find? name = some x := by
  induction bs generalizing m with
  | nil => exact h
  | cons b bs ih => exact ih (find?_push_of_some b h)

/-! ## Consistency -/

/-- No name is taken twice, the columns of the variables are all columns in order, and each column
is named by its address. -/
structure Consistent (m : Model K) : Prop where
  names_nodup : m.names.Nodup
  columns : m.places.map Prod.fst = (List.range m.columns.size).map Var.mk
  texts : m.columns.toList.map (·.name) = m.addresses.map Address.text

theorem places_push (m : Model K) (b : Block K) :
    (m.push b).places =
      m.places ++ b.addresses.zipIdx.map fun (a, i) => ((⟨m.columns.size + i⟩ : Var), a) := by
  simp [places, push, Block.places_shape]

theorem addresses_push (m : Model K) (b : Block K) :
    (m.push b).addresses = m.addresses ++ b.addresses := by
  have h : (b.addresses.zipIdx.map fun (a, i) => ((⟨m.columns.size + i⟩ : Var), a)).map Prod.snd =
      b.addresses := by
    rw [List.map_map]
    exact List.zipIdx_map_fst 0 b.addresses
  unfold addresses
  rw [places_push, List.map_append, h]

theorem addresses_extend (m : Model K) (bs : List (Block K)) :
    (m.extend bs).addresses = m.addresses ++ bs.flatMap (·.addresses) := by
  induction bs generalizing m with
  | nil => simp [extend]
  | cons b bs ih =>
    have h := ih (m.push b)
    rw [addresses_push, List.append_assoc] at h
    exact h

theorem columns_push (m : Model K) (b : Block K) :
    (m.push b).columns.toList =
      m.columns.toList ++ b.addresses.map fun a => ⟨a.text, b.lower⟩ := by
  simp [push, Block.columns_toList]

theorem size_push (m : Model K) (b : Block K) :
    (m.push b).columns.size = m.columns.size + b.addresses.length := by
  have h := congrArg List.length (columns_push m b)
  rw [List.length_append, List.length_map] at h
  exact h

theorem consistent_empty [Scalar K] : (Model.empty : Model K).Consistent :=
  ⟨List.nodup_nil, rfl, rfl⟩

theorem Consistent.push {m : Model K} (hm : m.Consistent) {b : Block K} (h : b.name ∉ m.names) :
    (m.push b).Consistent := by
  refine ⟨?_, ?_, ?_⟩
  · rw [names_push]
    exact List.nodup_append.2 ⟨hm.names_nodup, List.nodup_singleton _, by
      intro a ha c hc heq
      rw [List.mem_singleton.1 hc] at heq
      exact h (heq ▸ ha)⟩
  · rw [places_push, List.map_append, hm.columns, size_push, List.range_add, List.map_append,
      List.map_map, List.map_map]
    congr 1
    apply List.ext_getElem (by simp)
    intro i h₁ h₂
    simp
  · rw [columns_push, addresses_push, List.map_append, List.map_append, hm.texts, List.map_map]
    rfl

/-- The names of some blocks are not taken, and no two of them are the same. -/
def Fresh (m : Model K) (bs : List (Block K)) : Prop :=
  (bs.map (·.name)).Nodup ∧ ∀ b ∈ bs, b.name ∉ m.names

theorem fresh_nil (m : Model K) : m.Fresh [] := ⟨List.nodup_nil, fun _ h => absurd h List.not_mem_nil⟩

theorem fresh_singleton (m : Model K) (b : Block K) : m.Fresh [b] ↔ b.name ∉ m.names := by
  simp [Fresh]

theorem fresh_append (m : Model K) (bs cs : List (Block K)) :
    m.Fresh (bs ++ cs) ↔ m.Fresh bs ∧ (m.extend bs).Fresh cs := by
  unfold Fresh
  simp only [names_extend, List.map_append, List.nodup_append, List.mem_append, List.mem_map]
  constructor
  · rintro ⟨⟨hb, hc, hbc⟩, hm⟩
    refine ⟨⟨hb, fun b h => hm b (Or.inl h)⟩, hc, fun c h hn => ?_⟩
    rcases hn with hn | ⟨b, hb', he⟩
    · exact hm c (Or.inr h) hn
    · exact hbc b.name ⟨b, hb', rfl⟩ c.name ⟨c, h, rfl⟩ he
  · rintro ⟨⟨hb, hbm⟩, hc, hcm⟩
    refine ⟨⟨hb, hc, ?_⟩, ?_⟩
    · rintro _ ⟨b, hb', rfl⟩ _ ⟨c, hc', rfl⟩ he
      exact hcm c hc' (Or.inr ⟨b, hb', he⟩)
    · rintro b (h | h)
      · exact hbm b h
      · exact fun hn => hcm b h (Or.inl hn)

theorem Consistent.extend {m : Model K} (hm : m.Consistent) {bs : List (Block K)}
    (h : m.Fresh bs) : (m.extend bs).Consistent := by
  induction bs generalizing m with
  | nil => exact hm
  | cons b bs ih =>
    obtain ⟨hb, hbs⟩ := (fresh_append m [b] bs).1 h
    exact ih (hm.push ((fresh_singleton m b).1 hb)) hbs

/-- The variable of a block is found under its name from then on. -/
theorem find?_extend_of_mem {m : Model K} {bs : List (Block K)} (h : m.Fresh bs) {b : Block K}
    (hb : b ∈ bs) : ∃ start, (m.extend bs).find? b.name = some (b.shape start) := by
  induction bs generalizing m with
  | nil => exact absurd hb List.not_mem_nil
  | cons c bs ih =>
    obtain ⟨hc, hbs⟩ := (fresh_append m [c] bs).1 h
    rcases List.mem_cons.1 hb with rfl | hb
    · exact ⟨_, find?_extend_of_some bs (find?_push_self m b ((fresh_singleton m b).1 hc))⟩
    · exact ih hbs hb

/-! ## Addresses of columns -/

theorem Consistent.getElem?_places {m : Model K} (hm : m.Consistent) {v : Var} {a : Address}
    (h : (v, a) ∈ m.places) : m.places[v.index]? = some (v, a) := by
  obtain ⟨i, hi⟩ := List.mem_iff_getElem?.1 h
  have hfst : (m.places.map Prod.fst)[i]? = some v := by
    rw [List.getElem?_map, hi]
    rfl
  rw [hm.columns, List.getElem?_map] at hfst
  obtain ⟨j, hj, rfl⟩ := Option.map_eq_some_iff.1 hfst
  obtain ⟨hlt, hget⟩ := List.getElem?_eq_some_iff.1 hj
  rw [List.getElem_range] at hget
  subst hget
  exact hi

theorem Consistent.getElem?_addresses {m : Model K} (hm : m.Consistent) {v : Var} {a : Address}
    (h : (v, a) ∈ m.places) : m.addresses[v.index]? = some a := by
  unfold addresses
  rw [List.getElem?_map, hm.getElem?_places h]
  rfl

theorem Consistent.index_lt {m : Model K} (hm : m.Consistent) {v : Var} {a : Address}
    (h : (v, a) ∈ m.places) : v.index < m.columns.size := by
  have hv : v ∈ m.places.map Prod.fst := List.mem_map_of_mem h
  rw [hm.columns] at hv
  obtain ⟨i, hi, rfl⟩ := List.mem_map.1 hv
  exact List.mem_range.1 hi

theorem Consistent.address_unique {m : Model K} (hm : m.Consistent) {v : Var} {a b : Address}
    (ha : (v, a) ∈ m.places) (hb : (v, b) ∈ m.places) : a = b := by
  have h := hm.getElem?_addresses ha
  rw [hm.getElem?_addresses hb] at h
  exact (Option.some.inj h).symm

theorem mem_places_of_find? {m : Model K} {name : String} {x : Variable}
    (h : m.find? name = some x) : ∀ p ∈ x.places name, p ∈ m.places := by
  intro p hp
  obtain ⟨i, -, hx⟩ := find?_eq_some_iff.1 h
  exact List.mem_flatMap.2 ⟨_, Array.mem_toList_iff.2 (Array.mem_of_getElem? hx), hp⟩

theorem mem_places_of_scalar? {m : Model K} {name : String} {v : Var}
    (h : m.scalar? name = some v) : (v, (name, none)) ∈ m.places := by
  unfold scalar? at h
  split at h
  · next w hw =>
    rw [← Option.some.inj h]
    exact mem_places_of_find? hw _ (List.mem_singleton.2 rfl)
  · exact absurd h (by simp)

theorem mem_places_of_series? {m : Model K} {name : String} {vs : Array Var}
    (h : m.series? name = some vs) {t : Nat} {v : Var} (hv : vs[t]? = some v) :
    (v, (name, some t)) ∈ m.places := by
  unfold series? at h
  split at h
  · next ws hws =>
    rw [← Option.some.inj h] at hv
    refine mem_places_of_find? hws _ (List.mem_map.2 ⟨(v, t), ?_, rfl⟩)
    exact List.mk_mem_zipIdx_iff_getElem?.2 (by simpa using hv)
  · exact absurd h (by simp)

end Model

end SupplyNet
