import Mathlib.Data.List.AList
import Mathlib.Data.List.Induction
import Mathlib.Algebra.BigOperators.Group.List.Basic

/-!
# Finite tables: totals and unions

A finite map is an `AList`, whose keys are distinct by construction. `total f t` adds `f` over
the values of `t` and `size t` counts them; both are determined by how the table was built, so
the lemmas below say how inserting a fresh key and erasing a present one change them.

A table is the union of a list of tables if it gives the values that they provide (`IsUnion`). Such
a union does not depend on the order of the list; it exists only if the tables agree.
-/

namespace SimLn.Lib

universe u v

/-- A finite map from `α` to `β`. -/
abbrev Table (α : Type u) (β : Type v) := AList fun _ : α => β

namespace Table

variable {α β M : Type*}

/-- The number of entries. -/
def size (t : Table α β) : Nat := t.entries.length

/-- The sum of `f` over the values. -/
def total [Add M] [Zero M] (f : β → M) (t : Table α β) : M :=
  (t.entries.map fun e => f e.2).sum

@[simp] theorem size_empty : size (∅ : Table α β) = 0 := rfl

@[simp] theorem total_empty [AddCommMonoid M] (f : β → M) : total f (∅ : Table α β) = 0 := rfl

variable [DecidableEq α]

theorem size_insert {a : α} {t : Table α β} (b : β) (h : a ∉ t) :
    size (t.insert a b) = size t + 1 := by
  rw [size, AList.entries_insert_of_notMem h, List.length_cons, size]

theorem total_insert [AddCommMonoid M] (f : β → M) {a : α} {t : Table α β} (b : β) (h : a ∉ t) :
    total f (t.insert a b) = f b + total f t := by
  rw [total, AList.entries_insert_of_notMem h, List.map_cons, List.sum_cons, total]

/-- The entries of a table that has a key are that entry and the entries left when it is erased. -/
theorem entries_perm_of_lookup {a : α} {b : β} {t : Table α β} (h : t.lookup a = some b) :
    t.entries.Perm (⟨a, b⟩ :: (t.erase a).entries) := by
  have hmem : a ∈ t.entries.keys := AList.mem_keys.mp (AList.lookup_isSome.mp (by simp [h]))
  obtain ⟨b', l₁, l₂, -, hsplit, herase⟩ := List.exists_of_kerase hmem
  have hb : t.lookup a = some b' := by
    rw [← Option.mem_def, AList.mem_lookup_iff, hsplit]
    simp
  obtain rfl : b = b' := Option.some.inj (h.symm.trans hb)
  show t.entries.Perm (⟨a, b⟩ :: List.kerase a t.entries)
  rw [herase, hsplit]
  exact List.perm_middle

theorem size_erase {a : α} {b : β} {t : Table α β} (h : t.lookup a = some b) :
    size (t.erase a) + 1 = size t := by
  simpa [size] using (entries_perm_of_lookup h).length_eq.symm

theorem total_erase [AddCommMonoid M] (f : β → M) {a : α} {b : β} {t : Table α β}
    (h : t.lookup a = some b) : f b + total f (t.erase a) = total f t := by
  simpa [total] using ((entries_perm_of_lookup h).map fun e => f e.2).sum_eq.symm

theorem eq_empty_of_lookup {t : Table α β} (h : ∀ a, t.lookup a = none) : t = ∅ := by
  refine AList.ext ?_
  cases hes : t.entries with
  | nil => rfl
  | cons e es =>
    have hmem : t.lookup e.1 = some e.2 := AList.mem_lookup_iff.mpr (by simp [hes])
    rw [h e.1] at hmem
    cases hmem

/-- Tables that give the same values have the same entries. -/
theorem entries_perm {t t' : Table α β} (h : ∀ a, t.lookup a = t'.lookup a) :
    t.entries.Perm t'.entries := by
  refine (List.perm_ext_iff_of_nodup t.nodupKeys.nodup t'.nodupKeys.nodup).mpr fun e => ?_
  rw [← AList.mem_lookup_iff, ← AList.mem_lookup_iff, h]

/-- An entry found after an insertion is the new one, or an old one with another key. -/
theorem lookup_insert_cases {t : Table α β} {a a' : α} {b b' : β}
    (h : (t.insert a b).lookup a' = some b') :
    (a' = a ∧ b' = b) ∨ (a' ≠ a ∧ t.lookup a' = some b') := by
  by_cases ha : a' = a
  · subst ha
    rw [AList.lookup_insert] at h
    exact .inl ⟨rfl, (Option.some.inj h).symm⟩
  · rw [AList.lookup_insert_ne ha] at h
    exact .inr ⟨ha, h⟩

theorem lookup_insert_fresh {t : Table α β} {a : α} (b : β) (h : t.lookup a = none) (a' : α)
    (b' : β) : (t.insert a b).lookup a' = some b' ↔
      t.lookup a' = some b' ∨ (⟨a', b'⟩ : Sigma fun _ : α => β) = ⟨a, b⟩ := by
  by_cases ha : a' = a
  · subst ha
    rw [AList.lookup_insert, h]
    simp [eq_comm]
  · rw [AList.lookup_insert_ne ha]
    simp [ha]

/-- A table holds, by name, those values of a list whose names are mapped. One more value with a new
name joins them. -/
theorem lookup_insert_seen {t : Table α β} {seen : List β} (name : β → α) {mapped : α → Prop} {b : β}
    (h : ∀ a' b', t.lookup a' = some b' ↔ b' ∈ seen ∧ name b' = a' ∧ mapped a')
    (hnew : t.lookup (name b) = none) (hmapped : mapped (name b)) (a' : α) (b' : β) :
    (t.insert (name b) b).lookup a' = some b' ↔ b' ∈ b :: seen ∧ name b' = a' ∧ mapped a' := by
  rw [lookup_insert_fresh _ hnew, h, List.mem_cons]
  simp only [Sigma.mk.injEq, heq_eq_eq]
  constructor
  · rintro (⟨hseen, heq⟩ | ⟨rfl, rfl⟩)
    · exact ⟨.inr hseen, heq⟩
    · exact ⟨.inl rfl, rfl, hmapped⟩
  · rintro ⟨rfl | hseen, heq⟩
    · exact .inr ⟨heq.1.symm, rfl⟩
    · exact .inl ⟨hseen, heq⟩

/-- The values of a table, each replaced by what `f` makes of it. -/
def mapValues {γ : Type*} (f : β → γ) (t : Table α β) : Table α γ where
  entries := t.entries.map (Sigma.map id fun _ => f)
  nodupKeys := t.nodupKeys.map₂ fun _ => f

theorem lookup_mapValues {γ : Type*} (f : β → γ) (t : Table α β) (a : α) :
    (mapValues f t).lookup a = (t.lookup a).map f :=
  List.dlookup_map₂ a

/-- Of the insertions under a key, the last one stays. -/
theorem lookup_foldl_insert {γ : Type*} (key : γ → α) (value : γ → β) (l : List γ) (t : Table α β)
    (a : α) : (l.foldl (fun t c => t.insert (key c) (value c)) t).lookup a
      = (((l.filter (key · = a)).getLast?).map value).or (t.lookup a) := by
  induction l using List.reverseRecOn with
  | nil => rfl
  | append_singleton l c ih =>
    rw [List.foldl_append, List.foldl_cons, List.foldl_nil, List.filter_append, List.getLast?_append]
    by_cases ha : key c = a
    · rw [ha, AList.lookup_insert]
      simp [ha]
    · rw [AList.lookup_insert_ne (Ne.symm ha), ih]
      simp [ha]

/-! ## Unions -/

/-- One of the tables gives `b` for `a`. -/
def Provides (ts : List (Table α β)) (a : α) (b : β) : Prop := ∃ t ∈ ts, t.lookup a = some b

/-- No two of the tables give different values for a key. -/
def Agree (ts : List (Table α β)) : Prop :=
  ∀ a b b', Provides ts a b → Provides ts a b' → b = b'

/-- `t` gives what the tables give, and nothing else. -/
def IsUnion (t : Table α β) (ts : List (Table α β)) : Prop :=
  ∀ a b, t.lookup a = some b ↔ Provides ts a b

theorem provides_singleton {t : Table α β} {a : α} {b : β} :
    Provides [t] a b ↔ t.lookup a = some b := by
  simp [Provides]

theorem provides_cons {t : Table α β} {ts : List (Table α β)} {a : α} {b : β} :
    Provides (t :: ts) a b ↔ t.lookup a = some b ∨ Provides ts a b := by
  simp [Provides]

theorem provides_empty {ts : List (Table α β)} {a : α} {b : β} :
    Provides (∅ :: ts) a b ↔ Provides ts a b := by
  rw [provides_cons, AList.lookup_empty]
  simp

theorem isUnion_singleton (t : Table α β) : IsUnion t [t] := fun _ _ => provides_singleton.symm

theorem agree_singleton (t : Table α β) : Agree [t] := by
  intro a b b' hb hb'
  rw [provides_singleton] at hb hb'
  exact Option.some.inj (hb.symm.trans hb')

section Congr

variable {ts ts' : List (Table α β)} {t t' : Table α β}

/-- What the tables provide decides whether they agree, and what their union is. -/
theorem agree_congr (h : ∀ a b, Provides ts a b ↔ Provides ts' a b) : Agree ts ↔ Agree ts' := by
  simp only [Agree, h]

theorem isUnion_congr (h : ∀ a b, Provides ts a b ↔ Provides ts' a b) :
    IsUnion t ts ↔ IsUnion t ts' := by
  simp only [IsUnion, h]

theorem provides_perm (h : ts.Perm ts') (a : α) (b : β) :
    Provides ts a b ↔ Provides ts' a b := by
  simp only [Provides, h.mem_iff]

/-- Merging the first two tables changes nothing. -/
theorem IsUnion.provides_cons_cons {u : Table α β} (h : IsUnion u [t, t']) (a : α) (b : β) :
    Provides (u :: ts) a b ↔ Provides (t :: t' :: ts) a b := by
  rw [provides_cons, h a b, provides_cons, provides_singleton, provides_cons, provides_cons,
    or_assoc]

theorem agree_perm (h : ts.Perm ts') : Agree ts ↔ Agree ts' := agree_congr (provides_perm h)

/-- Only tables that agree have a union. -/
theorem IsUnion.agree (h : IsUnion t ts) : Agree ts := by
  intro a b b' hb hb'
  rw [← h a] at hb hb'
  exact Option.some.inj (hb.symm.trans hb')

theorem IsUnion.lookup_eq (h : IsUnion t ts) (h' : IsUnion t' ts) (a : α) :
    t.lookup a = t'.lookup a := by
  apply Option.ext
  intro b
  rw [h a b, h' a b]

end Congr

end Table
end SimLn.Lib
