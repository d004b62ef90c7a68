import Mathlib.Algebra.GroupWithZero.Nat
import Mathlib.Data.List.Perm.Basic
import Mathlib.Data.List.Sort
import Mathlib.Data.UInt
import Mathlib.Tactic.Tauto

/-!
# Lists

A loop over a list whose body can fail is a `foldlM` in `Except`, or a `mapM` if it collects results.
Sorting by distinct keys forgets the order that a list had before. A history is a list that grows at
its end, and what is in a collection that loses or exchanges one element is told by membership.
-/

namespace SimLn.Lib

variable {α β γ ε κ : Type*}

/-! ## Folds that can fail -/

theorem foldlM_flatMap (f : α → List β) (step : γ → β → Except ε γ) (l : List α) (g : γ) :
    (l.flatMap f).foldlM step g = l.foldlM (fun g a => (f a).foldlM step g) g := by
  induction l generalizing g with
  | nil => rfl
  | cons a l ih =>
    rw [List.flatMap_cons, List.foldlM_append, List.foldlM_cons]
    congr 1
    funext g'
    exact ih g'

/-- A loop that succeeds has come through its first element. -/
theorem foldlM_cons_ok {step : γ → α → Except ε γ} {a : α} {l : List α} {g g' : γ}
    (h : (a :: l).foldlM step g = .ok g') :
    ∃ mid, step g a = .ok mid ∧ l.foldlM step mid = .ok g' := by
  rw [List.foldlM_cons] at h
  cases hstep : step g a with
  | error err =>
    rw [hstep] at h
    cases h
  | ok mid =>
    rw [hstep] at h
    exact ⟨mid, rfl, h⟩

/-- If the loop succeeds, its body has succeeded on every element. -/
theorem exists_ok_of_foldlM {step : γ → α → Except ε γ} {l : List α} {g g' : γ}
    (h : l.foldlM step g = .ok g') {a : α} (ha : a ∈ l) : ∃ g₁ g₂, step g₁ a = .ok g₂ := by
  induction l generalizing g with
  | nil => cases ha
  | cons head rest ih =>
    obtain ⟨mid, hhead, hrest⟩ := foldlM_cons_ok h
    rcases List.mem_cons.mp ha with rfl | ha
    · exact ⟨g, mid, hhead⟩
    · exact ih hrest ha

/-- If the loop fails, its body has failed on one of the elements. -/
theorem exists_error_of_foldlM {step : γ → α → Except ε γ} {l : List α} {g : γ} {e : ε}
    (h : l.foldlM step g = .error e) : ∃ a ∈ l, ∃ g', step g' a = .error e := by
  induction l generalizing g with
  | nil => cases h
  | cons head rest ih =>
    rw [List.foldlM_cons] at h
    cases hstep : step g head with
    | error e' =>
      rw [hstep] at h
      cases h
      exact ⟨head, by simp, g, hstep⟩
    | ok mid =>
      rw [hstep] at h
      obtain ⟨a, ha, hfails⟩ := ih h
      exact ⟨a, List.mem_cons_of_mem _ ha, hfails⟩

/-- If the body succeeds on every element, whatever came before, so does the loop. -/
theorem foldlM_ok_of_forall {step : γ → α → Except ε γ} {l : List α}
    (h : ∀ a ∈ l, ∀ g, ∃ g', step g a = .ok g') (g : γ) : ∃ g', l.foldlM step g = .ok g' := by
  induction l generalizing g with
  | nil => exact ⟨g, rfl⟩
  | cons head rest ih =>
    obtain ⟨mid, hmid⟩ := h head (by simp) g
    rw [List.foldlM_cons, hmid]
    exact ih (fun a ha => h a (by simp [ha])) mid

/-- What the body preserves on every element holds after the loop. -/
theorem foldlM_invariant {step : γ → α → Except ε γ} {l : List α} {g g' : γ} {I : γ → Prop}
    (h : l.foldlM step g = .ok g') (h₀ : I g)
    (hstep : ∀ a ∈ l, ∀ g g', I g → step g a = .ok g' → I g') : I g' := by
  induction l generalizing g with
  | nil =>
    cases h
    exact h₀
  | cons head rest ih =>
    obtain ⟨mid, hhead, hrest⟩ := foldlM_cons_ok h
    exact ih hrest (hstep head (by simp) g mid h₀ hhead) fun a ha => hstep a (by simp [ha])

/-- If the body succeeds on every element, all results are collected. -/
theorem exists_mapM_of_forall {f : α → Except ε β} {l : List α} (h : ∀ a ∈ l, ∃ b, f a = .ok b) :
    ∃ results, l.mapM f = .ok results := by
  induction l with
  | nil => exact ⟨[], rfl⟩
  | cons head rest ih =>
    obtain ⟨first, hfirst⟩ := h head (by simp)
    obtain ⟨others, hothers⟩ := ih fun a ha => h a (by simp [ha])
    rw [List.mapM_cons, hfirst, hothers]
    exact ⟨first :: others, rfl⟩

theorem forall₂_of_mapM {f : α → Except ε β} {l : List α} {results : List β}
    (h : l.mapM f = .ok results) : List.Forall₂ (fun a b => f a = .ok b) l results := by
  induction l generalizing results with
  | nil =>
    cases h
    exact .nil
  | cons head rest ih =>
    rw [List.mapM_cons] at h
    cases hhead : f head with
    | error err =>
      rw [hhead] at h
      cases h
    | ok first =>
      cases hrest : rest.mapM f with
      | error err =>
        rw [hhead, hrest] at h
        cases h
      | ok others =>
        rw [hhead, hrest] at h
        cases h
        exact .cons hhead (ih hrest)

/-- An error of the loop is one of its body. -/
theorem exists_error_of_mapM {f : α → Except ε β} {l : List α} {e : ε} (h : l.mapM f = .error e) :
    ∃ a ∈ l, f a = .error e := by
  induction l with
  | nil => cases h
  | cons head rest ih =>
    rw [List.mapM_cons] at h
    cases hhead : f head with
    | error err =>
      rw [hhead] at h
      cases h
      exact ⟨head, by simp, hhead⟩
    | ok first =>
      cases hrest : rest.mapM f with
      | error err =>
        rw [hhead, hrest] at h
        cases h
        obtain ⟨a, ha, herr⟩ := ih hrest
        exact ⟨a, by simp [ha], herr⟩
      | ok others =>
        rw [hhead, hrest] at h
        cases h

/-- A related list exists if every element is related to something. -/
theorem exists_forall₂_iff {R : α → β → Prop} {l : List α} :
    (∃ l', List.Forall₂ R l l') ↔ ∀ a ∈ l, ∃ b, R a b := by
  induction l with
  | nil => simp
  | cons head rest ih =>
    constructor
    · rintro ⟨l', h⟩
      cases h with
      | cons hhead hrest => exact List.forall_mem_cons.mpr ⟨⟨_, hhead⟩, ih.mp ⟨_, hrest⟩⟩
    · intro h
      obtain ⟨⟨b, hb⟩, hrest⟩ := List.forall_mem_cons.mp h
      obtain ⟨l', hl'⟩ := ih.mpr hrest
      exact ⟨b :: l', .cons hb hl'⟩

theorem exists_of_mem_forall₂ {R : α → β → Prop} {l : List α} {l' : List β}
    (h : List.Forall₂ R l l') {b : β} (hb : b ∈ l') : ∃ a ∈ l, R a b := by
  induction h with
  | nil => cases hb
  | @cons a b' l l' hhead _ ih =>
    rcases List.mem_cons.mp hb with rfl | hb
    · exact ⟨a, by simp, hhead⟩
    · obtain ⟨a, ha, hab⟩ := ih hb
      exact ⟨a, by simp [ha], hab⟩

/-- Related elements with the same image. -/
theorem map_eq_of_forall₂ {R : α → β → Prop} {f : β → γ} {g : α → γ} {l : List α} {l' : List β}
    (h : List.Forall₂ R l l') (heq : ∀ a ∈ l, ∀ b, R a b → f b = g a) : l'.map f = l.map g := by
  induction h with
  | nil => rfl
  | cons hhead _ ih =>
    rw [List.map_cons, List.map_cons, heq _ List.mem_cons_self _ hhead,
      ih fun a ha => heq a (List.mem_cons_of_mem _ ha)]

theorem mapM_of_forall₂ {f : α → Except ε β} {l : List α} {results : List β}
    (h : List.Forall₂ (fun a b => f a = .ok b) l results) : l.mapM f = .ok results := by
  induction h with
  | nil => rfl
  | cons hhead _ ih =>
    rw [List.mapM_cons, hhead, ih]
    rfl

/-- The results of a permuted list are the permuted results. -/
theorem exists_mapM_of_perm {f : α → Except ε β} {l l' : List α} {results : List β}
    (hperm : l.Perm l') (h : l.mapM f = .ok results) :
    ∃ results', l'.mapM f = .ok results' ∧ results.Perm results' := by
  have hcomp : Relation.Comp (List.Forall₂ fun a b => f a = .ok b) List.Perm l' results := by
    rw [List.forall₂_comp_perm_eq_perm_comp_forall₂]
    exact ⟨l, hperm.symm, forall₂_of_mapM h⟩
  obtain ⟨results', hmapped, hresults⟩ := hcomp
  exact ⟨results', mapM_of_forall₂ hmapped, hresults.symm⟩

/-! ## Sorting -/

/-- Sorting by distinct keys does not depend on the order before. -/
theorem insertionSort_eq_of_perm [LinearOrder κ] {key : α → κ} {l l' : List α} (h : l.Perm l')
    (hkeys : (l.map key).Nodup) :
    l.insertionSort (fun a b => key a ≤ key b) = l'.insertionSort (fun a b => key a ≤ key b) := by
  have : Std.Total fun a b => key a ≤ key b := ⟨fun a b => le_total (key a) (key b)⟩
  have : IsTrans α fun a b => key a ≤ key b := ⟨fun _ _ _ => le_trans⟩
  have hsorted := List.perm_insertionSort (fun a b => key a ≤ key b) l
  have hsorted' := List.perm_insertionSort (fun a b => key a ≤ key b) l'
  refine List.Perm.eq_of_pairwise ?_ (List.pairwise_insertionSort _ l)
    (List.pairwise_insertionSort _ l') (hsorted.trans (h.trans hsorted'.symm))
  intro a b ha hb hab hba
  exact List.inj_on_of_nodup_map hkeys (hsorted.mem_iff.mp ha)
    (h.mem_iff.mpr (hsorted'.mem_iff.mp hb)) (le_antisymm hab hba)

/-- An element of a list with distinct keys is all that the list has under its key. -/
theorem getLast?_filter_of_nodup [DecidableEq κ] {key : α → κ} {l : List α} (h : (l.map key).Nodup)
    {a : α} (ha : a ∈ l) : (l.filter (key · = key a)).getLast? = some a := by
  have hmem : a ∈ l.filter (key · = key a) := List.mem_filter.mpr ⟨ha, by simp⟩
  obtain ⟨b, hb⟩ := Option.isSome_iff_exists.mp
    (List.getLast?_isSome.mpr (List.ne_nil_of_mem hmem))
  obtain ⟨hbl, hkey⟩ := List.mem_filter.mp (List.mem_of_getLast? hb)
  rw [hb, List.inj_on_of_nodup_map h hbl ha (by simpa using hkey)]

/-! ## Texts -/

/-- Texts differ if they begin differently. -/
theorem append_ne_append {p q s t : String} (i : Nat) {x y : Char} (hp : p.toList[i]? = some x)
    (hq : q.toList[i]? = some y) (hne : x ≠ y) : p ++ s ≠ q ++ t := by
  intro h
  have hlists : p.toList ++ s.toList = q.toList ++ t.toList := by
    rw [← String.toList_append, ← String.toList_append, h]
  have hat := congrArg (·[i]?) hlists
  rw [List.getElem?_append_left (List.getElem?_eq_some_iff.mp hp).1,
    List.getElem?_append_left (List.getElem?_eq_some_iff.mp hq).1, hp, hq] at hat
  exact hne (Option.some.inj hat)

/-! ## Histories -/

theorem getElem?_of_isPrefix {l l' : List α} {a : α} {i : Nat} (h : l <+: l')
    (ha : l[i]? = some a) : l'[i]? = some a := by
  obtain ⟨rest, rfl⟩ := h
  rwa [List.getElem?_append_left (List.getElem?_eq_some_iff.mp ha).1]

/-! ## One element exchanged or removed -/

theorem eq_or_mem_of_mem_replaced {l before after : List α} {a b x : α}
    (h : l = before ++ a :: after) (hx : x ∈ before ++ b :: after) : x = b ∨ x ∈ l := by
  rw [h]
  simp only [List.mem_append, List.mem_cons] at hx ⊢
  tauto

theorem mem_of_mem_removed {l before after : List α} {a x : α} (h : l = before ++ a :: after)
    (hx : x ∈ before ++ after) : x ∈ l := by
  rw [h]
  simp only [List.mem_append, List.mem_cons] at hx ⊢
  tauto

/-- An entry other than the one in the middle stays when that one is removed or replaced. -/
theorem mem_of_ne_middle {l before after : List α} {a x : α} (h : l = before ++ a :: after)
    (hx : x ∈ l) (hne : x ≠ a) : x ∈ before ++ after ∧ ∀ b, x ∈ before ++ b :: after := by
  subst h
  rcases List.mem_append.mp hx with hx | hx
  · exact ⟨List.mem_append_left _ hx, fun b => List.mem_append_left _ hx⟩
  · have hx := List.mem_of_ne_of_mem hne hx
    exact ⟨List.mem_append_right _ hx, fun b => List.mem_append_right _ (List.mem_cons_of_mem _ hx)⟩

theorem sum_map_middle (f : α → Nat) (before after : List α) (a : α) :
    ((before ++ a :: after).map f).sum = f a + ((before ++ after).map f).sum := by
  simp only [List.map_append, List.map_cons, List.sum_append, List.sum_cons]
  omega

/-- The sum of machine words is the exact one modulo `2^64`. -/
theorem toNat_sum (l : List UInt64) : l.sum.toNat = (l.map UInt64.toNat).sum % 2 ^ 64 := by
  induction l with
  | nil => rfl
  | cons n l ih =>
    rw [List.sum_cons, UInt64.toNat_add, ih, List.map_cons, List.sum_cons]
    omega

/-- Double counting: weights summed over what each key meets are summed over all elements, each as
often as there are keys that it meets. -/
theorem sum_incidence (meets : κ → α → Bool) (weight : α → Nat) (keys : List κ) (l : List α) :
    (keys.map fun k => ((l.filter (meets k)).map weight).sum).sum
      = (l.map fun a => keys.countP (meets · a) * weight a).sum := by
  induction keys with
  | nil => simp
  | cons k keys ih =>
    rw [List.map_cons, List.sum_cons, ih]
    clear ih
    induction l with
    | nil => rfl
    | cons a l ih =>
      rw [List.map_cons, List.map_cons, List.sum_cons, List.sum_cons, ← ih, List.countP_cons,
        List.filter_cons]
      by_cases hmeets : meets k a
      · rw [if_pos hmeets, if_pos hmeets, List.map_cons, List.sum_cons, Nat.add_mul]
        omega
      · rw [if_neg hmeets, if_neg hmeets, Nat.add_zero]
        omega

theorem countP_pair [DecidableEq α] {a b : α} (hne : a ≠ b) (l : List α) :
    l.countP (fun x => a = x || b = x) = l.count a + l.count b := by
  induction l with
  | nil => rfl
  | cons x l ih =>
    rw [List.countP_cons, List.count_cons, List.count_cons, ih]
    by_cases hxa : a = x
    · have hxb : b ≠ x := fun hxb => hne (hxa.trans hxb.symm)
      simp [hxa, Ne.symm hxb, hxb]
      omega
    · by_cases hxb : b = x
      · simp [hxb, Ne.symm hxa, hxa]
        omega
      · simp [hxa, hxb, Ne.symm hxa, Ne.symm hxb]

/-- A list without repetitions counts each of two elements of it once. -/
theorem countP_pair_of_nodup [DecidableEq α] {l : List α} (h : l.Nodup) {a b : α} (hne : a ≠ b)
    (ha : a ∈ l) (hb : b ∈ l) : l.countP (fun x => a = x || b = x) = 2 := by
  rw [countP_pair hne, List.count_eq_one_of_mem h ha, List.count_eq_one_of_mem h hb]

theorem count_map_middle [DecidableEq β] (f : α → β) (before after : List α) (a : α) (b : β) :
    ((before ++ a :: after).map f).count b = [f a].count b + ((before ++ after).map f).count b := by
  simp only [List.map_append, List.map_cons, List.count_append, List.count_cons, List.count_nil]
  omega

/-- A fold whose steps do not change the value of `f` does not change it either. -/
theorem foldl_fixed {α β γ : Type*} {g : α → β → α} (f : α → γ) (h : ∀ a b, f (g a b) = f a) (a : α)
    (bs : List β) : f (bs.foldl g a) = f a := by
  induction bs generalizing a with
  | nil => rfl
  | cons b bs ih => exact (ih (g a b)).trans (h a b)

end SimLn.Lib
