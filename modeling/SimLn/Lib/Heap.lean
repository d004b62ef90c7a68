import Mathlib.Data.List.Sort

/-!
# Min-heaps

A priority queue kept as the list of its elements in the order of their keys; the order is a
field, so that the head is the minimum by construction. Elements with equal keys come out in an
order that no lemma below depends on.
-/

namespace SimLn.Lib

universe u v

/-- A priority queue of elements with keys `key`, least key first. -/
structure MinHeap {α : Type u} {κ : Type v} [LinearOrder κ] (key : α → κ) where
  toList : List α
  ordered : toList.Pairwise fun a b => key a ≤ key b

namespace MinHeap

variable {α : Type u} {κ : Type v} [LinearOrder κ] {key : α → κ}

def empty : MinHeap key := ⟨[], .nil⟩

def push (h : MinHeap key) (a : α) : MinHeap key where
  toList := h.toList.orderedInsert (fun a b => key a ≤ key b) a
  ordered :=
    have : IsTrans α fun a b => key a ≤ key b := ⟨fun _ _ _ => le_trans⟩
    have : Std.Total fun a b => key a ≤ key b := ⟨fun a b => le_total (key a) (key b)⟩
    h.ordered.orderedInsert a h.toList

/-- The least element and the heap without it. -/
def pop : MinHeap key → Option (α × MinHeap key)
  | ⟨[], _⟩ => none
  | ⟨a :: rest, ordered⟩ => some (a, ⟨rest, ordered.of_cons⟩)

@[simp] theorem toList_empty : (empty : MinHeap key).toList = [] := rfl

theorem push_perm (h : MinHeap key) (a : α) : (h.push a).toList.Perm (a :: h.toList) :=
  List.perm_orderedInsert _ a h.toList

@[simp] theorem mem_push {h : MinHeap key} {a b : α} :
    b ∈ (h.push a).toList ↔ b = a ∨ b ∈ h.toList := by
  simp [push]

theorem toList_of_pop_none {h : MinHeap key} (hpop : h.pop = none) : h.toList = [] := by
  obtain ⟨_ | ⟨a, rest⟩, ordered⟩ := h
  · rfl
  · cases hpop

/-- Popping takes the head off. -/
theorem toList_of_pop {h rest : MinHeap key} {a : α} (hpop : h.pop = some (a, rest)) :
    h.toList = a :: rest.toList := by
  obtain ⟨_ | ⟨b, bs⟩, ordered⟩ := h
  · cases hpop
  · cases hpop
    rfl

/-- What is popped is least. -/
theorem le_of_pop {h rest : MinHeap key} {a b : α} (hpop : h.pop = some (a, rest))
    (hb : b ∈ rest.toList) : key a ≤ key b := by
  have hordered := h.ordered
  rw [toList_of_pop hpop] at hordered
  exact (List.pairwise_cons.mp hordered).1 b hb

end MinHeap
end SimLn.Lib
