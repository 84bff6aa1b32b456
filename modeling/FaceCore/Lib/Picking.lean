import Mathlib.Data.Finset.Sort

/-!
# Elements picked by a number

A random number picks an element of a finite set: the set is listed in order, and the number counts
from its first element, starting again after the last one.
-/

namespace Picking

variable {α : Type*} [LinearOrder α]

/-- The element of `s` that `i` picks, and `default` in an empty set. -/
def pick (s : Finset α) (default : α) (i : ℕ) : α := s.sort.getD (i % s.card) default

theorem pick_mem {s : Finset α} (h : s.Nonempty) (default : α) (i : ℕ) : pick s default i ∈ s := by
  have hlt : i % s.card < s.sort.length := by
    rw [Finset.length_sort]
    exact Nat.mod_lt _ h.card_pos
  unfold pick
  rw [List.getD_eq_getElem?_getD, List.getElem?_eq_getElem hlt]
  exact (Finset.mem_sort _).1 (List.getElem_mem hlt)

/-- Every element is picked by some number. -/
theorem exists_pick_eq {s : Finset α} {a : α} (h : a ∈ s) (default : α) :
    ∃ i, pick s default i = a := by
  have hmem : a ∈ s.sort := (Finset.mem_sort _).2 h
  obtain ⟨i, hi, rfl⟩ := List.getElem_of_mem hmem
  have hlt : i < s.card := by rwa [Finset.length_sort] at hi
  refine ⟨i, ?_⟩
  unfold pick
  rw [Nat.mod_eq_of_lt hlt, List.getD_eq_getElem?_getD, List.getElem?_eq_getElem hi]
  rfl

end Picking
