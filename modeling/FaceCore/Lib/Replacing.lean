import Mathlib.Data.List.Basic

/-!
# Replacing and erasing an element of a list

What a list looks like through a function or a filter that does not tell the elements apart.

* `filterMap_replace`, and its cases `filter_replace` and `map_replace`;
* `filter_erase`: an element that the filter drops is erased.
-/

namespace Replacing

variable {α β : Type*} [DecidableEq α] {a b : α} {l : List α}

theorem filterMap_replace {f : α → Option β} (h : f a = f b) :
    (l.replace a b).filterMap f = l.filterMap f := by
  induction l with
  | nil => rfl
  | cons d l ih =>
    rw [List.replace_cons]
    by_cases had : a = d
    · subst had
      rw [beq_self_eq_true]
      dsimp only
      rw [List.filterMap_cons, List.filterMap_cons, h]
    · rw [beq_eq_false_iff_ne.2 had]
      dsimp only
      rw [List.filterMap_cons, List.filterMap_cons, ih]

theorem filter_replace {p : α → Bool} (ha : p a = false) (hb : p b = false) :
    (l.replace a b).filter p = l.filter p := by
  rw [← List.filterMap_eq_filter]
  refine filterMap_replace ?_
  rw [Option.guard_eq_none_iff.mpr (by simp [ha]), Option.guard_eq_none_iff.mpr (by simp [hb])]

theorem map_replace {f : α → β} (h : f a = f b) : (l.replace a b).map f = l.map f := by
  rw [← List.filterMap_eq_map]
  exact filterMap_replace (congrArg some h)

theorem filter_erase {p : α → Bool} (ha : p a = false) : (l.erase a).filter p = l.filter p := by
  induction l with
  | nil => rfl
  | cons d l ih =>
    rw [List.erase_cons]
    by_cases hda : d = a
    · subst hda
      simp [ha]
    · rw [if_neg (by simpa using hda), List.filter_cons, List.filter_cons, ih]

end Replacing
