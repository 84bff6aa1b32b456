import Mathlib.Algebra.BigOperators.Group.Finset.Basic
import Mathlib.Algebra.Order.BigOperators.Group.Multiset

/-!
# Layers over a multiset

Several lists may be laid over a multiset, each under its own name, and taken off again.

* `layered lists base active`: `base` with the lists of the names in `active`;
* `layered_insert`, `layered_erase`: one list more, one list less;
* `takeOff kept l m`: the entries of `l` are erased one by one, except those that are `kept`;
* `takeOff_eq_sub`, `count_takeOff`: what is left.
-/

namespace Layers

variable {ι α : Type*} [DecidableEq ι] [DecidableEq α] {lists : ι → List α} {base m : Multiset α}
  {active : Finset ι} {i : ι} {a : α} {l : List α} {kept : α → Bool}

/-- The multiset with the lists of the active names. -/
def layered (lists : ι → List α) (base : Multiset α) (active : Finset ι) : Multiset α :=
  base + ∑ i ∈ active, (lists i : Multiset α)

omit [DecidableEq ι] [DecidableEq α] in
@[simp] theorem layered_empty : layered lists base ∅ = base := by
  unfold layered
  rw [Finset.sum_empty, add_zero]

omit [DecidableEq α] in
theorem layered_insert (hi : i ∉ active) :
    layered lists base (insert i active) = layered lists base active + (lists i : Multiset α) := by
  unfold layered
  rw [Finset.sum_insert hi, add_assoc, add_comm (lists i : Multiset α)]

theorem layered_erase (hi : i ∈ active) :
    layered lists base active - (lists i : Multiset α) = layered lists base (active.erase i) := by
  have h : layered lists base (insert i (active.erase i)) =
      layered lists base (active.erase i) + (lists i : Multiset α) :=
    layered_insert (Finset.notMem_erase i active)
  rw [Finset.insert_erase hi] at h
  rw [h, Multiset.add_sub_cancel_right]

omit [DecidableEq ι] [DecidableEq α] in
theorem mem_layered : a ∈ layered lists base active ↔ a ∈ base ∨ ∃ i ∈ active, a ∈ lists i := by
  unfold layered
  simp only [Multiset.mem_add, Multiset.mem_sum, Multiset.mem_coe]

/-- Lay a list over a multiset. -/
def layOver (l : List α) (m : Multiset α) : Multiset α := l.foldl (fun m a => a ::ₘ m) m

omit [DecidableEq α] in
theorem layOver_eq_add : layOver l m = m + (l : Multiset α) := by
  unfold layOver
  induction l generalizing m with
  | nil => simp
  | cons a l ih => rw [List.foldl_cons, ih, ← Multiset.cons_coe, Multiset.cons_add, Multiset.add_cons]

/-- Take a list off a multiset, except for the entries that are kept. -/
def takeOff (kept : α → Bool) (l : List α) (m : Multiset α) : Multiset α :=
  l.foldl (fun m a => if kept a then m else m.erase a) m

theorem takeOff_eq_sub_filter :
    takeOff kept l m = m - (l.filter fun a => !kept a : List α) := by
  unfold takeOff
  induction l generalizing m with
  | nil => simp
  | cons a l ih =>
    rw [List.foldl_cons, ih]
    cases ha : kept a with
    | true => simp [ha]
    | false =>
      rw [if_neg (by simp), List.filter_cons_of_pos (by simp [ha]), ← Multiset.cons_coe,
        Multiset.sub_cons]

/-- If nothing is kept, the whole list goes. -/
theorem takeOff_eq_sub (h : ∀ a ∈ l, kept a = false) : takeOff kept l m = m - (l : Multiset α) := by
  rw [takeOff_eq_sub_filter, List.filter_eq_self.2 fun a ha => by simp [h a ha]]

theorem count_takeOff :
    (takeOff kept l m).count a =
      m.count a - if kept a then 0 else (l : Multiset α).count a := by
  rw [takeOff_eq_sub_filter, Multiset.count_sub, Multiset.coe_count, Multiset.coe_count]
  cases ha : kept a with
  | true => simp [List.count_eq_zero_of_not_mem, ha]
  | false => rw [List.count_filter (by simp [ha]), if_neg (by simp)]

end Layers
