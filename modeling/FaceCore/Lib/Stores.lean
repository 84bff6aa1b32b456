import Mathlib.Data.List.Basic
import Mathlib.Tactic

/-!
# Stores to a region

A region is a list of cells, and a store is a value with the number of the cell it is meant for.
A store that misses the region leaves it as it is: whatever else it hits is not part of the region.

* `run`: the region after stores, `Within`: no store misses a region of that size;
* `List.zipIdx` is what an output iterator does that starts at the first cell, and
  `run_zipIdx` what it leaves behind.
-/

namespace Stores

variable {α : Type*}

/-- Every store hits a region of `n` cells. -/
def Within (n : ℕ) (ws : List (α × ℕ)) : Prop := ∀ w ∈ ws, w.2 < n

/-- The region after stores. -/
def run (ws : List (α × ℕ)) (m : List α) : List α := ws.foldl (fun m w => m.set w.2 w.1) m

@[simp] theorem run_nil (m : List α) : run [] m = m := rfl

@[simp] theorem run_cons (w : α × ℕ) (ws : List (α × ℕ)) (m : List α) :
    run (w :: ws) m = run ws (m.set w.2 w.1) := rfl

theorem run_append (ws ws' : List (α × ℕ)) (m : List α) :
    run (ws ++ ws') m = run ws' (run ws m) := by
  rw [run, List.foldl_append, run, run]

@[simp] theorem length_run (ws : List (α × ℕ)) (m : List α) : (run ws m).length = m.length := by
  induction ws generalizing m with
  | nil => rfl
  | cons w ws ih => rw [run_cons, ih, List.length_set]

@[simp] theorem within_nil (n : ℕ) : Within n ([] : List (α × ℕ)) := by simp [Within]

@[simp] theorem within_append {n : ℕ} {ws ws' : List (α × ℕ)} :
    Within n (ws ++ ws') ↔ Within n ws ∧ Within n ws' := by
  simp only [Within, List.mem_append, or_imp, forall_and]

@[simp] theorem within_singleton {n : ℕ} {w : α × ℕ} : Within n [w] ↔ w.2 < n := by simp [Within]

theorem within_zipIdx {n : ℕ} {out : List α} : Within n out.zipIdx ↔ out.length ≤ n := by
  constructor
  · intro hw
    by_contra hle
    have hlt : n < out.length := by omega
    exact absurd (hw _ (List.mk_mem_zipIdx_iff_getElem?.2 (List.getElem?_eq_getElem hlt)))
      (Nat.lt_irrefl n)
  · rintro hle ⟨x, i⟩ hx
    have hi := List.snd_lt_of_mem_zipIdx hx
    dsimp only at hi ⊢
    omega

/-- An output iterator from cell `k` on replaces the cells that it has values for. -/
theorem run_zipIdx (k : ℕ) (out m : List α) :
    run (out.zipIdx k) m = m.take k ++ out.take (m.length - k) ++ m.drop (k + out.length) := by
  induction out generalizing k m with
  | nil => simp
  | cons x out ih =>
    rw [List.zipIdx_cons, run_cons, ih, List.length_set, List.length_cons]
    by_cases hk : k < m.length
    · have hset : (m.set k x).take (k + 1) = m.take k ++ [x] := by
        rw [List.take_add_one, List.getElem?_set_self hk, List.take_set_of_le (le_refl k)]
        rfl
      rw [hset, List.drop_set_of_lt (by omega), show m.length - k = m.length - (k + 1) + 1 by omega,
        List.take_succ_cons, Nat.add_assoc, Nat.add_comm 1]
      simp
    · have hzero : m.length - (k + 1) = 0 := by omega
      have hnone : m.length - k = 0 := by omega
      rw [List.set_eq_of_length_le (by omega), hzero, hnone, List.take_zero, List.take_zero,
        List.take_of_length_le (by omega), List.take_of_length_le (by omega),
        List.drop_eq_nil_of_le (by omega), List.drop_eq_nil_of_le (by omega)]

theorem run_zipIdx_zero (out m : List α) :
    run out.zipIdx m = out.take m.length ++ m.drop out.length := by
  rw [run_zipIdx, List.take_zero, List.nil_append, Nat.sub_zero, Nat.zero_add]

end Stores
