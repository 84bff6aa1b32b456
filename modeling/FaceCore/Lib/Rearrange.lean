import Mathlib.Logic.Equiv.Basic
import Mathlib.Data.List.Perm.Basic
import Mathlib.Data.List.Range
import Mathlib.Data.List.Nodup

/-!
# Rearranging a segment

An array is the function from its positions to what stands there. `Rearranged left stop f g`: `g`
holds what `f` holds, with some exchanges among the positions from `left` to before `stop`.

* `Rearranged.refl`, `trans`, `mono`, `swap`: how rearrangements arise;
* `Rearranged.eq_outside`, `exists_inside`: what stands where afterwards;
* `Rearranged.perm`: all positions together hold the same.
-/

/-- The array `a` after the values at `i` and `j` are exchanged. -/
def swapped {α : Type*} (a : ℕ → α) (i j : ℕ) : ℕ → α :=
  fun k => if k = i then a j else if k = j then a i else a k

/-- `g` is `f` with the positions from `left` to before `stop` permuted. -/
def Rearranged {α : Type*} (left stop : ℕ) (f g : ℕ → α) : Prop :=
  ∃ σ : Equiv.Perm ℕ, (∀ i, ¬ (left ≤ i ∧ i < stop) → σ i = i) ∧ ∀ i, g i = f (σ i)

namespace Rearranged

variable {α : Type*} {left stop left' stop' i j : ℕ} {f g h : ℕ → α}

theorem refl (left stop : ℕ) (f : ℕ → α) : Rearranged left stop f f :=
  ⟨Equiv.refl ℕ, fun _ _ => rfl, fun _ => rfl⟩

theorem trans (hfg : Rearranged left stop f g) (hgh : Rearranged left stop g h) :
    Rearranged left stop f h := by
  obtain ⟨σ, hσ, hg⟩ := hfg
  obtain ⟨τ, hτ, hh⟩ := hgh
  refine ⟨τ.trans σ, fun i hi => ?_, fun i => ?_⟩
  · rw [Equiv.trans_apply, hτ i hi, hσ i hi]
  · rw [hh, hg, Equiv.trans_apply]

theorem mono (hl : left' ≤ left) (hs : stop ≤ stop') (hfg : Rearranged left stop f g) :
    Rearranged left' stop' f g := by
  obtain ⟨σ, hσ, hg⟩ := hfg
  exact ⟨σ, fun i hi => hσ i fun hin => hi ⟨hl.trans hin.1, hin.2.trans_le hs⟩, hg⟩

theorem swap (hi : left ≤ i ∧ i < stop) (hj : left ≤ j ∧ j < stop) (f : ℕ → α) :
    Rearranged left stop f (swapped f i j) := by
  refine ⟨Equiv.swap i j, fun k hk => ?_, fun k => ?_⟩
  · refine Equiv.swap_apply_of_ne_of_ne ?_ ?_
    · rintro rfl
      exact hk hi
    · rintro rfl
      exact hk hj
  · rw [swapped, Equiv.swap_apply_def]
    split_ifs <;> rfl

theorem eq_outside (hfg : Rearranged left stop f g) (hi : ¬ (left ≤ i ∧ i < stop)) :
    g i = f i := by
  obtain ⟨σ, hσ, hg⟩ := hfg
  rw [hg, hσ i hi]

theorem exists_inside (hfg : Rearranged left stop f g) (hi : left ≤ i ∧ i < stop) :
    ∃ j, (left ≤ j ∧ j < stop) ∧ g i = f j := by
  obtain ⟨σ, hσ, hg⟩ := hfg
  refine ⟨σ i, ?_, hg i⟩
  by_contra hout
  have hfix : σ i = i := σ.injective (hσ _ hout)
  rw [hfix] at hout
  exact hout hi

theorem forall_inside {P : α → Prop} (hfg : Rearranged left stop f g)
    (hP : ∀ j, left ≤ j → j < stop → P (f j)) (hl : left ≤ i) (hs : i < stop) : P (g i) := by
  obtain ⟨j, hj, hij⟩ := hfg.exists_inside ⟨hl, hs⟩
  rw [hij]
  exact hP j hj.1 hj.2

/-- An array of `n` places holds the same after a rearrangement. -/
theorem perm {n : ℕ} (hfg : Rearranged 0 n f g) :
    ((List.range n).map g).Perm ((List.range n).map f) := by
  obtain ⟨σ, hσ, hg⟩ := hfg
  have hmap : (List.range n).map g = ((List.range n).map σ).map f := by
    rw [List.map_map]
    exact List.map_congr_left fun i _ => hg i
  rw [hmap]
  refine List.Perm.map f ((List.perm_ext_iff_of_nodup ?_ List.nodup_range).mpr fun k => ?_)
  · exact List.nodup_range.map σ.injective
  · have hin : ∀ i, σ i < n ↔ i < n := by
      intro i
      by_cases hi : i < n
      · refine iff_of_true ?_ hi
        by_contra hout
        have hfix : σ i = i := σ.injective (hσ _ fun h => hout h.2)
        omega
      · rw [hσ i fun h => hi h.2]
    rw [List.mem_map, List.mem_range]
    constructor
    · rintro ⟨i, hi, rfl⟩
      exact (hin i).mpr (List.mem_range.mp hi)
    · intro hk
      refine ⟨σ.symm k, List.mem_range.mpr ((hin _).mp ?_), σ.apply_symm_apply k⟩
      rwa [σ.apply_symm_apply]

end Rearranged
