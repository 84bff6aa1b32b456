import Mathlib.Order.Lattice
import Mathlib.Data.List.Basic

/-!
# Bounding interval hierarchies

Boxes stand at positions, and a tree over the positions says along one axis at a time where boxes
do not reach. A point is looked up by going down the tree and passing over what cannot contain it.

* `Hierarchy`: the trees, `positions`: the positions at their leaves, from left to right;
* `Bounded low high t`: what the nodes of `t` say is true of the boxes;
* `found p t`: the positions at which a point may lie in a box;
* `mem_found`: every position whose box contains the point is found, and `found_sublist`: no
  position is found more often than it stands in the tree;
* `splits`: how many nodes with two children lie above one another.
-/

/-- A tree over the positions from `left` to before `stop`, for boxes with the axes `Axis`. -/
inductive Hierarchy (Axis F : Type*)
  | leaf (left stop : ℕ)
  | clip (axis : Axis) (lo hi : F) (child : Hierarchy Axis F)
  | split (axis : Axis) (clipL clipR : F) (left right : Hierarchy Axis F)

namespace Hierarchy

variable {Axis F : Type*} {low high low' high' : ℕ → Axis → F} {p : Axis → F} {i : ℕ}

/-- The positions at the leaves, from left to right. -/
def positions : Hierarchy Axis F → List ℕ
  | leaf left stop => List.range' left (stop - left)
  | clip _ _ _ t => t.positions
  | split _ _ _ l r => l.positions ++ r.positions

/-- The largest number of nodes with two children on a way down. -/
def splits : Hierarchy Axis F → ℕ
  | leaf _ _ => 0
  | clip _ _ _ t => t.splits
  | split _ _ _ l r => max l.splits r.splits + 1

/-- The number of nodes. -/
def size : Hierarchy Axis F → ℕ
  | leaf _ _ => 1
  | clip _ _ _ t => t.size + 1
  | split _ _ _ l r => l.size + r.size + 1

theorem size_pos (t : Hierarchy Axis F) : 0 < t.size := by
  cases t <;> exact Nat.succ_pos _

/-- All leaves have a property of where they begin and stop. -/
def Leaves (P : ℕ → ℕ → Prop) : Hierarchy Axis F → Prop
  | leaf left stop => P left stop
  | clip _ _ _ t => t.Leaves P
  | split _ _ _ l r => l.Leaves P ∧ r.Leaves P

theorem Leaves.mono {P Q : ℕ → ℕ → Prop} {t : Hierarchy Axis F} (ht : t.Leaves P)
    (h : ∀ left stop, P left stop → Q left stop) : t.Leaves Q := by
  induction t with
  | leaf left stop => exact h _ _ ht
  | clip _ _ _ t ih => exact ih ht
  | split _ _ _ l r ihl ihr => exact ⟨ihl ht.1, ihr ht.2⟩

section

variable [LinearOrder F]

/-- The boxes at the positions keep to what the nodes say. -/
def Bounded (low high : ℕ → Axis → F) : Hierarchy Axis F → Prop
  | leaf _ _ => True
  | clip axis lo hi t =>
    (∀ i ∈ t.positions, lo ≤ low i axis ∧ high i axis ≤ hi) ∧ t.Bounded low high
  | split axis clipL clipR l r =>
    (∀ i ∈ l.positions, high i axis ≤ clipL) ∧ (∀ i ∈ r.positions, clipR ≤ low i axis) ∧
      l.Bounded low high ∧ r.Bounded low high

/-- The positions that are not ruled out for a point. -/
def found (p : Axis → F) : Hierarchy Axis F → List ℕ
  | leaf left stop => List.range' left (stop - left)
  | clip axis lo hi t => if lo > p axis ∨ hi < p axis then [] else t.found p
  | split axis clipL clipR l r =>
    if clipL < p axis ∧ clipR > p axis then []
    else if clipL < p axis then r.found p
    else if clipR > p axis then l.found p
    else l.found p ++ r.found p

theorem found_sublist (p : Axis → F) (t : Hierarchy Axis F) :
    (t.found p).Sublist t.positions := by
  induction t with
  | leaf left stop => exact List.Sublist.refl _
  | clip axis lo hi t ih =>
    rw [found, positions]
    split_ifs
    · exact List.nil_sublist _
    · exact ih
  | split axis clipL clipR l r ihl ihr =>
    rw [found, positions]
    split_ifs
    · exact List.nil_sublist _
    · exact ihr.trans (List.sublist_append_right _ _)
    · exact ihl.trans (List.sublist_append_left _ _)
    · exact ihl.append ihr

/-- **Completeness.** A box that contains the point is found: what is passed over ends before the
point or begins behind it. -/
theorem mem_found {t : Hierarchy Axis F} (ht : t.Bounded low high) (hi : i ∈ t.positions)
    (hp : ∀ axis, low i axis ≤ p axis ∧ p axis ≤ high i axis) : i ∈ t.found p := by
  induction t with
  | leaf left stop => exact hi
  | clip axis lo hi' t ih =>
    have hclip := ht.1 i hi
    rw [found, if_neg]
    · exact ih ht.2 hi
    · rintro (h | h)
      · exact absurd (hclip.1.trans (hp axis).1) (not_le.mpr h)
      · exact absurd ((hp axis).2.trans hclip.2) (not_le.mpr h)
  | split axis clipL clipR l r ihl ihr =>
    obtain ⟨hclipL, hclipR, hl, hr⟩ := ht
    rcases List.mem_append.mp hi with hi | hi
    · -- a box on the left ends at `clipL`
      have hle : ¬ clipL < p axis := not_lt.mpr ((hp axis).2.trans (hclipL i hi))
      rw [found, if_neg (fun h => hle h.1), if_neg hle]
      split_ifs
      · exact ihl hl hi
      · exact List.mem_append_left _ (ihl hl hi)
    · have hle : ¬ clipR > p axis := not_lt.mpr ((hclipR i hi).trans (hp axis).1)
      rw [found, if_neg (fun h => hle h.2)]
      split_ifs
      · exact ihr hr hi
      · exact List.mem_append_right _ (ihr hr hi)

/-- Only the boxes at the positions of the tree matter. -/
theorem Bounded.congr {t : Hierarchy Axis F} (ht : t.Bounded low high)
    (h : ∀ i ∈ t.positions, low' i = low i ∧ high' i = high i) : t.Bounded low' high' := by
  induction t with
  | leaf left stop => trivial
  | clip axis lo hi t ih =>
    refine ⟨fun i hi => ?_, ih ht.2 h⟩
    rw [(h i hi).1, (h i hi).2]
    exact ht.1 i hi
  | split axis clipL clipR l r ihl ihr =>
    obtain ⟨hclipL, hclipR, hl, hr⟩ := ht
    have hleft : ∀ i ∈ l.positions, low' i = low i ∧ high' i = high i :=
      fun i hi => h i (List.mem_append_left _ hi)
    have hright : ∀ i ∈ r.positions, low' i = low i ∧ high' i = high i :=
      fun i hi => h i (List.mem_append_right _ hi)
    refine ⟨fun i hi => ?_, fun i hi => ?_, ihl hl hleft, ihr hr hright⟩
    · rw [(hleft i hi).2]
      exact hclipL i hi
    · rw [(hright i hi).1]
      exact hclipR i hi

end

end Hierarchy
