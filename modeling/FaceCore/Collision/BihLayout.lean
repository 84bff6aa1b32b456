import FaceCore.Collision.Bih
import FaceCore.Lib.FixedWidth
import FaceCore.Lib.Hierarchy
import Mathlib.Data.Nat.Bitwise

/-!
# The words of a hierarchy

A node is three words: its axis and flags with the place of its children, and two floats or the
number of objects of a leaf.

* `read_nodeWord`, `read_bvh2Word`, `read_leafWord`: a word is read as it was written, for places
  below `2 ^ 29`;
* `IsNode`: three words stand at a place, with what `writeNode` and `allocated` keep;
* `Clips`: the three forms of a node with one child;
* `Encodes`: the words at a place and between two bounds are those of a tree.
-/

namespace FaceCore.Collision

/-! ### One word -/

section

variable {axis : Fin 3} {offset : ℕ}

theorem toNat_ofNat_offset (h : offset < 2 ^ 29) : (UInt32.ofNat offset).toNat = offset := by
  rw [UInt32.toNat_ofNat', Nat.mod_eq_of_lt (by omega)]

theorem toNat_or_offset {w : UInt32} {k : ℕ} (hw : w.toNat = k * 2 ^ 29) (h : offset < 2 ^ 29) :
    (w ||| UInt32.ofNat offset).toNat = k * 2 ^ 29 + offset := by
  rw [UInt32.toNat_or, hw, toNat_ofNat_offset h, ← Nat.shiftLeft_eq,
    Nat.shiftLeft_add_eq_or_of_lt h]

theorem toNat_axis_shift (axis : Fin 3) :
    (UInt32.ofNat axis.val <<< 30).toNat = (2 * axis.val) * 2 ^ 29 := by
  fin_cases axis <;> rfl

theorem toNat_axis_shift_or (axis : Fin 3) :
    ((UInt32.ofNat axis.val <<< 30) ||| ((1 : UInt32) <<< 29)).toNat =
      (2 * axis.val + 1) * 2 ^ 29 := by
  fin_cases axis <;> rfl

theorem toNat_nodeWord (axis : Fin 3) (h : offset < 2 ^ 29) :
    (nodeWord axis offset).toNat = (2 * axis.val) * 2 ^ 29 + offset :=
  toNat_or_offset (toNat_axis_shift axis) h

theorem toNat_bvh2Word (axis : Fin 3) (h : offset < 2 ^ 29) :
    (bvh2Word axis offset).toNat = (2 * axis.val + 1) * 2 ^ 29 + offset :=
  toNat_or_offset (toNat_axis_shift_or axis) h

theorem toNat_leafWord (h : offset < 2 ^ 29) : (leafWord offset).toNat = 6 * 2 ^ 29 + offset :=
  toNat_or_offset rfl h

theorem axisOf_eq (tn : UInt32) : axisOf tn = tn.toNat / 2 ^ 30 % 4 := by
  have hshift : axisOf tn = (tn.toNat &&& (3 * 2 ^ 30)) >>> 30 := by
    simp only [axisOf, UInt32.toNat_shiftRight, UInt32.toNat_and]
    rfl
  rw [hshift, Nat.shiftRight_and_distrib, Nat.shiftRight_eq_div_pow]
  exact Nat.and_two_pow_sub_one_eq_mod _ 2

theorem isBvh2_eq (tn : UInt32) : isBvh2 tn = decide (tn.toNat / 2 ^ 29 % 2 = 1) := by
  have hand : (tn &&& ((1 : UInt32) <<< 29)).toNat = tn.toNat &&& 2 ^ 29 := by
    rw [UInt32.toNat_and]
    rfl
  have hbit := Nat.and_two_pow tn.toNat 29
  rw [Nat.testBit_eq_decide_div_mod_eq] at hbit
  rw [isBvh2, decide_eq_decide, ne_eq, ← UInt32.toNat_inj, hand, hbit]
  simp

theorem offsetOf_eq (tn : UInt32) : offsetOf tn = tn.toNat % 2 ^ 29 := by
  have hand : offsetOf tn = tn.toNat &&& (2 ^ 29 - 1) := by
    rw [offsetOf, UInt32.toNat_and]
    rfl
  rw [hand, Nat.and_two_pow_sub_one_eq_mod]

theorem read_word {w : UInt32} {k : ℕ} (hw : w.toNat = k * 2 ^ 29 + offset)
    (h : offset < 2 ^ 29) (hk : k < 8) :
    axisOf w = k / 2 ∧ isBvh2 w = decide (k % 2 = 1) ∧ offsetOf w = offset := by
  rw [axisOf_eq, isBvh2_eq, offsetOf_eq, hw]
  refine ⟨by omega, decide_eq_decide.mpr (by omega), by omega⟩

theorem read_nodeWord (axis : Fin 3) (h : offset < 2 ^ 29) :
    axisOf (nodeWord axis offset) = axis ∧ isBvh2 (nodeWord axis offset) = false ∧
      offsetOf (nodeWord axis offset) = offset := by
  obtain ⟨haxis, hbvh2, hoffset⟩ := read_word (toNat_nodeWord axis h) h (by omega)
  exact ⟨by omega, hbvh2.trans (decide_eq_false (by omega)), hoffset⟩

theorem read_bvh2Word (axis : Fin 3) (h : offset < 2 ^ 29) :
    axisOf (bvh2Word axis offset) = axis ∧ isBvh2 (bvh2Word axis offset) = true ∧
      offsetOf (bvh2Word axis offset) = offset := by
  obtain ⟨haxis, hbvh2, hoffset⟩ := read_word (toNat_bvh2Word axis h) h (by omega)
  exact ⟨by omega, hbvh2.trans (decide_eq_true (by omega)), hoffset⟩

theorem read_leafWord (h : offset < 2 ^ 29) :
    axisOf (leafWord offset) = 3 ∧ isBvh2 (leafWord offset) = false ∧
      offsetOf (leafWord offset) = offset :=
  read_word (toNat_leafWord h) h (by omega)

theorem toNat_toInt32_count {n : ℕ} (h : n < 2 ^ 29) :
    (UInt32.ofNat n).toInt32.toInt.toNat = n := by
  rw [FixedWidth.toInt_toInt32, toNat_ofNat_offset h]
  split_ifs <;> omega

end

/-! ### Three words -/

variable {tree tree' : List UInt32} {node i lo hi lo' hi' : ℕ} {w w1 w2 : UInt32}

/-- The words at a node. -/
def IsNode (tree : List UInt32) (node : ℕ) (w w1 w2 : UInt32) : Prop :=
  tree[node]? = some w ∧ tree[node + 1]? = some w1 ∧ tree[node + 2]? = some w2

@[simp] theorem length_allocated : (allocated tree).length = tree.length + 3 := by
  simp [allocated]

@[simp] theorem length_writeNode : (writeNode tree node w w1 w2).length = tree.length := by
  simp [writeNode]

@[simp] theorem length_createNode {left stop : ℕ} :
    (createNode tree node left stop).length = tree.length := by
  simp [createNode]

theorem getElem?_allocated (h : i < tree.length) : (allocated tree)[i]? = tree[i]? :=
  List.getElem?_append_left h

theorem getElem?_writeNode (h : ¬ (node ≤ i ∧ i < node + 3)) :
    (writeNode tree node w w1 w2)[i]? = tree[i]? := by
  rw [writeNode, List.getElem?_set_ne (by omega), List.getElem?_set_ne (by omega),
    List.getElem?_set_ne (by omega)]

theorem getElem?_createNode {left stop : ℕ} (h : ¬ (node ≤ i ∧ i < node + 3)) :
    (createNode tree node left stop)[i]? = tree[i]? := by
  rw [createNode, List.getElem?_set_ne (by omega), List.getElem?_set_ne (by omega)]

theorem isNode_writeNode (h : node + 3 ≤ tree.length) :
    IsNode (writeNode tree node w w1 w2) node w w1 w2 := by
  refine ⟨?_, ?_, ?_⟩
  · rw [writeNode, List.getElem?_set_ne (by omega), List.getElem?_set_ne (by omega),
      List.getElem?_set_self (by omega)]
  · rw [writeNode, List.getElem?_set_ne (by omega),
      List.getElem?_set_self (by rw [List.length_set]; omega)]
  · rw [writeNode, List.getElem?_set_self (by rw [List.length_set, List.length_set]; omega)]

theorem IsNode.congr (h : IsNode tree node w w1 w2)
    (heq : ∀ i, node ≤ i → i < node + 3 → tree'[i]? = tree[i]?) : IsNode tree' node w w1 w2 := by
  refine ⟨?_, ?_, ?_⟩
  · rw [heq _ (by omega) (by omega)]
    exact h.1
  · rw [heq _ (by omega) (by omega)]
    exact h.2.1
  · rw [heq _ (by omega) (by omega)]
    exact h.2.2

/-! ### Trees -/

variable {F : Type*} [LinearOrder F] [BoundedOrder F] {arith : Arith F}
  {t : Hierarchy (Fin 3) F}

/-- The words of a node with its child at `next`: it cuts off empty space on both sides, or is a
node of which the other child stays empty. -/
def Clips (arith : Arith F) (tree : List UInt32) (node next : ℕ) (axis : Fin 3) (l r : F) : Prop :=
  IsNode tree node (bvh2Word axis next) (arith.floatToRawIntBits l) (arith.floatToRawIntBits r) ∨
  l = ⊥ ∧ IsNode tree node (nodeWord axis next) (arith.floatToRawIntBits r)
    (arith.floatToRawIntBits ⊤) ∨
  r = ⊤ ∧ ∃ offset, next = offset + 3 ∧
    IsNode tree node (nodeWord axis offset) (arith.floatToRawIntBits ⊥) (arith.floatToRawIntBits l)

theorem Clips.congr {next : ℕ} {axis : Fin 3} {l r : F} (h : Clips arith tree node next axis l r)
    (heq : ∀ i, node ≤ i → i < node + 3 → tree'[i]? = tree[i]?) :
    Clips arith tree' node next axis l r := by
  rcases h with h | ⟨hl, h⟩ | ⟨hr, offset, hnext, h⟩
  · exact .inl (h.congr heq)
  · exact .inr (.inl ⟨hl, h.congr heq⟩)
  · exact .inr (.inr ⟨hr, offset, hnext, h.congr heq⟩)

/-- The words of the tree `t`: its first node stands at `node`, all others between `lo` and `hi`. -/
def Encodes (arith : Arith F) (tree : List UInt32) (lo hi : ℕ) : ℕ → Hierarchy (Fin 3) F → Prop
  | node, .leaf left stop =>
    tree[node]? = some (leafWord left) ∧ tree[node + 1]? = some (UInt32.ofNat (stop - left))
  | node, .clip axis l r t =>
    ∃ next, Clips arith tree node next axis l r ∧ lo ≤ next ∧ next + 3 ≤ hi ∧
      Encodes arith tree lo hi next t
  | node, .split axis l r tl tr =>
    ∃ offset, IsNode tree node (nodeWord axis offset) (arith.floatToRawIntBits l)
      (arith.floatToRawIntBits r) ∧ lo ≤ offset ∧ offset + 6 ≤ hi ∧
      Encodes arith tree lo hi offset tl ∧ Encodes arith tree lo hi (offset + 3) tr

/-- Words that do not belong to the tree may change, and the bounds may be wider. -/
theorem Encodes.congr (h : Encodes arith tree lo hi node t) (hlo : lo' ≤ lo) (hhi : hi ≤ hi')
    (heq : ∀ i, node ≤ i ∧ i < node + 3 ∨ lo ≤ i ∧ i < hi → tree'[i]? = tree[i]?) :
    Encodes arith tree' lo' hi' node t := by
  induction t generalizing node with
  | leaf left stop =>
    exact ⟨(heq _ (.inl (by omega))).trans h.1, (heq _ (.inl (by omega))).trans h.2⟩
  | clip axis l r t ih =>
    obtain ⟨next, hnode, hle, hlt, ht⟩ := h
    exact ⟨next, hnode.congr fun i hi₁ hi₂ => heq i (.inl ⟨hi₁, hi₂⟩), by omega, by omega,
      ih ht fun i hi => heq i (.inr (by omega))⟩
  | split axis l r tl tr ihl ihr =>
    obtain ⟨offset, hnode, hle, hlt, htl, htr⟩ := h
    exact ⟨offset, hnode.congr fun i hi₁ hi₂ => heq i (.inl ⟨hi₁, hi₂⟩), by omega, by omega,
      ihl htl fun i hi => heq i (.inr (by omega)), ihr htr fun i hi => heq i (.inr (by omega))⟩

end FaceCore.Collision
