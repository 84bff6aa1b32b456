import FaceCore.Collision.BihCut
import FaceCore.Collision.BihLayout

/-!
# Building a bounding interval hierarchy

`subdivide` writes the words of a tree for a segment of the objects, at a node that is there already
and behind the words that are there.

* `Grown`: what a call of `subdivide` leaves behind. Its tree has every position of the segment,
  but for those that were lost;
* `Grown.leaf`, `clip`, `prev`, `split`: how the trees of the calls are put together;
* `exists_subdivide`: every call comes back, with such a tree;
* `Stands`: a hierarchy that a build leaves behind, `exists_stands`.
-/

namespace FaceCore.Collision

variable {F : Type*} [LinearOrder F] [BoundedOrder F] {arith : Arith F} {least greatest : F}
  {primBound : ℕ → AABox F} {left mid stop nodeIndex depth : ℕ} {b b₁ b₂ b₃ : Build}
  {axis : Fin 3} {clipL clipR : F} {t tl tr : Hierarchy (Fin 3) F} {ι ι' : ℕ → ℕ}
  {maxPrims : ℕ} {lost lostl lostr : List ℕ}

/-- The box of the object at a position keeps to what the nodes of `t` say. -/
def Bounds (primBound : ℕ → AABox F) (ι : ℕ → ℕ) (t : Hierarchy (Fin 3) F) : Prop :=
  t.Bounded (fun i => (primBound (ι i)).lo) (fun i => (primBound (ι i)).hi)

/-- From `b` to `b'` the words of the tree `t` were written for the segment from `left` to before
`stop`, at `nodeIndex` and behind the words of `b`. The positions `lost` are not in the tree. -/
structure Grown (arith : Arith F) (primBound : ℕ → AABox F) (maxPrims left stop nodeIndex depth : ℕ)
    (b b' : Build) (t : Hierarchy (Fin 3) F) (lost : List ℕ) : Prop where
  length_le : b.tree.length ≤ b'.tree.length
  length_bound : b'.tree.length ≤ b.tree.length + 9 * ((65 - depth) * (stop - left))
  frame : ∀ i, i < b.tree.length → ¬ (nodeIndex ≤ i ∧ i < nodeIndex + 3) →
    b'.tree[i]? = b.tree[i]?
  rearranged : Rearranged left stop b.indices b'.indices
  encodes : Encodes arith b'.tree b.tree.length b'.tree.length nodeIndex t
  lost_eq : b'.lost = b.lost ++ lost
  positions : (t.positions ++ lost).Perm (List.range' left (stop - left))
  many : lost = [] ∨ maxPrims < lost.length
  leaves : t.Leaves fun l s => left ≤ l ∧ l ≤ s ∧ s ≤ stop
  bounds : Bounds primBound b'.indices t
  splits : t.splits ≤ 65 - depth
  size : 3 * t.size + b.tree.length = b'.tree.length + 3

theorem Grown.inside (h : Grown arith primBound maxPrims left stop nodeIndex depth b b₁ t lost)
    {i : ℕ} (hi : i ∈ t.positions) : left ≤ i ∧ i < stop := by
  have hmem := h.positions.mem_iff.mp (List.mem_append_left lost hi)
  rw [List.mem_range'_1] at hmem
  omega

/-! ### Putting trees together -/

/-- A leaf takes the whole segment, or nothing of it. -/
theorem Grown.leaf (hnode : nodeIndex + 3 ≤ b.tree.length) (hlt : left < stop)
    (hr : Rearranged left stop b.indices ι) {taken : ℕ}
    (htaken : taken = stop ∨ taken = left ∧ maxPrims < stop - left) :
    Grown arith primBound maxPrims left stop nodeIndex depth b
      { tree := createNode b.tree nodeIndex left taken, indices := ι,
        lost := b.lost ++ List.range' taken (stop - taken) } (.leaf left taken)
      (List.range' taken (stop - taken)) where
  length_le := length_createNode.ge
  length_bound := by simp only [length_createNode]; omega
  frame := fun i _ hi => getElem?_createNode hi
  rearranged := hr
  encodes := by
    refine ⟨?_, ?_⟩
    · simp only [createNode]
      rw [List.getElem?_set_ne (by omega), List.getElem?_set_self (by omega)]
    · simp only [createNode]
      rw [List.getElem?_set_self (by rw [List.length_set]; omega)]
  lost_eq := rfl
  positions := by
    rcases htaken with rfl | ⟨rfl, -⟩ <;> simp [Hierarchy.positions]
  many := by
    rcases htaken with rfl | ⟨rfl, hmany⟩
    · exact .inl (by simp)
    · exact .inr (by rwa [List.length_range'])
  leaves := ⟨le_rfl, by omega, by omega⟩
  bounds := trivial
  splits := Nat.zero_le _
  size := by simp only [Hierarchy.size, length_createNode]; omega

/-- A node with one child, over a tree for the same objects. -/
theorem Grown.clip {w w1 w2 : UInt32} {l r : F}
    (h : Grown arith primBound maxPrims left stop b.tree.length (depth + 1)
      { b with tree := writeNode (allocated b.tree) nodeIndex w w1 w2, indices := ι } b₁ t lost)
    (hw : ∀ tree, IsNode tree nodeIndex w w1 w2 →
      Clips arith tree nodeIndex b.tree.length axis l r)
    (hnode : nodeIndex + 3 ≤ b.tree.length) (hlt : left < stop) (hdepth : depth < 64)
    (hr : Rearranged left stop b.indices ι)
    (hclip : ∀ j, left ≤ j → j < stop →
      l ≤ (primBound (ι j)).lo axis ∧ (primBound (ι j)).hi axis ≤ r) :
    Grown arith primBound maxPrims left stop nodeIndex depth b b₁ (.clip axis l r t) lost := by
  have hlen := h.length_le
  have hbound := h.length_bound
  have hsize := h.size
  have hsplits := h.splits
  simp only [length_writeNode, length_allocated] at hlen hbound hsize
  have hwritten : IsNode b₁.tree nodeIndex w w1 w2 := by
    have hwrite : IsNode (writeNode (allocated b.tree) nodeIndex w w1 w2) nodeIndex w w1 w2 :=
      isNode_writeNode (by rw [length_allocated]; omega)
    refine hwrite.congr fun i hi₁ hi₂ => h.frame i ?_ (by omega)
    simp only [length_writeNode, length_allocated]
    omega
  have hchild : Encodes arith b₁.tree b.tree.length b₁.tree.length b.tree.length t := by
    refine h.encodes.congr ?_ le_rfl fun i _ => rfl
    simp only [length_writeNode, length_allocated]
    omega
  refine ⟨by omega, ?_, fun i hi hout => ?_, hr.trans h.rearranged,
    ⟨b.tree.length, hw _ hwritten, le_rfl, hlen, hchild⟩, h.lost_eq, h.positions, h.many, h.leaves,
    ⟨fun i hi => ?_, h.bounds⟩, ?_, ?_⟩
  · have hmul : (65 - depth) * (stop - left) = (65 - (depth + 1)) * (stop - left) +
        (stop - left) := by
      rw [show 65 - depth = 65 - (depth + 1) + 1 by omega, Nat.add_mul, Nat.one_mul]
    omega
  · rw [h.frame i (by simp only [length_writeNode, length_allocated]; omega) (by omega),
      getElem?_writeNode hout, getElem?_allocated hi]
  · obtain ⟨hl, hs⟩ := h.inside hi
    exact h.rearranged.forall_inside
      (P := fun k => l ≤ (primBound k).lo axis ∧ (primBound k).hi axis ≤ r) hclip hl hs
  · rw [Hierarchy.splits]
    omega
  · rw [Hierarchy.size]
    omega

/-- The node for a plane that has all objects on one side. -/
theorem Grown.prev {clip : F} {wasLeft : Bool}
    (h : Grown arith primBound maxPrims left stop b.tree.length (depth + 1)
      { b with
        tree := (writePrev arith b.tree nodeIndex (some (axis, clip, wasLeft))).1
        indices := ι } b₁ t lost)
    (hnode : nodeIndex + 3 ≤ b.tree.length) (hlt : left < stop) (hdepth : depth < 64)
    (hr : Rearranged left stop b.indices ι)
    (hclip : Spares primBound left stop ι axis clip wasLeft) :
    ∃ t', Grown arith primBound maxPrims left stop nodeIndex depth b b₁ t' lost := by
  cases wasLeft with
  | true =>
    exact ⟨.clip axis ⊥ clip t, h.clip (fun tree hnode => .inr (.inl ⟨rfl, hnode⟩)) hnode hlt
      hdepth hr fun j hl hs => ⟨bot_le, hclip j hl hs⟩⟩
  | false =>
    exact ⟨.clip axis clip ⊤ t, h.clip (fun tree hnode => .inr (.inr ⟨rfl, b.tree.length - 3,
      by omega, hnode⟩)) hnode hlt hdepth hr fun j hl hs => ⟨hclip j hl hs, le_top⟩⟩

/-- A node over two trees, of which the second is grown after the first. -/
theorem Grown.split (hnode : nodeIndex + 3 ≤ b.tree.length) (hlm : left < mid) (hms : mid < stop)
    (hdepth : depth < 65) (hr : Rearranged left stop b.indices ι)
    (hnear : ∀ j, left ≤ j → j < mid → (primBound (ι j)).hi axis ≤ clipL)
    (hfar : ∀ j, mid ≤ j → j < stop → clipR ≤ (primBound (ι j)).lo axis)
    (hl : Grown arith primBound maxPrims left mid b.tree.length (depth + 1)
      { b with
        tree := writeNode (allocated (allocated b.tree)) nodeIndex (nodeWord axis b.tree.length)
          (arith.floatToRawIntBits clipL) (arith.floatToRawIntBits clipR)
        indices := ι } b₂ tl lostl)
    (hrt : Grown arith primBound maxPrims mid stop (b.tree.length + 3) (depth + 1) b₂ b₃ tr lostr) :
    Grown arith primBound maxPrims left stop nodeIndex depth b b₃ (.split axis clipL clipR tl tr)
      (lostl ++ lostr) := by
  have hlen := hl.length_le
  have hbound := hl.length_bound
  have hsize := hl.size
  have hlenr := hrt.length_le
  have hboundr := hrt.length_bound
  have hsizer := hrt.size
  simp only [length_writeNode, length_allocated] at hlen hbound hsize
  have hwritten : ∀ i, i < b.tree.length ∨ nodeIndex ≤ i ∧ i < nodeIndex + 3 →
      b₃.tree[i]? = (writeNode (allocated (allocated b.tree)) nodeIndex
        (nodeWord axis b.tree.length) (arith.floatToRawIntBits clipL)
        (arith.floatToRawIntBits clipR))[i]? := by
    intro i hi
    rw [hrt.frame i (by omega) (by omega), hl.frame i ?_ (by omega)]
    simp only [length_writeNode, length_allocated]
    omega
  -- the left part of the segment does not change when the right tree is grown
  have hkeep : ∀ i, left ≤ i → i < mid → b₃.indices i = b₂.indices i :=
    fun i _ hi => hrt.rearranged.eq_outside (by omega)
  refine ⟨by omega, ?_, ?_, ?_, ?_, ?_, ?_, ?_, ⟨?_, ?_⟩, ?_, ?_, ?_⟩
  · have hmul : (65 - depth) * (stop - left) = (65 - (depth + 1)) * (mid - left) +
        (65 - (depth + 1)) * (stop - mid) + (stop - left) := by
      rw [← Nat.mul_add, show mid - left + (stop - mid) = stop - left by omega,
        show 65 - depth = 65 - (depth + 1) + 1 by omega, Nat.add_mul, Nat.one_mul]
    omega
  · intro i hi hout
    rw [hwritten i (.inl hi), getElem?_writeNode hout,
      getElem?_allocated (by rw [length_allocated]; omega), getElem?_allocated hi]
  · exact hr.trans ((hl.rearranged.mono le_rfl hms.le).trans (hrt.rearranged.mono hlm.le le_rfl))
  · refine ⟨b.tree.length, ?_, le_rfl, by omega, ?_, ?_⟩
    · exact (isNode_writeNode (by simp only [length_allocated]; omega)).congr
        fun i hi₁ hi₂ => hwritten i (.inr ⟨hi₁, hi₂⟩)
    · refine hl.encodes.congr ?_ hlenr fun i hi => ?_
      · simp only [length_writeNode, length_allocated]
        omega
      · simp only [length_writeNode, length_allocated] at hi
        exact hrt.frame i (by omega) (by omega)
    · exact hrt.encodes.congr (by omega) le_rfl fun i _ => rfl
  · rw [hrt.lost_eq, hl.lost_eq, List.append_assoc]
  · have happend := List.range'_append_1 (s := left) (m := mid - left) (n := stop - mid)
    rw [show left + (mid - left) = mid by omega,
      show mid - left + (stop - mid) = stop - left by omega] at happend
    have hboth := hl.positions.append hrt.positions
    rw [happend] at hboth
    refine List.Perm.trans ?_ hboth
    -- what the left tree lost is brought in front of the right tree
    rw [Hierarchy.positions, List.append_assoc, List.append_assoc]
    refine List.Perm.append_left _ ?_
    rw [← List.append_assoc, ← List.append_assoc]
    exact List.perm_append_comm.append_right _
  · rcases hl.many with rfl | hmany
    · exact hrt.many
    · exact .inr (by rw [List.length_append]; omega)
  · exact hl.leaves.mono fun l s h => ⟨h.1, h.2.1, h.2.2.trans hms.le⟩
  · exact hrt.leaves.mono fun l s h => ⟨hlm.le.trans h.1, h.2⟩
  · refine ⟨fun i hi => ?_, fun i hi => ?_, ?_, hrt.bounds⟩
    · obtain ⟨hi₁, hi₂⟩ := hl.inside hi
      simp only [hkeep i hi₁ hi₂]
      exact hl.rearranged.forall_inside (P := fun k => (primBound k).hi axis ≤ clipL) hnear hi₁ hi₂
    · obtain ⟨hi₁, hi₂⟩ := hrt.inside hi
      refine hrt.rearranged.forall_inside (P := fun k => clipR ≤ (primBound k).lo axis)
        (fun j hj₁ hj₂ => ?_) hi₁ hi₂
      rw [hl.rearranged.eq_outside (by omega)]
      exact hfar j hj₁ hj₂
    · refine Hierarchy.Bounded.congr hl.bounds fun i hi => ?_
      obtain ⟨hi₁, hi₂⟩ := hl.inside hi
      simp only [hkeep i hi₁ hi₂, and_self]
  · have hsplitl := hl.splits
    have hsplitr := hrt.splits
    simp only [Hierarchy.splits]
    omega
  · simp only [Hierarchy.size]
    omega

/-! ### All calls come back -/

theorem Grown.of_rearranged {tree : List UInt32}
    (h : Grown arith primBound maxPrims left stop nodeIndex depth ⟨tree, ι, lostl⟩ b₁ t lost)
    (hr : Rearranged left stop ι' ι) :
    Grown arith primBound maxPrims left stop nodeIndex depth ⟨tree, ι', lostl⟩ b₁ t lost :=
  { h with rearranged := hr.trans h.rearranged }

theorem length_writePrev (arith : Arith F) {tree : List UInt32}
    (prev : Option (Fin 3 × F × Bool))
    (hnode : nodeIndex + 3 ≤ tree.length) :
    (writePrev arith tree nodeIndex prev).2 + 3 ≤
      (writePrev arith tree nodeIndex prev).1.length := by
  match prev with
  | none => exact hnode
  | some (_, _, true) => simp [writePrev]
  | some (_, _, false) => simp [writePrev]

/-- **Every call of `subdivide` comes back.** The loop is given two rounds for every coordinate, and
the recursion goes no deeper than the stack of a query. -/
theorem exists_subdivide [Finite F] (hlaw : arith.Lawful least greatest)
    (hprim : ∀ k, (primBound k).Within least greatest) (maxPrims : ℕ) {rounds : ℕ}
    (hrounds : 2 * (3 * Nat.card F) + 2 ≤ rounds) (levels left stop nodeIndex depth : ℕ)
    (b : Build) {gridBox nodeBox : AABox F} (hlevels : 65 ≤ levels + depth) (hpos : 1 ≤ levels)
    (hfit : Fits arith least greatest primBound left stop gridBox nodeBox b.indices)
    (hnode : nodeIndex + 3 ≤ b.tree.length) :
    ∃ b' t lost, subdivide arith primBound maxPrims rounds levels left stop b gridBox nodeBox
        nodeIndex depth = .ok b' ∧
      Grown arith primBound maxPrims left stop nodeIndex depth b b' t lost := by
  induction levels generalizing left stop b gridBox nodeBox nodeIndex depth with
  | zero => omega
  | succ levels ih =>
  rw [subdivide]
  by_cases hleaf : stop - left ≤ maxPrims ∨ depth ≥ MAX_STACK_SIZE
  · rw [if_pos hleaf]
    have hgrown : Grown arith primBound maxPrims left stop nodeIndex depth b _ _ _ :=
      Grown.leaf hnode hfit.lt (Rearranged.refl _ _ _) (.inl rfl)
    rw [Nat.sub_self, List.range'_zero, List.append_nil] at hgrown
    exact ⟨_, _, _, rfl, hgrown⟩
  rw [if_neg hleaf]
  have hmany : maxPrims < stop - left := by omega
  have hdepth : depth < 64 := by
    rw [MAX_STACK_SIZE] at hleaf
    omega
  obtain ⟨turn, hcut, hgood, hlast⟩ := exists_cut hlaw hprim _ rounds
    { gridBox := gridBox, indices := b.indices, axis := none, split := none, prevClip := none,
      wasLeft := true }
    (room_le gridBox) hrounds hfit (fun _ _ h _ => by cases h)
  rw [hcut]
  cases turn with
  | again c' => exact absurd rfl (hlast c')
  | leaf taken ι =>
    exact ⟨_, _, _, rfl, Grown.leaf hnode hfit.lt hgood.1 (hgood.2.imp_right fun h => ⟨h, hmany⟩)⟩
  | clip axis nodeL nodeR grid ι =>
    obtain ⟨hr, hfit', hclip⟩ := hgood
    have hchild : Fits arith least greatest primBound left stop grid
        ((nodeBox.setLo axis nodeL).setHi axis nodeR) ι :=
      hfit'.part le_rfl hfit.lt le_rfl fun j hl hs =>
        ((hfit'.placed j hl hs).2.setLo (hclip j hl hs).1).setHi (hclip j hl hs).2
    obtain ⟨b', t, lost, hb', hgrown⟩ := ih left stop b.tree.length (depth + 1)
      { b with
        tree := writeNode (allocated b.tree) nodeIndex (bvh2Word axis b.tree.length)
          (arith.floatToRawIntBits nodeL) (arith.floatToRawIntBits nodeR)
        indices := ι }
      (by omega) (by omega) hchild (by simp)
    exact ⟨b', _, lost, hb', hgrown.clip (fun tree => .inl) hnode hfit.lt hdepth hr hclip⟩
  | apart axis split s grid prev =>
    obtain ⟨hr, hfit', hapart⟩ := hgood
    have hlm := hapart.lt_stop
    have hms := hapart.stop_lt
    have hlower : Fits arith least greatest primBound left s.stop (grid.setHi axis split)
        (nodeBox.setHi axis s.clipL) s.indices :=
      (hfit'.part le_rfl hlm hms.le fun j hl hs =>
        (hfit'.placed j hl (hs.trans hms)).2.setHi (hapart.near j hl hs).2.1).lower
          hapart.split_mem fun j hl hs => (hapart.near j hl hs).1
    have hin := length_writePrev arith prev hnode
    obtain ⟨b₂, tl, lostl, hb₂, hl⟩ := ih left s.stop
      (writePrev arith b.tree nodeIndex prev).1.length
      ((if prev.isSome then depth + 1 else depth) + 1)
      { b with
        tree := writeNode (allocated (allocated (writePrev arith b.tree nodeIndex prev).1))
          (writePrev arith b.tree nodeIndex prev).2
          (nodeWord axis (writePrev arith b.tree nodeIndex prev).1.length)
          (arith.floatToRawIntBits s.clipL) (arith.floatToRawIntBits s.clipR)
        indices := s.indices }
      (by split_ifs <;> omega) (by omega) hlower (by simp)
    have hwhole := hfit'.rearranged (hl.rearranged.mono le_rfl hms.le)
    have hfar : ∀ j, s.stop ≤ j → j < stop →
        s.Far arith axis split (primBound (b₂.indices j)) := by
      intro j hj hs
      rw [hl.rearranged.eq_outside (by omega)]
      exact hapart.far j hj hs
    have hupper : Fits arith least greatest primBound s.stop stop (grid.setLo axis split)
        (nodeBox.setLo axis s.clipR) b₂.indices :=
      (hwhole.part hlm.le hms le_rfl fun j hj hs =>
        (hwhole.placed j (hlm.le.trans hj) hs).2.setLo (hfar j hj hs).2.1).upper
          hapart.split_mem fun j hj hs => (hfar j hj hs).1
    have hlen := hl.length_le
    simp only [length_writeNode, length_allocated] at hlen
    obtain ⟨b₃, tr, lostr, hb₃, hrt⟩ := ih s.stop stop
      ((writePrev arith b.tree nodeIndex prev).1.length + 3)
      ((if prev.isSome then depth + 1 else depth) + 1) b₂
      (by split_ifs <;> omega) (by omega) hupper (by omega)
    have hgrown := Grown.split (b := ⟨(writePrev arith b.tree nodeIndex prev).1, s.indices, b.lost⟩)
      hin hlm hms (by split_ifs <;> omega) (Rearranged.refl _ _ _)
      (fun j hl hs => (hapart.near j hl hs).2.1) (fun j hl hs => (hapart.far j hl hs).2.1) hl hrt
    have hres : ∃ t, Grown arith primBound maxPrims left stop nodeIndex depth b b₃ t
        (lostl ++ lostr) := by
      match prev with
      | none => exact ⟨_, hgrown.of_rearranged hr⟩
      | some (prevAxis, clip, wasLeft) =>
        have hnext : (writePrev arith b.tree nodeIndex (some (prevAxis, clip, wasLeft))).2 =
            b.tree.length := by
          cases wasLeft <;> rfl
        rw [hnext] at hgrown
        exact hgrown.prev hnode hfit.lt hdepth hr (hapart.prev _ _ _ rfl)
    obtain ⟨t, ht⟩ := hres
    refine ⟨b₃, t, _, ?_, ht⟩
    have hnl : s.stop - left > 0 := by omega
    have hnr : stop - s.stop > 0 := by omega
    simp only [if_pos hnl, if_pos hnr, hb₂, hb₃]

/-! ### A whole hierarchy -/

/-- `bih` is a hierarchy of the boxes `primitives`: its words are those of the tree `t`, the object
at position `i` is `ι i`, and the positions `lost` are not in the tree. -/
structure Stands (arith : Arith F) (least greatest : F) (primitives : List (AABox F))
    (primBound : ℕ → AABox F) (bih : BIH F) (t : Hierarchy (Fin 3) F) (ι : ℕ → ℕ)
    (lost : List ℕ) : Prop where
  box : ∀ k b, primitives[k]? = some b → primBound k = b
  around : ∀ b ∈ primitives, b.In bih.bounds
  within : 1 < t.size → bih.bounds.Within least greatest
  objects : bih.objects = (List.range primitives.length).map ι
  perm : bih.objects.Perm (List.range primitives.length)
  encodes : ∃ lo, Encodes arith bih.tree lo bih.tree.length 0 t
  lost_eq : bih.lost = lost.map ι
  positions : (t.positions ++ lost).Perm (List.range primitives.length)
  leaves : t.Leaves fun left stop => left ≤ stop ∧ stop ≤ primitives.length
  bounds : Bounds primBound ι t
  splits : t.splits ≤ MAX_STACK_SIZE
  size : 3 * t.size = bih.tree.length
  length_bound : bih.tree.length ≤ 576 * primitives.length + 3

theorem stands_empty (bounds : AABox F) :
    Stands arith least greatest [] (fun _ => bounds)
      { tree := dummyLeaf, objects := [], bounds := bounds, lost := [] } (.leaf 0 0) id [] where
  box := fun k b h => by simp at h
  around := fun b h => absurd h List.not_mem_nil
  within := fun h => absurd h (lt_irrefl 1)
  objects := rfl
  perm := List.Perm.refl _
  encodes := ⟨0, rfl, rfl⟩
  lost_eq := rfl
  positions := List.Perm.refl _
  leaves := ⟨le_rfl, le_rfl⟩
  bounds := trivial
  splits := Nat.zero_le _
  size := rfl
  length_bound := le_rfl

/-- **A build comes back.** It throws no exception, and leaves a hierarchy of the primitives. -/
theorem exists_stands [Finite F] (hlaw : arith.Lawful least greatest)
    {primitives : List (AABox F)} (hprims : ∀ b ∈ primitives, b.Within least greatest)
    {rounds levels : ℕ} (hrounds : 2 * (3 * Nat.card F) + 2 ≤ rounds) (hlevels : 64 ≤ levels)
    (leafSize : ℕ) (old : BIH F) :
    ∃ bih primBound t ι lost, build arith rounds levels primitives leafSize old = .ok bih ∧
      Stands arith least greatest primitives primBound bih t ι lost ∧
      (lost = [] ∨ leafSize < lost.length) := by
  match primitives with
  | [] => exact ⟨_, _, _, _, _, rfl, stands_empty old.bounds, .inl rfl⟩
  | first :: rest =>
    have hwithin := within_foldl_merge (hprims first List.mem_cons_self) hprims
    have haround : ∀ b ∈ first :: rest, b.In ((first :: rest).foldl AABox.merge first) :=
      fun b hb => in_foldl_merge (first :: rest) first b (List.mem_cons_of_mem _ hb)
    have hmem : ∀ k, (first :: rest).getD k first ∈ first :: rest := by
      intro k
      rw [List.getD_eq_getElem?_getD]
      cases hk : (first :: rest)[k]? with
      | none => exact List.mem_cons_self
      | some b => exact List.mem_of_getElem? hk
    have hprim : ∀ k, ((first :: rest).getD k first).Within least greatest :=
      fun k => hprims _ (hmem k)
    have hfits : Fits arith least greatest (fun i => (first :: rest).getD i first) 0
        (first :: rest).length ((first :: rest).foldl AABox.merge first)
        ((first :: rest).foldl AABox.merge first) id := by
      refine ⟨Nat.succ_pos _, hwithin, fun j _ _ => ⟨fun i => ?_, haround _ (hmem j)⟩⟩
      have hbox := haround _ (hmem j) i
      have hcenter := (hprim j).center hlaw i
      exact ⟨hbox.1.trans hcenter.1, hcenter.2.trans hbox.2⟩
    obtain ⟨b, t, lost, hb, hgrown⟩ := exists_subdivide hlaw hprim leafSize hrounds levels 0
      (first :: rest).length 0 1 { tree := dummyLeaf, indices := id, lost := [] } (by omega)
      (by omega) hfits (by decide)
    have hperm := hgrown.rearranged.perm
    rw [List.map_id] at hperm
    have hbound := hgrown.length_bound
    have hsize := hgrown.size
    have hlen : dummyLeaf.length = 3 := rfl
    rw [hlen] at hsize hbound
    rw [Nat.sub_zero, ← Nat.mul_assoc, Nat.add_comm] at hbound
    refine ⟨{ tree := b.tree, objects := (List.range (first :: rest).length).map b.indices,
              bounds := (first :: rest).foldl AABox.merge first, lost := b.lost.map b.indices },
      fun i => (first :: rest).getD i first, t, b.indices, lost, by simp only [build, hb],
      ⟨fun k b hk => ?_, haround, fun _ => hwithin, rfl, hperm, ⟨_, hgrown.encodes⟩,
        by rw [hgrown.lost_eq, List.nil_append], by simpa [List.range_eq_range'] using
        hgrown.positions, hgrown.leaves.mono fun _ _ h => h.2, hgrown.bounds, hgrown.splits,
        by simpa using hsize, hbound⟩, hgrown.many⟩
    simp only [List.getD_eq_getElem?_getD, hk, Option.getD_some]

end FaceCore.Collision
