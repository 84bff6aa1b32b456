import FaceCore.Collision.BihBuild

/-!
# Looking up a point

`intersectPoint` walks over the words of a hierarchy. A node that is left aside for later is kept on
a stack of 64 entries.

* `look_leaf`, `look_node`, `look_clip`: one round, at the words of a node;
* `walk_encodes`: the walk through a tree, after which it goes on with the stack;
* `BIH.Answers`: what a hierarchy is for, `Stands.answers`; `BIH.Loses`: what it may lose;
* `build_total`, `intersectPoint_build`: builds, and queries after them.
-/

namespace FaceCore.Collision

variable {F : Type*} {arith : Arith F} {least greatest : F} {primBound : ℕ → AABox F}
  {bih : BIH F} {t : Hierarchy (Fin 3) F} {ι : ℕ → ℕ} {p : Vector3 F}
  {primitives : List (AABox F)}
  {node next lo n left stop offset : ℕ} {axis : Fin 3} {l r : F} {lost : List ℕ}

/-! ### One round -/

theorem mapM_eq_some {α β : Type*} {f : α → Option β} {g : α → β} {l : List α}
    (h : ∀ a ∈ l, f a = some (g a)) : l.mapM f = some (l.map g) := by
  induction l with
  | nil => rfl
  | cons a l ih =>
    rw [List.mapM_cons, h a List.mem_cons_self,
      ih fun b hb => h b (List.mem_cons_of_mem a hb)]
    rfl

theorem leafObjects_eq (hobj : bih.objects = (List.range n).map ι) (hstop : stop ≤ n)
    (hcount : stop - left < 2 ^ 29) (hle : left ≤ stop) :
    leafObjects bih.objects left (UInt32.ofNat (stop - left)) =
      some ((List.range' left (stop - left)).map ι) := by
  rw [leafObjects, toNat_toInt32_count hcount]
  refine mapM_eq_some fun i hi => ?_
  rw [List.mem_range'_1] at hi
  rw [hobj, List.getElem?_map, List.getElem?_range (by omega)]
  rfl

theorem point_eq (p : Vector3 F) {tn : UInt32} (h : axisOf tn = axis) (hlt : axisOf tn < 3) :
    p ⟨axisOf tn, hlt⟩ = p axis :=
  congrArg p (Fin.ext h)

variable [LinearOrder F]

/-- The walk goes on with the stack, after calls of the callback. -/
def resume (arith : Arith F) (bih : BIH F) (p : Vector3 F) (rounds : ℕ) (stack calls : List ℕ) :
    Except Crash (List ℕ) :=
  match stack with
  | [] => .ok calls
  | node :: stack => walk arith bih p rounds { node := node, stack := stack, calls := calls }

theorem walk_back {rounds : ℕ} {stack calls objs : List ℕ}
    (h : look arith bih p node = .ok (.back objs)) :
    walk arith bih p (rounds + 1) { node := node, stack := stack, calls := calls } =
      resume arith bih p rounds stack (calls ++ objs) := by
  rw [walk, h]
  cases stack <;> rfl

theorem walk_to {rounds next : ℕ} {stack calls : List ℕ}
    (h : look arith bih p node = .ok (.to next)) :
    walk arith bih p (rounds + 1) { node := node, stack := stack, calls := calls } =
      walk arith bih p rounds { node := next, stack := stack, calls := calls } := by
  rw [walk, h]

theorem walk_both {rounds x y : ℕ} {stack calls : List ℕ}
    (h : look arith bih p node = .ok (.both x y)) (hstack : stack.length < MAX_STACK_SIZE) :
    walk arith bih p (rounds + 1) { node := node, stack := stack, calls := calls } =
      walk arith bih p rounds { node := x, stack := y :: stack, calls := calls } := by
  rw [walk, h]
  exact if_pos hstack

theorem AABox.contains_iff {b : AABox F} :
    b.contains p = true ↔ ∀ axis, b.lo axis ≤ p axis ∧ p axis ≤ b.hi axis := by
  rw [AABox.contains, Bool.and_eq_true, decide_eq_true_eq, decide_eq_true_eq]
  exact forall_and.symm

variable [BoundedOrder F]

theorem look_leaf (h : Encodes arith bih.tree lo bih.tree.length node (.leaf left stop))
    (hobj : bih.objects = (List.range n).map ι) (hn : n < 2 ^ 29) (hle : left ≤ stop)
    (hstop : stop ≤ n) :
    look arith bih p node = .ok (.back ((List.range' left (stop - left)).map ι)) := by
  obtain ⟨haxis, hbvh2, hoffset⟩ := read_leafWord (show left < 2 ^ 29 by omega)
  rw [look, h.1]
  dsimp only
  rw [dif_neg (by rw [haxis]; decide), hbvh2, if_neg Bool.false_ne_true, h.2]
  dsimp only
  rw [hoffset, leafObjects_eq hobj hstop (by omega) hle]

theorem look_node (hlaw : arith.Lawful least greatest) (hlt : offset < 2 ^ 29)
    (h : IsNode bih.tree node (nodeWord axis offset) (arith.floatToRawIntBits l)
      (arith.floatToRawIntBits r)) :
    look arith bih p node =
      .ok (if l < p axis ∧ r > p axis then .back []
        else if l < p axis then .to (offset + 3)
        else if r > p axis then .to offset
        else .both offset (offset + 3)) := by
  obtain ⟨haxis, hbvh2, hoffset⟩ := read_nodeWord axis hlt
  rw [look, h.1]
  dsimp only
  rw [dif_pos (haxis ▸ axis.isLt), h.2.1, h.2.2]
  dsimp only
  rw [hbvh2, if_neg Bool.false_ne_true, hlaw.bits, hlaw.bits, point_eq p haxis, hoffset]
  split_ifs <;> rfl

theorem look_clip (hlaw : arith.Lawful least greatest) (hlt : next < 2 ^ 29)
    (hp : ⊥ < p axis ∧ p axis < ⊤) (h : Clips arith bih.tree node next axis l r) :
    look arith bih p node = .ok (if l > p axis ∨ r < p axis then .back [] else .to next) := by
  rcases h with h | ⟨rfl, h⟩ | ⟨rfl, offset, rfl, h⟩
  · obtain ⟨haxis, hbvh2, hoffset⟩ := read_bvh2Word axis hlt
    rw [look, h.1]
    dsimp only
    rw [dif_pos (haxis ▸ axis.isLt), h.2.1, h.2.2]
    dsimp only
    rw [hbvh2, if_pos rfl, hlaw.bits, hlaw.bits, point_eq p haxis, hoffset]
    split_ifs <;> rfl
  · -- the right child is empty
    rw [look_node hlaw hlt h]
    by_cases hout : r < p axis
    · rw [if_pos ⟨hout, hp.2⟩, if_pos (.inr hout)]
    · rw [if_neg fun hgap => hout hgap.1, if_neg hout, if_pos hp.2,
        if_neg (by rintro (hbot | hr); exacts [not_lt_bot hbot, hout hr])]
  · -- the left child is empty
    rw [look_node hlaw (by omega) h]
    by_cases hout : l > p axis
    · rw [if_pos ⟨hp.1, hout⟩, if_pos (.inl hout)]
    · rw [if_neg fun hgap => hout hgap.2, if_pos hp.1,
        if_neg (by rintro (hl | htop); exacts [hout hl, not_top_lt htop])]

/-! ### The walk through a tree -/

/-- **The walk through a tree.** It calls the callback with what the tree finds, in no more rounds
than the tree has nodes, and goes on with the stack as it was before. -/
theorem walk_encodes (hlaw : arith.Lawful least greatest)
    (hobj : bih.objects = (List.range n).map ι) (hn : n < 2 ^ 29)
    (htree : bih.tree.length ≤ 2 ^ 29) (hp : 1 < t.size → ∀ axis, ⊥ < p axis ∧ p axis < ⊤)
    (h : Encodes arith bih.tree lo bih.tree.length node t)
    (hleaves : t.Leaves fun left stop => left ≤ stop ∧ stop ≤ n)
    (stack calls : List ℕ) (hstack : stack.length + t.splits ≤ MAX_STACK_SIZE) :
    ∃ used, used ≤ t.size ∧ ∀ rounds,
      walk arith bih p (rounds + used) { node := node, stack := stack, calls := calls } =
        resume arith bih p rounds stack (calls ++ (t.found p).map ι) := by
  induction t generalizing node stack calls with
  | leaf left stop =>
    exact ⟨1, le_rfl, fun rounds => walk_back (look_leaf h hobj hn hleaves.1 hleaves.2)⟩
  | clip axis l r t ih =>
    have hp' := hp (Nat.lt_add_of_pos_left t.size_pos)
    obtain ⟨next, hnode, -, hlt, ht⟩ := h
    have hlook := look_clip hlaw (by omega) (hp' axis) hnode
    by_cases hout : l > p axis ∨ r < p axis
    · rw [if_pos hout] at hlook
      refine ⟨1, by simp [Hierarchy.size], fun rounds => ?_⟩
      rw [walk_back hlook, Hierarchy.found, if_pos hout]
      rfl
    · rw [if_neg hout] at hlook
      obtain ⟨used, hused, hwalk⟩ := ih (fun _ => hp') ht hleaves stack calls hstack
      refine ⟨used + 1, Nat.succ_le_succ hused, fun rounds => ?_⟩
      rw [← Nat.add_assoc, walk_to hlook, hwalk, Hierarchy.found, if_neg hout]
  | split axis l r tl tr ihl ihr =>
    have hp' := hp (Nat.lt_add_of_pos_left (Nat.add_pos_left tl.size_pos _))
    obtain ⟨offset, hnode, -, hlt, htl, htr⟩ := h
    have hlook := look_node (p := p) hlaw (by omega) hnode
    rw [Hierarchy.splits] at hstack
    rw [Hierarchy.found, Hierarchy.size]
    split_ifs at hlook ⊢ with hgap hright hleft
    · -- the point lies between the children
      exact ⟨1, by omega, fun rounds => walk_back hlook⟩
    · obtain ⟨used, hused, hwalk⟩ := ihr (fun _ => hp') htr hleaves.2 stack calls (by omega)
      refine ⟨used + 1, by omega, fun rounds => ?_⟩
      rw [← Nat.add_assoc, walk_to hlook, hwalk]
    · obtain ⟨used, hused, hwalk⟩ := ihl (fun _ => hp') htl hleaves.1 stack calls (by omega)
      refine ⟨used + 1, by omega, fun rounds => ?_⟩
      rw [← Nat.add_assoc, walk_to hlook, hwalk]
    · -- the right child waits on the stack
      obtain ⟨usedr, husedr, hwalkr⟩ := ihr (fun _ => hp') htr hleaves.2 stack
        (calls ++ (tl.found p).map ι) (by omega)
      obtain ⟨usedl, husedl, hwalkl⟩ := ihl (fun _ => hp') htl hleaves.1 ((offset + 3) :: stack)
        calls (by rw [List.length_cons]; omega)
      refine ⟨usedr + usedl + 1, by omega, fun rounds => ?_⟩
      rw [← Nat.add_assoc, walk_both hlook (by omega), ← Nat.add_assoc, hwalkl, resume, hwalkr,
        List.map_append, List.append_assoc]

/-! ### Builds and queries -/

/-- What a hierarchy of the boxes `primitives` is for: a query comes back after no more rounds than
there are words, and calls the callback for every box that contains the point and was not lost, for
no box twice, and for no lost one. -/
def BIH.Answers (arith : Arith F) (bih : BIH F) (primitives : List (AABox F)) : Prop :=
  ∀ p, ∃ calls, intersectPoint arith bih bih.tree.length p = .ok calls ∧ calls.Nodup ∧
    (∀ k ∈ calls, k < primitives.length ∧ k ∉ bih.lost) ∧
    ∀ k b, primitives[k]? = some b → b.contains p = true → k ∉ bih.lost → k ∈ calls

/-- What a build may lose: some of the `n` primitives, each once, and then more than a leaf should
hold. -/
structure BIH.Loses (bih : BIH F) (n leafSize : ℕ) : Prop where
  nodup : bih.lost.Nodup
  lt : ∀ k ∈ bih.lost, k < n
  many : bih.lost = [] ∨ leafSize < bih.lost.length

omit [LinearOrder F] [BoundedOrder F] in
theorem BIH.Loses.lt_of_mem {leafSize k : ℕ} (h : bih.Loses n leafSize) (hk : k ∈ bih.lost) :
    leafSize < n := by
  have hmany := h.many.resolve_left (List.ne_nil_of_mem hk)
  have hle := (h.nodup.subperm fun k hk => List.mem_range.mpr (h.lt k hk)).length_le
  rw [List.length_range] at hle
  omega

/-- The objects in the tree, and those that are not, are the primitives. -/
theorem Stands.perm_all (h : Stands arith least greatest primitives primBound bih t ι lost) :
    (t.positions.map ι ++ bih.lost).Perm (List.range primitives.length) := by
  rw [h.lost_eq, ← List.map_append]
  exact (h.positions.map ι).trans (h.objects ▸ h.perm)

theorem Stands.loses {leafSize : ℕ}
    (h : Stands arith least greatest primitives primBound bih t ι lost)
    (hmany : lost = [] ∨ leafSize < lost.length) : bih.Loses primitives.length leafSize where
  nodup := ((h.perm_all.nodup_iff.mpr List.nodup_range).sublist (List.sublist_append_right _ _))
  lt := fun k hk =>
    List.mem_range.mp (h.perm_all.mem_iff.mp (List.mem_append_right _ hk))
  many := by
    rw [h.lost_eq, List.map_eq_nil_iff, List.length_map]
    exact hmany

theorem Stands.found (h : Stands arith least greatest primitives primBound bih t ι lost) :
    ((t.found p).map ι).Nodup ∧
      (∀ k ∈ (t.found p).map ι, k < primitives.length ∧ k ∉ bih.lost) ∧
      ∀ k, k < primitives.length → (primBound k).contains p = true → k ∉ bih.lost →
        k ∈ (t.found p).map ι := by
  have hsub : ((t.found p).map ι).Sublist (t.positions.map ι) :=
    (Hierarchy.found_sublist p t).map ι
  have hnodup := List.nodup_append.mp (h.perm_all.nodup_iff.mpr List.nodup_range)
  refine ⟨hnodup.1.sublist hsub, fun k hk => ⟨?_, fun hlost => ?_⟩, fun k hk hb hkept => ?_⟩
  · exact List.mem_range.mp (h.perm_all.mem_iff.mp (List.mem_append_left _ (hsub.subset hk)))
  · exact hnodup.2.2 k (hsub.subset hk) k hlost rfl
  · have hall := h.perm_all.mem_iff.mpr (List.mem_range.mpr hk)
    obtain ⟨i, hi, rfl⟩ := List.mem_map.mp ((List.mem_append.mp hall).resolve_right hkept)
    exact List.mem_map_of_mem (Hierarchy.mem_found h.bounds hi (AABox.contains_iff.mp hb))

theorem Stands.answers (h : Stands arith least greatest primitives primBound bih t ι lost)
    (hlaw : arith.Lawful least greatest) (hsize : 576 * primitives.length + 3 ≤ 2 ^ 29) :
    bih.Answers arith primitives := by
  intro p
  by_cases hp : bih.bounds.contains p = true
  · have hin := AABox.contains_iff.mp hp
    have hfinite : 1 < t.size → ∀ axis, ⊥ < p axis ∧ p axis < ⊤ := fun ht axis =>
      ⟨hlaw.bot_lt.trans_le ((h.within ht axis).1.trans (hin axis).1),
        ((hin axis).2.trans (h.within ht axis).2.2).trans_lt hlaw.lt_top⟩
    obtain ⟨lo, hencodes⟩ := h.encodes
    have htree := h.length_bound
    have hnodes := h.size
    obtain ⟨used, hused, hwalk⟩ := walk_encodes hlaw h.objects (by omega) (by omega) hfinite
      hencodes h.leaves [] [] (by simpa using h.splits)
    obtain ⟨rest, hrest⟩ := Nat.exists_eq_add_of_le' (show used ≤ bih.tree.length by omega)
    obtain ⟨hnodup, hlt, hfound⟩ := h.found (p := p)
    refine ⟨(t.found p).map ι, ?_, hnodup, hlt, fun k b hk hb => ?_⟩
    · rw [intersectPoint, if_pos hp, hrest, hwalk]
      rfl
    · exact hfound k (List.getElem?_eq_some_iff.mp hk).1 (h.box k b hk ▸ hb)
  · refine ⟨[], if_neg hp, List.nodup_nil, fun k hk => absurd hk List.not_mem_nil,
      fun k b hk hb => absurd (AABox.contains_iff.mpr fun axis => ?_) hp⟩
    -- the box around all primitives contains the point as well
    have hb' := AABox.contains_iff.mp hb axis
    have hin := h.around b (List.mem_of_getElem? hk) axis
    exact ⟨hin.1.trans hb'.1, hb'.2.trans hin.2⟩

/-- **Main result.** A build of boxes with finite coordinates throws no exception and comes back.
The objects of its hierarchy are the primitives in some order. -/
theorem build_total [Finite F] (hlaw : arith.Lawful least greatest)
    (hprims : ∀ b ∈ primitives, b.Within least greatest) {rounds levels : ℕ}
    (hrounds : 2 * (3 * Nat.card F) + 2 ≤ rounds) (hlevels : 64 ≤ levels) (leafSize : ℕ)
    (old : BIH F) :
    ∃ bih, build arith rounds levels primitives leafSize old = .ok bih ∧
      bih.objects.Perm (List.range primitives.length) ∧
      bih.tree.length ≤ 576 * primitives.length + 3 := by
  obtain ⟨bih, primBound, t, ι, lost, hbuild, hstands, -⟩ :=
    exists_stands hlaw hprims hrounds hlevels leafSize old
  exact ⟨bih, hbuild, hstands.perm, hstands.length_bound⟩

/-- Eight coordinates, of which the first and the last are the infinities. -/
def eightFloats : Arith (Fin 8) where
  zero := 0
  sub a b := a - b
  abs a := a
  mid a b := ⟨(a.val + b.val) / 2, by omega⟩
  widened a := a
  fuzzyEq a b := a == b
  floatToRawIntBits a := UInt32.ofNat a.val
  intBitsToFloat w := Fin.ofNat 8 w.toNat

theorem lawful_eightFloats : eightFloats.Lawful 1 6 := by
  constructor <;> decide

/-- A box with one corner at `x` on all axes. -/
def cube (x : Fin 8) : AABox (Fin 8) := ⟨fun _ => x, fun _ => x + 1⟩

/-- A box that is wider than that. -/
def crate : AABox (Fin 8) := ⟨fun _ => 1, fun _ => 4⟩

/-- A point in such a box. -/
def spot : Vector3 (Fin 8) := fun _ => 3

/-- A cube beside it. -/
def pebble : AABox (Fin 8) := cube 5

/-- Four crates of one size and two cubes. -/
def boxes : List (AABox (Fin 8)) := [crate, pebble, crate, crate, cube 4, crate]

theorem boxes_within : ∀ b ∈ boxes, b.Within 1 6 := by
  unfold AABox.Within
  decide

theorem build_total_boxes : ∃ bih, build eightFloats 50 64 boxes 1 ⟨[], [], crate, []⟩ = .ok bih ∧
    bih.objects.Perm [0, 1, 2, 3, 4, 5] ∧ bih.tree.length ≤ 3459 :=
  build_total lawful_eightFloats boxes_within (by simp) le_rfl 1 _

-- the crates are all on the right of their last plane, and the leaf takes none of them
example : (build eightFloats 50 64 [crate, crate, crate, crate] 3 ⟨[], [], crate, []⟩).map
    (fun bih => (bih.tree, bih.lost)) = .ok ([leafWord 0, 0, 0], [2, 3, 0, 1]) := by
  decide +kernel

end FaceCore.Collision
