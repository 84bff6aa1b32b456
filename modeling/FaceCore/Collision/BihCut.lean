import FaceCore.Collision.Bih
import Mathlib.Algebra.Order.BigOperators.Group.Finset
import Mathlib.Data.Fintype.BigOperators
import Mathlib.Data.Set.Card

/-!
# Looking for a plane between boxes

The loop of `subdivide` halves the grid box until objects lie on both sides of its middle, until it
finds empty space, or until it is stuck.

* `Lawful`: what the proofs use of the arithmetic, for coordinates between two bounds;
* `Fits`: every object of the segment has its centre in the grid box and lies in the node box;
* `Swept`: what one pass over the objects has done so far;
* `Turn.Good`: what the end of a round says about the objects, `exists_turn`;
* `exists_cut`: no exception is thrown and the loop ends, after at most twice as many rounds as
  there are coordinates in the grid box.
-/

namespace FaceCore.Collision

variable {F : Type*} [LinearOrder F]

/-- Coordinates from `least` to `greatest` are finite, and two of them can be added. -/
structure Arith.Lawful [BoundedOrder F] (arith : Arith F) (least greatest : F) : Prop where
  bot_lt : ⊥ < least
  lt_top : greatest < ⊤
  le_mid : ∀ a b, least ≤ a → a ≤ b → b ≤ greatest → a ≤ arith.mid a b
  mid_le : ∀ a b, least ≤ a → a ≤ b → b ≤ greatest → arith.mid a b ≤ b
  sub_nonneg : ∀ a b, least ≤ a → a ≤ b → b ≤ greatest → arith.zero ≤ arith.sub b a
  fuzzyEq_refl : ∀ a, arith.fuzzyEq a a = true
  bits : ∀ a, arith.intBitsToFloat (arith.floatToRawIntBits a) = a

variable {arith : Arith F} {least greatest : F} {primBound : ℕ → AABox F}
  {left orig i : ℕ} {axis : Fin 3} {split : F} {ι ι' : ℕ → ℕ} {gridBox nodeBox b : AABox F}

/-! ### Boxes -/

/-- A box with finite coordinates. -/
def AABox.Within (least greatest : F) (b : AABox F) : Prop :=
  ∀ axis, least ≤ b.lo axis ∧ b.lo axis ≤ b.hi axis ∧ b.hi axis ≤ greatest

theorem AABox.Within.center [BoundedOrder F] (hlaw : arith.Lawful least greatest)
    (h : b.Within least greatest) (axis : Fin 3) :
    b.lo axis ≤ b.center arith axis ∧ b.center arith axis ≤ b.hi axis :=
  ⟨hlaw.le_mid _ _ (h axis).1 (h axis).2.1 (h axis).2.2,
    hlaw.mid_le _ _ (h axis).1 (h axis).2.1 (h axis).2.2⟩

/-- `b` lies in `c`. -/
def AABox.In (b c : AABox F) : Prop := ∀ i, c.lo i ≤ b.lo i ∧ b.hi i ≤ c.hi i

theorem AABox.setHi_in {x : F} (h : x ≤ b.hi axis) : (b.setHi axis x).In b := by
  intro i
  rw [AABox.setHi_hi, AABox.setHi_lo]
  split_ifs with hi
  · exact ⟨le_rfl, hi ▸ h⟩
  · exact ⟨le_rfl, le_rfl⟩

theorem AABox.setLo_in {x : F} (h : b.lo axis ≤ x) : (b.setLo axis x).In b := by
  intro i
  rw [AABox.setLo_lo, AABox.setLo_hi]
  split_ifs with hi
  · exact ⟨hi ▸ h, le_rfl⟩
  · exact ⟨le_rfl, le_rfl⟩

theorem AABox.In.setHi {c : AABox F} {x : F} (h : b.In c) (hx : b.hi axis ≤ x) :
    b.In (c.setHi axis x) := by
  intro i
  rw [AABox.setHi_hi, AABox.setHi_lo]
  split_ifs with hi
  · exact ⟨(h i).1, hi ▸ hx⟩
  · exact h i

theorem AABox.In.setLo {c : AABox F} {x : F} (h : b.In c) (hx : x ≤ b.lo axis) :
    b.In (c.setLo axis x) := by
  intro i
  rw [AABox.setLo_lo, AABox.setLo_hi]
  split_ifs with hi
  · exact ⟨hi ▸ hx, (h i).2⟩
  · exact h i

theorem within_foldl_merge {l : List (AABox F)} (hb : b.Within least greatest)
    (hl : ∀ c ∈ l, c.Within least greatest) : (l.foldl AABox.merge b).Within least greatest := by
  induction l generalizing b with
  | nil => exact hb
  | cons c l ih =>
    refine ih (fun i => ?_) fun d hd => hl d (List.mem_cons_of_mem c hd)
    have hc := hl c List.mem_cons_self i
    exact ⟨le_min (hb i).1 hc.1, (min_le_left _ _).trans ((hb i).2.1.trans (le_max_left _ _)),
      max_le (hb i).2.2 hc.2.2⟩

theorem in_foldl_merge (l : List (AABox F)) (b : AABox F) :
    ∀ c ∈ b :: l, c.In (l.foldl AABox.merge b) := by
  induction l generalizing b with
  | nil =>
    intro c hc i
    rw [List.mem_singleton.mp hc]
    exact ⟨le_rfl, le_rfl⟩
  | cons d l ih =>
    intro c hc i
    obtain ⟨hlo, hhi⟩ := ih (b.merge d) (b.merge d) List.mem_cons_self i
    rcases List.mem_cons.mp hc with rfl | hc
    · exact ⟨hlo.trans (min_le_left _ _), (le_max_left _ _).trans hhi⟩
    · rcases List.mem_cons.mp hc with rfl | hc
      · exact ⟨hlo.trans (min_le_right _ _), (le_max_right _ _).trans hhi⟩
      · exact ih (b.merge d) c (List.mem_cons_of_mem _ hc) i

/-- How many coordinates the box has along an axis. -/
noncomputable def width (b : AABox F) (axis : Fin 3) : ℕ := (Set.Icc (b.lo axis) (b.hi axis)).ncard

/-- How many coordinates the box has along all axes together. -/
noncomputable def room (b : AABox F) : ℕ := ∑ axis, width b axis

theorem room_le [Finite F] (b : AABox F) : room b ≤ 3 * Nat.card F := by
  refine (Finset.sum_le_card_nsmul _ _ (Nat.card F) fun axis _ => ?_).trans_eq (by simp)
  rw [width, ← Set.ncard_univ]
  exact Set.ncard_le_ncard (Set.subset_univ _) (Set.toFinite _)

/-- A box in another one is that one, or has less room. -/
theorem AABox.In.room [Finite F] {c : AABox F} (h : b.In c) (hc : ∀ i, c.lo i ≤ c.hi i) :
    b = c ∨ room b < room c := by
  have hsub : ∀ i, Set.Icc (b.lo i) (b.hi i) ⊆ Set.Icc (c.lo i) (c.hi i) :=
    fun i => Set.Icc_subset_Icc (h i).1 (h i).2
  have hle : ∀ i, width b i ≤ width c i :=
    fun i => Set.ncard_le_ncard (hsub i) (Set.toFinite _)
  have hlt : ∀ i, width b i < width c i ∨ b.lo i = c.lo i ∧ b.hi i = c.hi i := by
    intro i
    by_cases heq : b.lo i = c.lo i ∧ b.hi i = c.hi i
    · exact .inr heq
    · refine .inl (Set.ncard_lt_ncard ⟨hsub i, fun hsup => heq ?_⟩ (Set.toFinite _))
      -- the ends of the larger box lie in the smaller one
      exact ⟨le_antisymm (hsup (Set.left_mem_Icc.mpr (hc i))).1 (h i).1,
        le_antisymm (h i).2 (hsup (Set.right_mem_Icc.mpr (hc i))).2⟩
  by_cases hex : ∃ i, width b i < width c i
  · right
    obtain ⟨i, hi⟩ := hex
    exact Finset.sum_lt_sum (fun i _ => hle i) ⟨i, Finset.mem_univ i, hi⟩
  · left
    have heq := fun i => (hlt i).resolve_left fun hi => hex ⟨i, hi⟩
    cases b
    cases c
    congr 1
    · exact funext fun i => (heq i).1
    · exact funext fun i => (heq i).2

/-! ### Segments -/

/-- The centre of `b` lies in the grid box, and `b` in the node box. -/
def Placed (arith : Arith F) (gridBox nodeBox b : AABox F) : Prop :=
  (∀ i, gridBox.lo i ≤ b.center arith i ∧ b.center arith i ≤ gridBox.hi i) ∧ b.In nodeBox

/-- The segment is ready for a search. -/
structure Fits (arith : Arith F) (least greatest : F) (primBound : ℕ → AABox F)
    (left orig : ℕ) (gridBox nodeBox : AABox F) (ι : ℕ → ℕ) : Prop where
  lt : left < orig
  grid : gridBox.Within least greatest
  placed : ∀ j, left ≤ j → j < orig → Placed arith gridBox nodeBox (primBound (ι j))

theorem Fits.rearranged (h : Fits arith least greatest primBound left orig gridBox nodeBox ι)
    (hr : Rearranged left orig ι ι') :
    Fits arith least greatest primBound left orig gridBox nodeBox ι' where
  lt := h.lt
  grid := h.grid
  placed := fun _ hl hs =>
    hr.forall_inside (P := fun k => Placed arith gridBox nodeBox (primBound k)) h.placed hl hs

theorem Fits.part {start stop : ℕ} {nodeBox' : AABox F}
    (h : Fits arith least greatest primBound left orig gridBox nodeBox ι)
    (hl : left ≤ start) (hlt : start < stop) (hs : stop ≤ orig)
    (hnode : ∀ j, start ≤ j → j < stop → (primBound (ι j)).In nodeBox') :
    Fits arith least greatest primBound start stop gridBox nodeBox' ι where
  lt := hlt
  grid := h.grid
  placed := fun j hj hj' => ⟨(h.placed j (hl.trans hj) (hj'.trans_le hs)).1, hnode j hj hj'⟩

theorem Fits.lower (h : Fits arith least greatest primBound left orig gridBox nodeBox ι)
    (hsplit : gridBox.lo axis ≤ split ∧ split ≤ gridBox.hi axis)
    (hnear : ∀ j, left ≤ j → j < orig → (primBound (ι j)).center arith axis ≤ split) :
    Fits arith least greatest primBound left orig (gridBox.setHi axis split) nodeBox ι := by
  refine ⟨h.lt, fun i => ?_, fun j hl hs => ⟨fun i => ?_, (h.placed j hl hs).2⟩⟩
  all_goals
    rw [AABox.setHi_hi, AABox.setHi_lo]
    split_ifs with hi
  · subst hi
    exact ⟨(h.grid i).1, hsplit.1, hsplit.2.trans (h.grid i).2.2⟩
  · exact h.grid i
  · subst hi
    exact ⟨((h.placed j hl hs).1 i).1, hnear j hl hs⟩
  · exact (h.placed j hl hs).1 i

theorem Fits.upper (h : Fits arith least greatest primBound left orig gridBox nodeBox ι)
    (hsplit : gridBox.lo axis ≤ split ∧ split ≤ gridBox.hi axis)
    (hfar : ∀ j, left ≤ j → j < orig → split < (primBound (ι j)).center arith axis) :
    Fits arith least greatest primBound left orig (gridBox.setLo axis split) nodeBox ι := by
  refine ⟨h.lt, fun i => ?_, fun j hl hs => ⟨fun i => ?_, (h.placed j hl hs).2⟩⟩
  all_goals
    rw [AABox.setLo_lo, AABox.setLo_hi]
    split_ifs with hi
  · subst hi
    exact ⟨(h.grid i).1.trans hsplit.1, hsplit.2, (h.grid i).2.2⟩
  · exact h.grid i
  · subst hi
    exact ⟨(hfar j hl hs).le, ((h.placed j hl hs).1 i).2⟩
  · exact (h.placed j hl hs).1 i

/-! ### One pass -/

/-- What is known of a box on the near side. -/
def Sides.Near (arith : Arith F) (axis : Fin 3) (split : F) (s : Sides F) (b : AABox F) : Prop :=
  b.center arith axis ≤ split ∧ b.hi axis ≤ s.clipL ∧ s.nodeL ≤ b.lo axis ∧ b.hi axis ≤ s.nodeR

/-- What is known of a box on the far side. -/
def Sides.Far (arith : Arith F) (axis : Fin 3) (split : F) (s : Sides F) (b : AABox F) : Prop :=
  split < b.center arith axis ∧ s.clipR ≤ b.lo axis ∧ s.nodeL ≤ b.lo axis ∧ b.hi axis ≤ s.nodeR

/-- The positions from `left` to before `i` and those from `s.stop` on were looked at. -/
structure Swept (arith : Arith F) (primBound : ℕ → AABox F) (axis : Fin 3) (split : F)
    (left orig : ℕ) (ι : ℕ → ℕ) (i : ℕ) (s : Sides F) : Prop where
  rearranged : Rearranged left orig ι s.indices
  left_le : left ≤ i
  le_stop : i ≤ s.stop
  stop_le : s.stop ≤ orig
  near : ∀ j, left ≤ j → j < i → s.Near arith axis split (primBound (s.indices j))
  far : ∀ j, s.stop ≤ j → j < orig → s.Far arith axis split (primBound (s.indices j))

theorem le_ite_lt {x y : F} : x ≤ (if x < y then y else x) ∧ y ≤ (if x < y then y else x) := by
  split_ifs with h
  · exact ⟨h.le, le_rfl⟩
  · exact ⟨le_rfl, not_lt.mp h⟩

theorem ite_gt_le {x y : F} : (if x > y then y else x) ≤ x ∧ (if x > y then y else x) ≤ y := by
  split_ifs with h
  · exact ⟨h.le, le_rfl⟩
  · exact ⟨le_rfl, not_lt.mp h⟩

/-- An object on the near side stays where it is. -/
theorem Swept.stay {s : Sides F} (h : Swept arith primBound axis split left orig ι i s)
    (hi : i < s.stop) (hmid : (primBound (s.indices i)).center arith axis ≤ split) :
    Swept arith primBound axis split left orig ι (i + 1)
      (s.stay ((primBound (s.indices i)).lo axis) ((primBound (s.indices i)).hi axis)) := by
  refine ⟨h.rearranged, Nat.le_succ_of_le h.left_le, hi, h.stop_le, fun j hl hs => ?_,
    fun j hl hs => ?_⟩
  · rcases Nat.lt_succ_iff_lt_or_eq.mp hs with hlt | rfl
    · obtain ⟨hj, hj₁, hj₂, hj₃⟩ := h.near j hl hlt
      exact ⟨hj, hj₁.trans le_ite_lt.1, (min_le_left _ _).trans hj₂, hj₃.trans (le_max_left _ _)⟩
    · exact ⟨hmid, le_ite_lt.2, min_le_right _ _, le_max_right _ _⟩
  · obtain ⟨hj, hj₁, hj₂, hj₃⟩ := h.far j hl hs
    exact ⟨hj, hj₁, (min_le_left _ _).trans hj₂, hj₃.trans (le_max_left _ _)⟩

/-- An object on the far side is exchanged with the last one not looked at. -/
theorem Swept.move {s : Sides F} (h : Swept arith primBound axis split left orig ι i s)
    (hi : i < s.stop) (hmid : ¬ (primBound (s.indices i)).center arith axis ≤ split) :
    Swept arith primBound axis split left orig ι i
      (s.move i ((primBound (s.indices i)).lo axis) ((primBound (s.indices i)).hi axis)) := by
  have hle := h.left_le
  have hstop := h.stop_le
  have hpred : (s.move i ((primBound (s.indices i)).lo axis)
    ((primBound (s.indices i)).hi axis)).stop = s.stop - 1 := rfl
  -- the positions that were looked at before keep their objects
  have hold : ∀ j, j < i ∨ s.stop ≤ j → swapped s.indices i (s.stop - 1) j = s.indices j := by
    intro j hj
    rw [swapped, if_neg (by omega), if_neg (by omega)]
  have hnew : swapped s.indices i (s.stop - 1) (s.stop - 1) = s.indices i := by
    rw [swapped, if_pos rfl]
    split_ifs with heq
    · rw [heq]
    · rfl
  refine ⟨h.rearranged.trans (Rearranged.swap ⟨hle, by omega⟩ ⟨by omega, by omega⟩ _), hle,
    by omega, by omega, fun j hl hs => ?_, fun j hl hs => ?_⟩
  · simp only [Sides.move, hold j (.inl hs)]
    obtain ⟨hj, hj₁, hj₂, hj₃⟩ := h.near j hl hs
    exact ⟨hj, hj₁, (min_le_left _ _).trans hj₂, hj₃.trans (le_max_left _ _)⟩
  · by_cases hj : s.stop ≤ j
    · simp only [Sides.move, hold j (.inr hj)]
      obtain ⟨hfar, hj₁, hj₂, hj₃⟩ := h.far j hj hs
      exact ⟨hfar, ite_gt_le.1.trans hj₁, (min_le_left _ _).trans hj₂,
        hj₃.trans (le_max_left _ _)⟩
    · obtain rfl : j = s.stop - 1 := by omega
      simp only [Sides.move, hnew]
      exact ⟨not_le.mp hmid, ite_gt_le.2, min_le_right _ _, le_max_right _ _⟩

theorem swept_partition (n : ℕ) {s : Sides F}
    (h : Swept arith primBound axis split left orig ι i s) (hn : s.stop - i = n) :
    Swept arith primBound axis split left orig ι (partition arith primBound axis split n i s).stop
      (partition arith primBound axis split n i s) := by
  induction n generalizing i s with
  | zero =>
    have heq : i = s.stop := by
      have hle := h.le_stop
      omega
    rw [partition]
    rwa [heq] at h
  | succ n ih =>
    have hi : i < s.stop := by omega
    by_cases hmid : (primBound (s.indices i)).center arith axis ≤ split
    · simp only [partition, if_pos hmid]
      exact ih (h.stay hi hmid) (by simp only [Sides.stay]; omega)
    · simp only [partition, if_neg hmid]
      exact ih (h.move hi hmid) (by simp only [Sides.move]; omega)

theorem Cut.swept_pass [BoundedOrder F] (c : Cut F) (hle : left ≤ orig) :
    Swept arith primBound (c.look arith) (c.middle arith) left orig c.indices
      (c.pass arith primBound left orig).stop (c.pass arith primBound left orig) := by
  refine swept_partition (orig - left) ⟨Rearranged.refl left orig c.indices, le_rfl, hle, le_rfl,
    fun j hl hs => ?_, fun j hl hs => ?_⟩ rfl
  · omega
  · exact absurd hs (Nat.not_lt.mpr hl)

/-! ### The end of a round -/

/-- A plane with all objects of the segment on its left, or on its right. -/
def Spares (primBound : ℕ → AABox F) (left orig : ℕ) (ι : ℕ → ℕ) (axis : Fin 3) (clip : F)
    (wasLeft : Bool) : Prop :=
  ∀ j, left ≤ j → j < orig →
    if wasLeft then (primBound (ι j)).hi axis ≤ clip else clip ≤ (primBound (ι j)).lo axis

theorem Spares.rearranged {clip : F} {wasLeft : Bool}
    (h : Spares primBound left orig ι axis clip wasLeft) (hr : Rearranged left orig ι ι') :
    Spares primBound left orig ι' axis clip wasLeft :=
  fun _ hl hs => hr.forall_inside (P := fun k => if wasLeft then (primBound k).hi axis ≤ clip
    else clip ≤ (primBound k).lo axis) h hl hs

/-- The plane that a round hands on. -/
def Cut.Valid (primBound : ℕ → AABox F) (left orig : ℕ) (c : Cut F) : Prop :=
  ∀ axis clip, c.axis = some axis → c.prevClip = some clip →
    Spares primBound left orig c.indices axis clip c.wasLeft

/-- The objects lie on both sides of `split`. -/
structure Apart (arith : Arith F) (primBound : ℕ → AABox F) (left orig : ℕ) (axis : Fin 3)
    (split : F) (s : Sides F) (gridBox : AABox F) (prev : Option (Fin 3 × F × Bool)) : Prop where
  lt_stop : left < s.stop
  stop_lt : s.stop < orig
  near : ∀ j, left ≤ j → j < s.stop → s.Near arith axis split (primBound (s.indices j))
  far : ∀ j, s.stop ≤ j → j < orig → s.Far arith axis split (primBound (s.indices j))
  split_mem : gridBox.lo axis ≤ split ∧ split ≤ gridBox.hi axis
  prev : ∀ prevAxis clip wasLeft, prev = some (prevAxis, clip, wasLeft) →
    Spares primBound left orig s.indices prevAxis clip wasLeft

/-- What the end of a round says about a segment that held the objects `ι`. -/
def Turn.Good (arith : Arith F) (least greatest : F) (primBound : ℕ → AABox F) (left orig : ℕ)
    (nodeBox : AABox F) (ι : ℕ → ℕ) : Turn F → Prop
  | .leaf stop ι' => Rearranged left orig ι ι' ∧ (stop = orig ∨ stop = left)
  | .clip axis nodeL nodeR gridBox ι' =>
    Rearranged left orig ι ι' ∧
      Fits arith least greatest primBound left orig gridBox nodeBox ι' ∧
      ∀ j, left ≤ j → j < orig →
        nodeL ≤ (primBound (ι' j)).lo axis ∧ (primBound (ι' j)).hi axis ≤ nodeR
  | .again c =>
    Rearranged left orig ι c.indices ∧
      Fits arith least greatest primBound left orig c.gridBox nodeBox c.indices ∧
      c.Valid primBound left orig
  | .apart axis split s gridBox prev =>
    Rearranged left orig ι s.indices ∧
      Fits arith least greatest primBound left orig gridBox nodeBox s.indices ∧
      Apart arith primBound left orig axis split s gridBox prev

theorem Turn.Good.of_rearranged {t : Turn F}
    (h : t.Good arith least greatest primBound left orig nodeBox ι')
    (hr : Rearranged left orig ι ι') :
    t.Good arith least greatest primBound left orig nodeBox ι := by
  cases t with
  | leaf _ _ => exact ⟨hr.trans h.1, h.2⟩
  | clip _ _ _ _ _ => exact ⟨hr.trans h.1, h.2⟩
  | again _ => exact ⟨hr.trans h.1, h.2⟩
  | apart _ _ _ _ _ => exact ⟨hr.trans h.1, h.2⟩

/-! ### Nothing goes wrong -/

variable [BoundedOrder F]

/-- `c'` goes on after a round of `c` that was not stuck, with a part of the grid box. -/
def Cut.Follows (arith : Arith F) (c c' : Cut F) : Prop :=
  c'.gridBox.In c.gridBox ∧ c'.axis = some (c.look arith) ∧ c'.split = some (c.middle arith) ∧
    ¬ c.stuck arith (c.look arith) (c.middle arith) = true

theorem turnSides_good (hlaw : arith.Lawful least greatest) {c : Cut F} {s : Sides F}
    (hfit : Fits arith least greatest primBound left orig c.gridBox nodeBox c.indices)
    (hvalid : c.Valid primBound left orig)
    (hs : Swept arith primBound (c.look arith) (c.middle arith) left orig c.indices s.stop s)
    {t : Turn F} (ht : turnSides arith left orig c (c.look arith) (c.middle arith) s = t) :
    t.Good arith least greatest primBound left orig nodeBox c.indices ∧
      ∀ c', t = .again c' → c.Follows arith c' := by
  have hmid := hfit.grid.center hlaw (c.look arith)
  have hfit' := hfit.rearranged hs.rearranged
  rw [turnSides] at ht
  by_cases hall : s.stop = orig
  · rw [if_pos hall] at ht
    by_cases hstuck : c.stuck arith (c.look arith) (c.middle arith) = true
    · rw [if_pos hstuck] at ht
      exact ht ▸ ⟨⟨hs.rearranged, .inl hall⟩, nofun⟩
    rw [if_neg hstuck] at ht
    have hnear : ∀ j, left ≤ j → j < orig →
        s.Near arith (c.look arith) (c.middle arith) (primBound (s.indices j)) :=
      fun j hl hj => hs.near j hl (hall ▸ hj)
    subst ht
    refine ⟨⟨hs.rearranged, hfit'.lower hmid fun j hl hj => (hnear j hl hj).1, ?_⟩, ?_⟩
    · intro prevAxis clip hax hclip j hl hj
      obtain rfl := Option.some.inj hax
      by_cases hle : s.clipL ≤ c.middle arith
      · simp only [if_pos hle, Option.some.injEq, if_true] at hclip ⊢
        exact hclip ▸ (hnear j hl hj).2.1
      · simp only [if_neg hle, reduceCtorEq] at hclip
    · rintro _ ⟨⟩
      exact ⟨AABox.setHi_in hmid.2, rfl, rfl, hstuck⟩
  rw [if_neg hall] at ht
  by_cases hnone : s.stop ≤ left
  · rw [if_pos hnone] at ht
    by_cases hstuck : c.stuck arith (c.look arith) (c.middle arith) = true
    · rw [if_pos hstuck] at ht
      exact ht ▸ ⟨⟨hs.rearranged, .inr (le_antisymm hnone hs.left_le)⟩, nofun⟩
    rw [if_neg hstuck] at ht
    have hfar : ∀ j, left ≤ j → j < orig →
        s.Far arith (c.look arith) (c.middle arith) (primBound (s.indices j)) :=
      fun j hl hj => hs.far j (hnone.trans hl) hj
    subst ht
    refine ⟨⟨hs.rearranged, hfit'.upper hmid fun j hl hj => (hfar j hl hj).1, ?_⟩, ?_⟩
    · intro prevAxis clip hax hclip j hl hj
      obtain rfl := Option.some.inj hax
      by_cases hle : s.clipR ≥ c.middle arith
      · simp only [if_pos hle, Option.some.injEq, Bool.false_eq_true, if_false] at hclip ⊢
        exact hclip ▸ (hfar j hl hj).2.1
      · simp only [if_neg hle, reduceCtorEq] at hclip
    · rintro _ ⟨⟩
      exact ⟨AABox.setLo_in hmid.1, rfl, rfl, hstuck⟩
  rw [if_neg hnone] at ht
  have hstop := hs.stop_le
  subst ht
  refine ⟨⟨hs.rearranged, hfit', by omega, by omega, hs.near, hs.far, hmid, ?_⟩, nofun⟩
  intro prevAxis clip wasLeft hprev
  cases hax : c.axis with
  | none => simp [hax] at hprev
  | some a =>
    cases hclip : c.prevClip with
    | none => simp [hax, hclip] at hprev
    | some x =>
      simp only [hax, hclip, Option.some.injEq, Prod.mk.injEq] at hprev
      obtain ⟨rfl, rfl, rfl⟩ := hprev
      exact (hvalid _ _ hax hclip).rearranged hs.rearranged

theorem Fits.turn_eq {c : Cut F} (hlaw : arith.Lawful least greatest)
    (hprim : ∀ k, (primBound k).Within least greatest)
    (h : Fits arith least greatest primBound left orig c.gridBox nodeBox c.indices) :
    turn arith primBound left orig nodeBox c =
      .ok (if hasEmptySpace arith nodeBox (c.look arith) (c.pass arith primBound left orig) then
        .clip (c.look arith) (c.pass arith primBound left orig).nodeL
          (c.pass arith primBound left orig).nodeR c.gridBox
          (c.pass arith primBound left orig).indices
      else turnSides arith left orig c (c.look arith) (c.middle arith)
        (c.pass arith primBound left orig)) := by
  have hneg : ∀ i, ¬ c.gridBox.extent arith i < arith.zero := fun i =>
    not_lt.mpr (hlaw.sub_nonneg _ _ (h.grid i).1 (h.grid i).2.1 (h.grid i).2.2)
  have hover : ¬ ∃ i : Fin 3, nodeBox.hi i < c.gridBox.lo i ∨ nodeBox.lo i > c.gridBox.hi i := by
    -- the first object overlaps both boxes
    rintro ⟨i, hi⟩
    obtain ⟨hgrid, hnode⟩ := h.placed left le_rfl h.lt
    have hcenter := (hprim (c.indices left)).center hlaw i
    rcases hi with hi | hi
    · exact absurd ((hgrid i).1.trans (hcenter.2.trans (hnode i).2)) (not_le.mpr hi)
    · exact absurd ((hnode i).1.trans (hcenter.1.trans (hgrid i).2)) (not_le.mpr hi)
  rw [turn, if_neg (by simp only [hneg, or_self, not_false_eq_true]), if_neg hover]
  dsimp only
  split_ifs <;> rfl

/-- A round of a segment that fits throws no exception, and ends as it should. -/
theorem exists_turn (hlaw : arith.Lawful least greatest)
    (hprim : ∀ k, (primBound k).Within least greatest) {c : Cut F}
    (hfit : Fits arith least greatest primBound left orig c.gridBox nodeBox c.indices)
    (hvalid : c.Valid primBound left orig) :
    ∃ t, turn arith primBound left orig nodeBox c = .ok t ∧
      t.Good arith least greatest primBound left orig nodeBox c.indices ∧
      ∀ c', t = .again c' → c.Follows arith c' := by
  have hs : Swept arith primBound (c.look arith) (c.middle arith) left orig c.indices
      (c.pass arith primBound left orig).stop (c.pass arith primBound left orig) :=
    c.swept_pass hfit.lt.le
  refine ⟨_, hfit.turn_eq hlaw hprim, ?_⟩
  split_ifs
  · refine ⟨⟨hs.rearranged, hfit.rearranged hs.rearranged, fun j hl hlt => ?_⟩, nofun⟩
    rcases lt_or_ge j (c.pass arith primBound left orig).stop with hj | hj
    · exact (hs.near j hl hj).2.2
    · exact (hs.far j hj hlt).2.2
  · exact turnSides_good hlaw hfit hvalid hs rfl

theorem cut_of_again {c c' : Cut F} {rounds : ℕ}
    (h : turn arith primBound left orig nodeBox c = .ok (.again c')) :
    cut arith primBound left orig nodeBox (rounds + 1) c =
      cut arith primBound left orig nodeBox rounds c' := by
  rw [cut, h]

theorem cut_of_not_again {c : Cut F} {rounds : ℕ} {t : Turn F}
    (h : turn arith primBound left orig nodeBox c = .ok t) (ht : ∀ c', t ≠ .again c') :
    cut arith primBound left orig nodeBox (rounds + 1) c = .ok t := by
  rw [cut, h]
  cases t with
  | again c' => exact absurd rfl (ht c')
  | _ => rfl

/-- **The loop ends.** Every second round leaves a smaller box, so that there are at most twice as
many as there are coordinates in the box at first. -/
theorem exists_cut [Finite F] (hlaw : arith.Lawful least greatest)
    (hprim : ∀ k, (primBound k).Within least greatest) (n rounds : ℕ) (c : Cut F)
    (hroom : room c.gridBox ≤ n) (hrounds : 2 * n + 2 ≤ rounds)
    (hfit : Fits arith least greatest primBound left orig c.gridBox nodeBox c.indices)
    (hvalid : c.Valid primBound left orig) :
    ∃ t, cut arith primBound left orig nodeBox rounds c = .ok t ∧
      t.Good arith least greatest primBound left orig nodeBox c.indices ∧
      ∀ c', t ≠ .again c' := by
  induction n using Nat.strong_induction_on generalizing c rounds with
  | _ n ih =>
  obtain ⟨rounds, rfl⟩ := Nat.exists_eq_add_of_le' (show 2 ≤ rounds by omega)
  obtain ⟨t, ht, hgood, hnext⟩ := exists_turn hlaw hprim hfit hvalid
  by_cases hagain : ∃ c', t = .again c'
  · obtain ⟨c', rfl⟩ := hagain
    obtain ⟨hr, hfit', hvalid'⟩ := hgood
    obtain ⟨hin, hax, hsplit, -⟩ := hnext c' rfl
    rcases hin.room fun i => (hfit.grid i).2.1 with hbox | hlt
    · -- the same box: the next round is stuck if it finds nothing
      obtain ⟨t', ht', hgood', hnext'⟩ := exists_turn hlaw hprim hfit' hvalid'
      have hlast : ∀ c'', t' ≠ .again c'' := by
        intro c'' hc''
        refine (hnext' c'' hc'').2.2.2 ?_
        have hlook : c'.look arith = c.look arith := by rw [Cut.look, hbox, Cut.look]
        have hmiddle : c'.middle arith = c.middle arith := by
          rw [Cut.middle, hlook, hbox, Cut.middle]
        rw [Cut.stuck, hax, hsplit, hlook, hmiddle]
        simp [hlaw.fuzzyEq_refl]
      refine ⟨t', ?_, hgood'.of_rearranged hr, hlast⟩
      rw [cut_of_again ht, cut_of_not_again ht' hlast]
    · obtain ⟨t', ht', hgood', hlast⟩ := ih (room c'.gridBox) (by omega) (rounds + 1) c'
        le_rfl (by omega) hfit' hvalid'
      exact ⟨t', by rw [cut_of_again ht, ht'], hgood'.of_rearranged hr, hlast⟩
  · have hlast : ∀ c', t ≠ .again c' := fun c' hc => hagain ⟨c', hc⟩
    exact ⟨t, cut_of_not_again ht hlast, hgood, hlast⟩

end FaceCore.Collision
