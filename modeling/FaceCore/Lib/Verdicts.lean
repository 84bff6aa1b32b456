import Mathlib.Data.Finset.Basic
import Mathlib.Tactic.SplitIfs

/-!
# Verdicts

Two sets of things, those that are granted and those that are denied, of which a thing enters one
only while it is in neither. When they are filled from a list of rulings, the first ruling on a
thing counts: `mem_fill`.

`Follows known ruling v` says that `v` holds what `ruling` rules on the known things. The lemmas
about it say when a change of `v` and a change of the rulings go together.
-/

/-- The things that are granted and the things that are denied. -/
@[ext] structure Verdicts (α : Type*) where
  granted : Finset α
  denied : Finset α

namespace Verdicts

variable {α : Type*}

/-- Nothing is granted or denied. -/
def empty : Verdicts α := ⟨∅, ∅⟩

/-- The set of the things with a ruling. -/
def side (v : Verdicts α) : Bool → Finset α
  | true => v.granted
  | false => v.denied

/-- There is a ruling on `x`. -/
def Settled (v : Verdicts α) (x : α) : Prop := ∃ b, x ∈ v.side b

theorem ext_side {v w : Verdicts α} (h : ∀ b x, x ∈ v.side b ↔ x ∈ w.side b) : v = w :=
  Verdicts.ext (Finset.ext (h true)) (Finset.ext (h false))

@[simp] theorem side_empty (b : Bool) : (empty : Verdicts α).side b = ∅ := by
  cases b <;> rfl

theorem settled_iff {v : Verdicts α} {x : α} (b : Bool) :
    v.Settled x ↔ x ∈ v.side b ∨ x ∈ v.side !b := by
  cases b <;> simp [Settled, or_comm]

variable [DecidableEq α]

instance (v : Verdicts α) (x : α) : Decidable (v.Settled x) :=
  decidable_of_iff (x ∈ v.side true ∨ x ∈ v.side false) (settled_iff true).symm

/-- Put `x` on a side. -/
def add (v : Verdicts α) (b : Bool) (x : α) : Verdicts α :=
  if b then { v with granted := insert x v.granted } else { v with denied := insert x v.denied }

/-- Take `x` from both sides. -/
def revoke (v : Verdicts α) (x : α) : Verdicts α := ⟨v.granted.erase x, v.denied.erase x⟩

/-- Put `x` on a side, unless there is a ruling on it. -/
def enter (v : Verdicts α) (b : Bool) (x : α) : Verdicts α := if v.Settled x then v else v.add b x

/-- Enter a list of rulings, those on unknown things left out. -/
def fill (known : α → Bool) (v : Verdicts α) (rulings : List (α × Bool)) : Verdicts α :=
  rulings.foldl (fun v r => if known r.1 then v.enter r.2 r.1 else v) v

@[simp] theorem mem_side_add {v : Verdicts α} {b c : Bool} {x y : α} :
    y ∈ (v.add b x).side c ↔ y ∈ v.side c ∨ y = x ∧ c = b := by
  cases b <;> cases c <;> simp [add, side, or_comm]

@[simp] theorem mem_side_revoke {v : Verdicts α} {c : Bool} {x y : α} :
    y ∈ (v.revoke x).side c ↔ y ∈ v.side c ∧ y ≠ x := by
  cases c <;> simp [revoke, side, and_comm]

theorem mem_side_enter {v : Verdicts α} {b c : Bool} {x y : α} :
    y ∈ (v.enter b x).side c ↔ y ∈ v.side c ∨ ¬v.Settled x ∧ y = x ∧ c = b := by
  unfold enter
  split_ifs with h <;> simp [h]

theorem settled_enter {v : Verdicts α} {b : Bool} {x y : α} :
    (v.enter b x).Settled y ↔ v.Settled y ∨ y = x := by
  constructor
  · rintro ⟨c, hc⟩
    rcases mem_side_enter.1 hc with hc | ⟨-, rfl, -⟩
    · exact Or.inl ⟨c, hc⟩
    · exact Or.inr rfl
  · rintro (⟨c, hc⟩ | rfl)
    · exact ⟨c, mem_side_enter.2 (Or.inl hc)⟩
    · by_cases h : v.Settled y
      · obtain ⟨c, hc⟩ := h
        exact ⟨c, mem_side_enter.2 (Or.inl hc)⟩
      · exact ⟨b, mem_side_enter.2 (Or.inr ⟨h, rfl, rfl⟩)⟩

/-- The first ruling on a known thing counts, unless there was one before. -/
theorem mem_fill {known : α → Bool} {v : Verdicts α} {rulings : List (α × Bool)} {b : Bool} {x : α} :
    x ∈ (v.fill known rulings).side b ↔
      x ∈ v.side b ∨ ¬v.Settled x ∧ known x = true ∧ rulings.lookup x = some b := by
  induction rulings generalizing v with
  | nil => simp [fill]
  | cons r rulings ih =>
    obtain ⟨y, c⟩ := r
    have hstep : v.fill known ((y, c) :: rulings) =
        (if known y then v.enter c y else v).fill known rulings := rfl
    rw [hstep, ih, List.lookup_cons]
    by_cases hxy : x = y
    · subst hxy
      by_cases hk : known x = true
      · rw [if_pos hk, mem_side_enter, settled_enter]
        simp [hk, eq_comm]
      · simp [hk]
    · rw [beq_eq_false_iff_ne.2 hxy]
      by_cases hk : known y = true
      · rw [if_pos hk, mem_side_enter, settled_enter]
        simp [hxy]
      · simp [hk]

/-- `v` holds the rulings on the known things, and nothing else. -/
def Follows (known : α → Bool) (ruling : α → Option Bool) (v : Verdicts α) : Prop :=
  ∀ b x, x ∈ v.side b ↔ known x = true ∧ ruling x = some b

section Follows

variable {known : α → Bool} {ruling ruling' : α → Option Bool} {v : Verdicts α} {b : Bool} {x : α}

theorem fill_eq_iff {rulings : List (α × Bool)} :
    empty.fill known rulings = v ↔ Follows known (rulings.lookup ·) v := by
  have hfill : ∀ b x, x ∈ ((empty : Verdicts α).fill known rulings).side b ↔
      known x = true ∧ rulings.lookup x = some b := by
    intro b x
    rw [mem_fill]
    simp [Settled]
  constructor
  · rintro rfl
    exact hfill
  · intro h
    exact ext_side fun b x => (hfill b x).trans (h b x).symm

omit [DecidableEq α] in
/-- There is no ruling on a known thing that is not settled. -/
theorem Follows.eq_none (h : Follows known ruling v) (hx : known x = true) (hv : ¬v.Settled x) :
    ruling x = none := by
  rw [Option.eq_none_iff_forall_ne_some]
  exact fun b hb => hv ⟨b, (h b x).2 ⟨hx, hb⟩⟩

omit [DecidableEq α] in
theorem Follows.isKnown (h : Follows known ruling v) (hv : v.Settled x) : known x = true := by
  obtain ⟨b, hb⟩ := hv
  exact ((h b x).1 hb).1

theorem Follows.add (h : Follows known ruling v) (hx : known x = true) (hv : ¬v.Settled x)
    (hr : ∀ y, ruling' y = if y = x then some b else ruling y) :
    Follows known ruling' (v.add b x) := by
  intro c y
  rw [mem_side_add, hr, h c y]
  by_cases hy : y = x
  · subst hy
    simp [hx, h.eq_none hx hv, eq_comm]
  · simp [hy]

theorem Follows.revoke_iff (h : Follows known ruling v) (hv : v.Settled x) {m : Option Bool}
    (hr : ∀ y, ruling' y = if y = x then m else ruling y) :
    Follows known ruling' (v.revoke x) ↔ m = none := by
  constructor
  · intro h'
    have hnot : ¬(v.revoke x).Settled x := by simp [Settled]
    have := h'.eq_none (h.isKnown hv) hnot
    rwa [hr, if_pos rfl] at this
  · rintro rfl c y
    rw [mem_side_revoke, hr, h c y]
    by_cases hy : y = x <;> simp [hy]

/-- The rulings stay, so the change is not followed. -/
theorem Follows.not_add (h : Follows known ruling v) (hv : ¬v.Settled x) :
    ¬Follows known ruling (v.add b x) := by
  intro h'
  have hx : x ∈ (v.add b x).side b := mem_side_add.2 (Or.inr ⟨rfl, rfl⟩)
  exact hv ⟨b, (h b x).2 ((h' b x).1 hx)⟩

theorem Follows.not_revoke (h : Follows known ruling v) (hv : v.Settled x) :
    ¬Follows known ruling (v.revoke x) := by
  intro h'
  obtain ⟨b, hb⟩ := hv
  have hx : x ∈ (v.revoke x).side b := (h' b x).2 ((h b x).1 hb)
  exact (mem_side_revoke.1 hx).2 rfl

end Follows

end Verdicts
