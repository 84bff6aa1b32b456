import Mathlib.Data.List.Nodup

/-!
# Counting places

How many places of a list satisfy a predicate of the place and of what stands there, and how that
number changes when the list or the predicate does.

* `countIdx`: the number of places;
* `countIdx_concat`, `countIdx_update`, `countIdx_grow`: one more element, a change at one place, and
  more places that satisfy the predicate;
* `countP_modify`: a change of one element.
-/

namespace Counting

variable {α : Type*} {P Q : ℕ → α → Bool} {xs ys : List α}

theorem ite_eq_toNat (b : Bool) : (if b = true then 1 else 0) = b.toNat := by
  cases b <;> rfl

/-- The number of places of a list that satisfy a predicate. -/
def countIdx (P : ℕ → α → Bool) (xs : List α) : ℕ :=
  (List.range xs.length).countP fun i => (xs[i]?).any (P i)

theorem countIdx_concat (x : α) :
    countIdx P (xs ++ [x]) = countIdx P xs + (P xs.length x).toNat := by
  unfold countIdx
  rw [List.length_append, List.length_singleton, List.range_succ, List.countP_append]
  congr 1
  · refine List.countP_congr fun i hi => ?_
    rw [List.getElem?_append_left (List.mem_range.1 hi)]
  · simp [List.countP_cons, ite_eq_toNat]

theorem countP_update {β : Type*} {xs : List β} (hx : xs.Nodup) {a : β} (ha : a ∈ xs)
    {p q : β → Bool} (h : ∀ b ∈ xs, b ≠ a → q b = p b) :
    xs.countP q + (p a).toNat = xs.countP p + (q a).toNat := by
  induction xs with
  | nil => cases ha
  | cons b xs ih =>
    rw [List.nodup_cons] at hx
    simp only [List.countP_cons, ite_eq_toNat]
    rcases List.mem_cons.1 ha with rfl | ha'
    · have hrest : xs.countP q = xs.countP p := by
        refine List.countP_congr fun c hc => ?_
        rw [h c (List.mem_cons_of_mem a hc)]
        rintro rfl
        exact hx.1 hc
      omega
    · have hb : q b = p b := h b List.mem_cons_self fun hba => hx.1 (hba ▸ ha')
      have hrest := ih hx.2 ha' fun c hc => h c (List.mem_cons_of_mem b hc)
      rw [hb]
      omega

theorem countIdx_update (ys : List α) {i : ℕ} (hlen : ys.length = xs.length) (hi : i < xs.length)
    (hother : ∀ j ≠ i, (ys[j]?).any (Q j) = (xs[j]?).any (P j)) :
    countIdx Q ys + ((xs[i]?).any (P i)).toNat = countIdx P xs + ((ys[i]?).any (Q i)).toNat := by
  unfold countIdx
  rw [hlen]
  exact countP_update List.nodup_range (List.mem_range.2 hi) fun j _ hj => hother j hj

theorem countP_mem_and {β : Type*} [DecidableEq β] {is xs : List β} (h : is.Sublist xs)
    (hx : xs.Nodup) (r : β → Bool) : (xs.countP fun x => x ∈ is && r x) = is.countP r := by
  induction h with
  | slnil => rfl
  | @cons is xs a hsub ih =>
    rw [List.nodup_cons] at hx
    have ha : a ∉ is := fun hmem => hx.1 (hsub.mem hmem)
    rw [List.countP_cons_of_neg (by simp [ha]), ih hx.2]
  | @cons_cons is xs a hsub ih =>
    rw [List.nodup_cons] at hx
    rw [List.countP_cons, List.countP_cons, ← ih hx.2]
    congr 1
    · refine List.countP_congr fun x hmem => ?_
      have hne : x ≠ a := fun heq => hx.1 (heq ▸ hmem)
      simp [hne]
    · simp

theorem countIdx_grow {is : List ℕ} (hlen : ys.length = xs.length)
    (hsub : is.Sublist (List.range xs.length)) (r : ℕ → Bool)
    (h : ∀ i < xs.length, (ys[i]?).any (Q i) = ((xs[i]?).any (P i) || i ∈ is && r i))
    (hnew : ∀ i ∈ is, r i = true → (xs[i]?).any (P i) = false) :
    countIdx Q ys = countIdx P xs + is.countP r := by
  have hor : ∀ zs : List ℕ, (∀ i ∈ zs, i < xs.length) →
      (zs.countP fun i => (ys[i]?).any (Q i)) =
        (zs.countP fun i => (xs[i]?).any (P i)) + zs.countP fun i => i ∈ is && r i := by
    intro zs hzs
    induction zs with
    | nil => rfl
    | cons i zs ih =>
      rw [List.countP_cons, List.countP_cons, List.countP_cons, ih fun j hj =>
        hzs j (List.mem_cons_of_mem i hj), h i (hzs i List.mem_cons_self)]
      by_cases hi : i ∈ is
      · cases hr : r i with
        | false =>
          simp only [hi, decide_true, Bool.and_false, Bool.or_false, Bool.false_eq_true, if_false]
          omega
        | true =>
          simp only [hi, hnew i hi hr, decide_true, Bool.and_self, Bool.false_or, if_true,
            Bool.false_eq_true, if_false]
          omega
      · simp only [hi, decide_false, Bool.false_and, Bool.or_false, Bool.false_eq_true, if_false]
        omega
  unfold countIdx
  rw [hlen, hor _ fun i hi => List.mem_range.1 hi, countP_mem_and hsub List.nodup_range]

theorem countIdx_le_length (P : ℕ → α → Bool) (xs : List α) : countIdx P xs ≤ xs.length := by
  calc
    countIdx P xs ≤ (List.range xs.length).length := List.countP_le_length
    _ = xs.length := List.length_range

/-- Of two nested predicates, both count the same exactly when they agree. -/
theorem countP_eq_iff {β : Type*} {xs : List β} {p q : β → Bool}
    (h : ∀ a ∈ xs, p a = true → q a = true) :
    xs.countP q = xs.countP p ↔ ∀ a ∈ xs, q a = true → p a = true := by
  constructor
  · intro heq a ha hq
    by_contra hp
    have hlt : xs.countP p < xs.countP q := by
      obtain ⟨s, t, rfl⟩ := List.append_of_mem ha
      have hs : s.countP p ≤ s.countP q :=
        List.countP_mono_left fun b hb => h b (List.mem_append_left _ hb)
      have ht : t.countP p ≤ t.countP q :=
        List.countP_mono_left fun b hb => h b (by simp [hb])
      rw [List.countP_append, List.countP_append, List.countP_cons_of_neg hp,
        List.countP_cons_of_pos hq]
      omega
    omega
  · intro h'
    refine List.countP_congr fun a ha => ?_
    exact ⟨h' a ha, h a ha⟩

theorem countP_modify {p : α → Bool} {f : α → α} {i : ℕ} {a : α} (h : xs[i]? = some a) :
    (xs.modify i f).countP p + (p a).toNat = xs.countP p + (p (f a)).toNat := by
  induction xs generalizing i with
  | nil => simp at h
  | cons x xs ih =>
    cases i with
    | zero =>
      obtain rfl : x = a := by simpa using h
      simp only [List.modify_zero_cons, List.countP_cons, ite_eq_toNat]
      omega
    | succ i =>
      have hrest := ih (i := i) (by simpa using h)
      simp only [List.modify_succ_cons, List.countP_cons]
      omega

end Counting
