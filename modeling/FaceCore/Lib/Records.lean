import Mathlib.Order.Lattice

/-!
# The first of the largest

A loop over a list keeps an element whenever it is larger than what is kept so far. At the end it
has kept the first of the largest elements, unless it started with something as large.

* `FirstLargest`: larger than all before it, and as large as all after it;
* `foldl_keep`: what such a loop ends with.
-/

namespace Records

variable {α β σ : Type*} [LinearOrder β] {size : α → β} {l : List α} {a b : α}

/-- An element that is larger than those before it and not smaller than those after it. -/
def FirstLargest (size : α → β) (l : List α) (a : α) : Prop :=
  ∃ before after, l = before ++ a :: after ∧ (∀ b ∈ before, size b < size a) ∧
    ∀ b ∈ after, size b ≤ size a

theorem FirstLargest.mem (h : FirstLargest size l a) : a ∈ l := by
  obtain ⟨before, after, rfl, -, -⟩ := h
  exact List.mem_append_right _ List.mem_cons_self

theorem FirstLargest.cons (h : FirstLargest size l a) (hb : size b < size a) :
    FirstLargest size (b :: l) a := by
  obtain ⟨before, after, rfl, hbefore, hafter⟩ := h
  exact ⟨b :: before, after, rfl, List.forall_mem_cons.2 ⟨hb, hbefore⟩, hafter⟩

theorem firstLargest_head (h : ∀ b ∈ l, size b ≤ size a) : FirstLargest size (a :: l) a :=
  ⟨[], l, rfl, fun _ hb => (List.not_mem_nil hb).elim, h⟩

/-- In a list that is sorted, nothing is larger, and what is as large does not come before. -/
theorem FirstLargest.not_beaten {r : α → α → Prop} (h : FirstLargest size l a)
    (hsorted : l.Pairwise r) (hb : b ∈ l) :
    size b < size a ∨ size b = size a ∧ (b = a ∨ r a b) := by
  obtain ⟨before, after, rfl, hbefore, hafter⟩ := h
  have hrest := (List.pairwise_append.1 hsorted).2.1
  rcases List.mem_append.1 hb with hb | hb
  · exact .inl (hbefore b hb)
  · rcases List.mem_cons.1 hb with rfl | hb
    · exact .inr ⟨rfl, .inl rfl⟩
    · rcases lt_or_eq_of_le (hafter b hb) with hlt | heq
      · exact .inl hlt
      · exact .inr ⟨heq, .inr ((List.pairwise_cons.1 hrest).1 b hb)⟩

/-- A loop that overwrites what it has kept by anything larger keeps the first of the largest. -/
theorem foldl_keep {stored : σ → β} {put : σ → α → σ} (l : List α)
    (hstored : ∀ a ∈ l, ∀ s, stored (put s a) = size a)
    (hput : ∀ s a b, put (put s a) b = put s b) (s : σ) :
    l.foldl (fun s a => if size a ≤ stored s then s else put s a) s = s ∧
        (∀ a ∈ l, size a ≤ stored s) ∨
      ∃ a, FirstLargest size l a ∧ stored s < size a ∧
        l.foldl (fun s a => if size a ≤ stored s then s else put s a) s = put s a := by
  induction l generalizing s with
  | nil => exact .inl ⟨rfl, fun _ ha => (List.not_mem_nil ha).elim⟩
  | cons a l ih =>
    obtain ⟨hhead, htail⟩ := List.forall_mem_cons.1 hstored
    rw [List.foldl_cons]
    by_cases ha : size a ≤ stored s
    · rw [if_pos ha]
      rcases ih htail s with ⟨heq, hle⟩ | ⟨b, hb, hlt, heq⟩
      · exact .inl ⟨heq, List.forall_mem_cons.2 ⟨ha, hle⟩⟩
      · exact .inr ⟨b, hb.cons (lt_of_le_of_lt ha hlt), hlt, heq⟩
    · rw [if_neg ha]
      rcases ih htail (put s a) with ⟨heq, hle⟩ | ⟨b, hb, hlt, heq⟩
      · refine .inr ⟨a, firstLargest_head fun b hb => ?_, not_le.1 ha, heq⟩
        exact hhead s ▸ hle b hb
      · rw [hhead] at hlt
        exact .inr ⟨b, hb.cons hlt, lt_trans (not_le.1 ha) hlt, heq.trans (hput s a b)⟩

end Records
