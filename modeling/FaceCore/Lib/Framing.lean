import Mathlib.Data.List.Basic

/-!
# Streams of packets

A stream is cut into packets by a `LengthCode`: the size of the packet at the head of a stream, as
soon as enough of it is there to tell. More input never changes a size that is known.

* `frame`: the packet at the head of a stream and what is behind it, if the packet is complete;
* `split`: all complete packets at the head of a stream, and the rest.
-/

namespace Framing

variable {α : Type*}

/-- How long the packet at the head of a stream is. -/
structure LengthCode (α : Type*) where
  size : List α → Option ℕ
  size_pos : ∀ {l k}, size l = some k → 0 < k
  size_append : ∀ {l k}, size l = some k → ∀ l', size (l ++ l') = some k

namespace LengthCode

variable (c : LengthCode α)

/-- The complete packet at the head of a stream, and what is behind it. -/
def frame (l : List α) : Option (List α × List α) :=
  match c.size l with
  | none => none
  | some k => if l.length < k then none else some (l.take k, l.drop k)

variable {c} {l p r : List α}

theorem frame_eq_some_iff :
    c.frame l = some (p, r) ↔
      ∃ k, c.size l = some k ∧ k ≤ l.length ∧ p = l.take k ∧ r = l.drop k := by
  unfold frame
  cases c.size l with
  | none => simp
  | some k =>
    dsimp only
    split_ifs with h
    · simp [Nat.not_le.2 h]
    · simp [Nat.le_of_not_lt h, eq_comm]

theorem append_of_frame (h : c.frame l = some (p, r)) : p ++ r = l := by
  obtain ⟨k, -, -, rfl, rfl⟩ := frame_eq_some_iff.1 h
  exact List.take_append_drop k l

theorem ne_nil_of_frame (h : c.frame l = some (p, r)) : p ≠ [] := by
  obtain ⟨k, hk, hle, rfl, -⟩ := frame_eq_some_iff.1 h
  have hpos := c.size_pos hk
  rw [← List.length_pos_iff, List.length_take]
  omega

theorem length_of_frame (h : c.frame l = some (p, r)) : r.length < l.length := by
  have hpos := List.length_pos_iff.2 (ne_nil_of_frame h)
  rw [← append_of_frame h, List.length_append]
  omega

theorem frame_nil : c.frame [] = none := by
  rcases h : c.frame [] with _ | ⟨p, r⟩
  · rfl
  · exact absurd (length_of_frame h) (by simp)

/-- A complete packet stays the first one when more arrives. -/
theorem frame_append (h : c.frame l = some (p, r)) (l' : List α) :
    c.frame (l ++ l') = some (p, r ++ l') := by
  obtain ⟨k, hk, hle, rfl, rfl⟩ := frame_eq_some_iff.1 h
  refine frame_eq_some_iff.2 ⟨k, c.size_append hk l', ?_, ?_, ?_⟩
  · rw [List.length_append]
    omega
  · rw [List.take_append_of_le_length hle]
  · rw [List.drop_append_of_le_length hle]

theorem frame_packet_append (h : c.size p = some p.length) (r : List α) :
    c.frame (p ++ r) = some (p, r) :=
  frame_eq_some_iff.2 ⟨p.length, c.size_append h r, by simp, by simp, by simp⟩

variable (c) in
/-- The complete packets at the head of a stream, and the rest. -/
def split (l : List α) : List (List α) × List α :=
  match _h : c.frame l with
  | none => ([], l)
  | some (p, r) => (p :: (split r).1, (split r).2)
termination_by l.length
decreasing_by all_goals exact length_of_frame _h

theorem split_of_none (h : c.frame l = none) : c.split l = ([], l) := by
  rw [split]
  split
  · rfl
  · next heq =>
    rw [h] at heq
    cases heq

theorem split_of_some (h : c.frame l = some (p, r)) :
    c.split l = (p :: (c.split r).1, (c.split r).2) := by
  rw [split]
  split
  · next heq =>
    rw [h] at heq
    cases heq
  · next heq =>
    rw [h] at heq
    cases heq
    rfl

theorem frame_of_split_cons {ps : List (List α)} (h : (c.split l).1 = p :: ps) :
    ∃ r, c.frame l = some (p, r) ∧ (c.split r).1 = ps ∧ (c.split r).2 = (c.split l).2 := by
  rcases hf : c.frame l with _ | ⟨p', r⟩
  · rw [split_of_none hf] at h
    cases h
  · rw [split_of_some hf] at h ⊢
    cases h
    exact ⟨r, rfl, rfl, rfl⟩

end LengthCode

end Framing
