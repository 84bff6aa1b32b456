import FaceCore.Lib.Runs
import Mathlib.Data.List.Sort
import Mathlib.Algebra.Order.Group.Unbundled.Int
import Mathlib.Algebra.BigOperators.Group.List.Basic
import Mathlib.Tactic.Ring

/-!
# Agendas

A queue of events in the order of their times, as a program keeps it that handles what is due. Two
events of one time stand in the order in which they were scheduled.

* `insert`, `setHead`, `tail`: the operations;
* `debt now`: how far the events lie in the past, all of them together. An event that is handled
  and scheduled again for a later time leaves a smaller debt;
* `exists_iterate_not`: a loop whose rounds make a number smaller comes to an end.
-/

/-- Events of type `α` in the order of their times. -/
structure Agenda (α : Type*) where
  entries : List (ℤ × α)
  sorted : entries.Pairwise fun a b => a.1 ≤ b.1

namespace Agenda

variable {α : Type*} {q : Agenda α} {e : ℤ × α} {es : List (ℤ × α)} {a : α} {t now : ℤ}

/-- The agenda without events. -/
def empty : Agenda α := ⟨[], List.Pairwise.nil⟩

/-- Insertion into the list of entries, behind the events of the same time. -/
def insertEntry (e : ℤ × α) (es : List (ℤ × α)) : List (ℤ × α) :=
  es.orderedInsert (fun a b => a.1 < b.1) e

theorem perm_insertEntry (e : ℤ × α) (es : List (ℤ × α)) : (insertEntry e es).Perm (e :: es) :=
  List.perm_orderedInsert _ e es

theorem sorted_insertEntry (h : es.Pairwise fun a b => a.1 ≤ b.1) :
    (insertEntry e es).Pairwise fun a b => a.1 ≤ b.1 := by
  induction es with
  | nil => exact List.pairwise_singleton _ _
  | cons x es ih =>
    obtain ⟨hx, hes⟩ := List.pairwise_cons.1 h
    rw [insertEntry, List.orderedInsert_cons]
    split_ifs with hlt
    · refine List.pairwise_cons.2 ⟨fun y hy => ?_, h⟩
      rcases List.mem_cons.1 hy with rfl | hy
      · exact hlt.le
      · exact hlt.le.trans (hx y hy)
    · refine List.pairwise_cons.2 ⟨fun y hy => ?_, ih hes⟩
      rcases List.mem_cons.1 ((perm_insertEntry e es).mem_iff.1 hy) with rfl | hy
      · exact not_lt.1 hlt
      · exact hx y hy

/-- The new entry stands behind those of its time and of earlier ones, and before those of later
times. -/
theorem pairwise_insertEntry {r : ℤ × α → ℤ × α → Prop} (hsorted : es.Pairwise fun a b => a.1 ≤ b.1)
    (h : es.Pairwise r) (hle : ∀ x ∈ es, x.1 ≤ e.1 → r x e) (hlt : ∀ x ∈ es, e.1 < x.1 → r e x) :
    (insertEntry e es).Pairwise r := by
  induction es with
  | nil => exact List.pairwise_singleton _ _
  | cons x es ih =>
    obtain ⟨hxs, hes⟩ := List.pairwise_cons.1 hsorted
    obtain ⟨hrx, hres⟩ := List.pairwise_cons.1 h
    rw [insertEntry, List.orderedInsert_cons]
    split_ifs with hx
    · refine List.pairwise_cons.2 ⟨fun y hy => ?_, h⟩
      rcases List.mem_cons.1 hy with rfl | hmem
      · exact hlt y List.mem_cons_self hx
      · exact hlt y hy (hx.trans_le (hxs y hmem))
    · refine List.pairwise_cons.2 ⟨fun y hy => ?_, ih hes hres ?_ ?_⟩
      · rcases List.mem_cons.1 ((perm_insertEntry e es).mem_iff.1 hy) with rfl | hy
        · exact hle x List.mem_cons_self (not_lt.1 hx)
        · exact hrx y hy
      · exact fun y hy => hle y (List.mem_cons_of_mem _ hy)
      · exact fun y hy => hlt y (List.mem_cons_of_mem _ hy)

/-- Schedule an event. -/
def insert (q : Agenda α) (t : ℤ) (a : α) : Agenda α :=
  ⟨insertEntry (t, a) q.entries, sorted_insertEntry q.sorted⟩

/-- Write the event that comes first. -/
def setHead (q : Agenda α) (a : α) : Agenda α where
  entries := q.entries.modifyHead fun e => (e.1, a)
  sorted := by
    obtain ⟨es, hs⟩ := q
    cases es with
    | nil => exact hs
    | cons x es => exact List.pairwise_cons.2 (List.pairwise_cons.1 hs)

/-- The agenda without the event that comes first. -/
def tail (q : Agenda α) : Agenda α := ⟨q.entries.tail, q.sorted.tail⟩

theorem mem_insert : e ∈ (q.insert t a).entries ↔ e = (t, a) ∨ e ∈ q.entries :=
  (perm_insertEntry (t, a) q.entries).mem_iff.trans List.mem_cons

theorem countP_insert (p : ℤ × α → Bool) :
    (q.insert t a).entries.countP p = (if p (t, a) then 1 else 0) + q.entries.countP p := by
  have hperm := (perm_insertEntry (t, a) q.entries).countP_eq p
  rw [List.countP_cons, Nat.add_comm] at hperm
  exact hperm

/-- An event that is scheduled not before the first one leaves it in its place. -/
theorem tail_insert (h : q.entries = e :: es) (ht : e.1 ≤ t) :
    (q.insert t a).tail.entries = insertEntry (t, a) es := by
  show (insertEntry (t, a) q.entries).tail = _
  rw [h, insertEntry, List.orderedInsert_cons, if_neg (not_lt.2 ht), List.tail_cons]
  rfl

theorem entries_setHead (h : q.entries = e :: es) : (q.setHead a).entries = (e.1, a) :: es := by
  show q.entries.modifyHead _ = _
  rw [h]
  rfl

/-- When the first event is not due, none is. -/
theorem forall_le (h : q.entries = e :: es) (hnow : now ≤ e.1) : ∀ x ∈ q.entries, now ≤ x.1 := by
  intro x hx
  have hsorted := q.sorted
  rw [h] at hx hsorted
  rcases List.mem_cons.1 hx with rfl | hx
  · exact hnow
  · exact hnow.trans ((List.pairwise_cons.1 hsorted).1 x hx)

/-! ### What is overdue -/

/-- How far the entries lie in the past. -/
def debt (now : ℤ) (es : List (ℤ × α)) : ℕ := (es.map fun e => (now - e.1).toNat).sum

theorem debt_cons : debt now (e :: es) = (now - e.1).toNat + debt now es := by
  rw [debt, List.map_cons, List.sum_cons]
  rfl

theorem debt_insertEntry : debt now (insertEntry e es) = (now - e.1).toNat + debt now es := by
  rw [← debt_cons]
  exact ((perm_insertEntry e es).map _).sum_eq

/-- To handle a due event and to schedule one for later makes the debt smaller. -/
theorem debt_insertEntry_lt {x : ℤ × α} (hdue : x.1 < now) (hlater : x.1 < e.1) :
    debt now (insertEntry e es) < debt now (x :: es) := by
  rw [debt_insertEntry, debt_cons]
  omega

theorem debt_lt_cons {x : ℤ × α} (hdue : x.1 < now) : debt now es < debt now (x :: es) := by
  rw [debt_cons]
  omega

end Agenda

/-- A loop whose rounds keep an invariant and make a number smaller ends. -/
theorem exists_iterate_not {σ : Type*} {f : σ → σ} {due I : σ → Prop} (μ : σ → ℕ)
    (hstep : ∀ s, I s → due s → I (f s) ∧ μ (f s) < μ s) {s : σ} (h : I s) :
    ∃ n, ¬ due (f^[n] s) := by
  induction hμ : μ s using Nat.strong_induction_on generalizing s with
  | _ m ih =>
    by_cases hdue : due s
    · obtain ⟨hI, hlt⟩ := hstep s h hdue
      obtain ⟨n, hn⟩ := ih (μ (f s)) (hμ ▸ hlt) hI rfl
      exact ⟨n + 1, hn⟩
    · exact ⟨0, hdue⟩
