import Mathlib.Data.List.Find
import Mathlib.Data.List.Rotate
import Mathlib.Data.List.Nodup

/-!
# Taking turns

The elements of a list take turns in cyclic order, and those that are not eligible are passed over.

* `turns`: the order of the turns after an element;
* `next`: the next one who is eligible, with `next_eq_none_iff` and `next_getElem`;
* `next_filter_getElem`: the eligible ones take turns among themselves;
* `existsUnique_turn`: in as many turns as there are eligible ones, each has exactly one.
-/

namespace RoundRobin

variable {α : Type*} [DecidableEq α] {l : List α} {p : α → Bool} {x y : α}

/-- The elements in the order of their turns after `x`, with `x` the last one; somebody who is not in
the list had his turn before the first one. -/
def turns (l : List α) (x : α) : List α := if x ∈ l then l.rotate (l.idxOf x + 1) else l

/-- The next one after `x` who is eligible. -/
def next (l : List α) (p : α → Bool) (x : α) : Option α := (turns l x).find? p

theorem turns_of_notMem (h : x ∉ l) : turns l x = l := if_neg h

@[simp] theorem mem_turns : y ∈ turns l x ↔ y ∈ l := by
  unfold turns
  split_ifs
  · exact List.mem_rotate
  · rfl

/-- The turns after an element are those behind it, those before it, and its own. -/
theorem turns_append {first last : List α} (h : x ∉ first) :
    turns (first ++ x :: last) x = last ++ first ++ [x] := by
  have hidx : (first ++ x :: last).idxOf x = first.length := by
    rw [List.idxOf_append_of_notMem h, List.idxOf_cons_self, Nat.add_zero]
  have hsplit : first ++ x :: last = (first ++ [x]) ++ last := by simp
  have hlen : first.length + 1 = (first ++ [x]).length := by simp
  rw [turns, if_pos (by simp), hidx, hsplit, hlen, List.rotate_append_length_eq, List.append_assoc]

/-- Nobody is next exactly if nobody is eligible. -/
theorem next_eq_none_iff : next l p x = none ↔ ∀ y ∈ l, p y = false := by
  simp [next]

theorem next_mem (h : next l p x = some y) : y ∈ l ∧ p y = true :=
  ⟨mem_turns.1 (List.mem_of_find?_eq_some h), List.find?_some h⟩

theorem next_congr {q : α → Bool} (h : ∀ y ∈ l, p y = q y) : next l p x = next l q x := by
  unfold next
  exact List.find?_congr fun y hy => h y (mem_turns.1 hy)

/-- It is his own turn again only if nobody else is eligible. -/
theorem eq_of_next_self (hl : l.Nodup) (hx : x ∈ l) (h : next l p x = some x) (hy : y ∈ l)
    (hp : p y = true) : y = x := by
  obtain ⟨first, last, rfl⟩ := List.append_of_mem hx
  have hfirst : x ∉ first := fun hmem =>
    (List.nodup_append.1 hl).2.2 x hmem x List.mem_cons_self rfl
  have hlast : x ∉ last := (List.nodup_cons.1 (List.nodup_append.1 hl).2.1).1
  by_contra hne
  rw [next, turns_append hfirst, List.find?_append] at h
  have hother : y ∈ last ++ first := by
    simp only [List.mem_append, List.mem_cons, hne, false_or] at hy ⊢
    exact hy.symm
  obtain ⟨z, hz⟩ := Option.isSome_iff_exists.1 (List.find?_isSome.2 ⟨y, hother, hp⟩)
  rw [hz, Option.some_or, Option.some.injEq] at h
  subst h
  simpa [hfirst, hlast] using List.mem_of_find?_eq_some hz

/-- The next one is the first eligible one at a distance, counted around the list. -/
theorem next_getElem (hl : l.Nodup) {i : ℕ} (hi : i < l.length) :
    next l p l[i] = some y ↔ p y = true ∧ ∃ d, d < l.length ∧
      l[(d + (i + 1)) % l.length]? = some y ∧
        ∀ e, e < d → ∀ z, l[(e + (i + 1)) % l.length]? = some z → p z = false := by
  have hturns : turns l l[i] = l.rotate (i + 1) := by
    rw [turns, if_pos (List.getElem_mem hi), hl.idxOf_getElem i hi]
  rw [next, hturns, List.find?_eq_some_iff_getElem]
  refine and_congr_right fun _ => ⟨?_, ?_⟩
  · rintro ⟨d, hd, hy, hbefore⟩
    rw [List.length_rotate] at hd
    refine ⟨d, hd, ?_, fun e he z hz => ?_⟩
    · rw [← hy, List.getElem_rotate, List.getElem?_eq_getElem]
    · have hfalse := hbefore e he
      rw [List.getElem_rotate] at hfalse
      obtain ⟨hlt, rfl⟩ := List.getElem?_eq_some_iff.1 hz
      simpa using hfalse
  · rintro ⟨d, hd, hy, hbefore⟩
    obtain ⟨hlt, rfl⟩ := List.getElem?_eq_some_iff.1 hy
    refine ⟨d, by simpa using hd, List.getElem_rotate .., fun e he => ?_⟩
    rw [List.getElem_rotate]
    simpa using hbefore e he _ (List.getElem?_eq_getElem _)

/-! ### The turns of the eligible ones -/

theorem filter_turns (hl : l.Nodup) (hx : x ∈ l) (hp : p x = true) :
    (turns l x).filter p = turns (l.filter p) x := by
  obtain ⟨first, last, rfl⟩ := List.append_of_mem hx
  have hfirst : x ∉ first := fun hmem =>
    (List.nodup_append.1 hl).2.2 x hmem x List.mem_cons_self rfl
  have hfilter : x ∉ first.filter p := fun hmem => hfirst (List.mem_of_mem_filter hmem)
  rw [turns_append hfirst, List.filter_append, List.filter_append, List.filter_append,
    List.filter_cons_of_pos hp, List.filter_cons_of_pos hp, List.filter_nil, turns_append hfilter]

/-- After an eligible one it is the turn of the one behind him among the eligible ones. -/
theorem next_filter_getElem (hl : l.Nodup) {j : ℕ} (hj : j < (l.filter p).length) :
    next l p (l.filter p)[j] = (l.filter p)[(j + 1) % (l.filter p).length]? := by
  have hmem := List.mem_filter.1 (List.getElem_mem hj)
  have hnodup : (l.filter p).Nodup := hl.filter p
  have hturns : turns (l.filter p) (l.filter p)[j] = (l.filter p).rotate (j + 1) := by
    rw [turns, if_pos (List.getElem_mem hj), hnodup.idxOf_getElem j hj]
  rw [next, ← List.head?_filter, filter_turns hl hmem.1 hmem.2, hturns, List.head?_eq_getElem?,
    List.getElem?_rotate (by omega), Nat.zero_add]

section

variable {f : ℕ → α}

/-- The turns after one of an eligible one. -/
theorem turn_add (hl : l.Nodup) {n j : ℕ} (hf : ∀ t < n, next l p (f t) = some (f (t + 1)))
    (hj : j < (l.filter p).length) (h : f 1 = (l.filter p)[j]) {t : ℕ} (ht : t < n) :
    (l.filter p)[(j + t) % (l.filter p).length]? = some (f (t + 1)) := by
  induction t with
  | zero => rw [Nat.add_zero, Nat.mod_eq_of_lt hj, List.getElem?_eq_getElem hj, h]
  | succ t ih =>
    obtain ⟨hlt, hget⟩ := List.getElem?_eq_some_iff.1 (ih (Nat.lt_of_succ_lt ht))
    have hnext := hf (t + 1) ht
    rw [← hget, next_filter_getElem hl hlt] at hnext
    rw [← hnext, Nat.mod_add_mod, Nat.add_assoc]

/-- Among as many turns as there are eligible ones, each of them has exactly one. -/
theorem existsUnique_turn (hl : l.Nodup)
    (hf : ∀ t < (l.filter p).length, next l p (f t) = some (f (t + 1))) (hy : y ∈ l.filter p) :
    ∃! t, t < (l.filter p).length ∧ f (t + 1) = y := by
  obtain ⟨m, hm, rfl⟩ := List.getElem_of_mem hy
  obtain ⟨hmem, hp⟩ := next_mem (hf 0 (by omega))
  obtain ⟨j, hj, hfirst⟩ := List.getElem_of_mem (List.mem_filter.2 ⟨hmem, hp⟩)
  have hturn := fun t (ht : t < (l.filter p).length) => turn_add hl hf hj hfirst.symm ht
  -- after `t` turns it is the turn of the number `j + t`, counted around
  have hiff : ∀ t, t < (l.filter p).length →
      (f (t + 1) = (l.filter p)[m] ↔ (j + t) % (l.filter p).length = m) := by
    intro t ht
    obtain ⟨hlt, hget⟩ := List.getElem?_eq_some_iff.1 (hturn t ht)
    rw [← hget, (hl.filter p).getElem_inj_iff]
  have hmod : ∀ t, t < (l.filter p).length → (j + t) % (l.filter p).length =
      if j + t < (l.filter p).length then j + t else j + t - (l.filter p).length := by
    intro t ht
    split_ifs with hlt
    · exact Nat.mod_eq_of_lt hlt
    · rw [Nat.mod_eq_sub_mod (by omega), Nat.mod_eq_of_lt (by omega)]
  refine ⟨if j ≤ m then m - j else m + (l.filter p).length - j, ⟨?_, ?_⟩, ?_⟩
  · split_ifs <;> omega
  · have hlt : (if j ≤ m then m - j else m + (l.filter p).length - j) < (l.filter p).length := by
      split_ifs <;> omega
    rw [hiff _ hlt, hmod _ hlt]
    split_ifs <;> omega
  · rintro t ⟨ht, hft⟩
    rw [hiff t ht, hmod t ht] at hft
    split_ifs at hft ⊢ <;> omega

end

end RoundRobin
