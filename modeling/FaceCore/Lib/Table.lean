import Mathlib.Data.List.Nodup
import Mathlib.Algebra.Ring.Nat

/-!
# Tables of records

A finite table of records with distinct keys, as the list of its records in the order in which the
program iterates over them. A hash table promises nothing about that order: `reorder` is the step
by which it may change, and what is proved of every order is proved with it.

* `find`, `insert`, `erase`, `modify`: the operations of the container;
* `mem_insert`, `mem_erase`, `forall_mem_modify`: which records a table holds afterwards.
-/

/-- Records of type `α`, no two of which have the same key. -/
structure Table {α κ : Type*} (key : α → κ) where
  toList : List α
  nodup : (toList.map key).Nodup

namespace Table

variable {α κ : Type*} {key : α → κ} {t : Table key} {a b : α} {k : κ} {f : α → α}

instance : Membership α (Table key) := ⟨fun t a => a ∈ t.toList⟩

theorem mem_def : a ∈ t ↔ a ∈ t.toList := Iff.rfl

instance [DecidableEq α] : Decidable (a ∈ t) := inferInstanceAs (Decidable (a ∈ t.toList))

/-- The table without records. -/
def empty (key : α → κ) : Table key := ⟨[], List.nodup_nil⟩

theorem not_mem_empty : a ∉ empty key := List.not_mem_nil

theorem eq_of_key_eq (ha : a ∈ t) (hb : b ∈ t) (h : key a = key b) : a = b :=
  List.inj_on_of_nodup_map t.nodup ha hb h

section

variable [DecidableEq κ]

/-- The record of a key. -/
def find (t : Table key) (k : κ) : Option α := t.toList.find? fun a => key a = k

theorem find_eq_none : t.find k = none ↔ ∀ a ∈ t, key a ≠ k := by
  simp [find, mem_def]

theorem of_find (h : t.find k = some a) : a ∈ t ∧ key a = k := by
  refine ⟨List.mem_of_find?_eq_some h, ?_⟩
  have hkey := List.find?_some h
  exact of_decide_eq_true hkey

theorem find_key (ha : a ∈ t) : t.find (key a) = some a := by
  cases h : t.find (key a) with
  | none => exact absurd rfl (find_eq_none.1 h a ha)
  | some b => exact congrArg some (eq_of_key_eq (of_find h).1 ha (of_find h).2)

/-- Put a record into the table, in place of the one with its key if there is one. -/
def insert (t : Table key) (a : α) : Table key where
  toList := a :: t.toList.filter fun b => key b ≠ key a
  nodup := by
    rw [List.map_cons, List.nodup_cons]
    refine ⟨?_, t.nodup.sublist (List.filter_sublist.map key)⟩
    simp

@[simp] theorem mem_insert : b ∈ t.insert a ↔ b = a ∨ b ∈ t ∧ key b ≠ key a := by
  simp [insert, mem_def]

theorem find_insert : (t.insert a).find k = if k = key a then some a else t.find k := by
  unfold find insert
  rw [List.find?_cons]
  split_ifs with h
  · subst h
    simp
  · simp only [decide_eq_false (Ne.symm h), List.find?_filter]
    congr 1
    funext b
    by_cases hb : key b = k
    · simp [hb, h]
    · simp [hb]

theorem toList_insert (h : t.find (key a) = none) : (t.insert a).toList = a :: t.toList := by
  refine congrArg (a :: ·) (List.filter_eq_self.2 fun b hb => ?_)
  simpa using find_eq_none.1 h b hb

/-- Remove the record of a key. -/
def erase (t : Table key) (k : κ) : Table key where
  toList := t.toList.filter fun b => key b ≠ k
  nodup := t.nodup.sublist (List.filter_sublist.map key)

@[simp] theorem mem_erase : b ∈ t.erase k ↔ b ∈ t ∧ key b ≠ k := by
  simp [erase, mem_def]

theorem erase_eq_self (h : t.find k = none) : t.erase k = t := by
  obtain ⟨l, hl⟩ := t
  simpa [erase, find] using h

/-- Update the record of a key by a function that keeps keys. -/
def modify (t : Table key) (k : κ) (f : α → α) (hf : ∀ a, key (f a) = key a) : Table key where
  toList := t.toList.map fun a => if key a = k then f a else a
  nodup := by
    have hkey : (key ∘ fun a => if key a = k then f a else a) = key := by
      funext a
      rw [Function.comp_apply]
      split_ifs with h
      · exact hf a
      · rfl
    rw [List.map_map, hkey]
    exact t.nodup

theorem forall_mem_modify {P : α → Prop} (hf : ∀ a, key (f a) = key a) :
    (∀ b ∈ t.modify k f hf, P b) ↔ ∀ a ∈ t, P (if key a = k then f a else a) := by
  simp [modify, mem_def]

theorem find_modify (hf : ∀ a, key (f a) = key a) {k' : κ} :
    (t.modify k f hf).find k' = if k' = k then (t.find k).map f else t.find k' := by
  have hkey : ∀ a, key (if key a = k then f a else a) = key a := by
    intro a
    split_ifs
    · exact hf a
    · rfl
  have hfind : (t.modify k f hf).find k' =
      (t.find k').map fun a => if key a = k then f a else a := by
    simp only [find, modify, List.find?_map, Function.comp_def, hkey]
  rw [hfind]
  cases hk : t.find k' with
  | none =>
    split_ifs with h
    · rw [← h, hk]
      rfl
    · rfl
  | some a =>
    have ha := (of_find hk).2
    split_ifs with h
    · rw [← h, hk]
      simp [ha, h]
    · simp [ha, h]

/-- A sum over the records after one of them is updated. -/
theorem sum_modify (hf : ∀ a, key (f a) = key a) (h : t.find k = some a) (g : α → ℕ) :
    ((t.modify k f hf).toList.map g).sum + g a = (t.toList.map g).sum + g (f a) := by
  obtain ⟨l, hl⟩ := t
  unfold find at h
  simp only [modify]
  induction l with
  | nil => cases h
  | cons b l ih =>
    rw [List.map_cons, List.nodup_cons] at hl
    simp only [List.map_cons, List.sum_cons]
    rw [List.find?_cons] at h
    by_cases hb : key b = k
    · simp only [hb, decide_true, Option.some.injEq] at h
      subst h
      have hrest : (l.map fun a => if key a = k then f a else a) = l := by
        conv_rhs => rw [← List.map_id l]
        refine List.map_congr_left fun c hc => ?_
        rw [if_neg, id_eq]
        rintro rfl
        exact hl.1 (hb ▸ List.mem_map_of_mem hc)
      rw [if_pos hb, hrest]
      omega
    · simp only [hb, decide_false] at h
      have hrest := ih hl.2 h
      rw [if_neg hb]
      omega

/-- A sum over the records after one of them is removed. -/
theorem sum_erase (h : t.find k = some a) (g : α → ℕ) :
    ((t.erase k).toList.map g).sum + g a = (t.toList.map g).sum := by
  obtain ⟨l, hl⟩ := t
  unfold find at h
  simp only [erase]
  induction l with
  | nil => cases h
  | cons b l ih =>
    rw [List.map_cons, List.nodup_cons] at hl
    rw [List.find?_cons] at h
    rw [List.filter_cons, List.map_cons, List.sum_cons]
    by_cases hb : key b = k
    · simp only [hb, decide_true, Option.some.injEq] at h
      subst h
      have hrest : l.filter (fun c => key c ≠ k) = l := by
        refine List.filter_eq_self.2 fun c hc => ?_
        refine decide_eq_true fun hck => hl.1 ?_
        rw [hb, ← hck]
        exact List.mem_map_of_mem hc
      rw [if_neg (by simp [hb]), hrest]
      omega
    · simp only [hb, decide_false] at h
      have hrest := ih hl.2 h
      rw [if_pos (by simp [hb]), List.map_cons, List.sum_cons]
      omega

theorem find_erase {k' : κ} : (t.erase k).find k' = if k' = k then none else t.find k' := by
  unfold find erase
  rw [List.find?_filter]
  split_ifs with h
  · subst h
    simp
  · congr 1
    funext b
    by_cases hb : key b = k'
    · simp [hb, h]
    · simp [hb]

/-- What is left of a table after some records are removed. -/
def Rest (t t' : Table key) : Prop :=
  t'.toList = t.toList.filter fun a => (t'.find (key a)).isSome

theorem Rest.refl (t : Table key) : Rest t t := by
  refine (List.filter_eq_self.2 fun a ha => ?_).symm
  rw [find_key ha]
  rfl

theorem Rest.erase {t' : Table key} (h : Rest t t') (k : κ) : Rest t (t'.erase k) := by
  have hlist : (t'.erase k).toList = (t.toList.filter fun a => (t'.find (key a)).isSome).filter
      fun a => key a ≠ k := congrArg (List.filter _) h
  unfold Rest
  rw [hlist, List.filter_filter]
  refine List.filter_congr fun a _ => ?_
  rw [find_erase]
  by_cases ha : key a = k <;> simp [ha]

theorem Rest.sum_removed {t' : Table key} (h : Rest t t') (g : α → ℕ) :
    (t.toList.map fun a => if t'.find (key a) = none then g a else 0).sum + (t'.toList.map g).sum =
      (t.toList.map g).sum := by
  rw [h]
  generalize t.toList = l
  induction l with
  | nil => rfl
  | cons a l ih =>
    rw [List.filter_cons]
    by_cases ha : t'.find (key a) = none
    · simp only [ha, Option.isSome_none, Bool.false_eq_true, if_false, List.map_cons,
        List.sum_cons, if_true]
      omega
    · simp only [ha, Option.isSome_iff_ne_none, ne_eq, not_false_eq_true, if_true, List.map_cons,
        List.sum_cons, if_false]
      omega

theorem modify_eq_self (hf : ∀ a, key (f a) = key a) (h : ∀ a ∈ t, key a = k → f a = a) :
    t.modify k f hf = t := by
  obtain ⟨l, hl⟩ := t
  have hmap : (l.map fun a => if key a = k then f a else a) = l := by
    conv_rhs => rw [← List.map_id l]
    refine List.map_congr_left fun a ha => ?_
    split_ifs with hk
    · exact h a ha hk
    · rfl
  simp only [modify, hmap]

theorem exists_mem_modify {P : α → Prop} (hf : ∀ a, key (f a) = key a) :
    (∃ b ∈ t.modify k f hf, P b) ↔ ∃ a ∈ t, P (if key a = k then f a else a) := by
  simp [modify, mem_def]

end

/-- Update every record by a function that keeps keys. -/
def map (t : Table key) (f : α → α) (hf : ∀ a, key (f a) = key a) : Table key where
  toList := t.toList.map f
  nodup := by
    rw [List.map_map, show key ∘ f = key from funext hf]
    exact t.nodup

theorem forall_mem_map {P : α → Prop} (hf : ∀ a, key (f a) = key a) :
    (∀ b ∈ t.map f hf, P b) ↔ ∀ a ∈ t, P (f a) := by
  simp [map, mem_def]

theorem exists_mem_map {P : α → Prop} (hf : ∀ a, key (f a) = key a) :
    (∃ b ∈ t.map f hf, P b) ↔ ∃ a ∈ t, P (f a) := by
  simp [map, mem_def]

/-- The records that meet a condition. -/
def filter (t : Table key) (p : α → Bool) : Table key where
  toList := t.toList.filter p
  nodup := t.nodup.sublist (List.filter_sublist.map key)

/-- Keeping the records with certain keys. -/
theorem find_filter [DecidableEq κ] {p : α → Bool} {q : κ → Prop} [DecidablePred q]
    (hp : ∀ a, p a = true ↔ q (key a)) :
    (t.filter p).find k = if q k then t.find k else none := by
  unfold find filter
  rw [List.find?_filter]
  split_ifs with h
  · congr 1
    funext a
    by_cases ha : key a = k
    · simp [ha, hp, h]
    · simp [ha]
  · rw [List.find?_eq_none]
    intro a _ hcontra
    simp only [decide_eq_true_eq, hp] at hcontra
    exact h (hcontra.2 ▸ hcontra.1)

/-- Iterate over the records in the order `l` from now on; a list of other records is ignored. -/
def reorder [DecidableEq α] (t : Table key) (l : List α) : Table key :=
  if h : l.Perm t.toList then ⟨l, (h.map key).nodup_iff.2 t.nodup⟩ else t

@[simp] theorem mem_reorder [DecidableEq α] {l : List α} : a ∈ t.reorder l ↔ a ∈ t := by
  unfold reorder
  split_ifs with h
  · exact h.mem_iff
  · exact Iff.rfl

end Table
