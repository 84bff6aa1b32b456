import Mathlib.Data.Finset.Card
import Mathlib.Data.List.Basic
import Mathlib.Order.Lattice
import Mathlib.Tactic.SplitIfs

/-!
# Sorted maps

A finite map as the list of its entries in the order of their keys, as an ordered container of a
program keeps it. `count p m` is the number of entries whose value satisfies `p`; `count_insert`
and `count_erase` say how it changes, which is what a tally that is kept beside the map has to
follow.
-/

/-- A map from `κ` to `α`, sorted by its keys. -/
structure SortedMap (κ α : Type*) [LinearOrder κ] where
  entries : List (κ × α)
  sorted : entries.Pairwise fun a b => a.1 < b.1

namespace SortedMap

variable {κ α : Type*} [LinearOrder κ]

/-- The map without entries. -/
def empty : SortedMap κ α := ⟨[], List.Pairwise.nil⟩

/-- The value of a key. -/
def find (m : SortedMap κ α) (k : κ) : Option α := m.entries.lookup k

/-- Insertion into the list of entries; the value of a key that is present is replaced. -/
def insertEntry (k : κ) (v : α) : List (κ × α) → List (κ × α)
  | [] => [(k, v)]
  | e :: es =>
    if k < e.1 then (k, v) :: e :: es
    else if k = e.1 then (k, v) :: es
    else e :: insertEntry k v es

theorem mem_insertEntry {k : κ} {v : α} {es : List (κ × α)} {e : κ × α}
    (h : e ∈ insertEntry k v es) : e = (k, v) ∨ e ∈ es := by
  induction es with
  | nil => simpa [insertEntry] using h
  | cons x es ih =>
    rw [insertEntry] at h
    split_ifs at h
    · simpa using h
    · rcases List.mem_cons.1 h with h | h
      · exact .inl h
      · exact .inr (List.mem_cons_of_mem _ h)
    · rcases List.mem_cons.1 h with rfl | h
      · exact .inr List.mem_cons_self
      · exact (ih h).imp_right (List.mem_cons_of_mem _)

theorem sorted_insertEntry {k : κ} {v : α} {es : List (κ × α)}
    (h : es.Pairwise fun a b => a.1 < b.1) :
    (insertEntry k v es).Pairwise fun a b => a.1 < b.1 := by
  induction es with
  | nil => simp [insertEntry]
  | cons x es ih =>
    obtain ⟨hx, hes⟩ := List.pairwise_cons.1 h
    rw [insertEntry]
    split_ifs with hlt heq
    · refine List.pairwise_cons.2 ⟨fun e he => ?_, h⟩
      rcases List.mem_cons.1 he with rfl | he
      · exact hlt
      · exact lt_trans hlt (hx e he)
    · exact List.pairwise_cons.2 ⟨fun e he => heq ▸ hx e he, hes⟩
    · refine List.pairwise_cons.2 ⟨fun e he => ?_, ih hes⟩
      rcases mem_insertEntry he with rfl | he
      · exact lt_of_le_of_ne (not_lt.1 hlt) (Ne.symm heq)
      · exact hx e he

/-- Set the value of a key. -/
def insert (m : SortedMap κ α) (k : κ) (v : α) : SortedMap κ α :=
  ⟨insertEntry k v m.entries, sorted_insertEntry m.sorted⟩

/-- Remove a key. -/
def erase (m : SortedMap κ α) (k : κ) : SortedMap κ α :=
  ⟨m.entries.filter (·.1 ≠ k), m.sorted.filter _⟩

/-- Change the values, each with a look at its key. -/
def mapEntries {β : Type*} (m : SortedMap κ α) (f : κ → α → β) : SortedMap κ β :=
  ⟨m.entries.map fun e => (e.1, f e.1 e.2), m.sorted.map _ fun _ _ h => h⟩

/-- Keep some of the keys. -/
def filterKeys (m : SortedMap κ α) (p : κ → Bool) : SortedMap κ α :=
  ⟨m.entries.filter fun e => p e.1, m.sorted.filter _⟩

/-- The number of entries whose value satisfies `p`. -/
def count (p : α → Bool) (m : SortedMap κ α) : ℕ := m.entries.countP fun e => p e.2

/-- How much the entry of `k` contributes to `count p`. -/
def share (p : α → Bool) (m : SortedMap κ α) (k : κ) : ℕ :=
  match m.find k with
  | some v => (p v).toNat
  | none => 0

theorem lookup_eq_none_of_lt {k : κ} {es : List (κ × α)} (h : ∀ e ∈ es, k < e.1) :
    es.lookup k = none := by
  rw [List.lookup_eq_none_iff]
  intro e he
  simpa using ne_of_lt (h e he)

theorem find_insert_ne {m : SortedMap κ α} {k k' : κ} {v : α} (h : k' ≠ k) :
    (m.insert k v).find k' = m.find k' := by
  have key : ∀ es : List (κ × α), (insertEntry k v es).lookup k' = es.lookup k' := by
    intro es
    induction es with
    | nil => simp [insertEntry, List.lookup_cons, beq_false_of_ne h]
    | cons x es ih =>
      rw [insertEntry]
      split_ifs with hlt heq
      · rw [List.lookup_cons, beq_false_of_ne h]
      · obtain ⟨xk, xv⟩ := x
        obtain rfl : k = xk := heq
        rw [List.lookup_cons, List.lookup_cons, beq_false_of_ne h]
      · obtain ⟨xk, xv⟩ := x
        rw [List.lookup_cons, List.lookup_cons, ih]
  exact key m.entries

theorem find_insert_self {m : SortedMap κ α} {k : κ} {v : α} : (m.insert k v).find k = some v := by
  have key : ∀ es : List (κ × α), (insertEntry k v es).lookup k = some v := by
    intro es
    induction es with
    | nil => exact List.lookup_cons_self
    | cons x es ih =>
      rw [insertEntry]
      split_ifs with hlt heq
      · exact List.lookup_cons_self
      · exact List.lookup_cons_self
      · obtain ⟨xk, xv⟩ := x
        rw [List.lookup_cons, beq_false_of_ne heq, ih]
  exact key m.entries

theorem find_insert {m : SortedMap κ α} {k k' : κ} {v : α} :
    (m.insert k v).find k' = if k' = k then some v else m.find k' := by
  split_ifs with h
  · rw [h, find_insert_self]
  · exact find_insert_ne h

theorem find_erase {m : SortedMap κ α} {k k' : κ} :
    (m.erase k).find k' = if k' = k then none else m.find k' := by
  have key : ∀ es : List (κ × α), (es.filter (·.1 ≠ k)).lookup k' =
      if k' = k then none else es.lookup k' := by
    intro es
    induction es with
    | nil => simp
    | cons x es ih =>
      obtain ⟨xk, xv⟩ := x
      by_cases hx : xk = k
      · rw [List.filter_cons_of_neg (by simp [hx]), ih]
        split_ifs with hk
        · rfl
        · rw [List.lookup_cons, beq_false_of_ne fun heq => hk (heq.trans hx)]
      · rw [List.filter_cons_of_pos (by simp [hx]), List.lookup_cons, List.lookup_cons, ih]
        split_ifs with hk
        · rw [beq_false_of_ne fun heq => hx (heq.symm.trans hk)]
        · rfl
  exact key m.entries

theorem find_mapEntries {β : Type*} {m : SortedMap κ α} {f : κ → α → β} {k : κ} :
    (m.mapEntries f).find k = (m.find k).map (f k) := by
  have key : ∀ es : List (κ × α),
      (es.map fun e => (e.1, f e.1 e.2)).lookup k = (es.lookup k).map (f k) := by
    intro es
    induction es with
    | nil => rfl
    | cons x es ih =>
      obtain ⟨xk, xv⟩ := x
      rw [List.map_cons, List.lookup_cons, List.lookup_cons, ih]
      by_cases hx : k = xk
      · subst hx
        simp
      · simp [beq_false_of_ne hx]
  exact key m.entries

theorem find_mapEntries_eq_some {β : Type*} {m : SortedMap κ α} {f : κ → α → β} {k : κ} {v : β} :
    (m.mapEntries f).find k = some v ↔ ∃ u, m.find k = some u ∧ f k u = v := by
  rw [find_mapEntries, Option.map_eq_some_iff]

theorem find_filterKeys {m : SortedMap κ α} {p : κ → Bool} {k : κ} :
    (m.filterKeys p).find k = if p k then m.find k else none := by
  have key : ∀ es : List (κ × α),
      (es.filter fun e => p e.1).lookup k = if p k then es.lookup k else none := by
    intro es
    induction es with
    | nil => simp
    | cons x es ih =>
      obtain ⟨xk, xv⟩ := x
      rw [List.filter_cons, List.lookup_cons]
      by_cases hx : k = xk
      · subst hx
        cases hp : p k <;> simp [hp, ih]
      · cases hp : p xk <;> simp [ih, List.lookup_cons, beq_false_of_ne hx]
  exact key m.entries

theorem entries_insert_of_lt {m : SortedMap κ α} {k : κ} (v : α) (h : ∀ e ∈ m.entries, e.1 < k) :
    (m.insert k v).entries = m.entries ++ [(k, v)] := by
  have key : ∀ es : List (κ × α), (∀ e ∈ es, e.1 < k) → insertEntry k v es = es ++ [(k, v)] := by
    intro es hes
    induction es with
    | nil => rfl
    | cons x es ih =>
      obtain ⟨hx, hes⟩ := List.forall_mem_cons.1 hes
      rw [insertEntry, if_neg hx.not_gt, if_neg hx.ne', ih hes, List.cons_append]
  exact key m.entries h

theorem length_insert_le {m : SortedMap κ α} {k : κ} {v : α} :
    (m.insert k v).entries.length ≤ m.entries.length + 1 := by
  have key : ∀ es : List (κ × α), (insertEntry k v es).length ≤ es.length + 1 := by
    intro es
    induction es with
    | nil => exact le_rfl
    | cons x es ih =>
      rw [insertEntry]
      split_ifs
      · exact le_rfl
      · exact Nat.le_succ _
      · exact Nat.succ_le_succ ih
  exact key m.entries

theorem ext_entries {m m' : SortedMap κ α} (h : m.entries = m'.entries) : m = m' := by
  obtain ⟨es, hs⟩ := m
  obtain ⟨es', hs'⟩ := m'
  obtain rfl : es = es' := h
  rfl

/-- The entries of a map, put in one after the other behind all before, give the map again. -/
theorem foldl_entries {f : SortedMap κ α → κ × α → SortedMap κ α} (m : SortedMap κ α)
    (hf : ∀ (m : SortedMap κ α) e, (∀ x ∈ m.entries, x.1 < e.1) → f m e = m.insert e.1 e.2) :
    m.entries.foldl f .empty = m := by
  have key : ∀ es : List (κ × α), es.Pairwise (fun a b => a.1 < b.1) →
      (es.foldl f .empty).entries = es := by
    intro es hes
    induction es using List.reverseRecOn with
    | nil => rfl
    | append_singleton es e ih =>
      obtain ⟨hes, -, hlt⟩ := List.pairwise_append.1 hes
      have hlast : ∀ x ∈ (es.foldl f .empty).entries, x.1 < e.1 := by
        rw [ih hes]
        exact fun x hx => hlt x hx e (List.mem_singleton_self e)
      rw [List.foldl_append, List.foldl_cons, List.foldl_nil, hf _ e hlast,
        entries_insert_of_lt e.2 hlast, ih hes]
  exact ext_entries (key m.entries m.sorted)

theorem find_of_head {m : SortedMap κ α} {e : κ × α} (h : m.entries.head? = some e) :
    m.find e.1 = some e.2 := by
  obtain ⟨es, hes⟩ := List.head?_eq_some_iff.1 h
  unfold find
  rw [hes, List.lookup_cons_self]

theorem entries_eq_nil {m : SortedMap κ α} : m.entries = [] ↔ ∀ k, m.find k = none := by
  constructor
  · intro h k
    unfold find
    rw [h]
    rfl
  · intro h
    cases hhead : m.entries.head? with
    | none => exact List.head?_eq_none_iff.1 hhead
    | some e =>
      have hfind := find_of_head hhead
      rw [h] at hfind
      cases hfind

/-- An insertion trades the share of the old entry for that of the new one. -/
theorem count_insert (p : α → Bool) (m : SortedMap κ α) (k : κ) (v : α) :
    (m.insert k v).count p + m.share p k = m.count p + (p v).toNat := by
  obtain ⟨es, hs⟩ := m
  unfold count share find insert
  dsimp only
  induction es with
  | nil => cases hv : p v <;> simp [insertEntry, hv]
  | cons x es ih =>
    obtain ⟨hx, hes⟩ := List.pairwise_cons.1 hs
    rw [insertEntry]
    split_ifs with hlt heq
    · have hnone : (x :: es).lookup k = none := lookup_eq_none_of_lt fun e he => by
        rcases List.mem_cons.1 he with rfl | he
        · exact hlt
        · exact lt_trans hlt (hx e he)
      rw [hnone]
      cases hv : p v <;> simp [List.countP_cons, hv]
    · subst heq
      rw [List.lookup_cons_self]
      cases hv : p v <;> cases hx2 : p x.2 <;> simp [hv, hx2]
    · have hne : (k == x.1) = false := beq_false_of_ne heq
      have hlook : (x :: es).lookup k = es.lookup k := by
        obtain ⟨xk, xv⟩ := x
        simp [List.lookup_cons, hne]
      rw [hlook, List.countP_cons, List.countP_cons]
      have := ih hes
      omega

/-- An erasure takes the share of the entry away. -/
theorem count_erase (p : α → Bool) (m : SortedMap κ α) (k : κ) :
    (m.erase k).count p + m.share p k = m.count p := by
  obtain ⟨es, hs⟩ := m
  unfold count share find erase
  dsimp only
  induction es with
  | nil => simp
  | cons x es ih =>
    obtain ⟨hx, hes⟩ := List.pairwise_cons.1 hs
    by_cases heq : k = x.1
    · have hkeep : es.filter (fun e => decide (e.1 ≠ k)) = es := by
        rw [List.filter_eq_self]
        intro e he
        simpa [heq] using ne_of_gt (hx e he)
      rw [List.filter_cons, if_neg (by simp [heq]), hkeep, heq, List.lookup_cons_self]
      cases hx2 : p x.2 <;> simp [hx2]
    · have hne : (k == x.1) = false := beq_false_of_ne heq
      have hlook : (x :: es).lookup k = es.lookup k := by
        obtain ⟨xk, xv⟩ := x
        simp [List.lookup_cons, hne]
      rw [List.filter_cons, if_pos (by simpa using Ne.symm heq), hlook, List.countP_cons,
        List.countP_cons]
      have := ih hes
      omega

theorem find_eq_some_mem {m : SortedMap κ α} {k : κ} {v : α} (h : m.find k = some v) :
    (k, v) ∈ m.entries := by
  obtain ⟨l₁, l₂, hl, -⟩ := List.lookup_eq_some_iff.1 h
  rw [hl]
  simp

theorem find_of_mem {m : SortedMap κ α} {e : κ × α} (h : e ∈ m.entries) :
    m.find e.1 = some e.2 := by
  obtain ⟨es, hs⟩ := m
  unfold find
  dsimp only at h ⊢
  induction es with
  | nil => cases h
  | cons x es ih =>
    obtain ⟨hx, hes⟩ := List.pairwise_cons.1 hs
    rcases List.mem_cons.1 h with rfl | h
    · exact List.lookup_cons_self
    · rw [List.lookup_cons, beq_false_of_ne (ne_of_gt (hx e h))]
      exact ih hes h

theorem find_eq_none_iff {m : SortedMap κ α} {k : κ} :
    m.find k = none ↔ ∀ e ∈ m.entries, e.1 ≠ k := by
  unfold find
  rw [List.lookup_eq_none_iff]
  refine forall₂_congr fun e _ => ?_
  rw [bne_iff_ne, ne_comm]

@[simp] theorem find_empty (k : κ) : (empty : SortedMap κ α).find k = none := rfl

theorem isSome_find_iff {m : SortedMap κ α} {k : κ} :
    (m.find k).isSome ↔ k ∈ m.entries.map Prod.fst := by
  rw [Option.isSome_iff_ne_none, Ne, find_eq_none_iff, List.mem_map]
  push Not
  rfl

theorem nodup_keys (m : SortedMap κ α) : (m.entries.map Prod.fst).Nodup :=
  (m.sorted.imp fun h => ne_of_lt h).map Prod.fst fun _ _ h => h

/-- The entries of one key. -/
theorem filter_key {m : SortedMap κ α} {k : κ} {v : α} (h : m.find k = some v) :
    (m.entries.filter fun e => e.1 = k) = [(k, v)] := by
  refine List.perm_singleton.1 ((List.perm_ext_iff_of_nodup ?_ (List.nodup_singleton _)).2 ?_)
  · exact (m.nodup_keys.of_map Prod.fst).filter _
  · intro e
    rw [List.mem_filter, decide_eq_true_eq, List.mem_singleton]
    constructor
    · rintro ⟨he, rfl⟩
      exact Prod.ext rfl (Option.some.inj ((find_of_mem he).symm.trans h))
    · rintro rfl
      exact ⟨find_eq_some_mem h, rfl⟩

/-- The entries that are counted, as a set of keys. -/
theorem count_eq_card {p : α → Bool} {m : SortedMap κ α} {s : Finset κ}
    (h : ∀ k, k ∈ s ↔ ∃ v, m.find k = some v ∧ p v = true) : m.count p = s.card := by
  have hs : s = ((m.entries.filter fun e => p e.2).map Prod.fst).toFinset := by
    ext k
    rw [h, List.mem_toFinset, List.mem_map]
    constructor
    · rintro ⟨v, hv, hp⟩
      exact ⟨(k, v), List.mem_filter.2 ⟨find_eq_some_mem hv, hp⟩, rfl⟩
    · rintro ⟨e, he, rfl⟩
      obtain ⟨hmem, hp⟩ := List.mem_filter.1 he
      exact ⟨e.2, find_of_mem hmem, hp⟩
  have hnodup : ((m.entries.filter fun e => p e.2).map Prod.fst).Nodup :=
    m.nodup_keys.sublist (List.filter_sublist.map Prod.fst)
  rw [hs, List.toFinset_card_of_nodup hnodup, List.length_map, count, List.countP_eq_length_filter]

end SortedMap
