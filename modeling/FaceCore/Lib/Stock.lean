import FaceCore.Lib.Table

/-!
# Stacks and plans

Stacks of units kept at places, at most one stack a place, and plans that spread the units of a
stack over several places.

* `Stock.put`: add units at a place, to the stack that lies there or as a new stack;
* `Plan`, `Plan.Within`: the units reserved so far and those still without a place, and what a
  search for places keeps;
* `Stock.Fits`, `Stock.store`: a plan for which there is room, and its execution, in which every
  stack but the last is a copy;
* `store_keeps`, `units_store`, `store_fits`: a plan that fits adds exactly its units, and no stack
  outgrows its size.
-/

/-- `count` units of `item` at `loc`. -/
structure Cell (L I : Type*) where
  loc : L
  item : I
  count : ℕ
  deriving DecidableEq

/-- The same stack with another number of units. -/
def Cell.withCount {L I : Type*} (n : ℕ) (c : Cell L I) : Cell L I := { c with count := n }

/-- Stacks at distinct places. -/
abbrev Stock (L I : Type*) := Table (Cell.loc (L := L) (I := I))

namespace Stock

variable {L I K : Type*} {s : Stock L I} {c : Cell L I} {l l' : L} {i j : I} {m n : ℕ}
  {p : I → Bool}

/-! ### Units -/

/-- The units that a stack contributes to those of the items with `p`. -/
def unitsOf (p : I → Bool) (c : Cell L I) : ℕ := if p c.item then c.count else 0

/-- The units of the items with `p`. -/
def units (p : I → Bool) (s : Stock L I) : ℕ := (s.toList.map (unitsOf p)).sum

/-- Every stack has a unit and is no larger than its kind allows. -/
def Bounded (kind : I → K) (max : K → ℕ) (s : Stock L I) : Prop :=
  ∀ c ∈ s, 0 < c.count ∧ c.count ≤ max (kind c.item)

variable [DecidableEq L]

/-- Change the number of units of the stack at a place. -/
def setCount (s : Stock L I) (l : L) (n : ℕ) : Stock L I :=
  s.modify l (Cell.withCount n) fun _ => rfl

/-- Add `n` units at a place: to the stack there, or as a stack of `i`. -/
def put (s : Stock L I) (l : L) (i : I) (n : ℕ) : Stock L I :=
  match s.find l with
  | none => s.insert ⟨l, i, n⟩
  | some c => s.setCount l (c.count + n)

theorem find_setCount : (s.setCount l n).find l' =
    if l' = l then (s.find l).map (Cell.withCount n) else s.find l' :=
  Table.find_modify (f := Cell.withCount n) fun _ => rfl

theorem find_put : (s.put l i n).find l' =
    if l' = l then
      some (match s.find l with
        | none => ⟨l, i, n⟩
        | some c => c.withCount (c.count + n))
    else s.find l' := by
  unfold put
  cases h : s.find l with
  | none => exact Table.find_insert
  | some c =>
    rw [find_setCount, h]
    rfl

theorem find_put_of_ne (h : l' ≠ l) : (s.put l i n).find l' = s.find l' := by
  rw [find_put, if_neg h]

theorem units_erase (h : s.find l = some c) :
    units p (s.erase l) + unitsOf p c = units p s :=
  Table.sum_erase h (unitsOf p)

theorem units_setCount (h : s.find l = some c) :
    units p (s.setCount l n) + unitsOf p c = units p s + unitsOf p (c.withCount n) :=
  Table.sum_modify (f := Cell.withCount n) (fun _ => rfl) h (unitsOf p)

theorem units_take (h : s.find l = some c) (hn : n ≤ c.count) :
    units p (s.setCount l (c.count - n)) + (if p c.item then n else 0) = units p s := by
  have hset := units_setCount (p := p) (n := c.count - n) h
  unfold unitsOf Cell.withCount at hset
  by_cases hp : p c.item = true
  · simp only [hp, if_true] at hset ⊢
    omega
  · simp only [hp, Bool.false_eq_true, if_false] at hset ⊢
    exact hset

/-- Units put at a place are added to those of the stock. -/
theorem units_put (h : ∀ c, s.find l = some c → p c.item = p i) :
    units p (s.put l i n) = units p s + if p i then n else 0 := by
  unfold put
  cases hl : s.find l with
  | none =>
    unfold units
    rw [Table.toList_insert hl, List.map_cons, List.sum_cons, Nat.add_comm]
    rfl
  | some c =>
    have hset := units_setCount (p := p) (n := c.count + n) hl
    have hpc := h c hl
    unfold unitsOf Cell.withCount at hset
    by_cases hi : p i = true
    · simp only [hpc, hi, if_true] at hset ⊢
      omega
    · simp only [hpc, hi, Bool.false_eq_true, if_false] at hset ⊢
      omega

theorem Bounded.erase {kind : I → K} {max : K → ℕ} (h : Bounded kind max s) (l : L) :
    Bounded kind max (s.erase l) :=
  fun c hc => h c (Table.mem_erase.1 hc).1

theorem Bounded.of_find {kind : I → K} {max : K → ℕ} (h : Bounded kind max s)
    (hc : s.find l = some c) : 0 < c.count ∧ c.count ≤ max (kind c.item) :=
  h c (Table.of_find hc).1

theorem Bounded.setCount {kind : I → K} {max : K → ℕ} (h : Bounded kind max s)
    (hn : ∀ c, s.find l = some c → 0 < n ∧ n ≤ max (kind c.item)) :
    Bounded kind max (s.setCount l n) := by
  refine (Table.forall_mem_modify (f := Cell.withCount n) fun _ => rfl).2 fun c hc => ?_
  split_ifs with hl
  · exact hn c (hl ▸ Table.find_key hc)
  · exact h c hc

/-! ### Identities -/

/-- The items are told apart by `id`, and no `id` from `next` on is in use. -/
structure Fresh (id : I → ℕ) (next : ℕ) (s : Stock L I) : Prop where
  nodup : (s.toList.map fun c => id c.item).Nodup
  lt : ∀ c ∈ s, id c.item < next

omit [DecidableEq L] in
theorem Fresh.eq_of_id {id : I → ℕ} {c' : Cell L I} (h : Fresh id m s) (hc : c ∈ s) (hc' : c' ∈ s)
    (hid : id c.item = id c'.item) : c = c' :=
  List.inj_on_of_nodup_map h.nodup hc hc' hid

theorem Fresh.erase {id : I → ℕ} (h : Fresh id m s) (l : L) : Fresh id m (s.erase l) where
  nodup := h.nodup.sublist (List.filter_sublist.map _)
  lt c hc := h.lt c (Table.mem_erase.1 hc).1

omit [DecidableEq L] in
theorem Fresh.mono {id : I → ℕ} (h : Fresh id m s) (hmn : m ≤ n) : Fresh id n s :=
  ⟨h.nodup, fun c hc => lt_of_lt_of_le (h.lt c hc) hmn⟩

/-- `s₀` is `s` without the item called `g`. -/
def Without (id : I → ℕ) (g : ℕ) (s s₀ : Stock L I) : Prop :=
  ∀ l, s₀.find l = (s.find l).filter fun c => id c.item ≠ g

theorem Without.ne {id : I → ℕ} {g : ℕ} {s₀ : Stock L I} (h : Without id g s s₀) (hc : c ∈ s₀) :
    id c.item ≠ g := by
  have hfind := h c.loc
  rw [Table.find_key hc] at hfind
  exact of_decide_eq_true (Option.filter_eq_some_iff.1 hfind.symm).2

theorem Without.subset {id : I → ℕ} {g : ℕ} {s₀ : Stock L I} (h : Without id g s s₀)
    (hc : c ∈ s₀) : c ∈ s := by
  have hfind := h c.loc
  rw [Table.find_key hc] at hfind
  exact (Table.of_find (Option.filter_eq_some_iff.1 hfind.symm).1).1

theorem without_erase {id : I → ℕ} (hd : Fresh id m s) (hl : s.find l = some c) :
    Without id (id c.item) s (s.erase l) := by
  intro l'
  rw [Table.find_erase]
  split_ifs with h
  · rw [h, hl, Option.filter_some, if_neg]
    simp
  · cases hl' : s.find l' with
    | none => rfl
    | some c' =>
      have hne : id c'.item ≠ id c.item := by
        intro hid
        have hcc := hd.eq_of_id (Table.of_find hl').1 (Table.of_find hl).1 hid
        rw [← (Table.of_find hl').2, ← (Table.of_find hl).2, hcc] at h
        exact h rfl
      rw [Option.filter_some, if_pos (decide_eq_true hne)]

theorem without_of_forall_ne {id : I → ℕ} {g : ℕ} (h : ∀ c ∈ s, id c.item ≠ g) :
    Without id g s s := by
  intro l
  cases hl : s.find l with
  | none => rfl
  | some c => rw [Option.filter_some, if_pos (decide_eq_true (h c (Table.of_find hl).1))]

theorem forall_item_setCount {P : I → Prop} :
    (∀ c ∈ s.setCount l n, P c.item) ↔ ∀ c ∈ s, P c.item := by
  refine (Table.forall_mem_modify (f := Cell.withCount n) fun _ => rfl).trans ?_
  refine forall₂_congr fun c _ => ?_
  split_ifs <;> rfl

theorem map_id_setCount (id : I → ℕ) :
    ((s.setCount l n).toList.map fun c => id c.item) = s.toList.map fun c => id c.item := by
  unfold setCount Table.modify
  rw [List.map_map]
  refine List.map_congr_left fun c _ => ?_
  rw [Function.comp_apply]
  split_ifs <;> rfl

theorem Fresh.setCount {id : I → ℕ} (h : Fresh id m s) : Fresh id m (s.setCount l n) where
  nodup := by
    rw [map_id_setCount]
    exact h.nodup
  lt := (forall_item_setCount (P := fun j => id j < m)).2 h.lt

theorem Fresh.put {id : I → ℕ} (h : Fresh id m s) (hi : ∀ c ∈ s, id c.item ≠ id i)
    (him : id i < m) : Fresh id m (s.put l i n) := by
  unfold Stock.put
  cases hl : s.find l with
  | some c => exact h.setCount
  | none =>
    constructor
    · rw [Table.toList_insert hl, List.map_cons, List.nodup_cons]
      refine ⟨fun hmem => ?_, h.nodup⟩
      obtain ⟨c, hc, hid⟩ := List.mem_map.1 hmem
      exact hi c hc hid
    · intro c hc
      rcases Table.mem_insert.1 hc with rfl | ⟨hc, _⟩
      · exact him
      · exact h.lt c hc

/-! ### Plans -/

end Stock

/-- A search for places: the units reserved, in the order of the search, and how many are still
without a place. -/
structure Plan (P : Type*) where
  dest : List (P × ℕ)
  count : ℕ

namespace Plan

variable {P : Type*} {plan : Plan P} {pos : P} {need n : ℕ} {room : P → ℕ → Prop}

/-- Reserve at most `need` units at a place. -/
def push (plan : Plan P) (pos : P) (need : ℕ) : Plan P where
  dest := plan.dest ++ [(pos, min need plan.count)]
  count := plan.count - min need plan.count

/-- Reserve at most `need` units at a place, unless some are reserved there already. -/
def reserve [DecidableEq P] (plan : Plan P) (pos : P) (need : ℕ) : Plan P :=
  if pos ∈ plan.dest.map Prod.fst then plan else plan.push pos need

@[simp] theorem reserve_start [DecidableEq P] (pos : P) (need n : ℕ) :
    (Plan.mk [] n).reserve pos need = ⟨[(pos, min need n)], n - min need n⟩ := rfl

/-- Of the `n` units, some are reserved at distinct places where there is room for them. -/
structure Within (room : P → ℕ → Prop) (n : ℕ) (plan : Plan P) : Prop where
  nodup : (plan.dest.map Prod.fst).Nodup
  room : ∀ q ∈ plan.dest, room q.1 q.2
  total : (plan.dest.map Prod.snd).sum + plan.count = n

theorem within_start : Within room n ⟨[], n⟩ :=
  ⟨List.nodup_nil, fun _ hq => absurd hq List.not_mem_nil, Nat.zero_add n⟩

theorem Within.push (h : Within room n plan) (hpos : pos ∉ plan.dest.map Prod.fst)
    (hroom : room pos (min need plan.count)) : Within room n (plan.push pos need) where
  nodup := by
    rw [Plan.push, List.map_append, List.nodup_append]
    refine ⟨h.nodup, List.nodup_singleton _, fun a ha b hb hab => ?_⟩
    rw [List.map_singleton, List.mem_singleton] at hb
    subst hab hb
    exact hpos ha
  room q hq := by
    rcases List.mem_append.1 hq with hq | hq
    · exact h.room q hq
    · rw [List.mem_singleton.1 hq]
      exact hroom
  total := by
    have htotal := h.total
    simp only [Plan.push, List.map_append, List.map_singleton, List.sum_append,
      List.sum_singleton]
    omega

theorem Within.reserve [DecidableEq P] (h : Within room n plan)
    (hroom : room pos (min need plan.count)) : Within room n (plan.reserve pos need) := by
  unfold Plan.reserve
  split_ifs with hmem
  · exact h
  · exact h.push hmem hroom

end Plan

namespace Stock

variable {L I K : Type*} [DecidableEq L] {s : Stock L I} {c : Cell L I} {l l' : L} {i j : I}
  {m n : ℕ} {p : I → Bool} {kind : I → K} {max : K → ℕ} {dest : List (L × ℕ)} {q : L × ℕ}

/-- There is room for `n` units of `i` at `l`. -/
def Room (kind : I → K) (max : K → ℕ) (s : Stock L I) (i : I) (l : L) (n : ℕ) : Prop :=
  0 < n ∧ n ≤ max (kind i) ∧
    ∀ c, s.find l = some c → kind c.item = kind i ∧ c.count + n ≤ max (kind i)

/-- A plan for the units of `i`: distinct places, each with room. -/
structure Fits (kind : I → K) (max : K → ℕ) (s : Stock L I) (i : I) (dest : List (L × ℕ)) :
    Prop where
  nodup : (dest.map Prod.fst).Nodup
  room : ∀ q ∈ dest, Room kind max s i q.1 q.2

theorem fits_singleton (hfree : s.find l = none) (hn : 0 < n) (hle : n ≤ max (kind i)) :
    Fits kind max s i [(l, n)] := by
  refine ⟨List.nodup_singleton _, fun q hq => ?_⟩
  rw [List.mem_singleton.1 hq]
  refine ⟨hn, hle, fun c hc => ?_⟩
  rw [hfree] at hc
  cases hc

theorem Fits.setCount (h : Fits kind max s i dest) (hc : s.find l = some c) (hn : n ≤ c.count) :
    Fits kind max (s.setCount l n) i dest := by
  refine ⟨h.nodup, fun q hq => ?_⟩
  obtain ⟨hpos, hle, hroom⟩ := h.room q hq
  refine ⟨hpos, hle, fun c' hc' => ?_⟩
  rw [find_setCount] at hc'
  split_ifs at hc' with hl
  · rw [hc] at hc'
    obtain rfl := Option.some.inj hc'
    obtain ⟨hk, hsum⟩ := hroom c (hl ▸ hc)
    exact ⟨hk, Nat.le_trans (Nat.add_le_add_right hn q.2) hsum⟩
  · exact hroom c' hc'

/-- Execute a plan: the units go to the stacks at its places, or lie there as stacks of their own,
the last of which is `i` itself and the others copies. -/
def store (copy : ℕ → I) (i : I) : ℕ → Stock L I → List (L × ℕ) → ℕ × Stock L I
  | next, s, [] => (next, s)
  | next, s, q :: dest =>
    if dest.isEmpty then (next, s.put q.1 i q.2)
    else
      match s.find q.1 with
      | none => store copy i (next + 1) (s.put q.1 (copy next) q.2) dest
      | some _ => store copy i next (s.put q.1 i q.2) dest

theorem Room.congr_kind (h : Room kind max s i l n) (hk : kind j = kind i) :
    Room kind max s j l n := by
  unfold Room
  rw [hk]
  exact h

theorem bounded_put (h : Bounded kind max s) (hroom : Room kind max s i l n) :
    Bounded kind max (s.put l i n) := by
  unfold put
  cases hl : s.find l with
  | none =>
    intro c hc
    rcases Table.mem_insert.1 hc with rfl | ⟨hc, _⟩
    · exact ⟨hroom.1, hroom.2.1⟩
    · exact h c hc
  | some c =>
    refine h.setCount fun c' hc' => ?_
    obtain rfl : c = c' := Option.some.inj (hl.symm.trans hc')
    obtain ⟨hk, hle⟩ := hroom.2.2 c hl
    rw [hk]
    exact ⟨Nat.add_pos_right _ hroom.1, hle⟩

/-- No stack is larger than its kind allows. -/
def AtMost (kind : I → K) (max : K → ℕ) (s : Stock L I) : Prop :=
  ∀ c ∈ s, c.count ≤ max (kind c.item)

/-- A stack larger than its kind allows is one of those of `s₀`. -/
def NoneOutgrown (kind : I → K) (max : K → ℕ) (s₀ s : Stock L I) : Prop :=
  ∀ c ∈ s, c.count ≤ max (kind c.item) ∨ c ∈ s₀

omit [DecidableEq L] in
theorem NoneOutgrown.atMost {s₀ : Stock L I} (h : NoneOutgrown kind max s₀ s)
    (h₀ : AtMost kind max s₀) : AtMost kind max s :=
  fun c hc => (h c hc).elim id (h₀ c)

theorem NoneOutgrown.put {s₀ : Stock L I} (h : NoneOutgrown kind max s₀ s)
    (hroom : Room kind max s i l n) : NoneOutgrown kind max s₀ (s.put l i n) := by
  unfold Stock.put
  cases hl : s.find l with
  | none =>
    intro c hc
    rcases Table.mem_insert.1 hc with rfl | ⟨hc, _⟩
    · exact Or.inl hroom.2.1
    · exact h c hc
  | some c =>
    obtain ⟨hk, hle⟩ := hroom.2.2 c hl
    refine (Table.forall_mem_modify (f := Cell.withCount (c.count + n)) fun _ => rfl).2 ?_
    intro c' hc'
    split_ifs with hl'
    · obtain rfl : c = c' := Option.some.inj (hl.symm.trans (hl' ▸ Table.find_key hc'))
      exact Or.inl (le_of_le_of_eq hle (congrArg max hk.symm))
    · exact h c' hc'

theorem Fits.tail (h : Fits kind max s i (q :: dest)) (j : I) :
    Fits kind max (s.put q.1 j q.2) i dest := by
  have hnodup := List.nodup_cons.1 h.nodup
  refine ⟨hnodup.2, fun r hr => ?_⟩
  have hne : r.1 ≠ q.1 := fun hrq => hnodup.1 (hrq ▸ List.mem_map_of_mem hr)
  obtain ⟨hpos, hle, hroom⟩ := h.room r (List.mem_cons_of_mem q hr)
  refine ⟨hpos, hle, fun c hc => hroom c ?_⟩
  rwa [find_put_of_ne hne] at hc

theorem Fits.head (h : Fits kind max s i (q :: dest)) : Room kind max s i q.1 q.2 :=
  h.room q List.mem_cons_self

/-- The induction over the places of a plan: what holds of the stock and is kept at every place
holds when the plan is done. -/
theorem store_induction (copy : ℕ → I) (i : I) (next : ℕ) (s : Stock L I) (dest : List (L × ℕ))
    (P : ℕ → Stock L I → List (L × ℕ) → Prop)
    (hput : ∀ next s q dest, dest = [] ∨ s.find q.1 ≠ none → P next s (q :: dest) →
      P next (s.put q.1 i q.2) dest)
    (hcopy : ∀ next s q dest, s.find q.1 = none → P next s (q :: dest) →
      P (next + 1) (s.put q.1 (copy next) q.2) dest)
    (h : P next s dest) :
    P (store copy i next s dest).1 (store copy i next s dest).2 [] := by
  induction dest generalizing next s with
  | nil => exact h
  | cons q dest ih =>
    unfold store
    split_ifs with hd
    · rw [List.isEmpty_iff] at hd
      subst hd
      exact hput next s q [] (Or.inl rfl) h
    · cases hl : s.find q.1 with
      | none => exact ih _ _ (hcopy next s q dest hl h)
      | some c => exact ih _ _ (hput next s q dest (Or.inr (by rw [hl]; nofun)) h)

/-- What is kept wherever units are put for which there is room, is kept by a plan that fits. -/
theorem store_keeps {Q : Stock L I → Prop} (copy : ℕ → I) (next : ℕ)
    (hfits : Fits kind max s i dest) (hcopy : ∀ g, kind (copy g) = kind i)
    (hQ : ∀ t l j n, kind j = kind i → Room kind max t j l n → Q t → Q (t.put l j n)) (hs : Q s) :
    Q (store copy i next s dest).2 := by
  let P : ℕ → Stock L I → List (L × ℕ) → Prop := fun _ t rest => Fits kind max t i rest ∧ Q t
  have hput : ∀ (t : Stock L I) (q : L × ℕ) (rest : List (L × ℕ)) (j : I), kind j = kind i →
      P next t (q :: rest) → P next (t.put q.1 j q.2) rest := by
    rintro t q rest j hj ⟨hf, ht⟩
    exact ⟨hf.tail j, hQ t q.1 j q.2 hj (hf.head.congr_kind hj) ht⟩
  exact (store_induction copy i next s dest P
    (fun _ t q rest _ h => hput t q rest i rfl h)
    (fun g t q rest _ h => hput t q rest (copy g) (hcopy g) h) ⟨hfits, hs⟩).2

/-- Executing a plan that fits adds its units to those of the stock. -/
theorem units_store (copy : ℕ → I) (next : ℕ) (hfits : Fits kind max s i dest)
    (hcopy : ∀ g, kind (copy g) = kind i) (hp : ∀ j, kind j = kind i → p j = p i) :
    units p (store copy i next s dest).2 =
      units p s + if p i then (dest.map Prod.snd).sum else 0 := by
  let P : ℕ → Stock L I → List (L × ℕ) → Prop := fun _ t rest =>
    Fits kind max t i rest ∧
      units p t + (if p i then (rest.map Prod.snd).sum else 0) =
        units p s + (if p i then (dest.map Prod.snd).sum else 0)
  have hput : ∀ (t : Stock L I) (q : L × ℕ) (rest : List (L × ℕ)) (j : I), kind j = kind i →
      P next t (q :: rest) → P next (t.put q.1 j q.2) rest := by
    rintro t q rest j hj ⟨hf, hu⟩
    refine ⟨hf.tail j, ?_⟩
    have hunits : units p (t.put q.1 j q.2) = units p t + if p j then q.2 else 0 :=
      units_put fun c hc => by rw [hp _ (hf.head.2.2 c hc).1, hp j hj]
    rw [hunits, ← hu, hp j hj]
    by_cases hi : p i = true
    · simp only [hi, if_true, List.map_cons, List.sum_cons]
      omega
    · simp only [hi, Bool.false_eq_true, if_false, Nat.add_zero]
  have hdone := store_induction copy i next s dest P
    (fun _ t q rest _ h => hput t q rest i rfl h)
    (fun g t q rest _ h => hput t q rest (copy g) (hcopy g) h) ⟨hfits, rfl⟩
  have hu := hdone.2
  simpa using hu

/-- **Main result.** Executing a plan that fits adds its units to those of the stock and keeps every
stack within its size. -/
theorem store_fits (copy : ℕ → I) (next : ℕ) (hfits : Fits kind max s i dest)
    (hb : Bounded kind max s) (hcopy : ∀ g, kind (copy g) = kind i)
    (hp : ∀ j, kind j = kind i → p j = p i) :
    units p (store copy i next s dest).2 =
        units p s + (if p i then (dest.map Prod.snd).sum else 0) ∧
      Bounded kind max (store copy i next s dest).2 :=
  ⟨units_store copy next hfits hcopy hp,
    store_keeps copy next hfits hcopy (fun _ _ _ _ _ hroom ht => bounded_put ht hroom) hb⟩

/-- An item outside the stock may be stored by a plan: the items stay apart. -/
theorem Fresh.store {id : I → ℕ} {next : ℕ} (copy : ℕ → I) (dest : List (L × ℕ))
    (h : Fresh id next s) (hi : ∀ c ∈ s, id c.item ≠ id i) (hlt : id i < next) (hcopy : ∀ g, id (copy g) = g) :
    Fresh id (store copy i next s dest).1 (store copy i next s dest).2 ∧
      next ≤ (store copy i next s dest).1 := by
  let P : ℕ → Stock L I → List (L × ℕ) → Prop := fun g t rest =>
    Fresh id g t ∧ next ≤ g ∧ (rest ≠ [] → ∀ c ∈ t, id c.item ≠ id i)
  have hput : ∀ (g : ℕ) (t : Stock L I) (q : L × ℕ) (rest : List (L × ℕ)),
      rest = [] ∨ t.find q.1 ≠ none → P g t (q :: rest) → P g (t.put q.1 i q.2) rest := by
    rintro g t q rest hcase ⟨hf, hg, hne⟩
    have hi' := hne (List.cons_ne_nil _ _)
    refine ⟨hf.put hi' (lt_of_lt_of_le hlt hg), hg, fun hrest => ?_⟩
    cases hl : t.find q.1 with
    | none => exact absurd hl (hcase.resolve_left hrest)
    | some c =>
      simp only [Stock.put, hl]
      exact (forall_item_setCount (P := fun j => id j ≠ id i)).2 hi'
  have hnew : ∀ (g : ℕ) (t : Stock L I) (q : L × ℕ) (rest : List (L × ℕ)), t.find q.1 = none →
      P g t (q :: rest) → P (g + 1) (t.put q.1 (copy g) q.2) rest := by
    rintro g t q rest hl ⟨hf, hg, hne⟩
    have hi' := hne (List.cons_ne_nil _ _)
    have hcg : ∀ c ∈ t, id c.item ≠ id (copy g) := by
      intro c hc
      rw [hcopy]
      exact Nat.ne_of_lt (hf.lt c hc)
    refine ⟨(hf.mono g.le_succ).put hcg ?_, Nat.le_trans hg g.le_succ, fun _ c hc => ?_⟩
    · rw [hcopy]
      exact g.lt_succ_self
    · simp only [Stock.put, hl] at hc
      rcases Table.mem_insert.1 hc with rfl | ⟨hc, _⟩
      · rw [hcopy]
        exact Nat.ne_of_gt (lt_of_lt_of_le hlt hg)
      · exact hi' c hc
  have hdone := store_induction copy i next s dest P hput hnew ⟨h, le_refl next, fun _ => hi⟩
  exact ⟨hdone.1, hdone.2.1⟩

/-- The items after a plan are those before it, the stored one and copies. -/
theorem id_store {id : I → ℕ} {copy : ℕ → I} {next : ℕ} (hcopy : ∀ g, id (copy g) = g)
    (hc : c ∈ (store copy i next s dest).2) :
    (∃ c' ∈ s, id c'.item = id c.item) ∨ id c.item = id i ∨ next ≤ id c.item := by
  let P : ℕ → Stock L I → List (L × ℕ) → Prop := fun g t _ =>
    next ≤ g ∧ ∀ c ∈ t, (∃ c' ∈ s, id c'.item = id c.item) ∨ id c.item = id i ∨ next ≤ id c.item
  have hput : ∀ (t : Stock L I) (q : L × ℕ) (j : I), id j = id i ∨ next ≤ id j →
      (∀ c ∈ t, (∃ c' ∈ s, id c'.item = id c.item) ∨ id c.item = id i ∨ next ≤ id c.item) →
      ∀ c ∈ t.put q.1 j q.2,
        (∃ c' ∈ s, id c'.item = id c.item) ∨ id c.item = id i ∨ next ≤ id c.item := by
    intro t q j hj ht
    unfold Stock.put
    cases hl : t.find q.1 with
    | none =>
      intro c hc
      rcases Table.mem_insert.1 hc with rfl | ⟨hc, _⟩
      · exact Or.inr hj
      · exact ht c hc
    | some c =>
      exact (forall_item_setCount
        (P := fun j => (∃ c' ∈ s, id c'.item = id j) ∨ id j = id i ∨ next ≤ id j)).2 ht
  have hdone := store_induction copy i next s dest P
    (fun g t q rest _ h => ⟨h.1, hput t q i (Or.inl rfl) h.2⟩)
    (fun g t q rest _ h => ⟨Nat.le_succ_of_le h.1,
      hput t q (copy g) (Or.inr (by rw [hcopy]; exact h.1)) h.2⟩)
    ⟨le_refl next, fun c hc => Or.inl ⟨c, hc, rfl⟩⟩
  exact hdone.2 c hc

theorem find_store {copy : ℕ → I} {next : ℕ} (h : l ∉ dest.map Prod.fst) :
    (store copy i next s dest).2.find l = s.find l := by
  let P : ℕ → Stock L I → List (L × ℕ) → Prop := fun _ t rest =>
    l ∉ rest.map Prod.fst ∧ t.find l = s.find l
  have hput : ∀ (t : Stock L I) (q : L × ℕ) (rest : List (L × ℕ)) (j : I),
      P next t (q :: rest) → P next (t.put q.1 j q.2) rest := by
    rintro t q rest j ⟨hl, ht⟩
    rw [List.map_cons, List.mem_cons, not_or] at hl
    exact ⟨hl.2, (find_put_of_ne hl.1).trans ht⟩
  exact (store_induction copy i next s dest P (fun _ t q rest _ => hput t q rest i)
    (fun g t q rest _ => hput t q rest (copy g))
    ⟨h, rfl⟩).2

/-- What lies at a place of a plan afterwards. -/
theorem find_store_of_mem (copy : ℕ → I) (i : I) (next : ℕ) (s : Stock L I)
    (hd : (dest.map Prod.fst).Nodup) (h : (l, n) ∈ dest) :
    ∃ j, (j = i ∨ ∃ g, j = copy g) ∧ (store copy i next s dest).2.find l =
      some (match s.find l with
        | none => ⟨l, j, n⟩
        | some c => c.withCount (c.count + n)) := by
  let Done : Stock L I → Prop := fun t => ∃ j, (j = i ∨ ∃ g, j = copy g) ∧ t.find l =
    some (match s.find l with
      | none => ⟨l, j, n⟩
      | some c => c.withCount (c.count + n))
  let P : ℕ → Stock L I → List (L × ℕ) → Prop := fun _ t rest => (rest.map Prod.fst).Nodup ∧
    ((l, n) ∈ rest ∧ t.find l = s.find l ∨ l ∉ rest.map Prod.fst ∧ Done t)
  have hput : ∀ (t : Stock L I) (q : L × ℕ) (rest : List (L × ℕ)) (j : I), (j = i ∨ ∃ g, j = copy g) →
      P next t (q :: rest) → P next (t.put q.1 j q.2) rest := by
    rintro t q rest j hj ⟨hnodup, hcase⟩
    obtain ⟨hq, hnodup⟩ := List.nodup_cons.1 hnodup
    refine ⟨hnodup, ?_⟩
    rcases hcase with ⟨hmem, ht⟩ | ⟨hout, ht⟩
    · rcases List.mem_cons.1 hmem with rfl | hmem
      · exact Or.inr ⟨hq, j, hj, by rw [find_put, if_pos rfl, ht]⟩
      · have hne : l ≠ q.1 := fun heq => hq (heq ▸ List.mem_map_of_mem hmem)
        exact Or.inl ⟨hmem, (find_put_of_ne hne).trans ht⟩
    · rw [List.map_cons, List.mem_cons, not_or] at hout
      obtain ⟨j', hj', hfind⟩ := ht
      exact Or.inr ⟨hout.2, j', hj', (find_put_of_ne hout.1).trans hfind⟩
  have hdone := (store_induction copy i next s dest P
    (fun _ t q rest _ => hput t q rest i (Or.inl rfl))
    (fun g t q rest _ => hput t q rest (copy g) (Or.inr ⟨g, rfl⟩)) ⟨hd, Or.inl ⟨h, rfl⟩⟩).2
  rcases hdone with ⟨hnil, -⟩ | ⟨-, hdone⟩
  · exact absurd hnil List.not_mem_nil
  · exact hdone

end Stock
