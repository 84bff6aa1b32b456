import FaceCore.Lib.Stock

/-!
# Taking units from places in order

Units of some items are taken from a stock along a list of places: every stack is taken whole while
more units than it has are missing, and the last one in part.

* `stackAt`, `stackSizes`, `held`: what there is to be taken at the places;
* `drain`: what is left of the stock;
* `drain_keeps`: what is kept whenever a stack is taken or made smaller is kept by `drain`;
* `units_drain`, `drain_append`, `find_drain_of_lt`: the units that are taken, and from where.
-/

namespace Stock

variable {L I : Type*} [DecidableEq L] {s t : Stock L I} {c : Cell L I} {l : L} {ls ls' : List L}
  {p q : I → Bool} {n : ℕ}

/-- The stack at a place, if its item has `p`. -/
def stackAt (p : I → Bool) (s : Stock L I) (l : L) : Option (Cell L I) :=
  (s.find l).filter fun c => p c.item

/-- The numbers of units of the stacks at some places. -/
def stackSizes (p : I → Bool) (s : Stock L I) (ls : List L) : List ℕ :=
  ls.filterMap fun l => (s.stackAt p l).map Cell.count

/-- The units at some places. -/
def held (p : I → Bool) (s : Stock L I) (ls : List L) : ℕ := (stackSizes p s ls).sum

/-- Take `n` units along the places. -/
def drain (p : I → Bool) : List L → ℕ → Stock L I → Stock L I
  | [], _, s => s
  | l :: ls, n, s =>
    if n = 0 then s
    else
      match s.stackAt p l with
      | none => drain p ls n s
      | some c =>
        if c.count ≤ n then drain p ls (n - c.count) (s.erase l) else s.setCount l (c.count - n)

theorem stackAt_eq_some : s.stackAt p l = some c ↔ s.find l = some c ∧ p c.item = true :=
  Option.filter_eq_some_iff

theorem stackAt_congr (h : s.find l = t.find l) : s.stackAt p l = t.stackAt p l := by
  unfold stackAt
  rw [h]

theorem stackSizes_congr (h : ∀ l ∈ ls, s.find l = t.find l) : stackSizes p s ls = stackSizes p t ls :=
  List.filterMap_congr fun l hl => by rw [stackAt_congr (h l hl)]

theorem stackSizes_cons_of_none (h : s.stackAt p l = none) : stackSizes p s (l :: ls) = stackSizes p s ls := by
  simp [stackSizes, h]

theorem stackSizes_cons_of_some (h : s.stackAt p l = some c) :
    stackSizes p s (l :: ls) = c.count :: stackSizes p s ls := by
  simp [stackSizes, h]

theorem stackSizes_erase (h : l ∉ ls) : stackSizes p (s.erase l) ls = stackSizes p s ls := by
  refine stackSizes_congr fun l' hl' => ?_
  have hne : l' ≠ l := fun heq => h (heq ▸ hl')
  rw [Table.find_erase, if_neg hne]

theorem held_append : held p s (ls ++ ls') = held p s ls + held p s ls' := by
  unfold held stackSizes
  rw [List.filterMap_append, List.sum_append]

@[simp] theorem drain_zero : drain p ls 0 s = s := by
  cases ls with
  | nil => rfl
  | cons l ls => simp [drain]

/-- What is kept whenever a stack at one of the places is taken or made smaller is kept when units
are taken. -/
theorem drain_keeps {Q : Stock L I → Prop}
    (herase : ∀ t, ∀ l ∈ ls, ∀ c, t.stackAt p l = some c → Q t → Q (t.erase l))
    (htake : ∀ t, ∀ l ∈ ls, ∀ c m, t.stackAt p l = some c → m ≤ c.count → Q t →
      Q (t.setCount l m)) (hs : Q s) : Q (drain p ls n s) := by
  induction ls generalizing s n with
  | nil => exact hs
  | cons l ls ih =>
    have ih' := fun t n => ih (s := t) (n := n)
      (fun t l' hl' => herase t l' (List.mem_cons_of_mem l hl'))
      (fun t l' hl' => htake t l' (List.mem_cons_of_mem l hl'))
    unfold drain
    split_ifs with hn
    · exact hs
    · cases hstack : s.stackAt p l with
      | none => exact ih' s n hs
      | some c =>
        dsimp only
        split_ifs with hle
        · exact ih' _ _ (herase s l List.mem_cons_self c hstack hs)
        · exact htake s l List.mem_cons_self c _ hstack (Nat.sub_le _ _) hs

theorem find_drain_of_notMem (h : l ∉ ls) : (drain p ls n s).find l = s.find l := by
  refine drain_keeps (Q := fun t => t.find l = s.find l) (fun t l' hl' _ _ ht => ?_)
    (fun t l' hl' _ _ _ _ ht => ?_) rfl
  all_goals have hne : l ≠ l' := fun heq => h (heq ▸ hl')
  · rw [Table.find_erase, if_neg hne, ht]
  · rw [find_setCount, if_neg hne, ht]

theorem find_drain_of_none (h : s.stackAt p l = none) : (drain p ls n s).find l = s.find l := by
  have hne : ∀ t : Stock L I, ∀ l' c, t.stackAt p l' = some c → t.find l = s.find l → l ≠ l' := by
    rintro t l' c hc ht rfl
    rw [stackAt_congr ht, h] at hc
    cases hc
  refine drain_keeps (Q := fun t => t.find l = s.find l) (fun t l' _ c hc ht => ?_)
    (fun t l' _ c _ hc _ ht => ?_) rfl
  · rw [Table.find_erase, if_neg (hne t l' c hc ht), ht]
  · rw [find_setCount, if_neg (hne t l' c hc ht), ht]

theorem shrunk_drain (hc : c ∈ drain p ls n s) :
    ∃ c₀ ∈ s, c = c₀.withCount c.count ∧ c.count ≤ c₀.count := by
  refine drain_keeps (Q := fun t => ∀ c ∈ t, ∃ c₀ ∈ s, c = c₀.withCount c.count ∧
    c.count ≤ c₀.count) (fun t l _ _ _ ht c hc => ht c (Table.mem_erase.1 hc).1)
    (fun t l _ c' m hc' hm ht => ?_) (fun c hc => ⟨c, hc, rfl, le_rfl⟩) c hc
  refine (Table.forall_mem_modify (f := Cell.withCount m) fun _ => rfl).2 fun c hc => ?_
  obtain ⟨c₀, hc₀, heq, hle⟩ := ht c hc
  split_ifs with hl
  · -- the stack at the place is the one that is made smaller
    have hcc : c = c' := Table.eq_of_key_eq hc (Table.of_find (stackAt_eq_some.1 hc').1).1
      (hl.trans (Table.of_find (stackAt_eq_some.1 hc').1).2.symm)
    subst hcc
    exact ⟨c₀, hc₀, by rw [heq]; rfl, Nat.le_trans hm hle⟩
  · exact ⟨c₀, hc₀, heq, hle⟩

/-- **Main result.** As many units are taken as are asked for and are there. -/
theorem units_drain (hls : ls.Nodup) (hpq : ∀ i, p i = true → q i = true) :
    units q (drain p ls n s) + min n (held p s ls) = units q s := by
  induction ls generalizing s n with
  | nil => simp [drain, held, stackSizes]
  | cons l ls ih =>
    obtain ⟨hl, hls⟩ := List.nodup_cons.1 hls
    unfold drain
    split_ifs with hn
    · simp [hn]
    · cases hstack : s.stackAt p l with
      | none =>
        unfold held
        rw [stackSizes_cons_of_none hstack]
        exact ih hls
      | some c =>
        obtain ⟨hfind, hp⟩ := stackAt_eq_some.1 hstack
        dsimp only
        unfold held
        rw [stackSizes_cons_of_some hstack, List.sum_cons]
        split_ifs with hle
        · have hrest := ih (s := s.erase l) (n := n - c.count) hls
          have herase := units_erase (p := q) hfind
          unfold held at hrest
          rw [stackSizes_erase hl] at hrest
          simp only [unitsOf, hpq _ hp, if_true] at herase
          omega
        · have htake := units_take (p := q) hfind (Nat.le_of_not_le hle)
          simp only [hpq _ hp, if_true] at htake
          omega

/-- Units are taken along the second list when the first is used up. -/
theorem drain_append (hls : ls.Nodup) :
    drain p (ls ++ ls') n s = drain p ls' (n - held p s ls) (drain p ls n s) := by
  induction ls generalizing s n with
  | nil => simp [drain, held, stackSizes]
  | cons l ls ih =>
    obtain ⟨hl, hls⟩ := List.nodup_cons.1 hls
    rw [List.cons_append]
    unfold held
    by_cases hn : n = 0
    · simp [drain, hn]
    · cases hstack : s.stackAt p l with
      | none =>
        rw [stackSizes_cons_of_none hstack]
        have hrest := ih (s := s) (n := n) hls
        unfold held at hrest
        simpa [drain, hn, hstack] using hrest
      | some c =>
        rw [stackSizes_cons_of_some hstack, List.sum_cons]
        by_cases hle : c.count ≤ n
        · have hrest := ih (s := s.erase l) (n := n - c.count) hls
          unfold held at hrest
          rw [stackSizes_erase hl, Nat.sub_sub] at hrest
          simpa [drain, hn, hstack, hle] using hrest
        · have hzero : n - (c.count + (stackSizes p s ls).sum) = 0 := by omega
          simp [drain, hn, hstack, hle, hzero]

/-- If more units are asked for than there are, nothing is left at the places. -/
theorem find_drain_of_lt (hls : ls.Nodup) (hlt : held p s ls < n) (hl : l ∈ ls)
    (hc : s.stackAt p l = some c) : (drain p ls n s).find l = none := by
  induction ls generalizing s n with
  | nil => cases hl
  | cons l₀ ls ih =>
    obtain ⟨hl₀, hls⟩ := List.nodup_cons.1 hls
    unfold held at hlt
    have hn : n ≠ 0 := by omega
    rw [drain, if_neg hn]
    cases hstack : s.stackAt p l₀ with
    | none =>
      rw [stackSizes_cons_of_none hstack] at hlt
      rcases List.mem_cons.1 hl with rfl | hl
      · rw [hstack] at hc
        cases hc
      · exact ih hls hlt hl hc
    | some c₀ =>
      rw [stackSizes_cons_of_some hstack, List.sum_cons] at hlt
      have hle : c₀.count ≤ n := by omega
      dsimp only
      rw [if_pos hle]
      rcases List.mem_cons.1 hl with rfl | hl
      · rw [find_drain_of_notMem hl₀, Table.find_erase, if_pos rfl]
      · refine ih hls ?_ hl ?_
        · unfold held
          rw [stackSizes_erase hl₀]
          omega
        · have hne : l ≠ l₀ := fun heq => hl₀ (heq ▸ hl)
          rw [← hc]
          refine stackAt_congr ?_
          rw [Table.find_erase, if_neg hne]

end Stock
