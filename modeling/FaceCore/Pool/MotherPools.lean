import FaceCore.Pool.PoolMgr
import FaceCore.Lib.Rings
import Mathlib.Data.Finset.Range

/-!
# Loading mother pools

The last part of `LoadFromDB` that is about pools in pools. A row of `pool_pool` puts a pool into the
group of its mother, in the list that its chance and the limit of the mother select, and notes the
mother in `mPoolSearchMap`, where the first row of a pool stays. Then mothers are followed from every
pool, and a link that leads back is removed from the group and from the map.

* `addEntry`, `removeOneRelation`, `loadRow`, `checkCircular`, `loadPools`: the functions;
* `Accepted`, `firstMother`, `listed`: what the rows of the table say;
* `loaded_spec`: groups and map after the first loop;
* `Checked`, `checked_step`: what the check has removed so far;
* `contains_iff`: the links that are left.

The number of loaded rows, which is only logged, is left out.
-/

namespace FaceCore.Pools

/-- A row of `pool_pool`. -/
structure PoolRow where
  childPoolId : ℕ
  motherPoolId : ℕ
  chance : ℚ

/-- `mPoolPoolGroups` and `mPoolSearchMap`. -/
structure PoolsOfPools where
  groups : ℕ → PoolGroup
  searchMap : ℕ → Option ℕ

/-- `PoolGroup<T>::AddEntry`. -/
def PoolGroup.addEntry (g : PoolGroup) (poolitem : PoolObject) (maxentries : UInt32) : PoolGroup :=
  if poolitem.chance ≠ 0 ∧ maxentries = 1 then
    { g with explicitlyChanced := g.explicitlyChanced ++ [poolitem] }
  else { g with equalChanced := g.equalChanced ++ [poolitem] }

/-- `PoolGroup<Pool>::RemoveOneRelation`: the first object of each list that is this pool. -/
def PoolGroup.removeOneRelation (g : PoolGroup) (child : ℕ) : PoolGroup :=
  ⟨g.explicitlyChanced.eraseP (·.guid = child), g.equalChanced.eraseP (·.guid = child)⟩

namespace PoolsOfPools

def empty : PoolsOfPools := ⟨fun _ => ⟨[], []⟩, fun _ => none⟩

/-- A turn of the first loop; `maxLimit` are the limits of `mPoolTemplate`. -/
def loadRow (maxPoolId : ℕ) (maxLimit : ℕ → UInt32) (l : PoolsOfPools) (r : PoolRow) :
    PoolsOfPools :=
  if r.motherPoolId > maxPoolId then l
  else if r.childPoolId > maxPoolId then l
  else if r.motherPoolId = r.childPoolId then l
  else if r.chance < 0 ∨ r.chance > 100 then l
  else
    let plgroup := (l.groups r.motherPoolId).addEntry ⟨r.childPoolId, r.chance⟩
      (maxLimit r.motherPoolId)
    { groups := Function.update l.groups r.motherPoolId plgroup
      -- an entry that is there stays
      searchMap := if (l.searchMap r.childPoolId).isSome then l.searchMap
        else Function.update l.searchMap r.childPoolId (some r.motherPoolId) }

/-- A turn of the check for circular references, from the pool `i`. -/
def checkCircular (maxPoolId : ℕ) (l : PoolsOfPools) (i : ℕ) : PoolsOfPools :=
  match Rings.closing l.searchMap (maxPoolId + 2) [] i with
  | none => l
  | some child =>
    match l.searchMap child with
    | none => l
    | some mother =>
      { groups := Function.update l.groups mother ((l.groups mother).removeOneRelation child)
        searchMap := Function.update l.searchMap child none }

/-- The part of `LoadFromDB` for mother pools. -/
def loadPools (maxPoolId : ℕ) (maxLimit : ℕ → UInt32) (rows : List PoolRow) : PoolsOfPools :=
  (List.range maxPoolId).foldl (checkCircular maxPoolId)
    (rows.foldl (loadRow maxPoolId maxLimit) empty)

/-- A pool is in the group of another. -/
def Contains (l : PoolsOfPools) (mother child : ℕ) : Prop := child ∈ (l.groups mother).guids

end PoolsOfPools

/-! ### What the table says -/

/-- A row that is not skipped. -/
def PoolRow.Accepted (maxPoolId : ℕ) (r : PoolRow) : Prop :=
  r.motherPoolId ≤ maxPoolId ∧ r.childPoolId ≤ maxPoolId ∧ r.motherPoolId ≠ r.childPoolId ∧
    0 ≤ r.chance ∧ r.chance ≤ 100

instance (maxPoolId : ℕ) (r : PoolRow) : Decidable (r.Accepted maxPoolId) :=
  inferInstanceAs (Decidable (_ ∧ _))

/-- Whether the row goes to the objects with a chance of their own. -/
def PoolRow.explicit (maxLimit : ℕ → UInt32) (r : PoolRow) : Bool :=
  r.chance ≠ 0 ∧ maxLimit r.motherPoolId = 1

/-- The mother in the first row of a pool. -/
def firstMother (maxPoolId : ℕ) (rows : List PoolRow) (child : ℕ) : Option ℕ :=
  (rows.find? fun r => r.Accepted maxPoolId ∧ r.childPoolId = child).map PoolRow.motherPoolId

/-- How many rows put a pool into one of the two lists of a mother. -/
def listed (maxPoolId : ℕ) (maxLimit : ℕ → UInt32) (rows : List PoolRow) (mother child : ℕ)
    (explicit : Bool) : ℕ :=
  rows.countP fun r => r.Accepted maxPoolId ∧ r.motherPoolId = mother ∧ r.childPoolId = child ∧
    r.explicit maxLimit = explicit

variable {maxPoolId : ℕ} {maxLimit : ℕ → UInt32} {rows : List PoolRow} {r : PoolRow}
  {l : PoolsOfPools} {mother child i : ℕ} {explicit : Bool}

/-- How often a pool stands in one of the two lists of a group. -/
def PoolGroup.count (g : PoolGroup) (explicit : Bool) (child : ℕ) : ℕ :=
  (if explicit then g.explicitlyChanced else g.equalChanced).countP (·.guid = child)

theorem PoolGroup.mem_guids_iff {g : PoolGroup} :
    child ∈ g.guids ↔ ∃ explicit, 0 < g.count explicit child := by
  simp [PoolGroup.guids, PoolGroup.count, List.countP_pos_iff, or_comm]

theorem PoolGroup.count_addEntry {g : PoolGroup} {o : PoolObject} {limit : UInt32} :
    (g.addEntry o limit).count explicit child =
      g.count explicit child +
        if o.guid = child ∧ decide (o.chance ≠ 0 ∧ limit = 1) = explicit then 1 else 0 := by
  unfold PoolGroup.addEntry PoolGroup.count
  split_ifs <;> simp_all [List.countP_append]

theorem countP_eraseP (objs : List PoolObject) (c child : ℕ) :
    (objs.eraseP (·.guid = c)).countP (·.guid = child) =
      objs.countP (·.guid = child) - if child = c then 1 else 0 := by
  induction objs with
  | nil => simp
  | cons o objs ih =>
    by_cases ho : o.guid = c
    · simp only [List.eraseP_cons, ho, List.countP_cons, decide_true, cond_true, decide_eq_true_eq,
        eq_comm (a := c)]
      omega
    · simp only [List.eraseP_cons, ho, List.countP_cons, decide_false, cond_false, ih,
        decide_eq_true_eq]
      split_ifs <;> simp_all

theorem PoolGroup.count_removeOneRelation {g : PoolGroup} {c : ℕ} :
    (g.removeOneRelation c).count explicit child =
      g.count explicit child - if child = c then 1 else 0 := by
  cases explicit
  · exact countP_eraseP g.equalChanced c child
  · exact countP_eraseP g.explicitlyChanced c child

/-! ### The first loop -/

namespace PoolsOfPools

theorem loadRow_of_not_accepted (h : ¬ r.Accepted maxPoolId) :
    loadRow maxPoolId maxLimit l r = l := by
  unfold loadRow
  by_cases hmother : r.motherPoolId > maxPoolId
  · rw [if_pos hmother]
  by_cases hchild : r.childPoolId > maxPoolId
  · rw [if_neg hmother, if_pos hchild]
  by_cases hself : r.motherPoolId = r.childPoolId
  · rw [if_neg hmother, if_neg hchild, if_pos hself]
  by_cases hchance : r.chance < 0 ∨ r.chance > 100
  · rw [if_neg hmother, if_neg hchild, if_neg hself, if_pos hchance]
  · rw [not_or, not_lt, gt_iff_lt, not_lt] at hchance
    exact absurd ⟨not_lt.1 hmother, not_lt.1 hchild, hself, hchance⟩ h

theorem loadRow_of_accepted (h : r.Accepted maxPoolId) : loadRow maxPoolId maxLimit l r =
    { groups := Function.update l.groups r.motherPoolId
        ((l.groups r.motherPoolId).addEntry ⟨r.childPoolId, r.chance⟩ (maxLimit r.motherPoolId))
      searchMap := if (l.searchMap r.childPoolId).isSome then l.searchMap
        else Function.update l.searchMap r.childPoolId (some r.motherPoolId) } := by
  obtain ⟨hmother, hchild, hself, hchance⟩ := h
  unfold loadRow
  rw [if_neg (not_lt.2 hmother), if_neg (not_lt.2 hchild), if_neg hself,
    if_neg (not_or.2 ⟨not_lt.2 hchance.1, not_lt.2 hchance.2⟩)]

/-- The groups and the map when the rows are loaded. -/
theorem loaded_spec (maxPoolId : ℕ) (maxLimit : ℕ → UInt32) (rows : List PoolRow) :
    (rows.foldl (loadRow maxPoolId maxLimit) empty).searchMap = firstMother maxPoolId rows ∧
    ∀ mother child explicit,
      ((rows.foldl (loadRow maxPoolId maxLimit) empty).groups mother).count explicit child =
        listed maxPoolId maxLimit rows mother child explicit := by
  induction rows using List.reverseRecOn with
  | nil => exact ⟨rfl, fun _ _ explicit => by cases explicit <;> rfl⟩
  | append_singleton rows r ih =>
    rw [List.foldl_append, List.foldl_cons, List.foldl_nil]
    generalize rows.foldl (loadRow maxPoolId maxLimit) empty = l at ih
    obtain ⟨hmap, hcount⟩ := ih
    by_cases hr : r.Accepted maxPoolId
    · rw [loadRow_of_accepted hr]
      refine ⟨funext fun c => ?_, fun mother child explicit => ?_⟩
      · show (if (l.searchMap r.childPoolId).isSome then l.searchMap
          else Function.update l.searchMap r.childPoolId (some r.motherPoolId)) c = _
        unfold firstMother
        rw [List.find?_append, Option.map_or, ← firstMother, hmap]
        by_cases hc : r.childPoolId = c
        · subst hc
          cases hf : firstMother maxPoolId rows r.childPoolId with
          | none => simp [hr]
          | some m => simp [hf]
        · split_ifs <;> simp [hc, Ne.symm hc]
      · show (Function.update l.groups r.motherPoolId _ mother).count explicit child = _
        unfold listed
        rw [List.countP_append, ← listed, ← hcount, List.countP_singleton]
        by_cases hm : mother = r.motherPoolId
        · subst hm
          rw [Function.update_self, PoolGroup.count_addEntry]
          simp [hr, PoolRow.explicit]
        · rw [Function.update_of_ne hm]
          simp [Ne.symm hm]
    · rw [loadRow_of_not_accepted hr]
      refine ⟨funext fun c => ?_, fun mother child explicit => ?_⟩
      · rw [hmap]
        simp [firstMother, List.find?_append, hr]
      · rw [hcount]
        simp [listed, List.countP_append, hr]

end PoolsOfPools

/-! ### The check -/

theorem firstMother_eq_some (h : firstMother maxPoolId rows child = some mother) :
    ∃ r ∈ rows, r.Accepted maxPoolId ∧ r.motherPoolId = mother ∧ r.childPoolId = child := by
  obtain ⟨r, hr, rfl⟩ := Option.map_eq_some_iff.1 h
  have hspec := List.find?_some hr
  rw [decide_eq_true_eq] at hspec
  exact ⟨r, List.mem_of_find?_eq_some hr, hspec.1, rfl, hspec.2⟩

theorem mem_range_of_firstMother (h : firstMother maxPoolId rows child = some mother) :
    child ∈ Finset.range (maxPoolId + 1) := by
  obtain ⟨r, -, hr, -, rfl⟩ := firstMother_eq_some h
  exact Finset.mem_range.2 (Nat.lt_succ_of_le hr.2.1)

/-- The links that the check finds from the first pools: a walk along the first mothers closes a
ring at the child, and no pool before leads there. -/
def Found (maxPoolId : ℕ) (rows : List PoolRow) (starts : List ℕ) (mother child : ℕ) : Prop :=
  firstMother maxPoolId rows child = some mother ∧
    Rings.Chosen (firstMother maxPoolId rows) starts child

open Classical in
/-- What is loaded when the check was made from the pools in `starts`: the links found are not in the
map, and were taken once out of each list. -/
structure Checked (maxPoolId : ℕ) (maxLimit : ℕ → UInt32) (rows : List PoolRow) (starts : List ℕ)
    (l : PoolsOfPools) : Prop where
  cut : Rings.Cut (firstMother maxPoolId rows) (Rings.Chosen (firstMother maxPoolId rows) starts)
    l.searchMap
  count : ∀ mother child explicit, (l.groups mother).count explicit child =
    listed maxPoolId maxLimit rows mother child explicit -
      if Found maxPoolId rows starts mother child then 1 else 0

theorem checked_start : Checked maxPoolId maxLimit rows []
    (rows.foldl (PoolsOfPools.loadRow maxPoolId maxLimit) PoolsOfPools.empty) := by
  obtain ⟨hmap, hcount⟩ := PoolsOfPools.loaded_spec maxPoolId maxLimit rows
  have hnone : ∀ c, ¬ Rings.Chosen (firstMother maxPoolId rows) [] c := by
    rintro c ⟨pre, i, hpre, -⟩
    simp at hpre
  refine ⟨⟨fun c hc => absurd hc (hnone c), fun c _ => congrFun hmap c⟩, ?_⟩
  intro mother child explicit
  rw [if_neg fun h => hnone child h.2, Nat.sub_zero]
  exact hcount mother child explicit

/-- One turn of the check finds at most one link more. -/
theorem checked_step {starts : List ℕ} (h : Checked maxPoolId maxLimit rows starts l) :
    Checked maxPoolId maxLimit rows (starts ++ [i]) (l.checkCircular maxPoolId i) := by
  classical
  have hs : ∀ c m, firstMother maxPoolId rows c = some m → c ∈ Finset.range (maxPoolId + 1) :=
    fun _ _ => mem_range_of_firstMother
  have hcard : (Finset.range (maxPoolId + 1)).card < maxPoolId + 2 := by
    rw [Finset.card_range]
    exact Nat.lt_succ_self _
  have hclosing : ∀ c, Rings.closing l.searchMap (maxPoolId + 2) [] i = some c ↔
      Rings.Closes l.searchMap i c := fun c =>
    Rings.closing_eq_some_iff (fun c m hcm => hs c m (h.cut.mono hcm)) (Rings.fits_start _ i hcard)
  -- the links found from `i`
  have hchosen : ∀ c, Rings.Chosen (firstMother maxPoolId rows) (starts ++ [i]) c ↔
      Rings.Chosen (firstMother maxPoolId rows) starts c ∨
        Rings.closing l.searchMap (maxPoolId + 2) [] i = some c := by
    intro c
    rw [Rings.chosen_concat, hclosing, h.cut.closes_iff hs]
  unfold PoolsOfPools.checkCircular
  cases hfound : Rings.closing l.searchMap (maxPoolId + 2) [] i with
  | none =>
    have hsame : ∀ c, Rings.Chosen (firstMother maxPoolId rows) starts c ↔
        Rings.Chosen (firstMother maxPoolId rows) (starts ++ [i]) c := by
      intro c
      rw [hchosen, hfound]
      simp
    refine ⟨h.cut.congr hsame, fun mother child explicit => ?_⟩
    unfold Found
    rw [← hsame]
    exact h.count mother child explicit
  | some c =>
    have hclose := (hclosing c).1 hfound
    obtain ⟨m, hm, -⟩ := hclose.onRing.exists_next
    have hnew : ∀ a, Rings.Chosen (firstMother maxPoolId rows) starts a ∨ a = c ↔
        Rings.Chosen (firstMother maxPoolId rows) (starts ++ [i]) a := by
      intro a
      rw [hchosen, hfound, Option.some.injEq, eq_comm (a := c)]
    have hfirst : ¬ Rings.Chosen (firstMother maxPoolId rows) starts c := by
      intro hc
      rw [h.cut.gone c hc] at hm
      cases hm
    simp only [hm]
    refine ⟨(h.cut.update c).congr hnew, fun mother child explicit => ?_⟩
    show (Function.update l.groups m _ mother).count explicit child = _
    have hmore : Found maxPoolId rows (starts ++ [i]) mother child ↔
        Found maxPoolId rows starts mother child ∨ (child = c ∧ mother = m) := by
      unfold Found
      rw [← hnew, and_or_left]
      refine or_congr_right ⟨?_, ?_⟩
      · rintro ⟨hnext, rfl⟩
        exact ⟨rfl, Option.some.inj (hnext.symm.trans (h.cut.mono hm))⟩
      · rintro ⟨rfl, rfl⟩
        exact ⟨h.cut.mono hm, rfl⟩
    have hbefore := h.count mother child explicit
    by_cases hlink : child = c ∧ mother = m
    · obtain ⟨rfl, rfl⟩ := hlink
      rw [if_neg fun hF => hfirst hF.2, Nat.sub_zero] at hbefore
      rw [if_pos (hmore.2 (.inr ⟨rfl, rfl⟩)), Function.update_self,
        PoolGroup.count_removeOneRelation, if_pos rfl, hbefore]
    · have hsame : Found maxPoolId rows (starts ++ [i]) mother child ↔
          Found maxPoolId rows starts mother child := hmore.trans (or_iff_left hlink)
      rw [if_congr hsame rfl rfl, ← hbefore]
      by_cases hmother : mother = m
      · subst hmother
        have hchild : child ≠ c := fun hc => hlink ⟨hc, rfl⟩
        rw [Function.update_self, PoolGroup.count_removeOneRelation, if_neg hchild, Nat.sub_zero]
      · rw [Function.update_of_ne hmother]

theorem checked_loadPools (maxPoolId : ℕ) (maxLimit : ℕ → UInt32) (rows : List PoolRow) :
    Checked maxPoolId maxLimit rows (List.range maxPoolId)
    (PoolsOfPools.loadPools maxPoolId maxLimit rows) := by
  have key : ∀ starts : List ℕ, Checked maxPoolId maxLimit rows starts
      (starts.foldl (PoolsOfPools.checkCircular maxPoolId)
        (rows.foldl (PoolsOfPools.loadRow maxPoolId maxLimit) PoolsOfPools.empty)) := by
    intro starts
    induction starts using List.reverseRecOn with
    | nil => exact checked_start
    | append_singleton starts i ih =>
      rw [List.foldl_append]
      exact checked_step ih
  exact key (List.range maxPoolId)

/-! ### The links that are left -/

/-- A row that is not skipped puts a pool under a mother. -/
def Linked (maxPoolId : ℕ) (rows : List PoolRow) (mother child : ℕ) : Prop :=
  ∃ r ∈ rows, r.Accepted maxPoolId ∧ r.motherPoolId = mother ∧ r.childPoolId = child

/-- The check takes a link out: it finds it, and no two rows put it into one list. -/
def TakenOut (maxPoolId : ℕ) (maxLimit : ℕ → UInt32) (rows : List PoolRow) (mother child : ℕ) :
    Prop :=
  Found maxPoolId rows (List.range maxPoolId) mother child ∧
    ∀ explicit, listed maxPoolId maxLimit rows mother child explicit ≤ 1

theorem linked_iff (maxLimit : ℕ → UInt32) : Linked maxPoolId rows mother child ↔
    ∃ explicit, 0 < listed maxPoolId maxLimit rows mother child explicit := by
  simp only [listed, List.countP_pos_iff, decide_eq_true_eq, Linked]
  constructor
  · rintro ⟨r, hr, hacc, hm, hc⟩
    exact ⟨r.explicit maxLimit, r, hr, hacc, hm, hc, rfl⟩
  · rintro ⟨_, r, hr, hacc, hm, hc, -⟩
    exact ⟨r, hr, hacc, hm, hc⟩

/-- A pool is in the group of another if a row puts it there and the check does not take it out. -/
theorem contains_iff : (PoolsOfPools.loadPools maxPoolId maxLimit rows).Contains mother child ↔
    Linked maxPoolId rows mother child ∧ ¬ TakenOut maxPoolId maxLimit rows mother child := by
  have hcount := (checked_loadPools maxPoolId maxLimit rows).count mother child
  unfold PoolsOfPools.Contains
  rw [PoolGroup.mem_guids_iff, linked_iff maxLimit, TakenOut]
  simp only [hcount]
  by_cases hfound : Found maxPoolId rows (List.range maxPoolId) mother child
  · simp only [hfound, if_true, true_and, not_forall, not_le]
    constructor
    · rintro ⟨e, he⟩
      exact ⟨⟨e, by omega⟩, e, by omega⟩
    · rintro ⟨-, e, he⟩
      exact ⟨e, by omega⟩
  · simp [hfound]

end FaceCore.Pools
