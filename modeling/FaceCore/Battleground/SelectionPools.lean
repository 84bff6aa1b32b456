import FaceCore.Battleground.QueueLists
import Mathlib.Algebra.GroupWithZero.Nat
import Mathlib.Algebra.BigOperators.Group.List.Basic
import Mathlib.Data.List.GetD

/-!
# The selection pools of the battleground queue

Groups are selected for a battleground in two pools, one for each faction, before they are invited.
`FillPlayersToBG` selects for a battleground that runs: every faction gets what its free slots hold,
and then groups are kicked and later ones added until the factions leave about as many free slots.

* `Side`: a pool with the groups of the queue that were not looked at;
* `Side.Sound`: what the selection never loses, the bound by the free slots included;
* `weight`: what a turn of the balancing loop uses up;
* `fillPlayersToBG_balanced`: the loop ends, and how.

The pools are cleared before every call. Free slots are natural numbers: they are at most the size
of a team, far below what an `int32` holds.
-/

namespace FaceCore.Battlegrounds

theorem Team.other_ne (t : Team) : t.other ≠ t := by cases t <;> decide

theorem Team.forall_of_other {P : Team → Prop} (t : Team) (h : P t) (h' : P t.other) : ∀ t, P t := by
  intro t'
  by_cases heq : t' = t
  · exact heq ▸ h
  · have hother : t' = t.other := by cases t <;> cases t' <;> first | rfl | exact absurd rfl heq
    exact hother ▸ h'

namespace Queue

/-- `Players.size()` of a group. -/
def groupSize (q : Queue) (gid : ℕ) : ℕ := ((q.groups gid).map (·.players.card)).getD 0

/-- A turn of the loop of `KickGroup`, which has the position of the group to kick and whether its
size is right, for a group with its position. -/
def kickTurn (sizes : List ℕ) (size : ℕ) (kick : ℕ × Bool) (itr : ℕ × ℕ) : ℕ × Bool :=
  if ((itr.1 : ℤ) - size).natAbs ≤ 1 then (itr.2, true)
  else if !kick.2 && sizes.getD kick.1 0 ≤ itr.1 then (itr.2, false)
  else kick

/-- The loop of `KickGroup`. -/
def groupToKick (sizes : List ℕ) (size : ℕ) : ℕ × Bool :=
  sizes.zipIdx.foldl (kickTurn sizes size) (0, false)

/-- `SelectionPool::KickGroup`. -/
def SelectionPool.kickGroup (q : Queue) (pool : SelectionPool) (size : ℕ) : SelectionPool × Bool :=
  let sizes := pool.selectedGroups.map q.groupSize
  let kick := (groupToKick sizes size).1
  if pool.playerCount = 0 then (pool, true)
  else (⟨pool.selectedGroups.eraseIdx kick, pool.playerCount - sizes.getD kick 0⟩,
    !(sizes.getD kick 0 ≤ size + 1))

/-- The groups of a faction from the iterator on, and its selection pool. -/
structure Side where
  rest : List ℕ
  pool : SelectionPool

/-- The loops of `FillPlayersToBG` that add groups until `AddGroup` fails. -/
def addGroups (q : Queue) (desiredCount : ℕ) : List ℕ → SelectionPool → Side
  | [], pool => ⟨[], pool⟩
  | gid :: rest, pool =>
    match q.groups gid with
    | none => addGroups q desiredCount rest pool
    | some ginfo =>
      let added := pool.addGroup gid ginfo desiredCount
      if added.2 then addGroups q desiredCount rest added.1 else ⟨gid :: rest, added.1⟩

/-- The free slots that a selection leaves: `diffAli` and `diffHorde`. -/
def diff (free : Team → ℕ) (sides : Team → Side) (t : Team) : ℤ :=
  (free t : ℤ) - (sides t).pool.playerCount

/-- A turn of the balancing loop, for the faction that leaves fewer free slots: a group is kicked,
and others are added if needed; when the pool is empty, the other faction loses a group instead,
unless the loop breaks, which the `Bool` says. -/
def balanceTurn (q : Queue) (free : Team → ℕ) (sides : Team → Side) (t : Team) :
    (Team → Side) × Bool :=
  let surplus := (diff free sides t.other - diff free sides t).toNat
  let desired := (free t - diff free sides t.other).toNat
  let kicked := (sides t).pool.kickGroup q surplus
  let side :=
    if kicked.2 then q.addGroups desired (sides t).rest kicked.1 else ⟨(sides t).rest, kicked.1⟩
  let sides' := Function.update sides t side
  if side.pool.playerCount = 0 then
    if (free t : ℤ) ≤ diff free sides t.other + 1 then (sides', false)
    else
      let other := sides t.other
      (Function.update sides' t.other ⟨other.rest, (other.pool.kickGroup q surplus).1⟩, true)
  else (sides', true)

/-- The balancing loop of `FillPlayersToBG`, with fuel. -/
def balance (q : Queue) (free : Team → ℕ) : ℕ → (Team → Side) → Option (Team → Side)
  | 0, _ => none
  | fuel + 1, sides =>
    if 1 < (diff free sides .alliance - diff free sides .horde).natAbs ∧
        (0 < (sides .horde).pool.playerCount ∨ 0 < (sides .alliance).pool.playerCount) then
      let t := if diff free sides .alliance < diff free sides .horde then Team.alliance
        else Team.horde
      let turn := q.balanceTurn free sides t
      if turn.2 then q.balance free fuel turn.1 else some turn.1
    else some sides

/-- `BattlegroundQueue::FillPlayersToBG`: the selection pools for a battleground with so many free
slots; with the invitation type 0 nothing is balanced. -/
def fillPlayersToBG (q : Queue) (b : BracketId) (free : Team → ℕ) (invitationType fuel : ℕ) :
    Option (Team → SelectionPool) :=
  let sides := fun t => q.addGroups (free t) (q.queuedGroups b (.normal t)) SelectionPool.init
  let balanced := if invitationType = 0 then some sides else q.balance free fuel sides
  balanced.map fun sides t => (sides t).pool

variable {q : Queue} {gid : ℕ} {ginfo : GroupQueueInfo} {b : BracketId} {free : Team → ℕ}
  {sides : Team → Side} {pool : SelectionPool}

theorem groupSize_eq (h : q.groups gid = some ginfo) : q.groupSize gid = ginfo.players.card := by
  rw [groupSize, h]
  rfl

theorem isWaiting_eq (h : q.groups gid = some ginfo) :
    q.isWaiting gid = decide (ginfo.isInvitedToBGInstanceGUID = 0) := by
  rw [isWaiting, h]
  rfl

/-! ### What a selection is -/

/-- The groups of a list that were selected or not looked at stand there in this order, the selected
ones wait and are counted, and the free slots hold them. -/
structure Side.Sound (q : Queue) (l : List ℕ) (free : ℕ) (s : Side) : Prop where
  sublist : (s.pool.selectedGroups ++ s.rest).Sublist l
  waiting : ∀ gid ∈ s.pool.selectedGroups, q.isWaiting gid = true
  counted : s.pool.playerCount = (s.pool.selectedGroups.map q.groupSize).sum
  le : s.pool.playerCount ≤ free

theorem addGroup_cases (pool : SelectionPool) (gid : ℕ) (ginfo : GroupQueueInfo) (desired : ℕ) :
    (ginfo.isInvitedToBGInstanceGUID = 0 ∧ pool.playerCount + ginfo.players.card ≤ desired ∧
      pool.addGroup gid ginfo desired =
        (⟨pool.selectedGroups ++ [gid], pool.playerCount + ginfo.players.card⟩, true)) ∨
    pool.addGroup gid ginfo desired = (pool, decide (pool.playerCount < desired)) := by
  unfold SelectionPool.addGroup
  split_ifs with hadd
  · exact .inl ⟨hadd.1, hadd.2, rfl⟩
  · exact .inr rfl

theorem Side.Sound.skip {l rest : List ℕ} {n : ℕ} (h : Side.Sound q l n ⟨gid :: rest, pool⟩) :
    Side.Sound q l n ⟨rest, pool⟩ :=
  ⟨((List.sublist_cons_self gid rest).append_left _).trans h.sublist, h.waiting, h.counted, h.le⟩

theorem Side.Sound.addGroup {l rest : List ℕ} {n desired : ℕ}
    (h : Side.Sound q l n ⟨gid :: rest, pool⟩) (hgid : q.groups gid = some ginfo)
    (hdesired : desired ≤ n) : Side.Sound q l n ⟨rest, (pool.addGroup gid ginfo desired).1⟩ := by
  rcases addGroup_cases pool gid ginfo desired with ⟨hwaits, hfits, heq⟩ | heq
  · rw [heq]
    refine ⟨?_, ?_, ?_, hfits.trans hdesired⟩
    · have hsub := h.sublist
      simpa using hsub
    · intro g hg
      rcases List.mem_append.1 hg with hg | hg
      · exact h.waiting g hg
      · obtain rfl := List.mem_singleton.1 hg
        rw [isWaiting_eq hgid, decide_eq_true hwaits]
    · have hcount : pool.playerCount = (pool.selectedGroups.map q.groupSize).sum := h.counted
      simp [hcount, groupSize_eq hgid]
  · rw [heq]
    exact h.skip

theorem Side.Sound.addGroups {l rest : List ℕ} {n desired : ℕ}
    (h : Side.Sound q l n ⟨rest, pool⟩) (hdesired : desired ≤ n) :
    Side.Sound q l n (q.addGroups desired rest pool) := by
  induction rest generalizing pool with
  | nil => exact h
  | cons gid rest ih =>
    unfold Queue.addGroups
    cases hgid : q.groups gid with
    | none => exact ih h.skip
    | some ginfo =>
      dsimp only
      split_ifs with hadd
      · exact ih (h.addGroup hgid hdesired)
      · -- a call that fails leaves the pool alone
        rcases addGroup_cases pool gid ginfo desired with ⟨-, -, heq⟩ | heq
        · rw [heq] at hadd
          exact absurd rfl hadd
        · rw [heq]
          exact h

/-- The players of a pool after groups are added: as many as before, or as many as desired. -/
theorem playerCount_addGroups (q : Queue) (desired : ℕ) (rest : List ℕ) (pool : SelectionPool) :
    (q.addGroups desired rest pool).pool.playerCount ≤ max desired pool.playerCount := by
  induction rest generalizing pool with
  | nil => exact le_max_right _ _
  | cons gid rest ih =>
    have hcount : ∀ ginfo, (pool.addGroup gid ginfo desired).1.playerCount ≤
        max desired pool.playerCount := by
      intro ginfo
      rcases addGroup_cases pool gid ginfo desired with ⟨-, hfits, heq⟩ | heq
      · exact heq ▸ hfits.trans (le_max_left _ _)
      · exact heq ▸ le_max_right _ _
    unfold Queue.addGroups
    cases q.groups gid with
    | none => exact ih pool
    | some ginfo =>
      dsimp only
      split_ifs
      · exact (ih _).trans (max_le (le_max_left _ _) (hcount ginfo))
      · exact hcount ginfo

/-! ### What a turn uses up -/

/-- A group that is not looked at can still be added and kicked. -/
def Side.weight (s : Side) : ℕ := 2 * s.rest.length + s.pool.selectedGroups.length

theorem weight_addGroups (q : Queue) (desired : ℕ) (rest : List ℕ) (pool : SelectionPool) :
    (q.addGroups desired rest pool).weight ≤ Side.weight ⟨rest, pool⟩ := by
  induction rest generalizing pool with
  | nil => exact le_rfl
  | cons gid rest ih =>
    unfold Queue.addGroups
    cases q.groups gid with
    | none =>
      refine (ih pool).trans ?_
      simp only [Side.weight, List.length_cons]
      omega
    | some ginfo =>
      dsimp only
      rcases addGroup_cases pool gid ginfo desired with ⟨-, -, heq⟩ | heq
      · rw [heq, if_pos rfl]
        refine (ih _).trans ?_
        simp only [Side.weight, List.length_cons, List.length_append, List.length_nil]
        omega
      · rw [heq]
        split_ifs
        · refine (ih _).trans ?_
          simp only [Side.weight, List.length_cons]
          omega
        · exact le_rfl

theorem groupToKick_lt {sizes : List ℕ} (h : sizes ≠ []) (size : ℕ) :
    (groupToKick sizes size).1 < sizes.length := by
  have key : ∀ (l : List (ℕ × ℕ)) (kick : ℕ × Bool), (∀ itr ∈ l, itr.2 < sizes.length) →
      kick.1 < sizes.length → (l.foldl (kickTurn sizes size) kick).1 < sizes.length := by
    intro l
    induction l with
    | nil => exact fun kick _ hkick => hkick
    | cons itr l ih =>
      intro kick hl hkick
      refine ih _ (fun i hi => hl i (List.mem_cons_of_mem itr hi)) ?_
      have hitr := hl itr List.mem_cons_self
      unfold kickTurn
      split_ifs
      · exact hitr
      · exact hitr
      · exact hkick
  refine key _ _ (fun itr hitr => ?_) (List.length_pos_of_ne_nil h)
  simpa using List.snd_lt_of_mem_zipIdx hitr

theorem kickGroup_length {l rest : List ℕ} {n : ℕ} (h : Side.Sound q l n ⟨rest, pool⟩)
    (hpos : 0 < pool.playerCount) (size : ℕ) :
    (pool.kickGroup q size).1.selectedGroups.length + 1 = pool.selectedGroups.length := by
  have hne : pool.selectedGroups.map q.groupSize ≠ [] := by
    intro hnil
    have hcount : pool.playerCount = (pool.selectedGroups.map q.groupSize).sum := h.counted
    rw [hnil, List.sum_nil] at hcount
    omega
  have hlt := groupToKick_lt hne size
  rw [List.length_map] at hlt
  unfold SelectionPool.kickGroup
  dsimp only
  rw [if_neg hpos.ne', List.length_eraseIdx, if_pos hlt]
  omega

theorem weight_kickGroup_le (q : Queue) (rest : List ℕ) (pool : SelectionPool) (size : ℕ) :
    Side.weight ⟨rest, (pool.kickGroup q size).1⟩ ≤ Side.weight ⟨rest, pool⟩ := by
  have hlen : (pool.kickGroup q size).1.selectedGroups.length ≤ pool.selectedGroups.length := by
    unfold SelectionPool.kickGroup
    dsimp only
    split_ifs
    · exact le_rfl
    · exact List.length_eraseIdx_le _ _
  simp only [Side.weight]
  omega

theorem Side.Sound.kickGroup {l rest : List ℕ} {n : ℕ} (h : Side.Sound q l n ⟨rest, pool⟩)
    (size : ℕ) : Side.Sound q l n ⟨rest, (pool.kickGroup q size).1⟩ := by
  have hcount : pool.playerCount = (pool.selectedGroups.map q.groupSize).sum := h.counted
  unfold SelectionPool.kickGroup
  dsimp only
  split_ifs
  · exact h
  · set kick := (groupToKick (pool.selectedGroups.map q.groupSize) size).1
    refine ⟨?_, ?_, ?_, (Nat.sub_le _ _).trans h.le⟩
    · exact ((List.eraseIdx_sublist _ _).append_right rest).trans h.sublist
    · exact fun g hg => h.waiting g ((List.eraseIdx_sublist _ _).subset hg)
    · show pool.playerCount - _ = ((pool.selectedGroups.eraseIdx kick).map q.groupSize).sum
      rw [hcount, ← List.eraseIdx_map]
      by_cases hlt : kick < (pool.selectedGroups.map q.groupSize).length
      · rw [List.getD_eq_getElem _ _ hlt]
        have hperm := (List.getElem_cons_eraseIdx_perm hlt).sum_eq
        rw [List.sum_cons] at hperm
        omega
      · rw [List.eraseIdx_of_length_le (not_lt.1 hlt), List.getD_eq_default _ _ (not_lt.1 hlt),
          Nat.sub_zero]

/-! ### The balancing loop -/

/-- What both factions can still use up. -/
def weight (sides : Team → Side) : ℕ := (sides .alliance).weight + (sides .horde).weight

theorem weight_eq (sides : Team → Side) (t : Team) :
    weight sides = (sides t).weight + (sides t.other).weight := by
  cases t
  · rfl
  · exact Nat.add_comm _ _

/-- The side after its group is kicked and others are added. -/
theorem Side.Sound.refill {l rest : List ℕ} {n desired : ℕ} (h : Side.Sound q l n ⟨rest, pool⟩)
    (hdesired : desired ≤ n) (size : ℕ) {side : Side}
    (hside : side = if (pool.kickGroup q size).2
      then q.addGroups desired rest (pool.kickGroup q size).1
      else ⟨rest, (pool.kickGroup q size).1⟩) :
    Side.Sound q l n side ∧ (0 < pool.playerCount → side.weight < Side.weight ⟨rest, pool⟩) ∧
      (pool.playerCount = 0 → side.pool.playerCount ≤ desired ∧
        side.weight ≤ Side.weight ⟨rest, pool⟩) := by
  have hkick := h.kickGroup size
  -- the groups that are added do not make up for the kicked one
  have hle : side.weight ≤ Side.weight ⟨rest, (pool.kickGroup q size).1⟩ := by
    rw [hside]
    split_ifs
    · exact weight_addGroups _ _ _ _
    · exact le_rfl
  refine ⟨?_, fun hpos => ?_, fun hzero => ⟨?_, hle.trans (weight_kickGroup_le q rest pool size)⟩⟩
  · rw [hside]
    split_ifs
    · exact hkick.addGroups hdesired
    · exact hkick
  · have hlen := kickGroup_length h hpos size
    refine hle.trans_lt ?_
    simp only [Side.weight]
    omega
  · have hempty : pool.kickGroup q size = (pool, true) := by
      unfold SelectionPool.kickGroup
      dsimp only
      rw [if_pos hzero]
    rw [hside, hempty, if_pos rfl]
    refine (playerCount_addGroups _ _ _ _).trans ?_
    rw [hzero, max_eq_left (Nat.zero_le _)]

/-- What a turn does: it uses something up, or it breaks the loop with an empty pool on the side
that leaves fewer free slots, up to one. -/
theorem balanceTurn_spec {l : Team → List ℕ} (hs : ∀ t, (sides t).Sound q (l t) (free t)) {t : Team}
    (hlt : diff free sides t + 1 < diff free sides t.other) :
    (∀ t', ((q.balanceTurn free sides t).1 t').Sound q (l t') (free t')) ∧
      ((q.balanceTurn free sides t).2 = true →
        weight (q.balanceTurn free sides t).1 < weight sides) ∧
      ((q.balanceTurn free sides t).2 = false →
        ((q.balanceTurn free sides t).1 t).pool.playerCount = 0 ∧
          (free t : ℤ) ≤ diff free (q.balanceTurn free sides t).1 t.other + 1) := by
  have hother := hs t.other
  have hdiff : diff free sides t.other ≥ 0 := by
    have hle := hother.le
    unfold diff
    omega
  have hdesired : ((free t : ℤ) - diff free sides t.other).toNat ≤ free t := by omega
  unfold balanceTurn
  dsimp only
  set surplus := (diff free sides t.other - diff free sides t).toNat
  set desired := ((free t : ℤ) - diff free sides t.other).toNat with hdes
  generalize hside : (if ((sides t).pool.kickGroup q surplus).2 = true then
    q.addGroups desired (sides t).rest ((sides t).pool.kickGroup q surplus).1
    else ⟨(sides t).rest, ((sides t).pool.kickGroup q surplus).1⟩ : Side) = side
  obtain ⟨hsound, hpos, hzero⟩ := (hs t).refill hdesired surplus hside.symm
  have hne : t.other ≠ t := t.other_ne
  -- a pool that is empty before the turn stays empty, and the loop breaks
  have hempty : (sides t).pool.playerCount = 0 →
      side.pool.playerCount = 0 ∧ (free t : ℤ) ≤ diff free sides t.other + 1 := by
    intro hcount
    have hd : diff free sides t = free t := by
      unfold diff
      omega
    have hle := (hzero hcount).1
    exact ⟨by omega, by omega⟩
  have hweight : ∀ other : Side, other.weight ≤ (sides t.other).weight →
      side.weight < (sides t).weight →
      weight (Function.update (Function.update sides t side) t.other other) < weight sides := by
    intro other hle hlt
    rw [weight_eq _ t, weight_eq sides t, Function.update_self, Function.update_of_ne hne.symm,
      Function.update_self]
    exact Nat.add_lt_add_of_lt_of_le hlt hle
  have hupdate : Function.update sides t side =
      Function.update (Function.update sides t side) t.other (sides t.other) := by
    refine (Function.update_eq_self_iff.2 ?_).symm
    rw [Function.update_of_ne hne]
  have hboth : ∀ other : Side, other.Sound q (l t.other) (free t.other) →
      ∀ t', ((Function.update (Function.update sides t side) t.other other) t').Sound q (l t')
        (free t') := by
    intro other hsound'
    refine Team.forall_of_other t ?_ ?_
    · rw [Function.update_of_ne hne.symm, Function.update_self]
      exact hsound
    · rw [Function.update_self]
      exact hsound'
  split_ifs with hcount hbreak
  · refine ⟨?_, fun h => h.elim, fun _ => ⟨?_, ?_⟩⟩
    · rw [hupdate]
      exact hboth _ hother
    · show (Function.update sides t side t).pool.playerCount = 0
      rw [Function.update_self]
      exact hcount
    · have hsame : diff free (Function.update sides t side) t.other = diff free sides t.other := by
        unfold diff
        rw [Function.update_of_ne hne]
      rw [hsame]
      exact hbreak
  · have hplayers : 0 < (sides t).pool.playerCount :=
      Nat.pos_of_ne_zero fun h => hbreak (hempty h).2
    refine ⟨hboth _ (hother.kickGroup surplus), fun _ => ?_, fun h => by cases h⟩
    exact hweight _ (weight_kickGroup_le q _ _ _) (hpos hplayers)
  · have hplayers : 0 < (sides t).pool.playerCount :=
      Nat.pos_of_ne_zero fun h => hcount (hempty h).1
    refine ⟨?_, fun _ => ?_, fun h => by cases h⟩
    · rw [hupdate]
      exact hboth _ hother
    · rw [hupdate]
      exact hweight _ le_rfl (hpos hplayers)

/-- The factions leave as many free slots, up to one, or nothing is selected, or nothing is selected
for the faction that leaves fewer. -/
def Balanced (free : Team → ℕ) (pools : Team → SelectionPool) : Prop :=
  let diff := fun t => (free t : ℤ) - (pools t).playerCount
  (diff .alliance - diff .horde).natAbs ≤ 1 ∨ (∀ t, (pools t).selectedGroups = []) ∨
    ∃ t, diff t < diff t.other ∧ (pools t).selectedGroups = []

theorem Side.Sound.eq_nil {s : Side} {l : List ℕ} {n : ℕ} (h : s.Sound q l n)
    (hpop : ∀ gid ∈ l, 0 < q.groupSize gid) (hzero : s.pool.playerCount = 0) :
    s.pool.selectedGroups = [] := by
  cases hsel : s.pool.selectedGroups with
  | nil => rfl
  | cons gid gids =>
    have hmem : gid ∈ s.pool.selectedGroups := hsel ▸ List.mem_cons_self
    have hpos := hpop gid (h.sublist.subset (List.mem_append_left _ hmem))
    have hcount := h.counted
    rw [hsel, List.map_cons, List.sum_cons] at hcount
    omega

theorem balance_spec {l : Team → List ℕ} (hpop : ∀ t, ∀ gid ∈ l t, 0 < q.groupSize gid) (fuel : ℕ) :
    ∀ sides, (∀ t, (sides t).Sound q (l t) (free t)) → weight sides < fuel →
      ∃ sides', q.balance free fuel sides = some sides' ∧
        (∀ t, (sides' t).Sound q (l t) (free t)) ∧ Balanced free fun t => (sides' t).pool := by
  induction fuel with
  | zero => exact fun _ _ h => absurd h (Nat.not_lt_zero _)
  | succ fuel ih =>
    intro sides hs hfuel
    unfold balance
    by_cases hloop : 1 < (diff free sides .alliance - diff free sides .horde).natAbs ∧
      (0 < (sides .horde).pool.playerCount ∨ 0 < (sides .alliance).pool.playerCount)
    · rw [if_pos hloop]
      obtain ⟨hdiff, -⟩ := hloop
      set t := if diff free sides .alliance < diff free sides .horde then Team.alliance
        else Team.horde with ht
      have hlt : diff free sides t + 1 < diff free sides t.other := by
        rw [ht]
        split_ifs
        · show diff free sides .alliance + 1 < diff free sides .horde
          omega
        · show diff free sides .horde + 1 < diff free sides .alliance
          omega
      obtain ⟨hsound, hturn, hbreak⟩ := balanceTurn_spec hs hlt
      dsimp only
      split_ifs with hon
      · exact ih _ hsound ((hturn hon).trans_le (Nat.le_of_lt_succ hfuel))
      · obtain ⟨hzero, hle⟩ := hbreak (Bool.eq_false_iff.2 hon)
        refine ⟨_, rfl, hsound, ?_⟩
        generalize (q.balanceTurn free sides t).1 = sides' at hsound hzero hle
        have hd : diff free sides' t = free t := by
          unfold diff
          omega
        by_cases hfewer : diff free sides' t < diff free sides' t.other
        · exact .inr (.inr ⟨t, hfewer, (hsound t).eq_nil (hpop t) hzero⟩)
        · refine .inl ?_
          show (diff free sides' .alliance - diff free sides' .horde).natAbs ≤ 1
          rw [← hd] at hle
          generalize t = t' at hle hfewer
          cases t' <;> simp only [Team.other] at hle hfewer <;> omega
    · rw [if_neg hloop]
      refine ⟨sides, rfl, hs, ?_⟩
      by_cases hdiff : 1 < (diff free sides .alliance - diff free sides .horde).natAbs
      · refine .inr (.inl fun t => (hs t).eq_nil (hpop t) ?_)
        have hzero : ¬(0 < (sides .horde).pool.playerCount ∨
          0 < (sides .alliance).pool.playerCount) := fun h => hloop ⟨hdiff, h⟩
        cases t <;> omega
      · exact .inl (not_lt.1 hdiff)

/-- The pools are selections from the normal groups of their factions, which wait; no group is
selected twice, the players are counted, and the free slots hold them. -/
structure Selected (q : Queue) (b : BracketId) (free : Team → ℕ) (pools : Team → SelectionPool) :
    Prop where
  sublist : ∀ t, (pools t).selectedGroups.Sublist (q.queuedGroups b (.normal t))
  nodup : ∀ t, (pools t).selectedGroups.Nodup
  waiting : ∀ t, ∀ gid ∈ (pools t).selectedGroups, q.isWaiting gid = true
  counted : ∀ t, (pools t).playerCount = ((pools t).selectedGroups.map q.groupSize).sum
  le : ∀ t, (pools t).playerCount ≤ free t

/-- **Main result.** The groups for a battleground that runs: the loop ends after two turns for each
queued group at most, the pools are selections that the free slots hold, and they are balanced. -/
theorem fillPlayersToBG_balanced (q : Queue) (b : BracketId) (free : Team → ℕ) (invitationType : ℕ)
    (hnodup : ∀ t, (q.queuedGroups b (.normal t)).Nodup)
    (hpop : ∀ t, ∀ gid ∈ q.queuedGroups b (.normal t), 0 < q.groupSize gid)
    (htype : invitationType ≠ 0) {fuel : ℕ}
    (hfuel : 2 * ((q.queuedGroups b .normalAlliance).length +
      (q.queuedGroups b .normalHorde).length) < fuel) :
    ∃ pools, q.fillPlayersToBG b free invitationType fuel = some pools ∧
      q.Selected b free pools ∧ Balanced free pools := by
  have hstart : ∀ t, Side.Sound q (q.queuedGroups b (.normal t)) (free t)
      (q.addGroups (free t) (q.queuedGroups b (.normal t)) SelectionPool.init) := by
    intro t
    refine Side.Sound.addGroups ⟨List.Sublist.refl _, ?_, rfl, Nat.zero_le _⟩ le_rfl
    exact fun gid hgid => by cases hgid
  have hweight : weight (fun t =>
      q.addGroups (free t) (q.queuedGroups b (.normal t)) SelectionPool.init) < fuel := by
    have ha := weight_addGroups q (free .alliance) (q.queuedGroups b .normalAlliance)
      SelectionPool.init
    have hh := weight_addGroups q (free .horde) (q.queuedGroups b .normalHorde) SelectionPool.init
    refine (Nat.add_le_add ha hh).trans_lt ?_
    simp only [Side.weight, SelectionPool.init, List.length_nil]
    omega
  obtain ⟨sides, heq, hsound, hbal⟩ := balance_spec hpop fuel _ hstart hweight
  refine ⟨fun t => (sides t).pool, ?_, ?_, hbal⟩
  · unfold fillPlayersToBG
    dsimp only
    rw [if_neg htype, heq]
    rfl
  · have hsub : ∀ t, (sides t).pool.selectedGroups.Sublist (q.queuedGroups b (.normal t)) :=
      fun t => (List.sublist_append_left _ _).trans (hsound t).sublist
    exact ⟨hsub, fun t => (hnodup t).sublist (hsub t), fun t => (hsound t).waiting,
      fun t => (hsound t).counted, fun t => (hsound t).le⟩

/-- Five free slots for the alliance and three for the horde, whose group of four does not fit: the
group of four of the alliance is kicked, and the single player stays. -/
theorem fillPlayersToBG_balanced_kick :
    let q : Queue :=
      { queuedPlayers := SortedMap.empty
        queuedGroups := fun _ j => if j = .normalAlliance then [0, 1] else [2]
        groups := fun gid => some ⟨Finset.range (4 - 3 * (gid % 2)), .alliance, false, 0, 0, 0, 0⟩
        fresh := 3 }
    let free : Team → ℕ := fun t => if t = .alliance then 5 else 3
    ∃ pools, q.fillPlayersToBG ⟨0, by decide⟩ free 1 7 = some pools ∧
      q.Selected ⟨0, by decide⟩ free pools ∧ Balanced free pools := by
  refine fillPlayersToBG_balanced _ _ _ _ ?_ ?_ (by decide) (by decide)
  · intro t
    cases t <;> decide
  · intro t
    cases t <;> decide

/-! ### Premade matches -/

/-- The first group of a list that is not invited. -/
def firstWaiting (q : Queue) (l : List ℕ) : Option ℕ := l.find? q.isWaiting

/-- `AddGroup` for the group behind a pointer. -/
def addTo (q : Queue) (desiredCount : ℕ) (pool : SelectionPool) (gid : ℕ) : SelectionPool :=
  match q.groups gid with
  | none => pool
  | some ginfo => (pool.addGroup gid ginfo desiredCount).1

/-- The part of `CheckPremadeMatch` that sets the selection pools, when both factions have a premade
group that waits; the pools are filled from the normal groups. -/
def premadePools (q : Queue) (b : BracketId) (maxPlayersPerTeam : ℕ)
    (pools : Team → SelectionPool) : Option (Team → SelectionPool) :=
  match q.firstWaiting (q.queuedGroups b .premadeAlliance),
    q.firstWaiting (q.queuedGroups b .premadeHorde) with
  | some aliGroup, some hordeGroup =>
    let ali := q.addTo maxPlayersPerTeam (pools .alliance) aliGroup
    let horde := q.addTo maxPlayersPerTeam (pools .horde) hordeGroup
    let maxPlayers := min ali.playerCount horde.playerCount
    some fun
      | .alliance => q.fillPool maxPlayers (q.queuedGroups b .normalAlliance) ali
      | .horde => q.fillPool maxPlayers (q.queuedGroups b .normalHorde) horde
  | _, _ => none

/-- `BattlegroundQueue::CheckPremadeMatch` with the selection pools, and what it returns. -/
def checkPremadeMatchPools (q : Queue) (b : BracketId)
    (timeBefore minPlayersPerTeam maxPlayersPerTeam : ℕ) (pools : Team → SelectionPool) :
    Queue × (Team → SelectionPool) × Bool :=
  match q.premadePools b maxPlayersPerTeam pools with
  | some pools => (q, pools, true)
  | none =>
    ([Team.alliance, Team.horde].foldl (releasePremade b timeBefore minPlayersPerTeam) q, pools,
      false)

/-- A list without the groups that are invited. -/
def waitingGroups (q : Queue) (l : List ℕ) : List ℕ := l.filter q.isWaiting

/-- The groups of a list that are added to a pool which has enough players: those without players at
the front, if it has as many players as desired, and none if it has more. -/
def emptyGroups (q : Queue) (m n : ℕ) (l : List ℕ) : List ℕ :=
  if n = m then (q.waitingGroups l).takeWhile fun gid => q.groupSize gid = 0 else []

theorem emptyGroups_cons {m n : ℕ} (l : List ℕ) (hgid : q.groups gid = some ginfo) :
    q.emptyGroups m n (gid :: l) =
      if ginfo.isInvitedToBGInstanceGUID = 0 then
        if n = m ∧ ginfo.players.card = 0 then gid :: q.emptyGroups m n l else []
      else q.emptyGroups m n l := by
  unfold emptyGroups waitingGroups
  rw [List.filter_cons, isWaiting_eq hgid]
  by_cases hinv : ginfo.isInvitedToBGInstanceGUID = 0
  · by_cases hn : n = m
    · simp [hinv, hn, List.takeWhile_cons, groupSize_eq hgid]
    · simp [hinv, hn]
  · simp [hinv]

theorem fillPool_of_le {m : ℕ} (l : List ℕ) (hle : m ≤ pool.playerCount) :
    q.fillPool m l pool =
      ⟨pool.selectedGroups ++ q.emptyGroups m pool.playerCount l, pool.playerCount⟩ := by
  induction l generalizing pool with
  | nil => simp [fillPool, emptyGroups, waitingGroups]
  | cons gid l ih =>
    unfold fillPool
    cases hgid : q.groups gid with
    | none =>
      have hskip : q.emptyGroups m pool.playerCount (gid :: l) =
          q.emptyGroups m pool.playerCount l := by
        simp [emptyGroups, waitingGroups, isWaiting, hgid]
      rw [hskip]
      exact ih hle
    | some ginfo =>
      rw [emptyGroups_cons l hgid]
      dsimp only
      split_ifs with hinv hadded hempty hempty
      · -- a group without players is added
        have hadd : pool.addGroup gid ginfo m = (⟨pool.selectedGroups ++ [gid], pool.playerCount⟩,
            true) := by
          have hfits : m ≥ pool.playerCount + ginfo.players.card := by omega
          rw [SelectionPool.addGroup, if_pos ⟨hinv, hfits⟩, hempty.2, Nat.add_zero]
        have hle' : m ≤ (⟨pool.selectedGroups ++ [gid], pool.playerCount⟩ :
          SelectionPool).playerCount := hle
        rw [hadd, ih hle']
        simp
      · rcases addGroup_cases pool gid ginfo m with ⟨-, hfits, heq⟩ | heq
        · exact absurd ⟨by omega, by omega⟩ hempty
        · rw [heq, decide_eq_true_eq] at hadded
          omega
      · rcases addGroup_cases pool gid ginfo m with ⟨-, hfits, heq⟩ | heq
        · rw [heq] at hadded
          exact absurd rfl hadded
        · have hfits : m ≥ pool.playerCount + ginfo.players.card := by omega
          rw [SelectionPool.addGroup, if_pos ⟨hinv, hfits⟩] at hadded
          exact absurd rfl hadded
      · rcases addGroup_cases pool gid ginfo m with ⟨-, hfits, heq⟩ | heq
        · exact absurd ⟨by omega, by omega⟩ hempty
        · rw [heq, List.append_nil]
      · exact ih hle

/-- The pools after a premade match is found, from empty ones. -/
theorem premadePools_eq {maxPlayersPerTeam : ℕ} {pools : Team → SelectionPool}
    (hmax : ∀ t, ∀ gid ∈ q.queuedGroups b (.premade t), q.groupSize gid ≤ maxPlayersPerTeam)
    (h : q.premadePools b maxPlayersPerTeam (fun _ => SelectionPool.init) = some pools) :
    ∃ first : Team → ℕ,
      (∀ t, q.firstWaiting (q.queuedGroups b (.premade t)) = some (first t)) ∧
      ∀ t, pools t = q.fillPool
        (min (q.groupSize (first .alliance)) (q.groupSize (first .horde)))
        (q.queuedGroups b (.normal t)) ⟨[first t], q.groupSize (first t)⟩ := by
  have hadd : ∀ t gid, q.firstWaiting (q.queuedGroups b (.premade t)) = some gid →
      q.addTo maxPlayersPerTeam SelectionPool.init gid = ⟨[gid], q.groupSize gid⟩ := by
    intro t gid hfirst
    have hwaits := List.find?_some hfirst
    have hle := hmax t gid (List.mem_of_find?_eq_some hfirst)
    cases hgid : q.groups gid with
    | none =>
      rw [isWaiting, hgid] at hwaits
      cases hwaits
    | some ginfo =>
      rw [isWaiting_eq hgid, decide_eq_true_eq] at hwaits
      rw [groupSize_eq hgid] at hle ⊢
      rcases addGroup_cases SelectionPool.init gid ginfo maxPlayersPerTeam with ⟨-, -, heq⟩ | heq
      · rw [addTo, hgid]
        dsimp only
        rw [heq]
        simp [SelectionPool.init]
      · have hpos : SelectionPool.init.addGroup gid ginfo maxPlayersPerTeam =
            (⟨[gid], 0 + ginfo.players.card⟩, true) :=
          if_pos ⟨hwaits, by simpa [SelectionPool.init] using hle⟩
        rw [addTo, hgid]
        dsimp only
        rw [hpos, Nat.zero_add]
  unfold premadePools at h
  cases ha : q.firstWaiting (q.queuedGroups b .premadeAlliance) with
  | none =>
    rw [ha] at h
    cases h
  | some a =>
    cases hh : q.firstWaiting (q.queuedGroups b .premadeHorde) with
    | none =>
      rw [ha, hh] at h
      cases h
    | some g =>
      rw [ha, hh] at h
      dsimp only at h
      rw [hadd .alliance a ha, hadd .horde g hh] at h
      obtain rfl := Option.some.inj h
      refine ⟨fun t => if t = .alliance then a else g, fun t => ?_, fun t => ?_⟩
      · cases t
        · exact ha
        · exact hh
      · cases t <;> rfl

/-- The pools hold the first premade group of each faction that waits and normal groups of the
faction that wait, and no group that is left to the side with fewer players fits into the
difference. -/
structure ToppedUp (q : Queue) (b : BracketId) (pools : Team → SelectionPool) : Prop where
  premade : ∀ t, ∃ gid others, q.firstWaiting (q.queuedGroups b (.premade t)) = some gid ∧
    (pools t).selectedGroups = gid :: others ∧ others.Sublist (q.queuedGroups b (.normal t)) ∧
    ∀ g ∈ others, q.isWaiting g = true
  filled : ∀ t, (pools t).playerCount < (pools t.other).playerCount →
    ∀ gid ∈ q.queuedGroups b (.normal t), q.isWaiting gid = true →
      gid ∉ (pools t).selectedGroups →
      (pools t.other).playerCount < (pools t).playerCount + q.groupSize gid

/-- If one premade group is smaller than the other one, then no normal group of its faction that
waits fits into the difference; groups without players at the front of the list do not count. -/
def NothingFits (q : Queue) (b : BracketId) : Prop :=
  ∀ t gid gid', q.firstWaiting (q.queuedGroups b (.premade t)) = some gid →
    q.firstWaiting (q.queuedGroups b (.premade t.other)) = some gid' →
    q.groupSize gid < q.groupSize gid' →
    ∀ g ∈ (q.waitingGroups (q.queuedGroups b (.normal t))).dropWhile fun g => q.groupSize g = 0,
      q.groupSize gid' < q.groupSize gid + q.groupSize g

/-- **Main result.** When a premade match is found, the smaller side is filled as far as possible
exactly if there is nothing to fill it with: the pools are filled to the size of the smaller
group. -/
theorem checkPremadeMatch_toppedUp_iff (h : q.Kept)
    (timeBefore minPlayersPerTeam maxPlayersPerTeam : ℕ) {q' : Queue} {pools : Team → SelectionPool}
    (hmax : ∀ t, ∀ gid ∈ q.queuedGroups b (.premade t), q.groupSize gid ≤ maxPlayersPerTeam)
    (hmatch : q.checkPremadeMatchPools b timeBefore minPlayersPerTeam maxPlayersPerTeam
      (fun _ => SelectionPool.init) = (q', pools, true)) :
    q.ToppedUp b pools ↔ q.NothingFits b := by
  have hpools : q.premadePools b maxPlayersPerTeam (fun _ => SelectionPool.init) = some pools := by
    unfold checkPremadeMatchPools at hmatch
    cases hp : q.premadePools b maxPlayersPerTeam fun _ => SelectionPool.init with
    | none =>
      rw [hp] at hmatch
      cases hmatch
    | some pools' =>
      rw [hp] at hmatch
      obtain ⟨-, hrest⟩ := Prod.mk.inj hmatch
      exact congrArg some (Prod.mk.inj hrest).1
  obtain ⟨first, hfirst, heq⟩ := premadePools_eq hmax hpools
  set m := min (q.groupSize (first .alliance)) (q.groupSize (first .horde)) with hm
  have hle : ∀ t, m ≤ q.groupSize (first t) := by
    intro t
    cases t
    · exact min_le_left _ _
    · exact min_le_right _ _
  have hpool : ∀ t, pools t = ⟨first t :: q.emptyGroups m (q.groupSize (first t))
      (q.queuedGroups b (.normal t)), q.groupSize (first t)⟩ := by
    intro t
    have hle' : m ≤ (⟨[first t], q.groupSize (first t)⟩ : SelectionPool).playerCount := hle t
    rw [heq t, fillPool_of_le _ hle']
    rfl
  have hmin : ∀ t, q.groupSize (first t) < q.groupSize (first t.other) →
      q.groupSize (first t) = m := by
    intro t hlt
    rw [hm]
    cases t
    · exact (min_eq_left hlt.le).symm
    · exact (min_eq_right hlt.le).symm
  have hwaiting : ∀ t, ∀ g ∈ q.emptyGroups m (q.groupSize (first t))
      (q.queuedGroups b (.normal t)), q.isWaiting g = true := by
    intro t g hg
    unfold emptyGroups at hg
    split_ifs at hg
    · exact (List.mem_filter.1 ((List.takeWhile_sublist _).subset hg)).2
    · cases hg
  have hsub : ∀ t, (q.emptyGroups m (q.groupSize (first t))
      (q.queuedGroups b (.normal t))).Sublist (q.queuedGroups b (.normal t)) := by
    intro t
    unfold emptyGroups
    split_ifs
    · exact (List.takeWhile_sublist _).trans List.filter_sublist
    · exact List.nil_sublist _
  -- what is left to the smaller side
  have hleft : ∀ t, q.groupSize (first t) < q.groupSize (first t.other) → ∀ g,
      (g ∈ q.queuedGroups b (.normal t) ∧ q.isWaiting g = true ∧ g ∉ (pools t).selectedGroups) ↔
        g ∈ (q.waitingGroups (q.queuedGroups b (.normal t))).dropWhile
          fun g => q.groupSize g = 0 := by
    intro t hlt g
    have hsplit := List.takeWhile_append_dropWhile (p := fun g => decide (q.groupSize g = 0))
      (l := q.waitingGroups (q.queuedGroups b (.normal t)))
    have hnodup : (q.waitingGroups (q.queuedGroups b (.normal t))).Nodup :=
      (h.nodup b (.normal t)).filter _
    have hmem : g ∈ q.waitingGroups (q.queuedGroups b (.normal t)) ↔
        g ∈ q.queuedGroups b (.normal t) ∧ q.isWaiting g = true := List.mem_filter
    have hsel : (pools t).selectedGroups = first t ::
        (q.waitingGroups (q.queuedGroups b (.normal t))).takeWhile fun g => q.groupSize g = 0 := by
      rw [hpool, emptyGroups, if_pos (hmin t hlt)]
    have hpremade : first t ∉ q.queuedGroups b (.normal t) := by
      intro hnormal
      have hlisted := h.listedAt (List.mem_of_find?_eq_some (hfirst t))
      exact GroupType.premade_ne_normal t t (hlisted.eq_of_mem hnormal).2.symm
    rw [← and_assoc, ← hmem, hsel, List.mem_cons, not_or]
    rw [← hsplit] at hnodup
    have hdisj := List.disjoint_of_nodup_append hnodup
    constructor
    · rintro ⟨hg, -, htake⟩
      rw [← hsplit, List.mem_append] at hg
      exact hg.resolve_left htake
    · intro hdrop
      have hg : g ∈ q.waitingGroups (q.queuedGroups b (.normal t)) :=
        (List.dropWhile_sublist _).subset hdrop
      refine ⟨hg, ?_, fun htake => hdisj htake hdrop⟩
      rintro rfl
      exact hpremade (hmem.1 hg).1
  constructor
  · intro htop t gid gid' hgid hgid' hlt g hg
    obtain rfl := Option.some.inj ((hfirst t).symm.trans hgid)
    obtain rfl := Option.some.inj ((hfirst t.other).symm.trans hgid')
    obtain ⟨hqueued, hwaits, hnot⟩ := (hleft t hlt g).2 hg
    have hcount : (pools t).playerCount < (pools t.other).playerCount := by
      rw [hpool, hpool]
      exact hlt
    have hfits := htop.filled t hcount g hqueued hwaits hnot
    rw [hpool, hpool] at hfits
    exact hfits
  · intro hnothing
    refine ⟨fun t => ⟨first t, _, hfirst t, congrArg _ (hpool t), hsub t, hwaiting t⟩, ?_⟩
    intro t hcount gid hqueued hwaits hnot
    rw [hpool, hpool] at hcount ⊢
    exact hnothing t _ _ (hfirst t) (hfirst t.other) hcount gid
      ((hleft t hcount gid).1 ⟨hqueued, hwaits, hnot⟩)

/-- Premade groups of five and of three players, and two more players of the faction of the three. -/
def premadeMatchOps (b : BracketId) : List Op :=
  [.addGroup 0 .alliance [1, 2, 3, 4, 5] b false true 0 0,
    .addGroup 0 .horde [11, 12, 13] b false true 0 0,
    .addGroup 0 .horde [21, 22] b false false 0 0]

theorem kept_premadeMatchOps :
    ((premadeMatchOps ⟨3, by decide⟩).foldl exec empty).Kept := by
  simp only [premadeMatchOps, List.foldl_cons, List.foldl_nil]
  refine ((kept_empty.exec ?_).exec ?_).exec ?_
  · show ∀ guid ∈ [1, 2, 3, 4, 5], _ = none
    decide
  · show ∀ guid ∈ [11, 12, 13], _ = none
    decide
  · show ∀ guid ∈ [21, 22], _ = none
    decide

theorem checkPremadeMatch_toppedUp_iff_leftover :
    let q := (premadeMatchOps ⟨3, by decide⟩).foldl exec empty
    let result := q.checkPremadeMatchPools ⟨3, by decide⟩ 0 3 10 fun _ => SelectionPool.init
    q.ToppedUp ⟨3, by decide⟩ result.2.1 ↔ q.NothingFits ⟨3, by decide⟩ := by
  refine checkPremadeMatch_toppedUp_iff kept_premadeMatchOps 0 3 10 ?_ rfl
  intro t
  cases t <;> decide

/-- The three players are not joined by the two others. -/
theorem checkPremadeMatch_not_toppedUp :
    let q := (premadeMatchOps ⟨3, by decide⟩).foldl exec empty
    let result := q.checkPremadeMatchPools ⟨3, by decide⟩ 0 3 10 fun _ => SelectionPool.init
    result.2.2 = true ∧ (∀ t, ∀ gid ∈ q.queuedGroups ⟨3, by decide⟩ (.premade t),
      q.groupSize gid ≤ 10) ∧ ¬q.ToppedUp ⟨3, by decide⟩ result.2.1 := by
  refine ⟨rfl, ?_, fun h => ?_⟩
  · intro t
    cases t <;> decide
  · exact absurd (h.filled .horde (by decide) 2 (by decide) (by decide) (by decide)) (by decide)

end Queue

end FaceCore.Battlegrounds
