import FaceCore.DungeonFinding.RoleChoice

/-!
# The leader of a proposal

`CheckCompatibility` looks for a leader among the players of a full group, and first of all among
those whose mask has the flag of the leader. These masks come from `CheckGroupRoles`, which takes
this flag away from all of them.

* `picked`, `drawn`: the player whom coins pick;
* `chooseLeader_eq_drawn`: masks without the flag leave the choice to the coins;
* `checkJudged_matched`: what a proposal is made of;
* `leader_right_iff`: when the leader is one of those who queued with the flag.
-/

namespace FaceCore.DungeonFinding

/-! ### Coins -/

/-- The player whom coins pick: the last one whose coin is heads, or else the first leader. -/
def picked (coin : ℕ → Bool) : List ℕ → ℕ → ℕ
  | [], leader => leader
  | guid :: players, leader =>
    picked (fun i => coin (i + 1)) players (if coin 0 then guid else leader)

/-- The player whom random numbers pick, one for each player but the first; there have been `draws`
numbers afterwards. The guid 0 stands for nobody. -/
def drawn (rnd : ℕ → ℕ) (draws : ℕ) (players : List ℕ) : ℕ :=
  match players.filter (· ≠ 0) with
  | [] => 0
  | guid :: rest => picked (fun i => rnd (draws - rest.length + i) % 2 ≠ 0) rest guid

theorem picked_mem (coin : ℕ → Bool) (players : List ℕ) (leader : ℕ) :
    picked coin players leader ∈ leader :: players := by
  induction players generalizing coin leader with
  | nil => exact List.mem_cons_self
  | cons guid players ih =>
    rw [picked]
    split_ifs
    · exact List.mem_cons_of_mem _ (ih _ guid)
    · rcases List.mem_cons.1 (ih (fun i => coin (i + 1)) leader) with heq | hmem
      · rw [heq]
        exact List.mem_cons_self
      · exact List.mem_cons_of_mem _ (List.mem_cons_of_mem _ hmem)

theorem drawn_mem {rnd : ℕ → ℕ} {draws : ℕ} {players : List ℕ} (hne : players ≠ []) :
    drawn rnd draws players ∈ players := by
  unfold drawn
  split
  · next hnone =>
    obtain ⟨guid, hguid⟩ := List.exists_mem_of_ne_nil players hne
    have hzero : guid = 0 := by
      by_contra hguid0
      have hmem : guid ∈ players.filter (· ≠ 0) := List.mem_filter.2 ⟨hguid, decide_eq_true hguid0⟩
      rw [hnone] at hmem
      cases hmem
    exact hzero ▸ hguid
  · next guid rest hsome =>
    have hmem := picked_mem (fun i => rnd (draws - rest.length + i) % 2 ≠ 0) rest guid
    rw [← hsome] at hmem
    exact List.mem_of_mem_filter hmem

section

variable {rnd : ℕ → ℕ} {es : List (ℕ × UInt8)} {leader draws : ℕ}

/-- When there is a leader, masks without the flag leave it to a coin each. -/
theorem chooseLeader_of_ne_zero (hmasks : ∀ e ∈ es, e.2 &&& playerRoleLeader = 0)
    (hguids : ∀ e ∈ es, e.1 ≠ 0) (hleader : leader ≠ 0) :
    chooseLeader rnd es false leader draws =
      (picked (fun i => rnd (draws + i) % 2 ≠ 0) (es.map Prod.fst) leader, draws + es.length) := by
  induction es generalizing leader draws with
  | nil => rfl
  | cons e es ih =>
    obtain ⟨hmask, hmasks⟩ := List.forall_mem_cons.1 hmasks
    obtain ⟨hguid, hguids⟩ := List.forall_mem_cons.1 hguids
    have hnext : (if rnd draws % 2 ≠ 0 then e.1 else leader) ≠ 0 := by
      split_ifs
      · exact hguid
      · exact hleader
    have hcoin : (fun i => decide (rnd (draws + 1 + i) % 2 ≠ 0)) =
        fun i => decide (rnd (draws + (i + 1)) % 2 ≠ 0) := by
      funext i
      rw [Nat.add_assoc, Nat.add_comm 1]
    rw [chooseLeader, if_neg (not_not.2 hmask), Bool.not_false, if_pos rfl, if_neg hleader,
      ih hmasks hguids hnext, hcoin, List.map_cons, picked, List.length_cons, Nat.add_zero]
    simp only [decide_eq_true_eq, Nat.add_zero, Nat.add_assoc, Nat.add_comm 1]

/-- Without flags the leader is the one whom the coins pick. -/
theorem chooseLeader_eq_drawn (hmasks : ∀ e ∈ es, e.2 &&& playerRoleLeader = 0)
    (hsorted : es.Pairwise fun e e' => e.1 < e'.1) :
    (chooseLeader rnd es false 0 draws).1 =
      drawn rnd (chooseLeader rnd es false 0 draws).2 (es.map Prod.fst) := by
  induction es with
  | nil => rfl
  | cons e es ih =>
    obtain ⟨hmask, hmasks⟩ := List.forall_mem_cons.1 hmasks
    obtain ⟨hlt, hsorted⟩ := List.pairwise_cons.1 hsorted
    have hstep : chooseLeader rnd (e :: es) false 0 draws = chooseLeader rnd es false e.1 draws := by
      rw [chooseLeader, if_neg (not_not.2 hmask), Bool.not_false, if_pos rfl, if_pos rfl]
    rw [hstep, List.map_cons, drawn]
    by_cases hguid : e.1 = 0
    · rw [List.filter_cons_of_neg (by simpa using hguid), hguid]
      exact ih hmasks hsorted
    · have hguids : ∀ e' ∈ es, e'.1 ≠ 0 := fun e' he' => Nat.ne_of_gt (Nat.lt_of_le_of_lt
        (Nat.zero_le _) (hlt e' he'))
      have hall : (es.map Prod.fst).filter (· ≠ 0) = es.map Prod.fst :=
        List.filter_eq_self.2 (List.forall_mem_map.2 fun e' he' => decide_eq_true (hguids e' he'))
      rw [List.filter_cons_of_pos (by simpa using hguid), hall, chooseLeader_of_ne_zero hmasks hguids
        hguid]
      simp only [List.length_map, Nat.add_sub_cancel]

end

/-! ### The masks of a proposal -/

theorem and_not_leader_and (m : UInt8) : m &&& ~~~playerRoleLeader &&& playerRoleLeader = 0 := by
  rw [UInt8.and_assoc]
  exact UInt8.and_zero

/-- The flag of the leader is in no mask that `CheckGroupRoles` leaves. -/
theorem checkGroupRoles_no_leader {masks : List UInt8} (hne : masks ≠ []) :
    ∀ m ∈ (checkGroupRoles masks).2, m &&& playerRoleLeader = 0 := by
  obtain ⟨-, htrue, hfalse⟩ := checkGroupRoles_spec hne
  intro m hm
  cases hfound : (checkGroupRoles masks).1 with
  | true =>
    obtain ⟨hreduces, -⟩ := htrue hfound
    obtain ⟨i, hi, rfl⟩ := List.getElem_of_mem hm
    have hi' : i < (masks.map (· &&& ~~~playerRoleLeader)).length := hreduces.length ▸ hi
    have hkept := hreduces.kept i hi'
    obtain ⟨m, -, hmask⟩ := List.mem_map.1 (mem_getD hi')
    rw [List.getD_eq_getElem?_getD, List.getElem?_eq_getElem hi, Option.getD_some, ← hmask] at hkept
    rw [← hkept, UInt8.and_assoc, and_not_leader_and, UInt8.and_zero]
  | false =>
    rw [hfalse hfound] at hm
    obtain ⟨m, -, rfl⟩ := List.mem_map.1 hm
    exact and_not_leader_and m

namespace LfgRolesMap

theorem checkGroupRoles_no_leader (groles : LfgRolesMap) :
    (∀ e ∈ groles.checkGroupRoles.2.entries, e.2 &&& playerRoleLeader = 0) ∧
      groles.checkGroupRoles.2.players = groles.players := by
  by_cases hne : groles.masks = []
  · have hnil : groles.entries = [] := List.map_eq_nil_iff.1 hne
    obtain rfl : groles = .empty := SortedMap.ext_entries hnil
    exact ⟨nofun, rfl⟩
  · obtain ⟨-, hplayers, hmasks⟩ := checkGroupRoles_masks hne
    refine ⟨fun e he => ?_, hplayers⟩
    have hmem : e.2 ∈ groles.checkGroupRoles.2.masks := List.mem_map_of_mem he
    rw [hmasks] at hmem
    exact DungeonFinding.checkGroupRoles_no_leader hne _ hmem

end LfgRolesMap

section

variable {mgr : MgrView} {rnd : ℕ → ℕ} {now : ℕ} {store store' : SortedMap ℕ LfgQueueData}
  {check : List ℕ} {s : Search}

/-- The players whose roles `CheckCompatibility` checks, with the masks that they queued with. -/
def checkedRoles (mgr : MgrView) (store : SortedMap ℕ LfgQueueData) (check : List ℕ) :
    LfgRolesMap :=
  if check.length > 1 then proposalRoles mgr store check else rolesOf store (check.headD 0)

theorem checkedRoles_congr (h : ∀ guid, rolesOf store guid = rolesOf store' guid) :
    checkedRoles mgr store check = checkedRoles mgr store' check := by
  unfold checkedRoles proposalRoles
  simp only [h]

/-- A list of at most one guid without players counts none. -/
theorem numPlayers_eq_zero {t : Tally} (hlen : ¬ check.length > 1)
    (ht : tally mgr store check ⟨0, 0, 0, .empty⟩ = .ok t)
    (hnil : (rolesOf store (check.headD 0)).players = []) : t.numPlayers = 0 := by
  match check with
  | [] =>
    cases ht
    rfl
  | [guid] =>
    rw [List.headD_cons, rolesOf] at hnil
    rw [tally, if_pos ⟨by decide, by decide⟩] at ht
    cases hfind : store.find guid with
    | none =>
      rw [hfind] at ht
      cases ht
    | some data =>
      rw [hfind] at ht hnil
      have hdata : data.roles.entries = [] := List.map_eq_nil_iff.1 hnil
      cases ht
      rw [hdata]
      rfl
  | _ :: _ :: _ => exact absurd (by simp) hlen

/-- A full list of guids has players, with the masks that `CheckGroupRoles` leaves; a list that is
not compatible gets a value below that of one with less players. -/
theorem judge_spec : match judge mgr store check with
    | .notQueued _ => True
    | .incompatible compatibles =>
      compatibles.toNat < LfgCompatibility.withLessPlayers.toNat
    | .lessPlayers _ => True
    | .full _ roles _ => roles = (checkedRoles mgr store check).checkGroupRoles.2 ∧
        (checkedRoles mgr store check).players ≠ [] := by
  unfold judge
  cases ht : tally mgr store check ⟨0, 0, 0, .empty⟩ with
  | error guid => exact trivial
  | ok t =>
    dsimp only
    -- a group that queued alone waits for more players
    by_cases hsingle : check.length = 1 ∧ t.numPlayers ≠ maxGroupSize
    · rw [if_pos hsingle]
      exact trivial
    by_cases hgroups : t.numLfgGroups > 1
    · rw [if_neg hsingle, if_pos hgroups]
      exact (by decide : LfgCompatibility.toNat .multipleLfgGroups < 7)
    by_cases hmany : t.numPlayers > maxGroupSize
    · rw [if_neg hsingle, if_neg hgroups, if_pos hmany]
      exact (by decide : LfgCompatibility.toNat .tooMuchPlayers < 7)
    rw [if_neg hsingle, if_neg hgroups, if_neg hmany]
    by_cases hmore : check.length > 1
    · rw [if_pos hmore, checkedRoles, if_pos hmore]
      by_cases hignores : ((t.numPlayers : ℤ) -
          (proposalRoles mgr store check).entries.length) % 2 ^ 8 ≠ 0
      · rw [if_pos hignores]
        exact (by decide : LfgCompatibility.toNat .hasIgnores < 7)
      rw [if_neg hignores]
      by_cases hroles : !(proposalRoles mgr store check).checkGroupRoles.1
      · rw [if_pos hroles]
        exact (by decide : LfgCompatibility.toNat .noRoles < 7)
      rw [if_neg hroles]
      by_cases hdungeons : proposalDungeons store check = ∅
      · rw [if_pos hdungeons]
        exact (by decide : LfgCompatibility.toNat .noDungeons < 7)
      rw [if_neg hdungeons]
      by_cases hless : t.numPlayers ≠ maxGroupSize
      · rw [if_pos hless]
        exact trivial
      rw [if_neg hless]
      -- a full group has as many entries as players, so it is not empty
      refine ⟨rfl, fun hnil => hignores ?_⟩
      have hlen : (proposalRoles mgr store check).entries.length = 0 := by
        rw [List.map_eq_nil_iff.1 hnil]
        rfl
      rw [not_not.1 hless, hlen]
      decide
    · rw [if_neg hmore, checkedRoles, if_neg hmore]
      by_cases hless : t.numPlayers ≠ maxGroupSize
      · rw [if_pos hless]
        exact trivial
      rw [if_neg hless]
      refine ⟨rfl, fun hnil => hless ?_⟩
      rw [numPlayers_eq_zero hmore ht hnil]
      decide

theorem roles_updateBestCompatible (data : LfgQueueData) (key : List Char) (roles : LfgRolesMap) :
    (data.updateBestCompatible key roles).roles = data.roles := by
  unfold LfgQueueData.updateBestCompatible
  extract_lets storedSize
  split_ifs with hsize
  · rfl
  · refine List.foldlRecOn (motive := fun data' : LfgQueueData => data'.roles = data.roles)
      roles.entries _ rfl ?_
    intro data' hdata e _
    split_ifs
    all_goals exact hdata

theorem queueDataStore_setCompatibles (s : Search) (key : List Char)
    (compatibles : LfgCompatibility) :
    (s.setCompatibles key compatibles).queue.queueDataStore = s.queue.queueDataStore := rfl

theorem queueDataStore_createProposal (t : Tally) (roles : LfgRolesMap) (dungeons : Finset ℕ) :
    (createProposal mgr rnd now check t roles dungeons s).queue.queueDataStore =
      s.queue.queueDataStore := by
  unfold createProposal
  exact List.foldlRecOn (motive := fun q : LFGQueue => q.queueDataStore = s.queue.queueDataStore)
    check _ rfl fun q hq guid _ => hq

/-- `CheckCompatibility` keeps the roles of what is queued, unless it drops a guid. -/
theorem rolesOf_checkJudged
    (h : LfgCompatibility.withLessPlayers.toNat ≤ (checkJudged mgr rnd now check s).1.toNat)
    (guid : ℕ) :
    rolesOf (checkJudged mgr rnd now check s).2.queue.queueDataStore guid =
      rolesOf s.queue.queueDataStore guid := by
  unfold checkJudged at h ⊢
  dsimp only at h ⊢
  cases hjudge : judge mgr s.queue.queueDataStore check with
  | notQueued guid' =>
    rw [hjudge] at h
    exact absurd (show 7 ≤ 0 from h) (by decide)
  | incompatible compatibles => rfl
  | lessPlayers roles =>
    dsimp only [LFGQueue.setCompatibilityData, rolesOf]
    rw [SortedMap.find_mapEntries]
    cases s.queue.queueDataStore.find guid with
    | none => rfl
    | some data =>
      dsimp only [Option.map_some]
      split_ifs
      · exact roles_updateBestCompatible data _ roles
      · rfl
  | full t roles dungeons =>
    dsimp only
    split_ifs
    · rfl
    · rw [queueDataStore_setCompatibles, queueDataStore_createProposal]

theorem checkCompatibility_judged
    (h : LfgCompatibility.withLessPlayers.toNat ≤ (checkCompatibility mgr rnd now check s).1.toNat) :
    ∃ s', (∀ guid, rolesOf s'.queue.queueDataStore guid = rolesOf s.queue.queueDataStore guid) ∧
      checkCompatibility mgr rnd now check s = checkJudged mgr rnd now check s' := by
  induction check with
  | nil => exact absurd (show 7 ≤ 1 from h) (by decide)
  | cons guid check ih =>
    rw [checkCompatibility] at h ⊢
    dsimp only at h ⊢
    split_ifs at h ⊢ with hlong hchild hless
    · exact absurd (show 7 ≤ 1 from h) (by decide)
    · exact absurd hless (Nat.not_lt.2 h)
    · obtain ⟨s', hroles, heq⟩ := ih (Nat.not_lt.1 hless)
      refine ⟨(checkCompatibility mgr rnd now check s).2, fun guid => ?_, rfl⟩
      rw [heq] at hless ⊢
      rw [rolesOf_checkJudged (Nat.not_lt.1 hless), hroles]
    · exact ⟨s, fun _ => rfl, rfl⟩

/-! ### The leader -/

/-- The proposed players, in the order of their guids. -/
def LfgProposal.proposed (p : LfgProposal) : List ℕ := p.players.entries.map Prod.fst

/-- A match adds a proposal for the players whose roles are checked, led by the one whom the coins
pick. -/
theorem checkJudged_matched (h : (checkJudged mgr rnd now check s).1 = .matched) :
    ∃ p, (checkJudged mgr rnd now check s).2.added = s.added ++ [p] ∧ p.queues = check ∧
      p.proposed = (checkedRoles mgr s.queue.queueDataStore check).players ∧ p.proposed ≠ [] ∧
      p.leader = drawn rnd (checkJudged mgr rnd now check s).2.draws p.proposed := by
  have hspec := @judge_spec mgr s.queue.queueDataStore check
  unfold checkJudged at h ⊢
  dsimp only at h ⊢
  cases hjudge : judge mgr s.queue.queueDataStore check with
  | notQueued guid =>
    rw [hjudge] at h
    cases h
  | incompatible compatibles =>
    rw [hjudge] at hspec h
    rw [show compatibles = .matched from h] at hspec
    exact absurd (show 9 < 7 from hspec) (by decide)
  | lessPlayers roles =>
    rw [hjudge] at h
    cases h
  | full t roles dungeons =>
    rw [hjudge] at hspec h
    dsimp only at h ⊢
    split_ifs at h ⊢ with hqueued
    obtain ⟨rfl, hne⟩ := hspec
    obtain ⟨hmasks, hplayers⟩ := LfgRolesMap.checkGroupRoles_no_leader
      (checkedRoles mgr s.queue.queueDataStore check)
    -- neither the search for roles nor the proposal changes who is in it
    have hproposed : ∀ f : ℕ → UInt8 → LfgProposalPlayer,
        ((checkedRoles mgr s.queue.queueDataStore check).checkGroupRoles.2.mapEntries f).entries.map
          Prod.fst = (checkedRoles mgr s.queue.queueDataStore check).players := by
      intro f
      rw [← hplayers, LfgRolesMap.players, SortedMap.mapEntries, List.map_map]
      rfl
    refine ⟨_, rfl, rfl, hproposed _, ?_, ?_⟩
    · rw [LfgProposal.proposed, hproposed]
      exact hne
    · rw [LfgProposal.proposed, hproposed, ← hplayers]
      exact chooseLeader_eq_drawn hmasks (SortedMap.sorted _)

/-- The player has queued, with one of the guids, with the flag of the leader. -/
def Volunteers (store : SortedMap ℕ LfgQueueData) (check : List ℕ) (player : ℕ) : Prop :=
  ∃ guid ∈ check, ∃ e ∈ (rolesOf store guid).entries,
    e.1 = player ∧ e.2 &&& playerRoleLeader ≠ 0

instance (store : SortedMap ℕ LfgQueueData) (check : List ℕ) (player : ℕ) :
    Decidable (Volunteers store check player) :=
  inferInstanceAs (Decidable (∃ guid ∈ check, ∃ e ∈ (rolesOf store guid).entries, _))

/-- What the leader of a proposal should be: one of those who queued with the flag of the leader if
there is one among the proposed players, or else one of these. -/
structure LeaderRight (store : SortedMap ℕ LfgQueueData) (p : LfgProposal) : Prop where
  volunteers : (∃ player ∈ p.proposed, Volunteers store p.queues player) →
    Volunteers store p.queues p.leader
  proposed : (¬ ∃ player ∈ p.proposed, Volunteers store p.queues player) → p.leader ∈ p.proposed

/-- **Main result.** The leader of a proposal is right if and only if none of the players has queued
with the flag of the leader, or the one whom the coins pick among all of them has. -/
theorem leader_right_iff (h : (checkCompatibility mgr rnd now check s).1 = .matched) :
    ∃ p, (checkCompatibility mgr rnd now check s).2.added.getLast? = some p ∧ p.queues = check ∧
      p.proposed = (checkedRoles mgr s.queue.queueDataStore check).players ∧
      (LeaderRight s.queue.queueDataStore p ↔
        (∀ player ∈ (checkedRoles mgr s.queue.queueDataStore check).players,
          ¬ Volunteers s.queue.queueDataStore check player) ∨
        Volunteers s.queue.queueDataStore check
          (drawn rnd (checkCompatibility mgr rnd now check s).2.draws
            (checkedRoles mgr s.queue.queueDataStore check).players)) := by
  have hcompatible : LfgCompatibility.withLessPlayers.toNat ≤
      (checkCompatibility mgr rnd now check s).1.toNat := by
    rw [h]
    decide
  obtain ⟨s', hroles, heq⟩ := checkCompatibility_judged hcompatible
  rw [heq] at h ⊢
  -- the coins pick the leader among all proposed players
  obtain ⟨p, hadded, hqueues, hproposed, hne, hleader⟩ := checkJudged_matched h
  rw [checkedRoles_congr hroles] at hproposed
  refine ⟨p, by rw [hadded, List.getLast?_concat], hqueues, hproposed, ?_⟩
  rw [← hproposed, ← hleader, ← hqueues]
  constructor
  · intro hright
    by_cases hsome : ∃ player ∈ p.proposed, Volunteers s.queue.queueDataStore p.queues player
    · exact .inr (hright.volunteers hsome)
    · exact .inl fun player hplayer hv => hsome ⟨player, hplayer, hv⟩
  · intro hcond
    refine ⟨?_, fun _ => hleader ▸ drawn_mem hne⟩
    rintro ⟨player, hplayer, hv⟩
    exact hcond.resolve_left fun hnone => hnone player hplayer hv

end

/-! ### A group whose tank would lead -/

namespace FullGroup

def guid : ℕ := 0x1F50 * 2 ^ 48 + 1

/-- Nobody ignores anybody, and all are queued. -/
def mgr : MgrView := ⟨fun _ => .queued, fun _ => .none, fun _ => false, fun _ => none⟩

/-- A tank who would lead, a healer and three others. -/
def roles : LfgRolesMap :=
  ⟨[(1, playerRoleLeader ||| playerRoleTank), (2, playerRoleHealer), (3, playerRoleDamage),
    (4, playerRoleDamage), (5, playerRoleDamage)], by decide⟩

def search : Search :=
  { queue := ⟨⟨[(guid, .new 0 {1} roles)], List.pairwise_singleton _ _⟩, .empty, [], [guid]⟩
    added := []
    draws := 0 }

end FullGroup

/-- When all coins are tails the first player leads, who would. -/
theorem leader_right_tails :
    (checkCompatibility FullGroup.mgr (fun _ => 0) 0 [FullGroup.guid] FullGroup.search).1 = .matched ∧
      ∃ p, (checkCompatibility FullGroup.mgr (fun _ => 0) 0 [FullGroup.guid]
          FullGroup.search).2.added.getLast? = some p ∧
        LeaderRight FullGroup.search.queue.queueDataStore p := by
  have hmatched : (checkCompatibility FullGroup.mgr (fun _ => 0) 0 [FullGroup.guid]
      FullGroup.search).1 = .matched := by decide +kernel
  obtain ⟨p, hp, -, -, hright⟩ :=
    @leader_right_iff FullGroup.mgr (fun _ => 0) 0 [FullGroup.guid] FullGroup.search hmatched
  exact ⟨hmatched, p, hp, hright.2 (.inr (by decide +kernel))⟩

/-- When all coins are heads the last player leads, and the one who would is passed over. -/
theorem heads_pass_volunteer :
    (checkCompatibility FullGroup.mgr (fun _ => 1) 0 [FullGroup.guid] FullGroup.search).1 = .matched ∧
      ∃ p, (checkCompatibility FullGroup.mgr (fun _ => 1) 0 [FullGroup.guid]
          FullGroup.search).2.added = [p] ∧
        ¬ LeaderRight FullGroup.search.queue.queueDataStore p := by
  refine ⟨by decide +kernel, _, rfl, fun h => ?_⟩
  have hleads := h.volunteers ⟨1, by decide +kernel, by decide +kernel⟩
  revert hleads
  decide +kernel

end FaceCore.DungeonFinding
