import FaceCore.DungeonFinding.Needs
import FaceCore.Lib.Runs

/-!
# The best list of a queue entry

Every entry of the queue remembers the longest list of guids that it could join with less players
than a group, as the text of these guids, and how many tanks, healers and others this list needs.
Whether a guid is in such a text is looked up by its numeral, so the guid 1 is found in the list of
11 and 12.

* `updateQueueTimers`: the queue status, which looks for a list if an entry has none;
* `BestRight`: what an entry should remember;
* `ListedFirst`, `Admits`: when a search by numerals does no harm, and the requests for which none
  does;
* `Sound`: the invariant, with what the cache holds;
* `bestRight_of_admitted`: such requests keep all entries right.

A guid is queued if it has queue data.
-/

namespace FaceCore.DungeonFinding

/-! ### The timers -/

structure LfgWaitTime where
  time : ℤ
  number : ℕ

/-- `LfgWaitTime()`. -/
def LfgWaitTime.new : LfgWaitTime := ⟨-1, 0⟩

/-- The wait times of the queue for each dungeon. -/
structure WaitTimes where
  avg : SortedMap ℕ LfgWaitTime
  tank : SortedMap ℕ LfgWaitTime
  healer : SortedMap ℕ LfgWaitTime
  dps : SortedMap ℕ LfgWaitTime

/-- The wait time of a dungeon, which is entered if there is none. -/
def waitTimeOf (store : SortedMap ℕ LfgWaitTime) (dungeonId : ℕ) : ℤ × SortedMap ℕ LfgWaitTime :=
  match store.find dungeonId with
  | some wt => (wt.time, store)
  | none => (LfgWaitTime.new.time, store.insert dungeonId .new)

structure LfgQueueStatusData where
  dungeonId : ℕ
  waitTime : ℤ
  waitTimeAvg : ℤ
  waitTimeTank : ℤ
  waitTimeHealer : ℤ
  waitTimeDps : ℤ
  queuedTime : ℕ
  tanks : UInt8
  healers : UInt8
  dps : UInt8

/-- The wait time for a mask of roles. -/
def waitTimeFor (role : UInt8) (wtTank wtHealer wtDps wtAvg : ℤ) : ℤ :=
  if role = 0 then -1
  else if role = playerRoleTank then wtTank
  else if role = playerRoleHealer then wtHealer
  else if role = playerRoleDamage then wtDps
  else wtAvg

/-- What is sent to the players of an entry, and the wait times with those that are entered. The
first of the dungeons counts. -/
def queueStatus (currTime : ℕ) (waitTimes : WaitTimes) (queueinfo : LfgQueueData) :
    WaitTimes × List (ℕ × LfgQueueStatusData) :=
  let dungeonId := Picking.pick queueinfo.dungeons 0 0
  let wtTank := waitTimeOf waitTimes.tank dungeonId
  let wtHealer := waitTimeOf waitTimes.healer dungeonId
  let wtDps := waitTimeOf waitTimes.dps dungeonId
  let wtAvg := waitTimeOf waitTimes.avg dungeonId
  let role := queueinfo.roles.entries.foldl (fun role e => role ||| e.2) 0 &&& ~~~playerRoleLeader
  let queueData : LfgQueueStatusData :=
    { dungeonId := dungeonId
      waitTime := waitTimeFor role wtTank.1 wtHealer.1 wtDps.1 wtAvg.1
      waitTimeAvg := wtAvg.1
      waitTimeTank := wtTank.1
      waitTimeHealer := wtHealer.1
      waitTimeDps := wtDps.1
      queuedTime := (((currTime : ℤ) - queueinfo.joinTime) % 2 ^ 32).toNat
      tanks := queueinfo.tanks
      healers := queueinfo.healers
      dps := queueinfo.dps }
  (⟨wtAvg.2, wtTank.2, wtHealer.2, wtDps.2⟩, queueinfo.roles.entries.map fun e => (e.1, queueData))

namespace LFGQueue

/-- An entry without a list looks for one. -/
def refresh (q : LFGQueue) (guid : ℕ) (queueinfo : LfgQueueData) : LfgQueueData :=
  if queueinfo.bestCompatible = [] then q.findBestCompatible guid queueinfo else queueinfo

/-- `UpdateQueueTimers`: the queue, the wait times, and what is sent to the players. -/
def updateQueueTimers (q : LFGQueue) (waitTimes : WaitTimes) (currTime : ℕ) :
    LFGQueue × WaitTimes × List (ℕ × LfgQueueStatusData) :=
  let store := q.queueDataStore.mapEntries q.refresh
  let sent := store.entries.foldl (fun (r : WaitTimes × List (ℕ × LfgQueueStatusData)) e =>
      let status := queueStatus currTime r.1 e.2
      (status.1, r.2 ++ status.2)) (waitTimes, [])
  ({ q with queueDataStore := store }, sent)

/-! ### Requests -/

/-- What is asked of the queue. `findGroups` brings the states that `LFGMgr` knows then and the
random numbers, `updateQueueTimers` the wait times. -/
inductive Request
  | addQueueData (guid joinTime : ℕ) (dungeons : Finset ℕ) (roles : LfgRolesMap)
  | findGroups (mgr : MgrView) (rnd : ℕ → ℕ) (now : ℕ)
  | removeFromQueue (guid : ℕ)
  | updateQueueTimers (waitTimes : WaitTimes) (currTime : ℕ)

/-- The queue after a request. -/
def exec (q : LFGQueue) : Request → LFGQueue
  | .addQueueData guid joinTime dungeons roles => q.addQueueData guid joinTime dungeons roles
  | .findGroups mgr rnd now => (DungeonFinding.findGroups mgr rnd now ⟨q, [], 0⟩).queue
  | .removeFromQueue guid => q.removeFromQueue guid
  | .updateQueueTimers waitTimes currTime => (q.updateQueueTimers waitTimes currTime).1

end LFGQueue

/-- The list that an entry remembers is one of queued guids with its own among them, and its counts
are the needed ones less the roles that the players of these guids are given. -/
def BestRight (store : SortedMap ℕ LfgQueueData) (guid : ℕ) (data : LfgQueueData) : Prop :=
  data.bestCompatible ≠ [] → ∃ check, data.bestCompatible = concatenateGuids check ∧
    guid ∈ check ∧ Queued store check ∧ data.Needs (assignedRoles store check)

/-- All entries are right. -/
def LFGQueue.BestRight (q : LFGQueue) : Prop :=
  ∀ guid data, q.queueDataStore.find guid = some data →
    DungeonFinding.BestRight q.queueDataStore guid data

/-! ### Requests that do no harm -/

/-- A key that is tried for a guid and does not list it is beaten by one that does: it has more
guids, or as many and comes first. -/
def ListedFirst (cache : SortedMap (List Char) LfgCompatibilityData) (guid : ℕ) : Prop :=
  ∀ e ∈ candidates cache guid, ¬ Joined.Lists '|' e.1 guid →
    ∃ e' ∈ candidates cache guid, Joined.Lists '|' e'.1 guid ∧
      (guidCount e < guidCount e' ∨ guidCount e' = guidCount e ∧ e'.1 < e.1)

instance (cache : SortedMap (List Char) LfgCompatibilityData) (guid : ℕ) :
    Decidable (ListedFirst cache guid) :=
  inferInstanceAs (Decidable (∀ e ∈ candidates cache guid, _ → ∃ e' ∈ candidates cache guid, _))

namespace LFGQueue

/-- Some key of compatible guids, or the list of another entry, has the guid. -/
def Remembers (q : LFGQueue) (guid : ℕ) : Prop :=
  (∃ e ∈ q.compatibleMapStore.entries,
      e.2.compatibility = .withLessPlayers ∧ Joined.Lists '|' e.1 guid) ∨
    ∃ e ∈ q.queueDataStore.entries, e.1 ≠ guid ∧ Joined.Lists '|' e.2.bestCompatible guid

instance (q : LFGQueue) (guid : ℕ) : Decidable (q.Remembers guid) :=
  inferInstanceAs (Decidable (_ ∨ _))

/-- The requests that keep all entries right. Players who join can all be needed, and a guid that is
remembered with its roles keeps these; and entries look for a list only where the numeral of
their guid does not mislead them. -/
def Admits (q : LFGQueue) : Request → Prop
  | .addQueueData guid _ _ roles => roles.Joinable ∧
      ((∃ e ∈ q.queueDataStore.entries, e.1 = guid ∧ e.2.roles.entries ≠ roles.entries) →
        ¬ q.Remembers guid)
  | .findGroups _ _ _ => True
  | .removeFromQueue guid =>
      ∀ e ∈ q.queueDataStore.entries, e.1 ≠ guid → contains e.2.bestCompatible guid = true →
        ListedFirst (q.removeFromCompatibles guid).compatibleMapStore e.1
  | .updateQueueTimers _ _ =>
      ∀ e ∈ q.queueDataStore.entries, e.2.bestCompatible = [] →
        ListedFirst q.compatibleMapStore e.1

instance (q : LFGQueue) : ∀ r : Request, Decidable (q.Admits r)
  | .addQueueData _ _ _ _ => inferInstanceAs (Decidable (_ ∧ (_ → _)))
  | .findGroups _ _ _ => inferInstanceAs (Decidable True)
  | .removeFromQueue _ => inferInstanceAs (Decidable (∀ e ∈ q.queueDataStore.entries, _ → _ → _))
  | .updateQueueTimers _ _ => inferInstanceAs (Decidable (∀ e ∈ q.queueDataStore.entries, _ → _))

end LFGQueue

/-! ### The invariant -/

section

variable {store store' : SortedMap ℕ LfgQueueData} {key : List Char} {roles : LfgRolesMap}
  {guid : ℕ} {data : LfgQueueData}

/-- The roles of a guid, if it has data. -/
def rolesAt (store : SortedMap ℕ LfgQueueData) (guid : ℕ) : Option LfgRolesMap :=
  (store.find guid).map LfgQueueData.roles

theorem rolesOf_eq (store : SortedMap ℕ LfgQueueData) (guid : ℕ) :
    rolesOf store guid = (rolesAt store guid).getD .empty := by
  rw [rolesOf, rolesAt]
  cases store.find guid with
  | none => rfl
  | some data => rfl

theorem isSome_rolesAt : (rolesAt store guid).isSome = (store.find guid).isSome :=
  Option.isSome_map

theorem rolesAt_mapEntries {f : ℕ → LfgQueueData → LfgQueueData}
    (hf : ∀ guid data, (f guid data).roles = data.roles) (guid : ℕ) :
    rolesAt (store.mapEntries f) guid = rolesAt store guid := by
  rw [rolesAt, rolesAt, SortedMap.find_mapEntries, Option.map_map]
  congr 1
  funext data
  exact hf guid data

/-- A key of the cache is the text of queued guids, with the roles that their players are given and
that can all be needed. -/
def Assembled (store : SortedMap ℕ LfgQueueData) (key : List Char) (roles : LfgRolesMap) : Prop :=
  ∃ check, key = concatenateGuids check ∧ Queued store check ∧ roles = assignedRoles store check ∧
    roles.WithinNeeds

theorem queued_transfer {check : List ℕ}
    (h : ∀ guid ∈ check, rolesAt store' guid = rolesAt store guid) (hq : Queued store check) :
    Queued store' check ∧ assignedRoles store' check = assignedRoles store check := by
  refine ⟨fun guid hguid => ?_, assignedRoles_congr fun guid hguid => ?_⟩
  · rw [← isSome_rolesAt, h guid hguid, isSome_rolesAt]
    exact hq guid hguid
  · rw [rolesOf_eq, rolesOf_eq, h guid hguid]

theorem Assembled.transfer (h : Assembled store key roles)
    (hsame : ∀ guid, Joined.Lists '|' key guid → rolesAt store' guid = rolesAt store guid) :
    Assembled store' key roles := by
  obtain ⟨check, rfl, hq, hroles, hneeds⟩ := h
  have hcheck := queued_transfer (fun guid hguid => hsame guid (lists_concatenateGuids.2 hguid)) hq
  exact ⟨check, rfl, hcheck.1, hroles.trans hcheck.2.symm, hneeds⟩

theorem Assembled.isSome (h : Assembled store key roles) (hlists : Joined.Lists '|' key guid) :
    (store.find guid).isSome := by
  obtain ⟨check, rfl, hq, -, -⟩ := h
  exact hq guid (lists_concatenateGuids.1 hlists)

theorem BestRight.transfer (h : BestRight store guid data)
    (hsame : ∀ other, Joined.Lists '|' data.bestCompatible other →
      rolesAt store' other = rolesAt store other) : BestRight store' guid data := by
  intro hne
  obtain ⟨check, hbest, hmem, hq, hneeds⟩ := h hne
  have hcheck := queued_transfer
    (fun other hother => hsame other (hbest ▸ lists_concatenateGuids.2 hother)) hq
  exact ⟨check, hbest, hmem, hcheck.1, hcheck.2 ▸ hneeds⟩

theorem BestRight.isSome {other : ℕ} (h : BestRight store guid data)
    (hlists : Joined.Lists '|' data.bestCompatible other) : (store.find other).isSome := by
  obtain ⟨check, hbest, -, hq, -⟩ := h (ne_nil_of_contains (contains_of_lists hlists))
  exact hq other (lists_concatenateGuids.1 (hbest ▸ hlists))

theorem Assembled.bestRight (h : Assembled store key roles) (hlists : Joined.Lists '|' key guid) :
    BestRight store guid (data.assign key roles) := by
  obtain ⟨check, rfl, hq, rfl, hneeds⟩ := h
  intro _
  exact ⟨check, LfgQueueData.bestCompatible_assign, lists_concatenateGuids.1 hlists, hq,
    LfgQueueData.needs_assign hneeds⟩

namespace LFGQueue

variable {q : LFGQueue}

/-- All keys of compatible guids with less players are assembled. -/
def CacheRight (q : LFGQueue) (store : SortedMap ℕ LfgQueueData) : Prop :=
  ∀ e ∈ q.compatibleMapStore.entries, e.2.compatibility = .withLessPlayers →
    Assembled store e.1 e.2.roles

/-- A search for a list ends well when the numeral of the guid does not mislead it. -/
theorem bestRight_findBestCompatible (hcache : q.CacheRight store)
    (hlisted : ListedFirst q.compatibleMapStore guid) (hbest : data.bestCompatible = []) :
    DungeonFinding.BestRight store guid (q.findBestCompatible guid data) := by
  rcases q.findBestCompatible_cases guid data with heq | ⟨e, hfirst, heq⟩
  · rw [heq]
    exact fun hne => absurd hbest hne
  · rw [heq]
    obtain ⟨hmem, hless, -⟩ := mem_candidates.1 hfirst.mem
    refine (hcache e hmem hless).bestRight ?_
    by_contra hnot
    -- a key that lists the guid would have been preferred
    obtain ⟨e', he', hlists, hbeaten⟩ := hlisted e hfirst.mem hnot
    have hsorted : (candidates q.compatibleMapStore guid).Pairwise fun a b => a.1 < b.1 :=
      q.compatibleMapStore.sorted.filter _
    rcases hfirst.not_beaten hsorted he' with hlt | ⟨heq, rfl | hlt⟩
    · omega
    · exact hnot hlists
    · rcases hbeaten with hlonger | ⟨-, hbefore⟩
      · omega
      · exact lt_asymm hlt hbefore

theorem roles_findBestCompatible (q : LFGQueue) (guid : ℕ) (data : LfgQueueData) :
    (q.findBestCompatible guid data).roles = data.roles := by
  rcases q.findBestCompatible_cases guid data with heq | ⟨e, -, heq⟩
  · rw [heq]
  · rw [heq, LfgQueueData.roles_assign]

/-- What requests that do no harm keep. -/
structure Sound (q : LFGQueue) : Prop where
  joinable : ∀ guid data, q.queueDataStore.find guid = some data → data.roles.Joinable
  new : Queued q.queueDataStore q.newToQueueStore
  current : Queued q.queueDataStore q.currentQueueStore
  cache : q.CacheRight q.queueDataStore
  best : q.BestRight

theorem Sound.joinable_rolesOf (h : q.Sound) {check : List ℕ}
    (hq : Queued q.queueDataStore check) :
    ∀ guid ∈ check, (rolesOf q.queueDataStore guid).Joinable := by
  intro guid hguid
  obtain ⟨data, hdata⟩ := Option.isSome_iff_exists.1 (hq guid hguid)
  rw [rolesOf, hdata]
  exact h.joinable guid data hdata

theorem Sound.joinable_of_rolesAt (h : q.Sound)
    (hsame : rolesAt store guid = rolesAt q.queueDataStore guid)
    (hdata : store.find guid = some data) : data.roles.Joinable := by
  rw [rolesAt, hdata, Option.map_some] at hsame
  obtain ⟨old, hold, heq⟩ := Option.map_eq_some_iff.1 hsame.symm
  exact heq ▸ h.joinable guid old hold

theorem sound_empty : empty.Sound where
  joinable := by
    intro guid data h
    cases h
  new := fun _ h => (List.not_mem_nil h).elim
  current := fun _ h => (List.not_mem_nil h).elim
  cache := fun _ h => (List.not_mem_nil h).elim
  best := by
    intro guid data h
    cases h

end LFGQueue

end

/-! ### The search -/

section

variable {mgr : MgrView} {rnd : ℕ → ℕ} {now : ℕ} {check all : List ℕ} {s s' s'' : Search}
  {q : LFGQueue}

namespace LFGQueue

/-- What is not compatible with less players makes no difference in the cache. -/
theorem Sound.setCompatibles (h : q.Sound) (key : List Char) {compatibles : LfgCompatibility}
    (hne : compatibles ≠ .withLessPlayers) : (q.setCompatibles key compatibles).Sound where
  joinable := h.joinable
  new := h.new
  current := h.current
  best := h.best
  cache := by
    intro e he hless
    rcases SortedMap.mem_insertEntry he with rfl | he
    · exact absurd hless hne
    · exact h.cache e he hless

theorem Sound.removeFromNewQueue (h : q.Sound) (guid : ℕ) : (q.removeFromNewQueue guid).Sound where
  joinable := h.joinable
  new := fun other hother => h.new other (List.mem_of_mem_filter hother)
  current := h.current
  best := h.best
  cache := h.cache

theorem Sound.removeFromCurrentQueue (h : q.Sound) (guid : ℕ) :
    (q.removeFromCurrentQueue guid).Sound where
  joinable := h.joinable
  new := h.new
  current := fun other hother => h.current other (List.mem_of_mem_filter hother)
  best := h.best
  cache := h.cache

theorem Sound.addToCurrentQueue (h : q.Sound) {guid : ℕ} (hq : Queued q.queueDataStore [guid]) :
    (q.addToCurrentQueue guid).Sound where
  joinable := h.joinable
  new := h.new
  current := List.forall_mem_append.2 ⟨h.current, hq⟩
  best := h.best
  cache := h.cache

/-- Guids with less players than a group are remembered, by the cache and by their entries. -/
theorem Sound.remember (h : q.Sound) {roles : LfgRolesMap} (hq : Queued q.queueDataStore check)
    (hroles : roles = assignedRoles q.queueDataStore check) (hneeds : roles.WithinNeeds) :
    let store := q.queueDataStore.mapEntries fun guid data =>
      if guid ∈ check then data.updateBestCompatible (concatenateGuids check) roles else data
    ({ q with queueDataStore := store }.setCompatibilityData (concatenateGuids check)
      ⟨.withLessPlayers, roles⟩).Sound ∧
      ∀ guid, rolesAt store guid = rolesAt q.queueDataStore guid := by
  intro store
  have hsame : ∀ guid, rolesAt store guid = rolesAt q.queueDataStore guid := by
    refine rolesAt_mapEntries fun guid data => ?_
    split_ifs
    · exact roles_updateBestCompatible data _ roles
    · rfl
  have hqueued : ∀ {l}, Queued q.queueDataStore l → Queued store l :=
    fun hl => (queued_transfer (fun guid _ => hsame guid) hl).1
  have hassembled : Assembled q.queueDataStore (concatenateGuids check) roles :=
    ⟨check, rfl, hq, hroles, hneeds⟩
  have hcheck : Assembled store (concatenateGuids check) roles :=
    hassembled.transfer fun guid _ => hsame guid
  refine ⟨⟨fun guid data hfind => ?_, hqueued h.new, hqueued h.current, fun e he hless => ?_,
    fun guid data hfind => ?_⟩, hsame⟩
  · exact h.joinable_of_rolesAt (hsame guid) hfind
  · rcases SortedMap.mem_insertEntry he with rfl | he
    · exact hcheck
    · exact (h.cache e he hless).transfer fun guid _ => hsame guid
  · obtain ⟨old, hold, rfl⟩ := SortedMap.find_mapEntries_eq_some.1 hfind
    have hbest : DungeonFinding.BestRight store guid old :=
      (h.best guid old hold).transfer fun other _ => hsame other
    show DungeonFinding.BestRight store guid _
    split_ifs with hmem
    · rw [LfgQueueData.updateBestCompatible_eq]
      split_ifs
      · exact hbest
      · exact hcheck.bestRight (lists_concatenateGuids.2 hmem)
    · exact hbest

end LFGQueue

/-- A part of the search leaves the queue sound, and the guids and their roles as they are. -/
structure Search.Keeps (s s' : Search) : Prop where
  sound : s'.queue.Sound
  same : ∀ guid, rolesAt s'.queue.queueDataStore guid = rolesAt s.queue.queueDataStore guid

namespace Search.Keeps

theorem refl (h : s.queue.Sound) : s.Keeps s := ⟨h, fun _ => rfl⟩

theorem trans (h : s.Keeps s') (h' : s'.Keeps s'') : s.Keeps s'' :=
  ⟨h'.sound, fun guid => (h'.same guid).trans (h.same guid)⟩

theorem queued (h : s.Keeps s') (hq : Queued s.queue.queueDataStore check) :
    Queued s'.queue.queueDataStore check :=
  (queued_transfer (fun guid _ => h.same guid) hq).1

theorem setCompatibles (h : s.Keeps s') (key : List Char) {compatibles : LfgCompatibility}
    (hne : compatibles ≠ .withLessPlayers) : s.Keeps (s'.setCompatibles key compatibles) :=
  ⟨h.sound.setCompatibles key hne, h.same⟩

theorem createProposal (h : s.Keeps s') (t : Tally) (roles : LfgRolesMap) (dungeons : Finset ℕ) :
    s.Keeps (DungeonFinding.createProposal mgr rnd now check t roles dungeons s') := by
  refine ⟨?_, fun guid => ?_⟩
  · exact List.foldlRecOn (motive := fun q : LFGQueue => q.Sound) check _ h.sound
      fun q hq guid _ => (hq.removeFromNewQueue guid).removeFromCurrentQueue guid
  · rw [queueDataStore_createProposal, h.same]

end Search.Keeps

theorem keeps_checkJudged (h : s.queue.Sound) (hne : check ≠ [])
    (hq : Queued s.queue.queueDataStore check) :
    s.Keeps (checkJudged mgr rnd now check s).2 := by
  have hspec := @judge_spec mgr s.queue.queueDataStore check
  unfold checkJudged
  dsimp only
  cases hjudge : judge mgr s.queue.queueDataStore check with
  | notQueued guid => exact absurd hjudge (judge_ne_notQueued hq guid)
  | incompatible compatibles =>
    rw [hjudge] at hspec
    refine (Search.Keeps.refl h).setCompatibles _ ?_
    rintro rfl
    exact absurd hspec (lt_irrefl _)
  | lessPlayers roles =>
    obtain ⟨hroles, hneeds⟩ := judge_lessPlayers hne hq (h.joinable_rolesOf hq) hjudge
    obtain ⟨hsound, hsame⟩ := h.remember hq hroles hneeds
    exact ⟨hsound, hsame⟩
  | full t roles dungeons =>
    dsimp only
    split_ifs
    · exact (Search.Keeps.refl h).setCompatibles _ (by decide)
    · exact ((Search.Keeps.refl h).createProposal t roles dungeons).setCompatibles _ (by decide)

theorem keeps_checkCompatibility (h : s.queue.Sound) (hq : Queued s.queue.queueDataStore check) :
    s.Keeps (checkCompatibility mgr rnd now check s).2 := by
  induction check with
  | nil => exact .refl h
  | cons guid check ih =>
    have hchild := ih fun other hother => hq other (List.mem_cons_of_mem guid hother)
    rw [checkCompatibility]
    dsimp only
    split_ifs with hlong hmore hless
    · exact .refl h
    · refine hchild.setCompatibles _ fun heq => ?_
      rw [heq] at hless
      exact lt_irrefl _ hless
    · exact hchild.trans (keeps_checkJudged hchild.sound (List.cons_ne_nil _ _) (hchild.queued hq))
    · exact keeps_checkJudged h (List.cons_ne_nil _ _) hq

theorem keeps_lookUp (h : s.queue.Sound) (hq : Queued s.queue.queueDataStore check) :
    s.Keeps (lookUp mgr rnd now check s).2 := by
  unfold lookUp
  extract_lets strGuids compatibles r
  have hr : s.Keeps r.2 := by
    unfold r
    split_ifs
    · exact keeps_checkCompatibility h hq
    · exact .refl h
  split_ifs
  · exact hr.setCompatibles _ (by decide)
  · exact hr

/-- What is left of `all` are some of its guids. -/
theorem keeps_matchWith {find : List ℕ → List ℕ → Search → LfgCompatibility × List ℕ × Search}
    (hfind : ∀ check all s, s.queue.Sound → Queued s.queue.queueDataStore check →
      Queued s.queue.queueDataStore all →
        s.Keeps (find check all s).2.2 ∧ (find check all s).2.1 ⊆ all) {turns : ℕ}
    (h : s.queue.Sound) (hq : Queued s.queue.queueDataStore check)
    (hall : Queued s.queue.queueDataStore all) :
    s.Keeps (matchWith find turns check all s).2.2 ∧
      (matchWith find turns check all s).2.1 ⊆ all := by
  induction turns generalizing all s with
  | zero => exact ⟨.refl h, List.Subset.refl all⟩
  | succ turns ih =>
    cases all with
    | nil => exact ⟨.refl h, List.Subset.refl []⟩
    | cons guid all =>
      obtain ⟨hguid, hall⟩ := List.forall_mem_cons.1 hall
      have hlonger : Queued s.queue.queueDataStore (check ++ [guid]) :=
        List.forall_mem_append.2 ⟨hq, List.forall_mem_singleton.2 hguid⟩
      obtain ⟨hkeeps, hsub⟩ := hfind (check ++ [guid]) all s h hlonger hall
      rw [matchWith]
      split_ifs
      · exact ⟨hkeeps, List.subset_cons_of_subset guid hsub⟩
      · obtain ⟨hrest, hless⟩ := ih hkeeps.sound (hkeeps.queued hq)
          (hkeeps.queued fun other hother => hall other (hsub hother))
        exact ⟨hkeeps.trans hrest, List.subset_cons_of_subset guid (List.Subset.trans hless hsub)⟩

theorem keeps_findNewGroups {depth : ℕ} (h : s.queue.Sound)
    (hq : Queued s.queue.queueDataStore check) (hall : Queued s.queue.queueDataStore all) :
    s.Keeps (findNewGroups mgr rnd now depth check all s).2.2 ∧
      (findNewGroups mgr rnd now depth check all s).2.1 ⊆ all := by
  induction depth generalizing check all s with
  | zero => exact ⟨.refl h, List.Subset.refl all⟩
  | succ depth ih =>
    have hlook := @keeps_lookUp mgr rnd now check s h hq
    rw [findNewGroups]
    split_ifs
    · exact ⟨hlook, List.Subset.refl all⟩
    · obtain ⟨hkeeps, hsub⟩ := keeps_matchWith (fun _ _ _ hs hq hall => ih hs hq hall) hlook.sound
        (hlook.queued hq) (hlook.queued hall)
      exact ⟨hlook.trans hkeeps, hsub⟩

theorem sound_findGroupsTurn (h : s.queue.Sound) : (findGroupsTurn mgr rnd now s).queue.Sound := by
  unfold findGroupsTurn
  cases hnew : s.queue.newToQueueStore with
  | nil => exact h
  | cons frontguid rest =>
    dsimp -zeta only
    extract_lets s' all r
    have hfront : Queued s.queue.queueDataStore [frontguid] :=
      List.forall_mem_singleton.2 (h.new frontguid (hnew ▸ List.mem_cons_self))
    have hs' : s'.queue.Sound := h.removeFromNewQueue frontguid
    obtain ⟨hkeeps, -⟩ := @keeps_findNewGroups mgr rnd now [frontguid] all s' (all.length + 1) hs'
      hfront h.current
    split_ifs
    · exact hkeeps.sound
    · exact hkeeps.sound.addToCurrentQueue (hkeeps.queued hfront)

theorem sound_findGroups (h : s.queue.Sound) : (findGroups mgr rnd now s).queue.Sound := by
  unfold findGroups
  generalize s.queue.newToQueueStore.length = turns
  induction turns generalizing s with
  | zero => exact h
  | succ turns ih =>
    rw [Function.iterate_succ_apply]
    exact ih (sound_findGroupsTurn h)

end

/-! ### The requests -/

namespace LFGQueue

variable {q : LFGQueue} {guid joinTime currTime : ℕ} {dungeons : Finset ℕ} {roles : LfgRolesMap}
  {waitTimes : WaitTimes} {r : Request} {requests : List Request}

theorem Sound.addQueueData (h : q.Sound)
    (hr : q.Admits (.addQueueData guid joinTime dungeons roles)) :
    (q.addQueueData guid joinTime dungeons roles).Sound := by
  obtain ⟨hjoin, hkept⟩ := hr
  have hfind : ∀ other,
      (q.queueDataStore.insert guid (.new joinTime dungeons roles)).find other =
        if other = guid then some (.new joinTime dungeons roles) else q.queueDataStore.find other :=
    fun other => SortedMap.find_insert
  have hadded : q.addQueueData guid joinTime dungeons roles =
      { q with
        queueDataStore := q.queueDataStore.insert guid (.new joinTime dungeons roles)
        newToQueueStore := q.newToQueueStore ++ [guid] } := by
    have hsome := hfind guid
    rw [if_pos rfl] at hsome
    rw [LFGQueue.addQueueData, addToQueue, if_pos (by rw [hsome]; rfl), addToNewQueue]
  rw [hadded]
  generalize q.queueDataStore.insert guid (.new joinTime dungeons roles) = store at hfind
  have hmore : ∀ {l}, Queued q.queueDataStore l → Queued store l := by
    intro l hl other hother
    rw [hfind]
    split_ifs
    · rfl
    · exact hl other hother
  have hself : Queued store [guid] :=
    List.forall_mem_singleton.2 (by rw [hfind, if_pos rfl]; rfl)
  -- a guid that is remembered has not changed its roles
  have hsame : ∀ other, (q.queueDataStore.find other).isSome →
      (other = guid → q.Remembers guid) → rolesAt store other = rolesAt q.queueDataStore other := by
    intro other hqueued hremembered
    rw [rolesAt, rolesAt, hfind]
    split_ifs with heq
    · obtain ⟨old, hold⟩ := Option.isSome_iff_exists.1 hqueued
      have hroles : old.roles.entries = roles.entries := by
        by_contra hne
        exact hkept ⟨(other, old), SortedMap.find_eq_some_mem hold, heq, hne⟩ (hremembered heq)
      rw [hold]
      exact congrArg some (SortedMap.ext_entries hroles.symm)
    · rfl
  refine ⟨fun other data hdata => ?_, List.forall_mem_append.2 ⟨hmore h.new, hself⟩,
    hmore h.current, fun e he hless => ?_, fun other data hdata => ?_⟩
  · have hdata := (hfind other).symm.trans hdata
    split_ifs at hdata
    · exact Option.some.inj hdata ▸ hjoin
    · exact h.joinable other data hdata
  · have hkey := h.cache e he hless
    exact hkey.transfer fun other hlists => hsame other (hkey.isSome hlists) fun heq =>
      .inl ⟨e, he, hless, heq ▸ hlists⟩
  · have hdata := (hfind other).symm.trans hdata
    split_ifs at hdata with hother
    · exact fun hne => absurd (Option.some.inj hdata ▸ rfl) hne
    · have hbest := h.best other data hdata
      exact hbest.transfer fun x hlists => hsame x (hbest.isSome hlists) fun heq =>
        .inr ⟨(other, data), SortedMap.find_eq_some_mem hdata, hother, heq ▸ hlists⟩

theorem Sound.removeFromQueue (h : q.Sound) (hr : q.Admits (.removeFromQueue guid)) :
    (q.removeFromQueue guid).Sound := by
  unfold LFGQueue.removeFromQueue
  extract_lets q₁ store
  have hkept : ∀ other, other ≠ guid →
      rolesAt (store.erase guid) other = rolesAt q.queueDataStore other := by
    intro other hother
    rw [rolesAt, SortedMap.find_erase, if_neg hother]
    refine rolesAt_mapEntries (fun other data => ?_) other
    split_ifs
    · exact roles_findBestCompatible q₁ other _
    · rfl
  have hqueued : ∀ {l}, Queued q.queueDataStore l →
      Queued (store.erase guid) (l.filter (· ≠ guid)) := by
    intro l hl other hother
    obtain ⟨hmem, hne⟩ := List.mem_filter.1 hother
    rw [← isSome_rolesAt, hkept other (of_decide_eq_true hne), isSome_rolesAt]
    exact hl other hmem
  -- every key that lists the guid is gone
  have hcache : q₁.CacheRight (store.erase guid) := by
    intro e he hless
    obtain ⟨hmem, hfree⟩ := List.mem_filter.1 he
    refine (h.cache e hmem hless).transfer fun other hlists => hkept other ?_
    rintro rfl
    have hfree : (!contains e.1 other) = true := hfree
    rw [contains_of_lists hlists] at hfree
    cases hfree
  refine ⟨fun other data hdata => ?_, hqueued h.new, hqueued h.current, hcache,
    fun other data hdata => ?_⟩
  all_goals
    have hdata : (if other = guid then none else store.find other) = some data :=
      SortedMap.find_erase.symm.trans hdata
    split_ifs at hdata with hother
  · exact h.joinable_of_rolesAt (hkept other hother)
      (SortedMap.find_erase.trans ((if_neg hother).trans hdata))
  · obtain ⟨old, hold, rfl⟩ := SortedMap.find_mapEntries_eq_some.1 hdata
    show DungeonFinding.BestRight (store.erase guid) other _
    split_ifs with hcontains
    · exact bestRight_findBestCompatible hcache
        (hr (other, old) (SortedMap.find_eq_some_mem hold) hother hcontains.2) rfl
    · refine (h.best other old hold).transfer fun x hlists => hkept x ?_
      rintro rfl
      exact hcontains ⟨hother, contains_of_lists hlists⟩

theorem Sound.updateQueueTimers (h : q.Sound)
    (hr : q.Admits (.updateQueueTimers waitTimes currTime)) :
    (q.updateQueueTimers waitTimes currTime).1.Sound := by
  unfold LFGQueue.updateQueueTimers
  extract_lets store sent
  have hsame : ∀ guid, rolesAt store guid = rolesAt q.queueDataStore guid := by
    refine rolesAt_mapEntries fun guid data => ?_
    unfold refresh
    split_ifs
    · exact roles_findBestCompatible q guid data
    · rfl
  have hqueued : ∀ {l}, Queued q.queueDataStore l → Queued store l :=
    fun hl => (queued_transfer (fun guid _ => hsame guid) hl).1
  have hcache : q.CacheRight store :=
    fun e he hless => (h.cache e he hless).transfer fun guid _ => hsame guid
  refine ⟨fun guid data hdata => h.joinable_of_rolesAt (hsame guid) hdata, hqueued h.new,
    hqueued h.current, hcache, fun guid data hdata => ?_⟩
  obtain ⟨old, hold, rfl⟩ := SortedMap.find_mapEntries_eq_some.1 hdata
  show DungeonFinding.BestRight store guid (q.refresh guid old)
  unfold refresh
  split_ifs with hbest
  · exact bestRight_findBestCompatible hcache
      (hr (guid, old) (SortedMap.find_eq_some_mem hold) hbest) hbest
  · exact (h.best guid old hold).transfer fun other _ => hsame other

theorem Sound.exec (h : q.Sound) (hr : q.Admits r) : (q.exec r).Sound := by
  cases r with
  | addQueueData guid joinTime dungeons roles => exact h.addQueueData hr
  | findGroups mgr rnd now => exact sound_findGroups h
  | removeFromQueue guid => exact h.removeFromQueue hr
  | updateQueueTimers waitTimes currTime => exact h.updateQueueTimers hr

/-- **Main result.** As long as the queue admits the requests, all entries are right after each of
them. -/
theorem bestRight_of_admitted (h : Runs.EachStep exec Admits empty requests) :
    Runs.Along exec LFGQueue.BestRight empty requests := by
  have hsound := Runs.along_of_inv h sound_empty fun q r hq hr => hq.exec hr
  exact fun pre hpre => (hsound pre hpre).best

end LFGQueue

/-! ### Guids with digits in common -/

namespace Digits

/-- A player who deals damage. -/
def player (guid : ℕ) : LfgRolesMap := ⟨[(guid, playerRoleDamage)], List.pairwise_singleton _ _⟩

/-- Nobody ignores anybody, and all are queued. -/
def mgr : MgrView := ⟨fun _ => .queued, fun _ => .none, fun _ => false, fun _ => none⟩

def waitTimes : WaitTimes := ⟨.empty, .empty, .empty, .empty⟩

/-- Two players join and look for a group, and one of them leaves. -/
def harmless : List LFGQueue.Request :=
  [.addQueueData 11 0 {1} (player 11), .addQueueData 12 0 {1} (player 12),
    .findGroups mgr (fun _ => 0) 0, .removeFromQueue 12, .updateQueueTimers waitTimes 0]

/-- The players 11 and 12 want one dungeon and the players 1 and 3 another one, until 3 leaves. -/
def misled : List LFGQueue.Request :=
  [.addQueueData 11 0 {1} (player 11), .addQueueData 12 0 {1} (player 12),
    .addQueueData 1 0 {2} (player 1), .addQueueData 3 0 {2} (player 3),
    .findGroups mgr (fun _ => 0) 0, .removeFromQueue 3]

end Digits

theorem bestRight_harmless :
    Runs.EachStep LFGQueue.exec LFGQueue.Admits .empty Digits.harmless ∧
      Runs.Along LFGQueue.exec LFGQueue.BestRight .empty Digits.harmless := by
  have hadmitted : Runs.EachStep LFGQueue.exec LFGQueue.Admits .empty Digits.harmless := by
    unfold Digits.harmless
    refine Runs.eachStep_cons.2 ⟨?_, Runs.eachStep_cons.2 ⟨?_, Runs.eachStep_cons.2 ⟨?_,
      Runs.eachStep_cons.2 ⟨?_, Runs.eachStep_cons.2 ⟨?_, Runs.EachStep.nil _⟩⟩⟩⟩⟩
    all_goals decide +kernel
  exact ⟨hadmitted, LFGQueue.bestRight_of_admitted hadmitted⟩

/-- The player 1 is left alone with the list of 11 and 12. -/
theorem misled_by_digits :
    ¬ Runs.Along LFGQueue.exec LFGQueue.BestRight .empty Digits.misled := by
  intro h
  have hright := h Digits.misled (List.prefix_refl _)
  have hbest : ((Digits.misled.foldl LFGQueue.exec .empty).queueDataStore.find 1).map
      LfgQueueData.bestCompatible = some ['1', '1', '|', '1', '2'] := by decide +kernel
  obtain ⟨data, hdata, hlist⟩ := Option.map_eq_some_iff.1 hbest
  obtain ⟨check, hcheck, hmem, -, -⟩ :=
    hright 1 data hdata (by rw [hlist]; exact List.cons_ne_nil _ _)
  rw [← lists_concatenateGuids, ← hcheck, hlist] at hmem
  revert hmem
  decide

end FaceCore.DungeonFinding
