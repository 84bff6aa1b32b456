import FaceCore.DungeonFinding.Mgr
import FaceCore.DungeonFinding.ProposalLeader
import FaceCore.Lib.Runs

/-!
# Announcing proposals

`LFGMgr::Update` lets the queues look for groups, and then announces proposals from the one with the
last id on. So when more than one is made, only the last one is announced, unless the ids wrap.

* `created`: the proposals that an update makes;
* `Prunes`: what ends before that, with no word of a proposal that goes on;
* `searched_findNewProposals`, `Searched.allTold_iff`: what the loop does;
* `update_announces_iff`: when all of the proposals are announced.
-/

namespace FaceCore.DungeonFinding

/-! ### New proposals -/

/-- A new proposal: nobody has answered, and it has players. -/
def Fresh (p : LfgProposal) : Prop := p.state = .initiating ∧ p.proposed ≠ []

/-- All proposals of a search are new. -/
def Search.AllFresh (s : Search) : Prop := ∀ p ∈ s.added, Fresh p

section

variable {mgr : MgrView} {rnd : ℕ → ℕ} {now : ℕ} {check all : List ℕ} {s : Search}

theorem allFresh_checkJudged (h : s.AllFresh) : (checkJudged mgr rnd now check s).2.AllFresh := by
  have hspec := @judge_spec mgr s.queue.queueDataStore check
  unfold checkJudged
  dsimp only
  cases hjudge : judge mgr s.queue.queueDataStore check with
  | notQueued guid => exact h
  | incompatible compatibles => exact h
  | lessPlayers roles => exact h
  | full t roles dungeons =>
    rw [hjudge] at hspec
    obtain ⟨rfl, hne⟩ := hspec
    dsimp only
    split_ifs
    · exact h
    · intro p hp
      rw [← (LfgRolesMap.checkGroupRoles_no_leader _).2] at hne
      rcases List.mem_append.1 hp with hp | hp
      · exact h p hp
      · obtain rfl := List.mem_singleton.1 hp
        refine ⟨rfl, fun hnil => hne ?_⟩
        rw [LfgProposal.proposed, SortedMap.mapEntries, List.map_map] at hnil
        exact hnil

theorem allFresh_checkCompatibility (h : s.AllFresh) :
    (checkCompatibility mgr rnd now check s).2.AllFresh := by
  induction check with
  | nil => exact h
  | cons guid check ih =>
    rw [checkCompatibility]
    dsimp only
    split_ifs
    · exact h
    · exact ih
    · exact allFresh_checkJudged ih
    · exact allFresh_checkJudged h

theorem allFresh_lookUp (h : s.AllFresh) : (lookUp mgr rnd now check s).2.AllFresh := by
  unfold lookUp
  extract_lets strGuids compatibles r
  have hr : r.2.AllFresh := by
    unfold r
    split_ifs
    · exact allFresh_checkCompatibility h
    · exact h
  split_ifs
  · exact hr
  · exact hr

theorem allFresh_matchWith {find : List ℕ → List ℕ → Search → LfgCompatibility × List ℕ × Search}
    (hfind : ∀ check all s, s.AllFresh → (find check all s).2.2.AllFresh) {turns : ℕ}
    (h : s.AllFresh) : (matchWith find turns check all s).2.2.AllFresh := by
  induction turns generalizing all s with
  | zero => exact h
  | succ turns ih =>
    cases all with
    | nil => exact h
    | cons guid all =>
      rw [matchWith]
      split_ifs
      · exact hfind _ _ _ h
      · exact ih (hfind _ _ _ h)

theorem allFresh_findNewGroups {depth : ℕ} (h : s.AllFresh) :
    (findNewGroups mgr rnd now depth check all s).2.2.AllFresh := by
  induction depth generalizing check all s with
  | zero => exact h
  | succ depth ih =>
    rw [findNewGroups]
    split_ifs
    · exact allFresh_lookUp h
    · exact allFresh_matchWith (fun _ _ _ hs => ih hs) (allFresh_lookUp h)

theorem allFresh_findGroupsTurn (h : s.AllFresh) : (findGroupsTurn mgr rnd now s).AllFresh := by
  unfold findGroupsTurn
  cases s.queue.newToQueueStore with
  | nil => exact h
  | cons frontguid rest =>
    dsimp -zeta only
    extract_lets s' all r
    have hr : r.2.2.AllFresh := allFresh_findNewGroups h
    split_ifs
    · exact hr
    · exact hr

theorem allFresh_findGroups (h : s.AllFresh) : (findGroups mgr rnd now s).AllFresh := by
  unfold findGroups
  generalize s.queue.newToQueueStore.length = turns
  induction turns generalizing s with
  | zero => exact h
  | succ turns ih =>
    rw [Function.iterate_succ_apply]
    exact ih (allFresh_findGroupsTurn h)

end

namespace LFGMgr

variable {makeNewGroup : Parties → LfgProposal → Parties} {ignores : ℕ → Option (ℕ → Bool)}
  {rnd : ℕ → ℕ} {now : ℕ} {m m' m'' : LFGMgr} {id : ProposalId} {p : LfgProposal} {guid : ℕ}

/-- The proposals that the queues make, in the order of the queues. -/
def createdIn (mgr : MgrView) (rnd : ℕ → ℕ) (now : ℕ) : List (ℕ × LFGQueue) → ℕ → List LfgProposal
  | [], _ => []
  | e :: queues, draws =>
    let found := findGroups mgr rnd now ⟨e.2, [], draws⟩
    found.added ++ createdIn mgr rnd now queues found.draws

theorem fresh_createdIn {mgr : MgrView} {queues : List (ℕ × LFGQueue)} {draws : ℕ} :
    ∀ p ∈ createdIn mgr rnd now queues draws, Fresh p := by
  induction queues generalizing draws with
  | nil => exact fun p hp => by cases hp
  | cons e queues ih =>
    intro p hp
    rcases List.mem_append.1 hp with hp | hp
    · exact allFresh_findGroups (fun _ h => by cases h) p hp
    · exact ih p hp

/-- The proposals that an update makes. -/
def created (ignores : ℕ → Option (ℕ → Bool)) (rnd : ℕ → ℕ) (now : ℕ) (m : LFGMgr) :
    List LfgProposal :=
  if m.options &&& lfgOptionsEnabled = 0 then []
  else
    let m := removeObsolete now { m with sent := [] }
    createdIn (view m.parties ignores) rnd now m.queuesStore.entries 0

/-- The manager with other queues. -/
def withQueues (m : LFGMgr) (queues : SortedMap ℕ LFGQueue) : LFGMgr :=
  { m with queuesStore := queues }

theorem foldl_addProposal_withQueues (ps : List LfgProposal) (queues : SortedMap ℕ LFGQueue) :
    ps.foldl addProposal (m.withQueues queues) = (ps.foldl addProposal m).withQueues queues :=
  List.foldl_hom (fun m : LFGMgr => m.withQueues queues) fun _ _ => rfl

theorem parties_foldl_addProposal (ps : List LfgProposal) :
    (ps.foldl addProposal m).parties = m.parties := by
  refine Runs.foldl_eq LFGMgr.parties (fun m _ => ?_) m ps
  rfl

theorem sent_foldl_addProposal (ps : List LfgProposal) :
    (ps.foldl addProposal m).sent = m.sent := by
  refine Runs.foldl_eq LFGMgr.sent (fun m _ => ?_) m ps
  rfl

/-- Looking for groups adds the proposals one after another, and changes the queues. -/
theorem foldl_findGroupsIn (es : List (ℕ × LFGQueue)) (draws : ℕ) :
    ∃ queues, (es.foldl (findGroupsIn ignores rnd now) (m, draws)).1 =
      ((createdIn (view m.parties ignores) rnd now es draws).foldl addProposal m).withQueues
        queues := by
  induction es generalizing m draws with
  | nil => exact ⟨m.queuesStore, rfl⟩
  | cons e es ih =>
    rw [List.foldl_cons, findGroupsIn, createdIn, List.foldl_append]
    generalize findGroups (view m.parties ignores) rnd now ⟨e.2, [], draws⟩ = found
    obtain ⟨queues, hqueues⟩ :=
      @ih (found.added.foldl addProposal (m.setQueue e.1 found.queue)) found.draws
    refine ⟨queues, hqueues.trans ?_⟩
    have hset : m.setQueue e.1 found.queue =
        m.withQueues (m.queuesStore.insert e.1 found.queue) := rfl
    rw [parties_foldl_addProposal, hset, foldl_addProposal_withQueues,
      foldl_addProposal_withQueues]
    rfl

theorem findNewProposals_eq (ignores : ℕ → Option (ℕ → Bool)) (rnd : ℕ → ℕ) (now : ℕ)
    (m : LFGMgr) :
    ∃ queues, findNewProposals ignores rnd now m =
      ((createdIn (view m.parties ignores) rnd now m.queuesStore.entries 0).foldl addProposal
        m).withQueues queues :=
  foldl_findGroupsIn m.queuesStore.entries 0

/-! ### The ids -/

theorem idAfter_val (c : ProposalId) (n : ℕ) : (idAfter c n).val = (c.val + n) % 2 ^ 32 := by
  simp [idAfter, Fin.val_add]

theorem idAfter_zero (c : ProposalId) : idAfter c 0 = c := by
  rw [Fin.ext_iff, idAfter_val]
  exact Nat.mod_eq_of_lt c.isLt

theorem idAfter_succ (c : ProposalId) (n : ℕ) : idAfter c (n + 1) = idAfter c n + 1 := by
  rw [Fin.ext_iff, Fin.val_add, idAfter_val, idAfter_val]
  have hone : (1 : ProposalId).val = 1 := rfl
  rw [hone]
  omega

theorem lfgProposalId_foldl (ps : List LfgProposal) :
    (ps.foldl addProposal m).lfgProposalId = idAfter m.lfgProposalId ps.length := by
  induction ps using List.reverseRecOn with
  | nil => exact (idAfter_zero _).symm
  | append_singleton ps p ih =>
    rw [List.foldl_append, List.length_append, List.length_singleton, idAfter_succ, ← ih]
    rfl

/-- What is stored under an id is the last new proposal with it, if there is one. -/
theorem find_foldl_addProposal (ps : List LfgProposal) (id : ProposalId) :
    (∃ i p, ps[i]? = some p ∧ id = idAfter m.lfgProposalId (i + 1) ∧
      (ps.foldl addProposal m).proposalsStore.find id = some p) ∨
    ((∀ i < ps.length, id ≠ idAfter m.lfgProposalId (i + 1)) ∧
      (ps.foldl addProposal m).proposalsStore.find id = m.proposalsStore.find id) := by
  induction ps using List.reverseRecOn with
  | nil => exact .inr ⟨fun i hi => absurd hi (Nat.not_lt_zero i), rfl⟩
  | append_singleton ps p ih =>
    have hnext : (ps.foldl addProposal m).lfgProposalId + 1 =
        idAfter m.lfgProposalId (ps.length + 1) := by
      rw [lfgProposalId_foldl, idAfter_succ]
    have hfind : ((ps ++ [p]).foldl addProposal m).proposalsStore.find id =
        if id = idAfter m.lfgProposalId (ps.length + 1) then some p
        else (ps.foldl addProposal m).proposalsStore.find id := by
      rw [List.foldl_append, List.foldl_cons, List.foldl_nil, addProposal, SortedMap.find_insert,
        hnext]
    rw [hfind]
    by_cases hid : id = idAfter m.lfgProposalId (ps.length + 1)
    · rw [if_pos hid]
      exact .inl ⟨ps.length, p, by simp, hid, rfl⟩
    · rw [if_neg hid]
      rcases ih with ⟨i, q, hi, hidi, hq⟩ | ⟨hne, heq⟩
      · refine .inl ⟨i, q, ?_, hidi, hq⟩
        rw [List.getElem?_append_left (List.getElem?_eq_some_iff.1 hi).1]
        exact hi
      · refine .inr ⟨fun i hi => ?_, heq⟩
        rw [List.length_append, List.length_singleton] at hi
        rcases Nat.lt_succ_iff_lt_or_eq.1 hi with hi | rfl
        · exact hne i hi
        · exact hid

/-- A new proposal is stored, unless a later one with the same id has taken its place. -/
theorem find_of_created {ps : List LfgProposal} {i : ℕ} (h : ps[i]? = some p) :
    ∃ j q, ps[j]? = some q ∧
      idAfter m.lfgProposalId (i + 1) = idAfter m.lfgProposalId (j + 1) ∧
      (ps.foldl addProposal m).proposalsStore.find (idAfter m.lfgProposalId (i + 1)) = some q := by
  rcases @find_foldl_addProposal m ps (idAfter m.lfgProposalId (i + 1)) with
    ⟨j, q, hj, hid, hfind⟩ | ⟨hne, -⟩
  · exact ⟨j, q, hj, hid, hfind⟩
  · exact absurd rfl (hne i (List.getElem?_eq_some_iff.1 h).1)

/-! ### The announcements -/

theorem getState_setState_of (P : Parties) {x guid : ℕ} {state : LfgState}
    (h : x = guid ∨ P.getState x = state) : (P.setState guid state).getState x = state := by
  have hgroup : ∀ d : LfgGroupData, (d.setState state).state = state := by
    intro d
    cases state <;> rfl
  have hplayer : ∀ d : LfgPlayerData, (d.setState state).state = state := by
    intro d
    cases state <;> rfl
  unfold Parties.setState Parties.getState Parties.updateGroup Parties.updatePlayer
  by_cases hx : x = guid
  · subst hx
    by_cases hguid : isGroupGuid x = true
    · simp [hguid, hgroup]
    · simp [hguid, hplayer]
  · have hstate := h.resolve_left hx
    unfold Parties.getState at hstate
    by_cases hguid : isGroupGuid guid = true
    · simpa [hguid, hx] using hstate
    · simpa [hguid, hx] using hstate

/-- Who has been told of the proposal is in the state of it. -/
theorem getState_announceTo {x : ℕ} (h : x = guid ∨ m.parties.getState x = .proposal) :
    (announceTo id p m guid).parties.getState x = .proposal := by
  have hset : (m.setState guid .proposal).parties.getState x = .proposal :=
    getState_setState_of m.parties h
  unfold announceTo
  extract_lets m₁ gguid m₂ m₃
  have hm₃ : m₃.parties.getState x = .proposal := by
    unfold m₃
    split_ifs
    · exact getState_setState_of m₁.parties (.inr hset)
    · exact hset
  exact hm₃

theorem proposalsStore_announceTo : (announceTo id p m guid).proposalsStore = m.proposalsStore := by
  unfold announceTo
  dsimp only
  split_ifs
  · rfl
  · rfl

/-- The message about a proposal. -/
def Told (m : LFGMgr) (guid : ℕ) (id : ProposalId) (p : LfgProposal) : Prop :=
  (guid, .updateProposal id p) ∈ m.sent

theorem told_send_of_ne {x : ℕ} {message : LfgMessage} {id' : ProposalId} {p' : LfgProposal}
    (h : ∀ id p, message ≠ .updateProposal id p) :
    (m.send guid message).Told x id' p' ↔ m.Told x id' p' := by
  unfold Told send
  rw [List.mem_append, List.mem_singleton, or_iff_left]
  exact fun heq => h id' p' (Prod.mk.inj heq).2.symm

theorem told_announceTo {x : ℕ} {id' : ProposalId} {p' : LfgProposal} :
    (announceTo id p m guid).Told x id' p' ↔
      m.Told x id' p' ∨ (x = guid ∧ id' = id ∧ p' = p) := by
  unfold announceTo
  extract_lets m₁ gguid m₂ m₃
  have hm₃ : m₃.Told x id' p' ↔ m.Told x id' p' := by
    unfold m₃
    split_ifs
    · exact told_send_of_ne fun _ _ h => by cases h
    · exact told_send_of_ne fun _ _ h => by cases h
  rw [← hm₃]
  unfold Told send
  rw [List.mem_append, List.mem_singleton, Prod.mk.injEq, LfgMessage.updateProposal.injEq]

/-- What the announcement of a list of proposals does, none of which has succeeded already. -/
structure Announces (es : List (ProposalId × LfgProposal)) (m m' : LFGMgr) : Prop where
  store : m'.proposalsStore = m.proposalsStore
  state : ∀ x, (m.parties.getState x = .proposal ∨ ∃ e ∈ es, x ∈ e.2.proposed) →
    m'.parties.getState x = .proposal
  told : ∀ x id p, m'.Told x id p ↔ m.Told x id p ∨ ((id, p) ∈ es ∧ x ∈ p.proposed)

theorem announces_foldl_announceTo (guids : List ℕ) :
    (guids.foldl (announceTo id p) m).proposalsStore = m.proposalsStore ∧
    (∀ x, (m.parties.getState x = .proposal ∨ x ∈ guids) →
      (guids.foldl (announceTo id p) m).parties.getState x = .proposal) ∧
    ∀ x id' p', (guids.foldl (announceTo id p) m).Told x id' p' ↔
      m.Told x id' p' ∨ (x ∈ guids ∧ id' = id ∧ p' = p) := by
  induction guids generalizing m with
  | nil => exact ⟨rfl, fun x h => h.resolve_right (by simp), fun x id' p' => by simp⟩
  | cons guid guids ih =>
    obtain ⟨hstore, hstate, htold⟩ := @ih (announceTo id p m guid)
    refine ⟨hstore.trans proposalsStore_announceTo, fun x hx => hstate x ?_, fun x id' p' => ?_⟩
    · rw [List.mem_cons, ← or_assoc] at hx
      exact hx.imp_left fun hx => getState_announceTo hx.symm
    · rw [List.foldl_cons, htold, told_announceTo, or_assoc, List.mem_cons, or_and_right]

theorem announces_foldl {es : List (ProposalId × LfgProposal)}
    (h : ∀ e ∈ es, e.2.state = .initiating) :
    Announces es m (es.foldl (announceProposal makeNewGroup) m) := by
  induction es generalizing m with
  | nil => exact ⟨rfl, fun x hx => hx.resolve_right (by simp), fun x id p => by simp⟩
  | cons e es ih =>
    have hstep : announceProposal makeNewGroup m e =
        e.2.proposed.foldl (announceTo e.1 e.2) m := by
      unfold announceProposal
      dsimp only
      rw [h e List.mem_cons_self, if_neg (by decide)]
      rfl
    obtain ⟨hstore, hstate, htold⟩ := @announces_foldl_announceTo m e.1 e.2 e.2.proposed
    rw [List.foldl_cons, hstep]
    have hrest := @ih (e.2.proposed.foldl (announceTo e.1 e.2) m)
      fun e' he' => h e' (List.mem_cons_of_mem e he')
    refine ⟨hrest.store.trans hstore, fun x hx => hrest.state x ?_, fun x id p => ?_⟩
    · rcases hx with hx | ⟨e', he', hx⟩
      · exact .inl (hstate x (.inl hx))
      · rcases List.mem_cons.1 he' with rfl | he'
        · exact .inl (hstate x (.inr hx))
        · exact .inr ⟨e', he', hx⟩
    · rw [hrest.told, htold, or_assoc, List.mem_cons, Prod.ext_iff]
      refine or_congr_right ?_
      constructor
      · rintro (⟨hx, rfl, rfl⟩ | ⟨he, hx⟩)
        · exact ⟨.inl ⟨rfl, rfl⟩, hx⟩
        · exact ⟨.inr he, hx⟩
      · rintro ⟨⟨rfl, rfl⟩ | he, hx⟩
        · exact .inl ⟨hx, rfl, rfl⟩
        · exact .inr ⟨he, hx⟩

/-- All stored proposals wait for answers: `UpdateProposal` and `RemoveProposal` erase a proposal
in the call in which they end it. -/
def Kept (m : LFGMgr) : Prop := ∀ e ∈ m.proposalsStore.entries, e.2.state = .initiating

theorem announces_announce (h : m.Kept) :
    Announces
      (if (m.proposalsStore.find m.lfgProposalId).isNone then []
        else m.proposalsStore.entries.filter fun e => m.lfgProposalId ≤ e.1)
      m (m.announce makeNewGroup) := by
  unfold announce
  split_ifs with hnone
  · exact ⟨rfl, fun x hx => hx.resolve_right (by simp), fun x id p => by simp⟩
  · exact announces_foldl fun e he => h e (List.mem_of_mem_filter he)

/-! ### What is obsolete -/

/-- What ends: proposals at most, and nobody is told of one that waits for answers. -/
structure Prunes (m m' : LFGMgr) : Prop where
  id : m'.lfgProposalId = m.lfgProposalId
  stored : ∀ e ∈ m'.proposalsStore.entries, e ∈ m.proposalsStore.entries
  told : ∀ x id p, p.state = .initiating → m'.Told x id p → m.Told x id p

theorem Prunes.refl (m : LFGMgr) : Prunes m m := ⟨rfl, fun _ h => h, fun _ _ _ _ h => h⟩

theorem Prunes.trans (h : Prunes m m') (h' : Prunes m' m'') : Prunes m m'' :=
  ⟨h'.id.trans h.id, fun e he => h.stored e (h'.stored e he),
    fun x id p hp ht => h.told x id p hp (h'.told x id p hp ht)⟩

theorem Prunes.kept (h : Prunes m m') (hkept : m.Kept) : m'.Kept :=
  fun e he => hkept e (h.stored e he)

theorem prunes_setState (m : LFGMgr) (guid : ℕ) (state : LfgState) :
    Prunes m (m.setState guid state) := ⟨rfl, fun _ h => h, fun _ _ _ _ h => h⟩

theorem prunes_restoreState (m : LFGMgr) (guid : ℕ) : Prunes m (m.restoreState guid) :=
  ⟨rfl, fun _ h => h, fun _ _ _ _ h => h⟩

theorem prunes_send {message : LfgMessage}
    (h : ∀ id p, message = .updateProposal id p → p.state = .failed) :
    Prunes m (m.send guid message) := by
  refine ⟨rfl, fun _ h => h, fun x id p hp ht => ?_⟩
  unfold Told send at ht
  rcases List.mem_append.1 ht with ht | ht
  · exact ht
  · have heq := (Prod.mk.inj (List.mem_singleton.1 ht)).2
    rw [h id p heq.symm] at hp
    cases hp

theorem prunes_foldl {ι : Type} {f : LFGMgr → ι → LFGMgr} (h : ∀ m e, Prunes m (f m e))
    (m : LFGMgr) (es : List ι) : Prunes m (es.foldl f m) := by
  induction es generalizing m with
  | nil => exact Prunes.refl m
  | cons e es ih => exact (h m e).trans (ih (f m e))

theorem prunes_removeRoleCheck (m : LFGMgr) (gguid : ℕ) (roleCheck : LfgRoleCheck) :
    Prunes m (m.removeRoleCheck gguid roleCheck) := by
  unfold removeRoleCheck
  extract_lets roleCheck m₁
  have hfold : Prunes m m₁ := by
    refine prunes_foldl (fun m e => ?_) m roleCheck.roles.entries
    extract_lets m₂
    have hsend : Prunes m m₂ :=
      (prunes_restoreState m e.1).trans (prunes_send fun _ _ h => by cases h)
    split_ifs
    · exact hsend.trans (prunes_send fun _ _ h => by cases h)
    · exact hsend
  exact hfold.trans ⟨rfl, fun _ h => h, fun _ _ _ _ h => h⟩

theorem prunes_notifyRemoved {type : LfgUpdateType} {toRemove : SortedMap ℕ Unit}
    (hp : p.state = .failed) (m : LFGMgr) (e : ℕ × LfgProposalPlayer) :
    Prunes m (notifyRemoved id p type toRemove m e) := by
  unfold notifyRemoved
  extract_lets guid gguid m₁ data m₂ m₃ m₄
  have h₁ : Prunes m m₁ := prunes_send fun id' p' h => by
    obtain ⟨-, rfl⟩ := LfgMessage.updateProposal.inj h
    exact hp
  have h₂ : Prunes m m₂ := h₁.trans (prunes_restoreState m₁ guid)
  have h₃ : Prunes m m₃ := h₁.trans (prunes_setState m₁ guid .queued)
  split_ifs
  · exact (h₂.trans (prunes_restoreState m₂ e.2.group)).trans
      (prunes_send fun _ _ h => by cases h)
  · exact h₂.trans (prunes_send fun _ _ h => by cases h)
  · exact (h₃.trans (prunes_setState m₃ gguid .queued)).trans
      (prunes_send fun _ _ h => by cases h)
  · exact h₃.trans (prunes_send fun _ _ h => by cases h)

theorem prunes_removeProposal (m : LFGMgr) (id : ProposalId) (p : LfgProposal)
    (type : LfgUpdateType) : Prunes m (m.removeProposal id p type) := by
  unfold removeProposal
  extract_lets marked proposal m₁ queueId q again
  have hfold : Prunes m m₁ :=
    prunes_foldl (fun m e => prunes_notifyRemoved rfl m e) m proposal.players.entries
  exact hfold.trans ⟨rfl, fun e he => List.mem_of_mem_filter he, fun _ _ _ _ h => h⟩

theorem prunes_removeKick (m : LFGMgr) (gguid : ℕ) (boot : LfgPlayerBoot) :
    Prunes m (m.removeKick gguid boot) := by
  unfold removeKick
  extract_lets boot m₁
  have hfold : Prunes m m₁ := by
    refine prunes_foldl (fun m e => ?_) m boot.votes.entries
    refine Prunes.trans ?_ (prunes_setState _ e.1 .dungeon)
    split_ifs
    · exact prunes_send fun _ _ h => by cases h
    · exact Prunes.refl m
  exact hfold.trans ⟨rfl, fun _ h => h, fun _ _ _ _ h => h⟩

theorem prunes_removeObsolete (now : ℕ) (m : LFGMgr) : Prunes m (removeObsolete now m) := by
  unfold removeObsolete removeObsoleteKicks removeObsoleteProposals removeObsoleteRoleChecks
  refine ((prunes_foldl (fun m e => ?_) m _).trans (prunes_foldl (fun m e => ?_) _ _)).trans
    (prunes_foldl (fun m e => ?_) _ _)
  · split_ifs
    · exact Prunes.refl m
    · exact prunes_removeRoleCheck m e.1 e.2
  · split_ifs
    · exact prunes_removeProposal m e.1 e.2 .proposalFailed
    · exact Prunes.refl m
  · split_ifs
    · exact prunes_removeKick m e.1 e.2
    · exact Prunes.refl m

/-! ### Every update -/

/-- The managers that come of updates, of answers of players, and of calls that store no
proposal. -/
inductive Reachable (makeNewGroup : Parties → LfgProposal → Parties) : LFGMgr → Prop
  | start (m : LFGMgr) (h : m.proposalsStore.entries = []) : Reachable makeNewGroup m
  | update (ignores : ℕ → Option (ℕ → Bool)) (rnd : ℕ → ℕ) (now : ℕ) {m : LFGMgr}
      (h : Reachable makeNewGroup m) : Reachable makeNewGroup (m.update makeNewGroup ignores rnd now)
  | updateProposal (id : ProposalId) (guid : ℕ) (accept : Bool) {m : LFGMgr}
      (h : Reachable makeNewGroup m) :
      Reachable makeNewGroup (m.updateProposal makeNewGroup id guid accept)
  | other {m m' : LFGMgr} (h : Reachable makeNewGroup m)
      (hstored : ∀ e ∈ m'.proposalsStore.entries, e ∈ m.proposalsStore.entries) :
      Reachable makeNewGroup m'

theorem kept_foldl_addProposal {ps : List LfgProposal} (h : m.Kept) (hps : ∀ p ∈ ps, Fresh p) :
    (ps.foldl addProposal m).Kept := by
  induction ps generalizing m with
  | nil => exact h
  | cons p ps ih =>
    refine ih (fun e he => ?_) fun q hq => hps q (List.mem_cons_of_mem p hq)
    rcases SortedMap.mem_insertEntry he with rfl | he
    · exact (hps p List.mem_cons_self).1
    · exact h e he

theorem kept_findNewProposals (h : m.Kept) : (findNewProposals ignores rnd now m).Kept := by
  obtain ⟨queues, heq⟩ := findNewProposals_eq ignores rnd now m
  rw [heq]
  exact kept_foldl_addProposal h fresh_createdIn

theorem kept_update (h : m.Kept) : (m.update makeNewGroup ignores rnd now).Kept := by
  unfold update
  extract_lets m₁ m₂ m₃
  have hm₃ : m₃.Kept := kept_findNewProposals ((prunes_removeObsolete now m₁).kept h)
  split_ifs
  · exact h
  · intro e he
    rw [(announces_announce hm₃).store] at he
    exact hm₃ e he
  · exact hm₃

theorem proposalsStore_foldl_notifyFound (es : List (ℕ × LfgProposalPlayer)) (sendUpdate : Bool)
    (s : LFGMgr × LfgUpdateType) :
    (es.foldl (notifyFound id p sendUpdate) s).1.proposalsStore = s.1.proposalsStore := by
  refine Runs.foldl_eq (fun s => s.1.proposalsStore) (fun s e => ?_) s es
  unfold notifyFound
  dsimp only
  split_ifs <;> rfl

theorem stored_finishProposal (m : LFGMgr) (id : ProposalId) (p : LfgProposal) (guid : ℕ) :
    ∀ e ∈ (m.finishProposal makeNewGroup id p guid).proposalsStore.entries,
      e ∈ m.proposalsStore.entries := by
  intro e he
  have he' := List.mem_of_mem_filter he
  unfold setQueue at he'
  dsimp only at he'
  rw [proposalsStore_foldl_notifyFound] at he'
  exact he'

theorem proposalsStore_foldl_send (es : List (ℕ × LfgProposalPlayer)) (message : LfgMessage)
    (m : LFGMgr) :
    (es.foldl (fun m e => m.send e.1 message) m).proposalsStore = m.proposalsStore := by
  refine Runs.foldl_eq LFGMgr.proposalsStore (fun m _ => ?_) m es
  rfl

theorem kept_updateProposal (h : m.Kept) (id : ProposalId) (guid : ℕ) (accept : Bool) :
    (m.updateProposal makeNewGroup id guid accept).Kept := by
  unfold updateProposal
  cases hfind : m.proposalsStore.find id with
  | none => exact h
  | some proposal =>
    dsimp -zeta only
    cases proposal.players.find guid with
    | none => exact h
    | some player =>
      dsimp -zeta only
      extract_lets proposal' m₁
      have hm₁ : m₁.Kept := by
        intro e he
        rcases SortedMap.mem_insertEntry he with rfl | he
        · exact h (id, proposal) (SortedMap.find_eq_some_mem hfind)
        · exact h e he
      split_ifs
      · exact (prunes_removeProposal m₁ id proposal' .proposalDeclined).kept hm₁
      · intro e he
        rw [proposalsStore_foldl_send] at he
        exact hm₁ e he
      · exact fun e he => hm₁ e (stored_finishProposal m₁ id proposal' guid e he)

theorem Reachable.kept (h : Reachable makeNewGroup m) : m.Kept := by
  induction h with
  | start m h => exact fun e he => by rw [h] at he; cases he
  | update ignores rnd now h ih => exact kept_update ih
  | updateProposal id guid accept h ih => exact kept_updateProposal ih id guid accept
  | other h hstored ih => exact fun e he => ih e (hstored e he)

/-- The manager after the proposals `ps` have been made, the counter of ids starting from `c`:
nobody has been told of them yet. -/
structure Searched (c : ProposalId) (ps : List LfgProposal) (m : LFGMgr) : Prop where
  id : m.lfgProposalId = idAfter c ps.length
  kept : m.Kept
  fresh : ∀ p ∈ ps, Fresh p
  stored : ∀ i p, ps[i]? = some p → ∃ j q, ps[j]? = some q ∧
    idAfter c (i + 1) = idAfter c (j + 1) ∧ m.proposalsStore.find (idAfter c (i + 1)) = some q
  quiet : ∀ x id p, p.state = .initiating → ¬m.Told x id p

theorem searched_findNewProposals (hkept : m.Kept)
    (hquiet : ∀ x id p, p.state = .initiating → ¬m.Told x id p) :
    Searched m.lfgProposalId (createdIn (view m.parties ignores) rnd now m.queuesStore.entries 0)
      (findNewProposals ignores rnd now m) := by
  obtain ⟨queues, heq⟩ := findNewProposals_eq ignores rnd now m
  refine ⟨?_, kept_findNewProposals hkept, fresh_createdIn, fun i p hi => ?_, fun x id p hp ht => ?_⟩
  · rw [heq]
    exact lfgProposalId_foldl _
  · rw [heq]
    exact find_of_created hi
  · refine hquiet x id p hp ?_
    rw [heq] at ht
    unfold Told withQueues at ht
    rw [sent_foldl_addProposal] at ht
    exact ht

/-- Every player of the proposals `ps`, made from the id `c` on, is in the state of a proposal and
has been told of the own one. -/
def AllTold (c : ProposalId) (ps : List LfgProposal) (m : LFGMgr) : Prop :=
  ∀ i p, ps[i]? = some p → ∀ guid ∈ p.proposed,
    m.parties.getState guid = .proposal ∧ m.Told guid (idAfter c (i + 1)) p

/-- At most one proposal has been made, or the ids have wrapped just to 0 with the last one, from
another one, and no proposal has taken the place of a different new one with the same id. -/
def Announceable (c : ProposalId) (ps : List LfgProposal) : Prop :=
  ps.length ≤ 1 ∨ (c.val ≠ 0 ∧ (idAfter c ps.length).val = 0 ∧ ∀ i j p q, ps[i]? = some p →
    ps[j]? = some q → idAfter c (i + 1) = idAfter c (j + 1) → p = q)

variable {c : ProposalId} {ps : List LfgProposal}

theorem Searched.allTold (h : Searched c ps m) (hc : ps ≠ [] → c ≠ m.lfgProposalId)
    (hall : ∀ i p, ps[i]? = some p → m.lfgProposalId ≤ idAfter c (i + 1) ∧
      m.proposalsStore.find (idAfter c (i + 1)) = some p) :
    AllTold c ps (if c ≠ m.lfgProposalId then m.announce makeNewGroup else m) := by
  intro i p hi guid hguid
  have hlen := (List.getElem?_eq_some_iff.1 hi).1
  rw [if_pos (hc (List.ne_nil_of_length_pos (Nat.zero_lt_of_lt hlen)))]
  -- the last of them has the last id
  have hlast : (m.proposalsStore.find m.lfgProposalId).isNone = false := by
    obtain ⟨q, hget⟩ : ∃ q, ps[ps.length - 1]? = some q :=
      ⟨_, List.getElem?_eq_getElem (by omega)⟩
    have hfind := (hall _ _ hget).2
    rw [Nat.sub_add_cancel (Nat.one_le_of_lt hlen), ← h.id] at hfind
    rw [hfind]
    rfl
  have hann := @announces_announce makeNewGroup m h.kept
  rw [hlast, if_neg Bool.false_ne_true] at hann
  obtain ⟨hle, hfind⟩ := hall i p hi
  have hmem : (idAfter c (i + 1), p) ∈
      m.proposalsStore.entries.filter fun e => m.lfgProposalId ≤ e.1 :=
    List.mem_filter.2 ⟨SortedMap.find_eq_some_mem hfind, decide_eq_true hle⟩
  exact ⟨hann.state guid (.inr ⟨_, hmem, hguid⟩), (hann.told _ _ _).2 (.inr ⟨hmem, hguid⟩)⟩

theorem Searched.of_told (h : Searched c ps m) {guid : ℕ} (hp : p.state = .initiating)
    (ht : (if c ≠ m.lfgProposalId then m.announce makeNewGroup else m).Told guid id p) :
    c ≠ m.lfgProposalId ∧ m.lfgProposalId ≤ id ∧ m.proposalsStore.find id = some p := by
  split_ifs at ht with hc
  · have hann := @announces_announce makeNewGroup m h.kept
    obtain ⟨hmem, -⟩ := ((hann.told guid id p).1 ht).resolve_left (h.quiet guid id p hp)
    split_ifs at hmem
    · cases hmem
    · obtain ⟨hmem, hle⟩ := List.mem_filter.1 hmem
      exact ⟨hc, of_decide_eq_true hle, SortedMap.find_of_mem hmem⟩
  · exact absurd ht (h.quiet guid id p hp)

theorem Searched.allTold_iff (h : Searched c ps m) :
    AllTold c ps (if c ≠ m.lfgProposalId then m.announce makeNewGroup else m) ↔
      Announceable c ps := by
  constructor
  · intro htold
    have hstored : ∀ i p, ps[i]? = some p → c ≠ m.lfgProposalId ∧
        m.lfgProposalId ≤ idAfter c (i + 1) ∧
          m.proposalsStore.find (idAfter c (i + 1)) = some p := by
      intro i p hi
      obtain ⟨hp, hne⟩ := h.fresh p (List.mem_of_getElem? hi)
      obtain ⟨guid, hguid⟩ := List.exists_mem_of_ne_nil _ hne
      exact h.of_told hp (htold i p hi guid hguid).2
    refine or_iff_not_imp_left.2 fun hlen => ?_
    -- the last proposal but one
    obtain ⟨q, hget⟩ : ∃ q, ps[ps.length - 2]? = some q :=
      ⟨_, List.getElem?_eq_getElem (by omega)⟩
    obtain ⟨hc, hle, -⟩ := hstored _ _ hget
    rw [h.id] at hc hle
    have hzero : (idAfter c ps.length).val = 0 := by
      rw [Fin.le_def, idAfter_val, idAfter_val] at hle
      rw [idAfter_val]
      omega
    refine ⟨fun hc0 => hc (Fin.ext (hc0.trans hzero.symm)), hzero, fun i j p q hi hj hid => ?_⟩
    have hfind := (hstored i p hi).2.2
    rw [hid, (hstored j q hj).2.2] at hfind
    exact (Option.some.inj hfind).symm
  · rintro (hlen | ⟨hc, hzero, hsame⟩)
    · refine h.allTold (fun hne => ?_) fun i p hi => ?_
      · have hone : ps.length = 1 :=
          Nat.le_antisymm hlen (List.length_pos_iff.2 hne)
        rw [h.id, hone, Ne, Fin.ext_iff, idAfter_val]
        have hlt := c.isLt
        omega
      · have hi0 : i = 0 := by
          have := (List.getElem?_eq_some_iff.1 hi).1
          omega
        have hone : ps.length = 1 := by
          have := (List.getElem?_eq_some_iff.1 hi).1
          omega
        subst hi0
        obtain ⟨j, q, hj, -, hfind⟩ := h.stored 0 p hi
        have hj0 : j = 0 := by
          have := (List.getElem?_eq_some_iff.1 hj).1
          omega
        rw [hj0, hi] at hj
        rw [h.id, hone, Option.some.inj hj]
        exact ⟨le_refl _, hfind⟩
    · refine h.allTold (fun _ => ?_) fun i p hi => ?_
      · rw [h.id]
        exact fun hsame => hc ((congrArg Fin.val hsame).trans hzero)
      · obtain ⟨j, q, hj, hid, hfind⟩ := h.stored i p hi
        rw [hsame i j p q hi hj hid, h.id, Fin.le_def, hzero]
        exact ⟨Nat.zero_le _, hfind⟩

theorem allTold_update_iff (h : m.Kept) :
    AllTold m.lfgProposalId (created ignores rnd now m) (m.update makeNewGroup ignores rnd now) ↔
      Announceable m.lfgProposalId (created ignores rnd now m) := by
  unfold created update
  dsimp only
  by_cases hoff : m.options &&& lfgOptionsEnabled = 0
  · rw [if_pos hoff, if_pos hoff]
    exact iff_of_true (fun i p hi => by simp at hi) (.inl (Nat.zero_le 1))
  · rw [if_neg hoff, if_neg hoff]
    have hprunes := prunes_removeObsolete now { m with sent := [] }
    have hsearched := @searched_findNewProposals ignores rnd now
      (removeObsolete now { m with sent := [] }) (hprunes.kept h) fun x id p hp ht => by
        have hnil := hprunes.told x id p hp ht
        unfold Told at hnil
        cases hnil
    rw [hprunes.id] at hsearched ⊢
    exact hsearched.allTold_iff

/-- **Main result.** An update announces every proposal it makes to all players, if and only if it
makes at most one, or the ids wrap just to 0. -/
theorem update_announces_iff (h : Reachable makeNewGroup m) :
    AllTold m.lfgProposalId (created ignores rnd now m) (m.update makeNewGroup ignores rnd now) ↔
      Announceable m.lfgProposalId (created ignores rnd now m) :=
  allTold_update_iff h.kept

/-! ### Two full groups -/

/-- The other group: a healer, a tank and three others. -/
def otherRoles : LfgRolesMap :=
  ((((SortedMap.empty.insert 6 playerRoleHealer).insert 7 playerRoleTank).insert 8
    playerRoleDamage).insert 9 playerRoleDamage).insert 10 playerRoleDamage

/-- Two groups of five with all roles are in the queue, of which those in `newToQueue` are new. -/
def fullGroups (newToQueue : List ℕ) : LFGMgr where
  options := 0x01
  parties :=
    { players := fun _ => ⟨.queued, .none, 0, FullGroup.guid, 0, {1}, ""⟩
      groups := fun _ => ⟨.queued, .none, 0, 3, 1, [1, 2, 3, 4, 5]⟩ }
  roleChecksStore := .empty
  proposalsStore := .empty
  bootsStore := .empty
  queuesStore := SortedMap.empty.insert 0
    { queueDataStore := (SortedMap.empty.insert FullGroup.guid (.new 0 {1} FullGroup.roles)).insert
        (FullGroup.guid + 1) (.new 0 {1} otherRoles)
      compatibleMapStore := .empty
      currentQueueStore := []
      newToQueueStore := newToQueue }
  lfgProposalId := firstProposalId
  sent := []

/-- One of the groups gets its proposal. -/
theorem update_announces_one :
    AllTold 1 (created (fun _ => none) (fun _ => 0) 0 (fullGroups [FullGroup.guid]))
      ((fullGroups [FullGroup.guid]).update (fun P _ => P) (fun _ => none) (fun _ => 0) 0) :=
  (update_announces_iff (Reachable.start (fullGroups [FullGroup.guid]) rfl)).2
    (.inl (by decide +kernel))

/-- Of two groups that are new, the first one is not told. -/
theorem update_not_announces :
    ¬AllTold 1
      (created (fun _ => none) (fun _ => 0) 0 (fullGroups [FullGroup.guid, FullGroup.guid + 1]))
      ((fullGroups [FullGroup.guid, FullGroup.guid + 1]).update (fun P _ => P) (fun _ => none)
        (fun _ => 0) 0) := by
  have hkept : (fullGroups [FullGroup.guid, FullGroup.guid + 1]).Kept := fun e he => by cases he
  have hlen : (created (fun _ => none) (fun _ => 0) 0
      (fullGroups [FullGroup.guid, FullGroup.guid + 1])).length = 2 := by decide +kernel
  intro h
  rcases (@allTold_update_iff (fun P _ => P) (fun _ => none) (fun _ => 0) 0
    (fullGroups [FullGroup.guid, FullGroup.guid + 1]) hkept).1 h with hle | ⟨-, hzero, -⟩
  · omega
  · rw [hlen] at hzero
    revert hzero
    decide

end LFGMgr

end FaceCore.DungeonFinding
