import FaceCore.DungeonFinding.Boot
import FaceCore.Lib.Runs

/-!
# A vote on a kick, and its ballot

What a vote should do: those who were in the group at its start have one answer each, the first one;
the one who asks for the kick agrees, the victim denies. The victim goes if enough of them agree, and
when the vote has ended it is over for all who are still there.

* `Ballot`: the answers of a vote, as they are given;
* `Scene`, `step`: the manager, beside the ballots;
* `Fair`: the votes that the manager counts are those of the ballots, and nobody is left in the
  state of a vote without one;
* `vote_kick_fair`: in which runs that is so.
-/

namespace FaceCore.DungeonFinding

/-! ### Players and groups -/

namespace Parties

variable {P : Parties} {guid gguid x : ℕ} {state : LfgState}

theorem setState_eq_updatePlayer (h : isGroupGuid guid = false) :
    P.setState guid state = P.updatePlayer guid (·.setState state) := by
  unfold setState
  rw [h, if_neg Bool.false_ne_true]

theorem players_updatePlayer (f : LfgPlayerData → LfgPlayerData) :
    (P.updatePlayer guid f).players x = if x = guid then f (P.players guid) else P.players x := rfl

theorem getPlayers_updateGroup {f : LfgGroupData → LfgGroupData}
    (h : ∀ d, (f d).players = d.players) (gguid' : ℕ) :
    (P.updateGroup gguid f).getPlayers gguid' = P.getPlayers gguid' := by
  unfold updateGroup getPlayers
  dsimp only
  split_ifs with heq
  · rw [h, heq]
  · rfl

@[simp] theorem players_updateGroup (f : LfgGroupData → LfgGroupData) :
    (P.updateGroup gguid f).players x = P.players x := rfl

end Parties

namespace LfgPlayerData

variable (d : LfgPlayerData) (state : LfgState)

@[simp] theorem state_setState : (d.setState state).state = state := by
  cases state <;> rfl

@[simp] theorem group_setState : (d.setState state).group = d.group := by
  cases state <;> rfl

@[simp] theorem setState_setState : (d.setState state).setState state = d.setState state := by
  cases state <;> rfl

end LfgPlayerData

@[simp] theorem LfgGroupData.players_setState (d : LfgGroupData) (state : LfgState) :
    (d.setState state).players = d.players := by
  cases state <;> rfl

namespace Parties

variable {P : Parties} {gguid x : ℕ} {state : LfgState}

@[simp] theorem getPlayers_setState (guid gguid : ℕ) :
    (P.setState guid state).getPlayers gguid = P.getPlayers gguid := by
  unfold setState
  split_ifs
  · exact getPlayers_updateGroup (fun d => d.players_setState state) gguid
  · rfl

theorem players_setState_group (h : isGroupGuid gguid = true) :
    (P.setState gguid state).players x = P.players x := by
  unfold setState
  rw [if_pos h]
  rfl

theorem players_foldl_setState {guids : List ℕ} (h : ∀ x ∈ guids, isGroupGuid x = false)
    (P : Parties) : (guids.foldl (fun P x => P.setState x state) P).players x =
      if x ∈ guids then (P.players x).setState state else P.players x := by
  induction guids generalizing P with
  | nil => rfl
  | cons guid guids ih =>
    obtain ⟨hguid, hrest⟩ := List.forall_mem_cons.1 h
    rw [List.foldl_cons, ih hrest, setState_eq_updatePlayer hguid, players_updatePlayer]
    by_cases hx : x = guid
    · subst hx
      simp
    · simp [hx]

theorem getPlayers_foldl_setState (guids : List ℕ) (P : Parties) :
    (guids.foldl (fun P x => P.setState x state) P).getPlayers gguid = P.getPlayers gguid := by
  induction guids generalizing P with
  | nil => rfl
  | cons guid guids ih => rw [List.foldl_cons, ih, getPlayers_setState]

/-- The members of groups are players, each in one group. -/
def Consistent (P : Parties) : Prop :=
  ∀ gguid, ∀ x ∈ P.getPlayers gguid,
    P.getGroup x = gguid ∧ isGroupGuid x = false ∧ isGroupGuid gguid = true

end Parties

/-! ### The ballot -/

/-- A vote as it should be: the members of the group at its start, who asks for the kick of whom, and
the answers since then, whoever gave them. -/
structure Ballot where
  members : List ℕ
  kicker : ℕ
  victim : ℕ
  answers : List (ℕ × Bool)

namespace Ballot

variable {b : Ballot} {x guid : ℕ} {accept : Bool}

/-- What the first answer makes of a vote. -/
def ofFirst : Option Bool → LfgAnswer
  | none => .pending
  | some accept => if accept then .agree else .deny

/-- The vote of a player: the first answer, for a member who is neither the kicker nor the
victim. -/
def vote (b : Ballot) (x : ℕ) : Option LfgAnswer :=
  if x ∈ b.members then
    if x = b.kicker then some .agree
    else if x = b.victim then some .deny
    else some (ofFirst (b.answers.lookup x))
  else none

/-- The members who agree. -/
def agreed (b : Ballot) : Finset ℕ := b.members.toFinset.filter fun x => b.vote x = some .agree

/-- Another answer. -/
def answer (b : Ballot) (guid : ℕ) (accept : Bool) : Ballot :=
  { b with answers := b.answers ++ [(guid, accept)] }

theorem ofFirst_or (first : Option Bool) : ofFirst (first.or (some accept)) =
    if ofFirst first = .pending then ofFirst (some accept) else ofFirst first := by
  cases first with
  | none => rfl
  | some a => cases a <;> rfl

theorem isSome_vote : (b.vote x).isSome ↔ x ∈ b.members := by
  unfold vote
  split_ifs with hmem
  · exact iff_of_true rfl hmem
  · exact iff_of_true rfl hmem
  · exact iff_of_true rfl hmem
  · exact iff_of_false (by simp) hmem

theorem vote_answer : (b.answer guid accept).vote x =
    if x = guid ∧ b.vote guid = some .pending then some (ofFirst (some accept))
    else b.vote x := by
  have hlookup : (b.answers ++ [(guid, accept)]).lookup x =
      (b.answers.lookup x).or (if x = guid then some accept else none) := by
    rw [List.lookup_append, List.lookup_cons]
    by_cases hx : x = guid
    · rw [hx, beq_self_eq_true, if_pos rfl]
    · rw [beq_false_of_ne hx, if_neg hx]
      rfl
  unfold vote answer
  dsimp only
  rw [hlookup]
  by_cases hx : x = guid
  · subst hx
    rw [if_pos rfl, ofFirst_or]
    split_ifs <;> simp_all
  · simp only [hx, if_false, false_and, Option.or_none]

end Ballot

/-! ### Runs -/

/-- The manager, with the last ballot of each group. -/
structure Scene where
  mgr : LFGMgr
  ballots : ℕ → Option Ballot

/-- What may happen: a member asks for a kick, somebody answers, time passes. -/
inductive Event
  | initBoot (now gguid kicker victim : ℕ) (reason : String)
  | updateBoot (guid : ℕ) (accept : Bool) (removal : Removal)
  | timeout (now : ℕ)

namespace Scene

/-- The ballots with another one for a group. -/
def withBallot (s : Scene) (gguid : ℕ) (b : Option Ballot) : ℕ → Option Ballot :=
  fun other => if other = gguid then b else s.ballots other

def step (s : Scene) : Event → Scene
  | .initBoot now gguid kicker victim reason =>
    { mgr := s.mgr.initBoot now gguid kicker victim reason
      ballots := s.withBallot gguid
        (some ⟨s.mgr.parties.getPlayers gguid, kicker, victim, []⟩) }
  | .updateBoot guid accept removal =>
    let gguid := s.mgr.parties.getGroup guid
    { mgr := s.mgr.updateBoot guid accept removal
      ballots := if gguid ≠ 0 ∧ (s.mgr.bootsStore.find gguid).isSome then
          s.withBallot gguid ((s.ballots gguid).map (·.answer guid accept))
        else s.ballots }
  | .timeout now => { s with mgr := s.mgr.updateKicks now }

/-- What the step may be: a member asks for the kick of another one, with no vote running; whoever
answers has a vote, and the answer is not the third denial; the third agreement finds the group, with
the dungeon finder enabled. -/
def Meets (s : Scene) : Event → Prop
  | .initBoot _ gguid kicker victim _ =>
    s.mgr.bootsStore.find gguid = none ∧ kicker ∈ s.mgr.parties.getPlayers gguid ∧
      victim ∈ s.mgr.parties.getPlayers gguid ∧ kicker ≠ victim
  | .updateBoot guid accept removal =>
    ∀ boot ∈ s.mgr.bootsStore.find (s.mgr.parties.getGroup guid),
      (boot.votes.find guid).isSome ∧
      (boot.votes.find guid = some .pending →
        (accept = false → boot.votes.count (· = .deny) + 1 < lfgGroupKickVotesNeeded) ∧
        (accept = true → boot.votes.count (· = .agree) + 1 = lfgGroupKickVotesNeeded →
          removal ≠ .noGroup ∧ s.mgr.options &&& lfgOptionsEnabled ≠ 0))
  | .timeout _ => True

instance (s : Scene) : DecidablePred s.Meets
  | .initBoot _ _ _ _ _ => inferInstanceAs (Decidable (_ ∧ _))
  | .updateBoot _ _ _ => inferInstanceAs (Decidable (∀ boot ∈ _, _))
  | .timeout _ => inferInstanceAs (Decidable True)

/-- The votes that count are those of the ballot, and without a vote no member of the group is in
the state of one. -/
structure Fair (s : Scene) : Prop where
  counted : ∀ gguid boot, s.mgr.bootsStore.find gguid = some boot → ∃ b,
    s.ballots gguid = some b ∧ boot.victim = b.victim ∧ ∀ x, boot.votes.find x = b.vote x
  ended : ∀ gguid, s.mgr.bootsStore.find gguid = none →
    ∀ x ∈ s.mgr.parties.getPlayers gguid, s.mgr.parties.getState x ≠ .boot

/-- The step removes the victim of a vote only if enough members agree. -/
def RemovesByVote (s : Scene) (i : Event) : Prop :=
  ∀ gguid b, (s.step i).ballots gguid = some b → b.victim ∈ s.mgr.parties.getPlayers gguid →
    b.victim ∉ (s.step i).mgr.parties.getPlayers gguid → lfgGroupKickVotesNeeded ≤ b.agreed.card

/-- No vote runs, and no member of a group is in the state of one. -/
structure Ready (s : Scene) : Prop where
  consistent : s.mgr.parties.Consistent
  noVote : s.mgr.bootsStore.entries = []
  noBoot : ∀ gguid, ∀ x ∈ s.mgr.parties.getPlayers gguid, s.mgr.parties.getState x ≠ .boot

end Scene

/-- A running vote: the votes are those of the ballot, less than enough of either kind, and the
victim is in the state of a vote. -/
structure Running (P : Parties) (gguid : ℕ) (boot : LfgPlayerBoot) (b : Ballot) : Prop where
  members : b.members = P.getPlayers gguid
  kicker : b.kicker ∈ b.members
  victim : b.victim ∈ b.members
  ne : b.kicker ≠ b.victim
  victim_eq : boot.victim = b.victim
  votes : ∀ x, boot.votes.find x = b.vote x
  agree : boot.votes.count (· = .agree) < lfgGroupKickVotesNeeded
  deny : boot.votes.count (· = .deny) < lfgGroupKickVotesNeeded
  state : (P.players b.victim).state = .boot

/-- What is kept along the runs. -/
structure Scene.Inv (s : Scene) : Prop where
  consistent : s.mgr.parties.Consistent
  running : ∀ gguid boot, s.mgr.bootsStore.find gguid = some boot →
    ∃ b, s.ballots gguid = some b ∧ Running s.mgr.parties gguid boot b
  ended : ∀ gguid, s.mgr.bootsStore.find gguid = none →
    ∀ x ∈ s.mgr.parties.getPlayers gguid, (s.mgr.parties.players x).state ≠ .boot

/-- What happens in a group leaves the other groups and their members alone. -/
structure Touches (gguid : ℕ) (m m' : LFGMgr) : Prop where
  members : ∀ other, other ≠ gguid → m'.parties.getPlayers other = m.parties.getPlayers other
  players : ∀ x, x ∉ m.parties.getPlayers gguid → m'.parties.players x = m.parties.players x
  boots : ∀ other, other ≠ gguid → m'.bootsStore.find other = m.bootsStore.find other

namespace Scene

variable {s s' : Scene}

theorem Inv.fair (h : s.Inv) : s.Fair := by
  refine ⟨fun gguid boot hfind => ?_, fun gguid hfind x hx => ?_⟩
  · obtain ⟨b, hb, hrunning⟩ := h.running gguid boot hfind
    exact ⟨b, hb, hrunning.victim_eq, hrunning.votes⟩
  · unfold Parties.getState
    rw [(h.consistent gguid x hx).2.1, if_neg Bool.false_ne_true]
    exact h.ended gguid hfind x hx

theorem Ready.inv (h : s.Ready) : s.Inv := by
  have hnone : ∀ gguid, s.mgr.bootsStore.find gguid = none := SortedMap.entries_eq_nil.1 h.noVote
  refine ⟨h.consistent, fun gguid boot hfind => ?_, fun gguid _ x hx => ?_⟩
  · rw [hnone] at hfind
    cases hfind
  · have hstate := h.noBoot gguid x hx
    unfold Parties.getState at hstate
    rw [(h.consistent gguid x hx).2.1, if_neg Bool.false_ne_true] at hstate
    exact hstate

/-- The invariant has to be shown again only for the group in which something happens. -/
theorem Inv.of_touches (h : s.Inv) (gguid : ℕ) (htouches : Touches gguid s.mgr s'.mgr)
    (hballots : ∀ other, other ≠ gguid → s'.ballots other = s.ballots other)
    (hconsistent : ∀ x ∈ s'.mgr.parties.getPlayers gguid, x ∈ s.mgr.parties.getPlayers gguid ∧
      s'.mgr.parties.getGroup x = gguid)
    (hrunning : ∀ boot, s'.mgr.bootsStore.find gguid = some boot →
      ∃ b, s'.ballots gguid = some b ∧ Running s'.mgr.parties gguid boot b)
    (hended : s'.mgr.bootsStore.find gguid = none →
      ∀ x ∈ s'.mgr.parties.getPlayers gguid, (s'.mgr.parties.players x).state ≠ .boot) :
    s'.Inv := by
  have hmembers : ∀ other, other ≠ gguid → ∀ x ∈ s.mgr.parties.getPlayers other,
      s'.mgr.parties.players x = s.mgr.parties.players x := by
    intro other hother x hx
    refine htouches.players x fun hx' => hother ?_
    rw [← (h.consistent other x hx).1, (h.consistent gguid x hx').1]
  refine ⟨fun other x hx => ?_, fun other boot hfind => ?_, fun other hfind x hx => ?_⟩
  · by_cases hother : other = gguid
    · subst hother
      obtain ⟨hx', hgroup⟩ := hconsistent x hx
      exact ⟨hgroup, (h.consistent other x hx').2⟩
    · rw [htouches.members other hother] at hx
      unfold Parties.getGroup
      rw [hmembers other hother x hx]
      exact h.consistent other x hx
  · by_cases hother : other = gguid
    · subst hother
      exact hrunning boot hfind
    · rw [htouches.boots other hother] at hfind
      obtain ⟨b, hb, hrun⟩ := h.running other boot hfind
      refine ⟨b, (hballots other hother).trans hb, { hrun with members := ?_, state := ?_ }⟩
      · rw [htouches.members other hother]
        exact hrun.members
      · rw [hmembers other hother b.victim (hrun.members ▸ hrun.victim)]
        exact hrun.state
  · by_cases hother : other = gguid
    · subst hother
      exact hended hfind x hx
    · rw [htouches.boots other hother] at hfind
      rw [htouches.members other hother] at hx
      rw [hmembers other hother x hx]
      exact h.ended other hfind x hx

end Scene

/-! ### The start of a vote -/

namespace LFGMgr

variable {m : LFGMgr} {ι : Type} {f : LFGMgr → ι → LFGMgr}

theorem parties_foldl {g : Parties → ι → Parties} (h : ∀ m i, (f m i).parties = g m.parties i)
    (m : LFGMgr) (is : List ι) : (is.foldl f m).parties = is.foldl g m.parties :=
  (List.foldl_hom LFGMgr.parties fun m i => (h m i).symm).symm

variable {now gguid kicker victim : ℕ} {reason : String}

theorem foldl_send_eq {β : Type} (π : LFGMgr → β) (h : ∀ m guid message, π (m.send guid message) = π m)
    (message : LfgMessage) (m : LFGMgr) (guids : List ℕ) :
    π (guids.foldl (fun m guid => m.send guid message) m) = π m :=
  Runs.foldl_eq π (fun m guid => h m guid message) m guids

theorem parties_initBoot : (m.initBoot now gguid kicker victim reason).parties =
    (m.parties.getPlayers gguid).foldl (fun P x => P.setState x .boot)
      (m.parties.setState gguid .boot) := by
  unfold initBoot
  dsimp only
  rw [foldl_send_eq LFGMgr.parties fun _ _ _ => rfl]
  exact parties_foldl (fun _ _ => rfl) _ _

theorem bootsStore_initBoot : (m.initBoot now gguid kicker victim reason).bootsStore =
    m.bootsStore.insert gguid (m.newBoot now gguid kicker victim reason) := by
  have hstates : ∀ (guids : List ℕ) (m : LFGMgr),
      (guids.foldl (fun m guid => m.setState guid .boot) m).bootsStore = m.bootsStore := by
    intro guids m
    refine Runs.foldl_eq LFGMgr.bootsStore (fun m _ => ?_) m guids
    rfl
  unfold initBoot
  dsimp only
  rw [foldl_send_eq LFGMgr.bootsStore fun _ _ _ => rfl]
  dsimp only
  rw [hstates]
  rfl

end LFGMgr

theorem find_foldl_pending (players : List ℕ) (votes : SortedMap ℕ LfgAnswer) (x : ℕ) :
    (players.foldl (fun votes guid => votes.insert guid LfgAnswer.pending) votes).find x =
      if x ∈ players then some .pending else votes.find x := by
  induction players generalizing votes with
  | nil => rfl
  | cons guid players ih =>
    rw [List.foldl_cons, ih, SortedMap.find_insert]
    by_cases hx : x = guid
    · simp [hx]
    · simp [hx]

theorem count_agree {votes : SortedMap ℕ LfgAnswer} {b : Ballot}
    (h : ∀ x, votes.find x = b.vote x) : votes.count (· = .agree) = b.agreed.card := by
  refine SortedMap.count_eq_card fun x => ?_
  unfold Ballot.agreed
  rw [Finset.mem_filter, List.mem_toFinset]
  constructor
  · rintro ⟨-, hx⟩
    exact ⟨.agree, (h x).trans hx, rfl⟩
  · rintro ⟨a, ha, hagree⟩
    obtain rfl : a = .agree := of_decide_eq_true hagree
    rw [h] at ha
    exact ⟨Ballot.isSome_vote.1 (by rw [ha]; rfl), ha⟩

namespace Scene

variable {s : Scene} {now gguid kicker victim : ℕ} {reason : String}

theorem find_newBoot (hnone : s.mgr.bootsStore.find gguid = none)
    (hkicker : kicker ∈ s.mgr.parties.getPlayers gguid)
    (hvictim : victim ∈ s.mgr.parties.getPlayers gguid) (x : ℕ) :
    (s.mgr.newBoot now gguid kicker victim reason).votes.find x =
      (Ballot.mk (s.mgr.parties.getPlayers gguid) kicker victim []).vote x := by
  unfold LFGMgr.newBoot Ballot.vote
  dsimp only
  rw [hnone, SortedMap.find_insert, SortedMap.find_insert, find_foldl_pending]
  by_cases hx : x ∈ s.mgr.parties.getPlayers gguid
  · rw [if_pos hx, if_pos hx]
    rfl
  · have hxkicker : x ≠ kicker := fun h => hx (h ▸ hkicker)
    have hxvictim : x ≠ victim := fun h => hx (h ▸ hvictim)
    rw [if_neg hxkicker, if_neg hxvictim, if_neg hx, if_neg hx]
    rfl

theorem count_new {members : List ℕ} {votes : SortedMap ℕ LfgAnswer}
    (h : ∀ x, votes.find x = (Ballot.mk members kicker victim []).vote x)
    (hkicker : kicker ∈ members) (hvictim : victim ∈ members) (hne : kicker ≠ victim)
    (a : LfgAnswer) (ha : a ≠ .pending) : votes.count (· = a) = 1 := by
  have hcard : votes.count (· = a) = ({if a = .agree then kicker else victim} : Finset ℕ).card := by
    refine SortedMap.count_eq_card fun x => ?_
    rw [h, Finset.mem_singleton]
    unfold Ballot.vote
    dsimp only [List.lookup_nil, Ballot.ofFirst]
    constructor
    · rintro rfl
      cases a with
      | pending => exact absurd rfl ha
      | agree => exact ⟨.agree, by simp [hkicker], rfl⟩
      | deny => exact ⟨.deny, by simp [hvictim, Ne.symm hne], rfl⟩
    · rintro ⟨v, hv, hva⟩
      obtain rfl : v = a := of_decide_eq_true hva
      split_ifs at hv with hmem hx hx
      · obtain rfl := Option.some.inj hv
        simpa using hx
      · obtain rfl := Option.some.inj hv
        simpa using hx
      · exact absurd (Option.some.inj hv).symm ha
  rw [hcard, Finset.card_singleton]

theorem inv_initBoot (h : s.Inv) (hmeets : s.Meets (.initBoot now gguid kicker victim reason)) :
    (s.step (.initBoot now gguid kicker victim reason)).Inv := by
  obtain ⟨hnone, hkicker, hvictim, hne⟩ := hmeets
  have hplayers : ∀ x ∈ s.mgr.parties.getPlayers gguid, isGroupGuid x = false :=
    fun x hx => (h.consistent gguid x hx).2.1
  have hgroup : isGroupGuid gguid = true := (h.consistent gguid victim hvictim).2.2
  have hstate : ∀ x, (s.mgr.initBoot now gguid kicker victim reason).parties.players x =
      if x ∈ s.mgr.parties.getPlayers gguid then (s.mgr.parties.players x).setState .boot
      else s.mgr.parties.players x := by
    intro x
    rw [LFGMgr.parties_initBoot, Parties.players_foldl_setState hplayers,
      Parties.players_setState_group hgroup]
  have hmembers : ∀ other, (s.mgr.initBoot now gguid kicker victim reason).parties.getPlayers other =
      s.mgr.parties.getPlayers other := by
    intro other
    rw [LFGMgr.parties_initBoot, Parties.getPlayers_foldl_setState, Parties.getPlayers_setState]
  have hvotes := @find_newBoot s now gguid kicker victim reason hnone hkicker hvictim
  refine h.of_touches gguid ⟨fun other _ => hmembers other, fun x hx => ?_,
    fun other hother => ?_⟩ (fun other hother => if_neg hother) (fun x hx => ?_)
    (fun boot hfind => ?_) fun hfind => ?_
  · exact (hstate x).trans (if_neg hx)
  · dsimp only [step]
    rw [LFGMgr.bootsStore_initBoot, SortedMap.find_insert_ne hother]
  · dsimp only [step] at hx ⊢
    rw [hmembers] at hx
    refine ⟨hx, ?_⟩
    unfold Parties.getGroup
    rw [hstate, if_pos hx, LfgPlayerData.group_setState]
    exact (h.consistent gguid x hx).1
  · dsimp only [step] at hfind ⊢
    rw [LFGMgr.bootsStore_initBoot, SortedMap.find_insert_self] at hfind
    obtain rfl := Option.some.inj hfind
    refine ⟨_, if_pos rfl, ⟨(hmembers gguid).symm, hkicker, hvictim, hne, rfl, hvotes, ?_, ?_, ?_⟩⟩
    · rw [count_new hvotes hkicker hvictim hne .agree (by decide)]
      exact Nat.le_of_ble_eq_true rfl
    · rw [count_new hvotes hkicker hvictim hne .deny (by decide)]
      exact Nat.le_of_ble_eq_true rfl
    · rw [hstate, if_pos hvictim, LfgPlayerData.state_setState]
  · dsimp only [step] at hfind
    rw [LFGMgr.bootsStore_initBoot, SortedMap.find_insert_self] at hfind
    cases hfind

end Scene

/-! ### The end of a vote whose time is over -/

namespace Running

variable {P : Parties} {gguid : ℕ} {boot : LfgPlayerBoot} {b : Ballot}

theorem mem_keys (h : Running P gguid boot b) {x : ℕ} :
    x ∈ boot.votes.entries.map Prod.fst ↔ x ∈ P.getPlayers gguid := by
  rw [← SortedMap.isSome_find_iff, h.votes, Ballot.isSome_vote, h.members]

theorem not_isGroupGuid (h : Running P gguid boot b) (hP : P.Consistent) :
    ∀ x ∈ boot.votes.entries.map Prod.fst, isGroupGuid x = false :=
  fun x hx => (hP gguid x (h.mem_keys.1 hx)).2.1

theorem isGroupGuid_group (h : Running P gguid boot b) (hP : P.Consistent) :
    isGroupGuid gguid = true := (hP gguid b.victim (h.members ▸ h.victim)).2.2

end Running

namespace LFGMgr

variable {m : LFGMgr} {gguid : ℕ} {boot : LfgPlayerBoot}

theorem parties_removeKick : (m.removeKick gguid boot).parties =
    ((boot.votes.entries.map Prod.fst).foldl (fun P x => P.setState x .dungeon)
      m.parties).setState gguid .dungeon := by
  unfold removeKick
  rw [List.foldl_map]
  have hfold := @parties_foldl (ℕ × LfgAnswer) (fun m e =>
      (if e.1 ≠ boot.victim then m.send e.1 (.bootProposalUpdate { boot with inProgress := false })
        else m).setState e.1 .dungeon)
    (fun P e => P.setState e.1 .dungeon) (fun m e => by split_ifs <;> rfl) m boot.votes.entries
  dsimp only [setState] at hfold ⊢
  rw [hfold]

theorem bootsStore_removeKick :
    (m.removeKick gguid boot).bootsStore = m.bootsStore.erase gguid := by
  unfold removeKick
  have hfold := @Runs.foldl_eq LFGMgr (ℕ × LfgAnswer) (fun m e =>
      (if e.1 ≠ boot.victim then m.send e.1 (.bootProposalUpdate { boot with inProgress := false })
        else m).setState e.1 .dungeon)
    _ LFGMgr.bootsStore (fun m e => by split_ifs <;> rfl) m boot.votes.entries
  dsimp only [setState] at hfold ⊢
  rw [hfold]

end LFGMgr

namespace Scene

variable {s : Scene} {gguid : ℕ} {boot : LfgPlayerBoot}

theorem inv_removeKick (h : s.Inv) (hfind : s.mgr.bootsStore.find gguid = some boot) :
    Inv { s with mgr := s.mgr.removeKick gguid boot } := by
  obtain ⟨b, hb, hrun⟩ := h.running gguid boot hfind
  have hstate : ∀ x, (s.mgr.removeKick gguid boot).parties.players x =
      if x ∈ s.mgr.parties.getPlayers gguid then (s.mgr.parties.players x).setState .dungeon
      else s.mgr.parties.players x := by
    intro x
    rw [LFGMgr.parties_removeKick, Parties.players_setState_group (hrun.isGroupGuid_group
      h.consistent), Parties.players_foldl_setState (hrun.not_isGroupGuid h.consistent)]
    simp only [hrun.mem_keys]
  have hmembers : ∀ other, (s.mgr.removeKick gguid boot).parties.getPlayers other =
      s.mgr.parties.getPlayers other := by
    intro other
    rw [LFGMgr.parties_removeKick, Parties.getPlayers_setState, Parties.getPlayers_foldl_setState]
  have hnone : (s.mgr.removeKick gguid boot).bootsStore.find gguid = none := by
    rw [LFGMgr.bootsStore_removeKick, SortedMap.find_erase, if_pos rfl]
  refine h.of_touches gguid ⟨fun other _ => hmembers other,
    fun x hx => (hstate x).trans (if_neg hx), fun other hother => ?_⟩ (fun _ _ => rfl)
    (fun x hx => ?_) (fun boot' hboot => ?_) fun _ x hx => ?_
  · dsimp only
    rw [LFGMgr.bootsStore_removeKick, SortedMap.find_erase, if_neg hother]
  · dsimp only at hx ⊢
    rw [hmembers] at hx
    refine ⟨hx, ?_⟩
    unfold Parties.getGroup
    rw [hstate, if_pos hx, LfgPlayerData.group_setState]
    exact (h.consistent gguid x hx).1
  · dsimp only at hboot
    rw [hnone] at hboot
    cases hboot
  · dsimp only at hx ⊢
    rw [hmembers] at hx
    rw [hstate, if_pos hx, LfgPlayerData.state_setState]
    decide

theorem inv_removeKicks (now : ℕ) {es : List (ℕ × LfgPlayerBoot)}
    (hsorted : es.Pairwise fun a b => a.1 < b.1) (h : s.Inv)
    (hfind : ∀ e ∈ es, s.mgr.bootsStore.find e.1 = some e.2) :
    Inv { s with
      mgr := es.foldl (fun m e => if e.2.cancelTime < now then m.removeKick e.1 e.2 else m) s.mgr } := by
  induction es generalizing s with
  | nil => exact h
  | cons e es ih =>
    obtain ⟨hlt, hrest⟩ := List.pairwise_cons.1 hsorted
    rw [List.foldl_cons]
    split_ifs
    · refine @ih { s with mgr := s.mgr.removeKick e.1 e.2 } hrest
        (inv_removeKick h (hfind e List.mem_cons_self)) fun e' he' => ?_
      dsimp only
      rw [LFGMgr.bootsStore_removeKick, SortedMap.find_erase, if_neg (ne_of_gt (hlt e' he'))]
      exact hfind e' (List.mem_cons_of_mem e he')
    · exact ih hrest h fun e' he' => hfind e' (List.mem_cons_of_mem e he')

theorem inv_timeout (h : s.Inv) (now : ℕ) : (s.step (.timeout now)).Inv := by
  unfold step
  dsimp only [LFGMgr.updateKicks]
  split_ifs
  · exact h
  · exact inv_removeKicks now s.mgr.bootsStore.sorted h fun e he => SortedMap.find_of_mem he

theorem getPlayers_updateKicks (m : LFGMgr) (now gguid : ℕ) :
    (m.updateKicks now).parties.getPlayers gguid = m.parties.getPlayers gguid := by
  unfold LFGMgr.updateKicks LFGMgr.removeObsoleteKicks
  split_ifs
  · rfl
  · refine Runs.foldl_eq (fun m => m.parties.getPlayers gguid) (fun m e => ?_) m _
    split_ifs
    · rw [LFGMgr.parties_removeKick, Parties.getPlayers_setState,
        Parties.getPlayers_foldl_setState]
    · rfl

end Scene

/-! ### The removal of the victim -/

namespace LFGMgr

variable {m : LFGMgr} {gguid victim : ℕ} {removal : Removal}

/-- A player in the state of a vote only loses that. -/
theorem leaveLfg_boot (hstate : (m.parties.players victim).state = .boot)
    (hvictim : isGroupGuid victim = false) (hgroup : isGroupGuid (m.parties.getGroup victim) = true) :
    m.leaveLfg victim = m.setState victim .none := by
  have hne : victim ≠ m.parties.getGroup victim := fun h => by
    rw [h, hgroup] at hvictim
    cases hvictim
  unfold leaveLfg Parties.getState
  dsimp only
  rw [hvictim, if_neg Bool.false_ne_true, if_neg Bool.false_ne_true, hstate]
  exact if_pos hne

/-- What the removal of a victim does: the group loses him, and at most all its other members, who
stay as they are in the first case. -/
structure Removes (gguid victim : ℕ) (m m' : LFGMgr) : Prop where
  boots : m'.bootsStore = m.bootsStore
  members : ∀ other, other ≠ gguid → m'.parties.getPlayers other = m.parties.getPlayers other
  players : ∀ x, x ∉ m.parties.getPlayers gguid → m'.parties.players x = m.parties.players x
  remaining : ∀ x ∈ m'.parties.getPlayers gguid, x ∈ m.parties.getPlayers gguid ∧ x ≠ victim ∧
    m'.parties.players x = m.parties.players x

theorem removes_onRemoveMember (hP : m.parties.Consistent)
    (hmem : victim ∈ m.parties.getPlayers gguid)
    (hstate : (m.parties.players victim).state = .boot) :
    Removes gguid victim m (m.onRemoveMember gguid victim) := by
  obtain ⟨hgroup, hvictim, hgguid⟩ := hP gguid victim hmem
  have hplayers : ∀ x, x ≠ victim →
      (m.onRemoveMember gguid victim).parties.players x = m.parties.players x := by
    intro x hx
    unfold onRemoveMember
    rw [leaveLfg_boot hstate hvictim (hgroup ▸ hgguid)]
    unfold setState Parties.removePlayerFromGroup Parties.setGroup
    rw [Parties.setState_eq_updatePlayer hvictim, Parties.players_updateGroup,
      Parties.players_updatePlayer, if_neg hx, Parties.players_updatePlayer, if_neg hx]
  have hmembers : ∀ other, (m.onRemoveMember gguid victim).parties.getPlayers other =
      if other = gguid then (m.parties.getPlayers gguid).filter (· ≠ victim)
      else m.parties.getPlayers other := by
    intro other
    unfold onRemoveMember
    rw [leaveLfg_boot hstate hvictim (hgroup ▸ hgguid)]
    unfold setState Parties.removePlayerFromGroup Parties.setGroup
    rw [Parties.setState_eq_updatePlayer hvictim]
    unfold Parties.getPlayers Parties.updateGroup Parties.updatePlayer
    dsimp only
    split_ifs <;> rfl
  refine ⟨?_, fun other hother => ?_, fun x hx => hplayers x fun heq => hx (heq ▸ hmem),
    fun x hx => ?_⟩
  · unfold onRemoveMember
    rw [leaveLfg_boot hstate hvictim (hgroup ▸ hgguid)]
    rfl
  · rw [hmembers, if_neg hother]
  · rw [hmembers, if_pos rfl, List.mem_filter, decide_eq_true_eq] at hx
    exact ⟨hx.1, hx.2, hplayers x hx.2⟩

theorem removes_disbandMember {state : LfgState} {x : ℕ} (hx : isGroupGuid x = false) :
    (disbandMember state m x).bootsStore = m.bootsStore ∧
      (∀ other, (disbandMember state m x).parties.getPlayers other = m.parties.getPlayers other) ∧
      ∀ y, y ≠ x → (disbandMember state m x).parties.players y = m.parties.players y := by
  unfold disbandMember
  dsimp only
  split_ifs
  · refine ⟨rfl, fun other => ?_, fun y hy => ?_⟩
    · exact Parties.getPlayers_setState x other
    · unfold send setState
      dsimp only
      rw [Parties.setState_eq_updatePlayer hx, Parties.players_updatePlayer, if_neg hy]
      exact if_neg hy
  · exact ⟨rfl, fun _ => rfl, fun y hy => if_neg hy⟩

theorem removes_foldl_disbandMember {state : LfgState} {guids : List ℕ}
    (h : ∀ x ∈ guids, isGroupGuid x = false) (m : LFGMgr) :
    (guids.foldl (disbandMember state) m).bootsStore = m.bootsStore ∧
      (∀ other, (guids.foldl (disbandMember state) m).parties.getPlayers other =
        m.parties.getPlayers other) ∧
      ∀ x, x ∉ guids →
        (guids.foldl (disbandMember state) m).parties.players x = m.parties.players x := by
  induction guids generalizing m with
  | nil => exact ⟨rfl, fun _ => rfl, fun _ _ => rfl⟩
  | cons guid guids ih =>
    obtain ⟨hguid, hrest⟩ := List.forall_mem_cons.1 h
    obtain ⟨hboots, hmembers, hplayers⟩ := @removes_disbandMember m state guid hguid
    obtain ⟨hboots', hmembers', hplayers'⟩ := ih hrest (disbandMember state m guid)
    refine ⟨hboots'.trans hboots, fun other => (hmembers' other).trans (hmembers other),
      fun x hx => ?_⟩
    rw [List.mem_cons, not_or] at hx
    exact (hplayers' x hx.2).trans (hplayers x hx.1)

theorem removes_removeFromGroup (hP : m.parties.Consistent)
    (hmem : victim ∈ m.parties.getPlayers gguid)
    (hstate : (m.parties.players victim).state = .boot)
    (henabled : m.options &&& lfgOptionsEnabled ≠ 0) (hremoval : removal ≠ .noGroup) :
    Removes gguid victim m (m.removeFromGroup gguid victim removal) := by
  have hremoves := removes_onRemoveMember hP hmem hstate
  generalize hm₁ : m.onRemoveMember gguid victim = m₁ at hremoves
  cases removal with
  | noGroup => exact absurd rfl hremoval
  | removed leader =>
    have heq : m.removeFromGroup gguid victim (.removed leader) = m₁.onChangeLeader gguid leader := by
      unfold removeFromGroup
      rw [if_neg henabled]
      dsimp only
      rw [hm₁]
    have hmembers : ∀ other, (m₁.onChangeLeader gguid leader).parties.getPlayers other =
        m₁.parties.getPlayers other :=
      fun other => Parties.getPlayers_updateGroup (f := fun d => { d with leader := leader })
        (fun _ => rfl) other
    rw [heq]
    refine ⟨hremoves.boots, fun other hother => ?_, hremoves.players, fun x hx => ?_⟩
    · rw [hmembers]
      exact hremoves.members other hother
    · rw [hmembers] at hx
      exact hremoves.remaining x hx
  | disbanded =>
    have heq : m.removeFromGroup gguid victim .disbanded = m₁.onDisband gguid := by
      unfold removeFromGroup
      rw [if_neg henabled]
      dsimp only
      rw [hm₁]
    have hguids : ∀ x ∈ m₁.parties.getPlayers gguid, isGroupGuid x = false :=
      fun x hx => (hP gguid x (hremoves.remaining x hx).1).2.1
    obtain ⟨hboots, hmembers, hplayers⟩ :=
      @removes_foldl_disbandMember (m₁.parties.getState gguid) _ hguids m₁
    have hnil : (m₁.onDisband gguid).parties.getPlayers gguid = [] :=
      congrArg LfgGroupData.players (if_pos rfl)
    have hother : ∀ other, other ≠ gguid →
        (m₁.onDisband gguid).parties.getPlayers other = m₁.parties.getPlayers other :=
      fun other hother => (congrArg LfgGroupData.players (if_neg hother)).trans (hmembers other)
    rw [heq]
    refine ⟨hboots.trans hremoves.boots, fun other h => ?_, fun x hx => ?_, fun x hx => ?_⟩
    · exact (hother other h).trans (hremoves.members other h)
    · exact (hplayers x fun hx' => hx (hremoves.remaining x hx').1).trans (hremoves.players x hx)
    · rw [hnil] at hx
      cases hx

end LFGMgr

/-! ### The end of a vote by an answer -/

namespace LFGMgr

variable {m : LFGMgr} {gguid : ℕ} {boot : LfgPlayerBoot} {b : Ballot} {removal : Removal}

theorem endVote_eq : m.endVote gguid boot = { m with
    parties := (((boot.votes.entries.map Prod.fst).filter (· ≠ boot.victim)).foldl
      (fun P x => P.setState x .dungeon) m.parties).setState gguid .dungeon
    sent := (m.endVote gguid boot).sent } := by
  have hfold : ∀ (es : List (ℕ × LfgAnswer)) (m : LFGMgr), es.foldl (fun m e =>
      if e.1 ≠ boot.victim then (m.setState e.1 .dungeon).send e.1 (.bootProposalUpdate boot)
      else m) m = { m with
        parties := ((es.map Prod.fst).filter (· ≠ boot.victim)).foldl
          (fun P x => P.setState x .dungeon) m.parties
        sent := (es.foldl (fun m e =>
          if e.1 ≠ boot.victim then (m.setState e.1 .dungeon).send e.1 (.bootProposalUpdate boot)
          else m) m).sent } := by
    intro es
    induction es with
    | nil => exact fun _ => rfl
    | cons e es ih =>
      intro m
      rw [List.foldl_cons, List.map_cons, ih]
      by_cases he : e.1 = boot.victim
      · simp [he]
      · simp [he, setState, send]
  unfold endVote
  rw [hfold]
  rfl

/-- What `endVote` leaves alone, and the states of the players. -/
theorem endVote_spec (hgroup : isGroupGuid gguid = true)
    (hkeys : ∀ x ∈ boot.votes.entries.map Prod.fst, isGroupGuid x = false) :
    (m.endVote gguid boot).options = m.options ∧
      (m.endVote gguid boot).bootsStore = m.bootsStore ∧
      (∀ other, (m.endVote gguid boot).parties.getPlayers other = m.parties.getPlayers other) ∧
      ∀ x, (m.endVote gguid boot).parties.players x =
        if x ∈ boot.votes.entries.map Prod.fst ∧ x ≠ boot.victim then
          (m.parties.players x).setState .dungeon
        else m.parties.players x := by
  rw [endVote_eq]
  refine ⟨rfl, rfl, fun other => ?_, fun x => ?_⟩
  · dsimp only
    rw [Parties.getPlayers_setState, Parties.getPlayers_foldl_setState]
  · dsimp only
    rw [Parties.players_setState_group hgroup,
      Parties.players_foldl_setState fun x hx => hkeys x (List.mem_of_mem_filter hx)]
    simp only [List.mem_filter, decide_eq_true_eq]

/-- The third agreement removes the victim, and the others go on. -/
theorem closeBoot_spec (hP : m.parties.Consistent)
    (hvictim : boot.victim ∈ m.parties.getPlayers gguid)
    (hkeys : ∀ x, x ∈ boot.votes.entries.map Prod.fst ↔ x ∈ m.parties.getPlayers gguid)
    (hstate : (m.parties.players boot.victim).state = .boot)
    (hagree : (countVotes boot.votes).2.toNat = lfgGroupKickVotesNeeded)
    (henabled : m.options &&& lfgOptionsEnabled ≠ 0) (hremoval : removal ≠ .noGroup) :
    Touches gguid m (m.closeBoot gguid boot removal) ∧
      (m.closeBoot gguid boot removal).bootsStore.find gguid = none ∧
      ∀ x ∈ (m.closeBoot gguid boot removal).parties.getPlayers gguid,
        x ∈ m.parties.getPlayers gguid ∧
        (m.closeBoot gguid boot removal).parties.players x =
          (m.parties.players x).setState .dungeon := by
  obtain ⟨hoptions, hboots, hmembers, hplayers⟩ := @endVote_spec m gguid
    { boot with inProgress := false } (hP gguid boot.victim hvictim).2.2
    fun x hx => (hP gguid x ((hkeys x).1 hx)).2.1
  dsimp only at hplayers
  generalize hm₂ : m.endVote gguid { boot with inProgress := false } = m₂ at *
  have hP₂ : m₂.parties.Consistent := by
    intro other x hx
    rw [hmembers] at hx
    refine ⟨?_, (hP other x hx).2⟩
    unfold Parties.getGroup
    rw [hplayers]
    split_ifs
    · rw [LfgPlayerData.group_setState]
      exact (hP other x hx).1
    · exact (hP other x hx).1
  have hstate₂ : (m₂.parties.players boot.victim).state = .boot := by
    rw [hplayers, if_neg fun h => h.2 rfl]
    exact hstate
  have hremoves := removes_removeFromGroup hP₂ ((hmembers gguid).symm ▸ hvictim) hstate₂
    (hoptions.symm ▸ henabled) hremoval
  have hclose : m.closeBoot gguid boot removal =
      { (m₂.removeFromGroup gguid boot.victim removal).decreaseKicksLeft gguid with
        bootsStore := m.bootsStore.erase gguid } := by
    unfold closeBoot
    dsimp only
    rw [hm₂, if_pos hagree, ← hboots, ← hremoves.boots]
    rfl
  have hkicks : ∀ other, (m.closeBoot gguid boot removal).parties.getPlayers other =
      (m₂.removeFromGroup gguid boot.victim removal).parties.getPlayers other := by
    intro other
    rw [hclose]
    exact Parties.getPlayers_updateGroup (f := fun d => { d with kicksLeft := d.kicksLeft - 1 })
      (fun _ => rfl) other
  have hsame : ∀ x, (m.closeBoot gguid boot removal).parties.players x =
      (m₂.removeFromGroup gguid boot.victim removal).parties.players x := by
    intro x
    rw [hclose]
    rfl
  refine ⟨⟨fun other hother => ?_, fun x hx => ?_, fun other hother => ?_⟩, ?_, fun x hx => ?_⟩
  · rw [hkicks, hremoves.members other hother, hmembers]
  · rw [hsame, hremoves.players x ((hmembers gguid).symm ▸ hx), hplayers, if_neg]
    exact fun h => hx ((hkeys x).1 h.1)
  · rw [hclose]
    exact SortedMap.find_erase.trans (if_neg hother)
  · rw [hclose]
    exact SortedMap.find_erase.trans (if_pos rfl)
  · rw [hkicks] at hx
    obtain ⟨hmem, hne, hx'⟩ := hremoves.remaining x hx
    rw [hmembers] at hmem
    refine ⟨hmem, ?_⟩
    rw [hsame, hx', hplayers, if_pos ⟨(hkeys x).2 hmem, hne⟩]

end LFGMgr

theorem count_answered (votes : SortedMap ℕ LfgAnswer) : votes.count (· ≠ .pending) =
    votes.count (· = .agree) + votes.count (· = .deny) := by
  unfold SortedMap.count
  induction votes.entries with
  | nil => rfl
  | cons e es ih =>
    rw [List.countP_cons, List.countP_cons, List.countP_cons, ih]
    cases e.2 <;> simp <;> omega

theorem undecided_iff {votes : SortedMap ℕ LfgAnswer}
    (h : votes.count (· = .agree) + votes.count (· = .deny) < 2 ^ 8) :
    LFGMgr.undecided votes = true ↔ votes.count (· = .agree) < lfgGroupKickVotesNeeded ∧
      votes.count (· = .deny) < lfgGroupKickVotesNeeded := by
  have hagree : (LFGMgr.countVotes votes).2.toNat = votes.count (· = .agree) := by
    unfold LFGMgr.countVotes
    rw [UInt8.toNat_ofNat']
    exact Nat.mod_eq_of_lt (by omega)
  have hanswered : (LFGMgr.countVotes votes).1.toNat =
      votes.count (· = .agree) + votes.count (· = .deny) := by
    unfold LFGMgr.countVotes
    rw [UInt8.toNat_ofNat', count_answered]
    exact Nat.mod_eq_of_lt h
  unfold LFGMgr.undecided
  dsimp only
  rw [decide_eq_true_eq, hagree, hanswered]
  omega

/-- An answer where none has been given yet. -/
theorem count_insert_pending {votes : SortedMap ℕ LfgAnswer} {guid : ℕ}
    (h : votes.find guid = some .pending) (a v : LfgAnswer) (ha : a ≠ .pending) :
    (votes.insert guid v).count (· = a) = votes.count (· = a) + (decide (v = a)).toNat := by
  have hinsert := SortedMap.count_insert (fun x => decide (x = a)) votes guid v
  have hshare : votes.share (fun x => decide (x = a)) guid = 0 := by
    unfold SortedMap.share
    rw [h]
    cases a with
    | pending => exact absurd rfl ha
    | deny => rfl
    | agree => rfl
  rw [hshare, Nat.add_zero] at hinsert
  exact hinsert

namespace Running

variable {P : Parties} {gguid guid : ℕ} {boot : LfgPlayerBoot} {b : Ballot} {accept : Bool}

theorem answer_again (h : Running P gguid boot b) (hguid : boot.votes.find guid ≠ some .pending) :
    Running P gguid boot (b.answer guid accept) := by
  refine { h with votes := fun x => ?_ }
  rw [h.votes] at hguid
  rw [Ballot.vote_answer, if_neg fun hx => hguid hx.2]
  exact h.votes x

theorem find_insert (h : Running P gguid boot b) (hguid : boot.votes.find guid = some .pending)
    (x : ℕ) : (boot.votes.insert guid (if accept then .agree else .deny)).find x =
      (b.answer guid accept).vote x := by
  have hvote : b.vote guid = some .pending := (h.votes guid).symm.trans hguid
  rw [SortedMap.find_insert, Ballot.vote_answer, h.votes, hvote]
  simp only [and_true]
  rfl

end Running

namespace Scene

variable {s : Scene} {guid : ℕ} {accept : Bool} {removal : Removal}

/-- What an answer should leave: the invariant, and a victim who goes only if enough agree. -/
def Answered (s s' : Scene) : Prop :=
  s'.Inv ∧ ∀ gguid b, s'.ballots gguid = some b → b.victim ∈ s.mgr.parties.getPlayers gguid →
    b.victim ∉ s'.mgr.parties.getPlayers gguid → lfgGroupKickVotesNeeded ≤ b.agreed.card

theorem answered_of_parties {s' : Scene} (h : s'.Inv) (hparties : s'.mgr.parties = s.mgr.parties) :
    s.Answered s' :=
  ⟨h, fun _ _ _ hmem hnot => absurd (hparties ▸ hmem) hnot⟩

variable {gguid : ℕ} {boot : LfgPlayerBoot} {b : Ballot}

theorem inv_vote (h : s.Inv) {boot' : LfgPlayerBoot} {b' : Ballot}
    (hrun : Running s.mgr.parties gguid boot' b') :
    Inv { mgr := { s.mgr with bootsStore := s.mgr.bootsStore.insert gguid boot' }
          ballots := s.withBallot gguid (some b') } := by
  refine h.of_touches gguid ⟨fun _ _ => rfl, fun _ _ => rfl,
    fun other hother => SortedMap.find_insert_ne hother⟩ (fun other hother => if_neg hother)
    (fun x hx => ⟨hx, (h.consistent gguid x hx).1⟩) (fun boot'' hboot => ?_) fun hnone => ?_
  · dsimp only at hboot
    rw [SortedMap.find_insert_self] at hboot
    obtain rfl := Option.some.inj hboot
    exact ⟨b', if_pos rfl, hrun⟩
  · dsimp only at hnone
    rw [SortedMap.find_insert_self] at hnone
    cases hnone

/-- The vote ends with the third agreement. -/
theorem answered_close (h : s.Inv) (hrun : Running s.mgr.parties gguid boot b)
    {boot' : LfgPlayerBoot} (hvictim : boot'.victim = b.victim)
    (hvotes : ∀ x, boot'.votes.find x = (b.answer guid true).vote x)
    (hagree : boot'.votes.count (· = .agree) = lfgGroupKickVotesNeeded)
    (henabled : s.mgr.options &&& lfgOptionsEnabled ≠ 0) (hremoval : removal ≠ .noGroup) :
    let m := { s.mgr with bootsStore := s.mgr.bootsStore.insert gguid boot' }
    s.Answered ⟨m.closeBoot gguid boot' removal, s.withBallot gguid (some (b.answer guid true))⟩ := by
  have hkeys : ∀ x, x ∈ boot'.votes.entries.map Prod.fst ↔ x ∈ s.mgr.parties.getPlayers gguid := by
    intro x
    rw [← SortedMap.isSome_find_iff, hvotes, Ballot.isSome_vote, ← hrun.members]
    rfl
  have hmem : boot'.victim ∈ s.mgr.parties.getPlayers gguid := by
    rw [hvictim, ← hrun.members]
    exact hrun.victim
  have hcount : (LFGMgr.countVotes boot'.votes).2.toNat = lfgGroupKickVotesNeeded := by
    unfold LFGMgr.countVotes
    rw [UInt8.toNat_ofNat', hagree]
    rfl
  obtain ⟨htouches, hnone, hremaining⟩ := @LFGMgr.closeBoot_spec
    { s.mgr with bootsStore := s.mgr.bootsStore.insert gguid boot' } gguid boot' removal
    h.consistent hmem hkeys (hvictim.symm ▸ hrun.state) hcount henabled hremoval
  refine ⟨h.of_touches gguid ⟨htouches.members, htouches.players, fun other hother => ?_⟩
    (fun other hother => if_neg hother) (fun x hx => ?_) (fun boot'' hboot => ?_) (fun _ x hx => ?_),
    fun other c hc hcmem hcnot => ?_⟩
  · rw [htouches.boots other hother]
    exact SortedMap.find_insert_ne hother
  · obtain ⟨hx', hstate⟩ := hremaining x hx
    refine ⟨hx', ?_⟩
    unfold Parties.getGroup
    rw [hstate, LfgPlayerData.group_setState]
    exact (h.consistent gguid x hx').1
  · rw [hnone] at hboot
    cases hboot
  · rw [(hremaining x hx).2, LfgPlayerData.state_setState]
    decide
  · by_cases hother : other = gguid
    · have heq : some (b.answer guid true) = some c := (if_pos hother).symm.trans hc
      obtain rfl := Option.some.inj heq
      rw [← count_agree hvotes, hagree]
    · rw [htouches.members other hother] at hcnot
      exact absurd hcmem hcnot

theorem answered_answerBoot (h : s.Inv) (hrun : Running s.mgr.parties gguid boot b)
    (hfind : s.mgr.bootsStore.find gguid = some boot) (hvote : (boot.votes.find guid).isSome)
    (hpending : boot.votes.find guid = some .pending →
      (accept = false → boot.votes.count (· = .deny) + 1 < lfgGroupKickVotesNeeded) ∧
      (accept = true → boot.votes.count (· = .agree) + 1 = lfgGroupKickVotesNeeded →
        removal ≠ .noGroup ∧ s.mgr.options &&& lfgOptionsEnabled ≠ 0)) :
    s.Answered ⟨s.mgr.answerBoot gguid boot guid accept removal,
      s.withBallot gguid (some (b.answer guid accept))⟩ := by
  -- an answer after the first one
  have hagain : boot.votes.find guid ≠ some .pending →
      s.Answered ⟨s.mgr, s.withBallot gguid (some (b.answer guid accept))⟩ := by
    intro hguid
    refine answered_of_parties (h.of_touches gguid ⟨fun _ _ => rfl, fun _ _ => rfl, fun _ _ => rfl⟩
      (fun other hother => if_neg hother) (fun x hx => ⟨hx, (h.consistent gguid x hx).1⟩)
      (fun boot' hboot => ?_) (h.ended gguid)) rfl
    obtain rfl := Option.some.inj (hfind.symm.trans hboot)
    exact ⟨_, if_pos rfl, hrun.answer_again hguid⟩
  unfold LFGMgr.answerBoot
  cases hguid : boot.votes.find guid with
  | none =>
    rw [hguid] at hvote
    cases hvote
  | some a =>
    cases a with
    | agree => exact hagain (by rw [hguid]; decide)
    | deny => exact hagain (by rw [hguid]; decide)
    | pending =>
      obtain ⟨hdeny, hagree⟩ := hpending hguid
      have hvotes := fun x => @Running.find_insert _ _ guid _ _ accept hrun hguid x
      have hagreeNum := count_insert_pending hguid .agree (if accept then .agree else .deny)
        (by decide)
      have hdenyNum := count_insert_pending hguid .deny (if accept then .agree else .deny)
        (by decide)
      have hlt := hrun.agree
      have hlt' := hrun.deny
      have hthree : lfgGroupKickVotesNeeded = 3 := rfl
      -- less than enough of either kind: the vote goes on
      have hgoes : ∀ boot' : LfgPlayerBoot, boot'.victim = boot.victim →
          (∀ x, boot'.votes.find x = (b.answer guid accept).vote x) →
          boot'.votes.count (· = .agree) < lfgGroupKickVotesNeeded →
          boot'.votes.count (· = .deny) < lfgGroupKickVotesNeeded →
          s.Answered ⟨{ s.mgr with bootsStore := s.mgr.bootsStore.insert gguid boot' },
            s.withBallot gguid (some (b.answer guid accept))⟩ :=
        fun boot' hvictim hvotes' hagree' hdeny' => answered_of_parties (inv_vote h
          ⟨hrun.members, hrun.kicker, hrun.victim, hrun.ne, hvictim.trans hrun.victim_eq, hvotes',
            hagree', hdeny', hrun.state⟩) rfl
      dsimp only
      cases accept with
      | false =>
        simp only [Bool.false_eq_true, if_false, reduceCtorEq, decide_false, decide_true,
          Bool.toNat_false, Bool.toNat_true] at hagreeNum hdenyNum hvotes ⊢
        have hagreeLt : (boot.votes.insert guid .deny).count (· = .agree) <
            lfgGroupKickVotesNeeded := by omega
        have hdenyLt : (boot.votes.insert guid .deny).count (· = .deny) <
            lfgGroupKickVotesNeeded := by
          have := hdeny rfl
          omega
        rw [if_pos ((undecided_iff (by omega)).2 ⟨hagreeLt, hdenyLt⟩)]
        exact hgoes _ rfl hvotes hagreeLt hdenyLt
      | true =>
        simp only [if_true, reduceCtorEq, decide_false, decide_true, Bool.toNat_false,
          Bool.toNat_true] at hagreeNum hdenyNum hvotes ⊢
        have hdenyLt : (boot.votes.insert guid .agree).count (· = .deny) <
            lfgGroupKickVotesNeeded := by omega
        by_cases hthird : boot.votes.count (· = .agree) + 1 = lfgGroupKickVotesNeeded
        · obtain ⟨hremoval, henabled⟩ := hagree rfl hthird
          have hthird' : (boot.votes.insert guid .agree).count (· = .agree) =
              lfgGroupKickVotesNeeded := by omega
          rw [if_neg fun hundecided =>
            absurd ((undecided_iff (by omega)).1 hundecided).1 (by omega)]
          exact answered_close h hrun hrun.victim_eq hvotes hthird' henabled hremoval
        · have hagreeLt : (boot.votes.insert guid .agree).count (· = .agree) <
              lfgGroupKickVotesNeeded := by omega
          rw [if_pos ((undecided_iff (by omega)).2 ⟨hagreeLt, hdenyLt⟩)]
          exact hgoes _ rfl hvotes hagreeLt hdenyLt

theorem answered_updateBoot (h : s.Inv) (hmeets : s.Meets (.updateBoot guid accept removal)) :
    s.Answered (s.step (.updateBoot guid accept removal)) := by
  unfold step LFGMgr.updateBoot
  dsimp only
  unfold Meets at hmeets
  dsimp only at hmeets
  generalize s.mgr.parties.getGroup guid = gguid at hmeets ⊢
  by_cases hzero : gguid = 0
  · rw [if_pos hzero, if_neg fun h => h.1 hzero]
    exact answered_of_parties h rfl
  · rw [if_neg hzero]
    cases hfind : s.mgr.bootsStore.find gguid with
    | none =>
      rw [if_neg fun h => Bool.false_ne_true h.2]
      exact answered_of_parties h rfl
    | some boot =>
      obtain ⟨b, hb, hrun⟩ := h.running gguid boot hfind
      obtain ⟨hvote, hpending⟩ := hmeets boot hfind
      rw [if_pos ⟨hzero, rfl⟩, hb]
      exact answered_answerBoot h hrun hfind hvote hpending

/-! ### Every run -/

/-- A step that meets its condition keeps the invariant, and removes a victim by the vote only. -/
theorem answered_step {i : Event} (h : s.Inv) (hmeets : s.Meets i) : s.Answered (s.step i) := by
  cases i with
  | initBoot now gguid kicker victim reason =>
    refine ⟨inv_initBoot h hmeets, fun other b _ hmem hnot => absurd hmem ?_⟩
    unfold step at hnot
    dsimp only at hnot
    rw [LFGMgr.parties_initBoot, Parties.getPlayers_foldl_setState, Parties.getPlayers_setState]
      at hnot
    exact hnot
  | updateBoot guid accept removal => exact answered_updateBoot h hmeets
  | timeout now =>
    refine ⟨inv_timeout h now, fun other b _ hmem hnot => absurd hmem ?_⟩
    unfold step at hnot
    dsimp only at hnot
    rw [getPlayers_updateKicks] at hnot
    exact hnot

/-- **Main result.** In a run whose steps meet their conditions, from a manager without votes, the
votes that count are at every moment those of the ballots, nobody is left in the state of a vote, and
victims are removed only when enough members agree. -/
theorem vote_kick_fair {is : List Event} (h : s.Ready) (hmeets : Runs.EachStep step Meets s is) :
    Runs.Along step Fair s is ∧ Runs.EachStep step RemovesByVote s is := by
  constructor
  · intro pre hpre
    exact (Runs.along_of_inv hmeets h.inv (fun s i hs hi => (answered_step hs hi).1) pre hpre).fair
  · exact hmeets.mono_inv h.inv (fun s i hs hi => (answered_step hs hi).1)
      fun s i hs hi => (answered_step hs hi).2

/-! ### A group of five -/

/-- The guid of a group. -/
def dungeonGroup : ℕ := 0x1F50 * 2 ^ 48 + 1

/-- Five players are in a dungeon. -/
def inDungeon : Scene where
  mgr :=
    { options := 0x01
      parties :=
        { players := fun _ => ⟨.dungeon, .dungeon, 0, dungeonGroup, 0, {1}, ""⟩
          groups := fun gguid =>
            if gguid = dungeonGroup then ⟨.dungeon, .dungeon, 1, 3, 1, [1, 2, 3, 4, 5]⟩
            else .empty }
      roleChecksStore := .empty
      proposalsStore := .empty
      bootsStore := .empty
      queuesStore := .empty
      lfgProposalId := LFGMgr.firstProposalId
      sent := [] }
  ballots := fun _ => none

theorem ready_inDungeon : inDungeon.Ready := by
  refine ⟨fun gguid x hx => ?_, rfl, fun gguid x hx => ?_⟩
  · unfold inDungeon Parties.getPlayers at hx
    dsimp only at hx
    split_ifs at hx with hgguid
    · subst hgguid
      refine ⟨rfl, ?_, by decide⟩
      revert x
      decide
    · cases hx
  · unfold inDungeon Parties.getState
    dsimp only
    split_ifs
    all_goals decide

/-- Three of them agree, and the fifth is removed. -/
theorem vote_kick_fair_inDungeon :
    Runs.Along step Fair inDungeon [.initBoot 0 dungeonGroup 1 5 "afk", .updateBoot 2 true (.removed 1),
        .updateBoot 3 true (.removed 1)] ∧
      Runs.EachStep step RemovesByVote inDungeon [.initBoot 0 dungeonGroup 1 5 "afk",
        .updateBoot 2 true (.removed 1), .updateBoot 3 true (.removed 1)] := by
  refine vote_kick_fair ready_inDungeon ?_
  rw [Runs.eachStep_cons, Runs.eachStep_cons, Runs.eachStep_cons]
  exact ⟨by decide +kernel, by decide +kernel, by decide +kernel, Runs.EachStep.nil _⟩

/-- Three of them deny, and the fifth is left in the state of a vote. -/
theorem spared_victim_not_fair :
    ¬Runs.Along step Fair inDungeon [.initBoot 0 dungeonGroup 1 5 "afk", .updateBoot 2 false .noGroup,
      .updateBoot 3 false .noGroup] := by
  intro h
  exact (h _ (List.prefix_refl _)).ended dungeonGroup (by decide +kernel) 5 (by decide +kernel)
    (by decide +kernel)

end Scene

end FaceCore.DungeonFinding
