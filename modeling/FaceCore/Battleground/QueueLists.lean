import FaceCore.Battleground.Queue
import Mathlib.Data.List.Count
import Mathlib.Data.List.Perm.Basic

/-!
# The lists of the battleground queue

`RemovePlayer` looks for the group of a player in the lists of one faction only, so whoever changes
the faction of a group has to move the group, and the other way round.

* `Queue.Kept`: what every operation keeps;
* `Queue.Kept.relocate`: a group goes to a list of its new faction, which is what the three movers
  do;
* `Queue.Represented`: the queue as its users rely on it;
* `queue_represented`: it holds along every run.
-/

namespace FaceCore.Battlegrounds

namespace Queue

variable {q : Queue} {gid : ℕ} {ginfo : GroupQueueInfo} {b : BracketId} {j j' : GroupType}

/-! ### Lists and pointers -/

@[simp] theorem queuedGroups_setList {l : List ℕ} (b' : BracketId) (j' : GroupType) :
    (q.setList b j l).queuedGroups b' j' = if b' = b ∧ j' = j then l else q.queuedGroups b' j' :=
  rfl

@[simp] theorem queuedGroups_modifyGroup {f : GroupQueueInfo → GroupQueueInfo} :
    (q.modifyGroup gid f).queuedGroups = q.queuedGroups := rfl

theorem groups_modifyGroup_self {f : GroupQueueInfo → GroupQueueInfo} :
    (q.modifyGroup gid f).groups gid = (q.groups gid).map f := if_pos rfl

theorem groups_modifyGroup_ne {f : GroupQueueInfo → GroupQueueInfo} {g : ℕ} (h : g ≠ gid) :
    (q.modifyGroup gid f).groups g = q.groups g := if_neg h

theorem modifyGroup_id : q.modifyGroup gid id = q := by
  have hgroups : (q.modifyGroup gid id).groups = q.groups := by
    funext g
    by_cases h : g = gid
    · rw [h, groups_modifyGroup_self, Option.map_id_apply]
    · rw [groups_modifyGroup_ne h]
  show ({ q with groups := (q.modifyGroup gid id).groups } : Queue) = q
  rw [hgroups]

theorem groups_modifyGroup_eq_some {f : GroupQueueInfo → GroupQueueInfo} {g : ℕ}
    (h : (q.modifyGroup gid f).groups g = some ginfo) :
    ∃ old, q.groups g = some old ∧ ((g = gid ∧ ginfo = f old) ∨ (g ≠ gid ∧ ginfo = old)) := by
  by_cases hg : g = gid
  · subst hg
    rw [groups_modifyGroup_self] at h
    obtain ⟨old, hold, rfl⟩ := Option.map_eq_some_iff.1 h
    exact ⟨old, hold, .inl ⟨rfl, rfl⟩⟩
  · rw [groups_modifyGroup_ne hg] at h
    exact ⟨ginfo, h, .inr ⟨hg, rfl⟩⟩

/-! ### What is kept -/

/-- The group stands in this list once, and nowhere else. -/
def ListedAt (q : Queue) (gid : ℕ) (b : BracketId) (j : GroupType) : Prop :=
  ∀ b' j', (q.queuedGroups b' j').count gid = if b' = b ∧ j' = j then 1 else 0

theorem ListedAt.mem (h : q.ListedAt gid b j) : gid ∈ q.queuedGroups b j := by
  rw [← List.count_pos_iff, h b j, if_pos ⟨rfl, rfl⟩]
  decide

theorem ListedAt.eq_of_mem {b' : BracketId} (h : q.ListedAt gid b j)
    (hmem : gid ∈ q.queuedGroups b' j') : b' = b ∧ j' = j := by
  by_contra hne
  have hcount := List.count_pos_iff.2 hmem
  rw [h b' j', if_neg hne] at hcount
  omega

/-- The players of a group and their entries point to each other, a list holds groups, and every
group stands in one list of its faction. -/
structure Kept (q : Queue) : Prop where
  contains : ∀ guid info, q.queuedPlayers.find guid = some info →
    ∃ ginfo, q.groups info.groupInfo = some ginfo ∧ guid ∈ ginfo.players
  queued : ∀ gid ginfo, q.groups gid = some ginfo → ∀ guid ∈ ginfo.players,
    ∃ info, q.queuedPlayers.find guid = some info ∧ info.groupInfo = gid
  listed : ∀ gid ginfo, q.groups gid = some ginfo → ∃ b j, j.team = ginfo.team ∧ q.ListedAt gid b j
  live : ∀ b j, ∀ gid ∈ q.queuedGroups b j, ∃ ginfo, q.groups gid = some ginfo
  old : ∀ gid ginfo, q.groups gid = some ginfo → gid < q.fresh

theorem kept_empty : empty.Kept where
  contains := by
    intro guid info h
    cases h
  queued := by
    intro gid ginfo h
    cases h
  listed := by
    intro gid ginfo h
    cases h
  live := by
    intro b j gid h
    cases h
  old := by
    intro gid ginfo h
    cases h

theorem Kept.listedAt (h : q.Kept) (hmem : gid ∈ q.queuedGroups b j) : q.ListedAt gid b j := by
  obtain ⟨ginfo, hgid⟩ := h.live b j gid hmem
  obtain ⟨b', j', -, hat⟩ := h.listed gid ginfo hgid
  obtain ⟨rfl, rfl⟩ := hat.eq_of_mem hmem
  exact hat

theorem Kept.team_eq (h : q.Kept) (hgid : q.groups gid = some ginfo)
    (hmem : gid ∈ q.queuedGroups b j) : j.team = ginfo.team := by
  obtain ⟨b', j', hteam, hat⟩ := h.listed gid ginfo hgid
  obtain ⟨-, rfl⟩ := hat.eq_of_mem hmem
  exact hteam

theorem Kept.count_eq_one (h : q.Kept) (hmem : gid ∈ q.queuedGroups b j) :
    (q.queuedGroups b j).count gid = 1 := by
  rw [h.listedAt hmem b j, if_pos ⟨rfl, rfl⟩]

/-- A group is written, its players apart, and goes to a list of its new faction. -/
theorem Kept.relocate (h : q.Kept) {f : GroupQueueInfo → GroupQueueInfo} {l : List ℕ}
    (hgid : q.groups gid = some ginfo) (hplayers : (f ginfo).players = ginfo.players)
    (hteam : j'.team = (f ginfo).team) (hne : j ≠ j')
    (hfrom : (q.queuedGroups b j).Perm (gid :: l)) :
    (((q.modifyGroup gid f).setList b j' (gid :: q.queuedGroups b j')).setList b j l).Kept := by
  have hmem : gid ∈ q.queuedGroups b j := hfrom.mem_iff.2 List.mem_cons_self
  have hat := h.listedAt hmem
  -- the lists of the other groups are the same up to the order
  have hother : ∀ g, g ≠ gid → ∀ b₁ j₁,
      ((((q.modifyGroup gid f).setList b j' (gid :: q.queuedGroups b j')).setList b j l).queuedGroups
        b₁ j₁).count g = (q.queuedGroups b₁ j₁).count g := by
    intro g hg b₁ j₁
    rw [queuedGroups_setList]
    split_ifs with h₁
    · obtain ⟨rfl, rfl⟩ := h₁
      rw [hfrom.count_eq, List.count_cons_of_ne hg.symm]
    · rw [queuedGroups_setList]
      split_ifs with h₂
      · obtain ⟨rfl, rfl⟩ := h₂
        rw [List.count_cons_of_ne hg.symm]
      · rfl
  refine ⟨fun guid info hfind => ?_, fun g info hg guid hguid => ?_, fun g info hg => ?_,
    fun b₁ j₁ g hg => ?_, fun g info hg => ?_⟩
  · obtain ⟨old, hold, hin⟩ := h.contains guid info hfind
    by_cases hg : info.groupInfo = gid
    · rw [hg] at hold
      obtain rfl := Option.some.inj (hgid.symm.trans hold)
      refine ⟨f ginfo, ?_, hplayers ▸ hin⟩
      show (q.modifyGroup gid f).groups info.groupInfo = _
      rw [hg, groups_modifyGroup_self, hgid, Option.map_some]
    · exact ⟨old, (groups_modifyGroup_ne hg).trans hold, hin⟩
  · obtain ⟨old, hold, ⟨rfl, rfl⟩ | ⟨-, rfl⟩⟩ := groups_modifyGroup_eq_some hg
    · obtain rfl := Option.some.inj (hgid.symm.trans hold)
      exact h.queued g ginfo hgid guid (hplayers ▸ hguid)
    · exact h.queued g info hold guid hguid
  · obtain ⟨old, hold, ⟨rfl, rfl⟩ | ⟨hne', rfl⟩⟩ := groups_modifyGroup_eq_some hg
    · obtain rfl := Option.some.inj (hgid.symm.trans hold)
      refine ⟨b, j', hteam, fun b₁ j₁ => ?_⟩
      -- the group leaves its list and is once in the new one
      have hl : l.count g = 0 := by
        have hone := hfrom.count_eq g
        rw [h.count_eq_one hmem, List.count_cons_self] at hone
        omega
      have hto : (q.queuedGroups b j').count g = 0 := by
        rw [hat b j', if_neg fun heq => hne heq.2.symm]
      rw [queuedGroups_setList]
      split_ifs with h₁ h₂ h₂
      · exact absurd (h₁.2.symm.trans h₂.2) hne
      · exact hl
      · obtain ⟨rfl, rfl⟩ := h₂
        rw [queuedGroups_setList, if_pos ⟨rfl, rfl⟩, List.count_cons_self, hto]
      · rw [queuedGroups_setList, if_neg h₂]
        show (q.queuedGroups b₁ j₁).count g = 0
        rw [hat b₁ j₁, if_neg h₁]
    · obtain ⟨b₀, j₀, hteam₀, hat₀⟩ := h.listed g info hold
      refine ⟨b₀, j₀, hteam₀, fun b₁ j₁ => ?_⟩
      rw [hother g hne' b₁ j₁, hat₀ b₁ j₁]
  · by_cases hg' : g = gid
    · subst hg'
      exact ⟨f ginfo, groups_modifyGroup_self.trans (by rw [hgid, Option.map_some])⟩
    · rw [← List.count_pos_iff, hother g hg' b₁ j₁, List.count_pos_iff] at hg
      obtain ⟨old, hold⟩ := h.live b₁ j₁ g hg
      exact ⟨old, (groups_modifyGroup_ne hg').trans hold⟩
  · obtain ⟨old, hold, -⟩ := groups_modifyGroup_eq_some hg
    exact h.old g old hold

theorem Kept.modify (h : q.Kept) {f : GroupQueueInfo → GroupQueueInfo}
    (hplayers : ∀ ginfo, q.groups gid = some ginfo → (f ginfo).players = ginfo.players)
    (hteam : ∀ ginfo, q.groups gid = some ginfo → (f ginfo).team = ginfo.team) :
    (q.modifyGroup gid f).Kept := by
  refine ⟨fun guid info hfind => ?_, fun g info hg guid hguid => ?_, fun g info hg => ?_,
    fun b₁ j₁ g hg => ?_, fun g info hg => ?_⟩
  · obtain ⟨old, hold, hin⟩ := h.contains guid info hfind
    by_cases hg : info.groupInfo = gid
    · refine ⟨f old, ?_, ?_⟩
      · rw [hg, groups_modifyGroup_self, ← hg, hold, Option.map_some]
      · rw [hplayers old (hg ▸ hold)]
        exact hin
    · exact ⟨old, (groups_modifyGroup_ne hg).trans hold, hin⟩
  · obtain ⟨old, hold, ⟨rfl, rfl⟩ | ⟨-, rfl⟩⟩ := groups_modifyGroup_eq_some hg
    · exact h.queued g old hold guid (hplayers old hold ▸ hguid)
    · exact h.queued g info hold guid hguid
  · obtain ⟨old, hold, ⟨rfl, rfl⟩ | ⟨-, rfl⟩⟩ := groups_modifyGroup_eq_some hg
    · rw [hteam old hold]
      exact h.listed g old hold
    · exact h.listed g info hold
  · obtain ⟨old, hold⟩ := h.live b₁ j₁ g hg
    by_cases hg' : g = gid
    · subst hg'
      exact ⟨f old, groups_modifyGroup_self.trans (by rw [hold, Option.map_some])⟩
    · exact ⟨old, (groups_modifyGroup_ne hg').trans hold⟩
  · obtain ⟨old, hold, -⟩ := groups_modifyGroup_eq_some hg
    exact h.old g old hold

theorem Kept.nodup (h : q.Kept) (b : BracketId) (j : GroupType) : (q.queuedGroups b j).Nodup := by
  rw [List.nodup_iff_count_le_one]
  intro gid
  by_cases hmem : gid ∈ q.queuedGroups b j
  · exact le_of_eq (h.count_eq_one hmem)
  · rw [List.count_eq_zero_of_not_mem hmem]
    exact Nat.zero_le 1

theorem moveGroup_eq (hne : j ≠ j') : q.moveGroup gid b j j' =
    (q.setList b j' (gid :: q.queuedGroups b j')).setList b j ((q.queuedGroups b j).erase gid) := by
  unfold moveGroup
  dsimp only
  rw [queuedGroups_setList, if_neg fun heq => hne heq.2]

theorem Kept.move (h : q.Kept) (f : GroupQueueInfo → GroupQueueInfo) (j' : GroupType)
    (hgid : q.groups gid = some ginfo) (hplayers : (f ginfo).players = ginfo.players)
    (hteam : j'.team = (f ginfo).team) (hne : j ≠ j') (hmem : gid ∈ q.queuedGroups b j) :
    ((q.modifyGroup gid f).moveGroup gid b j j').Kept := by
  rw [moveGroup_eq hne]
  exact h.relocate hgid hplayers hteam hne (List.perm_cons_erase hmem)

theorem Kept.inviteGroupToBG (h : q.Kept) (gid instanceId : ℕ) :
    (q.inviteGroupToBG gid instanceId none).Kept :=
  h.modify (fun _ _ => rfl) fun _ _ => rfl

/-! ### From the premade to the normal groups -/

theorem Kept.releasePremade (h : q.Kept) (b : BracketId) (timeBefore minPlayersPerTeam : ℕ)
    (team : Team) : (q.releasePremade b timeBefore minPlayersPerTeam team).Kept := by
  unfold Queue.releasePremade
  cases hhead : (q.queuedGroups b (.premade team)).head? with
  | none => exact h
  | some gid =>
    have hmem := List.mem_of_mem_head? (Option.mem_def.2 hhead)
    obtain ⟨ginfo, hgid⟩ := h.live b _ gid hmem
    dsimp only
    rw [hgid]
    dsimp only
    split_ifs
    · have hteam := h.team_eq hgid hmem
      rw [GroupType.team_premade] at hteam
      have hmove := h.move id (.normal team) hgid rfl
        (by rw [GroupType.team_normal, hteam]; rfl) (GroupType.premade_ne_normal team team) hmem
      rwa [modifyGroup_id] at hmove
    · exact h

theorem Kept.checkPremadeMatch (h : q.Kept) (b : BracketId) (timeBefore minPlayersPerTeam : ℕ) :
    (q.checkPremadeMatch b timeBefore minPlayersPerTeam).Kept := by
  unfold Queue.checkPremadeMatch
  split_ifs
  · exact h
  · exact (h.releasePremade b timeBefore minPlayersPerTeam .alliance).releasePremade b timeBefore
      minPlayersPerTeam .horde

/-! ### To the other faction of a skirmish -/

theorem before_ne {ginfo : ℕ} {l₁ : List ℕ} (h : ginfo ∉ l₁) :
    ∀ g ∈ l₁, decide (g ≠ ginfo) = true := by
  intro g hg
  refine decide_eq_true fun heq => ?_
  exact h (heq ▸ hg)

theorem dropWhile_append {ginfo : ℕ} {l₁ l₂ : List ℕ} (h : ginfo ∉ l₁) :
    (l₁ ++ ginfo :: l₂).dropWhile (· ≠ ginfo) = ginfo :: l₂ := by
  rw [List.dropWhile_append_of_pos (before_ne h), List.dropWhile_cons_of_neg (by simp)]

theorem behind_append {ginfo : ℕ} {l₁ l₂ : List ℕ} (h : ginfo ∉ l₁) :
    behind ginfo (l₁ ++ ginfo :: l₂) = l₂ := by
  rw [behind, dropWhile_append h, List.tail_cons]

theorem eraseBehind_append {ginfo : ℕ} {l₁ l₂ : List ℕ} (h : ginfo ∉ l₁) (gid : ℕ) :
    eraseBehind ginfo gid (l₁ ++ ginfo :: l₂) = l₁ ++ ginfo :: l₂.erase gid := by
  have htake : (l₁ ++ ginfo :: l₂).takeWhile (· ≠ ginfo) = l₁ := by
    rw [List.takeWhile_append_of_pos (before_ne h), List.takeWhile_cons_of_neg (by simp),
      List.append_nil]
  rw [eraseBehind, htake, dropWhile_append h, behind_append h]
  simp

theorem selectedGroups_addGroup (pool : SelectionPool) (gid : ℕ) (ginfo : GroupQueueInfo)
    (desiredCount : ℕ) : ∃ s, s.Sublist [gid] ∧
      (pool.addGroup gid ginfo desiredCount).1.selectedGroups = pool.selectedGroups ++ s := by
  unfold SelectionPool.addGroup
  split_ifs
  · exact ⟨[gid], List.Sublist.refl _, rfl⟩
  · exact ⟨[], List.nil_sublist _, (List.append_nil _).symm⟩

/-- The groups that are selected stand in the list in their order. -/
theorem selectedGroups_fillPool (minPlayersPerTeam : ℕ) (l : List ℕ) (pool : SelectionPool) :
    ∃ s, s.Sublist l ∧
      (q.fillPool minPlayersPerTeam l pool).selectedGroups = pool.selectedGroups ++ s := by
  induction l generalizing pool with
  | nil => exact ⟨[], List.Sublist.refl _, (List.append_nil _).symm⟩
  | cons gid l ih =>
    have hskip : ∃ s, s.Sublist (gid :: l) ∧
        (q.fillPool minPlayersPerTeam l pool).selectedGroups = pool.selectedGroups ++ s := by
      obtain ⟨s, hs, heq⟩ := ih pool
      exact ⟨s, hs.cons gid, heq⟩
    rw [fillPool]
    cases q.groups gid with
    | none => exact hskip
    | some ginfo =>
      dsimp only
      split_ifs
      · obtain ⟨s, hs, heq⟩ := selectedGroups_addGroup pool gid ginfo minPlayersPerTeam
        obtain ⟨s', hs', heq'⟩ := ih (pool.addGroup gid ginfo minPlayersPerTeam).1
        exact ⟨s ++ s', hs.append hs', by rw [heq', heq, List.append_assoc]⟩
      · obtain ⟨s, hs, heq⟩ := selectedGroups_addGroup pool gid ginfo minPlayersPerTeam
        exact ⟨s, hs.trans (List.singleton_sublist.2 List.mem_cons_self), heq⟩
      · exact hskip

/-- Groups that stand behind `ginfo` go to the other faction; `ginfo` and what is left behind it
keep their places. -/
theorem Kept.switchFactions {team : Team} {ginfo : ℕ} {selected : List ℕ} (h : q.Kept)
    (hmem : ginfo ∈ q.queuedGroups b (.normal team)) (hnodup : selected.Nodup)
    (hbehind : ∀ g ∈ selected, g ∈ behind ginfo (q.queuedGroups b (.normal team))) :
    (selected.foldl (switchFaction b team ginfo) q).Kept := by
  induction selected generalizing q with
  | nil => exact h
  | cons gid selected ih =>
    obtain ⟨l₁, l₂, hl, hnot⟩ := List.eq_append_cons_of_mem hmem
    rw [hl, behind_append hnot] at hbehind
    have hgid : gid ∈ l₂ := hbehind gid List.mem_cons_self
    have hin : gid ∈ q.queuedGroups b (.normal team) := by simp [hl, hgid]
    obtain ⟨info, hinfo⟩ := h.live b _ gid hin
    have hfrom : (q.queuedGroups b (.normal team)).Perm (gid :: (l₁ ++ ginfo :: l₂.erase gid)) := by
      rw [hl]
      calc (l₁ ++ ginfo :: l₂).Perm (l₁ ++ ginfo :: gid :: l₂.erase gid) :=
            ((List.perm_cons_erase hgid).cons ginfo).append_left l₁
        _ = (l₁ ++ [ginfo]) ++ gid :: l₂.erase gid := by simp
        _ |>.Perm (gid :: ((l₁ ++ [ginfo]) ++ l₂.erase gid)) := List.perm_middle
        _ = gid :: (l₁ ++ ginfo :: l₂.erase gid) := by simp
    have hstep : q.switchFaction b team ginfo gid =
        ((q.modifyGroup gid fun info => { info with team := team.other }).setList b
          (.normal team.other) (gid :: q.queuedGroups b (.normal team.other))).setList b
            (.normal team) (l₁ ++ ginfo :: l₂.erase gid) := by
      unfold switchFaction
      dsimp only
      rw [queuedGroups_setList, if_neg fun heq => GroupType.normal_ne_normal_other team heq.2,
        queuedGroups_modifyGroup, hl, eraseBehind_append hnot]
    have hnext : (q.switchFaction b team ginfo gid).queuedGroups b (.normal team) =
        l₁ ++ ginfo :: l₂.erase gid := by
      rw [hstep, queuedGroups_setList, if_pos ⟨rfl, rfl⟩]
    rw [List.foldl_cons]
    refine ih ?_ ?_ (List.nodup_cons.1 hnodup).2 fun g hg => ?_
    · rw [hstep]
      exact h.relocate hinfo rfl (GroupType.team_normal _) (GroupType.normal_ne_normal_other team)
        hfrom
    · rw [hnext]
      simp
    · rw [hnext, behind_append hnot]
      have hne : g ≠ gid := fun heq => (List.nodup_cons.1 hnodup).1 (heq ▸ hg)
      exact (List.mem_erase_of_ne hne).2 (hbehind g (List.mem_cons_of_mem gid hg))

theorem Kept.checkSkirmishForSameFaction (h : q.Kept) (b : BracketId) (minPlayersPerTeam : ℕ)
    (pools : Team → SelectionPool) :
    (q.checkSkirmishForSameFaction b minPlayersPerTeam pools).Kept := by
  unfold Queue.checkSkirmishForSameFaction
  dsimp only
  generalize (if (pools .horde).playerCount = minPlayersPerTeam then Team.horde
    else Team.alliance) = team
  split_ifs
  · exact h
  cases (pools team).selectedGroups.getLast? with
  | none => exact h
  | some ginfo =>
    dsimp only
    split_ifs with hmem hcount
    · exact h
    · obtain ⟨s, hs, heq⟩ := selectedGroups_fillPool (q := q) minPlayersPerTeam
        (behind ginfo (q.queuedGroups b (.normal team))) SelectionPool.init
      have hsub : (behind ginfo (q.queuedGroups b (.normal team))).Sublist
          (q.queuedGroups b (.normal team)) :=
        (List.tail_sublist _).trans (List.dropWhile_sublist _)
      rw [heq]
      exact h.switchFactions hmem ((h.nodup b _).sublist (hs.trans hsub)) fun g hg => hs.subset hg
    · exact h

/-! ### To the side of a rated match -/

theorem mem_of_fits_first {team : Team} {s : Search}
    (h : (q.queuedGroups b (.premade team)).find? (q.fits s) = some gid) :
    gid ∈ q.queuedGroups b (.premade team) := List.mem_of_find?_eq_some h

theorem mem_of_fits_second {team : Team} {s : Search} {first : ℕ}
    (h : ((q.queuedGroups b (.premade team)).dropWhile (· ≠ first)).find?
      (fun gid => q.fits s gid ∧ q.arenaTeamId first ≠ q.arenaTeamId gid) = some gid) :
    gid ∈ q.queuedGroups b (.premade team) ∧ first ≠ gid := by
  have hfits := List.find?_some h
  refine ⟨(List.dropWhile_sublist _).subset (List.mem_of_find?_eq_some h), fun heq => ?_⟩
  rw [heq] at hfits
  exact (of_decide_eq_true hfits).2 rfl

/-- The opponents are two groups that wait for a rated match in this bracket. -/
theorem Kept.findOpponents (h : q.Kept) {s : Search} {aTeam hTeam : ℕ}
    (hfind : q.findOpponents b s = some (aTeam, hTeam)) :
    (∃ t, aTeam ∈ q.queuedGroups b (.premade t)) ∧
      (∃ t, hTeam ∈ q.queuedGroups b (.premade t)) ∧ aTeam ≠ hTeam := by
  unfold Queue.findOpponents at hfind
  dsimp only at hfind
  cases ha : (q.queuedGroups b (.premade .alliance)).find? (q.fits s) with
  | none =>
    cases hh : (q.queuedGroups b (.premade .horde)).find? (q.fits s) with
    | none =>
      rw [ha, hh] at hfind
      cases hfind
    | some gid =>
      rw [ha, hh] at hfind
      obtain ⟨gid', hsecond, heq⟩ := Option.map_eq_some_iff.1 hfind
      obtain ⟨rfl, rfl⟩ := Prod.mk.inj heq
      obtain ⟨hmem, hne⟩ := mem_of_fits_second hsecond
      exact ⟨⟨_, mem_of_fits_first hh⟩, ⟨_, hmem⟩, hne⟩
  | some gid =>
    cases hh : (q.queuedGroups b (.premade .horde)).find? (q.fits s) with
    | none =>
      rw [ha, hh] at hfind
      obtain ⟨gid', hsecond, heq⟩ := Option.map_eq_some_iff.1 hfind
      obtain ⟨rfl, rfl⟩ := Prod.mk.inj heq
      obtain ⟨hmem, hne⟩ := mem_of_fits_second hsecond
      exact ⟨⟨_, mem_of_fits_first ha⟩, ⟨_, hmem⟩, hne⟩
    | some gid' =>
      rw [ha, hh] at hfind
      obtain ⟨rfl, rfl⟩ := Prod.mk.inj (Option.some.inj hfind)
      have hamem := mem_of_fits_first ha
      have hhmem := mem_of_fits_first hh
      refine ⟨⟨_, hamem⟩, ⟨_, hhmem⟩, fun heq => ?_⟩
      have hlist := ((h.listedAt hamem).eq_of_mem (heq ▸ hhmem)).2
      exact absurd hlist (by decide)

/-- Writing one group and moving another one commute. -/
theorem inviteGroupToBG_changeSide {g instanceId : ℕ} {side : Team} {s : Option Team}
    (hne : gid ≠ g) : (q.changeSide b gid side).inviteGroupToBG g instanceId s =
      (q.inviteGroupToBG g instanceId s).changeSide b gid side := by
  have hgroup : (q.inviteGroupToBG g instanceId s).groups gid = q.groups gid :=
    groups_modifyGroup_ne hne
  unfold changeSide
  rw [hgroup]
  split_ifs
  · rfl
  · rfl

theorem mem_changeSide {g : ℕ} {side : Team} (hne : gid ≠ g)
    (hmem : g ∈ q.queuedGroups b j) : g ∈ (q.changeSide b gid side).queuedGroups b j := by
  unfold changeSide
  split_ifs
  · rw [moveGroup_eq (GroupType.premade_ne_premade_other side).symm, queuedGroups_setList]
    split_ifs with h₁
    · rw [List.mem_erase_of_ne hne.symm, ← h₁.2]
      exact hmem
    · rw [queuedGroups_setList]
      split_ifs with h₂
      · exact List.mem_cons_of_mem gid (h₂.2 ▸ hmem)
      · exact hmem
  · exact hmem

/-- A group that enters a rated match on a side stands in the list of that side. -/
theorem Kept.enterSide (h : q.Kept) {t : Team} (hmem : gid ∈ q.queuedGroups b (.premade t))
    (side : Team) (instanceId : ℕ) :
    ((q.changeSide b gid side).inviteGroupToBG gid instanceId (some side)).Kept := by
  obtain ⟨ginfo, hgid⟩ := h.live b _ gid hmem
  have hteam := h.team_eq hgid hmem
  rw [GroupType.team_premade] at hteam
  unfold changeSide
  rw [hgid]
  split_ifs with hside
  · have hne : ginfo.team ≠ side := by simpa using hside
    have ht : t = side.other := by
      rw [hteam]
      exact Team.eq_other hne
    subst ht
    exact h.move _ _ hgid rfl (GroupType.team_premade _)
      (GroupType.premade_ne_premade_other side).symm hmem
  · have heq : ginfo.team = side := by simpa using hside
    refine h.modify (fun _ _ => rfl) fun info hinfo => ?_
    obtain rfl := Option.some.inj (hgid.symm.trans hinfo)
    exact heq.symm

theorem Kept.ratedArena (h : q.Kept) (b : BracketId) (s : Search) (instanceId : Option ℕ) :
    (q.ratedArena b s instanceId).Kept := by
  unfold Queue.ratedArena
  cases hfind : q.findOpponents b s with
  | none => exact h
  | some teams =>
    obtain ⟨aTeam, hTeam⟩ := teams
    cases instanceId with
    | none => exact h
    | some arena =>
      obtain ⟨⟨t, ha⟩, ⟨t', hh⟩, hne⟩ := h.findOpponents hfind
      dsimp only
      rw [inviteGroupToBG_changeSide hne.symm]
      exact (h.enterSide ha .alliance arena).enterSide (mem_changeSide hne hh) .horde arena

/-! ### Groups come -/

/-- What the loop over the members does. -/
theorem foldl_addPlayer (q : Queue) (now gid : ℕ) (members : List ℕ) (hgid : q.groups gid = some ginfo) :
    (members.foldl (addPlayer now gid) q).groups =
        (fun g => if g = gid then
          some { ginfo with players := ginfo.players ∪ members.toFinset } else q.groups g) ∧
      (∀ guid, (members.foldl (addPlayer now gid) q).queuedPlayers.find guid =
        if guid ∈ members then some ⟨now, gid⟩ else q.queuedPlayers.find guid) ∧
      (members.foldl (addPlayer now gid) q).queuedGroups = q.queuedGroups ∧
      (members.foldl (addPlayer now gid) q).fresh = q.fresh := by
  induction members generalizing q ginfo with
  | nil =>
    refine ⟨?_, fun guid => (if_neg (by simp)).symm, rfl, rfl⟩
    funext g
    by_cases hg : g = gid <;> simp [hg, hgid]
  | cons guid members ih =>
    have hstep : (addPlayer now gid q guid).groups gid =
        some { ginfo with players := insert guid ginfo.players } := by
      rw [addPlayer, groups_modifyGroup_self]
      show (q.groups gid).map _ = _
      rw [hgid, Option.map_some]
    obtain ⟨hgroups, hfind, hlists, hfresh⟩ := ih _ hstep
    rw [List.foldl_cons]
    refine ⟨?_, fun k => ?_, hlists, hfresh⟩
    · rw [hgroups]
      funext g
      split_ifs with hg
      · simp [Finset.insert_union, Finset.union_insert]
      · exact groups_modifyGroup_ne hg
    · rw [hfind k]
      show (if k ∈ members then _ else (q.queuedPlayers.insert guid _).find k) = _
      rw [SortedMap.find_insert]
      by_cases hk : k = guid <;> by_cases hmem : k ∈ members <;> simp [hk, hmem]

theorem team_groupIndex (team : Team) (isRated isPremade : Bool) :
    (groupIndex team isRated isPremade).team = team := by
  unfold groupIndex
  split_ifs <;> simp

theorem Kept.addGroup (h : q.Kept) (now : ℕ) (team : Team) (members : List ℕ) (b : BracketId)
    (isRated isPremade : Bool) (matchmakerRating arenaTeamId : ℕ)
    (hnew : ∀ guid ∈ members, q.queuedPlayers.find guid = none) :
    (q.addGroup now team members b isRated isPremade matchmakerRating arenaTeamId).Kept := by
  let ginfo : GroupQueueInfo := ⟨∅, team, isRated, arenaTeamId, now, 0, matchmakerRating⟩
  let q₀ : Queue := { q with
    groups := fun g => if g = q.fresh then some ginfo else q.groups g
    fresh := q.fresh + 1 }
  obtain ⟨hgroups, hfind, hlists, hfresh⟩ :=
    foldl_addPlayer q₀ now q.fresh members (if_pos rfl : q₀.groups q.fresh = some ginfo)
  let r := members.foldl (addPlayer now q.fresh) q₀
  let index := groupIndex team isRated isPremade
  have hold : ∀ g info, q.groups g = some info → g ≠ q.fresh := fun g info hg =>
    (h.old g info hg).ne
  have hgroup : ∀ g, r.groups g = if g = q.fresh then
      some { ginfo with players := ∅ ∪ members.toFinset } else q.groups g := by
    intro g
    rw [congrFun hgroups g]
    split_ifs with hg
    · rfl
    · exact if_neg hg
  -- the new group is in no list before
  have hcount : ∀ b' j', (q.queuedGroups b' j').count q.fresh = 0 := by
    intro b' j'
    refine List.count_eq_zero_of_not_mem fun hmem => ?_
    obtain ⟨info, hinfo⟩ := h.live b' j' _ hmem
    exact hold _ _ hinfo rfl
  have hlist : ∀ b' j', (r.setList b index (r.queuedGroups b index ++ [q.fresh])).queuedGroups b' j'
      = if b' = b ∧ j' = index then q.queuedGroups b index ++ [q.fresh]
        else q.queuedGroups b' j' := by
    intro b' j'
    rw [queuedGroups_setList, hlists]
  have hne : ∀ g b' j', g ≠ q.fresh →
      ((r.setList b index (r.queuedGroups b index ++ [q.fresh])).queuedGroups b' j').count g =
        (q.queuedGroups b' j').count g := by
    intro g b' j' hg
    rw [hlist]
    split_ifs with h₁
    · obtain ⟨rfl, rfl⟩ := h₁
      rw [List.count_append, List.count_singleton, if_neg (by simpa using hg.symm), add_zero]
    · rfl
  -- each clause for the new group and for those that were there
  show (r.setList b index (r.queuedGroups b index ++ [q.fresh])).Kept
  refine ⟨fun guid info hinfo => ?_, fun g info hg guid hguid => ?_, fun g info hg => ?_,
    fun b' j' g hg => ?_, fun g info hg => ?_⟩
  · replace hinfo := (hfind guid).symm.trans hinfo
    split_ifs at hinfo with hmem
    · obtain rfl := Option.some.inj hinfo
      exact ⟨_, (hgroup _).trans (if_pos rfl), by simpa using hmem⟩
    · obtain ⟨old, hold', hin⟩ := h.contains guid info hinfo
      exact ⟨old, (hgroup _).trans ((if_neg (hold _ _ hold')).trans hold'), hin⟩
  · replace hg := (hgroup g).symm.trans hg
    split_ifs at hg with hg'
    · obtain rfl := Option.some.inj hg
      have hmem : guid ∈ members := by simpa using hguid
      exact ⟨_, (hfind guid).trans (if_pos hmem), hg'.symm⟩
    · obtain ⟨old, hold', heq⟩ := h.queued g info hg guid hguid
      have hmem : guid ∉ members := fun hmem => by
        rw [hnew guid hmem] at hold'
        cases hold'
      exact ⟨old, (hfind guid).trans ((if_neg hmem).trans hold'), heq⟩
  · replace hg := (hgroup g).symm.trans hg
    split_ifs at hg with hg'
    · obtain rfl := Option.some.inj hg
      refine ⟨b, index, team_groupIndex team isRated isPremade, fun b' j' => ?_⟩
      rw [hlist, hg']
      split_ifs with h₁
      · rw [List.count_append, hcount, List.count_singleton, if_pos (by simp)]
      · exact hcount b' j'
    · obtain ⟨b₀, j₀, hteam, hat⟩ := h.listed g info hg
      exact ⟨b₀, j₀, hteam, fun b' j' => (hne g b' j' hg').trans (hat b' j')⟩
  · by_cases hg' : g = q.fresh
    · exact ⟨_, (hgroup g).trans (if_pos hg')⟩
    · rw [← List.count_pos_iff, hne g b' j' hg', List.count_pos_iff] at hg
      obtain ⟨info, hinfo⟩ := h.live b' j' g hg
      exact ⟨info, (hgroup g).trans ((if_neg hg').trans hinfo)⟩
  · show g < r.fresh
    rw [hfresh]
    replace hg := (hgroup g).symm.trans hg
    split_ifs at hg with hg'
    · exact hg' ▸ Nat.lt_succ_self q.fresh
    · exact Nat.lt_succ_of_lt (h.old g info hg)

/-! ### Players go -/

theorem mem_of_findInBracket {team : Team} {b' : BracketId}
    (h : q.findInBracket team gid b = some (b', j)) : gid ∈ q.queuedGroups b' j := by
  unfold findInBracket at h
  split_ifs at h with h₁ h₂
  · obtain ⟨rfl, rfl⟩ := Prod.mk.inj (Option.some.inj h)
    exact h₁
  · obtain ⟨rfl, rfl⟩ := Prod.mk.inj (Option.some.inj h)
    exact h₂

/-- The search finds the list that a group stands in, if it is one of its faction. -/
theorem findGroup_eq (hteam : j.team = ginfo.team) (h : q.ListedAt gid b j) :
    q.findGroup ginfo.team gid = some (b, j) := by
  unfold findGroup
  cases hfind : (List.finRange MAX_BATTLEGROUND_BRACKETS).reverse.findSome?
      (q.findInBracket ginfo.team gid) with
  | none =>
    have hnone := List.findSome?_eq_none_iff.1 hfind b (by simp)
    unfold findInBracket at hnone
    split_ifs at hnone with h₁ h₂
    rw [← hteam] at h₁ h₂
    rcases j.eq_premade_or_normal with hj | hj
    · exact absurd (hj ▸ h.mem) h₂
    · exact absurd (hj ▸ h.mem) h₁
  | some p =>
    obtain ⟨b', hb'⟩ := List.exists_of_findSome?_eq_some hfind
    obtain ⟨rfl, rfl⟩ := h.eq_of_mem (mem_of_findInBracket hb'.2)
    rfl

theorem Kept.takeOut {guid : ℕ} {info : PlayerQueueInfo} (h : q.Kept)
    (hfind : q.queuedPlayers.find guid = some info) : (q.takeOut guid info.groupInfo).Kept := by
  have hfind' : ∀ k, (q.takeOut guid info.groupInfo).queuedPlayers.find k =
      if k = guid then none else q.queuedPlayers.find k := fun k => SortedMap.find_erase
  refine ⟨fun k other hk => ?_, fun g new hg k hk => ?_, fun g new hg => ?_, fun b' j' g hg => ?_,
    fun g new hg => ?_⟩
  · rw [hfind'] at hk
    split_ifs at hk with hne
    obtain ⟨old, hold, hin⟩ := h.contains k other hk
    by_cases hg : other.groupInfo = info.groupInfo
    · refine ⟨{ old with players := old.players.erase guid }, ?_, Finset.mem_erase.2 ⟨hne, hin⟩⟩
      show (q.modifyGroup info.groupInfo _).groups other.groupInfo = _
      rw [hg, groups_modifyGroup_self, ← hg, hold, Option.map_some]
    · exact ⟨old, (groups_modifyGroup_ne hg).trans hold, hin⟩
  · obtain ⟨old, hold, ⟨hg', rfl⟩ | ⟨hg', rfl⟩⟩ := groups_modifyGroup_eq_some hg
    · obtain ⟨hne, hin⟩ := Finset.mem_erase.1 hk
      obtain ⟨other, hother, heq⟩ := h.queued g old hold k hin
      exact ⟨other, (hfind' k).trans ((if_neg hne).trans hother), heq⟩
    · obtain ⟨other, hother, heq⟩ := h.queued g new hold k hk
      have hne : k ≠ guid := by
        rintro rfl
        obtain rfl := Option.some.inj (hfind.symm.trans hother)
        exact hg' heq.symm
      exact ⟨other, (hfind' k).trans ((if_neg hne).trans hother), heq⟩
  · obtain ⟨old, hold, ⟨-, rfl⟩ | ⟨-, rfl⟩⟩ := groups_modifyGroup_eq_some hg
    · exact h.listed g old hold
    · exact h.listed g new hold
  · obtain ⟨old, hold⟩ := h.live b' j' g hg
    by_cases hg' : g = info.groupInfo
    · subst hg'
      exact ⟨_, groups_modifyGroup_self.trans (congrArg (Option.map _) hold)⟩
    · exact ⟨old, (groups_modifyGroup_ne hg').trans hold⟩
  · obtain ⟨old, hold, -⟩ := groups_modifyGroup_eq_some hg
    exact h.old g old hold

theorem Kept.deleteGroup (h : q.Kept) (hgid : q.groups gid = some ginfo)
    (hempty : ginfo.players = ∅) (hat : q.ListedAt gid b j) : (q.deleteGroup gid b j).Kept := by
  have hgroup : ∀ g, (q.deleteGroup gid b j).groups g = if g = gid then none else q.groups g :=
    fun g => rfl
  have hcount : ∀ g b' j', g ≠ gid → ((q.deleteGroup gid b j).queuedGroups b' j').count g =
      (q.queuedGroups b' j').count g := by
    intro g b' j' hg
    show ((q.setList b j _).queuedGroups b' j').count g = _
    rw [queuedGroups_setList]
    split_ifs with h₁
    · obtain ⟨rfl, rfl⟩ := h₁
      exact List.count_erase_of_ne hg
    · rfl
  refine ⟨fun k info hk => ?_, fun g info hg k hk => ?_, fun g info hg => ?_,
    fun b' j' g hg => ?_, fun g info hg => ?_⟩
  · obtain ⟨old, hold, hin⟩ := h.contains k info hk
    refine ⟨old, (hgroup _).trans ((if_neg fun heq => ?_).trans hold), hin⟩
    rw [heq] at hold
    obtain rfl := Option.some.inj (hgid.symm.trans hold)
    simp [hempty] at hin
  · rw [hgroup] at hg
    split_ifs at hg
    exact h.queued g info hg k hk
  · rw [hgroup] at hg
    split_ifs at hg with hne
    obtain ⟨b₀, j₀, hteam, hat₀⟩ := h.listed g info hg
    exact ⟨b₀, j₀, hteam, fun b' j' => (hcount g b' j' hne).trans (hat₀ b' j')⟩
  · by_cases hg' : g = gid
    · subst hg'
      have hzero : ((q.deleteGroup g b j).queuedGroups b' j').count g = 0 := by
        show ((q.setList b j _).queuedGroups b' j').count g = 0
        rw [queuedGroups_setList]
        split_ifs with h₁
        · rw [List.count_erase_self, hat b j, if_pos ⟨rfl, rfl⟩]
        · rw [hat b' j', if_neg h₁]
      have hpos := List.count_pos_iff.2 hg
      omega
    · rw [← List.count_pos_iff, hcount g b' j' hg', List.count_pos_iff] at hg
      obtain ⟨old, hold⟩ := h.live b' j' g hg
      exact ⟨old, (hgroup g).trans ((if_neg hg').trans hold)⟩
  · rw [hgroup] at hg
    split_ifs at hg
    exact h.old g info hg

theorem length_takeOut {guid : ℕ} {info : PlayerQueueInfo}
    (hfind : q.queuedPlayers.find guid = some info) :
    (q.takeOut guid info.groupInfo).queuedPlayers.entries.length <
      q.queuedPlayers.entries.length := by
  refine List.length_filter_lt_length_iff_exists.2 ⟨(guid, info), ?_, by simp⟩
  exact SortedMap.find_eq_some_mem hfind

theorem removePlayerFuel_last {guid : ℕ} {info : PlayerQueueInfo} (fuel : ℕ)
    (hfind : q.queuedPlayers.find guid = some info) (hgid : q.groups info.groupInfo = some ginfo)
    (hteam : j.team = ginfo.team) (hat : q.ListedAt info.groupInfo b j)
    (hlast : (ginfo.players.erase guid).sort.head? = none) :
    removePlayerFuel (fuel + 1) q guid =
      ((q.takeOut guid info.groupInfo).deleteGroup info.groupInfo b j, true) := by
  rw [removePlayerFuel]
  simp only [hfind, hgid, findGroup_eq hteam hat, hlast]

/-- `RemovePlayer` for a player who leaves others behind. -/
theorem removePlayerFuel_next {guid next : ℕ} {info : PlayerQueueInfo} (fuel : ℕ)
    (hfind : q.queuedPlayers.find guid = some info) (hgid : q.groups info.groupInfo = some ginfo)
    (hteam : j.team = ginfo.team) (hat : q.ListedAt info.groupInfo b j)
    (hnext : (ginfo.players.erase guid).sort.head? = some next) :
    removePlayerFuel (fuel + 1) q guid =
      if ginfo.isInvitedToBGInstanceGUID = 0 ∧ ginfo.isRated then
        removePlayerFuel fuel (q.takeOut guid info.groupInfo) next
      else (q.takeOut guid info.groupInfo, true) := by
  rw [removePlayerFuel]
  simp only [hfind, hgid, findGroup_eq hteam hat, hnext]

/-- The players of a rated group that waits leave one after the other; the last one takes the group
with him. -/
theorem Kept.removePlayerFuel {fuel : ℕ} (h : q.Kept)
    (hfuel : q.queuedPlayers.entries.length < fuel) (guid : ℕ) :
    (removePlayerFuel fuel q guid).1.Kept ∧ (removePlayerFuel fuel q guid).2 = true ∧
      ∀ info ginfo, q.queuedPlayers.find guid = some info →
        q.groups info.groupInfo = some ginfo → ginfo.isRated →
        ginfo.isInvitedToBGInstanceGUID = 0 →
        (removePlayerFuel fuel q guid).1.groups info.groupInfo = none ∧
          ∀ k, (removePlayerFuel fuel q guid).1.queuedPlayers.find k =
            if k ∈ ginfo.players then none else q.queuedPlayers.find k := by
  induction fuel generalizing q guid with
  | zero => omega
  | succ fuel ih =>
    cases hfind : q.queuedPlayers.find guid with
    | none =>
      rw [Queue.removePlayerFuel, hfind]
      exact ⟨h, rfl, fun info ginfo hinfo => by cases hinfo⟩
    | some info =>
      obtain ⟨ginfo, hgid, hin⟩ := h.contains guid info hfind
      obtain ⟨b, j, hteam, hat⟩ := h.listed _ ginfo hgid
      have hout := h.takeOut hfind
      have hgid' : (q.takeOut guid info.groupInfo).groups info.groupInfo =
          some { ginfo with players := ginfo.players.erase guid } :=
        groups_modifyGroup_self.trans (congrArg (Option.map _) hgid)
      have hfind' : ∀ k, (q.takeOut guid info.groupInfo).queuedPlayers.find k =
          if k = guid then none else q.queuedPlayers.find k := fun k => SortedMap.find_erase
      cases hnext : (ginfo.players.erase guid).sort.head? with
      | none =>
        rw [removePlayerFuel_last fuel hfind hgid hteam hat hnext]
        have hempty : ginfo.players.erase guid = ∅ := by
          rw [List.head?_eq_none_iff] at hnext
          rw [← Finset.card_eq_zero, ← Finset.length_sort (· ≤ ·), hnext, List.length_nil]
        refine ⟨hout.deleteGroup hgid' hempty hat, rfl, fun info' ginfo' hinfo' hgid₁ _ _ => ?_⟩
        obtain rfl := Option.some.inj hinfo'
        obtain rfl := Option.some.inj (hgid.symm.trans hgid₁)
        refine ⟨if_pos rfl, fun k => ?_⟩
        have hmem : k ∈ ginfo.players ↔ k = guid := by
          rw [← Finset.insert_erase hin, hempty]
          simp
        show (q.takeOut guid info.groupInfo).queuedPlayers.find k = _
        rw [hfind' k]
        exact if_congr hmem.symm rfl rfl
      | some next =>
        rw [removePlayerFuel_next fuel hfind hgid hteam hat hnext]
        have hnextMem : next ∈ ginfo.players.erase guid := by
          rw [← Finset.mem_sort (· ≤ ·)]
          exact List.mem_of_mem_head? (Option.mem_def.2 hnext)
        have hlength := length_takeOut hfind
        split_ifs with hrated
        · obtain ⟨hkept, hfound, hwhole⟩ := ih hout (by omega) next
          refine ⟨hkept, hfound, fun info' ginfo' hinfo' hgid₁ _ _ => ?_⟩
          obtain rfl := Option.some.inj hinfo'
          obtain rfl := Option.some.inj (hgid.symm.trans hgid₁)
          obtain ⟨infoNext, hqueued, heq⟩ := hout.queued _ _ hgid' next hnextMem
          obtain ⟨hgone, hrest⟩ :=
            hwhole infoNext _ hqueued ((congrArg _ heq).trans hgid') hrated.2 hrated.1
          refine ⟨heq ▸ hgone, fun k => ?_⟩
          rw [hrest k, hfind' k]
          by_cases hk : k = guid
          · simp [hk, hin]
          · simp [hk]
        · refine ⟨hout, rfl, fun info' ginfo' hinfo' hgid₁ hr hi => absurd ?_ hrated⟩
          obtain rfl := Option.some.inj hinfo'
          obtain rfl := Option.some.inj (hgid.symm.trans hgid₁)
          exact ⟨hi, hr⟩

theorem Kept.removePlayer (h : q.Kept) (guid : ℕ) : (q.removePlayer guid).1.Kept :=
  (h.removePlayerFuel (Nat.lt_succ_self _) guid).1

/-- Every operation that adds players who are not queued keeps the lists in step. -/
theorem Kept.exec (h : q.Kept) {op : Op} (hop : op.Unqueued q) : (q.exec op).Kept := by
  cases op with
  | addGroup now team members b isRated isPremade rating arenaTeamId =>
    exact h.addGroup now team members b isRated isPremade rating arenaTeamId hop
  | removePlayer guid => exact h.removePlayer guid
  | checkPremadeMatch b timeBefore minPlayers => exact h.checkPremadeMatch b timeBefore minPlayers
  | checkSkirmishForSameFaction b minPlayers pools =>
    exact h.checkSkirmishForSameFaction b minPlayers pools
  | ratedArena b s instanceId => exact h.ratedArena b s instanceId
  | inviteGroupToBG gid instanceId => exact h.inviteGroupToBG gid instanceId

/-! ### What the users of the queue rely on -/

/-- Every queued player points to a group that contains him, every group stands once in one of the
two lists of its faction and in no other list, `RemovePlayer` finds the group of everybody, and who
leaves a rated group that is not invited takes the whole group with him. -/
structure Represented (q : Queue) : Prop where
  contains : ∀ guid info, q.queuedPlayers.find guid = some info →
    ∃ ginfo, q.groups info.groupInfo = some ginfo ∧ guid ∈ ginfo.players
  listed : ∀ gid ginfo, q.groups gid = some ginfo →
    ∃ b j, (j = .premade ginfo.team ∨ j = .normal ginfo.team) ∧ q.ListedAt gid b j
  found : ∀ guid, (q.removePlayer guid).2 = true
  rated : ∀ guid info ginfo, q.queuedPlayers.find guid = some info →
    q.groups info.groupInfo = some ginfo → ginfo.isRated → ginfo.isInvitedToBGInstanceGUID = 0 →
    (q.removePlayer guid).1.groups info.groupInfo = none ∧
      (∀ b j, info.groupInfo ∉ (q.removePlayer guid).1.queuedGroups b j) ∧
      ∀ k, (q.removePlayer guid).1.queuedPlayers.find k =
        if k ∈ ginfo.players then none else q.queuedPlayers.find k

theorem Kept.represented (h : q.Kept) : q.Represented where
  contains := h.contains
  listed := by
    intro gid ginfo hgid
    obtain ⟨b, j, hteam, hat⟩ := h.listed gid ginfo hgid
    exact ⟨b, j, hteam ▸ j.eq_premade_or_normal, hat⟩
  found := fun guid => (h.removePlayerFuel (Nat.lt_succ_self _) guid).2.1
  rated := by
    intro guid info ginfo hfind hgid hrated hinvited
    obtain ⟨hkept, -, hwhole⟩ := h.removePlayerFuel (Nat.lt_succ_self _) guid
    obtain ⟨hgone, hrest⟩ := hwhole info ginfo hfind hgid hrated hinvited
    refine ⟨hgone, fun b j hmem => ?_, hrest⟩
    obtain ⟨other, hother⟩ := hkept.live b j _ hmem
    rw [hgone] at hother
    cases hother

end Queue

/-- **Main result.** Along every run of operations from the empty queue that adds nobody who is
queued, the players, the groups and the lists of the factions are in step. -/
theorem queue_represented (ops : List Op)
    (hops : Runs.EachStep Queue.exec (fun q op => op.Unqueued q) Queue.empty ops) :
    Runs.Along Queue.exec Queue.Represented Queue.empty ops := by
  have hkept : Runs.Along Queue.exec Queue.Kept Queue.empty ops :=
    Runs.along_of_inv hops Queue.kept_empty fun q op h hop => h.exec hop
  exact fun pre hpre => (hkept pre hpre).represented

/-- Two horde teams join a rated arena, and one of them enters the match on the side of the
alliance. -/
theorem queue_represented_arena :
    let b : BracketId := ⟨3, by decide⟩
    Runs.Along Queue.exec Queue.Represented Queue.empty
      [.addGroup 5 .horde [10, 11] b true false 1500 1,
        .addGroup 6 .horde [12, 13] b true false 1520 2,
        .ratedArena b ⟨1400, 1600, 0⟩ (some 9), .removePlayer 12] := by
  refine queue_represented _ ?_
  refine Runs.eachStep_cons.2 ⟨?_, Runs.eachStep_cons.2 ⟨?_, Runs.eachStep_cons.2 ⟨trivial,
    Runs.eachStep_cons.2 ⟨trivial, Runs.EachStep.nil _⟩⟩⟩⟩
  · intro guid _
    rfl
  · show ∀ guid ∈ [12, 13], _ = none
    decide

end FaceCore.Battlegrounds
