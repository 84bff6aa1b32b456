import FaceCore.Battleground.QueueLists

/-!
# The pairing of rated arena teams

`BattlegroundQueueUpdate` looks for two groups with ratings near the one of the group that joined
last, or with a long time in the queue, and starts a match between them.

* `referenceRating`, `ratedSearch`: what is looked for; the clock has 32 bits and counts
  milliseconds from the start of the server;
* `RespectsRatings`: two groups of different teams, each with a rating in range or a wait that is
  long enough;
* `ratedPairing_iff`: exactly when the pair that is found is one.
-/

namespace FaceCore.Battlegrounds

namespace Queue

/-- `BattlegroundMgr::GetMaxRatingDifference`. -/
def getMaxRatingDifference (config : UInt32) : UInt32 := if config = 0 then 5000 else config

/-- `ArenaMatchmakerRating` of a group. -/
def matchmakerRating (q : Queue) (gid : ℕ) : ℕ :=
  ((q.groups gid).map (·.arenaMatchmakerRating)).getD 0

/-- `JoinTime` of a group. -/
def joinTime (q : Queue) (gid : ℕ) : ℕ := ((q.groups gid).map (·.joinTime)).getD 0

/-- The rating that a match is looked for with: the one of the group that joined last, or, if that
is 0, the one of the front group that joined first. -/
def referenceRating (q : Queue) (b : BracketId) (arenaRating : UInt32) : Option ℕ :=
  if arenaRating ≠ 0 then some arenaRating.toNat
  else
    match (q.queuedGroups b .premadeAlliance).head?, (q.queuedGroups b .premadeHorde).head? with
    | some front1, some front2 =>
      some (if q.joinTime front1 < q.joinTime front2 then q.matchmakerRating front1
        else q.matchmakerRating front2)
    | some front1, none => some (q.matchmakerRating front1)
    | none, some front2 => some (q.matchmakerRating front2)
    | none, none => none

/-- The rating range and the discard time. -/
def ratedSearch (reference : ℕ) (now maxRatingDifference ratingDiscardTimer : UInt32) : Search where
  arenaMinRating :=
    if reference ≤ maxRatingDifference.toNat then 0 else reference - maxRatingDifference.toNat
  arenaMaxRating := (reference + maxRatingDifference.toNat) % 2 ^ 32
  discardTime := (now - ratingDiscardTimer).toNat

/-- The two groups that `BattlegroundQueueUpdate` pairs in a rated arena. -/
def ratedPairing (q : Queue) (b : BracketId) (now config ratingDiscardTimer arenaRating : UInt32) :
    Option (ℕ × ℕ) :=
  (q.referenceRating b arenaRating).bind fun reference =>
    q.findOpponents b (ratedSearch reference now (getMaxRatingDifference config) ratingDiscardTimer)

/-- The rated arenas of `BattlegroundQueueUpdate` on the clock of the server. -/
def ratedArenaUpdate (q : Queue) (b : BracketId)
    (now config ratingDiscardTimer arenaRating : UInt32) (instanceId : Option ℕ) : Queue :=
  match q.referenceRating b arenaRating with
  | none => q
  | some reference => q.ratedArena b
      (ratedSearch reference now (getMaxRatingDifference config) ratingDiscardTimer) instanceId

/-- The milliseconds that a group has been in the queue; the clock starts again after
`2 ^ 32` of them. -/
def waited (q : Queue) (now : UInt32) (gid : ℕ) : ℕ := (now - UInt32.ofNat (q.joinTime gid)).toNat

/-- The rating of a group differs from the reference by no more than `d`. -/
def Near (q : Queue) (reference d gid : ℕ) : Prop :=
  reference ≤ q.matchmakerRating gid + d ∧ q.matchmakerRating gid ≤ reference + d

/-- Two groups that may meet in a rated match. -/
structure RespectsRatings (q : Queue) (b : BracketId) (now : UInt32) (d timer reference : ℕ)
    (aTeam hTeam : ℕ) : Prop where
  queued : ∀ gid ∈ [aTeam, hTeam], ∃ t, gid ∈ q.queuedGroups b (.premade t)
  ne : aTeam ≠ hTeam
  teams : q.arenaTeamId aTeam ≠ q.arenaTeamId hTeam
  waiting : ∀ gid ∈ [aTeam, hTeam], q.isWaiting gid = true
  rated : ∀ gid ∈ [aTeam, hTeam], q.Near reference d gid ∨ timer < q.waited now gid

variable {q : Queue} {gid : ℕ} {ginfo : GroupQueueInfo} {b : BracketId} {s : Search}
  {now config timer arenaRating : UInt32} {reference aTeam hTeam : ℕ}

/-! ### A group that fits -/

theorem fits_iff : q.fits s gid = true ↔ q.isWaiting gid = true ∧
    ((s.arenaMinRating ≤ q.matchmakerRating gid ∧ q.matchmakerRating gid ≤ s.arenaMaxRating) ∨
      q.joinTime gid < s.discardTime) := by
  unfold fits isWaiting matchmakerRating joinTime
  cases q.groups gid <;> simp

/-- A group that fits, and whose rating is out of range, has joined before the discard time. -/
theorem joinTime_lt_of_fits {d : UInt32} (h : q.fits (ratedSearch reference now d timer) gid = true)
    (hnear : ¬q.Near reference d.toNat gid) : q.joinTime gid < (now - timer).toNat := by
  rcases (fits_iff.1 h).2 with hrange | hjoin
  · refine absurd ⟨?_, hrange.2.trans (Nat.mod_le _ _)⟩ hnear
    have hmin := hrange.1
    simp only [ratedSearch] at hmin
    split_ifs at hmin <;> omega
  · exact hjoin

/-- Joining before the discard time is a wait that is long enough, unless the clock shows less than
the discard timer and the group joined on the same lap. -/
theorem lt_waited_iff (h : q.joinTime gid < (now - timer).toNat) :
    timer.toNat < q.waited now gid ↔ timer ≤ now ∨ now.toNat < q.joinTime gid := by
  have hnow := now.toNat_lt
  have htimer := timer.toNat_lt
  unfold waited
  rw [UInt32.toNat_sub] at h ⊢
  rw [UInt32.toNat_ofNat', UInt32.le_iff_toNat_le]
  generalize q.joinTime gid = j at h ⊢
  omega

/-! ### The groups that are found -/

/-- The first group of a list that fits. -/
def FirstFit (q : Queue) (b : BracketId) (s : Search) (t : Team) (gid : ℕ) : Prop :=
  (q.queuedGroups b (.premade t)).find? (q.fits s) = some gid

/-- A group for the match: the first that fits in the list of a faction, or, if there is none in the
other list, the next one of another team. -/
def Candidate (q : Queue) (b : BracketId) (s : Search) (gid : ℕ) : Prop :=
  ∃ t, q.FirstFit b s t gid ∨ ∃ first, q.FirstFit b s t first ∧ (∀ g, ¬q.FirstFit b s t.other g) ∧
    (q.queuedGroups b (.premade t)).find?
      (fun g => q.fits s g ∧ q.arenaTeamId first ≠ q.arenaTeamId g) = some gid

/-- The first groups that fit in the two lists are of different teams, and the groups for the match
that are out of range do not owe this to a discard time before the start of the clock. -/
structure PairsWell (q : Queue) (b : BracketId) (s : Search) (now timer : UInt32)
    (d reference : ℕ) : Prop where
  teams : ∀ gid gid', q.FirstFit b s .alliance gid → q.FirstFit b s .horde gid' →
    q.arenaTeamId gid ≠ q.arenaTeamId gid'
  waits : timer ≤ now ∨
    ∀ gid, q.Candidate b s gid → q.Near reference d gid ∨ now.toNat < q.joinTime gid

/-- Nothing before the first group that fits matters to a search for groups that fit. -/
theorem find?_dropWhile {p p' : ℕ → Bool} {l : List ℕ} {first : ℕ} (hp : ∀ g, p' g → p g)
    (h : l.find? p = some first) : (l.dropWhile (· ≠ first)).find? p' = l.find? p' := by
  induction l with
  | nil => rfl
  | cons g l ih =>
    have hfirst := List.find?_some h
    by_cases hg : p g = true
    · rw [List.find?_cons_of_pos hg] at h
      obtain rfl := Option.some.inj h
      rw [List.dropWhile_cons_of_neg (by simp)]
    · rw [List.find?_cons_of_neg hg] at h
      have hne : g ≠ first := by
        rintro rfl
        exact hg hfirst
      rw [List.dropWhile_cons_of_pos (by simpa using hne), ih h,
        List.find?_cons_of_neg fun hg' => hg (hp g hg')]

/-- The groups that are paired: the first that fit in both lists, or two of different teams in the
only list with one that fits. -/
theorem findOpponents_cases (h : q.findOpponents b s = some (aTeam, hTeam)) :
    (q.FirstFit b s .alliance aTeam ∧ q.FirstFit b s .horde hTeam) ∨
      ∃ t, q.FirstFit b s t aTeam ∧ (∀ g, ¬q.FirstFit b s t.other g) ∧
        (q.queuedGroups b (.premade t)).find?
          (fun g => q.fits s g ∧ q.arenaTeamId aTeam ≠ q.arenaTeamId g) = some hTeam := by
  have hone : ∀ t gid, q.FirstFit b s t gid →
      (q.queuedGroups b (.premade t.other)).find? (q.fits s) = none →
      (((q.queuedGroups b (.premade t)).dropWhile (· ≠ gid)).find? fun gid' =>
        q.fits s gid' ∧ q.arenaTeamId gid ≠ q.arenaTeamId gid').map (fun gid' => (gid, gid')) =
          some (aTeam, hTeam) →
      ∃ t, q.FirstFit b s t aTeam ∧ (∀ g, ¬q.FirstFit b s t.other g) ∧
        (q.queuedGroups b (.premade t)).find?
          (fun g => q.fits s g ∧ q.arenaTeamId aTeam ≠ q.arenaTeamId g) = some hTeam := by
    intro t gid hfirst hnone hsecond
    rw [find?_dropWhile (fun g hg => (of_decide_eq_true hg).1) hfirst] at hsecond
    obtain ⟨gid', hgid', heq⟩ := Option.map_eq_some_iff.1 hsecond
    obtain ⟨rfl, rfl⟩ := Prod.mk.inj heq
    refine ⟨t, hfirst, fun g hg => ?_, hgid'⟩
    rw [FirstFit, hnone] at hg
    cases hg
  unfold findOpponents at h
  dsimp only at h
  cases ha : (q.queuedGroups b (.premade .alliance)).find? (q.fits s) with
  | none =>
    cases hh : (q.queuedGroups b (.premade .horde)).find? (q.fits s) with
    | none =>
      rw [ha, hh] at h
      cases h
    | some gid =>
      rw [ha, hh] at h
      exact .inr (hone .horde gid hh ha h)
  | some gid =>
    cases hh : (q.queuedGroups b (.premade .horde)).find? (q.fits s) with
    | none =>
      rw [ha, hh] at h
      exact .inr (hone .alliance gid ha hh h)
    | some gid' =>
      rw [ha, hh] at h
      obtain ⟨rfl, rfl⟩ := Prod.mk.inj (Option.some.inj h)
      exact .inl ⟨ha, hh⟩

theorem FirstFit.fits {t : Team} (h : q.FirstFit b s t gid) : q.fits s gid = true :=
  List.find?_some h

/-- The groups for the match are the two that are paired. -/
theorem candidate_iff (h : q.findOpponents b s = some (aTeam, hTeam)) :
    q.Candidate b s gid ↔ gid = aTeam ∨ gid = hTeam := by
  have huniq : ∀ {t g g'}, q.FirstFit b s t g → q.FirstFit b s t g' → g' = g :=
    fun hg hg' => Option.some.inj (hg'.symm.trans hg)
  rcases findOpponents_cases h with ⟨ha, hh⟩ | ⟨t, hfirst, hnone, hsecond⟩
  · constructor
    · rintro ⟨t, hgid | ⟨first, -, hnone, -⟩⟩
      · cases t
        · exact .inl (huniq ha hgid)
        · exact .inr (huniq hh hgid)
      · cases t
        · exact absurd hh (hnone _)
        · exact absurd ha (hnone _)
    · rintro (rfl | rfl)
      · exact ⟨.alliance, .inl ha⟩
      · exact ⟨.horde, .inl hh⟩
  · constructor
    · rintro ⟨t', hgid⟩
      have ht : t' = t := by
        by_contra hne
        have hother := Team.eq_other hne
        rcases hgid with hgid | ⟨first, hgid, -⟩
        · exact hnone _ (hother ▸ hgid)
        · exact hnone _ (hother ▸ hgid)
      subst ht
      rcases hgid with hgid | ⟨first, hgid, -, hsecond'⟩
      · exact .inl (huniq hfirst hgid)
      · obtain rfl := huniq hfirst hgid
        exact .inr (Option.some.inj (hsecond'.symm.trans hsecond))
    · rintro (rfl | rfl)
      · exact ⟨t, .inl hfirst⟩
      · exact ⟨t, .inr ⟨aTeam, hfirst, hnone, hsecond⟩⟩

theorem fits_of_findOpponents (h : q.findOpponents b s = some (aTeam, hTeam)) :
    ∀ gid ∈ [aTeam, hTeam], q.fits s gid = true := by
  have hboth : q.fits s aTeam = true ∧ q.fits s hTeam = true := by
    rcases findOpponents_cases h with ⟨ha, hh⟩ | ⟨t, hfirst, -, hsecond⟩
    · exact ⟨ha.fits, hh.fits⟩
    · have hlast := List.find?_some hsecond
      exact ⟨hfirst.fits, (of_decide_eq_true hlast).1⟩
  exact List.forall_mem_cons.2 ⟨hboth.1, List.forall_mem_singleton.2 hboth.2⟩

/-- Two groups from one list are of different teams, as the search sees to it. -/
theorem teams_iff (h : q.findOpponents b s = some (aTeam, hTeam)) :
    q.arenaTeamId aTeam ≠ q.arenaTeamId hTeam ↔ ∀ gid gid', q.FirstFit b s .alliance gid →
      q.FirstFit b s .horde gid' → q.arenaTeamId gid ≠ q.arenaTeamId gid' := by
  rcases findOpponents_cases h with ⟨ha, hh⟩ | ⟨t, hfirst, hnone, hsecond⟩
  · constructor
    · intro hne gid gid' hgid hgid'
      obtain rfl := Option.some.inj (ha.symm.trans hgid)
      obtain rfl := Option.some.inj (hh.symm.trans hgid')
      exact hne
    · exact fun hall => hall _ _ ha hh
  · have hlast := List.find?_some hsecond
    refine iff_of_true (of_decide_eq_true hlast).2 fun gid gid' hgid hgid' => ?_
    cases t
    · exact absurd hgid' (hnone _)
    · exact absurd hgid (hnone _)

/-- **Main result.** The two groups of a rated match may meet exactly if the first groups that fit
in the two lists are of different teams and nobody out of range owes his match to a discard time
before the start of the clock. -/
theorem ratedPairing_iff (h : q.Kept) (now config timer : UInt32)
    (hreference : q.referenceRating b arenaRating = some reference)
    (hpair : q.ratedPairing b now config timer arenaRating = some (aTeam, hTeam)) :
    q.RespectsRatings b now (getMaxRatingDifference config).toNat timer.toNat reference aTeam hTeam ↔
      q.PairsWell b (ratedSearch reference now (getMaxRatingDifference config) timer) now timer
        (getMaxRatingDifference config).toNat reference := by
  rw [ratedPairing, hreference, Option.bind_some] at hpair
  generalize getMaxRatingDifference config = d at hpair ⊢
  have hfits := fits_of_findOpponents hpair
  have hrated : ∀ gid ∈ [aTeam, hTeam], (q.Near reference d.toNat gid ∨ timer.toNat < q.waited now gid ↔
      timer ≤ now ∨ q.Near reference d.toNat gid ∨ now.toNat < q.joinTime gid) := by
    intro gid hgid
    by_cases hnear : q.Near reference d.toNat gid
    · simp [hnear]
    · have hjoin := joinTime_lt_of_fits (hfits gid hgid) hnear
      simp only [hnear, false_or]
      exact lt_waited_iff hjoin
  constructor
  · intro hr
    refine ⟨(teams_iff hpair).1 hr.teams, or_iff_not_imp_left.2 fun hnow gid hgid => ?_⟩
    have hmem : gid ∈ [aTeam, hTeam] := by simpa using (candidate_iff hpair).1 hgid
    exact ((hrated gid hmem).1 (hr.rated gid hmem)).resolve_left hnow
  · intro hw
    obtain ⟨ha, hh, hne⟩ := h.findOpponents hpair
    refine ⟨List.forall_mem_cons.2 ⟨ha, List.forall_mem_singleton.2 hh⟩, hne,
      (teams_iff hpair).2 hw.teams, fun gid hgid => (fits_iff.1 (hfits gid hgid)).1,
      fun gid hgid => (hrated gid hgid).2 ?_⟩
    refine hw.waits.imp_right fun hall => hall gid ((candidate_iff hpair).2 ?_)
    simpa using hgid

@[simp] theorem groups_changeSide (side : Team) : (q.changeSide b gid side).groups = q.groups := by
  unfold changeSide
  split_ifs <;> rfl

/-- The groups that are paired are those that an update invites. -/
theorem ratedArenaUpdate_of_some (h : q.Kept) (now config timer arena : UInt32)
    (hpair : q.ratedPairing b now config timer arenaRating = some (aTeam, hTeam)) :
    ∀ gid ∈ [aTeam, hTeam],
      ((q.ratedArenaUpdate b now config timer arenaRating (some arena.toNat)).groups gid).map
        (·.isInvitedToBGInstanceGUID) = some arena.toNat := by
  obtain ⟨reference, hreference, hfind⟩ := Option.bind_eq_some_iff.1 hpair
  have hne := (h.findOpponents hfind).2.2
  have hinvite : ∀ gid ∈ [aTeam, hTeam], ∃ ginfo, q.groups gid = some ginfo ∧
      ginfo.isInvitedToBGInstanceGUID = 0 := by
    intro gid hgid
    have hwaits := (fits_iff.1 (fits_of_findOpponents hfind gid hgid)).1
    cases hgroup : q.groups gid with
    | none =>
      rw [isWaiting, hgroup] at hwaits
      cases hwaits
    | some ginfo =>
      rw [isWaiting, hgroup] at hwaits
      exact ⟨ginfo, rfl, of_decide_eq_true hwaits⟩
  unfold ratedArenaUpdate ratedArena
  rw [hreference]
  dsimp only
  rw [hfind]
  dsimp only [inviteGroupToBG]
  refine List.forall_mem_cons.2 ⟨?_, List.forall_mem_singleton.2 ?_⟩
  · obtain ⟨ginfo, hgroup, hzero⟩ := hinvite aTeam List.mem_cons_self
    rw [groups_modifyGroup_ne hne, groups_modifyGroup_self]
    simp [hgroup, hzero]
  · obtain ⟨ginfo, hgroup, hzero⟩ := hinvite hTeam (List.mem_cons_of_mem _ List.mem_cons_self)
    rw [groups_modifyGroup_self, groups_modifyGroup_ne hne.symm]
    simp [hgroup, hzero]

/-- Two teams that join 500 milliseconds after the start of the server. -/
def ratedOps (b : BracketId) (rating team : ℕ) : List Op :=
  [.addGroup 500 .alliance [1, 2] b true false 1500 7,
    .addGroup 500 .horde [11, 12] b true false rating team]

theorem kept_ratedOps :
    ((ratedOps ⟨3, by decide⟩ 2500 8).foldl exec empty).Kept := by
  simp only [ratedOps, List.foldl_cons, List.foldl_nil]
  refine (kept_empty.exec ?_).exec ?_
  · show ∀ guid ∈ [1, 2], _ = none
    decide
  · show ∀ guid ∈ [11, 12], _ = none
    decide

theorem ratedPairing_iff_start :
    let q := (ratedOps ⟨3, by decide⟩ 2500 8).foldl exec empty
    q.RespectsRatings ⟨3, by decide⟩ 1000 (getMaxRatingDifference 150).toNat
        (600000 : UInt32).toNat 1500 0 1 ↔
      q.PairsWell ⟨3, by decide⟩ (ratedSearch 1500 1000 (getMaxRatingDifference 150) 600000) 1000
        600000 (getMaxRatingDifference 150).toNat 1500 := by
  have hreference : ((ratedOps ⟨3, by decide⟩ 2500 8).foldl exec empty).referenceRating
      ⟨3, by decide⟩ 1500 = some 1500 := rfl
  exact ratedPairing_iff kept_ratedOps 1000 150 600000 hreference rfl

/-- The teams are paired after half a second although their ratings are a thousand apart and the
timer is ten minutes; and two groups of one team are paired when their leaders have different
factions. -/
theorem ratedPairing_not_respectsRatings :
    let q := (ratedOps ⟨3, by decide⟩ 2500 8).foldl exec empty
    let q' := (ratedOps ⟨3, by decide⟩ 1500 7).foldl exec empty
    (q.ratedPairing ⟨3, by decide⟩ 1000 150 600000 1500 = some (0, 1) ∧
        ¬q.RespectsRatings ⟨3, by decide⟩ 1000 150 600000 1500 0 1) ∧
      q'.ratedPairing ⟨3, by decide⟩ 1000 150 600000 1500 = some (0, 1) ∧
        ¬q'.RespectsRatings ⟨3, by decide⟩ 1000 150 600000 1500 0 1 := by
  refine ⟨⟨rfl, fun h => ?_⟩, rfl, fun h => ?_⟩
  · rcases h.rated 1 (by decide) with hnear | hlong
    · exact absurd hnear.2 (by decide)
    · exact absurd hlong (by decide)
  · exact absurd rfl h.teams

end Queue

end FaceCore.Battlegrounds
