import FaceCore.Group.LootRoll

/-!
# Rolls and members who leave

Whether every running roll still waits for somebody, along votes and members who leave.
`RemoveMember` takes the leaver's entry out of the map of votes and then calls `CountRollVote` for
him, which finds no entry and returns before the test for outstanding voters. So a roll whose last
outstanding voter leaves stays.

* `Covered`: the tallies cover the votes of the map, which is kept even by votes that are counted
  twice;
* `leaveRolls_eq`: what `RemoveMember` does to the rolls;
* `rolls_keep_open_iff`: every roll keeps an outstanding voter along a run exactly when each leaver
  leaves one behind in every roll that he takes part in.
-/

namespace FaceCore.LootRoll

/-- Somebody has not voted yet. -/
def HasOpen (r : Roll) : Prop := ∃ e ∈ r.playerVote.entries, e.2 = .notEmitedYet

/-- Every running roll waits for somebody. -/
def AllOpen (s : Rolls) : Prop := ∀ r ∈ s.rollId, HasOpen r

/-- A vote, or a member who leaves. -/
def Event.isVoteOrLeave : Event → Prop
  | .vote .. => True
  | .removeMember .. => True
  | _ => False

/-- A member who leaves a group that goes on is not the last outstanding voter of a roll. -/
def LeavesOthers (s : Rolls) : Event → Prop
  | .removeMember guid disband _ =>
    disband = false → ∀ r ∈ s.rollId, (r.playerVote.find guid).isSome →
      ∃ e ∈ r.playerVote.entries, e.1 ≠ guid ∧ e.2 = .notEmitedYet
  | _ => True

/-- The tallies cover the votes of the map; a vote that is entered twice is tallied twice. -/
structure Covered (r : Roll) : Prop where
  need : r.playerVote.count isNeed ≤ r.totalNeed.toNat
  greed : r.playerVote.count isGreed ≤ r.totalGreed.toNat
  pass : r.playerVote.count isPass ≤ r.totalPass.toNat
  players : r.totalPlayersRolling.toNat = r.playerVote.count isVoter
  valid : r.playerVote.count isVoter = voters r.playerVote
  size : voters r.playerVote ≤ maxRaidSize
  sum : r.totalNeed.toNat + r.totalGreed.toNat + r.totalPass.toNat ≤ maxRaidSize

/-! ### One roll -/

theorem hasOpen_iff {r : Roll} : HasOpen r ↔ 0 < r.playerVote.count isOpen := by
  rw [SortedMap.count, List.countP_pos_iff]
  simp [HasOpen, isOpen]

theorem Consistent.covered {r : Roll} (h : Consistent r) : Covered r where
  need := h.need.ge
  greed := h.greed.ge
  pass := h.pass.ge
  players := h.players
  valid := h.valid
  size := h.size
  sum := by
    have hsum := count_isVoter r.playerVote
    have hsize := h.size
    rw [h.need, h.greed, h.pass]
    have := h.valid
    omega

theorem isVoter_of_find {r : Roll} (h : Covered r) {player : ℕ} {v : RollVote}
    (hv : r.playerVote.find player = some v) : isVoter v = true := by
  have hall := h.valid
  rw [SortedMap.count, voters, SortedMap.count, List.countP_true, List.countP_eq_length] at hall
  exact hall _ (SortedMap.find_eq_some_mem hv)

/-- A tally of one kind still covers its votes when another vote is entered. -/
theorem covers_recordVote {m : SortedMap ℕ RollVote} {x : UInt8} {p : RollVote → Bool}
    (hx : m.count p ≤ x.toNat) (hle : x.toNat ≤ maxRaidSize) (player : ℕ) (v : RollVote) :
    (m.insert player v).count p ≤ (if p v then x + 1 else x).toNat := by
  have hcount := SortedMap.count_insert p m player v
  split_ifs with hv
  · rw [toNat_add_one rfl hle]
    rw [hv, Bool.toNat_true] at hcount
    omega
  · rw [Bool.not_eq_true] at hv
    rw [hv, Bool.toNat_false] at hcount
    omega

theorem covered_recordVote {r : Roll} (h : Covered r) {player : ℕ} {v old : RollVote}
    (hold : r.playerVote.find player = some old) (hv : isVoter v = true)
    (hnot : allVoted (recordVote r player v) = false) :
    Covered (recordVote r player v) := by
  have hsum := h.sum
  have hsize : voters (r.playerVote.insert player v) = voters r.playerVote := by
    have := SortedMap.count_insert (fun _ => true) r.playerVote player v
    rw [share_of_find hold] at this
    exact Nat.add_right_cancel this
  have hvoter : (r.playerVote.insert player v).count isVoter = r.playerVote.count isVoter := by
    have := SortedMap.count_insert isVoter r.playerVote player v
    rw [share_of_find hold, isVoter_of_find h hold, hv] at this
    exact Nat.add_right_cancel this
  -- no tally wraps, as a group has at most forty members
  have hplayers : (recordVote r player v).totalPlayersRolling.toNat ≤ maxRaidSize := by
    show r.totalPlayersRolling.toNat ≤ maxRaidSize
    rw [h.players, h.valid]
    exact h.size
  rw [allVoted, decide_eq_false_iff_not] at hnot
  exact
    { need := covers_recordVote h.need (by omega) player v
      greed := covers_recordVote h.greed (by omega) player v
      pass := covers_recordVote h.pass (by omega) player v
      players := h.players.trans hvoter.symm
      valid := hvoter.trans (h.valid.trans hsize.symm)
      size := hsize.trans_le h.size
      sum := by omega }

/-- A roll whose tallies do not reach the number of players waits for somebody. -/
theorem hasOpen_of_not_allVoted {r : Roll} (h : Covered r) (hnot : allVoted r = false) :
    HasOpen r := by
  have hsum := count_isVoter r.playerVote
  have hn := h.need
  have hg := h.greed
  have hp := h.pass
  have hpl := h.players
  rw [allVoted, decide_eq_false_iff_not] at hnot
  rw [hasOpen_iff]
  omega

section

variable {r : Roll} {v : RollVote} (guid : ℕ)

theorem totalNeed_dropVoter : (dropVoter r guid v).totalNeed =
    if isNeed v then r.totalNeed - 1 else r.totalNeed := by simp [dropVoter, isNeed]

theorem totalGreed_dropVoter : (dropVoter r guid v).totalGreed =
    if isGreed v then r.totalGreed - 1 else r.totalGreed := by simp [dropVoter, isGreed]

theorem totalPass_dropVoter : (dropVoter r guid v).totalPass =
    if isPass v then r.totalPass - 1 else r.totalPass := by simp [dropVoter, isPass]

theorem totalPlayersRolling_dropVoter : (dropVoter r guid v).totalPlayersRolling =
    if isVoter v then r.totalPlayersRolling - 1 else r.totalPlayersRolling := by
  simp [dropVoter, isVoter]

end

/-- A voter who leaves takes his entry with him. -/
theorem covered_dropVoter {r : Roll} (h : Covered r) {guid : ℕ} {v : RollVote}
    (hv : r.playerVote.find guid = some v) : Covered (dropVoter r guid v) := by
  have hcount := fun p => SortedMap.count_erase p r.playerVote guid
  simp only [share_of_find hv] at hcount
  -- a tally goes down with the vote it counted
  have htally : ∀ {p : RollVote → Bool} {x : UInt8}, r.playerVote.count p ≤ x.toNat →
      (r.playerVote.erase guid).count p ≤ (if p v then x - 1 else x).toNat ∧
        (if p v then x - 1 else x).toNat ≤ x.toNat := by
    intro p x hx
    have hp := hcount p
    split_ifs with hpv
    · rw [hpv, Bool.toNat_true] at hp
      rw [toNat_sub_one rfl (by omega)]
      omega
    · rw [Bool.not_eq_true] at hpv
      rw [hpv, Bool.toNat_false] at hp
      omega
  have hvoter := hcount isVoter
  have hall : voters (r.playerVote.erase guid) + 1 = voters r.playerVote := hcount fun _ => true
  have hvalid := h.valid
  have hplayers := h.players
  have hsize := h.size
  rw [isVoter_of_find h hv, Bool.toNat_true] at hvoter
  have hsum := h.sum
  obtain ⟨hneed, hneed'⟩ := htally h.need
  obtain ⟨hgreed, hgreed'⟩ := htally h.greed
  obtain ⟨hpass, hpass'⟩ := htally h.pass
  rw [← totalNeed_dropVoter guid] at hneed hneed'
  rw [← totalGreed_dropVoter guid] at hgreed hgreed'
  rw [← totalPass_dropVoter guid] at hpass hpass'
  exact
    { need := hneed
      greed := hgreed
      pass := hpass
      players := by
        rw [totalPlayersRolling_dropVoter, if_pos (isVoter_of_find h hv),
          toNat_sub_one rfl (by omega)]
        show _ = (r.playerVote.erase guid).count isVoter
        omega
      valid := by
        simp only [dropVoter]
        omega
      size := by
        simp only [dropVoter]
        omega
      sum := by omega }

/-! ### All rolls -/

/-- The invariant: the tallies cover the votes, and the rolls have item guids of their own. -/
structure Running (s : Rolls) : Prop where
  covered : ∀ r ∈ s.rollId, Covered r
  nodup : (s.rollId.map Roll.itemGUID).Nodup

section

variable {s : Rolls} {player guid : ℕ} {choice : UInt8} {urand : ℕ → ℕ → UInt8} {r : Roll}

theorem itemGUID_castVote : (castVote r player choice).itemGUID = r.itemGUID := by
  rw [castVote_eq]
  cases voteOf choice <;> rfl

theorem itemGUID_of_getRoll {rolls : List Roll} (h : getRoll rolls guid = some r) :
    r.itemGUID = guid ∧ r.isValid = true := by
  simpa using List.find?_some h

/-- The guids of the rolls stay when one is replaced by one with the same guid. -/
theorem map_itemGUID_replaceRoll {rolls : List Roll} (hr : r.itemGUID = guid) :
    (replaceRoll guid (some r) rolls).map Roll.itemGUID = rolls.map Roll.itemGUID := by
  induction rolls with
  | nil => rfl
  | cons x rolls ih =>
    rw [replaceRoll]
    split_ifs with hx
    · rw [Bool.and_eq_true, beq_iff_eq] at hx
      simp [hr, hx.1]
    · rw [List.map_cons, List.map_cons, ih]

theorem replaceRoll_none_sublist {rolls : List Roll} : (replaceRoll guid none rolls).Sublist rolls := by
  induction rolls with
  | nil => exact List.Sublist.refl _
  | cons x rolls ih =>
    rw [replaceRoll]
    split_ifs
    · exact List.sublist_cons_self x rolls
    · exact ih.cons_cons x

/-- The roll that a vote brings before the test, if the vote does not end it. -/
theorem covered_testedRoll (h : ∀ r ∈ s.rollId, Covered r)
    (hr : testedRoll s.rollId player guid choice = some r) (hnot : allVoted r = false) :
    Covered r ∧ r.itemGUID = guid := by
  obtain ⟨r₀, v, hget, hmem, -, hv, rfl⟩ := testedRoll_eq_some hr
  refine ⟨?_, itemGUID_castVote.trans (itemGUID_of_getRoll hget).1⟩
  rw [castVote_eq] at hnot ⊢
  rcases hvote : voteOf choice with _ | v'
  · exact h r₀ hmem
  · rw [hvote] at hnot
    exact covered_recordVote (h r₀ hmem) hv (voteOf_eq_some hvote).2 hnot

theorem countRollVote_cases (h : ∀ r ∈ s.rollId, Covered r) :
    (countRollVote urand s player guid choice).rollId.Sublist s.rollId ∨
      ∃ r, Covered r ∧ HasOpen r ∧ r.itemGUID = guid ∧
        (countRollVote urand s player guid choice).rollId =
          replaceRoll guid (some r) s.rollId := by
  unfold countRollVote
  rcases hr : testedRoll s.rollId player guid choice with _ | r
  · exact .inl (List.Sublist.refl _)
  dsimp only
  split_ifs with hall
  · exact .inl replaceRoll_none_sublist
  · rw [Bool.not_eq_true] at hall
    obtain ⟨hcov, hguid⟩ := covered_testedRoll h hr hall
    exact .inr ⟨r, hcov, hasOpen_of_not_allVoted hcov hall, hguid, rfl⟩

theorem covered_countRollVote (h : ∀ r ∈ s.rollId, Covered r) :
    ∀ r ∈ (countRollVote urand s player guid choice).rollId, Covered r := by
  intro r' hr'
  rcases countRollVote_cases h with hsub | ⟨r, hcov, -, -, heq⟩
  · exact h r' (hsub.subset hr')
  · rw [heq] at hr'
    rcases mem_replaceRoll hr' with hr | hr'
    · exact Option.some.inj hr ▸ hcov
    · exact h r' hr'

theorem running_countRollVote (h : Running s) :
    Running (countRollVote urand s player guid choice) := by
  refine ⟨covered_countRollVote h.covered, ?_⟩
  rcases countRollVote_cases h.covered with hsub | ⟨r, -, -, hguid, heq⟩
  · exact h.nodup.sublist (hsub.map _)
  · rw [heq, map_itemGUID_replaceRoll hguid]
    exact h.nodup

theorem allOpen_countRollVote (h : Running s) (hopen : AllOpen s) :
    AllOpen (countRollVote urand s player guid choice) := by
  intro r' hr'
  rcases countRollVote_cases h.covered with hsub | ⟨r, -, hr, -, heq⟩
  · exact hopen r' (hsub.subset hr')
  · rw [heq] at hr'
    rcases mem_replaceRoll hr' with heq' | hr'
    · exact Option.some.inj heq' ▸ hr
    · exact hopen r' hr'

/-! ### Leaving -/

/-- A roll after a member has left. -/
def withoutVoter (guid : ℕ) (r : Roll) : Roll :=
  match r.playerVote.find guid with
  | none => r
  | some v => dropVoter r guid v

theorem itemGUID_withoutVoter : (withoutVoter guid r).itemGUID = r.itemGUID := by
  unfold withoutVoter
  split <;> rfl

theorem covered_withoutVoter (h : Covered r) : Covered (withoutVoter guid r) := by
  unfold withoutVoter
  split
  · exact h
  · exact covered_dropVoter h ‹_›

theorem find_erase_self (m : SortedMap ℕ RollVote) (k : ℕ) : (m.erase k).find k = none := by
  rw [SortedMap.find, List.lookup_eq_none_iff]
  intro e he
  have hne := of_decide_eq_true (List.mem_filter.1 he).2
  simpa using Ne.symm hne

theorem countRollVote_left {rolls : List Roll} {ended : List Outcome} {i : ℕ} {v : RollVote}
    (hnodup : (rolls.map Roll.itemGUID).Nodup) (hi : rolls[i]? = some r) :
    countRollVote urand ⟨rolls.set i (dropVoter r guid v), ended⟩ guid r.itemGUID maxRollType =
      ⟨rolls.set i (dropVoter r guid v), ended⟩ := by
  have hnone : testedRoll (rolls.set i (dropVoter r guid v)) guid r.itemGUID maxRollType = none := by
    unfold testedRoll
    rcases hget : getRoll (rolls.set i (dropVoter r guid v)) r.itemGUID with _ | r'
    · rfl
    -- the roll that is found is the one that the leaver has just left
    have hr' : r' = dropVoter r guid v := by
      rcases List.mem_or_eq_of_mem_set (List.mem_of_find?_eq_some hget) with hmem | heq
      · have heq : r' = r := List.inj_on_of_nodup_map hnodup hmem (List.mem_of_getElem? hi)
          (itemGUID_of_getRoll hget).1
        subst heq
        obtain ⟨j, hj, hj'⟩ := List.getElem_of_mem (List.mem_of_find?_eq_some hget)
        rw [List.getElem_set] at hj'
        split_ifs at hj' with hij
        · exact hj'.symm
        · rw [List.length_set] at hj
          obtain ⟨hlt, hir⟩ := List.getElem?_eq_some_iff.1 hi
          exact absurd ((List.Nodup.getElem_inj_iff (List.Nodup.of_map _ hnodup)).1
            (hir.trans hj'.symm)) hij
      · exact heq
    subst hr'
    have hfind : (dropVoter r guid v).playerVote.find guid = none :=
      find_erase_self r.playerVote guid
    simp only [hfind]
  unfold countRollVote
  simp only [hnone]

theorem leaveRoll_eq {rolls : List Roll} {ended : List Outcome} {i : ℕ}
    (hnodup : (rolls.map Roll.itemGUID).Nodup) (hi : rolls[i]? = some r) :
    leaveRoll urand guid ⟨rolls, ended⟩ i = ⟨rolls.set i (withoutVoter guid r), ended⟩ := by
  unfold leaveRoll withoutVoter
  simp only [hi]
  rcases hv : r.playerVote.find guid with _ | v
  · obtain ⟨hlt, rfl⟩ := List.getElem?_eq_some_iff.1 hi
    simp
  · exact countRollVote_left hnodup hi

theorem leaveRolls_eq {rolls : List Roll} {ended : List Outcome}
    (hnodup : (rolls.map Roll.itemGUID).Nodup) {k : ℕ} (hk : k ≤ rolls.length) :
    (List.range k).foldl (leaveRoll urand guid) ⟨rolls, ended⟩ =
      ⟨(rolls.take k).map (withoutVoter guid) ++ rolls.drop k, ended⟩ := by
  induction k with
  | zero => simp
  | succ k ih =>
    have hlt : k < rolls.length := hk
    have hlen : ((rolls.take k).map (withoutVoter guid)).length = k := by
      rw [List.length_map, List.length_take]
      omega
    have hmap : (((rolls.take k).map (withoutVoter guid) ++ rolls.drop k).map Roll.itemGUID) =
        rolls.map Roll.itemGUID := by
      rw [List.map_append, List.map_map]
      have hcomp : Roll.itemGUID ∘ withoutVoter guid = Roll.itemGUID := by
        funext r
        exact itemGUID_withoutVoter
      rw [hcomp, ← List.map_append, List.take_append_drop]
    rw [List.range_succ, List.foldl_append, ih (by omega), List.foldl_cons, List.foldl_nil,
      @leaveRoll_eq guid urand rolls[k] _ _ _ (hmap ▸ hnodup) ?_]
    · rw [List.set_append_right _ _ (by omega), hlen, Nat.sub_self, List.drop_eq_getElem_cons hlt,
        List.set_cons_zero, List.take_succ_eq_append_getElem hlt, List.map_append, List.append_assoc]
      rfl
    · rw [List.getElem?_append_right (by omega), hlen, Nat.sub_self, List.getElem?_drop]
      simp [hlt]

theorem removeMember_eq (h : Running s) :
    removeMember urand s guid false = { s with rollId := s.rollId.map (withoutVoter guid) } := by
  have heq := @leaveRolls_eq guid urand s.rollId s.ended h.nodup s.rollId.length le_rfl
  rw [List.take_length, List.drop_length, List.append_nil] at heq
  exact heq

theorem hasOpen_withoutVoter_iff (h : HasOpen r) : HasOpen (withoutVoter guid r) ↔
    ((r.playerVote.find guid).isSome →
      ∃ e ∈ r.playerVote.entries, e.1 ≠ guid ∧ e.2 = .notEmitedYet) := by
  unfold withoutVoter
  rcases hv : r.playerVote.find guid with _ | v
  · exact iff_of_true h nofun
  · simp [HasOpen, dropVoter, SortedMap.erase, and_assoc]

end

/-! ### Runs -/

theorem running_rollStep {s : Rolls} {e : Event} (he : e.isVoteOrLeave) (h : Running s) :
    Running (rollStep s e) := by
  cases e with
  | vote player guid choice urand => exact running_countRollVote h
  | removeMember guid disband urand =>
    simp only [rollStep]
    cases disband with
    | true => exact ⟨fun r hr => absurd hr List.not_mem_nil, List.nodup_nil⟩
    | false =>
      rw [removeMember_eq h]
      refine ⟨fun r' hr' => ?_, ?_⟩
      · obtain ⟨r, hr, rfl⟩ := List.mem_map.1 hr'
        exact covered_withoutVoter (h.covered r hr)
      · have hcomp : Roll.itemGUID ∘ withoutVoter guid = Roll.itemGUID := by
          funext r
          exact itemGUID_withoutVoter
        show ((s.rollId.map (withoutVoter guid)).map Roll.itemGUID).Nodup
        rw [List.map_map, hcomp]
        exact h.nodup
  | _ => exact he.elim

/-- A vote leaves somebody outstanding in every roll; a leaver does if he is not the last one. -/
theorem allOpen_rollStep_iff {s : Rolls} {e : Event} (he : e.isVoteOrLeave) (h : Running s)
    (hopen : AllOpen s) : AllOpen (rollStep s e) ↔ LeavesOthers s e := by
  cases e with
  | vote player guid choice urand =>
    exact iff_of_true (allOpen_countRollVote h hopen) trivial
  | removeMember guid disband urand =>
    simp only [rollStep]
    cases disband with
    | true =>
      exact iff_of_true (fun r hr => absurd hr List.not_mem_nil) fun h => Bool.noConfusion h
    | false =>
      rw [removeMember_eq h]
      constructor
      · intro hall _ r hr
        exact (hasOpen_withoutVoter_iff (hopen r hr)).1 (hall _ (List.mem_map_of_mem hr))
      · intro hleaves r' hr'
        obtain ⟨r, hr, rfl⟩ := List.mem_map.1 hr'
        exact (hasOpen_withoutVoter_iff (hopen r hr)).2 (hleaves rfl r hr)
  | _ => exact he.elim

theorem covered_leaveRoll {s : Rolls} {guid : ℕ} {urand : ℕ → ℕ → UInt8}
    (h : ∀ r ∈ s.rollId, Covered r) (i : ℕ) : ∀ r ∈ (leaveRoll urand guid s i).rollId, Covered r := by
  unfold leaveRoll
  rcases hi : s.rollId[i]? with _ | r
  · exact h
  dsimp only
  rcases hv : r.playerVote.find guid with _ | v
  · exact h
  refine covered_countRollVote fun r' hr' => ?_
  rcases List.mem_or_eq_of_mem_set hr' with hr' | rfl
  · exact h r' hr'
  · exact covered_dropVoter (h r (List.mem_of_getElem? hi)) hv

theorem covered_rollStep {s : Rolls} (h : ∀ r ∈ s.rollId, Covered r) (e : Event) :
    ∀ r ∈ (rollStep s e).rollId, Covered r := by
  cases e with
  | groupLoot threshold loot members items questItems =>
    intro r hr
    exact (List.mem_append.1 hr).elim (h r) fun hr => (consistent_groupLoot hr).covered
  | needBeforeGreed threshold loot members items questItems =>
    simp only [rollStep]
    rcases hrs : needBeforeGreed threshold loot members items questItems with _ | rs
    · exact h
    · intro r hr
      exact (List.mem_append.1 hr).elim (h r) fun hr => (consistent_needBeforeGreed hrs hr).covered
  | vote player guid choice urand => exact covered_countRollVote h
  | removeMember guid disband urand =>
    simp only [rollStep, removeMember]
    split_ifs
    · exact fun r hr => absurd hr List.not_mem_nil
    · exact List.foldlRecOn (motive := fun s : Rolls => ∀ r ∈ s.rollId, Covered r) _ _ h
        fun s hs i _ => covered_leaveRoll hs i
  | endRoll loot urand => exact fun r hr => h r (List.mem_of_mem_filter hr)
  | lootDeleted loot =>
    intro r' hr'
    obtain ⟨r, hr, rfl⟩ := List.mem_map.1 hr'
    have hc := h r hr
    split_ifs
    · exact ⟨hc.need, hc.greed, hc.pass, hc.players, hc.valid, hc.size, hc.sum⟩
    · exact hc

/-- **Main result.** From any running rolls of a group that all wait for somebody, along votes and
members who leave, every roll keeps waiting for somebody exactly when no leaver is the last
outstanding voter of a roll. -/
theorem rolls_keep_open_iff (earlier events : List Event)
    (hguid : ((earlier.foldl rollStep ⟨[], []⟩).rollId.map Roll.itemGUID).Nodup)
    (hopen : AllOpen (earlier.foldl rollStep ⟨[], []⟩)) (hev : ∀ e ∈ events, e.isVoteOrLeave) :
    Runs.Along rollStep AllOpen (earlier.foldl rollStep ⟨[], []⟩) events ↔
      Runs.EachStep rollStep LeavesOthers (earlier.foldl rollStep ⟨[], []⟩) events := by
  have hcov : ∀ r ∈ (earlier.foldl rollStep ⟨[], []⟩).rollId, Covered r :=
    List.foldlRecOn (motive := fun s : Rolls => ∀ r ∈ s.rollId, Covered r) _ _
      (fun r hr => absurd hr List.not_mem_nil) fun s hs e _ => covered_rollStep hs e
  refine Runs.along_iff_eachStep_of_mem (I := Running) hev ⟨hcov, hguid⟩ hopen ?_ ?_
  · exact fun s e he h _ _ => running_rollStep he h
  · exact fun s e he h hopen => allOpen_rollStep_iff he h hopen

/-- A roll of two of the members of a group. -/
def pairRoll : List Event :=
  [.groupLoot 2 ⟨0, false⟩ sampleMembers [⟨false, false, some 3, fun _ => true, 10⟩] []]

instance (r : Roll) : Decidable (HasOpen r) := by
  unfold HasOpen
  infer_instance

instance (s : Rolls) : Decidable (AllOpen s) := by
  unfold AllOpen
  infer_instance

/-- The first player votes, and the roll waits for the second one. -/
theorem rolls_keep_open_vote :
    Runs.Along rollStep AllOpen (pairRoll.foldl rollStep ⟨[], []⟩) [.vote 1 10 1 fun _ => 1] := by
  refine (rolls_keep_open_iff pairRoll [.vote 1 10 1 fun _ => 1] (by decide) (by decide) ?_).2 ?_
  · intro e he
    rw [List.mem_singleton.1 he]
    trivial
  · exact Runs.eachStep_cons.2 ⟨trivial, Runs.EachStep.nil _⟩

/-- The first player votes and the second one leaves the group: the roll stays and waits for
nobody. -/
theorem roll_hangs_on_leaver :
    AllOpen (pairRoll.foldl rollStep ⟨[], []⟩) ∧
      ¬ Runs.Along rollStep AllOpen (pairRoll.foldl rollStep ⟨[], []⟩)
        [.vote 1 10 1 fun _ => 1, .removeMember 2 false fun _ => 1] := by
  refine ⟨by decide, fun h => ?_⟩
  have hlast := h _ (List.prefix_refl _)
  revert hlast
  decide

end FaceCore.LootRoll
