import FaceCore.Group.Leavers

/-!
# The winner of a roll

Who is given the item when `CountTheRoll` runs. The winner starts as the first player of the map of
votes and is looked for among the votes that a positive tally promises. A vote that is cast again
leaves its old tally behind, so a positive `totalNeed` may promise a vote that nobody has any more,
and the item then goes to the first player of the map.

* `award`: the player who is given the item, and his number;
* `counted`, `ended_rollStep`: the rolls on which an event runs `CountTheRoll`;
* `WinnerRight`: the winner voted for the item with the highest number of his kind of vote;
* `rollWinners_iff`: along every run this holds of all counted rolls exactly when `totalNeed` is
  backed by a vote wherever the first player could be given the item.
-/

namespace FaceCore.LootRoll

/-! ### What the winner is given -/

/-- The players as `CountTheRoll` meets them. -/
structure Receivers where
  /-- `FindPlayer` finds the player, with a session. -/
  hasSession : ℕ → Bool
  /-- `CanStoreNewItem` finds space for the item of the roll. -/
  canStore : Roll → ℕ → Bool

/-- The item of the roll can be given to a player. -/
def Receivers.takes (w : Receivers) (r : Roll) (guid : ℕ) : Bool :=
  w.hasSession guid && w.canStore r guid

/-- The end of `CountTheRoll`: the player who is given the item, or what it is disenchanted into,
and his number. -/
def award (w : Receivers) (r : Roll) : Outcome → Option (ℕ × UInt8)
  | .won guid number .need => if w.takes r guid then some (guid, number) else none
  | .won guid number .greed => if w.takes r guid then some (guid, number) else none
  | .won guid number .disenchant => if w.hasSession guid then some (guid, number) else none
  | _ => none

/-! ### The rolls that are counted -/

section

variable (urand : ℕ → ℕ → UInt8) (s : Rolls) (player guid : ℕ)

/-- The roll that a call of `CountRollVote` counts. -/
def countedByVote (choice : UInt8) : Option Roll :=
  (testedRoll s.rollId player guid choice).filter allVoted

/-- The roll that the body of the loop in `RemoveMember` counts. -/
def countedByLeave (i : ℕ) : Option Roll :=
  match s.rollId[i]? with
  | none => none
  | some r =>
    match r.playerVote.find guid with
    | none => none
    | some v =>
      countedByVote { s with rollId := s.rollId.set i (dropVoter r guid v) } guid r.itemGUID
        maxRollType

/-- The rolls that the loop counts. -/
def countedByLeaves : Rolls → List ℕ → List Roll
  | _, [] => []
  | s, i :: is =>
    (countedByLeave s guid i).toList ++ countedByLeaves (leaveRoll urand guid s i) is

end

/-- The rolls on which an event runs `CountTheRoll`, in this order. -/
def counted (s : Rolls) : Event → List Roll
  | .vote player guid choice _ => (countedByVote s player guid choice).toList
  | .removeMember guid disband urand =>
    if disband then [] else countedByLeaves urand guid s (List.range s.rollId.length)
  | .endRoll loot _ => s.rollId.filter fun r => r.isValid && r.loot.id == loot
  | _ => []

/-- The numbers that are drawn in an event, for each roll. -/
def Event.urand : Event → ℕ → ℕ → UInt8
  | .vote _ _ _ urand => urand
  | .removeMember _ _ urand => urand
  | .endRoll _ urand => urand
  | _ => fun _ _ => 1

/-! ### What is required and when it holds -/

/-- The votes that decide: those for need, and without any those for greed. -/
def decides (r : Roll) : RollVote → Bool :=
  if r.playerVote.entries.any fun e => isNeed e.2 then isNeed else isGreed

/-- The player who is given the item voted for it, and his number is the highest one of the votes
that decide; the item is given to nobody when all pass. -/
structure WinnerRight (urand : ℕ → UInt8) (r : Roll) (a : Option (ℕ × UInt8)) : Prop where
  voted : ∀ guid number, a = some (guid, number) → ∃ v, r.playerVote.find guid = some v ∧
    decides r v = true ∧ number = urand guid ∧
      ∀ e ∈ r.playerVote.entries, decides r e.2 = true → urand e.1 ≤ number
  passed : (∀ e ∈ r.playerVote.entries, e.2 = .pass) → a = none

/-- A positive `totalNeed` is backed by a vote, unless the loot is gone or the first player of the
map could not be given the item. -/
def NeedBacked (w : Receivers) (r : Roll) : Prop :=
  r.isValid = true → 0 < r.totalNeed → ∀ e, r.playerVote.entries.head? = some e →
    w.takes r e.1 = true → ∃ e' ∈ r.playerVote.entries, e'.2 = .need

/-- An event with the players it meets; the numbers are those of `urand(1, 100)`. -/
structure Turn where
  event : Event
  receivers : Receivers
  drawn : ∀ guid k, 1 ≤ event.urand guid k ∧ event.urand guid k ≤ 100

/-- The event of a turn. -/
def turnStep (s : Rolls) (t : Turn) : Rolls := rollStep s t.event

/-- The winners of a turn are right. -/
def WinnersRight (s : Rolls) (t : Turn) : Prop :=
  ∀ r ∈ counted s t.event,
    WinnerRight (t.event.urand r.itemGUID) r
      (award t.receivers r (countTheRoll (t.event.urand r.itemGUID) r))

/-- The tallies for need of a turn are backed. -/
def NeedsBacked (s : Rolls) (t : Turn) : Prop := ∀ r ∈ counted s t.event, NeedBacked t.receivers r

/-! ### The counted rolls are those that end -/

section

variable {urand : ℕ → ℕ → UInt8} {s : Rolls} {player guid : ℕ} {choice : UInt8} {r : Roll}

theorem ended_countRollVote : (countRollVote urand s player guid choice).ended =
    s.ended ++ (countedByVote s player guid choice).toList.map fun r =>
      countTheRoll (urand r.itemGUID) r := by
  unfold countRollVote countedByVote
  cases testedRoll s.rollId player guid choice with
  | none => exact (List.append_nil _).symm
  | some r =>
    by_cases hall : allVoted r = true
    · simp [hall, Option.filter]
    · simp [hall, Option.filter]

theorem ended_leaveRoll (i : ℕ) : (leaveRoll urand guid s i).ended =
    s.ended ++ (countedByLeave s guid i).toList.map fun r =>
      countTheRoll (urand r.itemGUID) r := by
  unfold leaveRoll countedByLeave
  cases s.rollId[i]? with
  | none => exact (List.append_nil _).symm
  | some r =>
    dsimp only
    cases r.playerVote.find guid with
    | none => exact (List.append_nil _).symm
    | some v => exact ended_countRollVote

theorem ended_leaveRolls (is : List ℕ) : (is.foldl (leaveRoll urand guid) s).ended =
    s.ended ++ (countedByLeaves urand guid s is).map fun r =>
      countTheRoll (urand r.itemGUID) r := by
  induction is generalizing s with
  | nil => exact (List.append_nil _).symm
  | cons i is ih =>
    rw [List.foldl_cons, ih, ended_leaveRoll, countedByLeaves, List.map_append, List.append_assoc]

/-- The outcomes that an event adds are those of the rolls it counts. -/
theorem ended_rollStep (e : Event) :
    (rollStep s e).ended = s.ended ++ (counted s e).map fun r =>
      countTheRoll (e.urand r.itemGUID) r := by
  cases e with
  | groupLoot threshold loot members items questItems => exact (List.append_nil _).symm
  | needBeforeGreed threshold loot members items questItems =>
    simp only [rollStep]
    cases needBeforeGreed threshold loot members items questItems <;>
      exact (List.append_nil _).symm
  | vote player guid choice urand => exact ended_countRollVote
  | removeMember guid disband urand =>
    cases disband with
    | true => exact (List.append_nil _).symm
    | false => exact ended_leaveRolls _
  | endRoll loot urand => rfl
  | lootDeleted loot => exact (List.append_nil _).symm

/-! ### The tally for need of a counted roll -/

/-- The tally for need is at least the number of votes for need. -/
def NeedCovered (r : Roll) : Prop := r.playerVote.count isNeed ≤ r.totalNeed.toNat

theorem needCovered_countedByVote (h : ∀ r ∈ s.rollId, Covered r)
    (hr : r ∈ countedByVote s player guid choice) : NeedCovered r := by
  obtain ⟨r₀, v, -, hmem, -, -, rfl⟩ := testedRoll_eq_some (Option.filter_eq_some_iff.1 hr).1
  have hc := h r₀ hmem
  rw [castVote_eq]
  cases voteOf choice with
  | none => exact hc.need
  | some v' =>
    have hsum := hc.sum
    exact covers_recordVote hc.need (by omega) player v'

theorem needCovered_countedByLeave (h : ∀ r ∈ s.rollId, Covered r) {i : ℕ}
    (hr : r ∈ countedByLeave s guid i) : NeedCovered r := by
  unfold countedByLeave at hr
  cases hi : s.rollId[i]? with
  | none => simp [hi] at hr
  | some r₀ =>
    cases hv : r₀.playerVote.find guid with
    | none => simp [hi, hv] at hr
    | some v =>
      simp only [hi, hv] at hr
      refine needCovered_countedByVote (fun r' hr' => ?_) hr
      rcases List.mem_or_eq_of_mem_set hr' with hr' | rfl
      · exact h r' hr'
      · exact covered_dropVoter (h r₀ (List.mem_of_getElem? hi)) hv

theorem needCovered_countedByLeaves (h : ∀ r ∈ s.rollId, Covered r) {is : List ℕ}
    (hr : r ∈ countedByLeaves urand guid s is) : NeedCovered r := by
  induction is generalizing s with
  | nil => cases hr
  | cons i is ih =>
    rcases List.mem_append.1 hr with hr | hr
    · exact needCovered_countedByLeave h (Option.mem_toList.1 hr)
    · exact ih (covered_leaveRoll h i) hr

theorem needCovered_counted (h : ∀ r ∈ s.rollId, Covered r) {e : Event} (hr : r ∈ counted s e) :
    NeedCovered r := by
  cases e with
  | vote player guid choice urand => exact needCovered_countedByVote h (Option.mem_toList.1 hr)
  | removeMember guid disband urand =>
    cases disband with
    | true => cases hr
    | false => exact needCovered_countedByLeaves h hr
  | endRoll loot urand => exact (h r (List.mem_of_mem_filter hr)).need
  | _ => cases hr

end

/-! ### The draw -/

section

variable {p : RollVote → Bool} {urand : ℕ → UInt8} {es : List (ℕ × RollVote)}
  {best : ℕ × UInt8 × RollVote}

theorem drawWinner_cons (e : ℕ × RollVote) : drawWinner p urand (e :: es) best =
    drawWinner p urand es
      (if p e.2 && best.2.1 < urand e.1 then (e.1, urand e.1, e.2) else best) := rfl

theorem drawWinner_of_none (h : ∀ e ∈ es, p e.2 = false) : drawWinner p urand es best = best := by
  induction es with
  | nil => rfl
  | cons e es ih =>
    rw [drawWinner_cons, h e List.mem_cons_self, Bool.false_and, if_neg Bool.false_ne_true]
    exact ih fun e' he' => h e' (List.mem_cons_of_mem e he')

/-- The number at the end is that of the winner, unless nobody has beaten the start. -/
theorem drawWinner_number : drawWinner p urand es best = best ∨
    (drawWinner p urand es best).2.1 = urand (drawWinner p urand es best).1 := by
  induction es generalizing best with
  | nil => exact Or.inl rfl
  | cons e es ih =>
    rw [drawWinner_cons]
    split_ifs with hc
    · rcases @ih (e.1, urand e.1, e.2) with hw | hw
      · rw [hw]
        exact Or.inr rfl
      · exact Or.inr hw
    · exact ih

/-- ... and no number that takes part is higher. -/
theorem drawWinner_max : best.2.1 ≤ (drawWinner p urand es best).2.1 ∧
    ∀ e ∈ es, p e.2 = true → urand e.1 ≤ (drawWinner p urand es best).2.1 := by
  induction es generalizing best with
  | nil => exact ⟨UInt8.le_refl _, nofun⟩
  | cons e es ih =>
    rw [drawWinner_cons]
    obtain ⟨hbest, hes⟩ := @ih (if p e.2 && best.2.1 < urand e.1 then (e.1, urand e.1, e.2) else best)
    split_ifs at hbest hes ⊢ with hc
    · rw [Bool.and_eq_true, decide_eq_true_eq] at hc
      refine ⟨UInt8.le_trans (UInt8.le_of_lt hc.2) hbest, fun e' he' hp => ?_⟩
      rcases List.mem_cons.1 he' with rfl | he'
      · exact hbest
      · exact hes e' he' hp
    · refine ⟨hbest, fun e' he' hp => ?_⟩
      rcases List.mem_cons.1 he' with rfl | he'
      · rw [hp, Bool.true_and, decide_eq_true_eq] at hc
        exact UInt8.le_trans (UInt8.not_lt.1 hc) hbest
      · exact hes e' he' hp

/-- A draw in which a vote takes part is won by one, with the highest number. -/
theorem drawWinner_spec (hpos : ∀ k, 1 ≤ urand k) (hex : ∃ e ∈ es, p e.2 = true) (k : ℕ) :
    let w := drawWinner p urand es (k, 0, .notValid)
    (w.1, w.2.2) ∈ es ∧ p w.2.2 = true ∧ w.2.1 = urand w.1 ∧
      ∀ e ∈ es, p e.2 = true → urand e.1 ≤ w.2.1 := by
  intro w
  have hmax : ∀ e ∈ es, p e.2 = true → urand e.1 ≤ w.2.1 := drawWinner_max.2
  have hne : w ≠ (k, 0, .notValid) := by
    obtain ⟨e, he, hp⟩ := hex
    intro hw
    have hle := UInt8.le_trans (hpos e.1) (hmax e he hp)
    rw [hw] at hle
    exact absurd hle (show ¬ (1 : UInt8) ≤ 0 by decide)
  have hmem := (drawWinner_mem (fun j => UInt8.lt_of_lt_of_le (by decide) (hpos j)) es
    (k, 0, RollVote.notValid)).resolve_left fun h => hne h.1
  exact ⟨hmem.1, hmem.2, drawWinner_number.resolve_left hne, hmax⟩

end

/-! ### One roll -/

section

variable {w : Receivers} {urand : ℕ → UInt8} {r : Roll} {e₀ : ℕ × RollVote}
  {es : List (ℕ × RollVote)}

theorem winnerRight_none : WinnerRight urand r none := ⟨nofun, fun _ => rfl⟩

theorem award_won {guid g : ℕ} {number n : UInt8} {v : RollVote}
    (h : award w r (.won guid number v) = some (g, n)) : g = guid ∧ n = number := by
  cases v <;> simp only [award, reduceCtorEq] at h <;> split_ifs at h <;>
    exact Prod.mk.inj (Option.some.inj h.symm)

theorem decides_need (h : ∃ e ∈ r.playerVote.entries, isNeed e.2 = true) : decides r = isNeed :=
  if_pos (List.any_eq_true.2 h)

theorem decides_greed (h : ∀ e ∈ r.playerVote.entries, isNeed e.2 = false) :
    decides r = isGreed := by
  refine if_neg ?_
  rw [Bool.not_eq_true, List.any_eq_false]
  exact fun e he => Bool.eq_false_iff.1 (h e he)

/-- The winner of a draw of the votes that decide is right, whatever his vote is called. -/
theorem winnerRight_drawn {p : RollVote → Bool} {v : RollVote} {k : ℕ} (hpos : ∀ k, 1 ≤ urand k)
    (hp : decides r = p) (hpass : p .pass = false)
    (hex : ∃ e ∈ r.playerVote.entries, p e.2 = true) :
    WinnerRight urand r
      (award w r (.won (drawWinner p urand r.playerVote.entries (k, 0, .notValid)).1
        (drawWinner p urand r.playerVote.entries (k, 0, .notValid)).2.1 v)) := by
  obtain ⟨hmem, hv, hnumber, hmax⟩ := drawWinner_spec hpos hex k
  refine ⟨fun g n ha => ?_, fun hall => ?_⟩
  · obtain ⟨rfl, rfl⟩ := award_won ha
    exact ⟨_, SortedMap.find_of_mem hmem, hp ▸ hv, hnumber, hp ▸ hmax⟩
  · obtain ⟨e, he, hpe⟩ := hex
    rw [hall e he, hpass] at hpe
    cases hpe

theorem winnerRight_iff (hpos : ∀ k, 1 ≤ urand k) (hneed : NeedCovered r) :
    WinnerRight urand r (award w r (countTheRoll urand r)) ↔ NeedBacked w r := by
  have hneeds : ∀ e : ℕ × RollVote, isNeed e.2 = true ↔ e.2 = .need := fun e => decide_eq_true_iff
  unfold countTheRoll
  by_cases hvalid : r.isValid = true
  · by_cases htotal : 0 < r.totalNeed
    · cases hes : r.playerVote.entries with
      | nil =>
        simp only [hvalid, Bool.not_true, Bool.false_eq_true, if_false, htotal, if_true]
        exact iff_of_true winnerRight_none fun _ _ e he => by simp [hes] at he
      | cons e₀ es =>
        simp only [hvalid, Bool.not_true, Bool.false_eq_true, if_false, htotal, if_true, gt_iff_lt,
          ← hes]
        by_cases hex : ∃ e ∈ r.playerVote.entries, isNeed e.2 = true
        · refine iff_of_true (winnerRight_drawn hpos (decides_need hex) rfl hex) ?_
          obtain ⟨e, he, hv⟩ := hex
          exact fun _ _ _ _ _ => ⟨e, he, (hneeds e).1 hv⟩
        · -- the draw ends with the first player and the number 0
          have hno : ∀ e ∈ r.playerVote.entries, isNeed e.2 = false := fun e he =>
            Bool.eq_false_iff.2 fun hv => hex ⟨e, he, hv⟩
          rw [drawWinner_of_none hno]
          constructor
          · intro hright _ _ e he htakes
            obtain rfl : e₀ = e := by simpa [hes] using he
            obtain ⟨v, -, -, hnumber, -⟩ := hright.voted e₀.1 0 (if_pos htakes)
            have hle := hpos e₀.1
            rw [← hnumber] at hle
            exact absurd hle (by decide)
          · intro hbacked
            have hnot : w.takes r e₀.1 ≠ true := by
              intro htakes
              obtain ⟨e, he, hv⟩ := hbacked hvalid htotal e₀ (by rw [hes]; rfl) htakes
              exact hex ⟨e, he, (hneeds e).2 hv⟩
            simp only [award, if_neg hnot]
            exact winnerRight_none
    · have hno : ∀ e ∈ r.playerVote.entries, isNeed e.2 = false := by
        rw [UInt8.not_lt] at htotal
        have hzero : r.totalNeed.toNat = 0 := Nat.le_zero.1 (UInt8.le_iff_toNat_le.1 htotal)
        have hcount : r.playerVote.count isNeed = 0 := Nat.le_zero.1 (hzero ▸ hneed)
        exact fun e he => Bool.eq_false_iff.2 (List.countP_eq_zero.1 hcount e he)
      refine iff_of_true ?_ fun _ hlt => absurd hlt htotal
      simp only [hvalid, Bool.not_true, Bool.false_eq_true, if_false, htotal, gt_iff_lt]
      split_ifs
      · cases hes : r.playerVote.entries with
        | nil => exact winnerRight_none
        | cons e₀ es =>
          simp only [← hes]
          by_cases hex : ∃ e ∈ r.playerVote.entries, isGreed e.2 = true
          · exact winnerRight_drawn hpos (decides_greed hno) rfl hex
          · -- the winner has the vote `NOT_VALID`, for which nothing is given
            rw [drawWinner_of_none fun e he => Bool.eq_false_iff.2 fun hv => hex ⟨e, he, hv⟩]
            exact winnerRight_none
      · exact winnerRight_none
  · simp only [hvalid, Bool.not_false, if_true]
    exact iff_of_true winnerRight_none fun h => absurd h hvalid

end

/-! ### Runs -/

/-- **Main result.** From a group without rolls, along every sequence of events, the winners of all
rolls that are counted are right exactly when their tallies for need are backed. -/
theorem rollWinners_iff (ended : List Outcome) (ts : List Turn) :
    Runs.EachStep turnStep WinnersRight ⟨[], ended⟩ ts ↔
      Runs.EachStep turnStep NeedsBacked ⟨[], ended⟩ ts := by
  refine Runs.eachStep_iff (I := fun s => ∀ r ∈ s.rollId, Covered r)
    (fun r hr => absurd hr List.not_mem_nil) (fun s t h _ => covered_rollStep h t.event) ?_
  intro s t h
  exact forall₂_congr fun r hr => winnerRight_iff (fun k => (t.drawn _ k).1) (needCovered_counted h hr)

/-- Three members without automatic pass. -/
def threeMembers : Members :=
  ⟨[⟨1, true, true, false⟩, ⟨2, true, true, false⟩, ⟨3, true, true, false⟩], by decide, by decide⟩

/-- A turn in which everybody draws 50 and has space for the item. -/
def evenTurn (event : Event) (h : event.urand = (fun _ _ => 1) ∨ event.urand = fun _ _ => 50) :
    Turn where
  event := event
  receivers := ⟨fun _ => true, fun _ _ => true⟩
  drawn := by
    intro _ k
    rcases h with h | h
    all_goals
      rw [h]
      dsimp only
      decide

/-- The first player votes for need, the second one passes and the third one leaves; then the first
player passes, too. -/
def needThenPass : List Turn :=
  [evenTurn (.groupLoot 2 ⟨0, false⟩ threeMembers [⟨false, false, some 3, fun _ => true, 10⟩] [])
      (Or.inl rfl),
    evenTurn (.vote 1 10 1 fun _ _ => 50) (Or.inr rfl),
    evenTurn (.vote 2 10 0 fun _ _ => 50) (Or.inr rfl),
    evenTurn (.removeMember 3 false fun _ _ => 50) (Or.inr rfl),
    evenTurn (.vote 1 10 0 fun _ _ => 50) (Or.inr rfl)]

/-- Every recorded vote is a pass, and the first player is given the item. -/
theorem pass_wins_roll : ¬ Runs.EachStep turnStep WinnersRight ⟨[], []⟩ needThenPass := by
  intro h
  have hlast := h (needThenPass.take 4) _ (List.prefix_refl needThenPass)
  have hgiven := (hlast _ (List.mem_singleton.2 rfl)).passed (by decide)
  exact absurd hgiven (by decide)

end FaceCore.LootRoll
