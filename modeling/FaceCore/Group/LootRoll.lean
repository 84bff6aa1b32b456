import FaceCore.Lib.Runs
import FaceCore.Lib.FixedWidth
import FaceCore.Lib.SortedMap

/-!
# Loot rolls of a group

The rolls of `Group`: `GroupLoot` and `NeedBeforeGreed` start them, `CountRollVote` enters a vote,
`RemoveMember` takes a voter out, `EndRoll` and `CountTheRoll` end them. A `Roll` keeps the vote of
every player in a map and, beside it, three tallies and the number of players.

* `Tallied`: the tallies agree with the map;
* `FirstVote`: a vote is the first one of its player;
* `lootRoll_tallied_iff`: the tallies agree with the map along a run exactly when every vote that
  is entered is the first one of its player.
-/

namespace FaceCore.LootRoll

/-- `RollVote`. -/
inductive RollVote
  | pass
  | need
  | greed
  | disenchant
  | notEmitedYet
  | notValid
  deriving DecidableEq

/-- `MAX_ROLL_TYPE`. -/
def maxRollType : UInt8 := 4

/-- `MAXRAIDSIZE`. -/
def maxRaidSize : ℕ := 40

/-- The loot that a roll belongs to; it may hold quest items only. -/
structure Loot where
  id : ℕ
  itemsEmpty : Bool
  deriving DecidableEq

/-- `Roll`. -/
structure Roll where
  itemGUID : ℕ
  loot : Loot
  /-- The loot is not deleted yet. -/
  isValid : Bool
  playerVote : SortedMap ℕ RollVote
  totalPlayersRolling : UInt8
  totalNeed : UInt8
  totalGreed : UInt8
  totalPass : UInt8

/-- `Roll::Roll`, with the loot that `setLoot` links. -/
def Roll.new (itemGUID : ℕ) (loot : Loot) : Roll :=
  ⟨itemGUID, loot, true, SortedMap.empty, 0, 0, 0, 0⟩

/-! ### The start of a roll -/

/-- A member of the group who is online. -/
structure Member where
  guid : ℕ
  hasSession : Bool
  /-- `IsWithinDistInMap`. -/
  isNear : Bool
  /-- `GetPassOnGroupLoot`. -/
  passOnGroupLoot : Bool

/-- The members of a group. -/
structure Members where
  list : List Member
  nodup : (list.map Member.guid).Nodup
  size : list.length ≤ maxRaidSize

/-- An item of the loot, with the guid that a roll for it gets. -/
structure LootItem where
  freeforall : Bool
  followLootRules : Bool
  /-- `ItemTemplate::Quality`, when the item has a template. -/
  quality : Option ℕ
  allowedForPlayer : ℕ → Bool
  newItemGUID : ℕ

/-- The body of the loop over the members. Only the rolls for ordinary items know the automatic
pass. -/
def enterMember (item : LootItem) (autoPass : Bool) (r : Roll) (m : Member) : Roll :=
  if m.hasSession && item.allowedForPlayer m.guid && m.isNear then
    if autoPass && m.passOnGroupLoot then
      { r with
        totalPlayersRolling := r.totalPlayersRolling + 1
        playerVote := r.playerVote.insert m.guid .pass
        totalPass := r.totalPass + 1 }
    else
      { r with
        totalPlayersRolling := r.totalPlayersRolling + 1
        playerVote := r.playerVote.insert m.guid .notEmitedYet }
  else r

/-- A roll for `item`, if anybody may take part. -/
def startRoll (loot : Loot) (members : Members) (autoPass : Bool) (item : LootItem) :
    Option Roll :=
  let r := members.list.foldl (enterMember item autoPass) (Roll.new item.newItemGUID loot)
  if r.totalPlayersRolling > 0 then some r else none

/-- The loop over the ordinary items, for those that have a template: a roll for every item over
the threshold that is one player's loot. -/
def itemRolls (threshold : ℕ) (loot : Loot) (members : Members) (items : List LootItem) :
    List Roll :=
  items.filterMap fun i =>
    match i.quality with
    | none => none
    | some q => if !i.freeforall && threshold ≤ q then startRoll loot members true i else none

/-- `Group::GroupLoot`: the rolls that it starts. -/
def groupLoot (threshold : ℕ) (loot : Loot) (members : Members) (items questItems : List LootItem) :
    List Roll :=
  itemRolls threshold loot members items ++ questItems.filterMap fun i =>
    if i.followLootRules && i.quality.isSome then startRoll loot members false i else none

/-- `Group::NeedBeforeGreed`: the rolls that it starts. It reads the quality of an item without
looking whether there is a template; `none` is the access through the null pointer. -/
def needBeforeGreed (threshold : ℕ) (loot : Loot) (members : Members)
    (items questItems : List LootItem) : Option (List Roll) :=
  if items.any fun i => !i.freeforall && i.quality.isNone then none
  else
    some (itemRolls threshold loot members items ++ questItems.filterMap fun i =>
      if i.followLootRules then startRoll loot members false i else none)

/-! ### The end of a roll -/

/-- How a roll ends. -/
inductive Outcome
  | lootDeleted
  | nobody
  | won (guid : ℕ) (number : UInt8) (vote : RollVote)
  | allPassed

/-- The loop that draws a number for every vote `p` and keeps the first highest one. -/
def drawWinner (p : RollVote → Bool) (urand : ℕ → UInt8) (entries : List (ℕ × RollVote))
    (best : ℕ × UInt8 × RollVote) : ℕ × UInt8 × RollVote :=
  entries.foldl
    (fun best e => if p e.2 && best.2.1 < urand e.1 then (e.1, urand e.1, e.2) else best) best

/-- The tallied vote for need, and the two votes that `totalGreed` tallies. -/
def isNeed (v : RollVote) : Bool := v = .need
def isGreed (v : RollVote) : Bool := v = .greed || v = .disenchant
def isPass (v : RollVote) : Bool := v = .pass
def isOpen (v : RollVote) : Bool := v = .notEmitedYet

/-- `Group::CountTheRoll`; `urand` gives the number of each player. -/
def countTheRoll (urand : ℕ → UInt8) (r : Roll) : Outcome :=
  if !r.isValid then .lootDeleted
  else if r.totalNeed > 0 then
    match r.playerVote.entries with
    | [] => .nobody
    | e :: es =>
      let best := drawWinner isNeed urand (e :: es) (e.1, 0, .notValid)
      .won best.1 best.2.1 .need
  else if r.totalGreed > 0 then
    match r.playerVote.entries with
    | [] => .nobody
    | e :: es =>
      let best := drawWinner isGreed urand (e :: es) (e.1, 0, .notValid)
      .won best.1 best.2.1 best.2.2
  else .allPassed

/-! ### Votes -/

/-- The rolls of a group, and how its earlier rolls ended. -/
structure Rolls where
  rollId : List Roll
  ended : List Outcome

/-- `Group::GetRoll`. -/
def getRoll (rolls : List Roll) (guid : ℕ) : Option Roll :=
  rolls.find? fun r => r.itemGUID == guid && r.isValid

/-- Put another roll, or none, in the place of the one that `getRoll` finds. -/
def replaceRoll (guid : ℕ) (new : Option Roll) : List Roll → List Roll
  | [] => []
  | r :: rs =>
    if r.itemGUID == guid && r.isValid then new.toList ++ rs else r :: replaceRoll guid new rs

/-- The switch of `Group::CountRollVote`. -/
def castVote (r : Roll) (player : ℕ) (choice : UInt8) : Roll :=
  if choice = 0 then
    { r with totalPass := r.totalPass + 1, playerVote := r.playerVote.insert player .pass }
  else if choice = 1 then
    { r with totalNeed := r.totalNeed + 1, playerVote := r.playerVote.insert player .need }
  else if choice = 2 then
    { r with totalGreed := r.totalGreed + 1, playerVote := r.playerVote.insert player .greed }
  else if choice = 3 then
    { r with totalGreed := r.totalGreed + 1, playerVote := r.playerVote.insert player .disenchant }
  else r

/-- The test for outstanding voters; the operands are promoted to `int`. -/
def allVoted (r : Roll) : Bool :=
  r.totalPass.toNat + r.totalNeed.toNat + r.totalGreed.toNat ≥ r.totalPlayersRolling.toNat

/-- The roll that a vote brings before the test: none if there is no such roll, the player does not
take part in it, or its loot has no items. -/
def testedRoll (rolls : List Roll) (player guid : ℕ) (choice : UInt8) : Option Roll :=
  match getRoll rolls guid with
  | none => none
  | some r =>
    match r.playerVote.find player with
    | none => none
    | some _ => if r.loot.itemsEmpty then none else some (castVote r player choice)

/-- `Group::CountRollVote`; `urand` gives the numbers of the players in the roll for each item. -/
def countRollVote (urand : ℕ → ℕ → UInt8) (s : Rolls) (player guid : ℕ) (choice : UInt8) : Rolls :=
  match testedRoll s.rollId player guid choice with
  | none => s
  | some r =>
    if allVoted r then
      ⟨replaceRoll guid none s.rollId, s.ended ++ [countTheRoll (urand r.itemGUID) r]⟩
    else { s with rollId := replaceRoll guid (some r) s.rollId }

/-- A voter leaves a roll. -/
def dropVoter (r : Roll) (guid : ℕ) (v : RollVote) : Roll :=
  { r with
    totalGreed := if v = .greed || v = .disenchant then r.totalGreed - 1 else r.totalGreed
    totalNeed := if v = .need then r.totalNeed - 1 else r.totalNeed
    totalPass := if v = .pass then r.totalPass - 1 else r.totalPass
    totalPlayersRolling :=
      if v ≠ .notValid then r.totalPlayersRolling - 1 else r.totalPlayersRolling
    playerVote := r.playerVote.erase guid }

/-- The body of the loop over the rolls in `Group::RemoveMember`. -/
def leaveRoll (urand : ℕ → ℕ → UInt8) (guid : ℕ) (s : Rolls) (i : ℕ) : Rolls :=
  match s.rollId[i]? with
  | none => s
  | some r =>
    match r.playerVote.find guid with
    | none => s
    | some v =>
      countRollVote urand { s with rollId := s.rollId.set i (dropVoter r guid v) } guid r.itemGUID
        maxRollType

/-- The part of `Group::RemoveMember` that concerns the rolls; a group that is too small is
disbanded, with its rolls. -/
def removeMember (urand : ℕ → ℕ → UInt8) (s : Rolls) (guid : ℕ) (disband : Bool) : Rolls :=
  if disband then { s with rollId := [] }
  else (List.range s.rollId.length).foldl (leaveRoll urand guid) s

/-- `Group::EndRoll`, called when the timer of the loot expires. -/
def endRoll (urand : ℕ → ℕ → UInt8) (s : Rolls) (loot : ℕ) : Rolls where
  rollId := s.rollId.filter fun r => !(r.isValid && r.loot.id == loot)
  ended := s.ended ++
    (s.rollId.filter fun r => r.isValid && r.loot.id == loot).map fun r =>
      countTheRoll (urand r.itemGUID) r

/-- What can happen to the rolls of a group. -/
inductive Event
  | groupLoot (threshold : ℕ) (loot : Loot) (members : Members) (items questItems : List LootItem)
  | needBeforeGreed (threshold : ℕ) (loot : Loot) (members : Members)
      (items questItems : List LootItem)
  | vote (player guid : ℕ) (choice : UInt8) (urand : ℕ → ℕ → UInt8)
  | removeMember (guid : ℕ) (disband : Bool) (urand : ℕ → ℕ → UInt8)
  | endRoll (loot : ℕ) (urand : ℕ → ℕ → UInt8)
  | lootDeleted (loot : ℕ)

/-- One event. -/
def rollStep (s : Rolls) : Event → Rolls
  | .groupLoot threshold loot members items questItems =>
    { s with rollId := s.rollId ++ groupLoot threshold loot members items questItems }
  | .needBeforeGreed threshold loot members items questItems =>
    match needBeforeGreed threshold loot members items questItems with
    | none => s
    | some rs => { s with rollId := s.rollId ++ rs }
  | .vote player guid choice urand => countRollVote urand s player guid choice
  | .removeMember guid disband urand => removeMember urand s guid disband
  | .endRoll loot urand => endRoll urand s loot
  | .lootDeleted loot =>
    { s with
      rollId := s.rollId.map fun r => if r.loot.id = loot then { r with isValid := false } else r }

/-! ### What is required and when it holds -/

/-- The tallies of a roll agree with its map, and the test for outstanding voters succeeds only
when there is none. -/
structure Tallied (r : Roll) : Prop where
  need : r.totalNeed.toNat = r.playerVote.count isNeed
  greed : r.totalGreed.toNat = r.playerVote.count isGreed
  pass : r.totalPass.toNat = r.playerVote.count isPass
  voted : allVoted r = true → ∀ e ∈ r.playerVote.entries, e.2 ≠ .notEmitedYet

/-- All rolls are tallied. -/
def AllTallied (s : Rolls) : Prop := ∀ r ∈ s.rollId, Tallied r

/-- The roll that a vote brings before the test is tallied. -/
def TestTallied (s : Rolls) : Event → Prop
  | .vote player guid choice _ => ∀ r, testedRoll s.rollId player guid choice = some r → Tallied r
  | _ => True

/-- A vote that is entered is the first one of its player. -/
def FirstVote (s : Rolls) : Event → Prop
  | .vote player guid choice _ =>
    choice < maxRollType → ∀ r v, getRoll s.rollId guid = some r → r.loot.itemsEmpty = false →
      r.playerVote.find player = some v → v = .notEmitedYet
  | _ => True

/-! ### The invariant -/

/-- The number of entries of a map of votes. -/
def voters (m : SortedMap ℕ RollVote) : ℕ := m.count fun _ => true

/-- An entry that takes part; `RemoveMember` would skip the others. -/
def isVoter (v : RollVote) : Bool := v ≠ .notValid

/-- What the functions above keep of a roll: the tallies, the number of the players, its bound, and
that nobody has the vote `NOT_VALID`. -/
structure Consistent (r : Roll) : Prop where
  need : r.totalNeed.toNat = r.playerVote.count isNeed
  greed : r.totalGreed.toNat = r.playerVote.count isGreed
  pass : r.totalPass.toNat = r.playerVote.count isPass
  players : r.totalPlayersRolling.toNat = r.playerVote.count isVoter
  valid : r.playerVote.count isVoter = voters r.playerVote
  size : voters r.playerVote ≤ maxRaidSize

theorem count_isVoter (m : SortedMap ℕ RollVote) :
    m.count isVoter = m.count isPass + m.count isNeed + m.count isGreed + m.count isOpen := by
  obtain ⟨es, hs⟩ := m
  unfold SortedMap.count
  dsimp only
  clear hs
  induction es with
  | nil => rfl
  | cons e es ih =>
    simp only [List.countP_cons]
    obtain ⟨k, v⟩ := e
    cases v <;> simp [isVoter, isPass, isNeed, isGreed, isOpen] at ih ⊢ <;> omega

theorem count_isOpen_eq_zero_iff {m : SortedMap ℕ RollVote} :
    m.count isOpen = 0 ↔ ∀ e ∈ m.entries, e.2 ≠ .notEmitedYet := by
  simp [SortedMap.count, List.countP_eq_zero, isOpen]

theorem Consistent.tallied {r : Roll} (h : Consistent r) : Tallied r where
  need := h.need
  greed := h.greed
  pass := h.pass
  voted := by
    intro ht
    have hsum := count_isVoter r.playerVote
    have hn := h.need
    have hg := h.greed
    have hp := h.pass
    have hpl := h.players
    rw [allVoted, decide_eq_true_eq] at ht
    exact count_isOpen_eq_zero_iff.1 (by omega)

theorem count_le_voters (p : RollVote → Bool) (m : SortedMap ℕ RollVote) : m.count p ≤ voters m :=
  List.countP_mono_left fun _ _ _ => rfl

/-- A tally that follows a count of at most 40 does not wrap when it is incremented. -/
theorem toNat_add_one {x : UInt8} {n : ℕ} (h : x.toNat = n) (hn : n ≤ maxRaidSize) :
    (x + 1).toNat = n + 1 := by
  unfold maxRaidSize at hn
  rw [UInt8.toNat_add, h, show (1 : UInt8).toNat = 1 from rfl]
  omega

theorem toNat_sub_one {x : UInt8} {n : ℕ} (h : x.toNat = n) (hn : 0 < n) :
    (x - 1).toNat = n - 1 := by
  rw [UInt8.toNat_sub_of_le _ _ (UInt8.le_iff_toNat_le.2 (by rw [h]; exact hn)), h]
  rfl

theorem share_of_find {m : SortedMap ℕ RollVote} {k : ℕ} {v : RollVote} (h : m.find k = some v)
    (p : RollVote → Bool) : m.share p k = (p v).toNat := by
  rw [SortedMap.share, h]

/-- The vote that a choice stands for. -/
def voteOf (choice : UInt8) : Option RollVote :=
  if choice = 0 then some .pass
  else if choice = 1 then some .need
  else if choice = 2 then some .greed
  else if choice = 3 then some .disenchant
  else none

/-- Enter the vote `v` and increment its tally. -/
def recordVote (r : Roll) (player : ℕ) (v : RollVote) : Roll :=
  { r with
    totalNeed := if isNeed v then r.totalNeed + 1 else r.totalNeed
    totalGreed := if isGreed v then r.totalGreed + 1 else r.totalGreed
    totalPass := if isPass v then r.totalPass + 1 else r.totalPass
    playerVote := r.playerVote.insert player v }

/-- The four cases of the switch are one function of the vote. -/
theorem castVote_eq (r : Roll) (player : ℕ) (choice : UInt8) :
    castVote r player choice =
      match voteOf choice with
      | some v => recordVote r player v
      | none => r := by
  unfold castVote voteOf
  split_ifs <;> rfl

theorem voteOf_eq_some {choice : UInt8} {v : RollVote} (h : voteOf choice = some v) :
    choice < maxRollType ∧ isVoter v = true := by
  unfold voteOf at h
  split_ifs at h with h0 h1 h2 h3 <;> obtain rfl := Option.some.inj h <;> subst choice <;> decide

theorem voteOf_eq_none {choice : UInt8} (h : voteOf choice = none) : ¬choice < maxRollType := by
  unfold voteOf at h
  split_ifs at h with h0 h1 h2 h3
  simp only [maxRollType, UInt8.lt_iff_toNat_lt, ← UInt8.toNat_inj] at *
  simp at *
  omega

/-- The tally of one kind of vote after a vote: it exceeds the count by the share of the old vote,
which the map has lost and the tally has not. -/
theorem tally_recordVote {m : SortedMap ℕ RollVote} {x : UInt8} {p : RollVote → Bool}
    (hx : x.toNat = m.count p) (hsize : voters m ≤ maxRaidSize) {player : ℕ} {old : RollVote}
    (hold : m.find player = some old) (v : RollVote) :
    (if p v then x + 1 else x).toNat = (m.insert player v).count p + (p old).toNat := by
  have hcount := SortedMap.count_insert p m player v
  rw [share_of_find hold] at hcount
  have hle := count_le_voters p m
  split_ifs with hv
  · rw [toNat_add_one hx (by omega), hcount, hv]
    rfl
  · rw [Bool.not_eq_true] at hv
    rw [hcount, hx, hv]
    rfl

theorem consistent_recordVote {r : Roll} (h : Consistent r) {player : ℕ} {v : RollVote}
    (hv : isVoter v = true) (hopen : r.playerVote.find player = some .notEmitedYet) :
    Consistent (recordVote r player v) := by
  have hsize : voters (r.playerVote.insert player v) = voters r.playerVote := by
    have := SortedMap.count_insert (fun _ => true) r.playerVote player v
    rw [share_of_find hopen] at this
    exact Nat.add_right_cancel this
  have hvoter : (r.playerVote.insert player v).count isVoter = r.playerVote.count isVoter := by
    have := SortedMap.count_insert isVoter r.playerVote player v
    rw [share_of_find hopen, hv] at this
    exact Nat.add_right_cancel this
  exact
    { need := tally_recordVote h.need h.size hopen v
      greed := tally_recordVote h.greed h.size hopen v
      pass := tally_recordVote h.pass h.size hopen v
      players := h.players.trans hvoter.symm
      valid := hvoter.trans (h.valid.trans hsize.symm)
      size := hsize.trans_le h.size }

/-- A vote leaves the roll tallied only if it is the first one of its player. -/
theorem open_of_tallied {r : Roll} (h : Consistent r) {player : ℕ} {v old : RollVote}
    (hold : r.playerVote.find player = some old) (ht : Tallied (recordVote r player v)) :
    old = .notEmitedYet := by
  have hn := (tally_recordVote h.need h.size hold v).symm.trans ht.need
  have hg := (tally_recordVote h.greed h.size hold v).symm.trans ht.greed
  have hp := (tally_recordVote h.pass h.size hold v).symm.trans ht.pass
  simp only [recordVote, Nat.add_eq_left, Bool.toNat_eq_zero] at hn hg hp
  -- nobody has the vote `NOT_VALID`
  have hvalid : isVoter old = true := by
    have hall := h.valid
    rw [SortedMap.count, voters, SortedMap.count, List.countP_true, List.countP_eq_length] at hall
    exact hall _ (SortedMap.find_eq_some_mem hold)
  cases old <;> simp_all [isNeed, isGreed, isPass, isVoter]

theorem consistent_dropVoter {r : Roll} (h : Consistent r) {guid : ℕ} {v : RollVote}
    (hv : r.playerVote.find guid = some v) : Consistent (dropVoter r guid v) := by
  have hcount := fun p => SortedMap.count_erase p r.playerVote guid
  simp only [share_of_find hv] at hcount
  have htally : ∀ {p : RollVote → Bool} {x : UInt8}, x.toNat = r.playerVote.count p →
      (if p v then x - 1 else x).toNat = (r.playerVote.erase guid).count p := by
    intro p x hx
    have hp := hcount p
    split_ifs with hpv
    · rw [hpv, Bool.toNat_true] at hp
      rw [toNat_sub_one hx (by omega)]
      omega
    · rw [Bool.not_eq_true] at hpv
      rw [hpv, Bool.toNat_false] at hp
      omega
  have hvoter := hcount isVoter
  have hall : voters (r.playerVote.erase guid) + 1 = voters r.playerVote := hcount fun _ => true
  have hle := count_le_voters isVoter (r.playerVote.erase guid)
  have hvalid := h.valid
  have hb : (isVoter v).toNat ≤ 1 := Bool.toNat_le _
  exact
    { need := by simpa [dropVoter, isNeed] using htally h.need
      greed := by simpa [dropVoter, isGreed] using htally h.greed
      pass := by simpa [dropVoter, isPass] using htally h.pass
      players := by simpa [dropVoter, isVoter] using htally h.players
      valid := by
        simp only [dropVoter]
        omega
      size := by
        have := h.size
        simp only [dropVoter]
        omega }

/-! ### The start of a roll -/

section Enter

variable {item : LootItem} {autoPass : Bool} {r : Roll} {m : Member}

theorem count_insert_new {k : ℕ} (hk : r.playerVote.find k = none) (p : RollVote → Bool)
    (v : RollVote) :
    (r.playerVote.insert k v).count p = r.playerVote.count p + (p v).toNat := by
  have hcount := SortedMap.count_insert p r.playerVote k v
  rwa [SortedMap.share, hk, add_zero] at hcount

theorem voters_insert_new {k : ℕ} (hk : r.playerVote.find k = none) (v : RollVote) :
    voters (r.playerVote.insert k v) = voters r.playerVote + 1 := count_insert_new hk _ v

theorem consistent_enterMember (h : Consistent r) (hm : r.playerVote.find m.guid = none)
    (hsize : voters r.playerVote < maxRaidSize) : Consistent (enterMember item autoPass r m) := by
  have hp := count_le_voters isPass r.playerVote
  have hv := count_le_voters isVoter r.playerVote
  unfold enterMember
  split_ifs
  · exact
      { need := h.need.trans (count_insert_new hm isNeed .pass).symm
        greed := h.greed.trans (count_insert_new hm isGreed .pass).symm
        pass := (toNat_add_one h.pass (by omega)).trans (count_insert_new hm isPass .pass).symm
        players := (toNat_add_one h.players (by omega)).trans
          (count_insert_new hm isVoter .pass).symm
        valid := by
          rw [voters_insert_new hm, count_insert_new hm isVoter, h.valid]
          rfl
        size := by
          rw [voters_insert_new hm]
          omega }
  · exact
      { need := h.need.trans (count_insert_new hm isNeed .notEmitedYet).symm
        greed := h.greed.trans (count_insert_new hm isGreed .notEmitedYet).symm
        pass := h.pass.trans (count_insert_new hm isPass .notEmitedYet).symm
        players := (toNat_add_one h.players (by omega)).trans
          (count_insert_new hm isVoter .notEmitedYet).symm
        valid := by
          rw [voters_insert_new hm, count_insert_new hm isVoter, h.valid]
          rfl
        size := by
          rw [voters_insert_new hm]
          omega }
  · exact h

theorem find_enterMember_of_ne {k : ℕ} (hk : k ≠ m.guid) :
    (enterMember item autoPass r m).playerVote.find k = r.playerVote.find k := by
  unfold enterMember
  split_ifs
  · exact SortedMap.find_insert_ne hk
  · exact SortedMap.find_insert_ne hk
  · rfl

theorem voters_enterMember_le (hm : r.playerVote.find m.guid = none) :
    voters (enterMember item autoPass r m).playerVote ≤ voters r.playerVote + 1 := by
  unfold enterMember
  split_ifs
  · exact (voters_insert_new hm _).le
  · exact (voters_insert_new hm _).le
  · exact Nat.le_succ _

theorem consistent_enterMembers {ms : List Member} (h : Consistent r)
    (hnodup : (ms.map Member.guid).Nodup) (hnew : ∀ m ∈ ms, r.playerVote.find m.guid = none)
    (hsize : voters r.playerVote + ms.length ≤ maxRaidSize) :
    Consistent (ms.foldl (enterMember item autoPass) r) := by
  induction ms generalizing r with
  | nil => exact h
  | cons m ms ih =>
    rw [List.map_cons, List.nodup_cons] at hnodup
    rw [List.length_cons] at hsize
    have hm := hnew m List.mem_cons_self
    rw [List.foldl_cons]
    refine ih (consistent_enterMember h hm (by omega)) hnodup.2 (fun m' hm' => ?_) ?_
    · have hne : m'.guid ≠ m.guid := fun heq => hnodup.1 (List.mem_map.2 ⟨m', hm', heq⟩)
      rw [find_enterMember_of_ne hne]
      exact hnew m' (List.mem_cons_of_mem _ hm')
    · have := @voters_enterMember_le item autoPass r m hm
      omega

end Enter

theorem consistent_startRoll {loot : Loot} {members : Members} {autoPass : Bool} {item : LootItem}
    {r : Roll} (h : startRoll loot members autoPass item = some r) : Consistent r := by
  unfold startRoll at h
  dsimp only at h
  split_ifs at h
  rw [← Option.some.inj h]
  refine consistent_enterMembers ⟨rfl, rfl, rfl, rfl, rfl, Nat.zero_le _⟩ members.nodup
    (fun _ _ => rfl) ?_
  exact (Nat.zero_add _).trans_le members.size

theorem consistent_itemRolls {threshold : ℕ} {loot : Loot} {members : Members}
    {items : List LootItem} {r : Roll} (h : r ∈ itemRolls threshold loot members items) :
    Consistent r := by
  obtain ⟨i, -, hi⟩ := List.mem_filterMap.1 h
  split at hi
  · cases hi
  · split_ifs at hi
    exact consistent_startRoll hi

theorem consistent_startedRolls {threshold : ℕ} {loot : Loot} {members : Members}
    {items questItems : List LootItem} {p : LootItem → Bool} {r : Roll}
    (h : r ∈ itemRolls threshold loot members items ++ questItems.filterMap fun i =>
      if p i then startRoll loot members false i else none) : Consistent r := by
  rcases List.mem_append.1 h with h | h
  · exact consistent_itemRolls h
  · obtain ⟨i, -, hi⟩ := List.mem_filterMap.1 h
    split_ifs at hi
    exact consistent_startRoll hi

theorem consistent_groupLoot {threshold : ℕ} {loot : Loot} {members : Members}
    {items questItems : List LootItem} {r : Roll}
    (h : r ∈ groupLoot threshold loot members items questItems) : Consistent r :=
  consistent_startedRolls h

theorem consistent_needBeforeGreed {threshold : ℕ} {loot : Loot} {members : Members}
    {items questItems : List LootItem} {rs : List Roll} {r : Roll}
    (hrs : needBeforeGreed threshold loot members items questItems = some rs) (h : r ∈ rs) :
    Consistent r := by
  unfold needBeforeGreed at hrs
  split_ifs at hrs
  rw [← Option.some.inj hrs] at h
  exact consistent_startedRolls h

/-! ### Steps and runs -/

/-- All rolls are consistent. -/
def AllConsistent (s : Rolls) : Prop := ∀ r ∈ s.rollId, Consistent r

theorem mem_replaceRoll {guid : ℕ} {new : Option Roll} {rolls : List Roll} {r : Roll}
    (h : r ∈ replaceRoll guid new rolls) : new = some r ∨ r ∈ rolls := by
  induction rolls with
  | nil => simp [replaceRoll] at h
  | cons x rolls ih =>
    rw [replaceRoll] at h
    split_ifs at h
    · rcases List.mem_append.1 h with h | h
      · exact .inl (Option.mem_toList.1 h)
      · exact .inr (List.mem_cons_of_mem _ h)
    · rcases List.mem_cons.1 h with rfl | h
      · exact .inr List.mem_cons_self
      · exact (ih h).imp_right (List.mem_cons_of_mem _)

/-- Where the roll before the test comes from. -/
theorem testedRoll_eq_some {rolls : List Roll} {player guid : ℕ} {choice : UInt8} {r' : Roll}
    (h : testedRoll rolls player guid choice = some r') :
    ∃ r v, getRoll rolls guid = some r ∧ r ∈ rolls ∧ r.loot.itemsEmpty = false ∧
      r.playerVote.find player = some v ∧ r' = castVote r player choice := by
  unfold testedRoll at h
  rcases hr : getRoll rolls guid with _ | r
  · simp [hr] at h
  rcases hv : r.playerVote.find player with _ | v
  · simp [hr, hv] at h
  simp only [hr, hv] at h
  split_ifs at h with hempty
  exact ⟨r, v, rfl, List.mem_of_find?_eq_some hr, by simpa using hempty, hv,
    (Option.some.inj h).symm⟩

theorem testedRoll_of_find {rolls : List Roll} {player guid : ℕ} {r : Roll} {v : RollVote}
    (choice : UInt8) (hr : getRoll rolls guid = some r) (hempty : r.loot.itemsEmpty = false)
    (hv : r.playerVote.find player = some v) :
    testedRoll rolls player guid choice = some (castVote r player choice) := by
  simp [testedRoll, hr, hv, hempty]

theorem allConsistent_countRollVote {urand : ℕ → ℕ → UInt8} {s : Rolls} {player guid : ℕ}
    {choice : UInt8} (h : AllConsistent s)
    (ht : ∀ r, testedRoll s.rollId player guid choice = some r → Consistent r) :
    AllConsistent (countRollVote urand s player guid choice) := by
  unfold countRollVote
  rcases hr : testedRoll s.rollId player guid choice with _ | r
  · exact h
  · dsimp only
    split_ifs
    · intro r' hr'
      rcases mem_replaceRoll hr' with h' | h'
      · cases h'
      · exact h r' h'
    · intro r' hr'
      rcases mem_replaceRoll hr' with h' | h'
      · exact Option.some.inj h' ▸ ht r hr
      · exact h r' h'

/-- Under the condition on a vote, the roll before the test is consistent. -/
theorem consistent_testedRoll {s : Rolls} {player guid : ℕ} {choice : UInt8}
    {urand : ℕ → ℕ → UInt8} (h : AllConsistent s) (hf : FirstVote s (.vote player guid choice urand)) {r' : Roll}
    (hr' : testedRoll s.rollId player guid choice = some r') : Consistent r' := by
  obtain ⟨r, v, hget, hmem, hempty, hv, rfl⟩ := testedRoll_eq_some hr'
  rw [castVote_eq]
  rcases hvote : voteOf choice with _ | v'
  · exact h r hmem
  · obtain ⟨hlt, hvoter⟩ := voteOf_eq_some hvote
    obtain rfl := hf hlt r v hget hempty hv
    exact consistent_recordVote (h r hmem) hvoter hv

theorem allConsistent_leaveRoll {urand : ℕ → ℕ → UInt8} {guid : ℕ} {s : Rolls} (h : AllConsistent s)
    (i : ℕ) : AllConsistent (leaveRoll urand guid s i) := by
  unfold leaveRoll
  rcases hr : s.rollId[i]? with _ | r
  · exact h
  dsimp only
  rcases hv : r.playerVote.find guid with _ | v
  · exact h
  dsimp only
  have hset : AllConsistent { s with rollId := s.rollId.set i (dropVoter r guid v) } := by
    intro r' hr'
    rcases List.mem_or_eq_of_mem_set hr' with h' | rfl
    · exact h r' h'
    · exact consistent_dropVoter (h r (List.mem_of_getElem? hr)) hv
  -- the choice `MAX_ROLL_TYPE` enters no vote
  refine allConsistent_countRollVote hset fun r' hr' => ?_
  have hf : FirstVote { s with rollId := s.rollId.set i (dropVoter r guid v) }
      (.vote guid r.itemGUID 4 urand) := fun hlt => absurd hlt (by decide)
  exact consistent_testedRoll hset hf hr'

/-- An event whose vote, if it is one, is the first of its player keeps all rolls consistent. -/
theorem allConsistent_rollStep {s : Rolls} {e : Event} (h : AllConsistent s) (hf : FirstVote s e) :
    AllConsistent (rollStep s e) := by
  cases e with
  | groupLoot threshold loot members items questItems =>
    intro r hr
    exact (List.mem_append.1 hr).elim (h r) consistent_groupLoot
  | needBeforeGreed threshold loot members items questItems =>
    simp only [rollStep]
    rcases hrs : needBeforeGreed threshold loot members items questItems with _ | rs
    · exact h
    · intro r hr
      exact (List.mem_append.1 hr).elim (h r) (consistent_needBeforeGreed hrs)
  | vote player guid choice urand =>
    exact allConsistent_countRollVote h fun r => consistent_testedRoll h hf
  | removeMember guid disband urand =>
    simp only [rollStep, removeMember]
    split_ifs
    · intro r hr
      simp at hr
    · exact List.foldlRecOn _ _ h fun s hs i _ => allConsistent_leaveRoll hs i
  | endRoll loot urand =>
    intro r hr
    exact h r (List.mem_of_mem_filter hr)
  | lootDeleted loot =>
    intro r' hr'
    obtain ⟨r, hr, rfl⟩ := List.mem_map.1 hr'
    have hc := h r hr
    split_ifs
    · exact ⟨hc.need, hc.greed, hc.pass, hc.players, hc.valid, hc.size⟩
    · exact hc

/-- The roll before the test is tallied exactly when the vote is the first one of its player. -/
theorem testTallied_iff {s : Rolls} {e : Event} (h : AllConsistent s) :
    TestTallied s e ↔ FirstVote s e := by
  cases e with
  | vote player guid choice urand =>
    constructor
    · intro ht hlt r v hget hempty hv
      have htested := ht _ (testedRoll_of_find choice hget hempty hv)
      rw [castVote_eq] at htested
      rcases hvote : voteOf choice with _ | v'
      · exact absurd hlt (voteOf_eq_none hvote)
      · rw [hvote] at htested
        exact open_of_tallied (h r (List.mem_of_find?_eq_some hget)) hv htested
    · intro hf r hr
      exact (consistent_testedRoll h hf hr).tallied
  | _ => exact Iff.rfl

/-- **Main result.** From a group without rolls, along every sequence of events, the tallies of all
rolls agree with their maps, in every state and at every test, exactly when every vote that is
entered is the first one of its player. -/
theorem lootRoll_tallied_iff (ended : List Outcome) (is : List Event) :
    (Runs.Along rollStep AllTallied ⟨[], ended⟩ is ∧
        Runs.EachStep rollStep TestTallied ⟨[], ended⟩ is) ↔
      Runs.EachStep rollStep FirstVote ⟨[], ended⟩ is := by
  have h0 : AllConsistent ⟨[], ended⟩ := fun r hr => absurd hr (by simp)
  have hstep : ∀ s e, AllConsistent s → FirstVote s e → AllConsistent (rollStep s e) :=
    fun _ _ => allConsistent_rollStep
  have hiff : Runs.EachStep rollStep TestTallied ⟨[], ended⟩ is ↔
      Runs.EachStep rollStep FirstVote ⟨[], ended⟩ is :=
    Runs.eachStep_iff h0 hstep fun _ _ => testTallied_iff
  constructor
  · rintro ⟨-, ht⟩
    exact hiff.1 ht
  · intro hf
    refine ⟨fun pre hpre r hr => ?_, hiff.2 hf⟩
    exact (Runs.along_of_inv hf h0 hstep pre hpre r hr).tallied

/-- Two members without automatic pass. -/
def sampleMembers : Members :=
  ⟨[⟨1, true, true, false⟩, ⟨2, true, true, false⟩], by decide, by decide⟩

/-- A roll of the two members, in which the first one votes for need twice. -/
def sampleVotes : List Event :=
  [.groupLoot 2 ⟨0, false⟩ sampleMembers [⟨false, false, some 3, fun _ => true, 10⟩] [],
    .vote 1 10 1 fun _ _ => 1, .vote 1 10 1 fun _ _ => 1]

/-- The second vote of the same player is tallied again, so that the test succeeds while the other
member has not voted. -/
theorem lootRoll_votes_twice :
    ¬(Runs.Along rollStep AllTallied ⟨[], []⟩ sampleVotes ∧
      Runs.EachStep rollStep TestTallied ⟨[], []⟩ sampleVotes) := by
  rintro ⟨-, h⟩
  have htest := h (sampleVotes.take 2) (.vote 1 10 1 fun _ _ => 1) (by simp [sampleVotes]) _ rfl
  exact absurd htest.need (by decide)

/-! ### The winner -/

/-- The draw ends with an entry that takes part in it, when there is one and the numbers are
positive; otherwise it may end where it started. -/
theorem drawWinner_mem {p : RollVote → Bool} {urand : ℕ → UInt8} (hpos : ∀ k, 0 < urand k)
    (es : List (ℕ × RollVote)) (best : ℕ × UInt8 × RollVote) :
    let w := drawWinner p urand es best
    (w = best ∧ (best.2.1 = 0 → ∀ e ∈ es, p e.2 = false)) ∨
      ((w.1, w.2.2) ∈ es ∧ p w.2.2 = true) := by
  induction es generalizing best with
  | nil => exact .inl ⟨rfl, fun _ e he => absurd he (by simp)⟩
  | cons e es ih =>
    have hstep : drawWinner p urand (e :: es) best = drawWinner p urand es
        (if p e.2 && best.2.1 < urand e.1 then (e.1, urand e.1, e.2) else best) := rfl
    rw [hstep]
    split_ifs with hc
    · rw [Bool.and_eq_true, decide_eq_true_eq] at hc
      rcases ih (e.1, urand e.1, e.2) with ⟨hw, -⟩ | ⟨hmem, hp⟩
      · rw [hw]
        exact .inr ⟨List.mem_cons_self, hc.1⟩
      · exact .inr ⟨List.mem_cons_of_mem _ hmem, hp⟩
    · rcases ih best with ⟨hw, hnone⟩ | ⟨hmem, hp⟩
      · refine .inl ⟨hw, fun hzero x hx => ?_⟩
        rcases List.mem_cons.1 hx with rfl | hx
        · have := hpos x.1
          simpa [hzero, this] using hc
        · exact hnone hzero x hx
      · exact .inr ⟨List.mem_cons_of_mem _ hmem, hp⟩

end FaceCore.LootRoll
