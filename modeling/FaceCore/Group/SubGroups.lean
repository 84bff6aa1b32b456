import FaceCore.Group.Roles

/-!
# The subgroups of a raid

A raid keeps a counter for each of its subgroups beside the slots of its members, each of which
names a subgroup: `ConvertToRaid` and `LoadGroupFromDB` make the counters, `AddMember`,
`RemoveMember`, `ChangeMembersGroup` and `LoadMemberFromDB` follow them.

* `SubGroupsKept`: the counters of a raid are the numbers of the slots, at most `MAXGROUPSIZE`, and
  no player has two slots;
* `SubOp.Allowed`: what the callers of `AddMember` and `ChangeMembersGroup` see to;
* `subgroups_kept`: the counters are right along every run of such operations;
* `party_of_six`: `AddMember` itself does not look at the size of a party.
-/

namespace FaceCore.Groups

namespace Group

/-! ### Loading and moving -/

/-- `Group::LoadGroupFromDB`; `leaderName` is the name that `GetPlayerNameByGUID` finds. -/
def loadGroupFromDB (dbStoreId leaderGuid : UInt32) (leaderName : Option String)
    (groupType : UInt8) (rows : Table MemberRow.memberGuid) : Group :=
  match leaderName with
  | none => ⟨dbStoreId, leaderGuid.toUInt64, "", 0, false, false, [], none, rows⟩
  | some name =>
    let g : Group :=
      ⟨dbStoreId, leaderGuid.toUInt64, name, groupType, false, false, [], none, rows⟩
    if g.isRaidGroup then g.initRaidSubGroupsCounter else g

/-- `Group::LoadMemberFromDB`: the row of a player who does not exist is deleted. -/
def loadMember (g : Group) (row : MemberRow × Option String) : Group :=
  match row.2 with
  | none => { g with rows := g.rows.erase row.1.memberGuid }
  | some name =>
    { g with memberSlots := g.memberSlots ++ [loadMemberFromDB row.1 name] }.subGroupCounterIncrease
      row.1.subgroup

/-- `CHAR_UPD_GROUP_MEMBER_SUBGROUP`. -/
def updGroupMemberSubgroup (g : Group) (guid : UInt64) (group : UInt8) : Group :=
  { g with
    rows := g.rows.modify (lowPart guid) (fun row => { row with subgroup := group })
      fun _ => rfl }

/-- `Group::ChangeMembersGroup`. -/
def changeMembersGroup (g : Group) (guid : UInt64) (group : UInt8) : Group :=
  if !g.isRaidGroup then g
  else
    match g.getMemberWSlot guid with
    | none => g
    | some slot =>
      let prevSubGroup := slot.group
      if prevSubGroup = group then g
      else
        let g := { g with
          memberSlots := modifySlot guid (fun s => { s with group := group }) g.memberSlots }
        let g := (g.subGroupCounterIncrease group).subGroupCounterDecrease prevSubGroup
        if g.isBGGroup || g.isBFGroup then g else g.updGroupMemberSubgroup guid group

/-- `Group::HasFreeSlotSubGroup`. -/
def hasFreeSlotSubGroup (g : Group) (subgroup : UInt8) : Bool :=
  g.subGroupsCounts.any fun counts => counts.getD subgroup.toNat 0 < maxGroupSize

/-- The number of slots of a subgroup. -/
def inSubGroup (g : Group) (i : ℕ) : ℕ := g.memberSlots.countP fun s => s.group.toNat = i

/-- The counters of a raid are the numbers of the slots, at most `MAXGROUPSIZE`, and no player has
two slots. -/
structure SubGroupsKept (g : Group) : Prop where
  counts : g.isRaidGroup → ∃ counts, g.subGroupsCounts = some counts ∧
    counts.length = maxRaidSubgroups ∧ ∀ i < maxRaidSubgroups,
      (counts.getD i 0).toNat = g.inSubGroup i ∧ counts.getD i 0 ≤ maxGroupSize
  nodup : (g.memberSlots.map MemberSlot.guid).Nodup

end Group

/-- What may happen to a group, and a move to another subgroup. -/
inductive SubOp
  | op (op : Op)
  | changeMembersGroup (guid : UInt64) (group : UInt8)

/-- The group after an operation. -/
def Group.subExec (g : Group) : SubOp → Option Group
  | .op op => g.exec op
  | .changeMembersGroup guid group => some (g.changeMembersGroup guid group)

/-- One operation; nothing happens to a group that is disbanded. -/
def subStep : Option Group → SubOp → Option Group := Runs.stepOption Group.subExec

/-- A player who is added is no member yet, and finds a free place if the group is no raid; a member
is moved to a subgroup that exists and has a free place. -/
def SubOp.Allowed (g : Group) : SubOp → Prop
  | .op (.addMember player) =>
    player.guid ∉ g.memberSlots.map MemberSlot.guid ∧
      (g.isRaidGroup = false → g.memberSlots.length < maxGroupSize.toNat)
  | .changeMembersGroup _ group =>
    g.isRaidGroup → group.toNat < maxRaidSubgroups ∧ g.hasFreeSlotSubGroup group
  | _ => True

instance (g : Group) : ∀ op : SubOp, Decidable (op.Allowed g)
  | .op (.addMember _) => inferInstanceAs (Decidable (_ ∧ _))
  | .changeMembersGroup _ _ => inferInstanceAs (Decidable (_ → _))
  | .op (.removeMember ..) | .op (.changeLeader ..) | .op .disband | .op .convertToLFG
  | .op .convertToRaid | .op (.setGroupMemberFlag ..) | .op (.removeUniqueGroupMemberFlag ..) =>
    inferInstanceAs (Decidable True)

/-- How a group comes to be. -/
inductive Start
  | create (b : Group.Blank) (leader : Player)
  | load (dbStoreId leaderGuid : UInt32) (leaderName : Option String) (groupType : UInt8)
      (rows : Table MemberRow.memberGuid) (members : List (MemberRow × Option String))

/-- The new group. -/
def Start.group : Start → Option Group
  | .create b leader => Group.create b leader
  | .load dbStoreId leaderGuid leaderName groupType rows members =>
    some (members.foldl Group.loadMember
      (Group.loadGroupFromDB dbStoreId leaderGuid leaderName groupType rows))

/-- The rows of the members that are loaded are those of different players; the rows of players who
exist name subgroups that exist, and at most `MAXGROUPSIZE` of them name the same one. -/
def Start.WellStored : Start → Prop
  | .create _ _ => True
  | .load _ _ _ _ _ members =>
    (members.map fun row => row.1.memberGuid).Nodup ∧
      (∀ row ∈ members, row.2.isSome → row.1.subgroup.toNat < maxRaidSubgroups) ∧
      ∀ i, (members.countP fun row => row.2.isSome ∧ row.1.subgroup.toNat = i) ≤
        maxGroupSize.toNat

namespace Group

variable {g g' : Group} {w : World} {guid : UInt64} {subgroup : UInt8}

/-! ### Counters -/

/-- The invariant: counters exist for raids and are right, every subgroup exists and has room. -/
structure Seated (g : Group) : Prop where
  raid : g.isRaidGroup = g.subGroupsCounts.isSome
  counts : ∀ counts, g.subGroupsCounts = some counts → counts.length = maxRaidSubgroups ∧
    ∀ i < maxRaidSubgroups, counts.getD i 0 = UInt8.ofNat (g.inSubGroup i)
  subGroup : ∀ s ∈ g.memberSlots, s.group.toNat < maxRaidSubgroups
  room : ∀ i, g.inSubGroup i ≤ maxGroupSize.toNat
  nodup : (g.memberSlots.map MemberSlot.guid).Nodup

theorem toNat_ofNat_of_le {n : ℕ} (h : n ≤ maxGroupSize.toNat) : (UInt8.ofNat n).toNat = n := by
  rw [UInt8.toNat_ofNat']
  exact Nat.mod_eq_of_lt (lt_of_le_of_lt h (by decide))

theorem Seated.subGroupsKept (h : g.Seated) : g.SubGroupsKept where
  counts hraid := by
    rw [h.raid, Option.isSome_iff_exists] at hraid
    obtain ⟨counts, hcounts⟩ := hraid
    obtain ⟨hlen, hget⟩ := h.counts counts hcounts
    refine ⟨counts, hcounts, hlen, fun i hi => ?_⟩
    have hnat := toNat_ofNat_of_le (h.room i)
    rw [hget i hi, UInt8.le_iff_toNat_le, hnat]
    exact ⟨rfl, h.room i⟩
  nodup := h.nodup

theorem getD_modify (counts : List UInt8) (f : UInt8 → UInt8) (i : ℕ) {j : ℕ}
    (hj : j < counts.length) : (counts.modify i f).getD j 0 =
      if i = j then f (counts.getD j 0) else counts.getD j 0 := by
  rw [List.getD_eq_getElem?_getD, List.getD_eq_getElem?_getD, List.getElem?_modify,
    List.getElem?_eq_getElem hj]
  split_ifs <;> rfl

theorem ofNat_succ (n : ℕ) : UInt8.ofNat (n + 1) = UInt8.ofNat n + 1 := UInt8.ofNat_add n 1

theorem ofNat_succ_sub (n : ℕ) : UInt8.ofNat (n + 1) - 1 = UInt8.ofNat n := by
  rw [ofNat_succ, UInt8.add_sub_cancel]

/-- A place: who sits in which subgroup. -/
def seat (s : MemberSlot) : UInt64 × UInt8 := (s.guid, s.group)

theorem inSubGroup_eq (i : ℕ) :
    g.inSubGroup i = (g.memberSlots.map seat).countP fun p => p.2.toNat = i := by
  rw [List.countP_map]
  rfl

/-- Whatever leaves the places, the counters and the kind alone, leaves the group seated. -/
theorem Seated.congr (h : g.Seated) (hseat : g'.memberSlots.map seat = g.memberSlots.map seat)
    (hcounts : g'.subGroupsCounts = g.subGroupsCounts) (hraid : g'.isRaidGroup = g.isRaidGroup) :
    g'.Seated := by
  have hin : ∀ i, g'.inSubGroup i = g.inSubGroup i := by
    intro i
    rw [inSubGroup_eq, inSubGroup_eq, hseat]
  have hguid : g'.memberSlots.map MemberSlot.guid = g.memberSlots.map MemberSlot.guid := by
    have := congrArg (List.map Prod.fst) hseat
    simpa [List.map_map, Function.comp_def, seat] using this
  refine ⟨?_, ?_, ?_, ?_, ?_⟩
  · rw [hraid, hcounts, h.raid]
  · simp only [hcounts, hin]
    exact h.counts
  · intro s hs
    have hmem : seat s ∈ g.memberSlots.map seat := hseat ▸ List.mem_map_of_mem hs
    obtain ⟨t, ht, heq⟩ := List.mem_map.1 hmem
    rw [← show t.group = s.group from congrArg Prod.snd heq]
    exact h.subGroup t ht
  · simp only [hin]
    exact h.room
  · rw [hguid]
    exact h.nodup

theorem Seated.push (h : g.Seated) (slot : MemberSlot)
    (hnew : slot.guid ∉ g.memberSlots.map MemberSlot.guid)
    (hsub : slot.group.toNat < maxRaidSubgroups)
    (hroom : g.inSubGroup slot.group.toNat < maxGroupSize.toNat) :
    ({ g with memberSlots := g.memberSlots ++ [slot] }.subGroupCounterIncrease
      slot.group).Seated := by
  have hin : ∀ i, (g.memberSlots ++ [slot]).countP (fun s => s.group.toNat = i) =
      g.inSubGroup i + if slot.group.toNat = i then 1 else 0 := by
    intro i
    rw [List.countP_append, List.countP_singleton]
    simp [inSubGroup]
  refine ⟨?_, ?_, ?_, ?_, ?_⟩
  · refine h.raid.trans ?_
    simp [subGroupCounterIncrease]
  · intro counts hcounts
    obtain ⟨old, hold, rfl⟩ := Option.map_eq_some_iff.1 hcounts
    obtain ⟨hlen, hget⟩ := h.counts old hold
    refine ⟨by rw [List.length_modify, hlen], fun i hi => ?_⟩
    rw [getD_modify old (· + 1) slot.group.toNat (hlen ▸ hi), hget i hi]
    refine Eq.trans ?_ (congrArg UInt8.ofNat (hin i)).symm
    split_ifs
    · exact (ofNat_succ _).symm
    · rfl
  · intro s hs
    rcases List.mem_append.1 hs with hs | hs
    · exact h.subGroup s hs
    · obtain rfl := List.mem_singleton.1 hs
      exact hsub
  · intro i
    refine (hin i).trans_le ?_
    split_ifs with hi
    · subst hi
      exact hroom
    · exact h.room i
  · rw [show (subGroupCounterIncrease _ _).memberSlots = g.memberSlots ++ [slot] from rfl,
      List.map_append, List.nodup_append]
    refine ⟨h.nodup, List.nodup_singleton _, fun a ha b hb => ?_⟩
    obtain rfl := List.mem_singleton.1 hb
    exact fun heq => hnew (heq ▸ ha)

/-- The first slot of a player splits the list. -/
theorem split_slot {slot : MemberSlot} (h : g.getMemberWSlot guid = some slot) :
    ∃ l₁ l₂, slot.guid = guid ∧ g.memberSlots = l₁ ++ slot :: l₂ ∧
      g.memberSlots.eraseP (·.guid = guid) = l₁ ++ l₂ ∧
      ∀ f, modifySlot guid f g.memberSlots = l₁ ++ f slot :: l₂ := by
  obtain ⟨hslot, l₁, l₂, hsplit, hl₁⟩ := List.find?_eq_some_iff_append.1 h
  have hguid : slot.guid = guid := of_decide_eq_true hslot
  have hne : ∀ s ∈ l₁, s.guid ≠ guid := fun s hs => by simpa using hl₁ s hs
  refine ⟨l₁, l₂, hguid, hsplit, ?_, fun f => ?_⟩
  · rw [hsplit, List.eraseP_append_right _ (fun s hs => by simpa using hne s hs),
      List.eraseP_cons_of_pos (by simpa using hguid)]
  · rw [hsplit]
    clear hsplit hl₁ h
    induction l₁ with
    | nil => simp [modifySlot, hguid]
    | cons s l₁ ih =>
      have hs := hne s List.mem_cons_self
      have hl := ih fun t ht => hne t (List.mem_cons_of_mem s ht)
      simp [modifySlot, hs, hl]

theorem inSubGroup_split {slot : MemberSlot} {l₁ l₂ : List MemberSlot}
    (hsplit : g.memberSlots = l₁ ++ slot :: l₂) (i : ℕ) :
    g.inSubGroup i = (l₁ ++ l₂).countP (fun s => s.group.toNat = i) +
      if slot.group.toNat = i then 1 else 0 := by
  rw [inSubGroup, hsplit, List.countP_append, List.countP_cons, List.countP_append]
  simp only [decide_eq_true_eq]
  omega

theorem Seated.eraseSlot (h : g.Seated) : (g.eraseSlot guid).Seated := by
  unfold Group.eraseSlot
  cases hslot : g.getMemberWSlot guid with
  | none => exact h
  | some slot =>
    obtain ⟨l₁, l₂, -, hsplit, herase, -⟩ := split_slot hslot
    dsimp only
    rw [herase]
    have hin := inSubGroup_split hsplit
    have hsub : ∀ s ∈ l₁ ++ l₂, s ∈ g.memberSlots := by
      intro s hs
      rw [hsplit]
      simp only [List.mem_append, List.mem_cons] at hs ⊢
      tauto
    refine ⟨?_, ?_, fun s hs => h.subGroup s (hsub s hs), fun i => ?_, ?_⟩
    · refine h.raid.trans ?_
      simp [subGroupCounterDecrease]
    · intro counts hcounts
      obtain ⟨old, hold, rfl⟩ := Option.map_eq_some_iff.1 hcounts
      obtain ⟨hlen, hget⟩ := h.counts old hold
      refine ⟨by rw [List.length_modify, hlen], fun i hi => ?_⟩
      rw [getD_modify old (· - 1) slot.group.toNat (hlen ▸ hi), hget i hi, hin i]
      split_ifs
      · exact ofNat_succ_sub _
      · rfl
    · exact ((Nat.le_add_right _ _).trans_eq (hin i).symm).trans (h.room i)
    · have hnodup := h.nodup
      rw [hsplit] at hnodup
      refine hnodup.sublist (List.Sublist.map MemberSlot.guid ?_)
      exact List.Sublist.append_left (List.sublist_cons_self slot l₂) l₁

theorem Seated.room_of_lt (h : g.Seated) {counts : List UInt8}
    (hcounts : g.subGroupsCounts = some counts) {i : ℕ} (hi : i < maxRaidSubgroups)
    (hlt : counts.getD i 0 < maxGroupSize) : g.inSubGroup i < maxGroupSize.toNat := by
  rw [(h.counts counts hcounts).2 i hi, UInt8.lt_iff_toNat_lt, toNat_ofNat_of_le (h.room i)] at hlt
  exact hlt

theorem Seated.move {slot : MemberSlot} {l₁ l₂ : List MemberSlot} (h : g.Seated)
    (hsplit : g.memberSlots = l₁ ++ slot :: l₂) (hsub : subgroup.toNat < maxRaidSubgroups)
    (hne : slot.group ≠ subgroup) (hroom : g.inSubGroup subgroup.toNat < maxGroupSize.toNat) :
    (({ g with memberSlots := l₁ ++ { slot with group := subgroup } :: l₂ }.subGroupCounterIncrease
      subgroup).subGroupCounterDecrease slot.group).Seated := by
  have hne' : slot.group.toNat ≠ subgroup.toNat := fun heq => hne (UInt8.toNat_inj.1 heq)
  have hold := inSubGroup_split hsplit
  have hnew : ∀ i, (l₁ ++ { slot with group := subgroup } :: l₂).countP
        (fun s => s.group.toNat = i) =
      (l₁ ++ l₂).countP (fun s => s.group.toNat = i) +
        if subgroup.toNat = i then 1 else 0 :=
    @inSubGroup_split { g with memberSlots := l₁ ++ { slot with group := subgroup } :: l₂ }
      { slot with group := subgroup } l₁ l₂ rfl
  refine ⟨?_, ?_, ?_, fun i => ?_, ?_⟩
  · refine h.raid.trans ?_
    simp [subGroupCounterDecrease, subGroupCounterIncrease]
  · intro counts hcounts
    obtain ⟨mid, hmid, rfl⟩ := Option.map_eq_some_iff.1 hcounts
    obtain ⟨old, hfound, rfl⟩ := Option.map_eq_some_iff.1 hmid
    obtain ⟨hlen, hget⟩ := h.counts old hfound
    refine ⟨by rw [List.length_modify, List.length_modify, hlen], fun i hi => ?_⟩
    refine Eq.trans ?_ (congrArg UInt8.ofNat (hnew i)).symm
    rw [getD_modify _ _ _ (by rwa [List.length_modify, hlen]), getD_modify _ _ _ (by rwa [hlen]),
      hget i hi, hold i]
    by_cases h1 : slot.group.toNat = i
    · have h2 : ¬ subgroup.toNat = i := fun heq => hne' (h1.trans heq.symm)
      simp only [if_pos h1, if_neg h2]
      exact ofNat_succ_sub _
    · simp only [if_neg h1]
      split_ifs
      · exact (ofNat_succ _).symm
      · rfl
  · intro s hs
    rcases List.mem_append.1 hs with hs | hs
    · exact h.subGroup s (by rw [hsplit]; exact List.mem_append_left _ hs)
    · rcases List.mem_cons.1 hs with rfl | hs
      · exact hsub
      · exact h.subGroup s (by rw [hsplit]; exact List.mem_append_right _ (List.mem_cons_of_mem _ hs))
  · have hi := h.room i
    refine (hnew i).trans_le ?_
    split_ifs with heq
    · subst heq
      rw [hold, if_neg hne'] at hroom
      exact hroom
    · rw [hold] at hi
      exact (Nat.le_add_right _ _).trans hi
  · have hnodup := h.nodup
    rw [hsplit] at hnodup
    simpa [subGroupCounterDecrease, subGroupCounterIncrease] using hnodup

theorem Seated.changeMembersGroup (h : g.Seated)
    (hfree : g.isRaidGroup → subgroup.toNat < maxRaidSubgroups ∧ g.hasFreeSlotSubGroup subgroup) :
    (g.changeMembersGroup guid subgroup).Seated := by
  unfold Group.changeMembersGroup
  by_cases hraid : g.isRaidGroup
  swap
  · simpa [hraid] using h
  rw [if_neg (by simp [hraid])]
  cases hslot : g.getMemberWSlot guid with
  | none => exact h
  | some slot =>
    obtain ⟨hsub, hfree⟩ := hfree hraid
    obtain ⟨counts, hcounts, hlt⟩ := (Option.any_eq_true _ _).1 hfree
    obtain ⟨l₁, l₂, -, hsplit, -, hmodify⟩ := split_slot hslot
    dsimp only
    rw [hmodify]
    split_ifs with hprev hbg
    · exact h
    all_goals
      have hmoved := h.move hsplit hsub hprev (h.room_of_lt hcounts hsub (by simpa using hlt))
    · exact hmoved
    · exact hmoved.congr rfl rfl rfl

/-! ### Operations that leave the places alone -/

theorem map_seat_modifySlot {f : MemberSlot → MemberSlot} (hf : ∀ s, seat (f s) = seat s)
    (l : List MemberSlot) : (modifySlot guid f l).map seat = l.map seat := by
  induction l with
  | nil => rfl
  | cons s l ih =>
    unfold modifySlot
    split_ifs
    · simp [hf]
    · simp [ih]

theorem Seated.switchFlag (h : g.Seated) (flag : UInt8) (apply : Bool) :
    (g.switchFlag guid flag apply).Seated :=
  h.congr (map_seat_modifySlot (f := toggleGroupMemberFlag flag apply) (fun _ => rfl) _) rfl rfl

theorem Seated.changeLeader (h : g.Seated) : (g.changeLeader w guid).Seated := by
  rcases changeLeader_cases g w guid with ⟨heq, -⟩ | ⟨-, -, heq⟩
  · rwa [heq]
  · rw [heq]
    exact (h.switchFlag memberFlagAssistant false).congr rfl rfl rfl

theorem Seated.pickLeader (h : g.Seated) : (g.pickLeader w guid).Seated := by
  unfold Group.pickLeader
  split_ifs
  · split
    · exact h.changeLeader
    · exact h
  · exact h

theorem Seated.removeUniqueGroupMemberFlag (h : g.Seated) (flag : UInt8) :
    (g.removeUniqueGroupMemberFlag flag).Seated := by
  refine h.congr ?_ rfl rfl
  simp only [Group.removeUniqueGroupMemberFlag, List.map_map]
  refine List.map_congr_left fun s _ => ?_
  simp only [Function.comp_apply]
  split_ifs <;> rfl

theorem Seated.writeMemberFlag (h : g.Seated) (flag : UInt8) (apply : Bool) :
    (g.writeMemberFlag guid apply flag).Seated := by
  unfold Group.writeMemberFlag
  dsimp only
  split
  · exact h.switchFlag flag apply
  · exact (h.switchFlag flag apply).congr rfl rfl rfl

theorem Seated.setGroupMemberFlag (h : g.Seated) (flag : UInt8) (apply : Bool) :
    (g.setGroupMemberFlag guid apply flag).Seated := by
  unfold Group.setGroupMemberFlag
  cases g.getMemberWSlot guid with
  | none =>
    dsimp only
    split_ifs <;> exact h
  | some slot =>
    dsimp only
    split_ifs
    · exact h
    · exact (h.removeUniqueGroupMemberFlag memberFlagMainAssist).writeMemberFlag flag apply
    · exact (h.removeUniqueGroupMemberFlag memberFlagMainTank).writeMemberFlag flag apply
    · exact h.writeMemberFlag flag apply
    · exact h

theorem Seated.convertToLFG (h : g.Seated) : g.convertToLFG.Seated := by
  refine h.congr rfl rfl ?_
  have hkind : ∀ t : UInt8, (t ||| groupTypeLFG ||| groupTypeUnk1) &&& groupTypeRaid =
      t &&& groupTypeRaid := by
    intro t
    rw [Flags.or_and_of_disjoint (by decide), Flags.or_and_of_disjoint (by decide)]
  simp [Group.convertToLFG, isRaidGroup, hkind]

/-! ### Members come and go -/

theorem Seated.freeSubGroup (h : g.Seated) (hsub : g.freeSubGroup = some subgroup)
    (hparty : g.isRaidGroup = false → g.memberSlots.length < maxGroupSize.toNat) :
    subgroup.toNat < maxRaidSubgroups ∧
      g.inSubGroup subgroup.toNat < maxGroupSize.toNat := by
  unfold Group.freeSubGroup at hsub
  cases hcounts : g.subGroupsCounts with
  | none =>
    rw [hcounts] at hsub
    obtain rfl := Option.some.inj hsub
    refine ⟨by decide, (List.countP_le_length).trans_lt (hparty ?_)⟩
    rw [h.raid, hcounts]
    rfl
  | some counts =>
    rw [hcounts] at hsub
    obtain ⟨i, hi, rfl⟩ := Option.map_eq_some_iff.1 hsub
    have hlt : i < maxRaidSubgroups := List.mem_range.1 (List.mem_of_find?_eq_some hi)
    have hnat : (UInt8.ofNat i).toNat = i := by
      rw [UInt8.toNat_ofNat']
      exact Nat.mod_eq_of_lt (hlt.trans (by decide))
    rw [hnat]
    exact ⟨hlt, h.room_of_lt hcounts hlt (by simpa using List.find?_some hi)⟩

theorem Seated.addMember {player : Player} (h : g.Seated)
    (hnew : player.guid ∉ g.memberSlots.map MemberSlot.guid)
    (hparty : g.isRaidGroup = false → g.memberSlots.length < maxGroupSize.toNat) :
    (g.addMember player).1.Seated := by
  unfold Group.addMember
  cases hsub : g.freeSubGroup with
  | none => exact h
  | some subGroup =>
    obtain ⟨hlt, hroom⟩ := h.freeSubGroup hsub hparty
    have hpush := h.push ⟨player.guid, player.name, subGroup, 0, 0⟩ hnew hlt hroom
    dsimp only
    unfold insGroupMember
    split_ifs
    · exact hpush
    · exact hpush
    · exact hpush.congr rfl rfl rfl

theorem Seated.takeOut (h : g.Seated) : (g.takeOut w guid).Seated := by
  have hrows : (if g.isBGGroup || g.isBFGroup then g
      else { g with rows := g.rows.erase (lowPart guid) }).Seated := by
    split_ifs
    · exact h
    · exact h.congr rfl rfl rfl
  exact hrows.eraseSlot.pickLeader

theorem Seated.removeMember {method : RemoveMethod} (h : g.Seated)
    (hg : g.removeMember w guid method = some g') : g'.Seated := by
  unfold Group.removeMember at hg
  dsimp only at hg
  split_ifs at hg
  · exact Option.some.inj hg ▸ h
  · exact Option.some.inj hg ▸ h.takeOut

/-! ### Raids -/

/-- The pass of `_initRaidSubGroupsCounter` over the slots. -/
theorem foldl_counts (slots : List MemberSlot) (counts : List UInt8) (i : ℕ)
    (hi : i < counts.length) :
    (slots.foldl (fun counts s => counts.modify s.group.toNat (· + 1)) counts).getD i 0 =
      counts.getD i 0 + UInt8.ofNat (slots.countP fun s => s.group.toNat = i) := by
  induction slots generalizing counts with
  | nil => simp
  | cons s slots ih =>
    rw [List.foldl_cons, ih _ (by rwa [List.length_modify]), getD_modify _ _ _ hi,
      List.countP_cons]
    simp only [decide_eq_true_eq]
    split_ifs with hs
    · rw [ofNat_succ, UInt8.add_assoc, UInt8.add_comm 1]
    · rw [add_zero]

theorem length_foldl_counts (slots : List MemberSlot) (counts : List UInt8) :
    (slots.foldl (fun counts s => counts.modify s.group.toNat (· + 1)) counts).length =
      counts.length := by
  induction slots generalizing counts with
  | nil => rfl
  | cons s slots ih => rw [List.foldl_cons, ih, List.length_modify]

theorem seated_initRaidSubGroupsCounter (hraid : g.isRaidGroup)
    (hsub : ∀ s ∈ g.memberSlots, s.group.toNat < maxRaidSubgroups)
    (hroom : ∀ i, g.inSubGroup i ≤ maxGroupSize.toNat)
    (hnodup : (g.memberSlots.map MemberSlot.guid).Nodup) :
    g.initRaidSubGroupsCounter.Seated := by
  refine ⟨hraid, fun counts hcounts => ?_, hsub, hroom, hnodup⟩
  obtain rfl := Option.some.inj hcounts
  refine ⟨by rw [length_foldl_counts, List.length_replicate], fun i hi => ?_⟩
  have hzero : (List.replicate maxRaidSubgroups (0 : UInt8)).getD i 0 = 0 := by
    rw [List.getD_eq_getElem?_getD, List.getElem?_replicate, if_pos hi, Option.getD_some]
  rw [foldl_counts _ _ _ (by rwa [List.length_replicate]), hzero, UInt8.zero_add]
  rfl

theorem Seated.convertToRaid (h : g.Seated) : g.convertToRaid.Seated := by
  refine seated_initRaidSubGroupsCounter ?_ h.subGroup h.room h.nodup
  simp [isRaidGroup, Flags.or_and_self, groupTypeRaid]

theorem Seated.subExec {op : SubOp} (h : g.Seated) (hop : op.Allowed g)
    (hg : g.subExec op = some g') : g'.Seated := by
  cases op with
  | changeMembersGroup guid group => exact Option.some.inj hg ▸ h.changeMembersGroup hop
  | op op =>
    cases op with
    | addMember player => exact Option.some.inj hg ▸ h.addMember hop.1 hop.2
    | removeMember w guid method => exact h.removeMember hg
    | changeLeader w guid => exact Option.some.inj hg ▸ h.changeLeader
    | disband => cases hg
    | convertToLFG => exact Option.some.inj hg ▸ h.convertToLFG
    | convertToRaid => exact Option.some.inj hg ▸ h.convertToRaid
    | setGroupMemberFlag guid apply flag => exact Option.some.inj hg ▸ h.setGroupMemberFlag flag apply
    | removeUniqueGroupMemberFlag flag =>
      exact Option.some.inj hg ▸ h.removeUniqueGroupMemberFlag flag

/-! ### New groups -/

theorem seated_of_nil (hnil : g.memberSlots = []) (hnone : g.subGroupsCounts = none) :
    (if g.isRaidGroup then g.initRaidSubGroupsCounter else g).Seated := by
  split_ifs with hraid
  · refine seated_initRaidSubGroupsCounter hraid ?_ ?_ ?_ <;> simp [hnil, inSubGroup]
  · refine ⟨?_, ?_, ?_, ?_, ?_⟩ <;> simp [hnil, hnone, inSubGroup, hraid]

theorem memberSlots_of_nil (hnil : g.memberSlots = []) :
    (if g.isRaidGroup then g.initRaidSubGroupsCounter else g).memberSlots = [] := by
  split_ifs
  · exact hnil
  · exact hnil

theorem seated_create {b : Blank} {leader : Player} (h : create b leader = some g) : g.Seated := by
  unfold create at h
  dsimp only at h
  split at h
  next g₁ heq =>
    obtain rfl := Option.some.inj h
    rw [← show _ = g₁ from congrArg Prod.fst heq]
    refine (seated_of_nil rfl rfl).addMember ?_ fun _ => ?_
    · rw [memberSlots_of_nil rfl]
      simp
    · rw [memberSlots_of_nil rfl]
      decide
  · cases h

theorem seated_loadGroupFromDB (dbStoreId leaderGuid : UInt32) (leaderName : Option String)
    (groupType : UInt8) (rows : Table MemberRow.memberGuid) :
    (loadGroupFromDB dbStoreId leaderGuid leaderName groupType rows).Seated ∧
      (loadGroupFromDB dbStoreId leaderGuid leaderName groupType rows).memberSlots = [] := by
  unfold loadGroupFromDB
  cases leaderName with
  | none =>
    let g : Group := ⟨dbStoreId, leaderGuid.toUInt64, "", 0, false, false, [], none, rows⟩
    have hraid : g.isRaidGroup = false := by
      show decide ((0 : UInt8) &&& groupTypeRaid ≠ 0) = false
      decide
    have hnew := seated_of_nil (g := g) rfl rfl
    rw [hraid] at hnew
    exact ⟨hnew, rfl⟩
  | some name => exact ⟨seated_of_nil rfl rfl, memberSlots_of_nil rfl⟩

/-- The rows of existing players that come with the group. -/
def existing (members : List (MemberRow × Option String)) (i : ℕ) : ℕ :=
  members.countP fun row => row.2.isSome ∧ row.1.subgroup.toNat = i

theorem seated_load {members : List (MemberRow × Option String)} (h : g.Seated)
    (hguid : ∀ row ∈ members, row.1.memberGuid.toUInt64 ∉ g.memberSlots.map MemberSlot.guid)
    (hnodup : (members.map fun row => row.1.memberGuid).Nodup)
    (hsub : ∀ row ∈ members, row.2.isSome → row.1.subgroup.toNat < maxRaidSubgroups)
    (hroom : ∀ i, g.inSubGroup i + existing members i ≤ maxGroupSize.toNat) :
    (members.foldl loadMember g).Seated := by
  induction members generalizing g with
  | nil => exact h
  | cons row members ih =>
    rw [List.foldl_cons]
    rw [List.map_cons, List.nodup_cons] at hnodup
    have hrest := fun row' hrow' => hsub row' (List.mem_cons_of_mem row hrow')
    obtain ⟨row, name⟩ := row
    cases name with
    | none =>
      have hcount : ∀ i, existing ((row, none) :: members) i = existing members i := by
        intro i
        simp [existing]
      refine ih (h.congr rfl rfl rfl) (fun row' hrow' => ?_) hnodup.2 hrest fun i => ?_
      · exact hguid row' (List.mem_cons_of_mem _ hrow')
      · exact hcount i ▸ hroom i
    | some name =>
      have hcount : ∀ i, existing ((row, some name) :: members) i =
          existing members i + if row.subgroup.toNat = i then 1 else 0 := by
        intro i
        simp [existing, List.countP_cons]
      refine ih (h.push (loadMemberFromDB row name) ?_ ?_ ?_) (fun row' hrow' => ?_)
        hnodup.2 hrest fun i => ?_
      · exact hguid _ List.mem_cons_self
      · exact hsub _ List.mem_cons_self rfl
      · have := hroom row.subgroup.toNat
        rw [hcount, if_pos rfl] at this
        show g.inSubGroup row.subgroup.toNat < _
        omega
      · show row'.1.memberGuid.toUInt64 ∉
          (g.memberSlots ++ [loadMemberFromDB row name]).map MemberSlot.guid
        rw [List.map_append, List.mem_append, not_or]
        refine ⟨hguid row' (List.mem_cons_of_mem _ hrow'), fun hmem => hnodup.1 ?_⟩
        have heq : row'.1.memberGuid.toUInt64 = row.memberGuid.toUInt64 := List.mem_singleton.1 hmem
        have hlow : row'.1.memberGuid = row.memberGuid := by
          rw [← UInt32.toNat_inj]
          simpa using congrArg UInt64.toNat heq
        rw [← hlow]
        exact List.mem_map_of_mem (f := fun row : MemberRow × Option String => row.1.memberGuid) hrow'
      · show (g.memberSlots ++ [loadMemberFromDB row name]).countP (fun s => s.group.toNat = i) +
          existing members i ≤ _
        have hi := hroom i
        rw [hcount, inSubGroup] at hi
        have hone : [loadMemberFromDB row name].countP (fun s => s.group.toNat = i) =
            if row.subgroup.toNat = i then 1 else 0 := by
          simp [loadMemberFromDB, List.countP_singleton]
        rw [List.countP_append, hone]
        omega

theorem seated_start {start : Start} (h : start.WellStored) (hg : start.group = some g) :
    g.Seated := by
  cases start with
  | create b leader => exact seated_create hg
  | load dbStoreId leaderGuid leaderName groupType rows members =>
    obtain ⟨hnodup, hsub, hroom⟩ := h
    obtain rfl := Option.some.inj hg
    obtain ⟨hnew, hnil⟩ := seated_loadGroupFromDB dbStoreId leaderGuid leaderName groupType rows
    refine seated_load hnew (fun row _ => by simp [hnil]) hnodup hsub fun i => ?_
    rw [inSubGroup, hnil, List.countP_nil, zero_add]
    exact hroom i

end Group

/-- **Main result.** From a new group or a group that is loaded from well-formed rows, along every
run of operations whose additions and moves are allowed where they happen, the counters of a raid
are the numbers of its slots, no counter is above `MAXGROUPSIZE`, and no player has two slots. -/
theorem subgroups_kept (start : Start) (ops : List SubOp) (hstart : start.WellStored)
    (hops : Runs.EachStep subStep (fun s op => ∀ g, s = some g → op.Allowed g) start.group ops) :
    Runs.Along subStep (fun s => ∀ g, s = some g → g.SubGroupsKept) start.group ops := by
  have hseated : Runs.Along subStep (fun s => ∀ g, s = some g → g.Seated) start.group ops := by
    refine Runs.along_of_inv hops (fun g => Group.seated_start hstart) ?_
    intro s op hs hop g' hg'
    obtain ⟨g, rfl, hg⟩ := Option.bind_eq_some_iff.1 hg'
    exact (hs g rfl).subExec (hop g rfl) hg
  exact fun pre hpre g hg => (hseated pre hpre g hg).subGroupsKept

/-- A party before it is made. -/
def newParty : Group.Blank := ⟨7, 0, false, false, Table.empty MemberRow.memberGuid⟩

/-- A player of a low guid. -/
def lowPlayer (guid : UInt64) : Player := ⟨guid, "Anduin", true, 0⟩

/-- Two players form a party, convert it to a raid, and one of them moves to the fourth subgroup. -/
theorem subgroups_kept_pair :
    Runs.Along subStep (fun s => ∀ g, s = some g → g.SubGroupsKept)
      (Start.create newParty (lowPlayer 1)).group
      [.op (.addMember (lowPlayer 2)), .op .convertToRaid, .changeMembersGroup 2 3] := by
  refine subgroups_kept _ _ trivial ?_
  refine Runs.eachStep_cons.2 ⟨?_, Runs.eachStep_cons.2 ⟨?_, Runs.eachStep_cons.2 ⟨?_,
    Runs.EachStep.nil _⟩⟩⟩
  all_goals
    intro g hg
    obtain rfl := Option.some.inj hg
    decide

/-- Six players in a party, which is then converted to a raid. -/
def sixPlayers : List SubOp :=
  [.op (.addMember (lowPlayer 2)), .op (.addMember (lowPlayer 3)), .op (.addMember (lowPlayer 4)),
    .op (.addMember (lowPlayer 5)), .op (.addMember (lowPlayer 6)), .op .convertToRaid]

/-- `AddMember` takes a sixth player into a party, and all of them are in the first subgroup when
the party is converted to a raid. -/
theorem party_of_six :
    ¬ Runs.Along subStep (fun s => ∀ g, s = some g → g.SubGroupsKept)
      (Start.create newParty (lowPlayer 1)).group sixPlayers := by
  intro h
  obtain ⟨counts, hcounts, -, hget⟩ := (h _ List.prefix_rfl _ rfl).counts (by decide)
  obtain rfl := Option.some.inj hcounts
  exact absurd (hget 0 (by decide)).2 (by decide)

end FaceCore.Groups
