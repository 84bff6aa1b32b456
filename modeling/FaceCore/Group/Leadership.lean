import FaceCore.Group.Members

/-!
# The leader of a group

In every state of a group that is not disbanded the recorded leader is one of the members. When the
leader leaves, `RemoveMember` picks the first member who is online; if there is none, it keeps the
old leader, but then `m_memberMgr` is empty, and every kind of group is disbanded at that size.

* `LeaderIsMember`: the leader has a slot;
* `pickLeader_leaderIsMember`: a member who is online becomes the leader;
* `leader_is_member`: the leader has a slot along every run.
-/

namespace FaceCore.Groups

namespace Group

/-- The leader has a slot. -/
def LeaderIsMember (g : Group) : Prop := ∃ s ∈ g.memberSlots, s.guid = g.leaderGuid

variable {g g' : Group} {w : World} {guid : UInt64}

theorem leaderIsMember_iff : g.LeaderIsMember ↔ g.leaderGuid ∈ g.memberSlots.map MemberSlot.guid := by
  rw [List.mem_map]
  rfl

/-! ### Slots -/

theorem map_guid_modifySlot {f : MemberSlot → MemberSlot} (hf : ∀ s, (f s).guid = s.guid)
    (l : List MemberSlot) : (modifySlot guid f l).map MemberSlot.guid = l.map MemberSlot.guid := by
  induction l with
  | nil => rfl
  | cons s l ih =>
    unfold modifySlot
    split_ifs
    · simp [hf]
    · simp [ih]

theorem map_guid_switchFlag (flag : UInt8) (apply : Bool) :
    (g.switchFlag guid flag apply).memberSlots.map MemberSlot.guid =
      g.memberSlots.map MemberSlot.guid := by
  apply map_guid_modifySlot
  intro s
  rfl

theorem map_guid_removeUniqueGroupMemberFlag (flag : UInt8) :
    (g.removeUniqueGroupMemberFlag flag).memberSlots.map MemberSlot.guid =
      g.memberSlots.map MemberSlot.guid := by
  simp only [removeUniqueGroupMemberFlag, List.map_map]
  apply List.map_congr_left
  intro s _
  simp only [Function.comp_apply]
  split_ifs <;> rfl

theorem memberSlots_eraseSlot :
    (g.eraseSlot guid).memberSlots = g.memberSlots.eraseP (·.guid = guid) := by
  unfold eraseSlot getMemberWSlot
  cases h : g.memberSlots.find? fun s => s.guid = guid with
  | none =>
    rw [List.find?_eq_none] at h
    rw [List.eraseP_of_forall_not h]
  | some s => rfl

theorem leaderGuid_eraseSlot : (g.eraseSlot guid).leaderGuid = g.leaderGuid := by
  unfold eraseSlot
  cases g.getMemberWSlot guid <;> rfl

theorem LeaderIsMember.eraseSlot (h : g.LeaderIsMember) (hne : g.leaderGuid ≠ guid) :
    (g.eraseSlot guid).LeaderIsMember := by
  obtain ⟨s, hs, hleader⟩ := h
  unfold LeaderIsMember
  rw [memberSlots_eraseSlot, leaderGuid_eraseSlot]
  refine ⟨s, ?_, hleader⟩
  rw [List.mem_eraseP_of_neg]
  · exact hs
  · simpa [hleader] using hne

/-! ### The new leader -/

/-- `ChangeLeader` changes nothing, or makes a member the leader. -/
theorem changeLeader_cases (g : Group) (w : World) (guid : UInt64) :
    (g.changeLeader w guid = g ∧
        ((∃ s ∈ g.memberSlots, s.guid = guid) → w.findPlayer guid = none)) ∨
      (∃ s ∈ g.memberSlots, s.guid = guid) ∧ (w.findPlayer guid).isSome ∧
        g.changeLeader w guid =
          { g.switchFlag guid memberFlagAssistant false with
            leaderGuid := guid, leaderName := (g.changeLeader w guid).leaderName } := by
  unfold changeLeader
  cases hslot : g.getMemberWSlot guid with
  | none =>
    refine .inl ⟨rfl, ?_⟩
    rintro ⟨s, hs, hguid⟩
    exact absurd (decide_eq_true hguid) (List.find?_eq_none.1 hslot s hs)
  | some slot =>
    have hfound := List.find?_some hslot
    have hguid : slot.guid = guid := of_decide_eq_true hfound
    have hmem : ∃ s ∈ g.memberSlots, s.guid = guid := ⟨slot, List.mem_of_find?_eq_some hslot, hguid⟩
    dsimp only
    rw [hguid]
    cases hplayer : w.findPlayer guid with
    | none => exact .inl ⟨rfl, fun _ => rfl⟩
    | some player =>
      obtain rfl := (Table.of_find hplayer).2
      exact .inr ⟨hmem, rfl, rfl⟩

theorem LeaderIsMember.changeLeader (h : g.LeaderIsMember) :
    (g.changeLeader w guid).LeaderIsMember := by
  rcases changeLeader_cases g w guid with ⟨heq, -⟩ | ⟨⟨s, hs, hguid⟩, -, heq⟩
  · rwa [heq]
  · rw [leaderIsMember_iff, heq]
    show guid ∈ (g.switchFlag guid memberFlagAssistant false).memberSlots.map MemberSlot.guid
    rw [map_guid_switchFlag, ← hguid]
    exact List.mem_map_of_mem hs

theorem pickLeader_leaderIsMember (h : g.leaderGuid ≠ guid → g.LeaderIsMember)
    (honline : ∃ s ∈ g.memberSlots, (w.findPlayer s.guid).isSome) :
    (g.pickLeader w guid).LeaderIsMember := by
  unfold pickLeader
  split_ifs with hguid
  · cases hfind : g.memberSlots.find? fun s => (w.findPlayer s.guid).isSome with
    | none =>
      obtain ⟨s, hs, hsome⟩ := honline
      exact absurd hsome (List.find?_eq_none.1 hfind s hs)
    | some s =>
      have hs := List.mem_of_find?_eq_some hfind
      have hsome := List.find?_some hfind
      dsimp only
      rcases changeLeader_cases g w s.guid with ⟨-, hnone⟩ | ⟨-, -, heq⟩
      · rw [hnone ⟨s, hs, rfl⟩] at hsome
        cases hsome
      · rw [leaderIsMember_iff, heq]
        show s.guid ∈ (g.switchFlag s.guid memberFlagAssistant false).memberSlots.map
          MemberSlot.guid
        rw [map_guid_switchFlag]
        exact List.mem_map_of_mem hs
  · exact h hguid

theorem map_guid_pickLeader :
    (g.pickLeader w guid).memberSlots.map MemberSlot.guid =
      g.memberSlots.map MemberSlot.guid := by
  unfold pickLeader
  split_ifs
  · cases g.memberSlots.find? fun s => (w.findPlayer s.guid).isSome with
    | none => rfl
    | some s =>
      dsimp only
      rcases changeLeader_cases g w s.guid with ⟨heq, -⟩ | ⟨-, -, heq⟩
      · rw [heq]
      · rw [heq]
        exact map_guid_switchFlag memberFlagAssistant false
  · rfl

theorem memberMgrSize_eq_zero (h : ¬ ∃ s ∈ g.memberSlots, (w.findPlayer s.guid).isSome) :
    g.memberMgrSize w = 0 := by
  unfold memberMgrSize
  rw [List.length_eq_zero_iff, List.filter_eq_nil_iff]
  intro guid hguid hsome
  obtain ⟨s, hs, rfl⟩ := List.mem_map.1 (List.mem_dedup.1 hguid)
  exact h ⟨s, hs, hsome⟩

/-- After a member is taken out, the leader has a slot, or nobody is online. -/
theorem LeaderIsMember.takeOut (h : g.LeaderIsMember)
    (hlinked : (g.takeOut w guid).memberMgrSize w ≠ 0) : (g.takeOut w guid).LeaderIsMember := by
  unfold Group.takeOut at hlinked ⊢
  generalize hrows : (if g.isBGGroup || g.isBFGroup then g
    else { g with rows := g.rows.erase (lowPart guid) }) = g₁ at hlinked ⊢
  have hg₁ : g₁.LeaderIsMember := by
    rw [← hrows]
    split_ifs <;> exact h
  apply pickLeader_leaderIsMember
  · intro hne
    rw [leaderGuid_eraseSlot] at hne
    exact hg₁.eraseSlot hne
  · by_contra hoff
    apply hlinked
    apply memberMgrSize_eq_zero
    rintro ⟨s, hs, hsome⟩
    have hguid := List.mem_map_of_mem (f := MemberSlot.guid) hs
    rw [map_guid_pickLeader] at hguid
    obtain ⟨s', hs', heq⟩ := List.mem_map.1 hguid
    exact hoff ⟨s', hs', heq ▸ hsome⟩

/-- A group that goes on after `RemoveMember` is led by a member. -/
theorem LeaderIsMember.removeMember {method : RemoveMethod} (h : g.LeaderIsMember)
    (he : g.removeMember w guid method = some g') : g'.LeaderIsMember := by
  unfold Group.removeMember at he
  split_ifs at he with hkick hcount
  · exact Option.some.inj he ▸ h
  · dsimp only at he
    split_ifs at he with hgone
    obtain rfl := Option.some.inj he
    apply h.takeOut
    intro hzero
    have hmin : 0 < (g.takeOut w guid).minReferences := by
      unfold minReferences
      split_ifs <;> decide
    exact hgone (.inr (hzero ▸ hmin))

/-- `AddMember` refuses, or appends a slot. -/
theorem addMember_cases (g : Group) (player : Player) :
    g.addMember player = (g, false) ∨
      ∃ slot : MemberSlot, slot.guid = player.guid ∧ (g.addMember player).2 = true ∧
        (g.addMember player).1.memberSlots = g.memberSlots ++ [slot] ∧
        (g.addMember player).1.leaderGuid = g.leaderGuid := by
  unfold addMember
  cases g.freeSubGroup with
  | none => exact .inl rfl
  | some subGroup =>
    refine .inr ⟨⟨player.guid, player.name, subGroup, 0, 0⟩, rfl, rfl, ?_⟩
    dsimp only
    unfold insGroupMember
    split_ifs <;> exact ⟨rfl, rfl⟩

theorem LeaderIsMember.addMember {player : Player} (h : g.LeaderIsMember) :
    (g.addMember player).1.LeaderIsMember := by
  rcases addMember_cases g player with heq | ⟨slot, -, -, hslots, hleader⟩
  · rwa [heq]
  · obtain ⟨s, hs, hguid⟩ := h
    unfold LeaderIsMember
    rw [hslots, hleader]
    exact ⟨s, List.mem_append_left _ hs, hguid⟩

theorem LeaderIsMember.removeUniqueGroupMemberFlag {flag : UInt8} (h : g.LeaderIsMember) :
    (g.removeUniqueGroupMemberFlag flag).LeaderIsMember := by
  rw [leaderIsMember_iff, map_guid_removeUniqueGroupMemberFlag]
  exact leaderIsMember_iff.1 h

theorem LeaderIsMember.writeMemberFlag {flag : UInt8} {apply : Bool} (h : g.LeaderIsMember) :
    (g.writeMemberFlag guid apply flag).LeaderIsMember := by
  have htoggle : (g.switchFlag guid flag apply).LeaderIsMember := by
    rw [leaderIsMember_iff, map_guid_switchFlag]
    exact leaderIsMember_iff.1 h
  unfold Group.writeMemberFlag
  dsimp only
  split
  · exact htoggle
  · exact htoggle

theorem LeaderIsMember.setGroupMemberFlag {flag : UInt8} {apply : Bool} (h : g.LeaderIsMember) :
    (g.setGroupMemberFlag guid apply flag).LeaderIsMember := by
  unfold Group.setGroupMemberFlag
  cases g.getMemberWSlot guid with
  | none =>
    dsimp only
    split_ifs <;> exact h
  | some slot =>
    dsimp only
    split_ifs
    · exact h
    · exact h.removeUniqueGroupMemberFlag.writeMemberFlag
    · exact h.removeUniqueGroupMemberFlag.writeMemberFlag
    · exact h.writeMemberFlag
    · exact h

theorem LeaderIsMember.exec {op : Op} (h : g.LeaderIsMember) (he : g.exec op = some g') :
    g'.LeaderIsMember := by
  cases op with
  | removeMember w guid method => exact h.removeMember he
  | disband => cases he
  | addMember player => exact Option.some.inj he ▸ h.addMember
  | changeLeader w guid => exact Option.some.inj he ▸ h.changeLeader
  | convertToLFG => exact Option.some.inj he ▸ h
  | convertToRaid => exact Option.some.inj he ▸ h
  | setGroupMemberFlag guid apply flag => exact Option.some.inj he ▸ h.setGroupMemberFlag
  | removeUniqueGroupMemberFlag flag =>
    exact Option.some.inj he ▸ h.removeUniqueGroupMemberFlag

theorem create_leaderIsMember {b : Blank} {leader : Player} (h : create b leader = some g) :
    g.LeaderIsMember := by
  have hadd : ∀ g₀ : Group, g₀.leaderGuid = leader.guid →
      (g₀.addMember leader).2 = true → (g₀.addMember leader).1.LeaderIsMember := by
    intro g₀ h₀ hflag
    rcases addMember_cases g₀ leader with heq | ⟨slot, hguid, -, hslots, hleader⟩
    · rw [heq] at hflag
      cases hflag
    · unfold LeaderIsMember
      rw [hslots, hleader, h₀]
      exact ⟨slot, List.mem_append_right _ List.mem_cons_self, hguid⟩
  unfold create at h
  dsimp only at h
  split at h
  next g₁ heq =>
    obtain rfl := Option.some.inj h
    rw [← show _ = g₁ from congrArg Prod.fst heq]
    apply hadd
    · split_ifs <;> rfl
    · exact congrArg Prod.snd heq
  · cases h

end Group

/-- **Main result.** Whatever happens to a group after its creation, as long as it is not disbanded
its leader is one of its members. -/
theorem leader_is_member (b : Group.Blank) (leader : Player) (ops : List Op) :
    Runs.Along step (fun s => ∀ g, s = some g → g.LeaderIsMember) (Group.create b leader) ops := by
  have hany : Runs.EachStep step (fun _ _ => True) (Group.create b leader) ops :=
    fun _ _ _ => trivial
  refine Runs.along_of_inv hany (fun g => Group.create_leaderIsMember) ?_
  intro s op hs _ g' hg'
  obtain ⟨g, rfl, he⟩ := Option.bind_eq_some_iff.1 hg'
  exact (hs g rfl).exec he

end FaceCore.Groups
