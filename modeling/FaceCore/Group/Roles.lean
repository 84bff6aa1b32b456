import FaceCore.Group.Leadership
import FaceCore.Lib.Flags

/-!
# The roles of a raid

The flags of the members of a raid group, in memory and in `group_member`: `SetGroupMemberFlag`,
`RemoveUniqueGroupMemberFlag` and `ChangeLeader`. A row is written only for the member whom
`SetGroupMemberFlag` names; the flags that it takes from others, like those that
`RemoveUniqueGroupMemberFlag` and `ChangeLeader` take, stay in their rows.

* `RolesKept`: at most one main tank and one main assist, and the flags are those of the rows;
* `TakesNothing`: an operation takes no flag from a member whose row it does not write;
* `raid_roles_kept_iff`: the roles are kept along a run exactly when no operation of it does.
-/

namespace FaceCore.Groups

namespace Group

/-- `Group::LoadMemberFromDB`, for a player of the name `name`. -/
def loadMemberFromDB (row : MemberRow) (name : String) : MemberSlot :=
  ⟨row.memberGuid.toUInt64, name, row.subgroup, row.memberFlags, row.roles⟩

/-- At most one member has the flag. -/
def AtMostOne (g : Group) (flag : UInt8) : Prop :=
  ∀ s ∈ g.memberSlots, ∀ t ∈ g.memberSlots,
    s.flags &&& flag ≠ 0 → t.flags &&& flag ≠ 0 → s.guid = t.guid

/-- The row of a member gives his flags when it is loaded. -/
def StoredSlot (rows : Table MemberRow.memberGuid) (s : MemberSlot) : Prop :=
  ∃ row, rows.find (lowPart s.guid) = some row ∧ (loadMemberFromDB row s.name).flags = s.flags

/-- The roles are unique, and stored. -/
structure RolesKept (g : Group) : Prop where
  mainTank : g.AtMostOne memberFlagMainTank
  mainAssist : g.AtMostOne memberFlagMainAssist
  stored : ∀ s ∈ g.memberSlots, StoredSlot g.rows s

/-- No player has two slots, and players are told apart by the low part of their guids. -/
def DistinctMembers (g : Group) : Prop := (g.memberSlots.map fun s => lowPart s.guid).Nodup

end Group

/-- An operation on the roles. -/
inductive RoleOp
  | setGroupMemberFlag (guid : UInt64) (apply : Bool) (flag : UInt8)
  | removeUniqueGroupMemberFlag (flag : UInt8)
  | changeLeader (w : World) (guid : UInt64)

/-- The group after an operation on the roles. -/
def roleStep (g : Group) : RoleOp → Group
  | .setGroupMemberFlag guid apply flag => g.setGroupMemberFlag guid apply flag
  | .removeUniqueGroupMemberFlag flag => g.removeUniqueGroupMemberFlag flag
  | .changeLeader w guid => g.changeLeader w guid

/-- The operation takes no flag from a member whose row it does not write: main tank and main assist
are given while no other member has the flag, a unique flag is removed while nobody has it, and the
new leader is no assistant. -/
def TakesNothing (g : Group) : RoleOp → Prop
  | .setGroupMemberFlag guid _ flag =>
    g.isRaidGroup = true → (∃ s ∈ g.memberSlots, s.guid = guid) →
      (flag = memberFlagMainAssist ∨ flag = memberFlagMainTank) →
        ∀ s ∈ g.memberSlots, s.guid ≠ guid → s.flags &&& flag = 0
  | .removeUniqueGroupMemberFlag flag => ∀ s ∈ g.memberSlots, s.flags &&& flag = 0
  | .changeLeader w guid =>
    (w.findPlayer guid).isSome → ∀ s ∈ g.memberSlots, s.guid = guid →
      s.flags &&& memberFlagAssistant = 0

/-! ### Slots and rows -/

namespace Group

variable {g : Group} {guid : UInt64} {flag : UInt8} {apply : Bool} {w : World} {s : MemberSlot}

theorem forall_mem_modifySlot {f : MemberSlot → MemberSlot} {l : List MemberSlot}
    {P : MemberSlot → Prop} (hnd : (l.map MemberSlot.guid).Nodup) :
    (∀ s ∈ modifySlot guid f l, P s) ↔ ∀ s ∈ l, P (if s.guid = guid then f s else s) := by
  induction l with
  | nil => simp [modifySlot]
  | cons s l ih =>
    rw [List.map_cons, List.nodup_cons] at hnd
    unfold modifySlot
    split_ifs with hguid
    · have hrest : ∀ t ∈ l, t.guid ≠ guid := by
        rintro t ht rfl
        exact hnd.1 (hguid ▸ List.mem_map_of_mem ht)
      simp only [List.forall_mem_cons, hguid, if_true]
      refine and_congr_right fun _ => forall₂_congr fun t ht => ?_
      rw [if_neg (hrest t ht)]
    · simp only [List.forall_mem_cons, hguid, if_false]
      rw [ih hnd.2]

theorem find_modifySlot {f : MemberSlot → MemberSlot} (hf : ∀ s, (f s).guid = s.guid)
    (l : List MemberSlot) :
    (modifySlot guid f l).find? (fun s => s.guid = guid) =
      (l.find? fun s => s.guid = guid).map f := by
  induction l with
  | nil => rfl
  | cons s l ih =>
    unfold modifySlot
    split_ifs with hguid
    · simp [hf, hguid]
    · simp [hguid, ih]

theorem DistinctMembers.nodup_guid (h : g.DistinctMembers) :
    (g.memberSlots.map MemberSlot.guid).Nodup := by
  unfold DistinctMembers at h
  rw [show (fun s : MemberSlot => lowPart s.guid) = lowPart ∘ MemberSlot.guid from rfl,
    ← List.map_map] at h
  exact h.of_map lowPart

theorem DistinctMembers.lowPart_ne (h : g.DistinctMembers) {t : MemberSlot}
    (hs : s ∈ g.memberSlots) (ht : t ∈ g.memberSlots) (hne : s.guid ≠ t.guid) :
    lowPart s.guid ≠ lowPart t.guid := by
  intro heq
  exact hne (congrArg MemberSlot.guid (List.inj_on_of_nodup_map h hs ht heq))

/-- The flags of a slot after `RemoveUniqueGroupMemberFlag`. -/
def cleared (flag : UInt8) (s : MemberSlot) : MemberSlot :=
  { s with flags := s.flags &&& ~~~flag }

theorem memberSlots_removeUniqueGroupMemberFlag :
    (g.removeUniqueGroupMemberFlag flag).memberSlots = g.memberSlots.map (cleared flag) := by
  apply List.map_congr_left
  intro s _
  split_ifs with h
  · rfl
  · unfold cleared
    rw [(Flags.and_not_eq_self_iff _ _).2 (not_ne_iff.1 h)]

theorem writeMemberFlag_spec (apply : Bool) (flag : UInt8) (hd : g.DistinctMembers)
    (hs : s ∈ g.memberSlots) (hguid : s.guid = guid) :
    (∀ P : MemberSlot → Prop, (∀ t ∈ (g.writeMemberFlag guid apply flag).memberSlots, P t) ↔
        ∀ t ∈ g.memberSlots, P (if t.guid = guid then toggleGroupMemberFlag flag apply t else t)) ∧
      ∀ k, (g.writeMemberFlag guid apply flag).rows.find k = if k = lowPart guid then
        (g.rows.find k).map fun row => { row with memberFlags := (toggleGroupMemberFlag flag apply s).flags }
        else g.rows.find k := by
  have hfind : g.getMemberWSlot guid = some s := by
    unfold getMemberWSlot
    cases h : g.memberSlots.find? fun s => s.guid = guid with
    | none => exact absurd (decide_eq_true hguid) (List.find?_eq_none.1 h s hs)
    | some t =>
      have ht := List.find?_some h
      have heq : t.guid = s.guid := (of_decide_eq_true ht).trans hguid.symm
      rw [List.inj_on_of_nodup_map hd.nodup_guid (List.mem_of_find?_eq_some h) hs heq]
  have hslot : (g.switchFlag guid flag apply).getMemberWSlot guid =
      some (toggleGroupMemberFlag flag apply s) := by
    have hkeep : ∀ t, (toggleGroupMemberFlag flag apply t).guid = t.guid := fun _ => rfl
    refine (find_modifySlot hkeep g.memberSlots).trans ?_
    rw [show (g.memberSlots.find? fun s => s.guid = guid) = some s from hfind]
    rfl
  have hwrite : g.writeMemberFlag guid apply flag = (g.switchFlag guid flag apply).updGroupMemberFlag
      guid (toggleGroupMemberFlag flag apply s).flags := by
    unfold writeMemberFlag
    simp only [hslot]
  rw [hwrite]
  refine ⟨fun P => forall_mem_modifySlot hd.nodup_guid, fun k => ?_⟩
  have hrow : ∀ row : MemberRow, MemberRow.memberGuid
      { row with memberFlags := (toggleGroupMemberFlag flag apply s).flags } = row.memberGuid :=
    fun _ => rfl
  refine (Table.find_modify hrow).trans ?_
  split_ifs with hk
  · rw [hk]
    rfl
  · rfl

/-! ### One operation -/

/-- Clearing a flag of everybody keeps a flag unique. -/
theorem AtMostOne.removeUnique {other : UInt8} (h : g.AtMostOne other) :
    (g.removeUniqueGroupMemberFlag flag).AtMostOne other := by
  have hsub : ∀ x : UInt8, x &&& ~~~flag &&& other ≠ 0 → x &&& other ≠ 0 := by
    intro x hne hzero
    apply hne
    rw [UInt8.and_assoc, UInt8.and_comm (~~~flag), ← UInt8.and_assoc, hzero, UInt8.zero_and]
  unfold AtMostOne
  rw [memberSlots_removeUniqueGroupMemberFlag]
  simp only [List.forall_mem_map]
  intro s hs t ht hsf htf
  exact h s hs t ht (hsub _ hsf) (hsub _ htf)

theorem DistinctMembers.of_map_guid {g' : Group} (h : g.DistinctMembers)
    (hmap : g'.memberSlots.map MemberSlot.guid = g.memberSlots.map MemberSlot.guid) :
    g'.DistinctMembers := by
  unfold DistinctMembers at h ⊢
  rw [show (fun s : MemberSlot => lowPart s.guid) = lowPart ∘ MemberSlot.guid from rfl,
    ← List.map_map] at h ⊢
  rwa [hmap]

/-- A stored slot is stored without the flag exactly if it does not have it. -/
theorem storedSlot_cleared_iff {rows : Table MemberRow.memberGuid} (h : StoredSlot rows s) :
    StoredSlot rows (cleared flag s) ↔ s.flags &&& flag = 0 := by
  obtain ⟨row, hrow, hflags⟩ := h
  rw [← Flags.and_not_eq_self_iff]
  constructor
  · rintro ⟨row', hrow', hflags'⟩
    obtain rfl := Option.some.inj (hrow.symm.trans hrow')
    exact hflags'.symm.trans hflags
  · intro heq
    exact ⟨row, hrow, hflags.trans heq.symm⟩

theorem toggleGroupMemberFlag_and {other : UInt8} (hd : flag &&& other = 0)
    (hd' : ~~~flag &&& other = other) :
    (toggleGroupMemberFlag flag apply s).flags &&& other = s.flags &&& other := by
  unfold toggleGroupMemberFlag
  dsimp only
  split_ifs
  · exact Flags.or_and_of_disjoint hd
  · exact Flags.and_not_and_of_disjoint hd'

/-- Switching a flag of one member keeps another flag unique. -/
theorem AtMostOne.switchFlag {other : UInt8} (h : g.AtMostOne other) (hd : flag &&& other = 0)
    (hd' : ~~~flag &&& other = other) : (g.switchFlag guid flag apply).AtMostOne other := by
  have hof : ∀ l : List MemberSlot,
      ∀ t ∈ modifySlot guid (toggleGroupMemberFlag flag apply) l, ∃ s ∈ l, t.guid = s.guid ∧
        t.flags &&& other = s.flags &&& other := by
    intro l
    induction l with
    | nil => exact nofun
    | cons s l ih =>
      intro t ht
      unfold modifySlot at ht
      split_ifs at ht
      · rcases List.mem_cons.1 ht with rfl | ht
        · exact ⟨s, List.mem_cons_self, rfl, toggleGroupMemberFlag_and hd hd'⟩
        · exact ⟨t, List.mem_cons_of_mem s ht, rfl, rfl⟩
      · rcases List.mem_cons.1 ht with rfl | ht
        · exact ⟨t, List.mem_cons_self, rfl, rfl⟩
        · obtain ⟨u, hu, hrest⟩ := ih t ht
          exact ⟨u, List.mem_cons_of_mem s hu, hrest⟩
  intro s hs t ht hsf htf
  obtain ⟨s', hs', hsg, hs₂⟩ := hof _ s hs
  obtain ⟨t', ht', htg, ht₂⟩ := hof _ t ht
  rw [hs₂] at hsf
  rw [ht₂] at htf
  rw [hsg, htg]
  exact h s' hs' t' ht' hsf htf

theorem memberSlots_writeMemberFlag : (g.writeMemberFlag guid apply flag).memberSlots =
    (g.switchFlag guid flag apply).memberSlots := by
  unfold writeMemberFlag
  dsimp only
  split <;> rfl

/-- A flag that nobody else has is unique when it is switched. -/
theorem atMostOne_writeMemberFlag (hd : g.DistinctMembers) (hs : s ∈ g.memberSlots)
    (hguid : s.guid = guid) (h : ∀ t ∈ g.memberSlots, t.guid ≠ guid → t.flags &&& flag = 0) :
    (g.writeMemberFlag guid apply flag).AtMostOne flag := by
  have hall : ∀ t ∈ (g.writeMemberFlag guid apply flag).memberSlots,
      t.flags &&& flag ≠ 0 → t.guid = guid := by
    rw [(writeMemberFlag_spec apply flag hd hs hguid).1]
    intro t ht
    split_ifs with htg
    · exact fun _ => htg
    · exact fun hne => absurd (h t ht htg) hne
  intro t ht u hu htf huf
  rw [hall t ht htf, hall u hu huf]

/-- What `writeMemberFlag` leaves is stored exactly if the others were. -/
theorem stored_writeMemberFlag_iff (hd : g.DistinctMembers) (hs : s ∈ g.memberSlots)
    (hguid : s.guid = guid) (hrow : (g.rows.find (lowPart guid)).isSome) :
    (∀ t ∈ (g.writeMemberFlag guid apply flag).memberSlots,
        StoredSlot (g.writeMemberFlag guid apply flag).rows t) ↔
      ∀ t ∈ g.memberSlots, t.guid ≠ guid → StoredSlot g.rows t := by
  obtain ⟨hslots, hrows⟩ := writeMemberFlag_spec apply flag hd hs hguid
  rw [hslots]
  refine forall₂_congr fun t ht => ?_
  split_ifs with htg
  · refine iff_of_true ?_ fun hne => absurd htg hne
    obtain ⟨row, hrow⟩ := Option.isSome_iff_exists.1 hrow
    have hts : t = s := List.inj_on_of_nodup_map hd.nodup_guid ht hs (htg.trans hguid.symm)
    have hlow : lowPart (toggleGroupMemberFlag flag apply t).guid = lowPart guid :=
      congrArg lowPart htg
    refine ⟨{ row with memberFlags := (toggleGroupMemberFlag flag apply s).flags }, ?_, ?_⟩
    · rw [hrows, hlow, if_pos rfl, hrow]
      rfl
    · rw [hts]
      rfl
  · have hlow : lowPart t.guid ≠ lowPart guid := by
      rw [← hguid]
      exact hd.lowPart_ne ht hs (hguid ▸ htg)
    unfold StoredSlot
    rw [hrows, if_neg hlow]
    simp [htg]

/-- A flag that only one member can have. -/
def IsUnique (flag : UInt8) : Prop := flag = memberFlagMainAssist ∨ flag = memberFlagMainTank

/-- Giving a unique flag keeps every unique flag unique. -/
theorem AtMostOne.giveUnique {other : UInt8} (h : g.AtMostOne other) (hd : g.DistinctMembers)
    (hs : s ∈ g.memberSlots) (hguid : s.guid = guid) (hflag : IsUnique flag)
    (hother : IsUnique other) :
    ((g.removeUniqueGroupMemberFlag flag).writeMemberFlag guid apply flag).AtMostOne other := by
  by_cases heq : flag = other
  · -- the flag itself is unique, whoever had it
    subst heq
    refine atMostOne_writeMemberFlag (s := cleared flag s)
      (hd.of_map_guid (map_guid_removeUniqueGroupMemberFlag flag)) ?_ hguid ?_
    · rw [memberSlots_removeUniqueGroupMemberFlag]
      exact List.mem_map_of_mem hs
    · rw [memberSlots_removeUniqueGroupMemberFlag]
      simp only [List.forall_mem_map]
      intro t _ _
      simp [cleared, UInt8.and_assoc]
  · unfold AtMostOne
    rw [memberSlots_writeMemberFlag]
    have hdis : flag &&& other = 0 ∧ ~~~flag &&& other = other := by
      rcases hflag with rfl | rfl <;> rcases hother with rfl | rfl <;>
        first | exact absurd rfl heq | decide
    exact h.removeUnique.switchFlag hdis.1 hdis.2

theorem AtMostOne.roleStep {other : UInt8} (h : g.AtMostOne other) (hd : g.DistinctMembers)
    (hother : IsUnique other) (op : RoleOp) : (roleStep g op).AtMostOne other := by
  have hassistant : memberFlagAssistant &&& other = 0 ∧ ~~~memberFlagAssistant &&& other = other := by
    rcases hother with rfl | rfl <;> decide
  cases op with
  | setGroupMemberFlag guid apply flag =>
    simp only [Groups.roleStep, setGroupMemberFlag]
    cases hslot : g.getMemberWSlot guid with
    | none =>
      dsimp only
      split_ifs <;> exact h
    | some s =>
      have hs : s ∈ g.memberSlots := List.mem_of_find?_eq_some hslot
      have hfound := List.find?_some hslot
      have hguid : s.guid = guid := of_decide_eq_true hfound
      dsimp only
      split_ifs with _ hassist htank hflag
      · exact h
      · exact hassist ▸ h.giveUnique hd hs hguid (.inl hassist) hother
      · exact htank ▸ h.giveUnique hd hs hguid (.inr htank) hother
      · unfold AtMostOne
        rw [memberSlots_writeMemberFlag, hflag]
        exact h.switchFlag hassistant.1 hassistant.2
      · exact h
  | removeUniqueGroupMemberFlag flag => exact h.removeUnique
  | changeLeader w guid =>
    simp only [Groups.roleStep]
    rcases changeLeader_cases g w guid with ⟨heq, -⟩ | ⟨-, -, heq⟩
    · rwa [heq]
    · rw [heq]
      exact h.switchFlag hassistant.1 hassistant.2

/-- A unique flag is given with the flags stored exactly when nobody else has it. -/
theorem stored_giveUnique_iff (hd : g.DistinctMembers)
    (h : ∀ t ∈ g.memberSlots, StoredSlot g.rows t) (hs : s ∈ g.memberSlots) (hguid : s.guid = guid) :
    (∀ t ∈ ((g.removeUniqueGroupMemberFlag flag).writeMemberFlag guid apply flag).memberSlots,
        StoredSlot ((g.removeUniqueGroupMemberFlag flag).writeMemberFlag guid apply flag).rows t) ↔
      ∀ t ∈ g.memberSlots, t.guid ≠ guid → t.flags &&& flag = 0 := by
  have hslots : (g.removeUniqueGroupMemberFlag flag).memberSlots =
      g.memberSlots.map (cleared flag) := memberSlots_removeUniqueGroupMemberFlag
  have hs' : cleared flag s ∈ (g.removeUniqueGroupMemberFlag flag).memberSlots := by
    rw [hslots]
    exact List.mem_map_of_mem hs
  have hrow : (g.rows.find (lowPart guid)).isSome := by
    obtain ⟨row, hrow, -⟩ := h s hs
    rw [← hguid, hrow]
    rfl
  rw [stored_writeMemberFlag_iff (hd.of_map_guid (map_guid_removeUniqueGroupMemberFlag flag)) hs'
    hguid hrow, hslots, List.forall_mem_map]
  refine forall₂_congr fun t ht => imp_congr_right fun _ => ?_
  exact storedSlot_cleared_iff (h t ht)

end Group

/-- One operation keeps the flags stored exactly when it takes nothing without writing it. -/
theorem stored_roleStep_iff {g : Group} (op : RoleOp) (hd : g.DistinctMembers)
    (h : ∀ s ∈ g.memberSlots, Group.StoredSlot g.rows s) :
    (∀ s ∈ (roleStep g op).memberSlots, Group.StoredSlot (roleStep g op).rows s) ↔
      TakesNothing g op := by
  cases op with
  | setGroupMemberFlag guid apply flag =>
    simp only [roleStep, TakesNothing, Group.setGroupMemberFlag]
    cases hslot : g.getMemberWSlot guid with
    | none =>
      have hnone : ¬ ∃ s ∈ g.memberSlots, s.guid = guid := by
        rintro ⟨s, hs, hguid⟩
        exact absurd (decide_eq_true hguid) (List.find?_eq_none.1 hslot s hs)
      simp only [hnone, false_implies, implies_true, iff_true]
      split_ifs <;> exact h
    | some s =>
      have hs : s ∈ g.memberSlots := List.mem_of_find?_eq_some hslot
      have hfound := List.find?_some hslot
      have hguid : s.guid = guid := of_decide_eq_true hfound
      have hsome : ∃ s ∈ g.memberSlots, s.guid = guid := ⟨s, hs, hguid⟩
      simp only [hsome, true_implies]
      split_ifs with hraid hassist htank hassistant
      · simp only [Bool.not_eq_true'] at hraid
        exact iff_of_true h fun htrue => absurd htrue (by simp [hraid])
      · simp only [Bool.not_eq_true', Bool.not_eq_false] at hraid
        simp only [hraid, hassist, true_or, true_implies]
        exact Group.stored_giveUnique_iff hd h hs hguid
      · simp only [Bool.not_eq_true', Bool.not_eq_false] at hraid
        simp only [hraid, htank, or_true, true_implies]
        exact Group.stored_giveUnique_iff hd h hs hguid
      · refine iff_of_true ?_ fun _ hor => absurd hor (by simp [hassist, htank])
        obtain ⟨row, hrow, -⟩ := h s hs
        rw [Group.stored_writeMemberFlag_iff hd hs hguid (by rw [← hguid, hrow]; rfl)]
        exact fun t ht _ => h t ht
      · exact iff_of_true h fun _ hor => absurd hor (by simp [hassist, htank])
  | removeUniqueGroupMemberFlag flag =>
    have hslots : (g.removeUniqueGroupMemberFlag flag).memberSlots =
        g.memberSlots.map (Group.cleared flag) := Group.memberSlots_removeUniqueGroupMemberFlag
    simp only [roleStep]
    rw [hslots, List.forall_mem_map]
    exact forall₂_congr fun t ht => Group.storedSlot_cleared_iff (h t ht)
  | changeLeader w guid =>
    simp only [roleStep, TakesNothing]
    rcases Group.changeLeader_cases g w guid with ⟨heq, hnone⟩ | ⟨-, honline, heq⟩
    · rw [heq]
      refine iff_of_true h fun honline s hs hguid => ?_
      rw [hnone ⟨s, hs, hguid⟩] at honline
      cases honline
    · simp only [honline, true_implies]
      rw [heq]
      refine (Group.forall_mem_modifySlot (P := Group.StoredSlot g.rows) hd.nodup_guid).trans ?_
      refine forall₂_congr fun t ht => ?_
      split_ifs with hguid
      · rw [forall_prop_of_true hguid]
        exact Group.storedSlot_cleared_iff (h t ht)
      · exact iff_of_true (h t ht) fun heq => absurd heq hguid

/-- No operation on the roles gives a player a second slot. -/
theorem distinctMembers_roleStep {g : Group} (op : RoleOp) (hd : g.DistinctMembers) :
    (roleStep g op).DistinctMembers := by
  have hwrite : ∀ {g : Group} {guid : UInt64} {apply : Bool} {flag : UInt8}, g.DistinctMembers →
      (g.writeMemberFlag guid apply flag).DistinctMembers := by
    intro g guid apply flag hd
    apply hd.of_map_guid
    rw [Group.memberSlots_writeMemberFlag]
    exact Group.map_guid_switchFlag flag apply
  have hremove : ∀ flag, (g.removeUniqueGroupMemberFlag flag).DistinctMembers := by
    intro flag
    exact hd.of_map_guid (Group.map_guid_removeUniqueGroupMemberFlag flag)
  cases op with
  | setGroupMemberFlag guid apply flag =>
    simp only [roleStep, Group.setGroupMemberFlag]
    cases g.getMemberWSlot guid with
    | none =>
      dsimp only
      split_ifs <;> exact hd
    | some s =>
      dsimp only
      split_ifs
      · exact hd
      · exact hwrite (hremove _)
      · exact hwrite (hremove _)
      · exact hwrite hd
      · exact hd
  | removeUniqueGroupMemberFlag flag => exact hremove flag
  | changeLeader w guid =>
    simp only [roleStep]
    rcases Group.changeLeader_cases g w guid with ⟨heq, -⟩ | ⟨-, -, heq⟩
    · rwa [heq]
    · rw [heq]
      exact hd.of_map_guid (Group.map_guid_switchFlag memberFlagAssistant false)

/-- **Main result.** Main tank and main assist stay unique, and the flags of the members those of
their rows, along a run exactly when every operation takes nothing without writing it. -/
theorem raid_roles_kept_iff (g : Group) (ops : List RoleOp) (hd : g.DistinctMembers)
    (h : g.RolesKept) :
    Runs.Along roleStep Group.RolesKept g ops ↔ Runs.EachStep roleStep TakesNothing g ops := by
  apply Runs.along_iff_eachStep hd h
  · exact fun g op hd _ _ => distinctMembers_roleStep op hd
  · intro g op hd h
    constructor
    · intro hkept
      exact (stored_roleStep_iff op hd h.stored).1 hkept.stored
    · intro htakes
      exact ⟨h.mainTank.roleStep hd (.inr rfl) op, h.mainAssist.roleStep hd (.inl rfl) op,
        (stored_roleStep_iff op hd h.stored).2 htakes⟩

/-- Two members of a raid, as they were added. -/
def raidRows : Table MemberRow.memberGuid := ⟨[⟨7, 1, 0, 0, 0⟩, ⟨7, 2, 0, 0, 0⟩], by decide⟩

/-- A raid of two members without roles. -/
def twoMemberRaid : Group where
  dbStoreId := 7
  leaderGuid := 1
  leaderName := "Jaina"
  groupType := groupTypeRaid
  isBGGroup := false
  isBFGroup := false
  memberSlots := [⟨1, "Jaina", 0, 0, 0⟩, ⟨2, "Thrall", 0, 0, 0⟩]
  subGroupsCounts := some [2, 0, 0, 0, 0, 0, 0, 0]
  rows := raidRows

theorem twoMemberRaid_rolesKept : twoMemberRaid.RolesKept where
  mainTank := by unfold Group.AtMostOne; decide
  mainAssist := by unfold Group.AtMostOne; decide
  stored := by
    simp only [twoMemberRaid, List.forall_mem_cons]
    exact ⟨⟨_, rfl, rfl⟩, ⟨_, rfl, rfl⟩, nofun⟩

/-- The first main tank of a raid is stored. -/
theorem raid_roles_first_tank :
    Runs.Along roleStep Group.RolesKept twoMemberRaid
      [.setGroupMemberFlag 1 true memberFlagMainTank] := by
  refine (raid_roles_kept_iff _ _ (by unfold Group.DistinctMembers; decide)
    twoMemberRaid_rolesKept).2 ?_
  refine Runs.eachStep_cons.2 ⟨fun _ _ _ => ?_, Runs.EachStep.nil _⟩
  decide

/-- When a second main tank is named, the flag of the first one stays in his row: after a reload
both are main tanks. -/
theorem raid_roles_second_tank :
    twoMemberRaid.RolesKept ∧ ¬ Runs.Along roleStep Group.RolesKept twoMemberRaid
      [.setGroupMemberFlag 1 true memberFlagMainTank,
        .setGroupMemberFlag 2 true memberFlagMainTank] := by
  refine ⟨twoMemberRaid_rolesKept, fun h => ?_⟩
  have hlast := (h _ (List.prefix_refl _)).stored ⟨1, "Jaina", 0, 0, 0⟩ (by decide)
  obtain ⟨row, hrow, hflags⟩ := hlast
  obtain rfl : ⟨7, 1, memberFlagMainTank, 0, 0⟩ = row := Option.some.inj hrow
  exact absurd hflags (by decide)

end FaceCore.Groups
