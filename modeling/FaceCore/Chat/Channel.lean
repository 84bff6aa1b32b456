import FaceCore.Lib.Flags
import FaceCore.Lib.Runs
import FaceCore.Lib.SortedMap
import Mathlib.Data.Finset.Insert

/-!
# The members and the owner of a chat channel

`Channel`: the map of the members with their flags, the guid of the owner and the set of the
banned guids. Members join, leave, are kicked or banned, moderate each other and pass the ownership
on; `playersStore[guid]` makes an entry for a guid that has none. The packets, the rows of the
channel in the database and the announcements are left out.

* `Channel.Sound`: the owner of a channel with members is one of them and a moderator, he alone has
  the owner flag, every entry carries its guid, and nobody who is banned is a member;
* `Op.Fair`: the owner does not kick or ban himself while others are there, nobody joins an empty
  channel that still names an owner, and the owner does not take his own moderator flag under a
  spelling of his name that is not his own;
* `sound_iff_fair`: a run from an empty custom channel is sound exactly when its requests are fair.
-/

namespace FaceCore.Chat

def MEMBER_FLAG_NONE : UInt8 := 0x00
def MEMBER_FLAG_OWNER : UInt8 := 0x01
def MEMBER_FLAG_MODERATOR : UInt8 := 0x02
def MEMBER_FLAG_MUTED : UInt8 := 0x08

def CHANNEL_FLAG_CUSTOM : UInt8 := 0x01
def CHANNEL_FLAG_LFG : UInt8 := 0x40

/-- `Channel::PlayerInfo`. -/
structure PlayerInfo where
  player : ℕ
  flags : UInt8
deriving DecidableEq

namespace PlayerInfo

/-- The entry that `playersStore[guid]` makes. -/
def zero : PlayerInfo := ⟨0, MEMBER_FLAG_NONE⟩

def hasFlag (i : PlayerInfo) (f : UInt8) : Bool := i.flags &&& f ≠ 0

def assign (i : PlayerInfo) (f : UInt8) (state : Bool) : PlayerInfo :=
  { i with flags := if state then i.flags ||| f else i.flags &&& ~~~f }

def isOwner (i : PlayerInfo) : Bool := i.hasFlag MEMBER_FLAG_OWNER
def isModerator (i : PlayerInfo) : Bool := i.hasFlag MEMBER_FLAG_MODERATOR
def isMuted (i : PlayerInfo) : Bool := i.hasFlag MEMBER_FLAG_MUTED

def setOwner (i : PlayerInfo) (state : Bool) : PlayerInfo := i.assign MEMBER_FLAG_OWNER state
def setModerator (i : PlayerInfo) (state : Bool) : PlayerInfo :=
  i.assign MEMBER_FLAG_MODERATOR state
def setMuted (i : PlayerInfo) (state : Bool) : PlayerInfo := i.assign MEMBER_FLAG_MUTED state

@[simp] theorem player_assign (i : PlayerInfo) (f : UInt8) (state : Bool) :
    (i.assign f state).player = i.player := rfl

theorem hasFlag_assign_self {f : UInt8} (hf : f ≠ 0) (i : PlayerInfo) (state : Bool) :
    (i.assign f state).hasFlag f = state := by
  cases state with
  | true => simpa [assign, hasFlag, Flags.or_and_self] using hf
  | false => simp [assign, hasFlag, Flags.and_not_and_self]

theorem hasFlag_assign {f h : UInt8} (hd : f &&& h = 0) (hd' : ~~~f &&& h = h) (i : PlayerInfo)
    (state : Bool) : (i.assign f state).hasFlag h = i.hasFlag h := by
  cases state with
  | true => simp [assign, hasFlag, Flags.or_and_of_disjoint hd]
  | false => simp [assign, hasFlag, Flags.and_not_and_of_disjoint hd']

@[simp] theorem hasFlag_none (g : ℕ) (f : UInt8) :
    (⟨g, MEMBER_FLAG_NONE⟩ : PlayerInfo).hasFlag f = false := by
  simp [hasFlag, MEMBER_FLAG_NONE]

@[simp] theorem isOwner_setOwner (i : PlayerInfo) (s : Bool) : (i.setOwner s).isOwner = s :=
  hasFlag_assign_self (by decide) i s

@[simp] theorem isOwner_setModerator (i : PlayerInfo) (s : Bool) :
    (i.setModerator s).isOwner = i.isOwner := hasFlag_assign (by decide) (by decide) i s

@[simp] theorem isOwner_setMuted (i : PlayerInfo) (s : Bool) :
    (i.setMuted s).isOwner = i.isOwner := hasFlag_assign (by decide) (by decide) i s

@[simp] theorem isModerator_setModerator (i : PlayerInfo) (s : Bool) :
    (i.setModerator s).isModerator = s := hasFlag_assign_self (by decide) i s

@[simp] theorem isModerator_setOwner (i : PlayerInfo) (s : Bool) :
    (i.setOwner s).isModerator = i.isModerator := hasFlag_assign (by decide) (by decide) i s

@[simp] theorem isModerator_setMuted (i : PlayerInfo) (s : Bool) :
    (i.setMuted s).isModerator = i.isModerator := hasFlag_assign (by decide) (by decide) i s

@[simp] theorem player_setOwner (i : PlayerInfo) (s : Bool) : (i.setOwner s).player = i.player :=
  rfl

@[simp] theorem player_setModerator (i : PlayerInfo) (s : Bool) :
    (i.setModerator s).player = i.player := rfl

@[simp] theorem player_setMuted (i : PlayerInfo) (s : Bool) : (i.setMuted s).player = i.player :=
  rfl

end PlayerInfo

/-- What a channel asks of a player: a guid, which is never 0, the name, the team, whether
`RBAC_PERM_CHANGE_CHANNEL_NOT_MODERATOR` and `RBAC_PERM_TWO_SIDE_INTERACTION_CHANNEL` are granted,
whether the account is a player account, and whether he is in a group. -/
structure Player where
  guid : ℕ
  guid_ne : guid ≠ 0
  name : String
  team : ℕ
  changeNotModerator : Bool
  twoSideInteraction : Bool
  isPlayerAccount : Bool
  inGroup : Bool
deriving DecidableEq

/-- Two players of one team, or both allowed to talk to the other one. -/
def Player.sameSide (p q : Player) : Bool :=
  p.team = q.team ∨ (p.twoSideInteraction ∧ q.twoSideInteraction)

/-- `Channel`. -/
structure Channel where
  channelId : ℕ
  flags : UInt8
  ownership : Bool
  password : String
  ownerGUID : ℕ
  playersStore : SortedMap ℕ PlayerInfo
  bannedStore : Finset ℕ

namespace Channel

/-- A custom channel with its row loaded: the password and the banned guids are those of the row. -/
def custom (password : String) (bannedStore : Finset ℕ) : Channel where
  channelId := 0
  flags := CHANNEL_FLAG_CUSTOM
  ownership := true
  password := password
  ownerGUID := 0
  playersStore := SortedMap.empty
  bannedStore := bannedStore

def isConstant (c : Channel) : Bool := c.channelId ≠ 0

def hasFlag (c : Channel) (f : UInt8) : Bool := c.flags &&& f ≠ 0

def isOn (c : Channel) (guid : ℕ) : Bool := (c.playersStore.find guid).isSome

def isBanned (c : Channel) (guid : ℕ) : Bool := guid ∈ c.bannedStore

/-- The value of `playersStore[guid]`. -/
def info (c : Channel) (guid : ℕ) : PlayerInfo := (c.playersStore.find guid).getD PlayerInfo.zero

/-- A change through `playersStore[guid]`. -/
def modify (c : Channel) (guid : ℕ) (f : PlayerInfo → PlayerInfo) : Channel :=
  { c with playersStore := c.playersStore.insert guid (f (c.info guid)) }

/-- The owner flag of the old owner is cleared; he is looked up with `find`. -/
def clearOwner (c : Channel) : Channel :=
  if c.ownerGUID ≠ 0 then
    match c.playersStore.find c.ownerGUID with
    | some i => { c with playersStore := c.playersStore.insert c.ownerGUID (i.setOwner false) }
    | none => c
  else c

/-- `Channel::SetOwner(uint64, bool)`. -/
def setOwner (c : Channel) (guid : ℕ) : Channel :=
  let c := { c.clearOwner with ownerGUID := guid }
  if guid ≠ 0 then (c.modify guid (·.setModerator true)).modify guid (·.setOwner true) else c

/-- `Channel::SetModerator(uint64, bool)`; the comparison already makes the entry. -/
def setModerator (c : Channel) (guid : ℕ) (set : Bool) : Channel :=
  if (c.info guid).isModerator ≠ set then c.modify guid (·.setModerator set) else c.modify guid id

/-- `Channel::SetMute`. -/
def setMute (c : Channel) (guid : ℕ) (set : Bool) : Channel :=
  if (c.info guid).isMuted ≠ set then c.modify guid (·.setMuted set) else c.modify guid id

/-- The checks of `Channel::JoinChannel`; `restricted` is `CONFIG_RESTRICTED_LFG_CHANNEL`. -/
def admits (c : Channel) (restricted : Bool) (p : Player) (pass : String) : Bool :=
  if c.isOn p.guid then false
  else if c.isBanned p.guid then false
  else if c.password ≠ "" ∧ pass ≠ c.password then false
  else if c.hasFlag CHANNEL_FLAG_LFG ∧ restricted ∧ p.isPlayerAccount ∧ p.inGroup then false
  else true

/-- The entry that `Channel::JoinChannel` makes. -/
def enter (c : Channel) (p : Player) : Channel :=
  { c with playersStore := c.playersStore.insert p.guid ⟨p.guid, MEMBER_FLAG_NONE⟩ }

/-- `Channel::JoinChannel`. -/
def joinChannel (c : Channel) (restricted : Bool) (p : Player) (pass : String) : Channel :=
  if c.admits restricted p pass then
    let c := c.enter p
    if ¬ c.isConstant ∧ c.ownerGUID = 0 ∧ c.ownership then
      (c.setOwner p.guid).modify p.guid (·.setModerator true)
    else c
  else c

/-- `Channel::LeaveChannel`. -/
def leaveChannel (c : Channel) (p : Player) : Channel :=
  if ¬ c.isOn p.guid then c
  else
    let changeowner := (c.info p.guid).isOwner
    let c := { c with playersStore := c.playersStore.erase p.guid }
    if ¬ c.isConstant ∧ changeowner ∧ c.ownership then
      match c.playersStore.entries.head? with
      | some e => (c.modify e.2.player (·.setModerator true)).setOwner e.2.player
      | none => c
    else c

/-- The check that a request of a moderator begins with. -/
def mayModerate (c : Channel) (p : Player) : Bool :=
  c.isOn p.guid ∧ ((c.info p.guid).isModerator ∨ p.changeNotModerator)

/-- The part of `Channel::KickOrBan` that takes the victim off the channel. -/
def expel (c : Channel) (victim : ℕ) (ban : Bool) : Channel :=
  let c := if ban ∧ ¬ c.isBanned victim then
    { c with bannedStore := insert victim c.bannedStore } else c
  { c with playersStore := c.playersStore.erase victim }

/-- `Channel::KickOrBan`; `bad` is the player of the name that the request gives. -/
def kickOrBan (c : Channel) (p : Player) (bad : Option Player) (ban : Bool) : Channel :=
  if ¬ c.mayModerate p then c
  else match bad with
    | none => c
    | some v =>
      if ¬ c.isOn v.guid then c
      else
        let changeowner := c.ownerGUID = v.guid
        if ¬ p.changeNotModerator ∧ changeowner ∧ p.guid ≠ c.ownerGUID then c
        else
          let c := c.expel v.guid ban
          if changeowner ∧ c.ownership ∧ c.playersStore.entries ≠ [] then
            (c.modify p.guid (·.setModerator true)).setOwner p.guid
          else c

/-- `Channel::UnBan`. -/
def unBan (c : Channel) (p : Player) (bad : Option Player) : Channel :=
  if ¬ c.mayModerate p then c
  else match bad with
    | none => c
    | some v => if ¬ c.isBanned v.guid then c
      else { c with bannedStore := c.bannedStore.erase v.guid }

/-- `Channel::SetMode`; `newp` is the player of the name `p2n`. -/
def setMode (c : Channel) (p : Player) (p2n : String) (newp : Option Player) (mod set : Bool) :
    Channel :=
  if ¬ c.mayModerate p then c
  else if p.guid = c.ownerGUID ∧ p2n = p.name ∧ mod then c
  else match newp with
    | none => c
    | some q =>
      if ¬ c.isOn q.guid ∨ ¬ p.sameSide q then c
      else if c.ownerGUID = q.guid ∧ c.ownerGUID ≠ p.guid then c
      else if mod then c.setModerator q.guid set
      else c.setMute q.guid set

/-- `Channel::SetOwner(Player const*, std::string const&)`. -/
def passOwner (c : Channel) (p : Player) (newp : Option Player) : Channel :=
  if ¬ c.isOn p.guid then c
  else if ¬ p.changeNotModerator ∧ p.guid ≠ c.ownerGUID then c
  else match newp with
    | none => c
    | some q =>
      if ¬ c.isOn q.guid ∨ ¬ p.sameSide q then c
      else (c.modify q.guid (·.setModerator true)).setOwner q.guid

end Channel

/-- A request. The player of a name that the request gives stands beside it. -/
inductive Op
  | join (restricted : Bool) (p : Player) (pass : String)
  | leave (p : Player)
  | kickOrBan (p : Player) (bad : Option Player) (ban : Bool)
  | unBan (p : Player) (bad : Option Player)
  | setMode (p : Player) (p2n : String) (newp : Option Player) (mod set : Bool)
  | setOwner (p : Player) (newp : Option Player)

namespace Channel

def exec (c : Channel) : Op → Channel
  | .join restricted p pass => c.joinChannel restricted p pass
  | .leave p => c.leaveChannel p
  | .kickOrBan p bad ban => c.kickOrBan p bad ban
  | .unBan p bad => c.unBan p bad
  | .setMode p p2n newp mod set => c.setMode p p2n newp mod set
  | .setOwner p newp => c.passOwner p newp

/-- The owner of a channel with members is a member and a moderator, he alone has the owner flag,
every entry carries its guid, and nobody who is banned is a member. -/
structure Sound (c : Channel) : Prop where
  owner : c.playersStore.entries ≠ [] →
    ∃ i, c.playersStore.find c.ownerGUID = some i ∧ i.isModerator
  flag : ∀ g i, c.playersStore.find g = some i → (i.isOwner ↔ g = c.ownerGUID)
  carries : ∀ g i, c.playersStore.find g = some i → i.player = g
  banned : ∀ g ∈ c.bannedStore, c.playersStore.find g = none

/-- What is left of `Sound` while the owner has gone. -/
structure Kept (c : Channel) : Prop where
  flag : ∀ g i, c.playersStore.find g = some i → i.isOwner → g = c.ownerGUID
  carries : ∀ g i, c.playersStore.find g = some i → i.player = g
  banned : ∀ g ∈ c.bannedStore, c.playersStore.find g = none

theorem Sound.kept {c : Channel} (h : c.Sound) : c.Kept :=
  ⟨fun g i hi ho => (h.flag g i hi).1 ho, h.carries, h.banned⟩

/-- The channel is a custom one that has an owner, and no member has the guid 0. -/
structure Regular (c : Channel) : Prop where
  channelId : c.channelId = 0
  ownership : c.ownership = true
  zero : c.playersStore.find 0 = none

theorem regular_custom (pass : String) (ban : Finset ℕ) : (custom pass ban).Regular :=
  ⟨rfl, rfl, rfl⟩

theorem sound_custom (pass : String) (ban : Finset ℕ) : (custom pass ban).Sound :=
  ⟨fun h => absurd rfl h, nofun, nofun, fun _ _ => rfl⟩

/-! ### Entries -/

variable {c : Channel} {g k : ℕ}

theorem isOn_iff : c.isOn g ↔ ∃ i, c.playersStore.find g = some i := Option.isSome_iff_exists

theorem info_of_find {i : PlayerInfo} (h : c.playersStore.find g = some i) : c.info g = i := by
  rw [info, h, Option.getD_some]

theorem entries_ne_nil_of_find {m : SortedMap ℕ PlayerInfo} {i : PlayerInfo}
    (h : m.find g = some i) : m.entries ≠ [] := by
  intro hnil
  rw [SortedMap.entries_eq_nil.1 hnil g] at h
  cases h

theorem find_modify {f : PlayerInfo → PlayerInfo} :
    (c.modify g f).playersStore.find k =
      if k = g then some (f (c.info g)) else c.playersStore.find k := SortedMap.find_insert

@[simp] theorem ownerGUID_modify {f : PlayerInfo → PlayerInfo} :
    (c.modify g f).ownerGUID = c.ownerGUID := rfl

@[simp] theorem bannedStore_modify {f : PlayerInfo → PlayerInfo} :
    (c.modify g f).bannedStore = c.bannedStore := rfl

@[simp] theorem info_modify_self {f : PlayerInfo → PlayerInfo} :
    (c.modify g f).info g = f (c.info g) := by
  rw [info, find_modify, if_pos rfl, Option.getD_some]

theorem find_clearOwner : c.clearOwner.playersStore.find k =
    if k = c.ownerGUID ∧ k ≠ 0 then (c.playersStore.find k).map (·.setOwner false)
    else c.playersStore.find k := by
  unfold clearOwner
  by_cases h0 : c.ownerGUID = 0
  · rw [if_neg (not_not_intro h0), if_neg]
    rintro ⟨hk, hk0⟩
    exact hk0 (hk.trans h0)
  · rw [if_pos h0]
    cases hfind : c.playersStore.find c.ownerGUID with
    | none =>
      dsimp only
      split_ifs with hk
      · rw [hk.1, hfind, Option.map_none]
      · rfl
    | some i =>
      dsimp only
      rw [SortedMap.find_insert]
      by_cases hk : k = c.ownerGUID
      · rw [if_pos hk, if_pos ⟨hk, hk ▸ h0⟩, hk, hfind, Option.map_some]
      · rw [if_neg hk, if_neg fun h => hk h.1]

@[simp] theorem bannedStore_clearOwner : c.clearOwner.bannedStore = c.bannedStore := by
  unfold clearOwner
  split_ifs
  · split <;> rfl
  · rfl

@[simp] theorem channelId_clearOwner : c.clearOwner.channelId = c.channelId := by
  unfold clearOwner
  split_ifs
  · split <;> rfl
  · rfl

@[simp] theorem ownership_clearOwner : c.clearOwner.ownership = c.ownership := by
  unfold clearOwner
  split_ifs
  · split <;> rfl
  · rfl

theorem not_isOwner_clearOwner (h : c.Kept) (h0 : c.playersStore.find 0 = none) {i : PlayerInfo}
    (hi : c.clearOwner.playersStore.find k = some i) : i.isOwner = false := by
  rw [find_clearOwner] at hi
  split_ifs at hi with hk
  · obtain ⟨j, -, rfl⟩ := Option.map_eq_some_iff.1 hi
    exact PlayerInfo.isOwner_setOwner j false
  · rw [Bool.eq_false_iff]
    intro ho
    refine hk ⟨h.flag k i hi ho, ?_⟩
    rintro rfl
    rw [h0] at hi
    cases hi

theorem carries_clearOwner (h : c.Kept) {i : PlayerInfo}
    (hi : c.clearOwner.playersStore.find k = some i) : i.player = k := by
  rw [find_clearOwner] at hi
  split_ifs at hi
  · obtain ⟨j, hj, rfl⟩ := Option.map_eq_some_iff.1 hi
    exact h.carries k j hj
  · exact h.carries k i hi

theorem isOn_clearOwner : c.clearOwner.isOn k = c.isOn k := by
  unfold isOn
  rw [find_clearOwner]
  split_ifs
  · exact Option.isSome_map
  · rfl

theorem find_setOwner (hg : g ≠ 0) : (c.setOwner g).playersStore.find k =
    if k = g then some (((c.clearOwner.info g).setModerator true).setOwner true)
    else c.clearOwner.playersStore.find k := by
  simp only [setOwner, if_pos hg, find_modify, info_modify_self]
  split_ifs <;> rfl

/-- A member who is made the owner leaves the channel sound. -/
theorem Kept.sound_setOwner (h : c.Kept) (h0 : c.playersStore.find 0 = none) (hon : c.isOn g) :
    (c.setOwner g).Sound := by
  have hg : g ≠ 0 := by
    rintro rfl
    simp [isOn, h0] at hon
  obtain ⟨j, hj⟩ := isOn_iff.1 (isOn_clearOwner.trans hon)
  have hfind := fun k => find_setOwner (c := c) (k := k) hg
  rw [info_of_find hj] at hfind
  have howner : (c.setOwner g).ownerGUID = g := by simp [setOwner, hg]
  refine ⟨fun _ => ?_, fun k i hi => ?_, fun k i hi => ?_, fun k hk => ?_⟩
  · rw [howner, hfind, if_pos rfl]
    exact ⟨_, rfl, by simp⟩
  · rw [hfind] at hi
    rw [howner]
    split_ifs at hi with hk
    · obtain rfl := Option.some.inj hi
      simpa using hk
    · simpa [hk] using not_isOwner_clearOwner h h0 hi
  · rw [hfind] at hi
    split_ifs at hi with hk
    · obtain rfl := Option.some.inj hi
      simpa [hk] using carries_clearOwner h hj
    · exact carries_clearOwner h hi
  · have hkb : k ∈ c.bannedStore := by simpa [setOwner, hg] using hk
    have hnone := h.banned k hkb
    have hne : k ≠ g := by
      rintro rfl
      simp [isOn, hnone] at hon
    rw [hfind, if_neg hne, find_clearOwner, hnone]
    simp

/-! ### Changes of one entry -/

/-- A change of an entry that leaves the owner flag and the guid as they are. -/
def Neutral (f : PlayerInfo → PlayerInfo) : Prop :=
  ∀ i, (f i).isOwner = i.isOwner ∧ (f i).player = i.player

theorem Kept.modify {f : PlayerInfo → PlayerInfo} (h : c.Kept) (hf : Neutral f)
    (hon : c.isOn g) : (c.modify g f).Kept := by
  obtain ⟨j, hj⟩ := isOn_iff.1 hon
  refine ⟨fun k i hi ho => ?_, fun k i hi => ?_, fun k hk => ?_⟩
  · rw [find_modify, info_of_find hj] at hi
    split_ifs at hi with hkg
    · obtain rfl := Option.some.inj hi
      exact h.flag k j (hkg ▸ hj) ((hf j).1 ▸ ho)
    · exact h.flag k i hi ho
  · rw [find_modify, info_of_find hj] at hi
    split_ifs at hi with hkg
    · obtain rfl := Option.some.inj hi
      exact (hf j).2.trans (h.carries k j (hkg ▸ hj))
    · exact h.carries k i hi
  · rw [find_modify, if_neg]
    · exact h.banned k hk
    · rintro rfl
      cases (h.banned k hk).symm.trans hj

theorem Sound.modify {f : PlayerInfo → PlayerInfo} (h : c.Sound) (hf : Neutral f)
    (hon : c.isOn g) (hmod : g = c.ownerGUID → ∀ i, i.isModerator → (f i).isModerator) :
    (c.modify g f).Sound := by
  obtain ⟨j, hj⟩ := isOn_iff.1 hon
  have hk := h.kept.modify hf hon
  refine ⟨fun _ => ?_, fun k i hi => ⟨hk.flag k i hi, fun ho => ?_⟩, hk.carries, hk.banned⟩
  · obtain ⟨i, hi, him⟩ := h.owner (entries_ne_nil_of_find hj)
    rw [ownerGUID_modify, find_modify]
    split_ifs with hg
    · rw [hg] at hi
      rw [info_of_find hi]
      exact ⟨_, rfl, hmod hg.symm i him⟩
    · exact ⟨i, hi, him⟩
  · rw [find_modify, info_of_find hj] at hi
    split_ifs at hi with hkg
    · obtain rfl := Option.some.inj hi
      rw [(hf j).1]
      exact (h.flag k j (hkg ▸ hj)).2 ho
    · exact (h.flag k i hi).2 ho

theorem neutral_id : Neutral id := fun _ => ⟨rfl, rfl⟩

theorem neutral_setModerator (s : Bool) : Neutral (·.setModerator s) :=
  fun i => ⟨i.isOwner_setModerator s, rfl⟩

theorem neutral_setMuted (s : Bool) : Neutral (·.setMuted s) :=
  fun i => ⟨i.isOwner_setMuted s, rfl⟩

theorem Kept.sound_promote (h : c.Kept) (h0 : c.playersStore.find 0 = none) (hon : c.isOn g) :
    ((c.modify g (·.setModerator true)).setOwner g).Sound := by
  have hg : g ≠ 0 := by
    rintro rfl
    simp [isOn, h0] at hon
  refine (h.modify (neutral_setModerator true) hon).sound_setOwner ?_ ?_
  · rwa [find_modify, if_neg hg.symm]
  · rw [isOn, find_modify, if_pos rfl, Option.isSome_some]

/-! ### Removals -/

section Removal

variable {d : Channel}

/-- `d` is `c` without the member `g`, who may have been banned. -/
structure Removes (c d : Channel) (g : ℕ) : Prop where
  find : ∀ k, d.playersStore.find k = if k = g then none else c.playersStore.find k
  channelId : d.channelId = c.channelId
  ownership : d.ownership = c.ownership
  ownerGUID : d.ownerGUID = c.ownerGUID
  bannedStore : ∀ k ∈ d.bannedStore, k = g ∨ k ∈ c.bannedStore

theorem removes_erase : c.Removes { c with playersStore := c.playersStore.erase g } g :=
  ⟨fun _ => SortedMap.find_erase, rfl, rfl, rfl, fun _ hk => .inr hk⟩

theorem playersStore_expel {ban : Bool} :
    (c.expel g ban).playersStore = c.playersStore.erase g := by
  unfold expel
  dsimp only
  split_ifs <;> rfl

theorem removes_expel (c : Channel) (g : ℕ) (ban : Bool) : c.Removes (c.expel g ban) g := by
  unfold expel
  dsimp only
  split_ifs
  · exact ⟨fun _ => SortedMap.find_erase, rfl, rfl, rfl, fun k hk => Finset.mem_insert.1 hk⟩
  · exact removes_erase

theorem Removes.find_some (h : c.Removes d g) {i : PlayerInfo}
    (hi : d.playersStore.find k = some i) : k ≠ g ∧ c.playersStore.find k = some i := by
  rw [h.find] at hi
  split_ifs at hi with hk
  exact ⟨hk, hi⟩

theorem Kept.of_removes (h : c.Kept) (hd : c.Removes d g) : d.Kept := by
  refine ⟨fun k i hi ho => ?_, fun k i hi => ?_, fun k hk => ?_⟩
  · rw [hd.ownerGUID]
    exact h.flag k i (hd.find_some hi).2 ho
  · exact h.carries k i (hd.find_some hi).2
  · rw [hd.find, ite_eq_left_iff]
    intro hne
    exact h.banned k ((hd.bannedStore k hk).resolve_left hne)

theorem Sound.of_removes (h : c.Sound) (hd : c.Removes d g) (hg : g ≠ c.ownerGUID) : d.Sound := by
  have hk := h.kept.of_removes hd
  refine ⟨fun hne => ?_, fun k i hi => ?_, hk.carries, hk.banned⟩
  · obtain ⟨k, hfind⟩ := not_forall.1 fun hnone => hne (SortedMap.entries_eq_nil.2 hnone)
    obtain ⟨i, hi⟩ := Option.ne_none_iff_exists'.1 hfind
    obtain ⟨j, hj, hm⟩ := h.owner (entries_ne_nil_of_find (hd.find_some hi).2)
    exact ⟨j, by rw [hd.ownerGUID, hd.find, if_neg hg.symm, hj], hm⟩
  · rw [hd.ownerGUID]
    exact h.flag k i (hd.find_some hi).2

theorem Kept.sound_of_nil (h : d.Kept) (hnil : d.playersStore.entries = []) : d.Sound :=
  { owner := fun hne => absurd hnil hne
    flag := fun k i hi => by
      rw [SortedMap.entries_eq_nil.1 hnil k] at hi
      cases hi
    carries := h.carries
    banned := h.banned }

/-! ### Regular channels -/

theorem Regular.isOn_ne (h : c.Regular) (hon : c.isOn g) : g ≠ 0 := by
  rintro rfl
  simp [isOn, h.zero] at hon

theorem Regular.of_removes (h : c.Regular) (hd : c.Removes d g) : d.Regular := by
  refine ⟨hd.channelId.trans h.channelId, hd.ownership.trans h.ownership, ?_⟩
  rw [hd.find, h.zero, ite_self]

end Removal

theorem Regular.modify {f : PlayerInfo → PlayerInfo} (h : c.Regular) (hg : g ≠ 0) :
    (c.modify g f).Regular := by
  refine ⟨h.channelId, h.ownership, ?_⟩
  rw [find_modify, if_neg hg.symm, h.zero]

theorem Regular.clearOwner (h : c.Regular) : c.clearOwner.Regular := by
  refine ⟨?_, ?_, ?_⟩
  · rw [channelId_clearOwner, h.channelId]
  · rw [ownership_clearOwner, h.ownership]
  · rw [find_clearOwner, h.zero, Option.map_none, ite_self]

theorem Regular.setOwner (h : c.Regular) (hg : g ≠ 0) : (c.setOwner g).Regular := by
  have hd : Regular { c.clearOwner with ownerGUID := g } :=
    ⟨h.clearOwner.channelId, h.clearOwner.ownership, h.clearOwner.zero⟩
  rw [Channel.setOwner, if_pos hg]
  exact (hd.modify hg).modify hg

/-! ### The requests -/

theorem find_enter {p : Player} : (c.enter p).playersStore.find k =
    if k = p.guid then some ⟨p.guid, MEMBER_FLAG_NONE⟩ else c.playersStore.find k :=
  SortedMap.find_insert

theorem Kept.enter {p : Player} (h : c.Kept) (hb : p.guid ∉ c.bannedStore) :
    (c.enter p).Kept := by
  refine ⟨fun k i hi ho => ?_, fun k i hi => ?_, fun k hk => ?_⟩
  · rw [find_enter] at hi
    split_ifs at hi
    · obtain rfl := Option.some.inj hi
      simp [PlayerInfo.isOwner] at ho
    · exact h.flag k i hi ho
  · rw [find_enter] at hi
    split_ifs at hi with hk
    · obtain rfl := Option.some.inj hi
      exact hk.symm
    · exact h.carries k i hi
  · have hne : k ≠ p.guid := by
      rintro rfl
      exact hb hk
    rw [find_enter, if_neg hne]
    exact h.banned k hk

theorem Sound.enter {p : Player} (h : c.Sound) (hb : p.guid ∉ c.bannedStore)
    (hoff : c.playersStore.find p.guid = none) (hne : c.playersStore.entries ≠ []) :
    (c.enter p).Sound := by
  have hk := h.kept.enter hb
  obtain ⟨j, hj, hm⟩ := h.owner hne
  have howner : c.ownerGUID ≠ p.guid := by
    intro heq
    rw [heq, hoff] at hj
    cases hj
  refine ⟨fun _ => ?_, fun k i hi => ⟨hk.flag k i hi, fun ho => ?_⟩, hk.carries, hk.banned⟩
  · exact ⟨j, (find_enter.trans (if_neg howner)).trans hj, hm⟩
  · rw [find_enter] at hi
    split_ifs at hi with hkp
    · exact absurd (ho.symm.trans hkp) howner
    · exact (h.flag k i hi).2 ho

/-- A newcomer to an empty channel that names an owner already. -/
theorem not_sound_enter {p : Player} (hnil : c.playersStore.entries = []) :
    ¬ (c.enter p).Sound := by
  intro h
  have hfind : (c.enter p).playersStore.find p.guid = some ⟨p.guid, MEMBER_FLAG_NONE⟩ :=
    find_enter.trans (if_pos rfl)
  obtain ⟨i, hi, hm⟩ := h.owner (entries_ne_nil_of_find hfind)
  rw [find_enter, SortedMap.entries_eq_nil.1 hnil] at hi
  split_ifs at hi
  obtain rfl := Option.some.inj hi
  simp [PlayerInfo.isModerator] at hm

theorem admits_iff {restricted : Bool} {p : Player} {pass : String} :
    c.admits restricted p pass ↔ c.isOn p.guid = false ∧ c.isBanned p.guid = false ∧
      (c.password = "" ∨ pass = c.password) ∧
      ¬ (c.hasFlag CHANNEL_FLAG_LFG ∧ restricted ∧ p.isPlayerAccount ∧ p.inGroup) := by
  unfold admits
  split_ifs with h1 h2 h3 h4
  · simp [h1]
  · simp [h2]
  · simp [not_or.2 h3]
  · simp [h4]
  · simp only [not_and_or, not_not] at h3
    simp [h1, h2, h3, h4]

variable {p : Player}

theorem Regular.joinChannel (hr : c.Regular) (restricted : Bool) (pass : String) :
    (c.joinChannel restricted p pass).Regular := by
  have hd : (c.enter p).Regular :=
    ⟨hr.channelId, hr.ownership, by rw [find_enter, if_neg p.guid_ne.symm, hr.zero]⟩
  unfold Channel.joinChannel
  split_ifs
  · dsimp only
    split_ifs
    · exact (hd.setOwner p.guid_ne).modify p.guid_ne
    · exact hd
  · exact hr

/-- A player who joins an empty channel that still names an owner gets no flag. -/
theorem sound_joinChannel_iff (hr : c.Regular) (h : c.Sound) (restricted : Bool) (pass : String) :
    (c.joinChannel restricted p pass).Sound ↔
      (c.admits restricted p pass → c.playersStore.entries = [] → c.ownerGUID = 0) := by
  by_cases hadm : c.admits restricted p pass
  swap
  · rw [joinChannel, if_neg hadm]
    exact iff_of_true h fun hadm' => absurd hadm' hadm
  obtain ⟨hoff, hban, -⟩ := admits_iff.1 hadm
  have hnone : c.playersStore.find p.guid = none := by simpa [isOn] using hoff
  have hb : p.guid ∉ c.bannedStore := by simpa [isBanned] using hban
  have hcond : (¬ (c.enter p).isConstant ∧ (c.enter p).ownerGUID = 0 ∧ (c.enter p).ownership) ↔
      c.ownerGUID = 0 := by
    simp [enter, isConstant, hr.channelId, hr.ownership]
  rw [joinChannel, if_pos hadm]
  dsimp only
  by_cases h0 : c.ownerGUID = 0
  · rw [if_pos (hcond.2 h0)]
    have hon : (c.enter p).isOn p.guid := by simp [isOn, find_enter]
    have hzero : (c.enter p).playersStore.find 0 = none := by
      rw [find_enter, if_neg p.guid_ne.symm, hr.zero]
    have hon' : ((c.enter p).setOwner p.guid).isOn p.guid := by
      simp [isOn, find_setOwner p.guid_ne]
    exact iff_of_true (((h.kept.enter hb).sound_setOwner hzero hon).modify
      (neutral_setModerator true) hon' fun _ i _ => i.isModerator_setModerator true) fun _ _ => h0
  · rw [if_neg (mt hcond.1 h0)]
    constructor
    · intro hs _ hnil
      exact absurd hs (not_sound_enter hnil)
    · intro hne
      exact h.enter hb hnone fun hnil => h0 (hne hadm hnil)

theorem Regular.leaveChannel (hr : c.Regular) (h : c.Sound) : (c.leaveChannel p).Regular := by
  have hd := hr.of_removes (removes_erase (c := c) (g := p.guid))
  unfold Channel.leaveChannel
  split_ifs
  · dsimp only
    split_ifs
    · split
      · rename_i e he
        have hfind := SortedMap.find_of_head he
        have hg : e.2.player ≠ 0 := by
          rw [(h.kept.of_removes removes_erase).carries _ _ hfind]
          exact hd.isOn_ne (isOn_iff.2 ⟨_, hfind⟩)
        exact (hd.modify hg).setOwner hg
      · exact hd
    · exact hd
  · exact hr

/-- The first member that is left is a member under the guid that his entry carries. -/
theorem Sound.leaveChannel (hr : c.Regular) (h : c.Sound) : (c.leaveChannel p).Sound := by
  have hd := hr.of_removes (removes_erase (c := c) (g := p.guid))
  have hk := h.kept.of_removes (removes_erase (c := c) (g := p.guid))
  unfold Channel.leaveChannel
  by_cases hon : c.isOn p.guid
  swap
  · rwa [if_pos hon]
  rw [if_neg (not_not_intro hon)]
  dsimp only
  obtain ⟨i, hi⟩ := isOn_iff.1 hon
  split_ifs with hcond
  · split
    · rename_i e he
      have hfind := SortedMap.find_of_head he
      rw [hk.carries _ _ hfind]
      exact hk.sound_promote hd.zero (isOn_iff.2 ⟨_, hfind⟩)
    · rename_i hhead
      exact hk.sound_of_nil (List.head?_eq_none_iff.1 hhead)
  · refine h.of_removes removes_erase fun heq => hcond ?_
    rw [info_of_find hi]
    simp [isConstant, hr.channelId, hr.ownership, (h.flag _ _ hi).2 heq]

theorem Regular.kickOrBan (hr : c.Regular) (bad : Option Player) (ban : Bool) :
    (c.kickOrBan p bad ban).Regular := by
  unfold Channel.kickOrBan
  split_ifs
  swap
  · exact hr
  cases bad with
  | none => exact hr
  | some v =>
    have hd := hr.of_removes (removes_expel c v.guid ban)
    dsimp only
    split_ifs
    · exact hr
    · exact (hd.modify p.guid_ne).setOwner p.guid_ne
    · exact hd
    · exact hr

/-- A member who is made the owner after he was taken off the channel gets an entry that does not
carry his guid. -/
theorem not_sound_promote {d : Channel} (hg : g ≠ 0) (hnone : d.playersStore.find g = none) :
    ¬ ((d.modify g (·.setModerator true)).setOwner g).Sound := by
  intro h
  have hcarry := h.carries g _ ((find_setOwner hg).trans (if_pos rfl))
  have hplayer : ((d.modify g (·.setModerator true)).clearOwner.info g).player = 0 := by
    rw [info, find_clearOwner, find_modify, if_pos rfl, info, hnone]
    split_ifs <;> rfl
  exact hg (hcarry.symm.trans hplayer)

/-- The owner who kicks himself while others are there is made the owner again. -/
theorem sound_kickOrBan_iff (hr : c.Regular) (h : c.Sound) (bad : Option Player) (ban : Bool) :
    (c.kickOrBan p bad ban).Sound ↔
      ∀ v, bad = some v → v.guid = p.guid → p.guid = c.ownerGUID → c.isOn p.guid →
        (c.playersStore.erase p.guid).entries = [] := by
  unfold kickOrBan
  by_cases hmay : c.mayModerate p
  swap
  · rw [if_pos hmay]
    refine iff_of_true h fun v _ _ howner hon => absurd ?_ hmay
    obtain ⟨i, hi⟩ := isOn_iff.1 hon
    obtain ⟨j, hj, hm⟩ := h.owner (entries_ne_nil_of_find hi)
    simp [mayModerate, hon, info_of_find (howner ▸ hj), hm]
  have hon : c.isOn p.guid := by simp_all [mayModerate]
  rw [if_neg (not_not_intro hmay)]
  cases bad with
  | none => exact iff_of_true h nofun
  | some v =>
    simp only [Option.some.injEq, forall_eq']
    have hd := removes_expel c v.guid ban
    have hk := h.kept.of_removes hd
    by_cases hv : c.isOn v.guid
    swap
    · rw [if_pos hv]
      exact iff_of_true h fun heq => absurd (heq ▸ hon) hv
    rw [if_neg (not_not_intro hv)]
    split_ifs with hdeny hcrown
    · exact iff_of_true h fun _ howner => absurd howner hdeny.2.2
    · rw [playersStore_expel] at hcrown
      by_cases hself : v.guid = p.guid
      · refine iff_of_false (not_sound_promote p.guid_ne ?_) fun hnil => ?_
        · rw [hd.find, if_pos hself.symm]
        · exact hcrown.2.2 (hself ▸ hnil hself (hself.symm.trans hcrown.1.symm) hon)
      · refine iff_of_true (hk.sound_promote (hr.of_removes hd).zero ?_) fun heq => absurd heq hself
        rwa [isOn, hd.find, if_neg (Ne.symm hself)]
    · rw [playersStore_expel, hd.ownership, hr.ownership] at hcrown
      by_cases howner : c.ownerGUID = v.guid
      · have hnil : (c.playersStore.erase v.guid).entries = [] := by
          by_contra hne
          exact hcrown ⟨howner, rfl, hne⟩
        refine iff_of_true (hk.sound_of_nil (by rwa [playersStore_expel])) fun heq _ _ => ?_
        rwa [← heq]
      · exact iff_of_true (h.of_removes hd (Ne.symm howner)) fun heq hp =>
          absurd (heq.trans hp).symm howner

theorem Regular.unBan (hr : c.Regular) (bad : Option Player) : (c.unBan p bad).Regular := by
  unfold Channel.unBan
  split_ifs
  · cases bad with
    | none => exact hr
    | some v =>
      dsimp only
      split_ifs
      · exact ⟨hr.channelId, hr.ownership, hr.zero⟩
      · exact hr
  · exact hr

theorem Sound.unBan (h : c.Sound) (bad : Option Player) : (c.unBan p bad).Sound := by
  unfold Channel.unBan
  split_ifs
  · cases bad with
    | none => exact h
    | some v =>
      dsimp only
      split_ifs
      · exact ⟨h.owner, h.flag, h.carries, fun k hk => h.banned k (Finset.mem_of_mem_erase hk)⟩
      · exact h
  · exact h

theorem setModerator_eq (s : Bool) : ∃ f, Neutral f ∧ c.setModerator g s = c.modify g f ∧
    (s → ∀ i, i.isModerator → (f i).isModerator) ∧ ((f (c.info g)).isModerator = s) := by
  unfold setModerator
  split_ifs with hs
  · exact ⟨_, neutral_setModerator s, rfl, fun hs i _ => by simp [hs], by simp⟩
  · exact ⟨id, neutral_id, rfl, fun _ i hi => hi, not_not.1 hs⟩

theorem setMute_eq (s : Bool) : ∃ f, Neutral f ∧ c.setMute g s = c.modify g f ∧
    ∀ i, i.isModerator → (f i).isModerator := by
  unfold setMute
  split_ifs
  · exact ⟨_, neutral_setMuted s, rfl, fun i hi => by simpa using hi⟩
  · exact ⟨id, neutral_id, rfl, fun i hi => hi⟩

theorem Regular.setMode (hr : c.Regular) (p2n : String) (newp : Option Player) (mod set : Bool) :
    (c.setMode p p2n newp mod set).Regular := by
  unfold Channel.setMode
  cases newp with
  | none =>
    dsimp only
    split_ifs <;> exact hr
  | some q =>
    dsimp only
    split_ifs
    · exact hr
    · exact hr
    · exact hr
    · obtain ⟨f, -, heq, -⟩ := setModerator_eq (c := c) (g := q.guid) set
      exact heq ▸ hr.modify q.guid_ne
    · obtain ⟨f, -, heq, -⟩ := setMute_eq (c := c) (g := q.guid) set
      exact heq ▸ hr.modify q.guid_ne
    · exact hr

theorem not_sound_modify {f : PlayerInfo → PlayerInfo}
    (hf : (f (c.info c.ownerGUID)).isModerator = false) : ¬ (c.modify c.ownerGUID f).Sound := by
  intro h
  have hfind := (find_modify (c := c) (g := c.ownerGUID) (f := f)).trans (if_pos rfl)
  obtain ⟨i, hi, hm⟩ := h.owner (entries_ne_nil_of_find hfind)
  rw [ownerGUID_modify, hfind] at hi
  obtain rfl := Option.some.inj hi
  rw [hf] at hm
  cases hm

/-- The guard of `SetMode` against an owner who takes his own moderator flag compares names. -/
theorem sound_setMode_iff (h : c.Sound) (p2n : String) (newp : Option Player) (mod set : Bool) :
    (c.setMode p p2n newp mod set).Sound ↔
      (mod → set = false → p.guid = c.ownerGUID → c.isOn p.guid →
        ∀ q, newp = some q → q.guid = p.guid → p.sameSide q → p2n = p.name) := by
  unfold setMode
  by_cases hmay : c.mayModerate p
  swap
  · rw [if_pos hmay]
    refine iff_of_true h fun _ _ howner hon => absurd ?_ hmay
    obtain ⟨i, hi⟩ := isOn_iff.1 hon
    obtain ⟨j, hj, hm⟩ := h.owner (entries_ne_nil_of_find hi)
    simp [mayModerate, hon, info_of_find (howner ▸ hj), hm]
  rw [if_neg (not_not_intro hmay)]
  by_cases hname : p.guid = c.ownerGUID ∧ p2n = p.name ∧ mod
  · rw [if_pos hname]
    exact iff_of_true h fun _ _ _ _ _ _ _ _ => hname.2.1
  rw [if_neg hname]
  cases newp with
  | none => exact iff_of_true h nofun
  | some q =>
    simp only [Option.some.injEq, forall_eq']
    split_ifs with hon howner hmod
    · refine iff_of_true h fun _ _ _ hp heq hside => absurd hon ?_
      simp [heq, hp, hside]
    · exact iff_of_true h fun _ _ hp _ heq _ => absurd (hp.symm) howner.2
    · obtain ⟨hq, hside⟩ : c.isOn q.guid ∧ p.sameSide q := by simpa using hon
      obtain ⟨f, hf, heq, hkeep, hset⟩ := setModerator_eq (c := c) (g := q.guid) set
      rw [heq]
      by_cases hbad : set = false ∧ q.guid = c.ownerGUID
      · have hp : c.ownerGUID = p.guid := by
          by_contra hne
          exact howner ⟨hbad.2.symm, hne⟩
        rw [hbad.2] at hset ⊢
        refine iff_of_false (not_sound_modify (hset.trans hbad.1)) fun hcond => ?_
        refine hname ⟨hp.symm, hcond hmod hbad.1 hp.symm ?_ hp hside, hmod⟩
        rw [← hp, ← hbad.2]
        exact hq
      · refine iff_of_true (h.modify hf hq fun hg => hkeep ?_) fun _ hs hp _ hqp _ => ?_
        · cases set with
          | true => rfl
          | false => exact absurd ⟨rfl, hg⟩ hbad
        · exact absurd ⟨hs, hqp.trans hp⟩ hbad
    · have hq : c.isOn q.guid := by
        simp only [not_or, not_not] at hon
        exact hon.1
      obtain ⟨f, hf, heq, hkeep⟩ := setMute_eq (c := c) (g := q.guid) set
      rw [heq]
      exact iff_of_true (h.modify hf hq fun _ => hkeep) fun hm => absurd hm hmod

theorem Regular.passOwner (hr : c.Regular) (newp : Option Player) :
    (c.passOwner p newp).Regular := by
  unfold Channel.passOwner
  split_ifs
  · exact hr
  · cases newp with
    | none => exact hr
    | some q =>
      dsimp only
      split_ifs
      · exact hr
      · exact (hr.modify q.guid_ne).setOwner q.guid_ne
  · exact hr

theorem Sound.passOwner (hr : c.Regular) (h : c.Sound) (newp : Option Player) :
    (c.passOwner p newp).Sound := by
  unfold Channel.passOwner
  split_ifs
  · exact h
  · cases newp with
    | none => exact h
    | some q =>
      dsimp only
      split_ifs with hon
      · exact h
      · simp only [not_or, not_not] at hon
        exact h.kept.sound_promote hr.zero hon.1
  · exact h

/-! ### Runs -/

theorem regular_exec (hr : c.Regular) (h : c.Sound) (op : Op) : (c.exec op).Regular := by
  cases op with
  | join restricted p pass => exact hr.joinChannel restricted pass
  | leave p => exact hr.leaveChannel h
  | kickOrBan p bad ban => exact hr.kickOrBan bad ban
  | unBan p bad => exact hr.unBan bad
  | setMode p p2n newp mod set => exact hr.setMode p2n newp mod set
  | setOwner p newp => exact hr.passOwner newp

end Channel

/-- A request that keeps the channel sound: nobody joins an empty channel that still names an
owner, the owner does not kick or ban himself while others are there, and he does not take his own
moderator flag under another spelling of his name. -/
def Op.Fair (c : Channel) : Op → Prop
  | .join restricted p pass =>
    c.admits restricted p pass → c.playersStore.entries = [] → c.ownerGUID = 0
  | .kickOrBan p bad _ =>
    ∀ v, bad = some v → v.guid = p.guid → p.guid = c.ownerGUID → c.isOn p.guid →
      (c.playersStore.erase p.guid).entries = []
  | .setMode p p2n newp mod set =>
    mod → set = false → p.guid = c.ownerGUID → c.isOn p.guid →
      ∀ q, newp = some q → q.guid = p.guid → p.sameSide q → p2n = p.name
  | _ => True

namespace Channel

theorem sound_exec_iff {c : Channel} (hr : c.Regular) (h : c.Sound) (op : Op) :
    (c.exec op).Sound ↔ op.Fair c := by
  cases op with
  | join restricted p pass => exact sound_joinChannel_iff hr h restricted pass
  | leave p => exact iff_of_true (h.leaveChannel hr) trivial
  | kickOrBan p bad ban => exact sound_kickOrBan_iff hr h bad ban
  | unBan p bad => exact iff_of_true (h.unBan bad) trivial
  | setMode p p2n newp mod set => exact sound_setMode_iff h p2n newp mod set
  | setOwner p newp => exact iff_of_true (h.passOwner hr newp) trivial

/-- **Main result.** A run of requests from an empty custom channel goes through sound channels
only, exactly when each of its requests is fair where it is made. -/
theorem sound_iff_fair (password : String) (bannedStore : Finset ℕ) (ops : List Op) :
    Runs.Along exec Sound (custom password bannedStore) ops ↔
      Runs.EachStep exec (fun c op => op.Fair c) (custom password bannedStore) ops :=
  Runs.along_iff_eachStep (regular_custom password bannedStore) (sound_custom password bannedStore)
    (fun _ op hr h _ => regular_exec hr h op) fun _ op hr h => sound_exec_iff hr h op

/-- The owner of a channel with another member bans himself: he is a member and banned, under an
entry that carries the guid 0. -/
theorem owner_bans_himself :
    ∃ a b : Player, ¬ Runs.Along exec Sound (custom "" ∅)
      [.join false a "", .join false b "", .kickOrBan a (some a) true] := by
  refine ⟨⟨1, by decide, "Arthas", 1, false, false, true, false⟩,
    ⟨2, by decide, "Jaina", 1, false, false, true, false⟩, fun h => ?_⟩
  have hcarries := (h _ List.prefix_rfl).carries 1 ⟨0, 3⟩ (by decide)
  cases hcarries

end Channel

end FaceCore.Chat
