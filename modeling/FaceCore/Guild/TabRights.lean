import Mathlib.Data.Finset.Sort
import FaceCore.Lib.Runs
import FaceCore.Lib.Table
import FaceCore.Guild.BankItems

/-!
# The tab rights of the ranks, in memory and in the database

`Guild::_CreateRank`, `_CreateNewBankTab`, `_SetRankBankTabRightsAndSlots` and the requests
`HandleBuyBankTab`, `HandleAddNewRank`, `HandleRemoveRank` and `HandleSetRankInfo`, with the rows of
`guild_rank`, `guild_bank_tab` and `guild_bank_right` that they write; and `load`, which reads those
rows as `LoadRankFromDB`, `LoadBankRightFromDB` and `Validate` do.

* `Rows`, `Guild`, `Op`, `step`: the tables of a guild, the guild, and the requests;
* `InSync`: the rights in memory are those that a reload gives;
* `load_of_range`, `load_of_broken`: what a reload gives;
* `Stored`: what the requests keep;
* `rank_rights_in_sync_iff`: exactly which guilds are in sync.

There are at most ten ranks and six tabs, and nothing here wraps: their ids are natural numbers.
Names, rank rights and money per day do not feed back into the rights by tab and are left out.
-/

namespace FaceCore.GuildTabRights

open Storage.GuildItems (guildBankMaxTabs grGuildMaster)

/-- `GUILD_RANKS_MIN_COUNT`. -/
def guildRanksMinCount : ℕ := 5

/-- `GUILD_RANKS_MAX_COUNT`. -/
def guildRanksMaxCount : ℕ := 10

/-- `TAB_UNDEFINED`. -/
def tabUndefined : ℕ := 0xFF

/-- `GUILD_BANK_RIGHT_FULL`. -/
def guildBankRightFull : UInt8 := 0xFF

/-- `GUILD_WITHDRAW_SLOT_UNLIMITED`. -/
def guildWithdrawSlotUnlimited : UInt32 := 0xFFFFFFFF

/-- `GuildBankRightsAndSlots`. -/
structure GuildBankRightsAndSlots where
  tabId : ℕ
  rights : UInt8
  slots : UInt32
  deriving DecidableEq

namespace GuildBankRightsAndSlots

/-- The default constructor. -/
def undefined : GuildBankRightsAndSlots := ⟨tabUndefined, 0, 0⟩

/-- `SetGuildMasterValues`. -/
def setGuildMasterValues (r : GuildBankRightsAndSlots) : GuildBankRightsAndSlots :=
  { r with rights := guildBankRightFull, slots := guildWithdrawSlotUnlimited }

/-- `GetRights` and `GetSlots`. -/
def value (r : GuildBankRightsAndSlots) : UInt8 × UInt32 := (r.rights, r.slots)

end GuildBankRightsAndSlots

/-- A row of `guild_bank_right`: its key, the tab and the rank, then `gbright` and `SlotPerDay`. -/
structure BankRight where
  key : ℕ × ℕ
  rights : UInt8
  slots : UInt32
  deriving DecidableEq

/-- The fields of `RankInfo` that the rights by tab need. -/
structure RankInfo where
  rankId : ℕ
  bankTabRightsAndSlots : ℕ → GuildBankRightsAndSlots

/-- The rows of a guild in `guild_rank`, `guild_bank_tab` and `guild_bank_right`. -/
structure Rows where
  ranks : Finset ℕ
  tabs : Finset ℕ
  rights : Table BankRight.key

/-- A guild: `m_ranks`, the size of `m_bankTabs`, and its rows. -/
structure Guild where
  ranks : List RankInfo
  purchasedTabs : ℕ
  rows : Rows

/-! ### Ranks -/

namespace RankInfo

/-- A rank with no rights by tab: as constructed, and as `LoadFromDB` leaves it. -/
def new (rankId : ℕ) : RankInfo := ⟨rankId, fun _ => .undefined⟩

/-- `GetBankTabRights`. -/
def getBankTabRights (r : RankInfo) (tabId : ℕ) : UInt8 :=
  if tabId < guildBankMaxTabs then (r.bankTabRightsAndSlots tabId).rights else 0

/-- `GetBankTabSlotsPerDay`. -/
def getBankTabSlotsPerDay (r : RankInfo) (tabId : ℕ) : UInt32 :=
  if tabId < guildBankMaxTabs then (r.bankTabRightsAndSlots tabId).slots else 0

/-- What `CreateMissingTabsIfNeeded` makes of an entry that is not set. -/
def missingTab (r : RankInfo) (i : ℕ) : GuildBankRightsAndSlots :=
  let rightsAndSlots := { r.bankTabRightsAndSlots i with tabId := i }
  if r.rankId = grGuildMaster then rightsAndSlots.setGuildMasterValues else rightsAndSlots

/-- The loop body of `CreateMissingTabsIfNeeded`, on the rank and the rows. -/
def createMissingTab (s : RankInfo × Table BankRight.key) (i : ℕ) :
    RankInfo × Table BankRight.key :=
  if (s.1.bankTabRightsAndSlots i).tabId = i then s
  else
    let rightsAndSlots := s.1.missingTab i
    ({ s.1 with
        bankTabRightsAndSlots := Function.update s.1.bankTabRightsAndSlots i rightsAndSlots },
      s.2.insert ⟨(i, s.1.rankId), rightsAndSlots.rights, rightsAndSlots.slots⟩)

/-- `RankInfo::CreateMissingTabsIfNeeded`. -/
def createMissingTabsIfNeeded (r : RankInfo) (tabs : ℕ) (rights : Table BankRight.key) :
    RankInfo × Table BankRight.key :=
  (List.range tabs).foldl createMissingTab (r, rights)

/-- `RankInfo::SetBankTabSlotsAndRights`, on the rank. -/
def setBankTabSlotsAndRights (r : RankInfo) (rightsAndSlots : GuildBankRightsAndSlots) :
    RankInfo :=
  let rightsAndSlots :=
    if r.rankId = grGuildMaster then rightsAndSlots.setGuildMasterValues else rightsAndSlots
  { r with
    bankTabRightsAndSlots :=
      Function.update r.bankTabRightsAndSlots rightsAndSlots.tabId rightsAndSlots }

end RankInfo

/-! ### The guild -/

namespace Guild

/-- `Guild::_SetRankBankTabRightsAndSlots`; the row is written if `saveToDB` is set. -/
def setRankBankTabRightsAndSlots (g : Guild) (rankId : ℕ)
    (rightsAndSlots : GuildBankRightsAndSlots) (saveToDB : Bool) : Guild :=
  if rightsAndSlots.tabId ≥ g.purchasedTabs then g
  else
    match g.ranks[rankId]? with
    | none => g
    | some rankInfo =>
      let rankInfo := rankInfo.setBankTabSlotsAndRights rightsAndSlots
      let guildBR := rankInfo.bankTabRightsAndSlots rightsAndSlots.tabId
      { g with
        ranks := g.ranks.set rankId rankInfo
        rows :=
          if saveToDB then
            { g.rows with
              rights :=
                g.rows.rights.insert ⟨(guildBR.tabId, rankInfo.rankId), guildBR.rights, guildBR.slots⟩ }
          else g.rows }

/-- `Guild::_CreateRank`. A copy of the new rank is stored before its tabs are created. The rows are
written in one transaction, which fails if `guild_rank` has the id already. -/
def createRank (g : Guild) : Guild :=
  let newRankId := g.ranks.length
  if newRankId ≥ guildRanksMaxCount then g
  else
    let info := RankInfo.new newRankId
    let (_, rights) := info.createMissingTabsIfNeeded g.purchasedTabs g.rows.rights
    { g with
      ranks := g.ranks ++ [info]
      rows :=
        if newRankId ∈ g.rows.ranks then g.rows
        else { g.rows with ranks := insert newRankId g.rows.ranks, rights := rights } }

/-- `Guild::_CreateDefaultGuildRanks`: the rows are deleted, and five ranks created. -/
def createDefaultGuildRanks (g : Guild) : Guild :=
  ({ g with rows := { g.rows with ranks := ∅, rights := Table.empty BankRight.key } } : Guild)
    |>.createRank |>.createRank |>.createRank |>.createRank |>.createRank

/-- `CreateMissingTabsIfNeeded` on one rank after others. -/
def createMissing (tabs : ℕ) (s : List RankInfo × Table BankRight.key) (r : RankInfo) :
    List RankInfo × Table BankRight.key :=
  let p := r.createMissingTabsIfNeeded tabs s.2
  (s.1 ++ [p.1], p.2)

/-- `Guild::_CreateNewBankTab`. -/
def createNewBankTab (g : Guild) : Guild :=
  let tabId := g.purchasedTabs
  let p := g.ranks.foldl (createMissing (tabId + 1)) ([], g.rows.rights)
  ⟨p.1, tabId + 1, { g.rows with tabs := insert tabId (g.rows.tabs.erase tabId), rights := p.2 }⟩

/-! ### Loading -/

/-- `Guild::LoadBankRightFromDB`. -/
def loadBankRightFromDB (g : Guild) (row : BankRight) : Guild :=
  g.setRankBankTabRightsAndSlots row.key.2 ⟨row.key.1, row.rights, row.slots⟩ false

/-- The loop body of `Validate` over the ranks: whether they are broken so far, the ranks before
this one, and the rows. -/
def validateRank (tabs : ℕ) (s : Bool × List RankInfo × Table BankRight.key) (r : RankInfo) :
    Bool × List RankInfo × Table BankRight.key :=
  if r.rankId ≠ s.2.1.length then (true, s.2.1 ++ [r], s.2.2)
  else (s.1, createMissing tabs s.2 r)

/-- The part of `Guild::Validate` about the ranks. -/
def validate (g : Guild) : Guild :=
  if g.ranks.length < guildRanksMinCount ∨ g.ranks.length > guildRanksMaxCount then
    createDefaultGuildRanks { g with ranks := [] }
  else
    let s := g.ranks.foldl (validateRank g.purchasedTabs) (false, [], g.rows.rights)
    let g : Guild := { g with ranks := s.2.1, rows := { g.rows with rights := s.2.2 } }
    if s.1 then createDefaultGuildRanks { g with ranks := [] } else g

end Guild

open Guild

/-- `GuildMgr::LoadGuilds` for one guild: `LoadFromDB`, `LoadRankFromDB` on the ranks in their order,
`LoadBankRightFromDB` on the rights, then `Validate`. -/
def load (rows : Rows) : Guild :=
  let g : Guild :=
    ⟨rows.ranks.sort.map RankInfo.new, min (rows.tabs.card % 256) guildBankMaxTabs, rows⟩
  (rows.rights.toList.foldl loadBankRightFromDB g).validate

/-! ### Requests -/

/-- `_GetGuildBankTabPrice`. -/
def getGuildBankTabPrice : ℕ → ℕ
  | 0 => 100
  | 1 => 250
  | 2 => 500
  | 3 => 1000
  | 4 => 2500
  | 5 => 5000
  | _ => 0

/-- `GOLD`. -/
def gold : ℕ := 10000

/-- The requests, with what their checks ask of the player. -/
inductive Op
  | handleBuyBankTab (tabId : ℕ) (isMember : Bool) (money : ℕ)
  | handleAddNewRank (isLeader : Bool)
  | handleRemoveRank (isLeader : Bool) (rankId : ℕ)
  | handleSetRankInfo (isLeader : Bool) (rankId : ℕ)
    (rightsAndSlots : List GuildBankRightsAndSlots)

/-- `Guild::HandleBuyBankTab`. -/
def handleBuyBankTab (g : Guild) (tabId : ℕ) (isMember : Bool) (money : ℕ) : Guild :=
  let tabCost := getGuildBankTabPrice tabId * gold
  if !isMember then g
  else if g.purchasedTabs ≥ guildBankMaxTabs then g
  else if tabId ≠ g.purchasedTabs then g
  else if tabCost = 0 then g
  else if money < tabCost then g
  else g.createNewBankTab

/-- `Guild::HandleAddNewRank`. -/
def handleAddNewRank (g : Guild) (isLeader : Bool) : Guild :=
  if g.ranks.length ≥ guildRanksMaxCount then g
  else if isLeader then g.createRank
  else g

/-- `Guild::HandleRemoveRank`: the rows of the rank are deleted, and from `guild_rank` those of the
ranks after it too; the last rank goes. -/
def handleRemoveRank (g : Guild) (isLeader : Bool) (rankId : ℕ) : Guild :=
  if g.ranks.length ≤ guildRanksMinCount ∨ rankId ≥ g.ranks.length ∨ !isLeader then g
  else
    { g with
      ranks := g.ranks.dropLast
      rows :=
        { g.rows with
          ranks := g.rows.ranks.filter (· < rankId)
          rights := g.rows.rights.filter fun row => row.key.2 ≠ rankId } }

/-- `Guild::HandleSetRankInfo`. -/
def handleSetRankInfo (g : Guild) (isLeader : Bool) (rankId : ℕ)
    (rightsAndSlots : List GuildBankRightsAndSlots) : Guild :=
  if !isLeader then g
  else
    match g.ranks[rankId]? with
    | none => g
    | some _ => rightsAndSlots.foldl (fun g r => g.setRankBankTabRightsAndSlots rankId r true) g

def step (g : Guild) : Op → Guild
  | .handleBuyBankTab tabId isMember money => handleBuyBankTab g tabId isMember money
  | .handleAddNewRank isLeader => handleAddNewRank g isLeader
  | .handleRemoveRank isLeader rankId => handleRemoveRank g isLeader rankId
  | .handleSetRankInfo isLeader rankId rightsAndSlots =>
    handleSetRankInfo g isLeader rankId rightsAndSlots

/-- The rights and slots of every rank, by tab. -/
def tabRights (g : Guild) : List (List (UInt8 × UInt32)) :=
  g.ranks.map fun r =>
    (List.range guildBankMaxTabs).map fun i => (r.getBankTabRights i, r.getBankTabSlotsPerDay i)

/-- The rights by tab are those that a reload of the rows gives. -/
def InSync (g : Guild) : Prop := tabRights g = tabRights (load g.rows)

instance : DecidablePred InSync := fun _ => inferInstanceAs (Decidable (_ = _))

variable {g : Guild} {rows : Rows} {rights : Table BankRight.key}
  {e e' : ℕ → ℕ → GuildBankRightsAndSlots} {k n rid i tabs : ℕ}

/-! ### Ranks numbered from zero on -/

/-- The ranks `0`, …, `k - 1` with the entries `e`. -/
def ranksOf (k : ℕ) (e : ℕ → ℕ → GuildBankRightsAndSlots) : List RankInfo :=
  (List.range k).map fun rid => ⟨rid, e rid⟩

@[simp] theorem length_ranksOf : (ranksOf k e).length = k := by
  simp [ranksOf]

theorem ranksOf_succ : ranksOf (k + 1) e = ranksOf k e ++ [⟨k, e k⟩] := by
  simp [ranksOf, List.range_succ]

theorem getElem?_ranksOf (h : rid < k) : (ranksOf k e)[rid]? = some ⟨rid, e rid⟩ := by
  simp [ranksOf, List.getElem?_range h]

theorem ranksOf_congr (h : ∀ rid < k, e rid = e' rid) : ranksOf k e = ranksOf k e' := by
  apply List.map_congr_left
  intro rid hrid
  rw [h rid (List.mem_range.1 hrid)]

theorem set_ranksOf (f : ℕ → GuildBankRightsAndSlots) :
    (ranksOf k e).set rid ⟨rid, f⟩ = ranksOf k (Function.update e rid f) := by
  apply List.ext_getElem?
  intro j
  rw [List.getElem?_set]
  by_cases hj : j < k
  · rw [getElem?_ranksOf hj, getElem?_ranksOf hj, length_ranksOf]
    by_cases hrid : rid = j
    · subst hrid
      simp [hj]
    · rw [if_neg hrid, Function.update_of_ne (Ne.symm hrid)]
  · have hlen : (ranksOf k e).length ≤ j := by
      simpa using hj
    have hlen' : (ranksOf k (Function.update e rid f)).length ≤ j := by
      simpa using hj
    rw [List.getElem?_eq_none hlen, List.getElem?_eq_none hlen', length_ranksOf]
    split_ifs
    · omega
    · rfl
    · rfl

/-! ### Missing tabs -/

namespace RankInfo

variable {r : RankInfo}

/-- The entry after `CreateMissingTabsIfNeeded`. -/
def filledTab (r : RankInfo) (i : ℕ) : GuildBankRightsAndSlots :=
  if (r.bankTabRightsAndSlots i).tabId = i then r.bankTabRightsAndSlots i else r.missingTab i

/-- The row of the entry. -/
def rowOf (rid i : ℕ) (x : GuildBankRightsAndSlots) : BankRight := ⟨(i, rid), x.rights, x.slots⟩

@[simp] theorem key_rowOf (rid i : ℕ) (x : GuildBankRightsAndSlots) :
    (rowOf rid i x).key = (i, rid) := rfl

/-- `CreateMissingTabsIfNeeded` fills the entries below `tabs`, and writes a row for each that was
not set. -/
theorem createMissingTabsIfNeeded_spec (r : RankInfo) (tabs : ℕ) (rights : Table BankRight.key) :
    (r.createMissingTabsIfNeeded tabs rights).1 =
        ⟨r.rankId, fun i => if i < tabs then r.filledTab i else r.bankTabRightsAndSlots i⟩ ∧
      ∀ i rid, (r.createMissingTabsIfNeeded tabs rights).2.find (i, rid) =
        if rid = r.rankId ∧ i < tabs ∧ (r.bankTabRightsAndSlots i).tabId ≠ i
          then some (rowOf rid i (r.missingTab i)) else rights.find (i, rid) := by
  induction tabs with
  | zero => simp [createMissingTabsIfNeeded]
  | succ tabs ih =>
    obtain ⟨hrank, hrows⟩ := ih
    have hstep : r.createMissingTabsIfNeeded (tabs + 1) rights =
        createMissingTab (r.createMissingTabsIfNeeded tabs rights) tabs := by
      simp [createMissingTabsIfNeeded, List.range_succ]
    have hentry : (r.createMissingTabsIfNeeded tabs rights).1.bankTabRightsAndSlots tabs =
        r.bankTabRightsAndSlots tabs := by
      simp [hrank]
    have hmissing : (r.createMissingTabsIfNeeded tabs rights).1.missingTab tabs =
        r.missingTab tabs := by
      simp [missingTab, hrank]
    rw [hstep]
    unfold createMissingTab
    rw [hentry, hmissing]
    by_cases hset : (r.bankTabRightsAndSlots tabs).tabId = tabs
    · rw [if_pos hset]
      constructor
      · rw [hrank]
        congr 1
        funext i
        by_cases hi : i = tabs
        · subst hi
          simp [filledTab, hset]
        · simp [show i < tabs + 1 ↔ i < tabs by omega]
      · intro i rid
        rw [hrows]
        by_cases hi : i = tabs
        · subst hi
          simp [hset]
        · simp [show i < tabs + 1 ↔ i < tabs by omega]
    · rw [if_neg hset]
      constructor
      · dsimp only
        rw [hrank]
        congr 1
        funext i
        by_cases hi : i = tabs
        · subst hi
          simp [filledTab, hset]
        · rw [Function.update_of_ne hi]
          simp [show i < tabs + 1 ↔ i < tabs by omega]
      · intro i rid
        dsimp only
        rw [Table.find_insert, hrows, hrank]
        by_cases hi : i = tabs
        · subst hi
          by_cases hrid : rid = r.rankId
          · simp [hrid, hset, rowOf]
          · simp [hrid]
        · simp [hi, show i < tabs + 1 ↔ i < tabs by omega]

end RankInfo

/-- The entries after `CreateMissingTabsIfNeeded` on every rank. -/
def fill (tabs : ℕ) (e : ℕ → ℕ → GuildBankRightsAndSlots) (rid i : ℕ) : GuildBankRightsAndSlots :=
  if i < tabs then (⟨rid, e rid⟩ : RankInfo).filledTab i else e rid i

theorem foldl_createMissing (tabs k : ℕ) (e : ℕ → ℕ → GuildBankRightsAndSlots)
    (rights : Table BankRight.key) :
    ((ranksOf k e).foldl (createMissing tabs) ([], rights)).1 = ranksOf k (fill tabs e) ∧
      ∀ i rid, ((ranksOf k e).foldl (createMissing tabs) ([], rights)).2.find (i, rid) =
        if rid < k ∧ i < tabs ∧ (e rid i).tabId ≠ i
          then some (RankInfo.rowOf rid i ((⟨rid, e rid⟩ : RankInfo).missingTab i))
          else rights.find (i, rid) := by
  induction k with
  | zero => simp [ranksOf]
  | succ k ih =>
    obtain ⟨hranks, hrows⟩ := ih
    obtain ⟨hrank, hrows'⟩ := RankInfo.createMissingTabsIfNeeded_spec ⟨k, e k⟩ tabs
      ((ranksOf k e).foldl (createMissing tabs) ([], rights)).2
    rw [ranksOf_succ, List.foldl_append]
    simp only [List.foldl_cons, List.foldl_nil]
    constructor
    · simp only [createMissing, hranks, hrank, ranksOf_succ]
      rfl
    · intro i rid
      simp only [createMissing, hrows', hrows]
      by_cases hrid : rid = k
      · subst hrid
        simp
      · simp [hrid, show rid < k + 1 ↔ rid < k by omega]

/-! ### What a reload gives -/

/-- `Validate` finds nothing broken in ranks numbered from zero on. -/
theorem foldl_validateRank (tabs k : ℕ) (e : ℕ → ℕ → GuildBankRightsAndSlots)
    (rights : Table BankRight.key) :
    (ranksOf k e).foldl (validateRank tabs) (false, [], rights) =
      (false, (ranksOf k e).foldl (createMissing tabs) ([], rights)) := by
  induction k with
  | zero => rfl
  | succ k ih =>
    rw [ranksOf_succ, List.foldl_append, List.foldl_append, ih]
    have hlen : ((ranksOf k e).foldl (createMissing tabs) ([], rights)).1.length = k := by
      rw [(foldl_createMissing tabs k e rights).1, length_ranksOf]
    simp [validateRank, hlen]

theorem length_foldl_validateRank (tabs : ℕ) (l : List RankInfo) (rights : Table BankRight.key) :
    (l.foldl (validateRank tabs) (false, [], rights)).2.1.length = l.length := by
  induction l using List.reverseRecOn with
  | nil => rfl
  | append_singleton l r ih =>
    rw [List.foldl_append, List.length_append, ← ih]
    simp only [List.foldl_cons, List.foldl_nil, validateRank]
    split_ifs <;> simp [createMissing]

/-- If it finds nothing broken, the ranks are numbered from zero on. -/
theorem rankId_eq_of_validateRank {l : List RankInfo}
    (h : (l.foldl (validateRank tabs) (false, [], rights)).1 = false) :
    l.map RankInfo.rankId = List.range l.length := by
  induction l using List.reverseRecOn with
  | nil => rfl
  | append_singleton l r ih =>
    rw [List.foldl_append] at h
    simp only [List.foldl_cons, List.foldl_nil, validateRank, length_foldl_validateRank] at h
    split_ifs at h with hid
    · rw [List.map_append, ih h, List.length_append, List.length_singleton, List.range_succ,
        List.map_singleton, not_not.1 hid]

/-- The entry that a row becomes. -/
def entryOf (rid : ℕ) (row : BankRight) : GuildBankRightsAndSlots :=
  if rid = grGuildMaster then
    (⟨row.key.1, row.rights, row.slots⟩ : GuildBankRightsAndSlots).setGuildMasterValues
  else ⟨row.key.1, row.rights, row.slots⟩

theorem tabId_entryOf (rid : ℕ) (row : BankRight) : (entryOf rid row).tabId = row.key.1 := by
  unfold entryOf GuildBankRightsAndSlots.setGuildMasterValues
  split_ifs <;> rfl

theorem setBankTabSlotsAndRights_eq (rid : ℕ) (f : ℕ → GuildBankRightsAndSlots)
    (x : GuildBankRightsAndSlots) :
    (⟨rid, f⟩ : RankInfo).setBankTabSlotsAndRights x =
      ⟨rid, Function.update f x.tabId (entryOf rid ⟨(x.tabId, rid), x.rights, x.slots⟩)⟩ := by
  unfold RankInfo.setBankTabSlotsAndRights entryOf GuildBankRightsAndSlots.setGuildMasterValues
  split_ifs <;> rfl

theorem setRankBankTabRightsAndSlots_eq {x : GuildBankRightsAndSlots} (saveToDB : Bool)
    (hranks : g.ranks = ranksOf k e) (hx : x.tabId < g.purchasedTabs) (hrid : rid < k) :
    g.setRankBankTabRightsAndSlots rid x saveToDB =
      let y := entryOf rid ⟨(x.tabId, rid), x.rights, x.slots⟩
      { g with
        ranks := ranksOf k (Function.update e rid (Function.update (e rid) x.tabId y))
        rows :=
          if saveToDB then
            { g.rows with rights := g.rows.rights.insert (RankInfo.rowOf rid x.tabId y) }
          else g.rows } := by
  unfold setRankBankTabRightsAndSlots
  rw [if_neg (not_le.2 hx), hranks, getElem?_ranksOf hrid]
  simp only [setBankTabSlotsAndRights_eq, set_ranksOf, Function.update_self, tabId_entryOf,
    RankInfo.rowOf]

theorem setRankBankTabRightsAndSlots_of_not {x : GuildBankRightsAndSlots} {saveToDB : Bool}
    (hranks : g.ranks = ranksOf k e) (h : ¬ (x.tabId < g.purchasedTabs ∧ rid < k)) :
    g.setRankBankTabRightsAndSlots rid x saveToDB = g := by
  unfold setRankBankTabRightsAndSlots
  by_cases hx : x.tabId ≥ g.purchasedTabs
  · rw [if_pos hx]
  · have hnone : g.ranks[rid]? = none := by
      rw [hranks, List.getElem?_eq_none]
      rw [length_ranksOf]
      omega
    rw [if_neg hx, hnone]

/-- The entry after rows are loaded. -/
def loadedEntry (n : ℕ) (l : List BankRight) (e : ℕ → ℕ → GuildBankRightsAndSlots) (rid i : ℕ) :
    GuildBankRightsAndSlots :=
  match l.find? fun row => row.key = (i, rid) with
  | some row => if i < n then entryOf rid row else e rid i
  | none => e rid i

theorem foldl_loadBankRightFromDB {l : List BankRight} (hl : (l.map BankRight.key).Nodup)
    (hranks : g.ranks = ranksOf k e) :
    l.foldl loadBankRightFromDB g =
      { g with ranks := ranksOf k (loadedEntry g.purchasedTabs l e) } := by
  induction l generalizing g e with
  | nil =>
    have he : loadedEntry g.purchasedTabs [] e = e := rfl
    rw [he, ← hranks]
    rfl
  | cons row l ih =>
    obtain ⟨hrow, hl⟩ := List.nodup_cons.1 hl
    rw [List.foldl_cons]
    have hnone : ∀ i rid, row.key = (i, rid) → l.find? (fun row => row.key = (i, rid)) = none := by
      intro i rid hkey
      rw [List.find?_eq_none]
      intro row' hmem heq
      rw [decide_eq_true_eq] at heq
      exact hrow (List.mem_map.2 ⟨row', hmem, heq.trans hkey.symm⟩)
    by_cases hin : row.key.1 < g.purchasedTabs ∧ row.key.2 < k
    · have hset : loadBankRightFromDB g row = _ :=
        setRankBankTabRightsAndSlots_eq (x := ⟨row.key.1, row.rights, row.slots⟩) false hranks
          hin.1 hin.2
      rw [hset, ih hl rfl]
      congr 1
      apply ranksOf_congr
      intro rid hrid
      funext i
      simp only [loadedEntry]
      by_cases hkey : row.key = (i, rid)
      · have hi : row.key.1 = i := congrArg Prod.fst hkey
        have hr : row.key.2 = rid := congrArg Prod.snd hkey
        rw [hnone i rid hkey, List.find?_cons_of_pos (by simpa using hkey)]
        subst hi hr
        simp [hin.1, entryOf]
      · rw [List.find?_cons_of_neg (by simpa using hkey)]
        have hsame : Function.update e row.key.2 (Function.update (e row.key.2) row.key.1
            (entryOf row.key.2 ⟨(row.key.1, row.key.2), row.rights, row.slots⟩)) rid i =
            e rid i := by
          by_cases hr : rid = row.key.2
          · subst hr
            rw [Function.update_self, Function.update_of_ne]
            rintro rfl
            exact hkey rfl
          · rw [Function.update_of_ne hr]
        simp only [hsame]
    · have hset : loadBankRightFromDB g row = g := setRankBankTabRightsAndSlots_of_not hranks hin
      rw [hset, ih hl hranks]
      congr 1
      apply ranksOf_congr
      intro rid hrid
      funext i
      simp only [loadedEntry]
      by_cases hkey : row.key = (i, rid)
      · have hi : ¬ i < g.purchasedTabs := by
          rw [hkey] at hin
          exact fun hlt => hin ⟨hlt, hrid⟩
        rw [hnone i rid hkey, List.find?_cons_of_pos (by simpa using hkey)]
        simp [hi]
      · rw [List.find?_cons_of_neg (by simpa using hkey)]

/-- How many tabs `LoadFromDB` makes. -/
def loadedTabs (rows : Rows) : ℕ := min (rows.tabs.card % 256) guildBankMaxTabs

theorem validate_ranksOf (hranks : g.ranks = ranksOf k e) (hmin : guildRanksMinCount ≤ k)
    (hmax : k ≤ guildRanksMaxCount) :
    g.validate =
      ⟨ranksOf k (fill g.purchasedTabs e), g.purchasedTabs, { g.rows with
        rights :=
          ((ranksOf k e).foldl (createMissing g.purchasedTabs) ([], g.rows.rights)).2 }⟩ := by
  unfold validate
  have hcount : ¬ ((ranksOf k e).length < guildRanksMinCount ∨
      (ranksOf k e).length > guildRanksMaxCount) := by
    rw [length_ranksOf]
    omega
  rw [hranks, if_neg hcount, foldl_validateRank]
  simp only [Bool.false_eq_true, if_false, (foldl_createMissing g.purchasedTabs k e g.rows.rights).1]

/-- The entries once the rows are read. -/
def readEntry (rows : Rows) : ℕ → ℕ → GuildBankRightsAndSlots :=
  loadedEntry (loadedTabs rows) rows.rights.toList fun _ _ => .undefined

theorem readEntry_of_none (h : rows.rights.find (i, rid) = none) :
    readEntry rows rid i = .undefined := by
  have hfind : (rows.rights.toList.find? fun row => row.key = (i, rid)) = none := h
  unfold readEntry loadedEntry
  rw [hfind]

theorem readEntry_of_some {row : BankRight} (h : rows.rights.find (i, rid) = some row) :
    readEntry rows rid i = if i < loadedTabs rows then entryOf rid row else .undefined := by
  have hfind : (rows.rights.toList.find? fun row => row.key = (i, rid)) = some row := h
  unfold readEntry loadedEntry
  rw [hfind]

/-- A tab has an entry exactly if it has a row. -/
theorem tabId_readEntry (hi : i < loadedTabs rows) :
    (readEntry rows rid i).tabId ≠ i ↔ rows.rights.find (i, rid) = none := by
  cases hrow : rows.rights.find (i, rid) with
  | none =>
    have hle : loadedTabs rows ≤ guildBankMaxTabs := min_le_right _ _
    have hmax : guildBankMaxTabs < tabUndefined := by decide
    rw [readEntry_of_none hrow]
    refine iff_of_true (fun heq => ?_) rfl
    have : tabUndefined = i := heq
    omega
  | some row =>
    have hkey := (Table.of_find hrow).2
    rw [readEntry_of_some hrow, if_pos hi, tabId_entryOf, hkey]
    simp

theorem missingTab_readEntry (h : rows.rights.find (i, rid) = none) :
    (⟨rid, readEntry rows rid⟩ : RankInfo).missingTab i = (RankInfo.new rid).missingTab i := by
  unfold RankInfo.missingTab RankInfo.new
  simp only [readEntry_of_none h]

/-- The guild that a reload gives, if the ranks are numbered from zero on. -/
theorem load_of_range (hrows : rows.ranks = Finset.range k) (hmin : guildRanksMinCount ≤ k)
    (hmax : k ≤ guildRanksMaxCount) :
    load rows = ⟨ranksOf k (fill (loadedTabs rows) (readEntry rows)), loadedTabs rows, { rows with
      rights := ((ranksOf k (readEntry rows)).foldl (createMissing (loadedTabs rows))
        ([], rows.rights)).2 }⟩ := by
  have hsort : rows.ranks.sort.map RankInfo.new = ranksOf k fun _ _ => .undefined := by
    rw [hrows, Finset.sort_range]
    rfl
  unfold load
  dsimp only
  rw [foldl_loadBankRightFromDB rows.rights.nodup hsort, validate_ranksOf rfl hmin hmax]
  rfl

/-- The entries that a reload gives: what the row says, and nothing or everything without one. -/
def reloaded (rows : Rows) (rid i : ℕ) : GuildBankRightsAndSlots :=
  if i < loadedTabs rows then
    match rows.rights.find (i, rid) with
    | some row => entryOf rid row
    | none => (RankInfo.new rid).missingTab i
  else .undefined

theorem fill_readEntry (rows : Rows) : fill (loadedTabs rows) (readEntry rows) = reloaded rows := by
  funext rid i
  unfold fill reloaded RankInfo.filledTab
  by_cases hi : i < loadedTabs rows
  · rw [if_pos hi, if_pos hi]
    cases hrow : rows.rights.find (i, rid) with
    | none => exact (if_neg ((tabId_readEntry hi).2 hrow)).trans (missingTab_readEntry hrow)
    | some row =>
      have hset : (readEntry rows rid i).tabId = i := by
        by_contra hne
        exact Option.some_ne_none row (hrow.symm.trans ((tabId_readEntry hi).1 hne))
      rw [if_pos hset]
      exact (readEntry_of_some hrow).trans (if_pos hi)
  · rw [if_neg hi, if_neg hi]
    cases hrow : rows.rights.find (i, rid) with
    | none => exact readEntry_of_none hrow
    | some row => exact (readEntry_of_some hrow).trans (if_neg hi)

/-- The rows after a reload: those that were missing are there. -/
theorem find_load (hrows : rows.ranks = Finset.range k) (hmin : guildRanksMinCount ≤ k)
    (hmax : k ≤ guildRanksMaxCount) (hi : i < loadedTabs rows) (hrid : rid < k) :
    (load rows).rows.rights.find (i, rid) = some ((rows.rights.find (i, rid)).getD
      (RankInfo.rowOf rid i ((RankInfo.new rid).missingTab i))) := by
  rw [load_of_range hrows hmin hmax]
  dsimp only
  rw [(foldl_createMissing _ _ _ _).2]
  cases hrow : rows.rights.find (i, rid) with
  | none => rw [if_pos ⟨hrid, hi, (tabId_readEntry hi).2 hrow⟩, missingTab_readEntry hrow,
      Option.getD_none]
  | some row =>
    rw [if_neg, Option.getD_some]
    intro hcontra
    exact Option.some_ne_none row (hrow.symm.trans ((tabId_readEntry hi).1 hcontra.2.2))

/-- Guilds with the same number of ranks have the same rights by tab if the entries agree. -/
theorem tabRights_eq_iff {g' : Guild} (h : g.ranks = ranksOf k e) (h' : g'.ranks = ranksOf k e') :
    tabRights g = tabRights g' ↔
      ∀ rid < k, ∀ i < guildBankMaxTabs, (e rid i).value = (e' rid i).value := by
  unfold tabRights
  rw [h, h', ranksOf, ranksOf]
  simp only [List.map_map, List.map_inj_left, List.mem_range, Function.comp_apply]
  refine forall₂_congr fun rid _ => forall₂_congr fun i hi => ?_
  simp [RankInfo.getBankTabRights, RankInfo.getBankTabSlotsPerDay, hi,
    GuildBankRightsAndSlots.value]

/-! ### The rows of the guild -/

/-- The rights of a rank that a row gives. -/
def rowValue (rid : ℕ) (row : BankRight) : UInt8 × UInt32 := (entryOf rid row).value

/-- The ranks and tabs are numbered from zero on, and so are their rows. -/
structure Numbered (g : Guild) (k : ℕ) (e : ℕ → ℕ → GuildBankRightsAndSlots) : Prop where
  ranks : g.ranks = ranksOf k e
  rankRows : g.rows.ranks = Finset.range k
  tabs_le : g.purchasedTabs ≤ guildBankMaxTabs
  tabRows : g.rows.tabs = Finset.range g.purchasedTabs
  unset : ∀ rid < k, ∀ i, g.purchasedTabs ≤ i → e rid i = .undefined

/-- Each rank has a row for each tab, which gives the rights in memory. -/
def Written (g : Guild) (k : ℕ) (e : ℕ → ℕ → GuildBankRightsAndSlots) : Prop :=
  ∀ rid < k, ∀ i < g.purchasedTabs, ∃ row, g.rows.rights.find (i, rid) = some row ∧
    (e rid i).value = rowValue rid row

/-- What the requests keep. -/
def Stored (g : Guild) : Prop :=
  ∃ k e, Numbered g k e ∧ guildRanksMinCount ≤ k ∧ k ≤ guildRanksMaxCount ∧ Written g k e

theorem Numbered.loadedTabs_eq (h : Numbered g k e) : loadedTabs g.rows = g.purchasedTabs := by
  have hle := h.tabs_le
  have hmax : guildBankMaxTabs < 256 := by decide
  unfold loadedTabs
  rw [h.tabRows, Finset.card_range, Nat.mod_eq_of_lt (by omega)]
  omega

theorem Numbered.inSync_iff (h : Numbered g k e) (hmin : guildRanksMinCount ≤ k)
    (hmax : k ≤ guildRanksMaxCount) :
    InSync g ↔ ∀ rid < k, ∀ i < g.purchasedTabs, (e rid i).value = (reloaded g.rows rid i).value := by
  have hload : (load g.rows).ranks = ranksOf k (reloaded g.rows) := by
    rw [load_of_range h.rankRows hmin hmax, fill_readEntry]
  have hle := h.tabs_le
  unfold InSync
  rw [tabRights_eq_iff h.ranks hload]
  refine forall₂_congr fun rid hrid => ⟨fun heq i hi => heq i (hi.trans_le hle), fun heq i _ => ?_⟩
  by_cases hi : i < g.purchasedTabs
  · exact heq i hi
  · rw [h.unset rid hrid i (not_lt.1 hi)]
    unfold reloaded
    rw [h.loadedTabs_eq, if_neg hi]

theorem inSync_of_stored (h : Stored g) : InSync g := by
  obtain ⟨k, e, hnum, hmin, hmax, hwritten⟩ := h
  rw [hnum.inSync_iff hmin hmax]
  intro rid hrid i hi
  obtain ⟨row, hrow, hval⟩ := hwritten rid hrid i hi
  unfold reloaded
  rw [hnum.loadedTabs_eq, if_pos hi, hrow]
  exact hval

/-! ### Creating ranks -/

theorem createRank_spec (h : Numbered g k e) (hmax : k < guildRanksMaxCount) :
    Numbered g.createRank (k + 1) (Function.update e k fun _ => .undefined) ∧
      g.createRank.purchasedTabs = g.purchasedTabs ∧
      ∀ i < g.purchasedTabs, ∀ rid, g.createRank.rows.rights.find (i, rid) =
        if rid = k then some (RankInfo.rowOf k i ((RankInfo.new k).missingTab i))
        else g.rows.rights.find (i, rid) := by
  have hlen : g.ranks.length = k := by
    rw [h.ranks, length_ranksOf]
  have hnot : k ∉ g.rows.ranks := by
    rw [h.rankRows, Finset.mem_range]
    exact lt_irrefl k
  have hspec := (RankInfo.createMissingTabsIfNeeded_spec (RankInfo.new k) g.purchasedTabs
    g.rows.rights).2
  unfold createRank
  simp only [hlen, ge_iff_le, if_neg (not_le.2 hmax), if_neg hnot]
  refine ⟨⟨?_, ?_, h.tabs_le, h.tabRows, ?_⟩, trivial, ?_⟩
  · dsimp only
    rw [h.ranks, ranksOf_succ, Function.update_self]
    congr 1
    apply ranksOf_congr
    intro rid hrid
    rw [Function.update_of_ne hrid.ne]
  · dsimp only
    rw [h.rankRows, Finset.range_add_one]
  · intro rid hrid i hi
    by_cases hk : rid = k
    · rw [hk, Function.update_self]
    · rw [Function.update_of_ne hk]
      exact h.unset rid (by omega) i hi
  · intro i hi rid
    rw [hspec]
    have hle := h.tabs_le
    have hset : tabUndefined ≠ i := by
      have : guildBankMaxTabs < tabUndefined := by decide
      omega
    by_cases hk : rid = k
    · subst hk
      rw [if_pos rfl, if_pos ⟨rfl, hi, hset⟩]
    · rw [if_neg hk, if_neg fun hc => hk hc.1]

theorem createDefaultGuildRanks_spec (htabs : g.purchasedTabs ≤ guildBankMaxTabs)
    (hrows : g.rows.tabs = Finset.range g.purchasedTabs) (hranks : g.ranks = []) :
    Numbered g.createDefaultGuildRanks guildRanksMinCount (fun _ _ => .undefined) ∧
      g.createDefaultGuildRanks.purchasedTabs = g.purchasedTabs ∧
      ∀ i < g.purchasedTabs, g.createDefaultGuildRanks.rows.rights.find (i, grGuildMaster) =
        some (RankInfo.rowOf grGuildMaster i ((RankInfo.new grGuildMaster).missingTab i)) := by
  have hone : ∀ {g : Guild} {k : ℕ}, Numbered g k (fun _ _ => .undefined) →
      k < guildRanksMaxCount → Numbered g.createRank (k + 1) fun _ _ => .undefined := by
    intro g k h hk
    have hnum := (createRank_spec h hk).1
    rwa [Function.update_eq_self] at hnum
  have h₀ : Numbered ({ g with rows := { g.rows with ranks := ∅, rights := Table.empty BankRight.key } } :
      Guild) 0 fun _ _ => .undefined := ⟨hranks, rfl, htabs, hrows, fun _ h => absurd h (Nat.not_lt_zero _)⟩
  have h₁ := hone h₀ (by decide)
  have h₂ := hone h₁ (by decide)
  have h₃ := hone h₂ (by decide)
  have h₄ := hone h₃ (by decide)
  obtain ⟨-, hn₁, hf₁⟩ := createRank_spec h₀ (by decide)
  obtain ⟨-, hn₂, hf₂⟩ := createRank_spec h₁ (by decide)
  obtain ⟨-, hn₃, hf₃⟩ := createRank_spec h₂ (by decide)
  obtain ⟨-, hn₄, hf₄⟩ := createRank_spec h₃ (by decide)
  obtain ⟨-, hn₅, hf₅⟩ := createRank_spec h₄ (by decide)
  refine ⟨hone h₄ (by decide), ?_, fun i hi => ?_⟩
  · exact hn₅.trans (hn₄.trans (hn₃.trans (hn₂.trans hn₁)))
  · unfold createDefaultGuildRanks
    rw [hf₅ i (by rw [hn₄, hn₃, hn₂, hn₁]; exact hi), hf₄ i (by rw [hn₃, hn₂, hn₁]; exact hi),
      hf₃ i (by rw [hn₂, hn₁]; exact hi), hf₂ i (by rw [hn₁]; exact hi), hf₁ i hi]
    rfl

/-! ### Requests -/

/-- `HandleRemoveRank` names the last rank, as `HandleRemoveLowestRank` does, or is refused. -/
def RemovesLowest (g : Guild) : Op → Prop
  | .handleRemoveRank isLeader rankId =>
    isLeader = true → guildRanksMinCount < g.ranks.length → rankId < g.ranks.length →
      rankId + 1 = g.ranks.length
  | _ => True

theorem value_missingTab (r : RankInfo) (i : ℕ) :
    (r.missingTab i).value = rowValue r.rankId (RankInfo.rowOf r.rankId i (r.missingTab i)) ∧
      (r.rankId ≠ grGuildMaster → (r.missingTab i).value = (r.bankTabRightsAndSlots i).value) := by
  unfold rowValue entryOf RankInfo.rowOf RankInfo.missingTab
  constructor
  · split_ifs <;> rfl
  · intro hr
    rw [if_neg hr]
    rfl

theorem stored_createNewBankTab (h : Stored g) (htabs : g.purchasedTabs < guildBankMaxTabs) :
    Stored g.createNewBankTab := by
  obtain ⟨k, e, hnum, hmin, hmax, hwritten⟩ := h
  obtain ⟨hranks, hrows⟩ := foldl_createMissing (g.purchasedTabs + 1) k e g.rows.rights
  have hnew : ∀ rid < k, (e rid g.purchasedTabs).tabId ≠ g.purchasedTabs := by
    intro rid hrid heq
    rw [hnum.unset rid hrid _ le_rfl] at heq
    have : tabUndefined = g.purchasedTabs := heq
    have : guildBankMaxTabs < tabUndefined := by decide
    omega
  refine ⟨k, fill (g.purchasedTabs + 1) e, ⟨?_, hnum.rankRows, htabs, ?_, ?_⟩, hmin, hmax, ?_⟩
  · unfold createNewBankTab
    rw [hnum.ranks]
    exact hranks
  · show insert g.purchasedTabs (g.rows.tabs.erase g.purchasedTabs) = _
    rw [hnum.tabRows]
    ext j
    simp only [Finset.mem_insert, Finset.mem_erase, Finset.mem_range]
    show j = g.purchasedTabs ∨ _ ↔ j < g.purchasedTabs + 1
    omega
  · intro rid hrid i hi
    have hi' : ¬ i < g.purchasedTabs + 1 := not_lt.2 hi
    unfold fill
    rw [if_neg hi']
    exact hnum.unset rid hrid i (by omega)
  · intro rid hrid i hi
    have hi' : i < g.purchasedTabs + 1 := hi
    unfold createNewBankTab fill RankInfo.filledTab
    rw [hnum.ranks, hrows, if_pos hi']
    dsimp only
    by_cases hset : (e rid i).tabId = i
    · rw [if_pos hset, if_neg fun hc => hc.2.2 hset]
      refine hwritten rid hrid i ?_
      have : i ≠ g.purchasedTabs := fun heq => hnew rid hrid (heq ▸ hset)
      omega
    · rw [if_neg hset, if_pos ⟨hrid, hi', hset⟩]
      exact ⟨_, rfl, (value_missingTab ⟨rid, e rid⟩ i).1⟩

theorem stored_createRank (h : Stored g) (hlt : g.ranks.length < guildRanksMaxCount) :
    Stored g.createRank := by
  obtain ⟨k, e, hnum, hmin, hmax, hwritten⟩ := h
  rw [hnum.ranks, length_ranksOf] at hlt
  obtain ⟨hnum', htabs, hrows⟩ := createRank_spec hnum hlt
  refine ⟨k + 1, _, hnum', by omega, hlt, ?_⟩
  intro rid hrid i hi
  rw [htabs] at hi
  rw [hrows i hi rid]
  by_cases hk : rid = k
  · subst hk
    have hne : rid ≠ grGuildMaster := by
      have : grGuildMaster < guildRanksMinCount := by decide
      omega
    rw [if_pos rfl, Function.update_self]
    obtain ⟨hval, hsame⟩ := value_missingTab (RankInfo.new rid) i
    exact ⟨_, rfl, (hsame hne).symm.trans hval⟩
  · rw [if_neg hk, Function.update_of_ne hk]
    exact hwritten rid (by omega) i hi

theorem stored_handleRemoveRank (h : Stored g) (isLeader : Bool) (rankId : ℕ)
    (hlow : RemovesLowest g (.handleRemoveRank isLeader rankId)) :
    Stored (handleRemoveRank g isLeader rankId) := by
  unfold handleRemoveRank
  split_ifs with hcheck
  · exact h
  obtain ⟨k, e, hnum, hmin, hmax, hwritten⟩ := h
  simp only [not_or, not_le, ge_iff_le, Bool.not_eq_true', Bool.not_eq_false] at hcheck
  obtain ⟨hcount, hrank, hleader⟩ := hcheck
  have hlast := hlow hleader hcount hrank
  rw [hnum.ranks, length_ranksOf] at hcount hlast
  obtain ⟨k, rfl⟩ : ∃ j, k = j + 1 := ⟨rankId, hlast.symm⟩
  obtain rfl : rankId = k := by omega
  refine ⟨rankId, e, ⟨?_, ?_, hnum.tabs_le, hnum.tabRows, ?_⟩, by omega, by omega, ?_⟩
  · dsimp only
    rw [hnum.ranks, ranksOf_succ, List.dropLast_concat]
  · dsimp only
    rw [hnum.rankRows]
    ext j
    simp only [Finset.mem_filter, Finset.mem_range]
    omega
  · intro rid hrid
    exact hnum.unset rid (by omega)
  · intro rid hrid i hi
    have hfind := Table.find_filter (t := g.rows.rights) (k := (i, rid))
      (p := fun row => row.key.2 ≠ rankId) (q := fun key : ℕ × ℕ => key.2 ≠ rankId)
      (fun row => decide_eq_true_iff)
    dsimp only at hfind ⊢
    rw [hfind, if_pos hrid.ne]
    exact hwritten rid (by omega) i hi

theorem stored_setRankBankTabRightsAndSlots (h : Stored g) (rankId : ℕ)
    (x : GuildBankRightsAndSlots) : Stored (g.setRankBankTabRightsAndSlots rankId x true) := by
  obtain ⟨k, e, hnum, hmin, hmax, hwritten⟩ := h
  by_cases hin : x.tabId < g.purchasedTabs ∧ rankId < k
  · rw [setRankBankTabRightsAndSlots_eq true hnum.ranks hin.1 hin.2]
    refine ⟨k, _, ⟨rfl, hnum.rankRows, hnum.tabs_le, hnum.tabRows, ?_⟩, hmin, hmax, ?_⟩
    · intro rid hrid i hi
      have hi' : g.purchasedTabs ≤ i := hi
      by_cases hr : rid = rankId
      · subst hr
        rw [Function.update_self, Function.update_of_ne (by omega)]
        exact hnum.unset rid hrid i hi
      · rw [Function.update_of_ne hr]
        exact hnum.unset rid hrid i hi
    · intro rid hrid i hi
      simp only [if_true]
      rw [Table.find_insert, RankInfo.key_rowOf]
      by_cases hkey : (i, rid) = (x.tabId, rankId)
      · obtain ⟨rfl, rfl⟩ := Prod.mk.inj hkey
        rw [if_pos rfl, Function.update_self, Function.update_self]
        refine ⟨_, rfl, ?_⟩
        unfold rowValue entryOf RankInfo.rowOf
        split_ifs <;> rfl
      · have hsame : Function.update e rankId (Function.update (e rankId) x.tabId
            (entryOf rankId ⟨(x.tabId, rankId), x.rights, x.slots⟩)) rid i = e rid i := by
          by_cases hr : rid = rankId
          · subst hr
            rw [Function.update_self, Function.update_of_ne fun hi => hkey (by rw [hi])]
          · rw [Function.update_of_ne hr]
        rw [if_neg hkey, hsame]
        exact hwritten rid hrid i hi
  · rw [setRankBankTabRightsAndSlots_of_not hnum.ranks hin]
    exact ⟨k, e, hnum, hmin, hmax, hwritten⟩

theorem stored_step (h : Stored g) {op : Op} (hop : RemovesLowest g op) : Stored (step g op) := by
  cases op with
  | handleBuyBankTab tabId isMember money =>
    show Stored (handleBuyBankTab g tabId isMember money)
    unfold handleBuyBankTab
    dsimp only
    split_ifs with hmember htabs htab hcost hmoney
    · exact h
    · exact h
    · exact h
    · exact h
    · exact h
    · exact stored_createNewBankTab h (not_le.1 htabs)
  | handleAddNewRank isLeader =>
    show Stored (handleAddNewRank g isLeader)
    unfold handleAddNewRank
    split_ifs with hcount
    · exact h
    · exact stored_createRank h (not_le.1 hcount)
    · exact h
  | handleRemoveRank isLeader rankId => exact stored_handleRemoveRank h isLeader rankId hop
  | handleSetRankInfo isLeader rankId rightsAndSlots =>
    show Stored (handleSetRankInfo g isLeader rankId rightsAndSlots)
    unfold handleSetRankInfo
    cases isLeader with
    | false => exact h
    | true =>
      rw [if_neg (by decide)]
      cases g.ranks[rankId]? with
      | none => exact h
      | some _ =>
        dsimp only
        induction rightsAndSlots generalizing g with
        | nil => exact h
        | cons x l ih => exact ih (stored_setRankBankTabRightsAndSlots h rankId x) trivial

/-! ### Loading -/

/-- The rows of the bank tabs are numbered from zero on, as they are written. -/
def TabsNumbered (rows : Rows) : Prop :=
  rows.tabs.card ≤ guildBankMaxTabs ∧ rows.tabs = Finset.range rows.tabs.card

instance : DecidablePred TabsNumbered := fun _ => inferInstanceAs (Decidable (_ ∧ _))

/-- The rows of the ranks are what `Validate` accepts. -/
def RanksNumbered (rows : Rows) : Prop :=
  guildRanksMinCount ≤ rows.ranks.card ∧ rows.ranks.card ≤ guildRanksMaxCount ∧
    rows.ranks = Finset.range rows.ranks.card

instance : DecidablePred RanksNumbered := fun _ => inferInstanceAs (Decidable (_ ∧ _ ∧ _))

theorem loadedTabs_of_numbered (h : TabsNumbered rows) : loadedTabs rows = rows.tabs.card := by
  have hle := h.1
  have hmax : guildBankMaxTabs < 256 := by decide
  unfold loadedTabs
  rw [Nat.mod_eq_of_lt (by omega)]
  omega

/-- Loading the rights changes no rank id and no row. -/
theorem loadBankRightFromDB_frame (g : Guild) (row : BankRight) :
    (loadBankRightFromDB g row).ranks.map RankInfo.rankId = g.ranks.map RankInfo.rankId ∧
      (loadBankRightFromDB g row).purchasedTabs = g.purchasedTabs ∧
      (loadBankRightFromDB g row).rows = g.rows := by
  unfold loadBankRightFromDB setRankBankTabRightsAndSlots
  by_cases htab : row.key.1 ≥ g.purchasedTabs
  · rw [if_pos htab]
    exact ⟨rfl, rfl, rfl⟩
  · rw [if_neg htab]
    cases hrank : g.ranks[row.key.2]? with
    | none => exact ⟨rfl, rfl, rfl⟩
    | some rankInfo =>
      refine ⟨?_, rfl, rfl⟩
      apply List.ext_getElem?
      intro j
      dsimp only
      rw [List.getElem?_map, List.getElem?_map, List.getElem?_set]
      split_ifs with hj hlt
      · rw [← hj, hrank]
        rfl
      · rw [← hj, List.getElem?_eq_none (not_lt.1 hlt)]
      · rfl

theorem foldl_loadBankRightFromDB_frame (l : List BankRight) (g : Guild) :
    (l.foldl loadBankRightFromDB g).ranks.map RankInfo.rankId = g.ranks.map RankInfo.rankId ∧
      (l.foldl loadBankRightFromDB g).purchasedTabs = g.purchasedTabs ∧
      (l.foldl loadBankRightFromDB g).rows = g.rows := by
  have hframe := loadBankRightFromDB_frame
  refine ⟨?_, ?_, ?_⟩
  · exact Runs.foldl_eq (fun g : Guild => g.ranks.map RankInfo.rankId)
      (fun g row => (hframe g row).1) g l
  · exact Runs.foldl_eq Guild.purchasedTabs (fun g row => (hframe g row).2.1) g l
  · exact Runs.foldl_eq Guild.rows (fun g row => (hframe g row).2.2) g l

theorem load_of_broken (h : ¬ RanksNumbered rows) :
    ∃ g : Guild, load rows = g.createDefaultGuildRanks ∧ g.ranks = [] ∧
      g.purchasedTabs = loadedTabs rows ∧ g.rows.tabs = rows.tabs := by
  obtain ⟨hids, htabs, hrows⟩ := foldl_loadBankRightFromDB_frame rows.rights.toList
    ⟨rows.ranks.sort.map RankInfo.new, loadedTabs rows, rows⟩
  have hids' : (rows.rights.toList.foldl loadBankRightFromDB
      ⟨rows.ranks.sort.map RankInfo.new, loadedTabs rows, rows⟩).ranks.map RankInfo.rankId =
      rows.ranks.sort := by
    rw [hids, List.map_map]
    exact List.map_id _
  have hload : load rows = (rows.rights.toList.foldl loadBankRightFromDB
      ⟨rows.ranks.sort.map RankInfo.new, loadedTabs rows, rows⟩).validate := rfl
  rw [hload]
  generalize rows.rights.toList.foldl loadBankRightFromDB
    ⟨rows.ranks.sort.map RankInfo.new, loadedTabs rows, rows⟩ = g at hids' htabs hrows
  have hlen : g.ranks.length = rows.ranks.card := by
    rw [← List.length_map RankInfo.rankId, hids', Finset.length_sort]
  unfold validate
  by_cases hcount : g.ranks.length < guildRanksMinCount ∨ g.ranks.length > guildRanksMaxCount
  · rw [if_pos hcount]
    exact ⟨_, rfl, rfl, htabs, congrArg Rows.tabs hrows⟩
  · rw [if_neg hcount]
    dsimp only
    cases hflag : (g.ranks.foldl (validateRank g.purchasedTabs) (false, [], g.rows.rights)).1 with
    | true =>
      have hrowTabs : g.rows.tabs = rows.tabs := congrArg Rows.tabs hrows
      rw [if_pos rfl]
      exact ⟨_, rfl, rfl, htabs, hrowTabs⟩
    | false =>
      have hrange := rankId_eq_of_validateRank hflag
      rw [hids', hlen] at hrange
      refine absurd ⟨by omega, by omega, ?_⟩ h
      calc rows.ranks = rows.ranks.sort.toFinset := (Finset.sort_toFinset _ _).symm
        _ = Finset.range rows.ranks.card := by rw [hrange]; ext; simp

/-- What `Validate` accepts is stored. -/
theorem stored_load (htabs : TabsNumbered rows) (h : RanksNumbered rows) : Stored (load rows) := by
  obtain ⟨hmin, hmax, hrows⟩ := h
  have hn := loadedTabs_of_numbered htabs
  have hload := load_of_range hrows hmin hmax
  rw [fill_readEntry] at hload
  refine ⟨rows.ranks.card, reloaded rows, ⟨?_, ?_, ?_, ?_, ?_⟩, hmin, hmax, ?_⟩
  · rw [hload]
  · rw [hload]
    exact hrows
  · rw [hload]
    exact min_le_right _ _
  · rw [hload]
    dsimp only
    rw [hn]
    exact htabs.2
  · intro rid _ i hi
    rw [hload] at hi
    exact if_neg (not_lt.2 hi)
  · intro rid hrid i hi
    rw [hload] at hi
    refine ⟨_, find_load hrows hmin hmax hi hrid, ?_⟩
    unfold reloaded
    rw [if_pos (show i < loadedTabs rows from hi)]
    cases hrow : rows.rights.find (i, rid) with
    | none => exact (value_missingTab (RankInfo.new rid) i).1
    | some row => rfl

/-- A loaded guild without tabs is stored in any case. -/
theorem stored_load_of_empty (h : rows.tabs = ∅) : Stored (load rows) := by
  have hcard : rows.tabs.card = 0 := by
    rw [h, Finset.card_empty]
  have htabs : TabsNumbered rows := by
    unfold TabsNumbered
    rw [hcard, h]
    exact ⟨Nat.zero_le _, rfl⟩
  by_cases hranks : RanksNumbered rows
  · exact stored_load htabs hranks
  · obtain ⟨g, hload, hnil, hn, hrows⟩ := load_of_broken hranks
    rw [loadedTabs_of_numbered htabs, hcard] at hn
    have hspec := createDefaultGuildRanks_spec (g := g) (by rw [hn]; exact Nat.zero_le _)
      (by rw [hrows, h, hn]; rfl) hnil
    rw [hload]
    refine ⟨_, _, hspec.1, le_rfl, by decide, fun rid _ i hi => ?_⟩
    rw [hspec.2.1, hn] at hi
    exact absurd hi (Nat.not_lt_zero i)

/-- A loaded guild is in sync exactly if its ranks were accepted or it has no tabs. -/
theorem inSync_load_iff (htabs : TabsNumbered rows) :
    InSync (load rows) ↔ rows.tabs = ∅ ∨ RanksNumbered rows := by
  constructor
  · intro hsync
    by_contra hnot
    rw [not_or] at hnot
    obtain ⟨g, hload, hnil, hn, hrows⟩ := load_of_broken hnot.2
    rw [loadedTabs_of_numbered htabs] at hn
    have hpos : 0 < g.purchasedTabs := by
      rw [hn]
      exact Finset.card_pos.2 (Finset.nonempty_iff_ne_empty.2 hnot.1)
    obtain ⟨hnum, htabs', hfind⟩ := createDefaultGuildRanks_spec (g := g) (by rw [hn]; exact htabs.1)
      (by rw [hrows, hn]; exact htabs.2) hnil
    rw [hload, hnum.inSync_iff le_rfl (by decide)] at hsync
    have hzero := hsync grGuildMaster (by decide) 0 (htabs'.symm ▸ hpos)
    unfold reloaded at hzero
    rw [hnum.loadedTabs_eq, htabs', if_pos hpos, hfind 0 hpos] at hzero
    exact absurd hzero (by decide)
  · rintro (h | h)
    · exact inSync_of_stored (stored_load_of_empty h)
    · exact inSync_of_stored (stored_load htabs h)

/-! ### Runs -/

/-- A guild is created, or loaded from its rows. -/
inductive Start
  | create
  | load (rows : Rows)

namespace Start

/-- `Guild::Create`, or a load. -/
def guild : Start → Guild
  | create => createDefaultGuildRanks ⟨[], 0, ⟨∅, ∅, Table.empty BankRight.key⟩⟩
  | load rows => GuildTabRights.load rows

/-- The rows of the bank tabs are those of a guild. -/
def TabsNumbered : Start → Prop
  | create => True
  | load rows => GuildTabRights.TabsNumbered rows

/-- `Validate` does not replace the ranks of a guild with tabs. -/
def RanksAccepted : Start → Prop
  | create => True
  | load rows => rows.tabs = ∅ ∨ RanksNumbered rows

theorem inSync_iff {st : Start} (htabs : st.TabsNumbered) :
    (InSync st.guild ↔ st.RanksAccepted) ∧ (st.RanksAccepted → Stored st.guild) := by
  cases st with
  | create =>
    have hspec := createDefaultGuildRanks_spec (g := ⟨[], 0, ⟨∅, ∅, Table.empty BankRight.key⟩⟩)
      (Nat.zero_le _) rfl rfl
    have hnone : ∀ i, ¬ i < Start.create.guild.purchasedTabs := by
      intro i hi
      exact Nat.not_lt_zero i (hi.trans_eq hspec.2.1)
    have hstored : Stored Start.create.guild :=
      ⟨_, _, hspec.1, le_rfl, by decide, fun _ _ i hi => absurd hi (hnone i)⟩
    exact ⟨iff_of_true (inSync_of_stored hstored) trivial, fun _ => hstored⟩
  | load rows =>
    exact ⟨inSync_load_iff htabs, fun h => h.elim stored_load_of_empty (stored_load htabs)⟩

end Start

/-- **Main result.** In a run whose rank removals name the last rank, the rights by tab in memory
are in every state those that a reload gives, exactly if `Validate` did not have to replace the
ranks of a guild with tabs: the default ranks are stored before their tabs are created, and the
guild master has none in memory. -/
theorem rank_rights_in_sync_iff (st : Start) (htabs : st.TabsNumbered) (ops : List Op)
    (hlow : Runs.EachStep step RemovesLowest st.guild ops) :
    Runs.Along step InSync st.guild ops ↔ st.RanksAccepted := by
  obtain ⟨hiff, hstored⟩ := Start.inSync_iff htabs
  constructor
  · intro h
    exact hiff.1 (h [] (List.nil_prefix))
  · intro h pre hpre
    have hrun := Runs.along_of_inv (I := Stored) hlow (hstored h)
      fun g op hg hop => stored_step hg hop
    exact inSync_of_stored (hrun pre hpre)

/-- A guild buys a tab, adds a rank, sets its rights and removes it. -/
theorem rank_rights_in_sync_created :
    Runs.Along step InSync Start.create.guild
      [.handleBuyBankTab 0 true 1000000, .handleAddNewRank true,
        .handleSetRankInfo true 5 [⟨0, 3, 7⟩], .handleRemoveRank true 5] := by
  refine (rank_rights_in_sync_iff .create trivial _ ?_).2 trivial
  exact Runs.eachStep_cons.2 ⟨trivial, Runs.eachStep_cons.2 ⟨trivial,
    Runs.eachStep_cons.2 ⟨trivial, Runs.eachStep_cons.2 ⟨fun _ _ _ => rfl, Runs.EachStep.nil _⟩⟩⟩⟩

/-- A guild with one tab and a gap in its ranks is loaded: the guild master has no rights in memory,
and after another load all of them. -/
theorem default_ranks_lose_master_rights :
    ¬ InSync (load ⟨{0, 1, 2, 3, 5}, {0}, Table.empty BankRight.key⟩) := by
  rw [inSync_load_iff (by decide)]
  decide

end FaceCore.GuildTabRights
