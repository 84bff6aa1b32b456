import Mathlib.Data.List.Basic
import Mathlib.Data.UInt
import Mathlib.Data.List.TakeWhile

/-!
# Loading the members of arena teams

All arena teams read their members from one result, in the order of the team ids: a team stops at the
first row of a later team, where the next one goes on. The rows of earlier teams are not told from its
own ones; the query, which joins the members with the teams, has none.

* `loadMembers`, `loadMembersFromDB`: what one team reads;
* `loadTeams`: all teams, one after the other;
* `members_loadTeams`: every team gets its own rows.
-/

namespace FaceCore.ArenaTeams

/-- A row of the members. -/
structure MemberRow where
  arenaTeamId : UInt32
  guid : UInt32
  weekGames : UInt16
  weekWins : UInt16
  seasonGames : UInt16
  seasonWins : UInt16
  name : String
  class_ : UInt8
  personalRating : UInt16
  matchMakerRating : UInt16

/-- `ArenaTeamMember`. -/
structure ArenaTeamMember where
  guid : ℕ
  name : String
  class_ : UInt8
  weekGames : UInt16
  weekWins : UInt16
  seasonGames : UInt16
  seasonWins : UInt16
  personalRating : UInt16
  matchMakerRating : UInt16

/-- `ArenaTeam`, as far as it is used here. -/
structure ArenaTeam where
  teamId : UInt32
  captainGuid : ℕ
  members : List ArenaTeamMember

/-- `MAKE_NEW_GUID(low, 0, HIGHGUID_PLAYER)`: the high part of a player is 0. -/
def playerGuid (low : UInt32) : ℕ := low.toNat

/-- `newMember`, from a row. -/
def MemberRow.newMember (row : MemberRow) : ArenaTeamMember where
  guid := playerGuid row.guid
  name := row.name
  class_ := row.class_
  weekGames := row.weekGames
  weekWins := row.weekWins
  seasonGames := row.seasonGames
  seasonWins := row.seasonWins
  personalRating := row.personalRating
  matchMakerRating := if row.matchMakerRating > 0 then row.matchMakerRating else 1500

namespace ArenaTeam

/-- `ArenaTeam::DelMember`, without the message to the player and the statement for the database. -/
def delMember (team : ArenaTeam) (guid : ℕ) : ArenaTeam :=
  { team with members := team.members.eraseP (·.guid = guid) }

/-- What is done with a row, after the comparison of the team ids. -/
def readRow (team : ArenaTeam) (row : MemberRow) : ArenaTeam :=
  if row.newMember.name.isEmpty then team.delMember row.newMember.guid
  else { team with members := team.members ++ [row.newMember] }

/-- The loop of `LoadMembersFromDB` from the current row on, with `captainPresentInTeam`. The rows that
are left, from the current one on, are left to the next team. -/
def loadMembers (team : ArenaTeam) (captainPresent : Bool) :
    List MemberRow → (ArenaTeam × Bool) × List MemberRow
  | [] => ((team, captainPresent), [])
  | row :: rows =>
    if row.arenaTeamId > team.teamId then ((team, captainPresent), row :: rows)
    else
      let captainPresent := captainPresent ||
        (!row.newMember.name.isEmpty && row.newMember.guid = team.captainGuid)
      loadMembers (team.readRow row) captainPresent rows

/-- `ArenaTeam::LoadMembersFromDB`; there is no result when the query has no rows. -/
def loadMembersFromDB (team : ArenaTeam) (result : Option (List MemberRow)) :
    (ArenaTeam × Bool) × Option (List MemberRow) :=
  match result with
  | none => ((team, false), none)
  | some rows =>
    let r := team.loadMembers false rows
    ((r.1.1, !(r.1.1.members.isEmpty || !r.1.2)), some r.2)

end ArenaTeam

/-- The teams read their members one after the other; the answers are whether a team is kept. -/
def loadTeams : List ArenaTeam → Option (List MemberRow) → List (ArenaTeam × Bool)
  | [], _ => []
  | team :: teams, result =>
    let r := team.loadMembersFromDB result
    r.1 :: loadTeams teams r.2

/-- The rows of a result, of which there is none for a query without rows. -/
def rowsOf (result : Option (List MemberRow)) : List MemberRow := result.getD []

/-- The members that a team should have. -/
def membersOf (rows : List MemberRow) (teamId : UInt32) : List ArenaTeamMember :=
  (rows.filter fun row => row.arenaTeamId = teamId ∧ !row.name.isEmpty).map MemberRow.newMember

/-- The rows of the query: they are in the order of the teams; rows with a name that are not behind
all teams are of a team that is there; and a row without a name is not of a player who has a row with
one in the same team, before it. -/
structure Joined (teams : List ArenaTeam) (rows : List MemberRow) : Prop where
  sorted : rows.Pairwise fun a b => a.arenaTeamId ≤ b.arenaTeamId
  present : ∀ row ∈ rows, row.name.isEmpty = false →
    (∃ team ∈ teams, row.arenaTeamId ≤ team.teamId) → ∃ team ∈ teams, team.teamId = row.arenaTeamId
  once : rows.Pairwise fun a b => a.name.isEmpty = false → b.name.isEmpty = true →
    a.arenaTeamId = b.arenaTeamId → a.guid ≠ b.guid

section

variable {team : ArenaTeam} {teams : List ArenaTeam} {row : MemberRow} {rows : List MemberRow}

/-! ### One team -/

theorem teamId_readRow (team : ArenaTeam) (row : MemberRow) :
    (team.readRow row).teamId = team.teamId := by
  unfold ArenaTeam.readRow ArenaTeam.delMember
  split_ifs
  · rfl
  · rfl

theorem loadMembers_eq (team : ArenaTeam) (captainPresent : Bool) (rows : List MemberRow) :
    (team.loadMembers captainPresent rows).1.1 =
        (rows.takeWhile (·.arenaTeamId ≤ team.teamId)).foldl ArenaTeam.readRow team ∧
      (team.loadMembers captainPresent rows).2 =
        rows.dropWhile (·.arenaTeamId ≤ team.teamId) := by
  induction rows generalizing team captainPresent with
  | nil => exact ⟨rfl, rfl⟩
  | cons row rows ih =>
    rw [ArenaTeam.loadMembers]
    by_cases hlater : row.arenaTeamId > team.teamId
    · rw [if_pos hlater, List.takeWhile_cons_of_neg (by simpa using hlater),
        List.dropWhile_cons_of_neg (by simpa using hlater)]
      exact ⟨rfl, rfl⟩
    · rw [if_neg hlater, List.takeWhile_cons_of_pos (by simpa using hlater),
        List.dropWhile_cons_of_pos (by simpa using hlater)]
      have hrest := ih (team.readRow row)
        (captainPresent || (!row.newMember.name.isEmpty && row.newMember.guid = team.captainGuid))
      rw [teamId_readRow] at hrest
      exact hrest

/-- Rows of which none without a name is of a player with a row before it: those with a name become
the members. -/
theorem members_foldl_readRow (hnew : team.members = [])
    (h : rows.Pairwise fun a b => a.name.isEmpty = false → b.name.isEmpty = true → a.guid ≠ b.guid) :
    (rows.foldl ArenaTeam.readRow team).members =
      (rows.filter fun row => !row.name.isEmpty).map MemberRow.newMember := by
  induction rows using List.reverseRecOn with
  | nil => exact hnew
  | append_singleton rows row ih =>
    obtain ⟨hrows, -, hlast⟩ := List.pairwise_append.1 h
    rw [List.foldl_append, List.foldl_cons, List.foldl_nil, List.filter_append, List.map_append,
      ← ih hrows, ArenaTeam.readRow]
    cases hname : row.name.isEmpty with
    | false =>
      rw [if_neg (by simpa [MemberRow.newMember] using hname)]
      simp [hname]
    | true =>
      -- no member has the guid of the row that is dropped
      have hnone : ∀ m ∈ (rows.foldl ArenaTeam.readRow team).members,
          ¬(decide (m.guid = row.newMember.guid) = true) := by
        intro m hm
        rw [ih hrows] at hm
        obtain ⟨row', hrow', rfl⟩ := List.mem_map.1 hm
        obtain ⟨hmem, hnamed⟩ := List.mem_filter.1 hrow'
        have hguid := hlast row' hmem row List.mem_cons_self (by simpa using hnamed) hname
        rw [decide_eq_true_eq]
        exact fun heq => hguid (UInt32.toNat_inj.1 heq)
      rw [if_pos (by simpa [MemberRow.newMember] using hname), ArenaTeam.delMember,
        List.eraseP_of_forall_not hnone]
      simp [hname]

/-! ### The rows that are left -/

/-- What is left by a team in rows in the order of the teams is of later teams. -/
theorem lt_of_mem_dropWhile (hsorted : rows.Pairwise fun a b => a.arenaTeamId ≤ b.arenaTeamId)
    {id : UInt32} (hrow : row ∈ rows.dropWhile (·.arenaTeamId ≤ id)) : id < row.arenaTeamId := by
  induction rows with
  | nil => cases hrow
  | cons first rows ih =>
    obtain ⟨hfirst, hrows⟩ := List.pairwise_cons.1 hsorted
    by_cases hle : first.arenaTeamId ≤ id
    · rw [List.dropWhile_cons_of_pos (by simpa using hle)] at hrow
      exact ih hrows hrow
    · rw [List.dropWhile_cons_of_neg (by simpa using hle)] at hrow
      have hlt : id < first.arenaTeamId := UInt32.not_le.1 hle
      rcases List.mem_cons.1 hrow with rfl | hmem
      · exact hlt
      · exact UInt32.lt_of_lt_of_le hlt (hfirst row hmem)

theorem le_of_mem_takeWhile {id : UInt32} (hrow : row ∈ rows.takeWhile (·.arenaTeamId ≤ id)) :
    row.arenaTeamId ≤ id := by
  simpa using (List.mem_takeWhile_imp hrow)

/-- What is left by the first team is joined with the other ones. -/
theorem Joined.dropWhile (h : Joined (team :: teams) rows) :
    Joined teams (rows.dropWhile (·.arenaTeamId ≤ team.teamId)) where
  sorted := h.sorted.sublist (List.dropWhile_sublist _)
  present := by
    intro row hrow hname hbefore
    obtain ⟨later, hlater, hle⟩ := hbefore
    obtain ⟨own, hown, hid⟩ := h.present row ((List.dropWhile_sublist _).subset hrow) hname
      ⟨later, List.mem_cons_of_mem _ hlater, hle⟩
    rcases List.mem_cons.1 hown with rfl | hmem
    · have hlt := lt_of_mem_dropWhile h.sorted hrow
      rw [hid] at hlt
      exact absurd hlt (UInt32.lt_irrefl _)
    · exact ⟨own, hmem, hid⟩
  once := h.once.sublist (List.dropWhile_sublist _)

/-- The members of a later team are in the rows that are left. -/
theorem membersOf_dropWhile {id later : UInt32} (hlater : id < later) (rows : List MemberRow) :
    membersOf (rows.dropWhile (·.arenaTeamId ≤ id)) later = membersOf rows later := by
  have hnone : (rows.takeWhile (·.arenaTeamId ≤ id)).filter
      (fun row => decide (row.arenaTeamId = later ∧ (!row.name.isEmpty) = true)) = [] := by
    refine List.filter_eq_nil_iff.2 fun row hrow hown => ?_
    have hle := le_of_mem_takeWhile hrow
    rw [(of_decide_eq_true hown).1] at hle
    exact absurd hlater (UInt32.not_lt.2 hle)
  unfold membersOf
  conv_rhs => rw [← List.takeWhile_append_dropWhile (p := fun row : MemberRow => decide (row.arenaTeamId ≤ id)) (l := rows)]
  rw [List.filter_append, hnone, List.nil_append]

/-- The first team gets its own rows. -/
theorem members_first (hnew : team.members = [])
    (hasc : (team :: teams).Pairwise fun a b => a.teamId < b.teamId)
    (h : Joined (team :: teams) rows) :
    ((rows.takeWhile (·.arenaTeamId ≤ team.teamId)).foldl ArenaTeam.readRow team).members =
      membersOf rows team.teamId := by
  -- a row with a name that is read is of this team
  have hown : ∀ row ∈ rows.takeWhile (·.arenaTeamId ≤ team.teamId), row.name.isEmpty = false →
      row.arenaTeamId = team.teamId := by
    intro row hrow hname
    have hle := le_of_mem_takeWhile hrow
    obtain ⟨own, hmem, hid⟩ := h.present row ((List.takeWhile_sublist _).subset hrow) hname
      ⟨team, List.mem_cons_self, hle⟩
    rcases List.mem_cons.1 hmem with rfl | hlater
    · exact hid.symm
    · have hlt := (List.pairwise_cons.1 hasc).1 own hlater
      rw [hid] at hlt
      exact absurd hlt (UInt32.not_lt.2 hle)
  have honce : (rows.takeWhile (·.arenaTeamId ≤ team.teamId)).Pairwise fun a b =>
      a.name.isEmpty = false → b.name.isEmpty = true → a.guid ≠ b.guid := by
    have hboth := (h.once.and h.sorted).sublist
      (List.takeWhile_sublist fun row : MemberRow => decide (row.arenaTeamId ≤ team.teamId))
    refine hboth.imp_of_mem fun {a b} ha hb hab hnamed hempty => ?_
    refine hab.1 hnamed hempty ?_
    have hid := hown a ha hnamed
    exact UInt32.le_antisymm hab.2 (hid ▸ le_of_mem_takeWhile hb)
  have hleft : (rows.dropWhile (·.arenaTeamId ≤ team.teamId)).filter
      (fun row => decide (row.arenaTeamId = team.teamId ∧ (!row.name.isEmpty) = true)) = [] := by
    refine List.filter_eq_nil_iff.2 fun row hrow hrowOwn => ?_
    have hlt := lt_of_mem_dropWhile h.sorted hrow
    rw [(of_decide_eq_true hrowOwn).1] at hlt
    exact UInt32.lt_irrefl _ hlt
  rw [members_foldl_readRow hnew honce]
  unfold membersOf
  conv_rhs => rw [← List.takeWhile_append_dropWhile (p := fun row : MemberRow => decide (row.arenaTeamId ≤ team.teamId)) (l := rows)]
  rw [List.filter_append, hleft, List.append_nil]
  congr 1
  refine List.filter_congr fun row hrow => ?_
  cases hname : row.name.isEmpty with
  | false => simp [hown row hrow hname]
  | true => simp

/-! ### All teams -/

theorem loadTeams_none (hnew : ∀ team ∈ teams, team.members = []) :
    (loadTeams teams none).map (·.1.members) = teams.map fun _ => [] := by
  induction teams with
  | nil => rfl
  | cons team teams ih =>
    rw [loadTeams, List.map_cons, List.map_cons]
    exact congrArg₂ _ (hnew team List.mem_cons_self)
      (ih fun team' hteam' => hnew team' (List.mem_cons_of_mem _ hteam'))

/-- **Main result.** New teams that load in the order of their ids get, each, the rows of their own id
with a name, in order. -/
theorem members_loadTeams (teams : List ArenaTeam) (result : Option (List MemberRow))
    (hnew : ∀ team ∈ teams, team.members = [])
    (hasc : teams.Pairwise fun a b => a.teamId < b.teamId)
    (hrows : Joined teams (rowsOf result)) :
    (loadTeams teams result).map (·.1.members) =
      teams.map fun team => membersOf (rowsOf result) team.teamId := by
  cases result with
  | none => exact loadTeams_none hnew
  | some rows =>
    rw [rowsOf, Option.getD_some] at hrows ⊢
    induction teams generalizing rows with
    | nil => rfl
    | cons team teams ih =>
      obtain ⟨hread, hleft⟩ := loadMembers_eq team false rows
      have hrest := ih (fun team' hteam' => hnew team' (List.mem_cons_of_mem _ hteam'))
        (List.pairwise_cons.1 hasc).2 (rows.dropWhile (·.arenaTeamId ≤ team.teamId)) hrows.dropWhile
      rw [loadTeams, ArenaTeam.loadMembersFromDB, List.map_cons, List.map_cons]
      simp only [hread, hleft]
      rw [members_first (hnew team List.mem_cons_self) hasc hrows, hrest]
      refine congrArg _ (List.map_congr_left fun later hlater => ?_)
      exact membersOf_dropWhile ((List.pairwise_cons.1 hasc).1 later hlater) rows

end

/-! ### Rows of the query, and rows it does not have -/

/-- A new team. -/
def newTeam (teamId : UInt32) : ArenaTeam where
  teamId := teamId
  captainGuid := 0
  members := []

/-- A row of a player in a team. -/
def sampleRow (arenaTeamId guid : UInt32) (name : String) : MemberRow where
  arenaTeamId := arenaTeamId
  guid := guid
  weekGames := 0
  weekWins := 0
  seasonGames := 0
  seasonWins := 0
  name := name
  class_ := 1
  personalRating := 0
  matchMakerRating := 0

/-- Three teams, of which the second has no rows, and a row of a team behind them. -/
def sampleRows : List MemberRow :=
  [sampleRow 2 10 "Anna", sampleRow 2 11 "", sampleRow 5 12 "Bert", sampleRow 9 13 "Cora"]

theorem sampleRows_joined : Joined [newTeam 2, newTeam 4, newTeam 5] sampleRows where
  sorted := by decide
  present := by decide
  once := by decide

theorem members_loadTeams_sample :
    (loadTeams [newTeam 2, newTeam 4, newTeam 5] (some sampleRows)).map (·.1.members) =
      [2, 4, 5].map fun id => membersOf sampleRows id :=
  members_loadTeams [newTeam 2, newTeam 4, newTeam 5] (some sampleRows)
    (by simp [newTeam]) (by decide) sampleRows_joined

/-- A row of team 3, which is not there any more, is read by team 5; and a row without a name takes
the row of the same player with it. -/
theorem not_own_rows :
    (((loadTeams [newTeam 2, newTeam 5] (some [sampleRow 3 10 "Anna"])).map fun r =>
          r.1.members.map (·.guid)) = [[], [10]] ∧
        ([2, 5].map fun id => (membersOf [sampleRow 3 10 "Anna"] id).map (·.guid)) = [[], []]) ∧
      ((loadTeams [newTeam 2] (some [sampleRow 2 10 "Anna", sampleRow 2 10 ""])).map fun r =>
          r.1.members.map (·.guid)) = [[]] ∧
        ([2].map fun id => (membersOf [sampleRow 2 10 "Anna", sampleRow 2 10 ""] id).map
          (·.guid)) = [[10]] := by
  decide

end FaceCore.ArenaTeams
