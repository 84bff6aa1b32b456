import FaceCore.Instance.ResetRuns
import FaceCore.Lib.Table
import Mathlib.Data.List.Forall2

/-!
# The resets of single instances

An instance that is no raid and not heroic has a reset time of its own, two hours after the last
respawn of its creatures. `LoadResetTimes` writes these times, in memory and in the database, and
schedules the resets. The loop that reads the respawn times asks the wrong result for a next row, and
ends after the first one. The events have ids of 16 bits, where those of instances have 32.

* `Tables`: the tables, with the keys that the queries give them;
* `resetTime`, `loadedTime`: the time that is wanted, and the one that is loaded;
* `instResetTime_ownTimes`, `instances_ownTimes`: the two places where it is written;
* `resetsAfterRespawns_iff`: when it is the one that is wanted.
-/

namespace FaceCore.InstanceResets

open Config

/-- The tables: the rows of `instance` come in the order of their ids, and the respawn times are
grouped by instance. -/
structure Tables extends Database where
  sorted : instances.Pairwise fun a b => a.id < b.id
  grouped : (maxCreatureRespawns.map RespawnRow.instanceId).Nodup

namespace Tables

/-- The respawn times, with their keys. -/
def respawns (db : Tables) : Table RespawnRow.instanceId := ⟨db.maxCreatureRespawns, db.grouped⟩

/-- The reset time that an instance should have. -/
def resetTime (db : Tables) (row : InstanceRow) : ℕ :=
  match db.respawns.find row.id with
  | none => row.resettime.toNat
  | some r => r.respawnTime.toNat + 2 * 3600

/-- The reset time that an instance gets. -/
def loadedTime (db : Tables) (row : InstanceRow) : UInt32 :=
  match db.maxCreatureRespawns with
  | [] => row.resettime
  | r :: _ => if r.instanceId = row.id then r.respawnTime + 2 * 3600 else row.resettime

end Tables

/-- The resets of an instance of its own that are scheduled. -/
def resetsOf (m : Manager) (id : ℕ) : List (ℤ × InstResetEvent) :=
  m.resetTimeQueue.entries.filter fun e => e.2.type = 0 ∧ e.2.instanceId.toNat = id

/-- The reset times in memory and in the database are the right ones, and the resets that are to come
are scheduled, each once. -/
structure ResetsAfterRespawns (c : Config) (db : Tables) (now : ℕ) : Prop where
  memory : ∀ row ∈ ownInstances db.toDatabase, ∃ t : UInt32,
    (ownTimes db.toDatabase).instResetTime.find row.id = some (row.pair, t) ∧
      t.toNat = db.resetTime row
  database : List.Forall₂ (fun row row' : InstanceRow => row'.id = row.id ∧ row'.pair = row.pair ∧
      row'.resettime.toNat = if row.resettime = 0 then 0 else db.resetTime row)
    db.instances (ownTimes db.toDatabase).instances
  scheduled : ∀ row ∈ ownInstances db.toDatabase, now < db.resetTime row →
    resetsOf (c.loadResetTimes db.toDatabase now) row.id =
      [((db.resetTime row : ℤ), ⟨0, row.pair, .ofNat row.id⟩)]

/-- Two hours after the first respawn time are a time of 32 bits, and the other respawn times are those
by which the stored reset times have been written already. -/
structure RestWritten (db : Tables) : Prop where
  first : ∀ r, db.maxCreatureRespawns.head? = some r →
    (∃ row ∈ ownInstances db.toDatabase, row.id = r.instanceId) →
      r.respawnTime.toNat + 2 * 3600 < 2 ^ 32
  rest : ∀ r ∈ db.maxCreatureRespawns.tail, ∀ row ∈ ownInstances db.toDatabase,
    row.id = r.instanceId → row.resettime.toNat = r.respawnTime.toNat + 2 * 3600

/-- The instances that are to be reset after `now` have ids that an event can hold. -/
def IdsFit (db : Tables) (now : ℕ) : Prop :=
  ∀ row ∈ ownInstances db.toDatabase, now < db.resetTime row → row.id < 2 ^ 16

section

variable {db : Tables} {row row' : InstanceRow} {m : Manager} {id : ℕ}

/-! ### The two loops -/

theorem mem_ownInstances {db : Database} :
    row ∈ ownInstances db ↔ row ∈ db.instances ∧ row.resettime ≠ 0 := by
  simp [ownInstances]

theorem Tables.eq_of_id_eq (hrow : row ∈ db.instances) (hrow' : row' ∈ db.instances)
    (h : row.id = row'.id) : row = row' := by
  have hnodup : (db.instances.map InstanceRow.id).Nodup :=
    (db.sorted.imp fun hlt => Nat.ne_of_lt hlt).map InstanceRow.id fun _ _ hne => hne
  exact List.inj_on_of_nodup_map hnodup hrow hrow' h

/-- The first loop stores the instances in the order of their rows. -/
theorem entries_foldl_readInstance {rows : List InstanceRow}
    (h : rows.Pairwise fun a b => a.id < b.id) :
    (rows.foldl readInstance .empty).entries =
      (rows.filter (·.resettime ≠ 0)).map fun row => (row.id, row.pair, row.resettime) := by
  induction rows using List.reverseRecOn with
  | nil => rfl
  | append_singleton rows row ih =>
    obtain ⟨hrows, -, hlt⟩ := List.pairwise_append.1 h
    have hentries := ih hrows
    rw [List.foldl_append, List.foldl_cons, List.foldl_nil, List.filter_append, List.map_append,
      readInstance]
    by_cases hzero : row.resettime = 0
    · rw [if_neg (not_not.2 hzero), hentries]
      simp [hzero]
    · have hlast : ∀ e ∈ (rows.foldl readInstance .empty).entries, e.1 < row.id := by
        intro e he
        rw [hentries] at he
        obtain ⟨row', hrow', rfl⟩ := List.mem_map.1 he
        exact hlt row' (List.mem_of_mem_filter hrow') row List.mem_cons_self
      rw [if_pos hzero, SortedMap.entries_insert_of_lt _ hlast, hentries]
      simp [hzero]

theorem find_foldl_readInstance (h : row ∈ ownInstances db.toDatabase) :
    (db.instances.foldl readInstance .empty).find row.id = some (row.pair, row.resettime) := by
  refine SortedMap.find_of_mem (e := (row.id, row.pair, row.resettime)) ?_
  rw [entries_foldl_readInstance db.sorted]
  exact List.mem_map_of_mem h

theorem exists_of_find_foldl_readInstance {v : ℕ × UInt32}
    (h : (db.instances.foldl readInstance .empty).find id = some v) :
    ∃ row ∈ ownInstances db.toDatabase, row.id = id ∧ v = (row.pair, row.resettime) := by
  have hmem := SortedMap.find_eq_some_mem h
  rw [entries_foldl_readInstance db.sorted] at hmem
  obtain ⟨row, hrow, heq⟩ := List.mem_map.1 hmem
  obtain ⟨hid, hv⟩ := Prod.mk.inj heq
  exact ⟨row, hrow, hid, hv.symm⟩

/-- What the first respawn time, the only one that is read, does to the two places. -/
theorem ownTimes_cases (db : Tables) :
    ((ownTimes db.toDatabase).instResetTime = db.instances.foldl readInstance .empty ∧
      (ownTimes db.toDatabase).instances = db.instances ∧
      ∀ row ∈ ownInstances db.toDatabase, db.loadedTime row = row.resettime) ∨
    ∃ r rs, db.maxCreatureRespawns = r :: rs ∧ ∃ row ∈ ownInstances db.toDatabase,
      row.id = r.instanceId ∧
      (ownTimes db.toDatabase).instResetTime = (db.instances.foldl readInstance .empty).insert
        row.id (row.pair, r.respawnTime + 2 * 3600) ∧
      (ownTimes db.toDatabase).instances =
        setResettime db.instances row.id (r.respawnTime + 2 * 3600) := by
  unfold ownTimes Tables.loadedTime
  dsimp only
  cases hrespawns : db.maxCreatureRespawns with
  | nil => exact .inl ⟨rfl, rfl, fun row _ => rfl⟩
  | cons r rs =>
    dsimp only
    unfold updateFromRespawns updateFromRespawn
    dsimp only
    cases hfind : (db.instances.foldl readInstance .empty).find r.instanceId with
    | none =>
      refine .inl ⟨rfl, rfl, fun row hrow => if_neg fun hid => ?_⟩
      rw [hid, find_foldl_readInstance hrow] at hfind
      cases hfind
    | some v =>
      obtain ⟨row, hrow, hid, rfl⟩ := exists_of_find_foldl_readInstance hfind
      dsimp only
      by_cases ht : row.resettime = r.respawnTime + 2 * 3600
      · -- the time is stored already
        rw [if_neg (not_not.2 ht)]
        refine .inl ⟨rfl, rfl, fun row' hrow' => ?_⟩
        split_ifs with hid'
        · rw [← ht, Tables.eq_of_id_eq (mem_ownInstances.1 hrow').1 (mem_ownInstances.1 hrow).1
            (hid'.symm.trans hid.symm)]
        · rfl
      · rw [if_pos ht]
        exact .inr ⟨r, rs, rfl, row, hrow, hid, by rw [hid], by rw [hid]⟩

theorem instResetTime_ownTimes (h : row ∈ ownInstances db.toDatabase) :
    (ownTimes db.toDatabase).instResetTime.find row.id = some (row.pair, db.loadedTime row) := by
  rcases ownTimes_cases db with ⟨hmemory, -, hloaded⟩ | ⟨r, rs, hrs, row', hrow', hid, hmemory, -⟩
  · rw [hmemory, hloaded row h]
    exact find_foldl_readInstance h
  · rw [hmemory, SortedMap.find_insert, Tables.loadedTime, hrs]
    dsimp only
    by_cases heq : row.id = row'.id
    · obtain rfl := Tables.eq_of_id_eq (mem_ownInstances.1 h).1 (mem_ownInstances.1 hrow').1 heq
      rw [if_pos rfl, if_pos hid.symm]
    · rw [if_neg heq, if_neg fun hr => heq (hr.symm.trans hid.symm), find_foldl_readInstance h]

theorem mem_instResetTime_ownTimes {e : ℕ × ℕ × UInt32}
    (he : e ∈ (ownTimes db.toDatabase).instResetTime.entries) :
    ∃ row ∈ ownInstances db.toDatabase, e = (row.id, row.pair, db.loadedTime row) := by
  have hfind := SortedMap.find_of_mem he
  have hrow : ∃ row ∈ ownInstances db.toDatabase, row.id = e.1 := by
    rcases ownTimes_cases db with ⟨hmemory, -⟩ | ⟨r, rs, -, row, hrow, -, hmemory, -⟩
    · rw [hmemory] at hfind
      obtain ⟨row, hrow, hid, -⟩ := exists_of_find_foldl_readInstance hfind
      exact ⟨row, hrow, hid⟩
    · rw [hmemory, SortedMap.find_insert] at hfind
      split_ifs at hfind with hid
      · exact ⟨row, hrow, hid.symm⟩
      · obtain ⟨row', hrow', hid', -⟩ := exists_of_find_foldl_readInstance hfind
        exact ⟨row', hrow', hid'⟩
  obtain ⟨row, hrow, hid⟩ := hrow
  rw [← hid, instResetTime_ownTimes hrow] at hfind
  exact ⟨row, hrow, Prod.ext hid.symm (Option.some.inj hfind).symm⟩

theorem instances_ownTimes (db : Tables) : (ownTimes db.toDatabase).instances =
    db.instances.map fun row =>
      if row.resettime = 0 then row else { row with resettime := db.loadedTime row } := by
  rcases ownTimes_cases db with ⟨-, hrows, hloaded⟩ | ⟨r, rs, hrs, row', hrow', hid, -, hrows⟩
  · refine hrows.trans ((List.map_id _).symm.trans (List.map_congr_left fun row hrow => ?_))
    split_ifs with hzero
    · rfl
    · rw [hloaded row (mem_ownInstances.2 ⟨hrow, hzero⟩)]
      rfl
  · rw [hrows, setResettime]
    refine List.map_congr_left fun row hrow => ?_
    rw [Tables.loadedTime, hrs]
    dsimp only
    by_cases heq : row.id = row'.id
    · obtain rfl := Tables.eq_of_id_eq hrow (mem_ownInstances.1 hrow').1 heq
      rw [if_pos rfl, if_neg (mem_ownInstances.1 hrow').2, if_pos hid.symm]
    · rw [if_neg heq, if_neg fun hr : r.instanceId = row.id => heq (hr.symm.trans hid.symm),
        ite_self]

/-! ### The scheduled resets -/

/-- The reset of an instance that is to come. -/
def resetEvent (e : ℕ × ℕ × UInt32) : ℤ × InstResetEvent :=
  (e.2.2.toNat, ⟨0, e.2.1, .ofNat e.1⟩)

theorem perm_foldl_loadInstance {now : ℕ} (es : List (ℕ × ℕ × UInt32)) (m : Manager) :
    (es.foldl (loadInstance now) m).resetTimeQueue.entries.Perm
      ((es.filter fun e => now < e.2.2.toNat).map resetEvent ++ m.resetTimeQueue.entries) := by
  induction es generalizing m with
  | nil => exact List.Perm.refl _
  | cons e es ih =>
    refine (ih (loadInstance now m e)).trans ?_
    unfold loadInstance
    dsimp only
    by_cases hnow : now < e.2.2.toNat
    · rw [if_pos (by exact_mod_cast hnow), List.filter_cons_of_pos (by simpa using hnow),
        List.map_cons, List.cons_append]
      exact ((Agenda.perm_insertEntry _ _).append_left _).trans List.perm_middle
    · rw [if_neg (by exact_mod_cast hnow), List.filter_cons_of_neg (by simpa using hnow)]

/-- The warnings and resets of a pair are no resets of single instances. -/
theorem perm_resetsOf_loadPair (c : Config) (db : Database) (now : ℕ) (m : Manager)
    (entry : ℕ × MapDifficulty) : (resetsOf (c.loadPair db now m entry) id).Perm (resetsOf m id) := by
  have key : ∀ (ids : List ℕ) (t : ℤ) (type pair : ℕ) (m : Manager), type ≠ 0 →
      (resetsOf (ids.foldl (fun m i => m.scheduleReset t ⟨type, pair, .ofNat i⟩) m) id).Perm
        (resetsOf m id) := by
    intro ids t type pair m htype
    induction ids generalizing m with
    | nil => exact List.Perm.refl _
    | cons i ids ih =>
      refine (ih _).trans (((Agenda.perm_insertEntry _ _).filter _).trans ?_)
      rw [List.filter_cons_of_neg (by simpa using fun h => absurd h htype)]
      exact List.Perm.refl _
  unfold loadPair
  dsimp only
  split_ifs
  · exact List.Perm.refl _
  · exact key _ _ _ _ _ (Nat.one_le_iff_ne_zero.1 (firstType_bounds _ _).1)

theorem perm_resetsOf_loadResetTimes (c : Config) (db : Database) (now : ℕ) :
    (resetsOf (c.loadResetTimes db now) id).Perm
      (((ownTimes db).instResetTime.entries.filter fun e =>
        e.1 % 2 ^ 16 = id ∧ now < e.2.2.toNat).map resetEvent) := by
  have key : ∀ (entries : List (ℕ × MapDifficulty)) (m : Manager),
      (resetsOf (entries.foldl (c.loadPair db now) m) id).Perm (resetsOf m id) := by
    intro entries
    induction entries with
    | nil => exact fun m => List.Perm.refl _
    | cons entry entries ih =>
      exact fun m => (ih _).trans (perm_resetsOf_loadPair c db now m entry)
  refine (key _ _).trans ?_
  refine ((perm_foldl_loadInstance _ Manager.initial).filter _).trans ?_
  have hinitial : Manager.initial.resetTimeQueue.entries = [] := rfl
  rw [hinitial, List.append_nil, List.filter_map, List.filter_filter]
  refine List.Perm.of_eq (congrArg _ (List.filter_congr fun e _ => ?_))
  simp [resetEvent]

/-- An instance whose reset is to come has one reset, at its time, if the events of the others do not
take its id. -/
theorem resetsOf_loadResetTimes (c : Config) {now : ℕ} (h : row ∈ ownInstances db.toDatabase)
    (hids : ∀ row' ∈ ownInstances db.toDatabase, now < (db.loadedTime row').toNat →
      row'.id < 2 ^ 16) (hnow : now < (db.loadedTime row).toNat) :
    resetsOf (c.loadResetTimes db.toDatabase now) row.id =
      [(((db.loadedTime row).toNat : ℤ), ⟨0, row.pair, .ofNat row.id⟩)] := by
  have hperm := @perm_resetsOf_loadResetTimes row.id c db.toDatabase now
  have hsame : (ownTimes db.toDatabase).instResetTime.entries.filter
        (fun e => e.1 % 2 ^ 16 = row.id ∧ now < e.2.2.toNat) =
      ((ownTimes db.toDatabase).instResetTime.entries.filter fun e => e.1 = row.id).filter
        fun e => now < e.2.2.toNat := by
    rw [List.filter_filter]
    refine List.filter_congr fun e he => ?_
    obtain ⟨row', hrow', rfl⟩ := mem_instResetTime_ownTimes he
    by_cases hlater : now < (db.loadedTime row').toNat
    · have hid := Nat.mod_eq_of_lt (hids row' hrow' hlater)
      simp only [hid, hlater, Bool.decide_and, Bool.and_comm]
    · simp [hlater]
  rw [hsame, SortedMap.filter_key (instResetTime_ownTimes h),
    List.filter_cons_of_pos (by simpa using hnow), List.filter_nil] at hperm
  exact List.perm_singleton.1 hperm

/-! ### When the times are right -/

theorem Tables.loadedTime_of_head {r : RespawnRow} {rs : List RespawnRow}
    (h : db.maxCreatureRespawns = r :: rs) : db.loadedTime row =
      if r.instanceId = row.id then r.respawnTime + 2 * 3600 else row.resettime := by
  rw [Tables.loadedTime, h]

theorem Tables.resetTime_of_mem {r : RespawnRow} (h : r ∈ db.maxCreatureRespawns)
    (hid : row.id = r.instanceId) : db.resetTime row = r.respawnTime.toNat + 2 * 3600 := by
  have hmem : r ∈ db.respawns := h
  rw [Tables.resetTime, hid, Table.find_key hmem]

theorem Tables.resetTime_of_forall_ne (h : ∀ r ∈ db.maxCreatureRespawns, r.instanceId ≠ row.id) :
    db.resetTime row = row.resettime.toNat := by
  have hnone : db.respawns.find row.id = none := Table.find_eq_none.2 h
  rw [Tables.resetTime, hnone]

theorem toNat_add_two_hours (t : UInt32) :
    (t + 2 * 3600).toNat = t.toNat + 2 * 3600 ↔ t.toNat + 2 * 3600 < 2 ^ 32 := by
  have hlt := (t + 2 * 3600).toNat_lt
  have hhours : (2 * 3600 : UInt32).toNat = 2 * 3600 := rfl
  rw [UInt32.toNat_add, hhours] at hlt ⊢
  omega

theorem loadedTime_iff (db : Tables) :
    (∀ row ∈ ownInstances db.toDatabase, (db.loadedTime row).toNat = db.resetTime row) ↔
      RestWritten db := by
  cases hrespawns : db.maxCreatureRespawns with
  | nil =>
    refine iff_of_true (fun row _ => ?_) ⟨fun r hr => ?_, fun r hr => ?_⟩
    · rw [db.resetTime_of_forall_ne (by simp [hrespawns]), Tables.loadedTime, hrespawns]
    · rw [hrespawns] at hr
      cases hr
    · rw [hrespawns] at hr
      cases hr
  | cons r rs =>
    have hnodup := db.grouped
    rw [hrespawns, List.map_cons, List.nodup_cons] at hnodup
    have hne : ∀ r' ∈ rs, r.instanceId ≠ r'.instanceId := fun r' hr' heq =>
      hnodup.1 (heq ▸ List.mem_map_of_mem hr')
    constructor
    · intro h
      refine ⟨fun r' hr' => ?_, fun r' hr' row hrow hid => ?_⟩
      · rw [hrespawns] at hr'
        obtain rfl := Option.some.inj hr'
        rintro ⟨row, hrow, hid⟩
        have htime := h row hrow
        rw [Tables.loadedTime_of_head hrespawns, if_pos hid.symm,
          Tables.resetTime_of_mem (by rw [hrespawns]; exact List.mem_cons_self) hid] at htime
        exact (toNat_add_two_hours _).1 htime
      · rw [hrespawns] at hr'
        have htime := h row hrow
        rwa [Tables.loadedTime_of_head hrespawns,
          if_neg fun heq : r.instanceId = row.id => hne r' hr' (heq.trans hid),
          Tables.resetTime_of_mem (by rw [hrespawns]; exact List.mem_cons_of_mem r hr') hid] at htime
    · intro h row hrow
      rw [Tables.loadedTime_of_head hrespawns]
      split_ifs with hid
      · rw [Tables.resetTime_of_mem (by rw [hrespawns]; exact List.mem_cons_self) hid.symm]
        exact (toNat_add_two_hours _).2 (h.first r (by rw [hrespawns]; rfl) ⟨row, hrow, hid.symm⟩)
      · by_cases hrest : ∃ r' ∈ rs, row.id = r'.instanceId
        · obtain ⟨r', hr', hid'⟩ := hrest
          rw [Tables.resetTime_of_mem (by rw [hrespawns]; exact List.mem_cons_of_mem r hr') hid']
          exact h.rest r' (by rw [hrespawns]; exact hr') row hrow hid'
        · refine (Tables.resetTime_of_forall_ne fun r' hr' heq => ?_).symm
          rw [hrespawns] at hr'
          rcases List.mem_cons.1 hr' with rfl | hr'
          · exact hid heq
          · exact hrest ⟨r', hr', heq.symm⟩

end

/-- **Main result.** After the reset times are loaded, the instances reset two hours after their last
respawn, exactly if the respawn times behind the first one have been written already and the
instances that are still to be reset have ids of 16 bits. -/
theorem resetsAfterRespawns_iff (c : Config) (db : Tables) (now : ℕ) :
    ResetsAfterRespawns c db now ↔ RestWritten db ∧ IdsFit db now := by
  rw [← loadedTime_iff]
  constructor
  · intro h
    refine ⟨fun row hrow => ?_, fun row hrow hnow => ?_⟩
    · obtain ⟨t, hfind, ht⟩ := h.memory row hrow
      rw [instResetTime_ownTimes hrow] at hfind
      obtain ⟨-, rfl⟩ := Prod.mk.inj (Option.some.inj hfind)
      exact ht
    · have hmem : ((db.resetTime row : ℤ), ⟨0, row.pair, .ofNat row.id⟩) ∈
          resetsOf (c.loadResetTimes db.toDatabase now) row.id := by
        rw [h.scheduled row hrow hnow]
        exact List.mem_cons_self
      have hid := (of_decide_eq_true (List.mem_filter.1 hmem).2).2
      rw [← hid]
      exact UInt16.toNat_lt _
  · rintro ⟨h, hids⟩
    refine ⟨fun row hrow => ⟨_, instResetTime_ownTimes hrow, h row hrow⟩, ?_, fun row hrow hnow => ?_⟩
    · rw [instances_ownTimes, List.forall₂_map_right_iff, List.forall₂_same]
      intro row hrow
      by_cases hzero : row.resettime = 0
      · rw [if_pos hzero, if_pos hzero, hzero]
        exact ⟨rfl, rfl, rfl⟩
      · rw [if_neg hzero, if_neg hzero]
        exact ⟨rfl, rfl, h row (mem_ownInstances.2 ⟨hrow, hzero⟩)⟩
    · rw [← h row hrow] at hnow ⊢
      refine resetsOf_loadResetTimes c hrow (fun row' hrow' hlater => hids row' hrow' ?_) hnow
      rwa [← h row' hrow']

/-- Two dungeons, with respawn times of their creatures that are not written yet. -/
def twoDungeons : Tables where
  instances := [⟨1, 36, 1000⟩, ⟨2, 36, 1000⟩]
  maxCreatureRespawns := [⟨5000, 1⟩, ⟨6000, 2⟩]
  instanceReset := fun _ => none
  sorted := by decide
  grouped := by decide

/-- The second one keeps its reset time. -/
theorem second_dungeon_not_updated :
    ¬ResetsAfterRespawns ⟨.empty, fun _ => false, 4, fun t => t.toNat⟩ twoDungeons 2000 := by
  intro h
  have hrow : (⟨2, 36, 1000⟩ : InstanceRow) ∈ ownInstances twoDungeons.toDatabase :=
    mem_ownInstances.2 ⟨List.mem_cons_of_mem _ List.mem_cons_self, by decide⟩
  obtain ⟨t, hfind, ht⟩ := h.memory _ hrow
  rw [instResetTime_ownTimes hrow] at hfind
  obtain ⟨-, rfl⟩ := Prod.mk.inj (Option.some.inj hfind)
  exact absurd ht (by decide)

end FaceCore.InstanceResets
