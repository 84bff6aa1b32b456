import FaceCore.Lib.Runs
import FaceCore.Lib.Table
import Mathlib.Data.List.Range
import Mathlib.Data.Nat.ModEq

/-!
# The logs of a guild

`Guild::LogHolder` with its rows, for the event log of a guild and the logs of its bank tabs. The
guids of the entries count up and wrap around at the maximum; a row is written in place of the one
with its guid, while the list in memory drops its front. The server loads the rows by
`ORDER BY TimeStamp DESC, LogGuid DESC` and puts each one in front of those before.

* `GuildLog`, `LogHolder`, `LogState`: the logs, their holders, and a holder with its rows;
* `load`: the holder that the load query makes of the rows;
* `Restorable`: the rows are the entries, and loading them gives the holder back;
* `guild_log_restorable_iff`: that stays so exactly when every entry comes after the last one in the
  order of the query.

A time is a number that fits its column. The configuration limits the maximum to 100, so guids stay
below `GUILD_EVENT_LOG_GUID_UNDEFINED`, which is `none` here.
-/

namespace FaceCore.GuildEventLog

/-- The fields of an `EventLogEntry` besides its guid and its time. -/
structure EventLogEvent where
  eventType : UInt8
  playerGuid1 : UInt32
  playerGuid2 : UInt32
  newRank : UInt8

/-- The fields of a `BankEventLogEntry` besides its guid, its time and its tab. -/
structure BankEventLogEvent where
  eventType : UInt8
  playerGuid : UInt32
  itemOrMoney : UInt32
  itemStackCount : UInt16
  destTabId : UInt8

/-- `BankEventLogEntry::IsMoneyEvent`. -/
def BankEventLogEvent.isMoneyEvent (e : BankEventLogEvent) : Bool :=
  e.eventType = 4 || e.eventType = 5 || e.eventType = 6

/-- The logs of a guild: its event log, the log of a bank tab, and that of the bank's money. -/
inductive GuildLog
  | event
  | bankTab
  | money

/-- What an entry of a log is about. -/
def GuildLog.Event : GuildLog → Type
  | .event => EventLogEvent
  | .bankTab => BankEventLogEvent
  | .money => BankEventLogEvent

/-- `LoadEventLogFromDB` takes every entry, `LoadBankEventLogFromDB` only those whose kind belongs
to the tab; `_LogBankEvent` puts no others into the log. -/
def GuildLog.loads : (l : GuildLog) → l.Event → Bool
  | .event, _ => true
  | .bankTab, e => !BankEventLogEvent.isMoneyEvent e
  | .money, e => BankEventLogEvent.isMoneyEvent e

/-- `Guild::LogEntry`, in memory or as a row. -/
structure LogEntry (α : Type) where
  guid : ℕ
  timestamp : ℕ
  event : α

/-- `Guild::LogHolder`; the oldest entry is the first one. -/
structure LogHolder (α : Type) where
  maxRecords : ℕ
  pos : 0 < maxRecords
  log : List (LogEntry α)
  nextGUID : Option ℕ

/-- A holder and the rows of its log. -/
structure LogState (α : Type) where
  holder : LogHolder α
  rows : Table (LogEntry.guid (α := α))

variable {α : Type}

namespace LogHolder

/-- A new holder. -/
def empty (maxRecords : ℕ) (pos : 0 < maxRecords) : LogHolder α := ⟨maxRecords, pos, [], none⟩

/-- `LogHolder::CanInsert`. -/
def canInsert (h : LogHolder α) : Bool := h.log.length < h.maxRecords

/-- `LogHolder::GetNextGUID`. -/
def getNextGUID (h : LogHolder α) : ℕ :=
  match h.nextGUID with
  | none => 0
  | some guid => (guid + 1) % h.maxRecords

/-- `LogHolder::LoadEvent`. -/
def loadEvent (h : LogHolder α) (entry : LogEntry α) : LogHolder α :=
  { h with nextGUID := h.nextGUID.or (some entry.guid), log := entry :: h.log }

/-- What `LogHolder::AddEvent` keeps: a full list loses its front. -/
def kept (h : LogHolder α) : List (LogEntry α) :=
  if h.log.length ≥ h.maxRecords then h.log.tail else h.log

/-- `LogHolder::AddEvent`. -/
def addEvent (h : LogHolder α) (entry : LogEntry α) : LogHolder α :=
  { h with log := h.kept ++ [entry] }

/-- One row of the result of the query. -/
def loadRow (loads : α → Bool) (h : LogHolder α) (row : LogEntry α) : LogHolder α :=
  if h.canInsert && loads row.event then h.loadEvent row else h

end LogHolder

/-- `ORDER BY TimeStamp DESC, LogGuid DESC`. -/
def descending (a b : LogEntry α) : Bool :=
  b.timestamp < a.timestamp ∨ b.timestamp = a.timestamp ∧ b.guid ≤ a.guid

/-- `GuildMgr::LoadGuilds` on the rows of one log. -/
def load (loads : α → Bool) (maxRecords : ℕ) (pos : 0 < maxRecords)
    (rows : List (LogEntry α)) : LogHolder α :=
  ((rows.filter fun row => row.guid ≤ maxRecords).mergeSort descending).foldl
    (LogHolder.loadRow loads) (.empty maxRecords pos)

/-- What happens to a log. -/
inductive Op (loads : α → Bool)
  | addEvent (timestamp : ℕ) (event : { e : α // loads e = true })
  | restart

/-- The log after an operation; `_LogEvent` and `_LogBankEvent` take the next guid and save the
entry over the row with that guid. -/
def step (loads : α → Bool) (s : LogState α) : Op loads → LogState α
  | .addEvent timestamp event =>
    let entry : LogEntry α := ⟨s.holder.getNextGUID, timestamp, event.1⟩
    { holder := { s.holder with nextGUID := some entry.guid }.addEvent entry
      rows := s.rows.insert entry }
  | .restart =>
    { s with holder := load loads s.holder.maxRecords s.holder.pos s.rows.toList }

/-- A log without entries. -/
def LogState.new (maxRecords : ℕ) (pos : 0 < maxRecords) : LogState α :=
  ⟨.empty maxRecords pos, .empty _⟩

/-- The rows are the entries, as many as there may be, with different guids, and loading them gives
the holder back. -/
structure Restorable (loads : α → Bool) (s : LogState α) : Prop where
  mem_rows : ∀ e, e ∈ s.rows ↔ e ∈ s.holder.log
  nodup : (s.holder.log.map LogEntry.guid).Nodup
  length_le : s.holder.log.length ≤ s.holder.maxRecords
  load_eq : load loads s.holder.maxRecords s.holder.pos s.rows.toList = s.holder

/-- In the order of the query the new entry comes after the last one: its time is later, or the same
while its guid does not start again from 0. A log of one entry has no order. -/
def InOrder {loads : α → Bool} (s : LogState α) : Op loads → Prop
  | .addEvent timestamp _ => s.holder.maxRecords = 1 ∨ ∀ last ∈ s.holder.log.getLast?,
      last.timestamp < timestamp ∨ last.timestamp = timestamp ∧ s.holder.getNextGUID ≠ 0
  | .restart => True

/-! ### Guids -/

/-- The guids of a log after `a + k` events, `k` of which are left. -/
def guids (max a k : ℕ) : List ℕ := (List.range' a k).map (· % max)

theorem nodup_guids {max a k : ℕ} (hk : k ≤ max) : (guids max a k).Nodup := by
  unfold guids
  rw [List.nodup_map_iff_inj_on List.nodup_range']
  intro i hi j hj hij
  rw [List.mem_range'_1] at hi hj
  have hmod : i ≡ j [MOD max] := hij
  rcases Nat.le_total i j with hle | hle
  · have hlt : j - i < max := by omega
    have hzero := (Nat.modEq_iff_dvd' hle).1 hmod
    have := Nat.eq_zero_of_dvd_of_lt hzero hlt
    omega
  · have hlt : i - j < max := by omega
    have hzero := (Nat.modEq_iff_dvd' hle).1 hmod.symm
    have := Nat.eq_zero_of_dvd_of_lt hzero hlt
    omega

/-- What holds after any events and restarts: the entries are those of the last events, numbered
modulo the maximum, and the rows are the entries. -/
structure Counted (s : LogState α) (a k : ℕ) : Prop where
  guids_eq : s.holder.log.map LogEntry.guid = guids s.holder.maxRecords a k
  le_max : k ≤ s.holder.maxRecords
  full : a ≠ 0 → k = s.holder.maxRecords
  next : s.holder.getNextGUID = (a + k) % s.holder.maxRecords
  mem_rows : ∀ e, e ∈ s.rows ↔ e ∈ s.holder.log

section

variable {loads : α → Bool} {s : LogState α} {a k : ℕ}

theorem Counted.nodup (h : Counted s a k) : (s.holder.log.map LogEntry.guid).Nodup := by
  rw [h.guids_eq]
  exact nodup_guids h.le_max

theorem Counted.length_eq (h : Counted s a k) : s.holder.log.length = k := by
  have hlen := congrArg List.length h.guids_eq
  simpa [guids] using hlen

theorem Counted.new (max : ℕ) (pos : 0 < max) : Counted (LogState.new (α := α) max pos) 0 0 where
  guids_eq := rfl
  le_max := Nat.zero_le _
  full := fun h => absurd rfl h
  next := (Nat.zero_mod max).symm
  mem_rows := by
    intro e
    simp [LogState.new, LogHolder.empty, Table.not_mem_empty]

theorem Counted.kept (h : Counted s a k) :
    ∃ a' k', a' + k' = a + k ∧ k' + 1 ≤ s.holder.maxRecords ∧
      (a' ≠ 0 → k' + 1 = s.holder.maxRecords) ∧
      s.holder.kept.map LogEntry.guid = guids s.holder.maxRecords a' k' ∧
      s.holder.kept ⊆ s.holder.log ∧
      ∀ e ∈ s.holder.log, e ∈ s.holder.kept ∨ e.guid = s.holder.getNextGUID := by
  have hlen := h.length_eq
  have hpos := s.holder.pos
  unfold LogHolder.kept
  split_ifs with hfull
  · have hk : k = s.holder.maxRecords := le_antisymm h.le_max (hlen ▸ hfull)
    refine ⟨a + 1, k - 1, by omega, by omega, fun _ => by omega, ?_, List.tail_subset _, ?_⟩
    · rw [List.map_tail, h.guids_eq]
      unfold guids
      rw [← List.map_tail, List.tail_range']
    · intro e he
      cases hlog : s.holder.log with
      | nil =>
        rw [hlog] at he
        exact absurd he List.not_mem_nil
      | cons front rest =>
        rw [hlog] at he
        rcases List.mem_cons.1 he with rfl | he
        · have hguids := h.guids_eq
          rw [hlog, List.map_cons, guids, show k = (k - 1) + 1 by omega, List.range'_succ,
            List.map_cons] at hguids
          right
          rw [h.next, (List.cons.inj hguids).1, hk, Nat.add_mod_right]
        · exact .inl he
  · refine ⟨a, k, rfl, by omega, fun ha => ?_, h.guids_eq, List.Subset.refl _, fun e he => .inl he⟩
    exact absurd (hlen.trans (h.full ha)) (by omega)

theorem Counted.addEvent (h : Counted s a k) (timestamp : ℕ) (event : { e : α // loads e = true }) :
    ∃ a' k', Counted (step loads s (.addEvent timestamp event)) a' k' := by
  obtain ⟨a', k', hsum, hle, hfull, hguids, hsub, hfront⟩ := h.kept
  have hnew : (step loads s (.addEvent timestamp event)).holder.log.map LogEntry.guid =
      guids s.holder.maxRecords a' (k' + 1) := by
    show (s.holder.kept ++ [_]).map LogEntry.guid = _
    rw [List.map_append, hguids, List.map_singleton, h.next, guids, guids, List.range'_concat,
      List.map_append, ← hsum, one_mul]
    rfl
  have hnodup := nodup_guids (a := a') hle
  rw [← hnew] at hnodup
  refine ⟨a', k' + 1, hnew, hle, hfull, ?_, fun e => ?_⟩
  · show (s.holder.getNextGUID + 1) % _ = _
    rw [h.next, ← Nat.add_assoc, hsum]
    exact Nat.mod_add_mod _ _ 1
  · show e ∈ s.rows.insert _ ↔ e ∈ s.holder.kept ++ [_]
    rw [Table.mem_insert, h.mem_rows, List.mem_append, List.mem_singleton, or_comm]
    refine or_congr_left ⟨?_, fun he => ⟨hsub he, ?_⟩⟩
    · rintro ⟨he, hne⟩
      exact (hfront e he).resolve_right hne
    · -- the guids of the new list are all different
      change ((s.holder.kept ++ [_]).map LogEntry.guid).Nodup at hnodup
      rw [List.map_append, List.nodup_append] at hnodup
      exact hnodup.2.2 _ (List.mem_map_of_mem he) _ (by simp)

end

/-! ### Loading -/

/-- The order in which the entries are loaded, the last one first. -/
def Before (a b : LogEntry α) : Prop :=
  a.timestamp < b.timestamp ∨ a.timestamp = b.timestamp ∧ a.guid < b.guid

theorem Before.trans {a b c : LogEntry α} (hab : Before a b) (hbc : Before b c) : Before a c := by
  unfold Before at *
  omega

theorem descending_iff {a b : LogEntry α} : descending a b = true ↔
    b.timestamp < a.timestamp ∨ b.timestamp = a.timestamp ∧ b.guid ≤ a.guid := by
  unfold descending
  rw [decide_eq_true_eq]

theorem foldl_loadRow {loads : α → Bool} (l : List (LogEntry α)) (h : LogHolder α)
    (hloads : ∀ e ∈ l, loads e.event = true) (hlen : h.log.length + l.length ≤ h.maxRecords) :
    l.foldl (LogHolder.loadRow loads) h =
      { h with
        log := l.reverse ++ h.log
        nextGUID := h.nextGUID.or (l.head?.map LogEntry.guid) } := by
  induction l generalizing h with
  | nil => simp
  | cons e l ih =>
    have hstep : LogHolder.loadRow loads h e = h.loadEvent e := by
      unfold LogHolder.loadRow LogHolder.canInsert
      rw [if_pos]
      simp only [List.length_cons] at hlen
      simp [hloads e List.mem_cons_self]
      omega
    rw [List.foldl_cons, hstep, ih _ fun e' he' => hloads e' (List.mem_cons_of_mem e he')]
    · unfold LogHolder.loadEvent
      cases h.nextGUID <;> simp
    · unfold LogHolder.loadEvent
      simp only [List.length_cons] at hlen ⊢
      omega

/-- The rows of entries with different guids are sorted into their reverse exactly if the entries
are in the order of the query. -/
theorem mergeSort_eq_reverse_iff {rows log : List (LogEntry α)} (hperm : rows.Perm log)
    (hnodup : (log.map LogEntry.guid).Nodup) :
    rows.mergeSort descending = log.reverse ↔ log.Pairwise Before := by
  have hne : log.Pairwise fun a b => a.guid ≠ b.guid := List.pairwise_map.1 hnodup
  have hsorted : (rows.mergeSort descending).Pairwise fun a b => descending a b = true := by
    apply List.pairwise_mergeSort
    · intro a b c
      simp only [descending_iff]
      omega
    · intro a b
      simp only [Bool.or_eq_true, descending_iff]
      omega
  constructor
  · intro heq
    rw [heq, List.pairwise_reverse] at hsorted
    refine (hsorted.and hne).imp ?_
    rintro a b ⟨hab, hguid⟩
    rw [descending_iff] at hab
    unfold Before
    omega
  · intro hbefore
    have hanti : ∀ a b, a ∈ rows.mergeSort descending → b ∈ log.reverse →
        descending a b = true → descending b a = true → a = b := by
      intro a b ha hb hab hba
      rw [List.mem_mergeSort] at ha
      rw [descending_iff] at hab hba
      exact List.inj_on_of_nodup_map hnodup (hperm.mem_iff.1 ha) (List.mem_reverse.1 hb) (by omega)
    refine List.Perm.eq_of_pairwise hanti hsorted ?_ ?_
    · rw [List.pairwise_reverse]
      refine hbefore.imp ?_
      intro a b hab
      rw [descending_iff]
      unfold Before at hab
      omega
    · exact ((List.mergeSort_perm rows descending).trans hperm).trans (List.reverse_perm log).symm

/-- What holds after any events, and restarts that give the log back. -/
structure Reached (loads : α → Bool) (s : LogState α) : Prop where
  counted : ∃ a k, Counted s a k
  loads : ∀ e ∈ s.holder.log, loads e.event = true
  nextGUID : s.holder.nextGUID = s.holder.log.getLast?.map LogEntry.guid

variable {loads : α → Bool} {s : LogState α}

/-- A log is restorable exactly if its entries are in the order of the query. -/
theorem restorable_iff (h : Reached loads s) :
    Restorable loads s ↔ s.holder.log.Pairwise Before := by
  obtain ⟨⟨a, k, hc⟩, hloads, hnext⟩ := h
  have hperm : s.rows.toList.Perm s.holder.log :=
    (List.perm_ext_iff_of_nodup (s.rows.nodup.of_map _) (hc.nodup.of_map _)).2 hc.mem_rows
  have hlen := hc.length_eq
  have hpos := s.holder.pos
  have hall : s.rows.toList.filter (fun row => row.guid ≤ s.holder.maxRecords) = s.rows.toList := by
    rw [List.filter_eq_self]
    intro e he
    have hguid := List.mem_map_of_mem (f := LogEntry.guid) ((hc.mem_rows e).1 he)
    rw [hc.guids_eq] at hguid
    obtain ⟨i, -, hi⟩ := List.mem_map.1 hguid
    have hlt := Nat.mod_lt i hpos
    exact decide_eq_true (by rw [← hi]; exact hlt.le)
  have hload : load loads s.holder.maxRecords hpos s.rows.toList =
      ⟨s.holder.maxRecords, hpos, (s.rows.toList.mergeSort descending).reverse,
        (s.rows.toList.mergeSort descending).head?.map LogEntry.guid⟩ := by
    unfold load
    rw [hall, foldl_loadRow]
    · simp [LogHolder.empty]
    · intro e he
      rw [List.mem_mergeSort] at he
      exact hloads e ((hc.mem_rows e).1 he)
    · rw [List.length_mergeSort, hperm.length_eq, hlen]
      exact (Nat.zero_add k).le.trans hc.le_max
  rw [← mergeSort_eq_reverse_iff hperm hc.nodup]
  constructor
  · intro hr
    have hlog := congrArg LogHolder.log (hload.symm.trans hr.load_eq)
    exact List.reverse_eq_iff.1 hlog
  · intro heq
    refine ⟨hc.mem_rows, hc.nodup, hlen ▸ hc.le_max, ?_⟩
    rw [hload, heq, List.reverse_reverse, List.head?_reverse, ← hnext]

/-- In a list that is in order, an entry that comes after the last one comes after all. -/
theorem forall_before_iff {l : List (LogEntry α)} (h : l.Pairwise Before) (e : LogEntry α) :
    (∀ a ∈ l, Before a e) ↔ ∀ last ∈ l.getLast?, Before last e := by
  constructor
  · intro hall last hlast
    exact hall last (List.mem_of_getLast? hlast)
  · intro hlast a ha
    induction l using List.reverseRecOn with
    | nil => exact absurd ha List.not_mem_nil
    | append_singleton l last _ =>
      have hle := hlast last (by simp)
      rw [List.pairwise_append] at h
      rcases List.mem_append.1 ha with ha | ha
      · exact (h.2.2 a ha last List.mem_cons_self).trans hle
      · rwa [List.mem_singleton.1 ha]

/-- A log of at least two entries keeps its last one. -/
theorem Counted.getLast_kept {a k : ℕ} (h : Counted s a k) (hmax : s.holder.maxRecords ≠ 1) :
    s.holder.kept.getLast? = s.holder.log.getLast? := by
  have hlen := h.length_eq
  have hpos := s.holder.pos
  unfold LogHolder.kept
  split_ifs with hfull
  · cases hlog : s.holder.log with
    | nil => rfl
    | cons front rest =>
      cases rest with
      | nil =>
        rw [hlog, List.length_singleton] at hfull
        omega
      | cons e rest => simp
  · rfl

/-- A new entry comes after the ones that are kept exactly when it comes after the last one. -/
theorem pairwise_addEvent_iff (h : Reached loads s) (hbefore : s.holder.log.Pairwise Before)
    {timestamp : ℕ} {event : { e : α // loads e = true }} :
    (step loads s (.addEvent timestamp event)).holder.log.Pairwise Before ↔
      InOrder s (.addEvent timestamp event) := by
  obtain ⟨⟨a, k, hc⟩, -, hnext⟩ := h
  obtain ⟨a', k', hsum, hle, hfull, hguids, hsub, -⟩ := hc.kept
  have hpos := s.holder.pos
  have hkept : s.holder.kept.Pairwise Before := by
    unfold LogHolder.kept
    split_ifs
    · exact hbefore.sublist (List.tail_sublist _)
    · exact hbefore
  have hlog : (step loads s (.addEvent timestamp event)).holder.log =
      s.holder.kept ++ [⟨s.holder.getNextGUID, timestamp, event.1⟩] := rfl
  rw [hlog, List.pairwise_append]
  simp only [hkept, List.pairwise_singleton, true_and, List.mem_singleton, forall_eq]
  unfold InOrder
  by_cases hmax : s.holder.maxRecords = 1
  · refine iff_of_true (fun e he => ?_) (.inl hmax)
    have hnil : s.holder.kept.map LogEntry.guid = [] := by
      rw [hguids, show k' = 0 by omega]
      rfl
    rw [List.map_eq_nil_iff] at hnil
    rw [hnil] at he
    exact absurd he List.not_mem_nil
  · rw [forall_before_iff hkept, hc.getLast_kept hmax]
    simp only [hmax, false_or]
    refine forall₂_congr fun last hlast => ?_
    rw [Option.mem_def] at hlast
    -- the guid after the last one is larger, unless it starts again
    have hguid : s.holder.getNextGUID = (last.guid + 1) % s.holder.maxRecords := by
      unfold LogHolder.getNextGUID
      rw [hnext, hlast]
      rfl
    have hlt : last.guid < s.holder.maxRecords := by
      have hmem := List.mem_map_of_mem (f := LogEntry.guid) (List.mem_of_getLast? hlast)
      rw [hc.guids_eq] at hmem
      obtain ⟨i, -, hi⟩ := List.mem_map.1 hmem
      rw [← hi]
      exact Nat.mod_lt i hpos
    have hwrap : last.guid < s.holder.getNextGUID ↔ s.holder.getNextGUID ≠ 0 := by
      rw [hguid]
      by_cases hend : last.guid + 1 = s.holder.maxRecords
      · rw [hend, Nat.mod_self]
        omega
      · rw [Nat.mod_eq_of_lt (by omega)]
        omega
    show _ ∨ _ ∧ last.guid < s.holder.getNextGUID ↔ _
    rw [hwrap]

theorem Reached.new (maxRecords : ℕ) (pos : 0 < maxRecords) :
    Reached loads (LogState.new maxRecords pos) where
  counted := ⟨0, 0, Counted.new maxRecords pos⟩
  loads := nofun
  nextGUID := rfl

theorem Reached.addEvent (h : Reached loads s) (timestamp : ℕ)
    (event : { e : α // loads e = true }) :
    Reached loads (step loads s (.addEvent timestamp event)) := by
  obtain ⟨⟨a, k, hc⟩, hloads, -⟩ := h
  have hlog : (step loads s (.addEvent timestamp event)).holder.log =
      s.holder.kept ++ [⟨s.holder.getNextGUID, timestamp, event.1⟩] := rfl
  refine ⟨hc.addEvent timestamp event, ?_, ?_⟩
  · obtain ⟨-, -, -, -, -, -, hsub, -⟩ := hc.kept
    rw [hlog]
    intro e he
    rcases List.mem_append.1 he with he | he
    · exact hloads e (hsub he)
    · rw [List.mem_singleton.1 he]
      exact event.2
  · rw [hlog, List.getLast?_append]
    rfl

theorem Restorable.restart (h : Restorable loads s) : step loads s .restart = s := by
  unfold step
  rw [h.load_eq]

/-- **Main result.** For each log of a guild and any maximum, from the first entry on and over any
restarts, the rows are the entries and give the holder back exactly when every entry comes after the
last one in the order of the query. -/
theorem guild_log_restorable_iff (l : GuildLog) (maxRecords : ℕ) (pos : 0 < maxRecords)
    (ops : List (Op l.loads)) :
    Runs.Along (step l.loads) (Restorable l.loads) (LogState.new maxRecords pos) ops ↔
      Runs.EachStep (step l.loads) InOrder (LogState.new maxRecords pos) ops := by
  have hnew : Reached l.loads (LogState.new maxRecords pos) := Reached.new maxRecords pos
  apply Runs.along_iff_eachStep hnew ((restorable_iff hnew).2 List.Pairwise.nil)
  · intro s op hr hp _
    cases op with
    | addEvent timestamp event => exact hr.addEvent timestamp event
    | restart =>
      rw [hp.restart]
      exact hr
  · intro s op hr hp
    cases op with
    | addEvent timestamp event =>
      rw [restorable_iff (hr.addEvent timestamp event)]
      exact pairwise_addEvent_iff hr ((restorable_iff hr).1 hp)
    | restart =>
      rw [hp.restart]
      exact iff_of_true hp trivial

/-- A member joins. -/
def joined : { e : EventLogEvent // GuildLog.event.loads e = true } := ⟨⟨2, 1, 0, 0⟩, rfl⟩

/-- The first entry of a log is restored. -/
theorem guild_log_restorable_first :
    Runs.Along (step GuildLog.event.loads) (Restorable GuildLog.event.loads)
      (LogState.new 100 (by decide)) [.addEvent 5 joined] := by
  refine (guild_log_restorable_iff .event 100 (by decide) [.addEvent 5 joined]).2 ?_
  exact Runs.eachStep_cons.2 ⟨.inr nofun, Runs.EachStep.nil _⟩

/-- With room for two entries the third one gets the guid 0. If it has the time of the second one,
the server loads it as the older of the two. -/
theorem guild_log_wraps_within_a_second :
    ¬ Runs.Along (step GuildLog.event.loads) (Restorable GuildLog.event.loads)
      (LogState.new 2 (by decide)) [.addEvent 5 joined, .addEvent 5 joined, .addEvent 5 joined] := by
  intro h
  have hreached : ∀ s : LogState EventLogEvent, Reached GuildLog.event.loads s →
      Reached GuildLog.event.loads (step GuildLog.event.loads s (.addEvent 5 joined)) :=
    fun s hs => hs.addEvent 5 joined
  have hlast := (restorable_iff (hreached _ (hreached _ (hreached _ (Reached.new 2 _))))).1
    (h _ (List.prefix_refl _))
  have hbefore := List.rel_of_pairwise_cons hlast List.mem_cons_self
  rcases hbefore with hlt | ⟨-, hlt⟩
  · exact absurd hlt (by decide)
  · exact absurd hlt (by decide)

end FaceCore.GuildEventLog
