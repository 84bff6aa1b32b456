import FaceCore.Lib.Runs
import FaceCore.Reputation.ReputationMgr

/-!
# Reputations over a session

A reputation that was changed is in its range, the counters count, and a faction of rank hostile or
lower that is not at peace by force is at war. The last one is what the manager sees to when it loads
a row and when it changes a reputation; the request of a client to end a war is not compared with the
rank, and a faction without a row keeps the flags of the table.

* `Kept`: the states belong to factions of the table, and the counters count them up to 256;
* `loaded_loadFromDB`: the state at login;
* `sound_run_iff`: when a session stays sound.
-/

namespace FaceCore.Reputations

open ReputationMgr

/-! ### Sessions -/

/-- The rows of a player; the faction is part of the primary key. -/
structure Rows where
  rows : List ReputationRow
  keys : (rows.map (·.faction)).Nodup

/-- What changes the reputations of a player; a faction is named by its id. -/
inductive Request
  | loadFromDB (result : Option Rows)
  | setOneFactionReputation (faction : UInt32) (standing : Int32) (incremental : Bool)
  | setVisible (faction : UInt32)
  | setVisibleTemplate (faction : UInt32)
  | setAtWar (repListID : UInt32) (on : Bool)
  | setInactive (repListID : UInt32) (on : Bool)

/-- The manager, and the factions that were changed since the login. -/
structure Session where
  mgr : ReputationMgr
  changed : List ℕ

/-- A session before the login. -/
def Session.new : Session := ⟨ReputationMgr.new, []⟩

/-- One request. -/
def step (p : Player) (s : Session) : Request → Session
  | .loadFromDB result => ⟨loadFromDB p (result.map Rows.rows), []⟩
  | .setOneFactionReputation faction standing incremental =>
    match p.factions.lookupEntry faction.toNat with
    | none => s
    | some e =>
      ⟨s.mgr.setOneFactionReputation p e standing incremental, e.repListID :: s.changed⟩
  | .setVisible faction =>
    match p.factions.lookupEntry faction.toNat with
    | none => s
    | some e => { s with mgr := s.mgr.setVisible e }
  | .setVisibleTemplate faction => { s with mgr := s.mgr.setVisibleTemplate p faction }
  | .setAtWar repListID on => { s with mgr := s.mgr.setAtWar repListID.toNat on }
  | .setInactive repListID on => { s with mgr := s.mgr.setInactive repListID.toNat on }

/-- The base and the standing of a faction. -/
def Player.reputationOf (p : Player) (f : FactionState) : Int32 :=
  p.getBaseReputation (p.factions.lookupEntry f.id.toNat) + f.standing

/-- The rank of a faction. -/
def Player.rankOf (p : Player) (f : FactionState) : ReputationRank :=
  reputationToRank (p.reputationOf f)

/-- Whether a faction is at war if it is hostile or worse and its flags allow war. -/
def Player.Warlike (p : Player) (f : FactionState) : Prop :=
  p.rankOf f ≤ .hostile → f.has factionFlagPeaceForced = false → f.has factionFlagAtWar = true

/-- What a session should be at every state. -/
structure Sound (p : Player) (s : Session) : Prop where
  inRange : ∀ k ∈ s.changed, ∀ f, s.mgr.factions.find k = some f →
    reputationBottom ≤ p.reputationOf f ∧ p.reputationOf f ≤ reputationCap
  visible : s.mgr.visibleFactionCount.toNat = s.mgr.factions.count (·.has factionFlagVisible)
  honored : s.mgr.honoredFactionCount.toNat =
    s.mgr.factions.count fun f => decide (.honored ≤ p.rankOf f)
  revered : s.mgr.reveredFactionCount.toNat =
    s.mgr.factions.count fun f => decide (.revered ≤ p.rankOf f)
  exalted : s.mgr.exaltedFactionCount.toNat =
    s.mgr.factions.count fun f => decide (.exalted ≤ p.rankOf f)
  atWar : ∀ k f, s.mgr.factions.find k = some f → p.Warlike f

/-- A table with a place in the list for each faction that has one, of which there are fewer than 256,
and no faction of id 0 among them. -/
structure Regular (p : Player) : Prop where
  distinct : ∀ i j e e', p.factions.lookupEntry i = some e → p.factions.lookupEntry j = some e' →
    e.canHaveReputation = true → e.reputationListID = e'.reputationListID → i = j
  fromOne : ∀ e, p.factions.lookupEntry 0 = some e → e.canHaveReputation = false
  few : (p.factions.rows.countP (·.any FactionEntry.canHaveReputation)) < 256

/-- The requests that keep a session sound: at login the factions without a row are at war by default
where they have to be; and no client ends the war with a faction that is hostile or worse and not at
peace by force, unless its war state is fixed. -/
def Keeps (p : Player) (s : Session) : Request → Prop
  | .loadFromDB result => ∀ i e, p.factions.lookupEntry i = some e → e.canHaveReputation = true →
    (∀ rows, result = some rows → ∀ row ∈ rows.rows, row.faction.toNat ≠ i) →
      p.Warlike (newFaction p e)
  | .setAtWar repListID on => on = false → ∀ f, s.mgr.factions.find repListID.toNat = some f →
    f.has (factionFlagInvisibleForced ||| factionFlagHidden) = false →
      p.rankOf f ≤ .hostile → f.has factionFlagPeaceForced = true
  | _ => True

section

variable {p : Player} {m m' : ReputationMgr} {f f' : FactionState} {e : FactionEntry} {k : ℕ}

/-! ### Counters -/

/-- A counter goes along with a property that holds of an element before and after. -/
def Moves (count count' : UInt8) (before after : Bool) : Prop :=
  count' + UInt8.ofNat before.toNat = count + UInt8.ofNat after.toNat

theorem moves_self (count : UInt8) (b : Bool) : Moves count count b b := rfl

theorem moves_recount (rank oldRank newRank : ReputationRank) (count : UInt8) :
    Moves count (recount rank oldRank newRank count) (decide (rank ≤ oldRank))
      (decide (rank ≤ newRank)) := by
  unfold Moves recount
  by_cases hold : rank ≤ oldRank <;> by_cases hnew : rank ≤ newRank <;>
    simp [hold, hnew]

/-- A counter that goes along counts. -/
theorem count_insert_of_moves {s : SortedMap ℕ FactionState} {q : FactionState → Bool}
    {count count' : UInt8} (h : count = UInt8.ofNat (s.count q))
    (hmove : Moves count count' ((s.find k).any q) (q f')) :
    count' = UInt8.ofNat ((s.insert k f').count q) := by
  have hshare : s.share q k = ((s.find k).any q).toNat := by
    unfold SortedMap.share
    cases s.find k with
    | none => rfl
    | some f => rfl
  have hcount := SortedMap.count_insert q s k f'
  rw [hshare] at hcount
  have hsum := congrArg UInt8.ofNat hcount
  rw [UInt8.ofNat_add, UInt8.ofNat_add, ← h, ← hmove] at hsum
  exact (add_right_cancel hsum).symm

/-! ### The state of a faction -/

/-- The same faction with the same standing and the same peace. -/
structure Marked (f f' : FactionState) : Prop where
  id : f'.id = f.id
  standing : f'.standing = f.standing
  peace : f'.has factionFlagPeaceForced = f.has factionFlagPeaceForced

theorem Marked.refl (f : FactionState) : Marked f f := ⟨rfl, rfl, rfl⟩

theorem Marked.trans {f'' : FactionState} (h : Marked f f') (h' : Marked f' f'') : Marked f f'' :=
  ⟨h'.id.trans h.id, h'.standing.trans h.standing, h'.peace.trans h.peace⟩

theorem Marked.reputationOf (h : Marked f f') (p : Player) :
    p.reputationOf f' = p.reputationOf f := by
  unfold Player.reputationOf
  rw [h.id, h.standing]

theorem Marked.rankOf (h : Marked f f') (p : Player) : p.rankOf f' = p.rankOf f := by
  unfold Player.rankOf
  rw [h.reputationOf]

theorem Marked.warlike_iff (h : Marked f f') (p : Player)
    (hwar : f'.has factionFlagAtWar = f.has factionFlagAtWar) : p.Warlike f' ↔ p.Warlike f := by
  unfold Player.Warlike
  rw [h.rankOf, h.peace, hwar]

theorem has_setFlags_or {flag other : UInt8} (hd : flag &&& other = 0) :
    (f.setFlags (f.flags ||| flag)).has other = f.has other := by
  unfold FactionState.has FactionState.setFlags
  rw [Flags.or_and_of_disjoint hd]

theorem has_setFlags_or_self {flag : UInt8} (hflag : flag ≠ 0) :
    (f.setFlags (f.flags ||| flag)).has flag = true := by
  unfold FactionState.has FactionState.setFlags
  rw [Flags.or_and_self]
  exact decide_eq_true hflag

theorem has_setFlags_and_not {flag other : UInt8} (hd : ~~~flag &&& other = other) :
    (f.setFlags (f.flags &&& ~~~flag)).has other = f.has other := by
  unfold FactionState.has FactionState.setFlags
  rw [Flags.and_not_and_of_disjoint hd]

theorem has_setFlags_and_not_self {flag : UInt8} :
    (f.setFlags (f.flags &&& ~~~flag)).has flag = false := by
  unfold FactionState.has FactionState.setFlags
  rw [Flags.and_not_and_self]
  rfl

theorem setVisible_marked (f : FactionState) (count : UInt8) :
    Marked f (f.setVisible count).1 ∧
      (f.setVisible count).1.has factionFlagAtWar = f.has factionFlagAtWar := by
  unfold FactionState.setVisible
  split_ifs
  · exact ⟨.refl f, rfl⟩
  · exact ⟨.refl f, rfl⟩
  · exact ⟨⟨rfl, rfl, has_setFlags_or (by decide)⟩, has_setFlags_or (by decide)⟩

theorem setVisible_moves (f : FactionState) (count : UInt8) :
    Moves count (f.setVisible count).2 (f.has factionFlagVisible)
      ((f.setVisible count).1.has factionFlagVisible) := by
  unfold FactionState.setVisible
  split_ifs with hforced hvisible
  · exact moves_self _ _
  · exact moves_self _ _
  · rw [has_setFlags_or_self (by decide), Bool.eq_false_of_not_eq_true hvisible]
    unfold Moves
    simp

theorem setAtWar_marked (f : FactionState) (atWar : Bool) :
    Marked f (f.setAtWar atWar) ∧
      (f.setAtWar atWar).has factionFlagVisible = f.has factionFlagVisible := by
  unfold FactionState.setAtWar
  split_ifs
  · exact ⟨.refl f, rfl⟩
  · exact ⟨.refl f, rfl⟩
  · exact ⟨⟨rfl, rfl, has_setFlags_or (by decide)⟩, has_setFlags_or (by decide)⟩
  · exact ⟨⟨rfl, rfl, has_setFlags_and_not (by decide)⟩, has_setFlags_and_not (by decide)⟩

/-- A faction is at war after `SetAtWar(.., true)` unless it is at peace by force. -/
theorem setAtWar_true_warlike (p : Player) (f : FactionState) : p.Warlike (f.setAtWar true) := by
  intro _ hpeace
  rw [(setAtWar_marked f true).1.peace] at hpeace
  unfold FactionState.setAtWar
  rw [if_neg (by simp [hpeace]), if_pos rfl]
  split_ifs with hwar
  · exact hwar
  · exact has_setFlags_or_self (by decide)

theorem setAtWar_false_has (f : FactionState) : (f.setAtWar false).has factionFlagAtWar = false := by
  unfold FactionState.setAtWar
  rw [if_neg (by simp)]
  by_cases hwar : f.has factionFlagAtWar = false
  · rw [if_pos hwar]
    exact hwar
  · rw [if_neg hwar]
    exact has_setFlags_and_not_self

theorem setInactive_marked (f : FactionState) (inactive : Bool) :
    Marked f (f.setInactive inactive) ∧
      (f.setInactive inactive).has factionFlagVisible = f.has factionFlagVisible ∧
        (f.setInactive inactive).has factionFlagAtWar = f.has factionFlagAtWar := by
  unfold FactionState.setInactive
  split_ifs
  · exact ⟨.refl f, rfl, rfl⟩
  · exact ⟨.refl f, rfl, rfl⟩
  · exact ⟨⟨rfl, rfl, has_setFlags_or (by decide)⟩, has_setFlags_or (by decide),
      has_setFlags_or (by decide)⟩
  · exact ⟨⟨rfl, rfl, has_setFlags_and_not (by decide)⟩, has_setFlags_and_not (by decide),
      has_setFlags_and_not (by decide)⟩

theorem loadVisible_marked (f : FactionState) (flags visible : UInt8) :
    Marked f (loadVisible f flags visible).1 ∧
      Moves visible (loadVisible f flags visible).2 (f.has factionFlagVisible)
        ((loadVisible f flags visible).1.has factionFlagVisible) := by
  unfold loadVisible
  split_ifs
  · exact ⟨(setVisible_marked f visible).1, setVisible_moves f visible⟩
  · exact ⟨.refl f, moves_self _ _⟩

theorem loadInactive_marked (f : FactionState) (flags : UInt8) :
    Marked f (loadInactive f flags) ∧
      (loadInactive f flags).has factionFlagVisible = f.has factionFlagVisible := by
  unfold loadInactive
  split_ifs
  · exact ⟨(setInactive_marked f true).1, (setInactive_marked f true).2.1⟩
  · exact ⟨.refl f, rfl⟩

theorem loadAtWar_marked (f : FactionState) (flags : UInt8) :
    Marked f (loadAtWar f flags) ∧
      (loadAtWar f flags).has factionFlagVisible = f.has factionFlagVisible := by
  unfold loadAtWar
  split_ifs
  · exact setAtWar_marked f true
  · exact setAtWar_marked f false
  · exact ⟨.refl f, rfl⟩

theorem loadFlags_marked (f : FactionState) (flags visible : UInt8) :
    Marked f (loadFlags f flags visible).1 ∧
      Moves visible (loadFlags f flags visible).2 (f.has factionFlagVisible)
        ((loadFlags f flags visible).1.has factionFlagVisible) := by
  obtain ⟨hm, hmoves⟩ := loadVisible_marked f flags visible
  obtain ⟨hm', hsame'⟩ := loadInactive_marked (loadVisible f flags visible).1 flags
  obtain ⟨hm'', hsame''⟩ := loadAtWar_marked (loadInactive (loadVisible f flags visible).1 flags) flags
  refine ⟨(hm.trans hm').trans hm'', ?_⟩
  rw [loadFlags, hsame'', hsame']
  exact hmoves

/-! ### The states of the manager -/

/-- The states are of factions of the table, at their places; the counters count them. -/
structure Kept (p : Player) (m : ReputationMgr) : Prop where
  listed : ∀ k f, m.factions.find k = some f → ∃ e,
    p.factions.lookupEntry f.id.toNat = some e ∧ e.canHaveReputation = true ∧ e.repListID = k
  visible : m.visibleFactionCount = UInt8.ofNat (m.factions.count (·.has factionFlagVisible))
  honored : m.honoredFactionCount =
    UInt8.ofNat (m.factions.count fun f => decide (.honored ≤ p.rankOf f))
  revered : m.reveredFactionCount =
    UInt8.ofNat (m.factions.count fun f => decide (.revered ≤ p.rankOf f))
  exalted : m.exaltedFactionCount =
    UInt8.ofNat (m.factions.count fun f => decide (.exalted ≤ p.rankOf f))

theorem kept_new (p : Player) : Kept p ReputationMgr.new where
  listed := nofun
  visible := rfl
  honored := rfl
  revered := rfl
  exalted := rfl

theorem Kept.insert {g : FactionState} (h : Kept p m)
    (hfactions : m'.factions = m.factions.insert k g)
    (hlisted : ∃ e, p.factions.lookupEntry g.id.toNat = some e ∧ e.canHaveReputation = true ∧
      e.repListID = k)
    (hvisible : Moves m.visibleFactionCount m'.visibleFactionCount
      ((m.factions.find k).any (·.has factionFlagVisible)) (g.has factionFlagVisible))
    (hhonored : Moves m.honoredFactionCount m'.honoredFactionCount
      ((m.factions.find k).any fun f => decide (.honored ≤ p.rankOf f))
      (decide (.honored ≤ p.rankOf g)))
    (hrevered : Moves m.reveredFactionCount m'.reveredFactionCount
      ((m.factions.find k).any fun f => decide (.revered ≤ p.rankOf f))
      (decide (.revered ≤ p.rankOf g)))
    (hexalted : Moves m.exaltedFactionCount m'.exaltedFactionCount
      ((m.factions.find k).any fun f => decide (.exalted ≤ p.rankOf f))
      (decide (.exalted ≤ p.rankOf g))) : Kept p m' where
  listed := by
    intro k' f hf
    rw [hfactions, SortedMap.find_insert] at hf
    split_ifs at hf with hk
    · obtain rfl := Option.some.inj hf
      obtain ⟨e, he, hcan, hid⟩ := hlisted
      exact ⟨e, he, hcan, hid.trans hk.symm⟩
    · exact h.listed k' f hf
  visible := hfactions ▸ count_insert_of_moves h.visible hvisible
  honored := hfactions ▸ count_insert_of_moves h.honored hhonored
  revered := hfactions ▸ count_insert_of_moves h.revered hrevered
  exalted := hfactions ▸ count_insert_of_moves h.exalted hexalted

theorem Kept.update {g : FactionState} (h : Kept p m) (hf : m.factions.find k = some f)
    (hid : g.id = f.id)
    (hfactions : m'.factions = m.factions.insert k g)
    (hvisible : Moves m.visibleFactionCount m'.visibleFactionCount
      (f.has factionFlagVisible) (g.has factionFlagVisible))
    (hhonored : m'.honoredFactionCount =
      recount .honored (p.rankOf f) (p.rankOf g) m.honoredFactionCount)
    (hrevered : m'.reveredFactionCount =
      recount .revered (p.rankOf f) (p.rankOf g) m.reveredFactionCount)
    (hexalted : m'.exaltedFactionCount =
      recount .exalted (p.rankOf f) (p.rankOf g) m.exaltedFactionCount) : Kept p m' := by
  refine h.insert hfactions (hid ▸ h.listed k f hf) ?_ ?_ ?_ ?_
  · rw [hf]
    exact hvisible
  · rw [hf, hhonored]
    exact moves_recount _ _ _ _
  · rw [hf, hrevered]
    exact moves_recount _ _ _ _
  · rw [hf, hexalted]
    exact moves_recount _ _ _ _

theorem Kept.put (h : Kept p m) (hf : m.factions.find k = some f) (hmarked : Marked f f')
    {visible : UInt8} (hvisible : Moves m.visibleFactionCount visible
      (f.has factionFlagVisible) (f'.has factionFlagVisible)) : Kept p (m.put k f' visible) := by
  refine h.insert (k := k) (g := f') rfl (hmarked.id ▸ h.listed k f hf) ?_ ?_ ?_ ?_
  · rw [hf]
    exact hvisible
  · rw [hf, hmarked.rankOf]
    exact moves_self _ _
  · rw [hf, hmarked.rankOf]
    exact moves_self _ _
  · rw [hf, hmarked.rankOf]
    exact moves_self _ _

theorem mem_rows_of_lookupEntry {i : ℕ} (h : p.factions.lookupEntry i = some e) :
    p.factions.rows[i]? = some (some e) := by
  rwa [FactionStore.lookupEntry, Option.join_eq_some_iff] at h

theorem id_of_lookupEntry {i : ℕ} (h : p.factions.lookupEntry i = some e) : e.id.toNat = i :=
  p.factions.ids i e (mem_rows_of_lookupEntry h)

/-- No more states are counted than there are factions with a place in the list. -/
theorem Kept.count_lt (h : Kept p m) (hreg : Regular p) (q : FactionState → Bool) :
    m.factions.count q < 256 := by
  have hsub : m.factions.entries.map Prod.fst ⊆
      (p.factions.rows.filterMap fun r => r.filter FactionEntry.canHaveReputation).map
        FactionEntry.repListID := by
    intro k hk
    obtain ⟨entry, hentry, rfl⟩ := List.mem_map.1 hk
    obtain ⟨e, he, hcan, hid⟩ := h.listed _ _ (SortedMap.find_of_mem hentry)
    refine List.mem_map.2 ⟨e, List.mem_filterMap.2 ⟨some e, ?_, ?_⟩, hid⟩
    · exact List.mem_of_getElem? (mem_rows_of_lookupEntry he)
    · rw [Option.filter_some, if_pos hcan]
  have hlength := (m.factions.nodup_keys.subperm hsub).length_le
  rw [List.length_map, List.length_map, List.length_filterMap_eq_countP] at hlength
  have hsome : ∀ r : Option FactionEntry,
      (r.filter FactionEntry.canHaveReputation).isSome = r.any FactionEntry.canHaveReputation := by
    rintro (- | e)
    · rfl
    · rw [Option.isSome_filter]
  simp only [hsome] at hlength
  calc m.factions.count q ≤ m.factions.entries.length := List.countP_le_length
    _ ≤ _ := hlength
    _ < 256 := hreg.few

theorem repListID_inj {e e' : FactionEntry} (h : e.repListID = e'.repListID) :
    e.reputationListID = e'.reputationListID := by
  have hlist := congrArg UInt32.toInt32 (UInt32.toNat_inj.1 h)
  rwa [Int32.toInt32_toUInt32, Int32.toInt32_toUInt32] at hlist

theorem Kept.of_find (h : Kept p m) (hreg : Regular p) {i : ℕ}
    (he : p.factions.lookupEntry i = some e) (hf : m.factions.find e.repListID = some f) :
    p.factions.lookupEntry f.id.toNat = some e ∧ e.canHaveReputation = true := by
  obtain ⟨e', he', hcan, hid⟩ := h.listed _ f hf
  obtain rfl := hreg.distinct f.id.toNat i e' e he' he hcan (repListID_inj hid)
  obtain rfl := Option.some.inj (he'.symm.trans he)
  exact ⟨he', hcan⟩

/-- Soundness, without the counters. -/
theorem sound_iff (hreg : Regular p) {s : Session} (h : Kept p s.mgr) :
    Sound p s ↔ (∀ k ∈ s.changed, ∀ f, s.mgr.factions.find k = some f →
        reputationBottom ≤ p.reputationOf f ∧ p.reputationOf f ≤ reputationCap) ∧
      ∀ k f, s.mgr.factions.find k = some f → p.Warlike f := by
  have hcount : ∀ q : FactionState → Bool,
      (UInt8.ofNat (s.mgr.factions.count q)).toNat = s.mgr.factions.count q :=
    fun q => UInt8.toNat_ofNat_of_lt (h.count_lt hreg q)
  constructor
  · exact fun hs => ⟨hs.inRange, hs.atWar⟩
  · rintro ⟨hrange, hwar⟩
    exact ⟨hrange, h.visible ▸ hcount _, h.honored ▸ hcount _, h.revered ▸ hcount _,
      h.exalted ▸ hcount _, hwar⟩

/-! ### Login -/

/-- What the loop of `Initialize` has made of some rows. -/
structure Initialized (p : Player) (rows : List (Option FactionEntry)) (m : ReputationMgr) :
    Prop where
  kept : Kept p m
  all : ∀ e, some e ∈ rows → e.canHaveReputation = true →
    m.factions.find e.repListID = some (newFaction p e)
  only : ∀ k f, m.factions.find k = some f → ∃ e, some e ∈ rows ∧ e.canHaveReputation = true ∧
    e.repListID = k

theorem rankOf_newFaction (he : p.factions.lookupEntry e.id.toNat = some e) :
    p.rankOf (newFaction p e) = getBaseRank p (some e) := by
  unfold Player.rankOf Player.reputationOf newFaction getBaseRank
  dsimp only
  rw [he, Int32.add_zero]

theorem Initialized.step {rows : List (Option FactionEntry)} {row : Option FactionEntry}
    (h : Initialized p rows m)
    (hrow : ∀ e, row = some e → p.factions.lookupEntry e.id.toNat = some e)
    (hnew : ∀ e e', some e ∈ rows → row = some e' → e.canHaveReputation = true →
      e.reputationListID ≠ e'.reputationListID) :
    Initialized p (rows ++ [row]) (initializeFaction p m row) := by
  cases row with
  | none =>
    refine ⟨h.kept, fun e he => ?_, fun k f hf => ?_⟩
    · exact h.all e (by simpa using he)
    · obtain ⟨e, he, hcan⟩ := h.only k f hf
      exact ⟨e, List.mem_append_left _ he, hcan⟩
  | some e =>
    have he := hrow e rfl
    rw [initializeFaction]
    by_cases hcan : e.canHaveReputation = true
    · have hnone : m.factions.find e.repListID = none := by
        refine Option.eq_none_iff_forall_ne_some.2 fun f hf => ?_
        obtain ⟨e', he', hcan', hid⟩ := h.only _ f hf
        exact hnew e' e he' rfl hcan' (repListID_inj hid)
      rw [if_pos hcan]
      refine ⟨?_, fun e' he' hcan' => ?_, fun k f hf => ?_⟩
      · refine h.kept.insert rfl ⟨e, he, hcan, rfl⟩ ?_ ?_ ?_ ?_
        · rw [hnone]
          change Moves _ (if (newFaction p e).has factionFlagVisible then _ else _) _ _
          cases (newFaction p e).has factionFlagVisible <;> simp [Moves]
        · rw [hnone, rankOf_newFaction he]
          exact moves_recount .honored .hostile _ _
        · rw [hnone, rankOf_newFaction he]
          exact moves_recount .revered .hostile _ _
        · rw [hnone, rankOf_newFaction he]
          exact moves_recount .exalted .hostile _ _
      · change (m.factions.insert e.repListID (newFaction p e)).find e'.repListID = _
        rcases List.mem_append.1 he' with he' | he'
        · rw [SortedMap.find_insert_ne fun hid => hnew e' e he' rfl hcan' (repListID_inj hid)]
          exact h.all e' he' hcan'
        · obtain rfl : e' = e := by simpa using he'
          exact SortedMap.find_insert_self
      · change (m.factions.insert e.repListID (newFaction p e)).find k = some f at hf
        rw [SortedMap.find_insert] at hf
        split_ifs at hf with hk
        · exact ⟨e, by simp, hcan, hk.symm⟩
        · obtain ⟨e', he', hcan'⟩ := h.only k f hf
          exact ⟨e', List.mem_append_left _ he', hcan'⟩
    · rw [if_neg hcan]
      refine ⟨h.kept, fun e' he' hcan' => ?_, fun k f hf => ?_⟩
      · rcases List.mem_append.1 he' with he' | he'
        · exact h.all e' he' hcan'
        · obtain rfl : e' = e := by simpa using he'
          exact absurd hcan' hcan
      · obtain ⟨e', he', hcan'⟩ := h.only k f hf
        exact ⟨e', List.mem_append_left _ he', hcan'⟩

theorem initialized_foldl {rows : List (Option FactionEntry)}
    (hrows : ∀ e, some e ∈ rows → p.factions.lookupEntry e.id.toNat = some e)
    (hdistinct : rows.Pairwise fun a b => ∀ e e', a = some e → b = some e' →
      e.canHaveReputation = true → e.reputationListID ≠ e'.reputationListID) :
    Initialized p rows (rows.foldl (initializeFaction p) ReputationMgr.new) := by
  induction rows using List.reverseRecOn with
  | nil => exact ⟨kept_new p, nofun, nofun⟩
  | append_singleton rows row ih =>
    obtain ⟨hpre, -, hlast⟩ := List.pairwise_append.1 hdistinct
    have hinit := ih (fun e he => hrows e (List.mem_append_left _ he)) hpre
    rw [List.foldl_append, List.foldl_cons, List.foldl_nil]
    refine hinit.step (fun e he => hrows e ?_) fun e e' he he' hcan => ?_
    · rw [← he]
      simp
    · exact hlast (some e) he row List.mem_cons_self e e' rfl he' hcan

theorem lookupEntry_of_mem {rows : List (Option FactionEntry)} (hrows : rows <:+ p.factions.rows)
    (he : some e ∈ rows) : p.factions.lookupEntry e.id.toNat = some e := by
  obtain ⟨i, hi⟩ := List.mem_iff_getElem?.1 (hrows.subset he)
  rw [p.factions.ids i e hi, FactionStore.lookupEntry, hi]
  rfl

theorem pairwise_rows (hreg : Regular p) :
    p.factions.rows.Pairwise fun a b => ∀ e e', a = some e → b = some e' →
      e.canHaveReputation = true → e.reputationListID ≠ e'.reputationListID := by
  refine List.pairwise_iff_getElem.2 fun i j hi hj hij e e' he he' hcan hlist => ?_
  have hlookup : ∀ (n : ℕ) (hn : n < p.factions.rows.length) (a : FactionEntry),
      p.factions.rows[n] = some a → p.factions.lookupEntry n = some a := by
    intro n hn a ha
    rw [FactionStore.lookupEntry, List.getElem?_eq_getElem hn, ha]
    rfl
  exact hij.ne (hreg.distinct i j e e' (hlookup i hi e he) (hlookup j hj e' he') hcan hlist)

/-- The factions of the table are there with the states that rows of some factions made of them. -/
structure Loaded (p : Player) (read : List ℕ) (m : ReputationMgr) : Prop where
  kept : Kept p m
  all : ∀ i e, p.factions.lookupEntry i = some e → e.canHaveReputation = true →
    ∃ f, m.factions.find e.repListID = some f ∧
      (i ∈ read → p.Warlike f) ∧ (i ∉ read → f = newFaction p e)

theorem loaded_initializeAll (hreg : Regular p) : Loaded p [] (initializeAll p) := by
  have hinit : Initialized p p.factions.rows.tail (initializeAll p) :=
    initialized_foldl (fun e he => lookupEntry_of_mem (List.tail_suffix _) he)
      ((pairwise_rows hreg).sublist (List.tail_sublist _))
  refine ⟨hinit.kept, fun i e he hcan => ?_⟩
  refine ⟨newFaction p e, hinit.all e ?_ hcan, nofun, fun _ => rfl⟩
  cases i with
  | zero =>
    rw [hreg.fromOne e he] at hcan
    cases hcan
  | succ i =>
    refine List.mem_of_getElem? (i := i) ?_
    rw [List.getElem?_tail]
    exact mem_rows_of_lookupEntry he

/-- A row of a faction that was not read yet: the faction is at war if it has to be. -/
theorem Loaded.step (hreg : Regular p) {read : List ℕ} (h : Loaded p read m) {row : ReputationRow}
    (hnew : row.faction.toNat ∉ read) :
    Loaded p (row.faction.toNat :: read) (loadRow p m row) := by
  -- where there is no such faction with a place in the list, nothing is to be shown of it
  have hskip : (∀ e, p.factions.lookupEntry row.faction.toNat = some e →
      e.canHaveReputation = false) → Loaded p (row.faction.toNat :: read) m := by
    intro hcannot
    refine ⟨h.kept, fun i e he hcan => ?_⟩
    have hi : i ≠ row.faction.toNat := by
      rintro rfl
      rw [hcannot e he] at hcan
      cases hcan
    obtain ⟨f, hf, hread, hnot⟩ := h.all i e he hcan
    refine ⟨f, hf, fun hmem => hread ?_,
      fun hmem => hnot fun hi' => hmem (List.mem_cons_of_mem _ hi')⟩
    exact (List.mem_cons.1 hmem).resolve_left hi
  rw [loadRow]
  cases he : p.factions.lookupEntry row.faction.toNat with
  | none => exact hskip fun e he' => by simp [he] at he'
  | some e =>
    dsimp only
    by_cases hcan : e.canHaveReputation = true
    · obtain ⟨f₀, hf₀, -, hnot⟩ := h.all _ e he hcan
      obtain rfl := hnot hnew
      have hid := id_of_lookupEntry he
      rw [if_pos hcan, hf₀, Option.getD_some]
      -- the state with the standing of the row, before and after its flags
      have hrank : p.rankOf { newFaction p e with standing := row.standing } =
          reputationToRank (p.getBaseReputation (some e) + row.standing) := by
        unfold Player.rankOf Player.reputationOf newFaction
        rw [hid, he]
      have hbase : p.rankOf (newFaction p e) =
          reputationToRank (p.getBaseReputation (some e)) :=
        rankOf_newFaction (hid.symm ▸ he)
      obtain ⟨hmarked, hmoves⟩ := loadFlags_marked { newFaction p e with standing := row.standing }
        row.flags.toUInt8 m.visibleFactionCount
      set r := loadFlags { newFaction p e with standing := row.standing } row.flags.toUInt8
        m.visibleFactionCount with hr
      set m₁ := (m.updateRankCounters (reputationToRank (p.getBaseReputation (some e)))
        (reputationToRank (p.getBaseReputation (some e) + row.standing))).put e.repListID r.1 r.2
        with hm₁
      have hkept₁ : Kept p m₁ := by
        refine h.kept.update hf₀ (g := r.1) hmarked.id rfl hmoves ?_ ?_ ?_
        · rw [hmarked.rankOf, hrank, hbase]
          rfl
        · rw [hmarked.rankOf, hrank, hbase]
          rfl
        · rw [hmarked.rankOf, hrank, hbase]
          rfl
      have hf₁ : m₁.factions.find e.repListID = some r.1 := SortedMap.find_insert_self
      have hgetRank : m₁.getRank p (some e) = p.rankOf r.1 := by
        rw [hmarked.rankOf, hrank, ReputationMgr.getRank, ReputationMgr.getReputation,
          ReputationMgr.getState, if_pos hcan, hf₁]
        dsimp only
        rw [hmarked.standing]
      -- the war with a hostile faction, and what is to be sent and saved
      set f₂ := if m₁.getRank p (some e) ≤ .hostile then r.1.setAtWar true else r.1 with hf₂
      have hmarked₂ : Marked r.1 f₂ ∧ f₂.has factionFlagVisible = r.1.has factionFlagVisible ∧
          p.Warlike f₂ := by
        rw [hf₂, hgetRank]
        split_ifs with hhostile
        · exact ⟨(setAtWar_marked _ _).1, (setAtWar_marked _ _).2, setAtWar_true_warlike p _⟩
        · exact ⟨.refl _, rfl, fun h => absurd h hhostile⟩
      obtain ⟨hsame₂, hvisible₂, hwar₂⟩ := hmarked₂
      set f₃ := if f₂.flags.toUInt32 = row.flags.toUInt32 then
        { f₂ with needSend := false, needSave := false } else f₂ with hf₃
      have hfields : f₃.id = f₂.id ∧ f₃.standing = f₂.standing ∧ f₃.flags = f₂.flags := by
        rw [hf₃]
        split_ifs
        · exact ⟨rfl, rfl, rfl⟩
        · exact ⟨rfl, rfl, rfl⟩
      have hhas : ∀ flag, f₃.has flag = f₂.has flag := fun flag => by
        unfold FactionState.has
        rw [hfields.2.2]
      have hmarked₃ : Marked f₂ f₃ := ⟨hfields.1, hfields.2.1, hhas _⟩
      change Loaded p _ (m₁.put e.repListID f₃ r.2)
      refine ⟨hkept₁.put hf₁ (hsame₂.trans hmarked₃) ?_, fun i e' he' hcan' => ?_⟩
      · rw [hhas, hvisible₂]
        exact moves_self _ _
      · change ∃ f, (m₁.factions.insert e.repListID f₃).find e'.repListID = some f ∧ _
        by_cases hi : i = row.faction.toNat
        · subst hi
          obtain rfl := Option.some.inj (he.symm.trans he')
          refine ⟨f₃, SortedMap.find_insert_self, fun _ => ?_, fun hnot => ?_⟩
          · exact (hmarked₃.warlike_iff p (hhas _)).2 hwar₂
          · exact absurd List.mem_cons_self hnot
        · have hne : e'.repListID ≠ e.repListID := fun heq =>
            hi (hreg.distinct i _ e' e he' he hcan' (repListID_inj heq))
          obtain ⟨f, hf, hread, hnot⟩ := h.all i e' he' hcan'
          have hfind : (m₁.factions.insert e.repListID f₃).find e'.repListID = some f := by
            rw [SortedMap.find_insert_ne hne]
            exact (SortedMap.find_insert_ne hne).trans hf
          exact ⟨f, hfind, fun hmem => hread ((List.mem_cons.1 hmem).resolve_left hi),
            fun hmem => hnot fun hmem' => hmem (List.mem_cons_of_mem _ hmem')⟩
    · rw [if_neg hcan]
      refine hskip fun e' he' => ?_
      obtain rfl := Option.some.inj (he.symm.trans he')
      exact Bool.eq_false_of_not_eq_true hcan

theorem Loaded.foldl (hreg : Regular p) {read : List ℕ} {rows : List ReputationRow}
    (h : Loaded p read m) (hnew : ∀ row ∈ rows, row.faction.toNat ∉ read)
    (hkeys : (rows.map (·.faction)).Nodup) :
    Loaded p ((rows.map (·.faction.toNat)).reverse ++ read) (rows.foldl (loadRow p) m) := by
  induction rows generalizing read m with
  | nil => exact h
  | cons row rows ih =>
    obtain ⟨hrow, hkeys⟩ := List.nodup_cons.1 hkeys
    have hnext := ih (h.step hreg (hnew row List.mem_cons_self)) (fun row' hrow' hmem => ?_) hkeys
    · simpa using hnext
    · rcases List.mem_cons.1 hmem with heq | hmem
      · exact hrow (List.mem_map.2 ⟨row', hrow', UInt16.toNat_inj.1 heq⟩)
      · exact hnew row' (List.mem_cons_of_mem _ hrow') hmem

theorem loaded_loadFromDB (hreg : Regular p) (result : Option Rows) :
    ∃ read, Loaded p read (loadFromDB p (result.map Rows.rows)) ∧
      ∀ i, i ∉ read ↔ ∀ rows, result = some rows → ∀ row ∈ rows.rows, row.faction.toNat ≠ i := by
  cases result with
  | none => exact ⟨[], loaded_initializeAll hreg, fun i => by simp⟩
  | some rows =>
    refine ⟨_, (loaded_initializeAll hreg).foldl hreg (fun _ _ => by simp) rows.keys, fun i => ?_⟩
    simp

/-- After a login a session is sound exactly if the factions without a row are at war by default where
they have to be. -/
theorem sound_loadFromDB_iff (hreg : Regular p) (s : Session) (result : Option Rows) :
    Kept p (step p s (.loadFromDB result)).mgr ∧
      (Sound p (step p s (.loadFromDB result)) ↔ Keeps p s (.loadFromDB result)) := by
  obtain ⟨read, hloaded, hread⟩ := loaded_loadFromDB hreg result
  have hkept : Kept p (step p s (.loadFromDB result)).mgr := hloaded.kept
  refine ⟨hkept, ?_⟩
  rw [sound_iff hreg hkept]
  constructor
  · rintro ⟨-, hwar⟩ i e he hcan hnone
    obtain ⟨f, hf, -, hnot⟩ := hloaded.all i e he hcan
    obtain rfl := hnot ((hread i).2 hnone)
    exact hwar _ _ hf
  · intro hdefault
    refine ⟨nofun, fun k f hf => ?_⟩
    obtain ⟨e, he, hcan, rfl⟩ := hkept.listed k f hf
    obtain ⟨f', hf', hyes, hnot⟩ := hloaded.all _ e he hcan
    obtain rfl := Option.some.inj (hf.symm.trans hf')
    by_cases hmem : f.id.toNat ∈ read
    · exact hyes hmem
    · rw [hnot hmem]
      exact hdefault _ e he hcan ((hread _).1 hmem)

/-! ### Changes -/

/-- A state is written in a sound session: only the war of this faction is to be looked at. -/
theorem sound_insert_iff {g : FactionState} (hreg : Regular p) {s s' : Session} (hs : Sound p s)
    (hkept : Kept p s'.mgr) (hfactions : s'.mgr.factions = s.mgr.factions.insert k g)
    (hchanged : ∀ k' ∈ s'.changed, k' = k ∨ k' ∈ s.changed)
    (hrange : k ∈ s'.changed →
      reputationBottom ≤ p.reputationOf g ∧ p.reputationOf g ≤ reputationCap) :
    Sound p s' ↔ p.Warlike g := by
  rw [sound_iff hreg hkept, hfactions]
  constructor
  · exact fun h => h.2 k g SortedMap.find_insert_self
  · refine fun hwar => ⟨fun k' hk' f hf => ?_, fun k' f hf => ?_⟩
    · rw [SortedMap.find_insert] at hf
      split_ifs at hf with hk
      · obtain rfl := Option.some.inj hf
        exact hrange (hk ▸ hk')
      · exact hs.inRange k' ((hchanged k' hk').resolve_left hk) f hf
    · rw [SortedMap.find_insert] at hf
      split_ifs at hf with hk
      · obtain rfl := Option.some.inj hf
        exact hwar
      · exact hs.atWar k' f hf

/-- A state is written that has the same standing and the same war. -/
theorem sound_put (hreg : Regular p) {s : Session} (hs : Sound p s) (hkept : Kept p s.mgr)
    (hf : s.mgr.factions.find k = some f) (hmarked : Marked f f')
    (hwar : f'.has factionFlagAtWar = f.has factionFlagAtWar) {visible : UInt8}
    (hvisible : Moves s.mgr.visibleFactionCount visible (f.has factionFlagVisible)
      (f'.has factionFlagVisible)) :
    Kept p (s.mgr.put k f' visible) ∧ Sound p { s with mgr := s.mgr.put k f' visible } := by
  have hnext := hkept.put hf hmarked hvisible
  have hrange : k ∈ s.changed →
      reputationBottom ≤ p.reputationOf f' ∧ p.reputationOf f' ≤ reputationCap := by
    intro hk
    rw [hmarked.reputationOf]
    exact hs.inRange k hk f hf
  have hiff : Sound p { s with mgr := s.mgr.put k f' visible } ↔ p.Warlike f' :=
    sound_insert_iff hreg hs hnext rfl (fun _ => .inr) hrange
  exact ⟨hnext, hiff.2 ((hmarked.warlike_iff p hwar).2 (hs.atWar k f hf))⟩

/-- What `SetOneFactionReputation` gives is in the range. -/
theorem newReputation_mem (p : Player) (reputation standing : Int32) (incremental : Bool) :
    reputationBottom ≤ newReputation p reputation standing incremental ∧
      newReputation p reputation standing incremental ≤ reputationCap := by
  unfold newReputation
  dsimp only
  split_ifs with hinc hcap hbottom hcap hbottom
  · exact ⟨by decide, Int32.le_refl _⟩
  · exact ⟨Int32.le_refl _, by decide⟩
  · exact ⟨Int32.not_lt.1 hbottom, Int32.not_lt.1 hcap⟩
  · exact ⟨by decide, Int32.le_refl _⟩
  · exact ⟨Int32.le_refl _, by decide⟩
  · exact ⟨Int32.not_lt.1 hbottom, Int32.not_lt.1 hcap⟩

theorem setOneFactionReputation_sound (hreg : Regular p) {s : Session} (hs : Sound p s)
    (hkept : Kept p s.mgr) {i : ℕ} (he : p.factions.lookupEntry i = some e) (standing : Int32)
    (incremental : Bool) :
    Kept p (s.mgr.setOneFactionReputation p e standing incremental) ∧
      Sound p ⟨s.mgr.setOneFactionReputation p e standing incremental, e.repListID :: s.changed⟩ := by
  unfold setOneFactionReputation
  cases hf : s.mgr.factions.find e.repListID with
  | none =>
    dsimp only
    have hsame : Kept p (Session.mk s.mgr (e.repListID :: s.changed)).mgr := hkept
    refine ⟨hkept, (sound_iff hreg hsame).2 ⟨fun k hk f hfk => ?_, hs.atWar⟩⟩
    rcases List.mem_cons.1 hk with rfl | hk
    · rw [hf] at hfk
      cases hfk
    · exact hs.inRange k hk f hfk
  | some f =>
    dsimp only
    obtain ⟨hlookup, -⟩ := hkept.of_find hreg he hf
    have hbefore : p.reputationOf f = f.standing + p.getBaseReputation (some e) := by
      unfold Player.reputationOf
      rw [hlookup, Int32.add_comm]
    rw [← hbefore]
    set reputation := newReputation p (p.reputationOf f) standing incremental with hreputation
    set f₁ : FactionState := { f with
      standing := reputation - p.getBaseReputation (some e), needSend := true, needSave := true }
      with hf₁
    have hafter : p.reputationOf f₁ = reputation := by
      unfold Player.reputationOf
      rw [hf₁]
      dsimp only
      rw [hlookup, Int32.add_comm, Int32.sub_add_cancel]
    have hmarked₂ := setVisible_marked f₁ s.mgr.visibleFactionCount
    have hmoves := setVisible_moves f₁ s.mgr.visibleFactionCount
    set f₂ := (f₁.setVisible s.mgr.visibleFactionCount).1
    -- a faction that is hostile now is at war now
    set f₃ := if reputationToRank reputation ≤ .hostile then f₂.setAtWar true else f₂ with hf₃
    have hmarked₃ : Marked f₂ f₃ ∧ f₃.has factionFlagVisible = f₂.has factionFlagVisible := by
      rw [hf₃]
      split_ifs
      · exact setAtWar_marked f₂ true
      · exact ⟨.refl _, rfl⟩
    have hmarked := hmarked₂.1.trans hmarked₃.1
    have hrank : p.rankOf f₃ = reputationToRank reputation := by
      rw [hmarked.rankOf]
      unfold Player.rankOf
      rw [hafter]
    have hnext : Kept p (((if reputationToRank reputation > reputationToRank (p.reputationOf f) then
        { s.mgr with sendFactionIncreased := true } else s.mgr).put e.repListID f₃
          (f₁.setVisible s.mgr.visibleFactionCount).2).updateRankCounters
            (reputationToRank (p.reputationOf f)) (reputationToRank reputation)) := by
      refine hkept.update (g := f₃) hf hmarked.id ?_ ?_ ?_ ?_ ?_
      · split_ifs <;> rfl
      · rw [hmarked₃.2]
        exact hmoves
      · rw [hrank]
        split_ifs <;> rfl
      · rw [hrank]
        split_ifs <;> rfl
      · rw [hrank]
        split_ifs <;> rfl
    refine ⟨hnext, (sound_insert_iff hreg hs hnext (k := e.repListID) (g := f₃) ?_ ?_ ?_).2 ?_⟩
    · split_ifs <;> rfl
    · exact fun k hk => List.mem_cons.1 hk
    · intro _
      rw [hmarked.reputationOf, hafter]
      exact newReputation_mem p _ _ _
    · intro hhostile
      rw [hrank] at hhostile
      rw [hf₃, if_pos hhostile]
      refine setAtWar_true_warlike p f₂ ?_
      rw [(setAtWar_marked f₂ true).1.rankOf, hmarked₂.1.rankOf]
      unfold Player.rankOf
      rwa [hafter]

theorem setVisible_sound (hreg : Regular p) {s : Session} (hs : Sound p s) (hkept : Kept p s.mgr)
    (e : FactionEntry) :
    Kept p (s.mgr.setVisible e) ∧ Sound p { s with mgr := s.mgr.setVisible e } := by
  unfold ReputationMgr.setVisible
  split_ifs
  · exact ⟨hkept, hs⟩
  · cases hf : s.mgr.factions.find e.repListID with
    | none => exact ⟨hkept, hs⟩
    | some f =>
      obtain ⟨hmarked, hwar⟩ := setVisible_marked f s.mgr.visibleFactionCount
      exact sound_put hreg hs hkept hf hmarked hwar (setVisible_moves f _)

theorem setVisibleTemplate_sound (hreg : Regular p) {s : Session} (hs : Sound p s)
    (hkept : Kept p s.mgr) (faction : UInt32) :
    Kept p (s.mgr.setVisibleTemplate p faction) ∧
      Sound p { s with mgr := s.mgr.setVisibleTemplate p faction } := by
  unfold ReputationMgr.setVisibleTemplate
  split_ifs
  · exact ⟨hkept, hs⟩
  · cases p.factions.lookupEntry faction.toNat with
    | none => exact ⟨hkept, hs⟩
    | some e =>
      dsimp only
      split_ifs
      · exact ⟨hkept, hs⟩
      · exact setVisible_sound hreg hs hkept e

theorem setInactive_sound (hreg : Regular p) {s : Session} (hs : Sound p s) (hkept : Kept p s.mgr)
    (repListID : ℕ) (on : Bool) :
    Kept p (s.mgr.setInactive repListID on) ∧
      Sound p { s with mgr := s.mgr.setInactive repListID on } := by
  unfold ReputationMgr.setInactive
  cases hf : s.mgr.factions.find repListID with
  | none => exact ⟨hkept, hs⟩
  | some f =>
    obtain ⟨hmarked, hvisible, hwar⟩ := setInactive_marked f on
    refine sound_put hreg hs hkept hf hmarked hwar ?_
    rw [hvisible]
    exact moves_self _ _

/-- A request of a client about a war keeps a session sound exactly if it does not end the war with a
faction that is hostile or worse. -/
theorem sound_setAtWar_iff (hreg : Regular p) {s : Session} (hs : Sound p s) (hkept : Kept p s.mgr)
    (repListID : UInt32) (on : Bool) :
    Kept p (s.mgr.setAtWar repListID.toNat on) ∧
      (Sound p { s with mgr := s.mgr.setAtWar repListID.toNat on } ↔
        Keeps p s (.setAtWar repListID on)) := by
  unfold ReputationMgr.setAtWar
  simp only [Keeps]
  cases hf : s.mgr.factions.find repListID.toNat with
  | none => exact ⟨hkept, iff_of_true hs fun _ _ h => by cases h⟩
  | some f =>
    dsimp only
    split_ifs with hfixed
    · refine ⟨hkept, iff_of_true hs fun _ f' hf' hfree => ?_⟩
      obtain rfl := Option.some.inj hf'
      rw [hfixed] at hfree
      cases hfree
    · obtain ⟨hmarked, hvisible⟩ := setAtWar_marked f on
      have hnext : Kept p (s.mgr.put repListID.toNat (f.setAtWar on) s.mgr.visibleFactionCount) := by
        refine hkept.put hf hmarked ?_
        rw [hvisible]
        exact moves_self _ _
      refine ⟨hnext, ?_⟩
      have hiff : Sound p { s with
          mgr := s.mgr.put repListID.toNat (f.setAtWar on) s.mgr.visibleFactionCount } ↔
            p.Warlike (f.setAtWar on) :=
        sound_insert_iff hreg hs hnext rfl (fun _ => .inr)
          fun hk => hmarked.reputationOf p ▸ hs.inRange _ hk f hf
      rw [hiff]
      cases on with
      | true => exact iff_of_true (setAtWar_true_warlike p f) nofun
      | false =>
        constructor
        · intro hwar _ f' hf' _ hhostile
          obtain rfl := Option.some.inj hf'
          by_contra hpeace
          have hatWar := hwar (hmarked.rankOf p ▸ hhostile)
            (hmarked.peace.trans (Bool.eq_false_of_not_eq_true hpeace))
          rw [setAtWar_false_has] at hatWar
          cases hatWar
        · intro hkeeps hhostile hpeace
          have hforced := hkeeps rfl f rfl (Bool.eq_false_of_not_eq_true hfixed)
            (hmarked.rankOf p ▸ hhostile)
          rw [hmarked.peace, hforced] at hpeace
          cases hpeace

theorem step_sound_iff (hreg : Regular p) {s : Session} (hkept : Kept p s.mgr) (hs : Sound p s)
    (r : Request) : Kept p (step p s r).mgr ∧ (Sound p (step p s r) ↔ Keeps p s r) := by
  cases r with
  | loadFromDB result => exact sound_loadFromDB_iff hreg s result
  | setOneFactionReputation faction standing incremental =>
    rw [step]
    cases he : p.factions.lookupEntry faction.toNat with
    | none => exact ⟨hkept, iff_of_true hs trivial⟩
    | some e =>
      obtain ⟨hnext, hsound⟩ :=
        setOneFactionReputation_sound hreg hs hkept he standing incremental
      exact ⟨hnext, iff_of_true hsound trivial⟩
  | setVisible faction =>
    rw [step]
    cases p.factions.lookupEntry faction.toNat with
    | none => exact ⟨hkept, iff_of_true hs trivial⟩
    | some e =>
      obtain ⟨hnext, hsound⟩ := setVisible_sound hreg hs hkept e
      exact ⟨hnext, iff_of_true hsound trivial⟩
  | setVisibleTemplate faction =>
    obtain ⟨hnext, hsound⟩ := setVisibleTemplate_sound hreg hs hkept faction
    exact ⟨hnext, iff_of_true hsound trivial⟩
  | setAtWar repListID on => exact sound_setAtWar_iff hreg hs hkept repListID on
  | setInactive repListID on =>
    obtain ⟨hnext, hsound⟩ := setInactive_sound hreg hs hkept repListID.toNat on
    exact ⟨hnext, iff_of_true hsound trivial⟩

theorem sound_new (p : Player) : Sound p Session.new where
  inRange := nofun
  visible := rfl
  honored := rfl
  revered := rfl
  exalted := rfl
  atWar := nofun

/-- **Main result.** With a regular table a session is sound at every state exactly if every request
keeps it so. -/
theorem sound_run_iff (p : Player) (hreg : Regular p) (rs : List Request) :
    Runs.Along (step p) (Sound p) Session.new rs ↔
      Runs.EachStep (step p) (Keeps p) Session.new rs := by
  refine Runs.along_iff_eachStep (I := fun s => Kept p s.mgr) (kept_new p) (sound_new p) ?_ ?_
  · exact fun s r hkept hs _ => (step_sound_iff hreg hkept hs r).1
  · exact fun s r hkept hs => (step_sound_iff hreg hkept hs r).2

end

/-! ### A hostile faction -/

/-- A faction without bases, whose reputation starts at 0. -/
def sampleFaction : FactionEntry := ⟨1, 0, []⟩

/-- The table of this faction. -/
def sampleStore : FactionStore where
  rows := [none, some sampleFaction]
  ids := by
    rintro (- | - | i) e h
    · simp at h
    · obtain rfl : sampleFaction = e := by simpa using h
      rfl
    · simp at h

/-- A player with this table. -/
def samplePlayer : Player := ⟨1, 1, sampleStore, id⟩

theorem samplePlayer_lookupEntry {i : ℕ} {e : FactionEntry}
    (h : samplePlayer.factions.lookupEntry i = some e) : i = 1 ∧ e = sampleFaction := by
  have hrow := mem_rows_of_lookupEntry h
  match i with
  | 0 => simp [samplePlayer, sampleStore] at hrow
  | 1 => exact ⟨rfl, by simpa [samplePlayer, sampleStore, eq_comm] using hrow⟩
  | i + 2 => simp [samplePlayer, sampleStore] at hrow

theorem samplePlayer_regular : Regular samplePlayer where
  distinct := fun i j e e' he he' _ _ =>
    (samplePlayer_lookupEntry he).1.trans (samplePlayer_lookupEntry he').1.symm
  fromOne := fun e he => by simpa using (samplePlayer_lookupEntry he).1
  few := by decide

theorem sound_run_hated : Runs.Along (step samplePlayer) (Sound samplePlayer) Session.new
    [.loadFromDB none, .setOneFactionReputation 1 (-50000) false, .setInactive 0 true] := by
  refine (sound_run_iff samplePlayer samplePlayer_regular _).2 ?_
  refine Runs.eachStep_cons.2 ⟨?_, Runs.eachStep_cons.2 ⟨trivial,
    Runs.eachStep_cons.2 ⟨trivial, Runs.EachStep.nil _⟩⟩⟩
  intro i e he _ _
  obtain ⟨rfl, rfl⟩ := samplePlayer_lookupEntry he
  unfold Player.Warlike
  decide

/-- A client ends the war with a faction that hates him. -/
theorem peace_with_hated : Regular samplePlayer ∧
    ¬Runs.Along (step samplePlayer) (Sound samplePlayer) Session.new
      [.loadFromDB none, .setOneFactionReputation 1 (-42000) false, .setAtWar 0 false] := by
  refine ⟨samplePlayer_regular, fun h => ?_⟩
  have hsound := h _ (List.prefix_refl _)
  have hwar := hsound.atWar 0
    ⟨1, 0, -42000, factionFlagVisible, true, true⟩ (by rfl) (by decide) (by decide)
  exact absurd hwar (by decide)

end FaceCore.Reputations
