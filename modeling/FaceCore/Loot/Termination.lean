import FaceCore.Loot.Template
import FaceCore.Lib.Recursion

/-!
# Whether loot is generated in finite time

`Process` calls itself for the template of a reference. Loading checks that the entry of a reference
is valid on its own, and `CheckLootRefs` reports references to templates that do not exist; nothing
looks for templates that refer back to themselves.

* `Refers`: a template calls another one, for some random numbers;
* `process_terminates_iff`: every template is processed in finite time, whatever the random numbers
  are, exactly when no template calls itself, directly or through others.
-/

namespace FaceCore.LootTemplates

open LootMgr (Loot)

/-- `Process` follows the entry, if it is lucky. -/
structure LootStoreItem.Followed (W : World) (c : Call) (item : LootStoreItem) : Prop where
  isRef : item.mincountOrRef < 0
  mode : item.mismatch c = false
  chance : 100 ≤ item.chance ∨ 0 < item.ratedChance W c
  times : 0 < item.times W

/-- `Process` for `t` may call itself for the whole of `t'`. -/
def Refers (W : World) (c : Call) (refs : LootStore) (t t' : LootTemplate) : Prop :=
  ∃ item ∈ t.entries, item.Followed W c ∧ item.group = 0 ∧ refs.find item.ref = some t'

/-- No template calls itself, directly or through others. -/
def NoCycle (W : World) (c : Call) (refs : LootStore) : Prop :=
  ∀ t, ¬ Relation.TransGen (Refers W c refs) t t

/-- The call returns. -/
def Terminates (W : World) (c : Call) (rnd : ℕ → Draw) (refs : LootStore) (t : LootTemplate)
    (groupId : UInt8) (s : Rolled) : Prop :=
  ∃ depth, (process W c rnd refs depth t groupId s).isSome

variable {W : World} {c : Call} {rnd : ℕ → Draw} {refs : LootStore} {t t' : LootTemplate}
  {groupId : UInt8} {s s' : Rolled} {item : LootStoreItem} {depth : ℕ}
  {call call' : LootTemplate → UInt8 → Rolled → Option Rolled}

/-! ### More depth changes nothing -/

theorem repeatCall_mono {f f' : Rolled → Option Rolled}
    (h : ∀ s s', f s = some s' → f' s = some s') {n : ℕ}
    (hs : repeatCall f n s = some s') : repeatCall f' n s = some s' := by
  induction n generalizing s with
  | zero => exact hs
  | succ n ih =>
    obtain ⟨s₁, hs₁, hrest⟩ := Option.bind_eq_some_iff.1 hs
    exact Option.bind_eq_some_iff.2 ⟨s₁, h s s₁ hs₁, ih hrest⟩

theorem processEntry_mono (h : ∀ t g s s', call t g s = some s' → call' t g s = some s')
    (hs : processEntry W c rnd refs call s item = some s') :
    processEntry W c rnd refs call' s item = some s' := by
  unfold processEntry at hs ⊢
  rcases hroll : item.roll W c rnd s with ⟨_ | _, s₁⟩
  · simpa only [hroll] using hs
  · simp only [hroll] at hs ⊢
    split_ifs at hs ⊢
    · exact hs
    · cases hfind : refs.find item.ref with
      | none => simpa only [hfind] using hs
      | some t' =>
        simp only [hfind] at hs ⊢
        exact repeatCall_mono (h t' item.group) hs
    · exact hs

theorem processEntries_mono (h : ∀ t g s s', call t g s = some s' → call' t g s = some s')
    {items : List LootStoreItem}
    (hs : items.foldlM (processEntry W c rnd refs call) s = some s') :
    items.foldlM (processEntry W c rnd refs call') s = some s' := by
  induction items generalizing s with
  | nil => exact hs
  | cons item items ih =>
    rw [List.foldlM_cons] at hs ⊢
    obtain ⟨s₁, hs₁, hrest⟩ := Option.bind_eq_some_iff.1 hs
    exact Option.bind_eq_some_iff.2 ⟨s₁, processEntry_mono h hs₁, ih hrest⟩

theorem process_mono (h : process W c rnd refs depth t groupId s = some s') :
    process W c rnd refs (depth + 1) t groupId s = some s' := by
  induction depth generalizing t groupId s s' with
  | zero =>
    unfold process at h ⊢
    split_ifs at h ⊢
    exact h
  | succ depth ih =>
    unfold process at h ⊢
    split_ifs at h ⊢
    · exact h
    · obtain ⟨s₁, hs₁, hgroups⟩ := Option.map_eq_some_iff.1 h
      exact Option.map_eq_some_iff.2 ⟨s₁, processEntries_mono (fun _ _ _ _ hc => ih hc) hs₁, hgroups⟩

/-! ### Enough depth -/

theorem repeatCall_isSome {f : Rolled → Option Rolled} (h : ∀ s, (f s).isSome) (n : ℕ) (s : Rolled) :
    (repeatCall f n s).isSome := by
  induction n generalizing s with
  | zero => rfl
  | succ n ih =>
    obtain ⟨s₁, hs₁⟩ := Option.isSome_iff_exists.1 (h s)
    rw [repeatCall, hs₁]
    exact ih s₁

theorem chance_of_roll (h : (item.roll W c rnd s).1 = true) :
    100 ≤ item.chance ∨ 0 < item.ratedChance W c := by
  unfold LootStoreItem.roll at h
  split_ifs at h with hsure
  · exact Or.inl hsure
  · exact Or.inr ((rnd s.draws).nonneg.trans_lt (of_decide_eq_true h))

/-- An entry is processed when the calls return that it may lead to. -/
theorem processEntry_isSome (s : Rolled)
    (h : item.Followed W c → ∀ t, refs.find item.ref = some t → ∀ s, (call t item.group s).isSome) :
    (processEntry W c rnd refs call s item).isSome := by
  unfold processEntry
  rcases hroll : item.roll W c rnd s with ⟨_ | _, s₁⟩
  · split_ifs <;> rfl
  · split_ifs with hmode href
    · rfl
    · cases hfind : refs.find item.ref with
      | none => rfl
      | some t =>
        dsimp only
        rcases Nat.eq_zero_or_pos (item.times W) with hzero | htimes
        · rw [hzero]
          rfl
        · have hchance : 100 ≤ item.chance ∨ 0 < item.ratedChance W c :=
            chance_of_roll (congrArg Prod.fst hroll)
          have hfollowed : item.Followed W c :=
            ⟨href, Bool.eq_false_iff.2 hmode, hchance, htimes⟩
          exact repeatCall_isSome (h hfollowed t hfind) _ _
    · rfl

theorem processEntries_isSome {items : List LootStoreItem} (s : Rolled)
    (h : ∀ item ∈ items, item.Followed W c → ∀ t, refs.find item.ref = some t →
      ∀ s, (call t item.group s).isSome) :
    (items.foldlM (processEntry W c rnd refs call) s).isSome := by
  induction items generalizing s with
  | nil => rfl
  | cons item items ih =>
    obtain ⟨s₁, hs₁⟩ := Option.isSome_iff_exists.1
      (@processEntry_isSome W c rnd refs item call s (h item List.mem_cons_self))
    rw [List.foldlM_cons, hs₁]
    exact ih s₁ fun i hi => h i (List.mem_cons_of_mem item hi)

/-- `depth` is enough for the template, whatever it is called with. -/
def Halts (W : World) (c : Call) (refs : LootStore) (depth : ℕ) (t : LootTemplate) : Prop :=
  ∀ rnd groupId s, (process W c rnd refs depth t groupId s).isSome

theorem Halts.succ (h : Halts W c refs depth t) : Halts W c refs (depth + 1) t := by
  intro rnd groupId s
  obtain ⟨s', hs'⟩ := Option.isSome_iff_exists.1 (h rnd groupId s)
  exact Option.isSome_iff_exists.2 ⟨s', process_mono hs'⟩

theorem halts_of_refers (h : ∀ t', Refers W c refs t t' → Halts W c refs depth t') :
    Halts W c refs (depth + 1) t := by
  intro rnd groupId s
  unfold process
  split_ifs with hgroup
  · rfl
  · rw [Option.isSome_map]
    refine processEntries_isSome s fun item hitem hfollowed t' hfind s => ?_
    by_cases hwhole : item.group = 0
    · exact h t' ⟨item, hitem, hfollowed, hwhole, hfind⟩ rnd item.group s
    · unfold process
      rw [if_pos hwhole]
      rfl

theorem finite_templates (refs : LootStore) : {t | ∃ id, refs.find id = some t}.Finite := by
  refine (List.finite_toSet (refs.entries.map Prod.snd)).subset ?_
  rintro t ⟨id, hfind⟩
  exact List.mem_map.2 ⟨_, SortedMap.find_eq_some_mem hfind, rfl⟩

theorem exists_halts_of_noCycle (h : NoCycle W c refs) (t : LootTemplate) :
    ∃ depth, Halts W c refs depth t := by
  have hfound : ∀ t t', Refers W c refs t t' → t' ∈ {t | ∃ id, refs.find id = some t} := by
    rintro t t' ⟨item, -, -, -, hfind⟩
    exact ⟨item.ref, hfind⟩
  have hmono : ∀ n t, Halts W c refs n t → Halts W c refs (n + 1) t := fun _ _ => Halts.succ
  exact Recursion.exists_halts (finite_templates refs) hfound hmono (fun _ _ => halts_of_refers) h t

/-! ### A cycle -/

/-- Random numbers with which every chance is taken. -/
def lucky : ℕ → Draw := fun _ => ⟨0, 0, le_rfl, by decide⟩

/-- `depth` is enough for the template with luck, for some loot. -/
def HaltsLucky (W : World) (c : Call) (refs : LootStore) (depth : ℕ) (t : LootTemplate) : Prop :=
  ∃ s, (process W c lucky refs depth t 0 s).isSome

theorem roll_lucky (h : 100 ≤ item.chance ∨ 0 < item.ratedChance W c) (s : Rolled) :
    (item.roll W c lucky s).1 = true := by
  unfold LootStoreItem.roll
  split_ifs with hsure
  · rfl
  · exact decide_eq_true (h.resolve_left hsure)

/-- The loop over the entries reaches every entry, if it ends. -/
theorem processEntry_isSome_of_mem {items : List LootStoreItem} (hitem : item ∈ items)
    (h : (items.foldlM (processEntry W c rnd refs call) s).isSome) :
    ∃ s, (processEntry W c rnd refs call s item).isSome := by
  induction items generalizing s with
  | nil => cases hitem
  | cons i items ih =>
    rw [List.foldlM_cons] at h
    obtain ⟨s', hs'⟩ := Option.isSome_iff_exists.1 h
    obtain ⟨s₁, hs₁, hrest⟩ := Option.bind_eq_some_iff.1 hs'
    rcases List.mem_cons.1 hitem with rfl | hitem
    · exact ⟨s, Option.isSome_iff_exists.2 ⟨s₁, hs₁⟩⟩
    · exact ih hitem (Option.isSome_iff_exists.2 ⟨s', hrest⟩)

/-- With luck, a template that returns has returned from those it refers to. -/
theorem haltsLucky_of_refers (hrefers : Refers W c refs t t')
    (h : HaltsLucky W c refs (depth + 1) t) : HaltsLucky W c refs depth t' := by
  obtain ⟨item, hitem, hfollowed, hwhole, hfind⟩ := hrefers
  obtain ⟨s, hs⟩ := h
  unfold process at hs
  rw [if_neg (by simp), Option.isSome_map] at hs
  obtain ⟨s₁, hs₁⟩ := processEntry_isSome_of_mem hitem hs
  unfold processEntry at hs₁
  rw [hfollowed.mode, if_neg Bool.false_ne_true] at hs₁
  rcases hroll : item.roll W c lucky s₁ with ⟨_ | _, s₂⟩
  · have hlucky := roll_lucky hfollowed.chance s₁
    rw [hroll] at hlucky
    cases hlucky
  · obtain ⟨n, hn⟩ := Nat.exists_eq_succ_of_ne_zero hfollowed.times.ne'
    simp only [hroll, hfollowed.isRef, if_true, hfind, hwhole, hn, repeatCall] at hs₁
    refine ⟨s₂, ?_⟩
    rw [Option.isSome_iff_ne_none]
    intro hnone
    rw [hnone] at hs₁
    cases hs₁

/-- On a cycle no depth is enough. -/
theorem not_haltsLucky_of_cycle (h : Relation.TransGen (Refers W c refs) t t) (depth : ℕ) :
    ¬ HaltsLucky W c refs depth t := by
  refine Recursion.not_halts_of_cycle (fun t => ?_) (fun _ _ _ => haltsLucky_of_refers) h depth
  rintro ⟨s, hs⟩
  simp [process] at hs

/-- **Main result.** Every template is processed in finite time, for all random numbers, exactly when
no template calls itself, directly or through others. -/
theorem process_terminates_iff (W : World) (c : Call) (refs : LootStore) :
    (∀ rnd t groupId s, Terminates W c rnd refs t groupId s) ↔ NoCycle W c refs := by
  constructor
  · intro h t hcycle
    obtain ⟨depth, hdepth⟩ := h lucky t 0 ⟨Loot.new 0, 1, 0⟩
    exact not_haltsLucky_of_cycle hcycle depth ⟨_, hdepth⟩
  · intro h rnd t groupId s
    obtain ⟨depth, hdepth⟩ := exists_halts_of_noCycle h t
    exact ⟨depth, hdepth rnd groupId s⟩

theorem loadRows_cons (store : LootStore) {row : LootRow} (rows : List LootRow)
    (hgroup : row.group < 128) (hvalid : (LootStoreItem.new row).isValid W = true) :
    loadRows W store (row :: rows) = loadRows W (store.insert row.entry
      (((store.find row.entry).getD ⟨[], []⟩).addEntry (LootStoreItem.new row))) rows := by
  simp only [loadRows, UInt8.not_le.2 hgroup, if_false, hvalid, Bool.not_true,
    Bool.false_eq_true]

theorem find_loadLootTable (row : LootRow) (hgroup : row.group < 128)
    (hvalid : (LootStoreItem.new row).isValid W = true) :
    (loadLootTable W [row]).find row.entry =
      some (LootTemplate.addEntry ⟨[], []⟩ (LootStoreItem.new row)) := by
  rw [loadLootTable, loadRows_cons _ _ hgroup hvalid]
  exact SortedMap.find_insert_self

/-- A world with one item and the default rates. -/
def plainWorld : World where
  template := fun id => if id = 7 then some ⟨20, false, false, false⟩ else none
  allowed := fun _ _ _ _ => true
  quality := fun _ => 1
  qualityChance := fun _ chance => chance
  referencedChance := id
  referencedAmount := UInt8.toNat
  minus := (· - ·)

/-- A row of the reference table that refers to the template it belongs to. -/
def selfRow : LootRow := ⟨1, 1, 100, 1, 0, -1, 1⟩

/-- Loading keeps the row, and the template is never processed to the end. -/
theorem self_reference_never_ends : ¬ ∀ rnd t groupId s,
    Terminates plainWorld ⟨false, 1⟩ rnd (loadLootTable plainWorld [selfRow]) t groupId s := by
  intro h
  have hfind := @find_loadLootTable plainWorld selfRow (by decide) (by decide +kernel)
  have htimes : 0 < (LootStoreItem.new selfRow).times plainWorld := by decide
  have hfollowed : (LootStoreItem.new selfRow).Followed plainWorld ⟨false, 1⟩ :=
    ⟨by decide, by decide, Or.inl (le_abs_self _), htimes⟩
  obtain ⟨depth, hdepth⟩ := h lucky ⟨[LootStoreItem.new selfRow], []⟩ 0 ⟨Loot.new 0, 1, 0⟩
  refine not_haltsLucky_of_cycle (Relation.TransGen.single ?_) depth ⟨_, hdepth⟩
  exact ⟨_, List.mem_singleton.2 rfl, hfollowed, rfl, hfind⟩

end FaceCore.LootTemplates
