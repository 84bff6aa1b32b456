import Mathlib.Logic.Function.Basic
import Mathlib.Data.List.Count

/-!
# Saving the inventory

`Player::_SaveInventory`, with the update state of an item, `Item::SetState`, `Item::SaveToDB`, and
the player's update queue.

An item that changed in memory is put into the queue, and the next save of the inventory writes its
row of `item_instance` and its place in `character_inventory`. `Item::SaveToDB` alone writes the row
and takes the item for saved, but the queue still points to it and its place is not written.

* `Tables`: the two tables, as far as one player's items are concerned, with the statements on them;
* `Tracked`: what holds of the states before a save;
* `saveInventory_spec`: which rows a save leaves;
* `saveInventory_isSome_iff`: when no object is deleted twice.

Refund data, gift wrappings and the loot of containers have tables of their own and are left out.
-/

namespace FaceCore.Saving

/-- `ItemUpdateState`. -/
inductive ItemUpdateState
  | unchanged
  | changed
  | new
  | removed
  deriving DecidableEq

/-- The columns of `item_instance` that say what a stack is. -/
structure InstanceRow where
  itemEntry : UInt32
  count : UInt32
  deriving DecidableEq

/-- A place: the low guid of the bag, zero outside of bags, and the slot. -/
abbrev Place := UInt32 × UInt8

/-- The rows of `character_inventory` of one player, by item, and those of `item_instance`. -/
structure Tables where
  inventory : UInt32 → Option Place
  instances : UInt32 → Option InstanceRow

namespace Tables

/-- `CHAR_REP_INVENTORY_ITEM`. The item is the primary key, and a place is unique as well. -/
def repInventoryItem (t : Tables) (place : Place) (item : UInt32) : Tables :=
  { t with
    inventory := fun g =>
      if g = item then some place
      else if t.inventory g = some place then none
      else t.inventory g }

/-- `CHAR_DEL_CHAR_INVENTORY_BY_ITEM`. -/
def delInventoryByItem (t : Tables) (item : UInt32) : Tables :=
  { t with inventory := Function.update t.inventory item none }

/-- `CHAR_DEL_CHAR_INVENTORY_BY_BAG_SLOT`. -/
def delInventoryByBagSlot (t : Tables) (place : Place) : Tables :=
  { t with inventory := fun g => if t.inventory g = some place then none else t.inventory g }

/-- `CHAR_REP_ITEM_INSTANCE`. -/
def repItemInstance (t : Tables) (guid : UInt32) (row : InstanceRow) : Tables :=
  { t with instances := Function.update t.instances guid (some row) }

/-- `CHAR_UPD_ITEM_INSTANCE`: nothing happens to a row that is not there. -/
def updItemInstance (t : Tables) (guid : UInt32) (row : InstanceRow) : Tables :=
  if (t.instances guid).isSome then t.repItemInstance guid row else t

/-- `CHAR_DEL_ITEM_INSTANCE`. -/
def delItemInstance (t : Tables) (guid : UInt32) : Tables :=
  { t with instances := Function.update t.instances guid none }

/-- `CHAR_SEL_CHARACTER_INVENTORY`: the item of a guid, with its place. -/
def selInventory (t : Tables) (guid : UInt32) : Option (Place × InstanceRow) :=
  (t.inventory guid).bind fun place => (t.instances guid).map fun row => (place, row)

end Tables

/-- The item objects, by low guid: their fields, where they take themselves to be, and what
`Player::GetItemByPos` finds at a place. -/
structure Objects where
  content : UInt32 → InstanceRow
  place : UInt32 → Place
  itemAt : Place → Option UInt32

/-- The tables, the `uState` and `uQueuePos` of the items, the player's `m_itemUpdateQueue`, and
which objects were deleted. -/
structure SaveState where
  tables : Tables
  state : UInt32 → ItemUpdateState
  queuePos : UInt32 → Option ℕ
  queue : List (Option UInt32)
  deleted : UInt32 → Bool

namespace SaveState

/-- `Item::AddToUpdateQueueOf`. -/
def addToUpdateQueueOf (s : SaveState) (g : UInt32) : SaveState :=
  match s.queuePos g with
  | some _ => s
  | none =>
    { s with
      queue := s.queue ++ [some g]
      queuePos := Function.update s.queuePos g (some s.queue.length) }

/-- `Item::RemoveFromUpdateQueueOf`. -/
def removeFromUpdateQueueOf (s : SaveState) (g : UInt32) : SaveState :=
  match s.queuePos g with
  | none => s
  | some k => { s with queue := s.queue.set k none, queuePos := Function.update s.queuePos g none }

/-- `Item::FSetState`. -/
def fSetState (s : SaveState) (g : UInt32) (state : ItemUpdateState) : SaveState :=
  { s with state := Function.update s.state g state }

/-- `Item::SetState`. -/
def setState (s : SaveState) (g : UInt32) (state : ItemUpdateState) : SaveState :=
  if s.state g = .new ∧ state = .removed then
    -- pretend the item never existed
    { s.removeFromUpdateQueueOf g with deleted := Function.update s.deleted g true }
  else if state ≠ .unchanged then
    -- new items must stay in new state until saved
    (if s.state g ≠ .new then s.fSetState g state else s).addToUpdateQueueOf g
  else
    -- the item must be removed from the queue manually
    { s.fSetState g .unchanged with queuePos := Function.update s.queuePos g none }

/-- `Item::SaveToDB`. -/
def saveToDB (o : Objects) (s : SaveState) (g : UInt32) : SaveState :=
  match s.state g with
  | .new => { s with tables := s.tables.repItemInstance g (o.content g) }.setState g .unchanged
  | .changed => { s with tables := s.tables.updItemInstance g (o.content g) }.setState g .unchanged
  | .removed =>
    { s with
      tables := s.tables.delItemInstance g
      deleted := Function.update s.deleted g true }
  | .unchanged => s.setState g .unchanged

/-- The `switch` of `_SaveInventory` and the save of the item after it. -/
def savePlace (o : Objects) (s : SaveState) (g : UInt32) : SaveState :=
  let tables :=
    match s.state g with
    | .new | .changed => s.tables.repInventoryItem (o.place g) g
    | .removed => s.tables.delInventoryByItem g
    | .unchanged => s.tables
  { s with tables := tables }.saveToDB o g

/-- The body of the loop of `_SaveInventory` over the queue. An item that is not where it takes
itself to be is removed if nothing is there, and otherwise saved without its place. -/
def saveItem (o : Objects) (s : SaveState) (g : UInt32) : SaveState :=
  if s.state g = .removed then s.savePlace o g
  else
    match o.itemAt (o.place g) with
    | none =>
      let s := { s with tables := s.tables.delInventoryByBagSlot (o.place g) }
      (s.fSetState g .removed).savePlace o g
    | some g' =>
      if g' = g then s.savePlace o g
      -- only for existing items, no dupes
      else if s.state g ≠ .new then s.saveToDB o g
      else s

/-- The loop of `_SaveInventory`; it has no result if it gets to an object that it deleted before. -/
def saveQueue (o : Objects) : List (Option UInt32) → SaveState → Option SaveState
  | [], s => some s
  | none :: q, s => saveQueue o q s
  | some g :: q, s => if s.deleted g then none else saveQueue o q (s.saveItem o g)

/-- The first loop of `_SaveInventory`: the items in the buyback slots are not in the inventory. -/
def forceBuyback (s : SaveState) (buyback : List UInt32) : SaveState :=
  buyback.foldl
    (fun s g =>
      if s.state g = .new then s
      else
        { s with tables := (s.tables.delInventoryByItem g).delItemInstance g }.fSetState g .new)
    s

/-- The loops over `m_refundableItems` and `m_enchantDuration`: they change items of the inventory. -/
def touch (o : Objects) (s : SaveState) (touched : List UInt32) : SaveState :=
  touched.foldl (fun s g => if o.itemAt (o.place g) = some g then s.setState g .changed else s) s

/-- `Player::_SaveInventory`. `touched` are the refundable items, with those whose enchantments went
on since the last save. -/
def saveInventory (o : Objects) (buyback touched : List UInt32) (s : SaveState) :
    Option SaveState :=
  let s := (s.forceBuyback buyback).touch o touched
  (s.saveQueue o s.queue).map fun s => { s with queue := [] }

end SaveState

/-- The item is in the inventory, where it takes itself to be. -/
def Objects.Stored (o : Objects) (g : UInt32) : Prop := o.itemAt (o.place g) = some g

/-- What is found at a place takes itself to be there. -/
def Objects.Valid (o : Objects) : Prop := ∀ p g, o.itemAt p = some g → o.place g = p

/-- The save of the inventory deletes the object when it gets to it. -/
def SaveState.Doomed (o : Objects) (s : SaveState) (g : UInt32) : Prop :=
  s.state g = .removed ∨ o.itemAt (o.place g) = none

namespace SaveState

variable {o : Objects} {s s₀ s' : SaveState} {g h : UInt32} {q : List (Option UInt32)}

theorem Doomed.not_stored (hd : s.Doomed o g) (hstate : o.Stored g → s.state g ≠ .removed) :
    ¬ o.Stored g := by
  intro hg
  rcases hd with hr | hn
  · exact hstate hg hr
  · rw [Objects.Stored, hn] at hg
    cases hg

/-! ### One item of the queue -/

theorem setState_unchanged : s.setState g .unchanged =
    { s.fSetState g .unchanged with queuePos := Function.update s.queuePos g none } := by
  unfold setState
  rw [if_neg (fun hc => ItemUpdateState.noConfusion hc.2), if_neg (fun hc => hc rfl)]

/-- What the save of an item leaves of its own entries, by its state. -/
theorem saveToDB_self (hr : s.state g ≠ .removed) :
    (s.saveToDB o g).state g = .unchanged ∧ (s.saveToDB o g).deleted = s.deleted ∧
      (s.saveToDB o g).tables.inventory = s.tables.inventory ∧
      (s.state g = .unchanged → (s.saveToDB o g).tables = s.tables) ∧
      (s.state g = .new ∨ s.state g = .changed ∧ (s.tables.instances g).isSome →
        (s.saveToDB o g).tables.instances g = some (o.content g)) := by
  unfold saveToDB
  cases hs : s.state g with
  | removed => exact absurd hs hr
  | unchanged =>
    simp [setState_unchanged, fSetState]
  | new =>
    simp [setState_unchanged, fSetState, Tables.repItemInstance]
  | changed =>
    simp only [setState_unchanged, fSetState, Tables.updItemInstance, Function.update_self]
    refine ⟨trivial, trivial, ?_, nofun, ?_⟩
    · split_ifs <;> rfl
    · rintro (hc | ⟨-, hc⟩)
      · cases hc
      · rw [if_pos hc]
        exact Function.update_self ..

/-- The save of an item does not touch the others. -/
theorem saveToDB_ne (hne : h ≠ g) :
    (s.saveToDB o g).state h = s.state h ∧ (s.saveToDB o g).deleted h = s.deleted h ∧
      (s.saveToDB o g).tables.instances h = s.tables.instances h ∧
      (s.saveToDB o g).queuePos h = s.queuePos h := by
  unfold saveToDB
  cases hs : s.state g <;>
    simp only [setState_unchanged, fSetState, Tables.repItemInstance, Tables.updItemInstance,
      Tables.delItemInstance] <;>
    (try split_ifs) <;> simp [Function.update_of_ne hne]

theorem saveToDB_inventory : (s.saveToDB o g).tables.inventory = s.tables.inventory := by
  unfold saveToDB
  cases hs : s.state g <;>
    simp only [setState_unchanged, fSetState, Tables.repItemInstance, Tables.updItemInstance,
      Tables.delItemInstance]
  split_ifs <;> rfl

theorem saveToDB_queue : (s.saveToDB o g).queue = s.queue := by
  unfold saveToDB
  cases hs : s.state g
  all_goals simp only [setState_unchanged, fSetState]

theorem saveToDB_queuePos (hr : s.state g ≠ .removed) : (s.saveToDB o g).queuePos g = none := by
  unfold saveToDB
  cases hs : s.state g with
  | removed => exact absurd hs hr
  | unchanged | new | changed =>
    simp only [setState_unchanged]
    exact Function.update_self ..

theorem savePlace_removed (hs : s.state g = .removed) : s.savePlace o g =
    { s with
      tables := (s.tables.delInventoryByItem g).delItemInstance g
      deleted := Function.update s.deleted g true } := by
  unfold savePlace saveToDB
  simp only [hs]

theorem saveItem_doomed (hd : s.Doomed o g) :
    (s.saveItem o g).deleted g = true ∧ (s.saveItem o g).state g = .removed ∧
      (s.saveItem o g).tables.inventory g = none ∧ (s.saveItem o g).tables.instances g = none := by
  unfold saveItem
  by_cases hr : s.state g = .removed
  · rw [if_pos hr, savePlace_removed hr]
    exact ⟨Function.update_self .., hr, Function.update_self .., Function.update_self ..⟩
  · have hat : o.itemAt (o.place g) = none := hd.resolve_left hr
    rw [if_neg hr]
    simp only [hat]
    rw [savePlace_removed (Function.update_self ..)]
    exact ⟨Function.update_self .., Function.update_self .., Function.update_self ..,
      Function.update_self ..⟩

/-- An item of the inventory is written with its place, if it changed. -/
theorem saveItem_stored (hg : o.Stored g) (hr : s.state g ≠ .removed) :
    (s.saveItem o g).state g = .unchanged ∧ (s.saveItem o g).deleted = s.deleted ∧
      (s.state g = .unchanged → (s.saveItem o g).tables = s.tables) ∧
      (s.state g ≠ .unchanged → (s.saveItem o g).tables.inventory g = some (o.place g) ∧
        ((s.state g = .changed → (s.tables.instances g).isSome) →
          (s.saveItem o g).tables.instances g = some (o.content g))) := by
  have heq : s.saveItem o g = s.savePlace o g := by
    unfold saveItem
    rw [if_neg hr]
    rw [Objects.Stored] at hg
    simp only [hg, if_true]
  rw [heq]
  unfold savePlace
  cases hs : s.state g with
  | removed => exact absurd hs hr
  | unchanged =>
    obtain ⟨hstate, hdel, -, htables, -⟩ := saveToDB_self (o := o) hr
    exact ⟨hstate, hdel, fun _ => htables hs, fun hc => absurd rfl hc⟩
  | new =>
    simp only
    obtain ⟨hstate, hdel, hinv, -, hrow⟩ := saveToDB_self (o := o) (g := g)
      (s := { s with tables := s.tables.repInventoryItem (o.place g) g }) hr
    refine ⟨hstate, hdel, nofun, fun _ => ⟨?_, fun _ => hrow (.inl hs)⟩⟩
    rw [hinv]
    exact if_pos rfl
  | changed =>
    simp only
    obtain ⟨hstate, hdel, hinv, -, hrow⟩ := saveToDB_self (o := o) (g := g)
      (s := { s with tables := s.tables.repInventoryItem (o.place g) g }) hr
    refine ⟨hstate, hdel, nofun, fun _ => ⟨?_, fun hsome => hrow (.inr ⟨hs, hsome trivial⟩)⟩⟩
    rw [hinv]
    exact if_pos rfl

/-- An item whose place another one has keeps its place row, and is not deleted. -/
theorem saveItem_away {g' : UInt32} (hat : o.itemAt (o.place g) = some g') (hne : g' ≠ g)
    (hr : s.state g ≠ .removed) :
    (s.saveItem o g).tables.inventory = s.tables.inventory ∧
      (s.saveItem o g).deleted = s.deleted ∧ (s.saveItem o g).state g ≠ .removed := by
  unfold saveItem
  rw [if_neg hr]
  simp only [hat, if_neg hne]
  split_ifs with hnew
  · obtain ⟨hstate, hdel, hinv, -⟩ := saveToDB_self (o := o) hr
    exact ⟨hinv, hdel, by simp [hstate]⟩
  · exact ⟨rfl, rfl, hr⟩

theorem savePlace_ne (hne : h ≠ g) :
    (s.savePlace o g).state h = s.state h ∧ (s.savePlace o g).deleted h = s.deleted h ∧
      (s.savePlace o g).tables.instances h = s.tables.instances h ∧
      ((s.savePlace o g).tables.inventory h = s.tables.inventory h ∨
        (s.savePlace o g).tables.inventory h = none ∧
          s.tables.inventory h = some (o.place g) ∧ s.state g ≠ .removed) := by
  unfold savePlace
  dsimp only
  generalize ht : (match s.state g with
    | .new | .changed => s.tables.repInventoryItem (o.place g) g
    | .removed => s.tables.delInventoryByItem g
    | .unchanged => s.tables) = tables
  obtain ⟨hstate, hdel, hrow, -⟩ := saveToDB_ne (o := o) (s := { s with tables := tables }) hne
  have hinst : tables.instances = s.tables.instances := by
    rw [← ht]
    cases s.state g <;> rfl
  refine ⟨hstate, hdel, hrow.trans (congrFun hinst h), ?_⟩
  rw [saveToDB_inventory, ← ht]
  cases s.state g with
  | unchanged => exact .inl rfl
  | removed => exact .inl (Function.update_of_ne hne ..)
  | new | changed =>
    simp only [Tables.repInventoryItem, if_neg hne]
    split_ifs with hp
    · exact .inr ⟨rfl, hp, nofun⟩
    · exact .inl rfl

/-- Another item keeps its entries, except that its row goes if the place is taken or cleared. -/
theorem saveItem_ne (hne : h ≠ g) :
    (s.saveItem o g).state h = s.state h ∧ (s.saveItem o g).deleted h = s.deleted h ∧
      (s.saveItem o g).tables.instances h = s.tables.instances h ∧
      ((s.saveItem o g).tables.inventory h = s.tables.inventory h ∨
        (s.saveItem o g).tables.inventory h = none ∧ s.tables.inventory h = some (o.place g) ∧
          (o.Stored g ∨ o.itemAt (o.place g) = none)) := by
  unfold saveItem
  by_cases hr : s.state g = .removed
  · rw [if_pos hr]
    obtain ⟨hstate, hdel, hrow, hinv⟩ := savePlace_ne (o := o) (s := s) hne
    exact ⟨hstate, hdel, hrow, hinv.imp_right fun hc => absurd hr hc.2.2⟩
  rw [if_neg hr]
  cases hat : o.itemAt (o.place g) with
  | none =>
    dsimp only
    rw [savePlace_removed (Function.update_self ..)]
    refine ⟨Function.update_of_ne hne .., Function.update_of_ne hne ..,
      Function.update_of_ne hne .., ?_⟩
    have hrow : ∀ t : Tables, ((t.delInventoryByItem g).delItemInstance g).inventory h =
        t.inventory h := fun t => Function.update_of_ne hne ..
    simp only [fSetState, hrow, Tables.delInventoryByBagSlot]
    split_ifs with hp
    · exact .inr ⟨rfl, hp, .inr trivial⟩
    · exact .inl rfl
  | some g' =>
    dsimp only
    by_cases hg : g' = g
    · rw [if_pos hg]
      obtain ⟨hstate, hdel, hrow, hinv⟩ := savePlace_ne (o := o) (s := s) hne
      exact ⟨hstate, hdel, hrow, hinv.imp_right fun hc => ⟨hc.1, hc.2.1, .inl (hg ▸ hat)⟩⟩
    rw [if_neg hg]
    split_ifs
    · obtain ⟨hstate, hdel, hrow, -⟩ := saveToDB_ne (o := o) (s := s) hne
      exact ⟨hstate, hdel, hrow, .inl (congrFun saveToDB_inventory h)⟩
    · exact ⟨rfl, rfl, rfl, .inl rfl⟩

/-! ### The loop over the queue -/

/-- What holds of an item during the loop that started with `s₀` and has `q` still before it. -/
structure Progress (o : Objects) (s₀ s : SaveState) (q : List (Option UInt32)) (g : UInt32) :
    Prop where
  not_removed : o.Stored g → s.state g ≠ .removed
  queued : o.Stored g → s.state g ≠ .unchanged → some g ∈ q ∧ s₀.state g ≠ .unchanged
  row : o.Stored g → s.state g = .unchanged → s.tables.instances g = some (o.content g)
  row_isSome : o.Stored g → s.state g = .changed → (s.tables.instances g).isSome
  keep : o.Stored g → s₀.tables.inventory g = some (o.place g) →
    s.tables.inventory g = some (o.place g)
  only : o.Stored g → s.tables.inventory g = some (o.place g) →
    s₀.tables.inventory g = some (o.place g) ∨ s₀.state g ≠ .unchanged
  done : o.Stored g → s₀.state g ≠ .unchanged → s.state g = .unchanged →
    s.tables.inventory g = some (o.place g)
  pending : ¬ o.Stored g → ∀ p, s.tables.inventory g = some p → some g ∈ q ∧ s.Doomed o g

theorem Progress.self (hp : Progress o s₀ s (some g :: q) g) :
    Progress o s₀ (s.saveItem o g) q g := by
  by_cases hg : o.Stored g
  · have hr := hp.not_removed hg
    obtain ⟨hstate, -, htables, hwrite⟩ := saveItem_stored hg hr
    by_cases hun : s.state g = .unchanged
    · exact
        { not_removed := fun _ => by simp [hstate]
          queued := fun _ hc => absurd hstate hc
          row := fun _ _ => by rw [htables hun]; exact hp.row hg hun
          row_isSome := fun _ hc => by simp [hstate] at hc
          keep := fun _ h₀ => by rw [htables hun]; exact hp.keep hg h₀
          only := fun _ hrow => hp.only hg (by rw [← hrow, htables hun])
          done := fun _ h₀ _ => by rw [htables hun]; exact hp.done hg h₀ hun
          pending := fun hn => absurd hg hn }
    · obtain ⟨hinv, hrow⟩ := hwrite hun
      exact
        { not_removed := fun _ => by simp [hstate]
          queued := fun _ hc => absurd hstate hc
          row := fun _ _ => hrow (hp.row_isSome hg)
          row_isSome := fun _ hc => by simp [hstate] at hc
          keep := fun _ _ => hinv
          only := fun _ _ => .inr (hp.queued hg hun).2
          done := fun _ _ _ => hinv
          pending := fun hn => absurd hg hn }
  · refine ⟨?_, ?_, ?_, ?_, ?_, ?_, ?_, fun _ p hrow => ?_⟩
    any_goals exact fun hc => absurd hc hg
    by_cases hd : s.Doomed o g
    · rw [(saveItem_doomed hd).2.2.1] at hrow
      cases hrow
    · have hr : s.state g ≠ .removed := fun hc => hd (.inl hc)
      obtain ⟨g', hat⟩ := Option.ne_none_iff_exists'.1 fun hc => hd (.inr hc)
      have hne : g' ≠ g := by
        rintro rfl
        exact hg hat
      rw [(saveItem_away hat hne hr).1] at hrow
      exact absurd (hp.pending hg p hrow).2 hd

theorem Progress.other (hne : h ≠ g) (hp : Progress o s₀ s (some g :: q) h) :
    Progress o s₀ (s.saveItem o g) q h := by
  obtain ⟨hstate, -, hrow, hinv⟩ := saveItem_ne (o := o) (s := s) hne
  have hmem : some h ∈ some g :: q → some h ∈ q := fun hm =>
    (List.mem_cons.1 hm).resolve_left fun hc => hne (Option.some.inj hc)
  have hdoomed : s.Doomed o h → (s.saveItem o g).Doomed o h := by
    unfold Doomed
    rw [hstate]
    exact id
  -- the place of an item of the inventory is neither taken by another one nor cleared
  have hplace : o.Stored h → (s.tables.inventory h = some (o.place h) ↔
      (s.saveItem o g).tables.inventory h = some (o.place h)) := by
    intro hh
    rcases hinv with heq | ⟨hnone, hrow, hat⟩
    · rw [heq]
    · have hpl : o.place g ≠ o.place h := by
        intro hpl
        rw [Objects.Stored, hpl, hh] at hat
        rcases hat with hat | hat
        · exact hne (Option.some.inj hat)
        · cases hat
      rw [hnone, hrow]
      simp [hpl]
  exact
    { not_removed := fun hh => by rw [hstate]; exact hp.not_removed hh
      queued := fun hh hc => (hp.queued hh (by rwa [hstate] at hc)).imp_left hmem
      row := fun hh hc => by rw [hrow]; exact hp.row hh (by rwa [hstate] at hc)
      row_isSome := fun hh hc => by rw [hrow]; exact hp.row_isSome hh (by rwa [hstate] at hc)
      keep := fun hh h₀ => (hplace hh).1 (hp.keep hh h₀)
      only := fun hh hc => hp.only hh ((hplace hh).2 hc)
      done := fun hh h₀ hc => (hplace hh).1 (hp.done hh h₀ (by rwa [hstate] at hc))
      pending := fun hh p hc => by
        rcases hinv with heq | ⟨hnone, -⟩
        · exact (hp.pending hh p (heq ▸ hc)).imp hmem hdoomed
        · rw [hnone] at hc
          cases hc }

theorem Progress.saveQueue (hp : ∀ g, Progress o s₀ s q g) (hs : s.saveQueue o q = some s') :
    ∀ g, Progress o s₀ s' [] g := by
  induction q generalizing s with
  | nil =>
    obtain rfl := Option.some.inj hs
    exact hp
  | cons x q ih =>
    cases x with
    | none =>
      refine ih (fun g => ?_) hs
      have hmem : some g ∈ none :: q → some g ∈ q := fun hm => by simpa using hm
      exact { hp g with
        queued := fun hg hc => ((hp g).queued hg hc).imp_left hmem
        pending := fun hg p hc => ((hp g).pending hg p hc).imp_left hmem }
    | some g =>
      unfold SaveState.saveQueue at hs
      split_ifs at hs
      refine ih (fun h => ?_) hs
      by_cases hne : h = g
      · rw [hne]
        exact (hp g).self
      · exact (hp h).other hne

/-- Items that are neither in the queue nor in the inventory keep their rows of `item_instance`. -/
theorem saveQueue_instances (hg : some g ∉ q) (hs : s.saveQueue o q = some s') :
    s'.tables.instances g = s.tables.instances g := by
  induction q generalizing s with
  | nil => rw [Option.some.inj hs]
  | cons x q ih =>
    have hq : some g ∉ q := fun hm => hg (List.mem_cons_of_mem _ hm)
    cases x with
    | none => exact ih hq hs
    | some h =>
      unfold saveQueue at hs
      split_ifs at hs
      have hne : g ≠ h := by
        rintro rfl
        exact hg List.mem_cons_self
      exact (ih hq hs).trans (saveItem_ne hne).2.2.1

/-- An item that is not to be removed is neither deleted nor to be removed afterwards. -/
theorem saveItem_of_not_doomed (hd : ¬ s.Doomed o g) :
    (s.saveItem o g).deleted = s.deleted ∧ ¬ (s.saveItem o g).Doomed o g := by
  have hr : s.state g ≠ .removed := fun hc => hd (.inl hc)
  have hat : o.itemAt (o.place g) ≠ none := fun hc => hd (.inr hc)
  obtain ⟨g', hg'⟩ := Option.ne_none_iff_exists'.1 hat
  by_cases hne : g' = g
  · obtain ⟨hstate, hdel, -⟩ := saveItem_stored (o := o) (hne ▸ hg') hr
    refine ⟨hdel, fun hc => hc.elim (fun hc => ?_) hat⟩
    rw [hstate] at hc
    cases hc
  · obtain ⟨-, hdel, hstate⟩ := saveItem_away hg' hne hr
    exact ⟨hdel, fun hc => hc.elim hstate hat⟩

/-- The loop gets to no deleted object twice exactly when what it deletes is in the queue once. -/
theorem saveQueue_isSome_iff : (s.saveQueue o q).isSome = true ↔
    ∀ g, (s.deleted g = true → some g ∉ q) ∧ (s.Doomed o g → q.count (some g) ≤ 1) := by
  induction q generalizing s with
  | nil => simp [saveQueue]
  | cons x q ih =>
    cases x with
    | none =>
      have hcount : ∀ g, (none :: q).count (some g) = q.count (some g) := fun g =>
        List.count_cons_of_ne (by simp)
      simp only [saveQueue, ih, hcount, List.mem_cons, reduceCtorEq, false_or]
    | some g =>
      have hstep : (s.saveQueue o (some g :: q)).isSome = true ↔
          s.deleted g = false ∧ ((s.saveItem o g).saveQueue o q).isSome = true := by
        rw [saveQueue]
        split_ifs with hdel
        · simp [hdel]
        · simp [hdel]
      rw [hstep, ih]
      have hother : ∀ h, h ≠ g →
          (((s.saveItem o g).deleted h = true → some h ∉ q) ∧
              ((s.saveItem o g).Doomed o h → q.count (some h) ≤ 1) ↔
            (s.deleted h = true → some h ∉ some g :: q) ∧
              (s.Doomed o h → (some g :: q).count (some h) ≤ 1)) := by
        intro h hne
        obtain ⟨hstate, hdel, -⟩ := saveItem_ne (o := o) (s := s) hne
        have hsome : some h ≠ some g := fun hc => hne (Option.some.inj hc)
        unfold Doomed
        rw [hstate, hdel, List.count_cons_of_ne hsome.symm, List.mem_cons]
        simp [hne]
      have hself : s.deleted g = false ∧
            ((s.saveItem o g).deleted g = true → some g ∉ q) ∧
              ((s.saveItem o g).Doomed o g → q.count (some g) ≤ 1) ↔
          (s.deleted g = true → some g ∉ some g :: q) ∧
            (s.Doomed o g → (some g :: q).count (some g) ≤ 1) := by
        rw [List.count_cons_self, List.mem_cons]
        by_cases hd : s.Doomed o g
        · obtain ⟨hdel, -⟩ := saveItem_doomed hd
          have hcount : some g ∉ q ↔ q.count (some g) + 1 ≤ 1 := by
            rw [← List.count_eq_zero]
            omega
          have hle : q.count (some g) + 1 ≤ 1 → q.count (some g) ≤ 1 := by omega
          simp only [hdel, hd, true_imp_iff, hcount, true_or, not_true, imp_false,
            Bool.not_eq_true]
          exact and_congr_right fun _ => ⟨fun hc => hc.1, fun hc => ⟨hc, fun _ => hle hc⟩⟩
        · obtain ⟨hdel, hd'⟩ := saveItem_of_not_doomed hd
          cases hcase : s.deleted g <;> simp [hdel, hd, hd', hcase]
      constructor
      · rintro ⟨hdel, hall⟩ h
        by_cases hne : h = g
        · rw [hne]
          exact hself.1 ⟨hdel, hall g⟩
        · exact (hother h hne).1 (hall h)
      · intro hall
        refine ⟨(hself.2 (hall g)).1, fun h => ?_⟩
        by_cases hne : h = g
        · rw [hne]
          exact (hself.2 (hall g)).2
        · exact (hother h hne).2 (hall h)

/-- An unchanged item whose place another one has keeps its row of `item_instance`. -/
theorem saveQueue_away {g' : UInt32} (hat : o.itemAt (o.place g) = some g') (hne : g' ≠ g)
    (hun : s.state g = .unchanged) (hs : s.saveQueue o q = some s') :
    s'.tables.instances g = s.tables.instances g := by
  induction q generalizing s with
  | nil => rw [Option.some.inj hs]
  | cons x q ih =>
    cases x with
    | none => exact ih hun hs
    | some h =>
      unfold saveQueue at hs
      split_ifs at hs
      by_cases hgh : g = h
      · subst hgh
        have hr : s.state g ≠ .removed := by
          rw [hun]
          nofun
        have heq : s.saveItem o g = s.saveToDB o g := by
          unfold saveItem
          rw [if_neg hr]
          simp only [hat, if_neg hne]
          rw [if_pos (by rw [hun]; nofun)]
        obtain ⟨hstate, -, -, htables, -⟩ := saveToDB_self (o := o) hr
        rw [heq] at hs
        rw [ih hstate hs, htables hun]
      · obtain ⟨hstate, -, hrow, -⟩ := saveItem_ne (o := o) (s := s) hgh
        exact (ih (hstate.trans hun) hs).trans hrow

/-- An item of the queue that is removed has no row of `item_instance` in the end. -/
theorem saveQueue_doomed (hd : s.Doomed o g) (hg : some g ∈ q) (hs : s.saveQueue o q = some s') :
    s'.tables.instances g = none := by
  induction q generalizing s with
  | nil => cases hg
  | cons x q ih =>
    cases x with
    | none => exact ih hd (by simpa using hg) hs
    | some h =>
      unfold saveQueue at hs
      split_ifs at hs
      by_cases hgh : g = h
      · subst hgh
        obtain ⟨hdel, -, -, hrow⟩ := saveItem_doomed hd
        have hsome : ((s.saveItem o g).saveQueue o q).isSome = true := by rw [hs]; rfl
        rw [saveQueue_instances ((saveQueue_isSome_iff.1 hsome g).1 hdel) hs, hrow]
      · refine ih ?_ ((List.mem_cons.1 hg).resolve_left fun hc => hgh (Option.some.inj hc)) hs
        unfold Doomed
        rw [(saveItem_ne hgh).1]
        exact hd

/-! ### The loops before it -/

theorem forceBuyback_spec (buyback : List UInt32) :
    (s.forceBuyback buyback).queue = s.queue ∧ (s.forceBuyback buyback).queuePos = s.queuePos ∧
      (s.forceBuyback buyback).deleted = s.deleted ∧
      ∀ g, (g ∉ buyback → (s.forceBuyback buyback).state g = s.state g) ∧
        (g ∉ buyback ∨ s.state g = .new →
          (s.forceBuyback buyback).tables.inventory g = s.tables.inventory g ∧
            (s.forceBuyback buyback).tables.instances g = s.tables.instances g) ∧
        (g ∈ buyback → s.state g ≠ .new →
          (s.forceBuyback buyback).tables.inventory g = none) := by
  induction buyback generalizing s with
  | nil => exact ⟨rfl, rfl, rfl, fun g => ⟨fun _ => rfl, fun _ => ⟨rfl, rfl⟩, nofun⟩⟩
  | cons b buyback ih =>
    by_cases hnew : s.state b = .new
    · have hstep : s.forceBuyback (b :: buyback) = s.forceBuyback buyback := by
        unfold forceBuyback
        rw [List.foldl_cons, if_pos hnew]
      obtain ⟨hqueue, hpos, hdel, hall⟩ := @ih s
      rw [hstep]
      refine ⟨hqueue, hpos, hdel, fun g => ⟨fun hg => (hall g).1 fun hm => ?_, fun hg => ?_,
        fun hg hg' => ?_⟩⟩
      · exact hg (List.mem_cons_of_mem _ hm)
      · exact (hall g).2.1 (hg.imp_left fun hc hm => hc (List.mem_cons_of_mem _ hm))
      · rcases List.mem_cons.1 hg with rfl | hg
        · exact absurd hnew hg'
        · exact (hall g).2.2 hg hg'
    · have hstep : s.forceBuyback (b :: buyback) = ({ s with
          tables := (s.tables.delInventoryByItem b).delItemInstance b }.fSetState b
            .new).forceBuyback buyback := by
        unfold forceBuyback
        rw [List.foldl_cons, if_neg hnew]
      obtain ⟨hqueue, hpos, hdel, hall⟩ := @ih ({ s with
        tables := (s.tables.delInventoryByItem b).delItemInstance b }.fSetState b .new)
      rw [hstep]
      refine ⟨hqueue, hpos, hdel, fun g => ?_⟩
      by_cases hb : g = b
      · subst hb
        obtain ⟨-, hkeep, -⟩ := hall g
        have hrow := (hkeep (.inr (Function.update_self ..))).1
        refine ⟨fun hg => absurd List.mem_cons_self hg, fun hg => ?_, fun _ _ => ?_⟩
        · exact absurd (hg.resolve_left fun hc => hc List.mem_cons_self) hnew
        · rw [hrow]
          exact Function.update_self ..
      · obtain ⟨hstate, hkeep, hgone⟩ := hall g
        have hstate' : ({ s with
            tables := (s.tables.delInventoryByItem b).delItemInstance b }.fSetState b
              .new).state g = s.state g := Function.update_of_ne hb ..
        rw [hstate'] at hstate hkeep hgone
        refine ⟨fun hg => hstate fun hm => hg (List.mem_cons_of_mem _ hm), fun hg => ?_,
          fun hg => hgone ((List.mem_cons.1 hg).resolve_left hb)⟩
        obtain ⟨hrow, hrow'⟩ :=
          hkeep (hg.imp_left fun hc hm => hc (List.mem_cons_of_mem _ hm))
        exact ⟨hrow.trans (Function.update_of_ne hb ..),
          hrow'.trans (Function.update_of_ne hb ..)⟩

/-- `uQueuePos` is the position of the item in the queue. -/
def QueueOk (s : SaveState) : Prop :=
  ∀ g k, s.queuePos g = some k → s.queue[k]? = some (some g)

theorem QueueOk.mem (hq : s.QueueOk) (hg : s.queuePos g ≠ none) : some g ∈ s.queue := by
  obtain ⟨k, hk⟩ := Option.ne_none_iff_exists'.1 hg
  exact List.mem_of_getElem? (hq g k hk)

theorem QueueOk.saveToDB (hq : s.QueueOk) (hr : s.state g ≠ .removed) :
    (s.saveToDB o g).QueueOk := by
  intro h k hk
  rw [saveToDB_queue]
  by_cases hne : h = g
  · rw [hne, saveToDB_queuePos hr] at hk
    cases hk
  · rw [(saveToDB_ne hne).2.2.2] at hk
    exact hq h k hk

theorem addToUpdateQueueOf_spec (hq : s.QueueOk) :
    (s.addToUpdateQueueOf g).QueueOk ∧ (s.addToUpdateQueueOf g).queuePos g ≠ none ∧
      (∀ h, some h ∈ s.queue → some h ∈ (s.addToUpdateQueueOf g).queue) ∧
      ∀ h, h ≠ g → (s.addToUpdateQueueOf g).queuePos h = s.queuePos h ∧
        (s.addToUpdateQueueOf g).queue.count (some h) = s.queue.count (some h) := by
  unfold addToUpdateQueueOf
  cases hpos : s.queuePos g with
  | some k => exact ⟨hq, by simp [hpos], fun _ => id, fun h _ => ⟨rfl, rfl⟩⟩
  | none =>
    refine ⟨fun h k hk => ?_, by simp, fun h hm => List.mem_append_left _ hm, fun h hne => ?_⟩
    · dsimp only at hk ⊢
      by_cases hne : h = g
      · rw [hne, Function.update_self, Option.some.injEq] at hk
        rw [← hk, hne]
        simp
      · rw [Function.update_of_ne hne] at hk
        have hget := hq h k hk
        rw [List.getElem?_append_left (List.getElem?_eq_some_iff.1 hget).1]
        exact hget
    · refine ⟨Function.update_of_ne hne .., ?_⟩
      rw [List.count_append, List.count_singleton]
      simp [Ne.symm hne]

theorem removeFromUpdateQueueOf_spec (hq : s.QueueOk) :
    (s.removeFromUpdateQueueOf g).QueueOk ∧ (s.removeFromUpdateQueueOf g).queuePos g = none ∧
      (s.removeFromUpdateQueueOf g).queue.count (some g) +
        (if s.queuePos g = none then 0 else 1) = s.queue.count (some g) ∧
      ∀ h, h ≠ g → (s.removeFromUpdateQueueOf g).queuePos h = s.queuePos h ∧
        (s.removeFromUpdateQueueOf g).queue.count (some h) = s.queue.count (some h) := by
  unfold removeFromUpdateQueueOf
  cases hpos : s.queuePos g with
  | none => exact ⟨hq, hpos, rfl, fun h _ => ⟨rfl, rfl⟩⟩
  | some k =>
    obtain ⟨hk, hget⟩ := List.getElem?_eq_some_iff.1 (hq g k hpos)
    refine ⟨fun h j hj => ?_, Function.update_self .., ?_, fun h hne =>
      ⟨Function.update_of_ne hne .., ?_⟩⟩
    · dsimp only at hj ⊢
      by_cases hne : h = g
      · rw [hne, Function.update_self] at hj
        cases hj
      · rw [Function.update_of_ne hne] at hj
        have hj' := hq h j hj
        have hjk : k ≠ j := by
          rintro rfl
          rw [hq g k hpos] at hj'
          exact hne (Option.some.inj (Option.some.inj hj')).symm
        rw [List.getElem?_set_ne hjk]
        exact hj'
    · have hmem : 0 < s.queue.count (some g) :=
        List.count_pos_iff.2 (hget ▸ List.getElem_mem hk)
      rw [List.count_set hk, hget, if_pos (beq_self_eq_true _), if_neg (by simp),
        if_neg (by simp)]
      omega
    · rw [List.count_set hk, hget, if_neg (by simp [Ne.symm hne]), if_neg (by simp)]
      rfl

theorem removeFromUpdateQueueOf_keeps : (s.removeFromUpdateQueueOf g).tables = s.tables ∧
    (s.removeFromUpdateQueueOf g).deleted = s.deleted ∧
      (s.removeFromUpdateQueueOf g).state = s.state := by
  unfold removeFromUpdateQueueOf
  cases s.queuePos g <;> exact ⟨rfl, rfl, rfl⟩

theorem setState_changed : s.setState g .changed =
    (if s.state g ≠ .new then s.fSetState g .changed else s).addToUpdateQueueOf g := by
  unfold setState
  rw [if_neg (fun hc => ItemUpdateState.noConfusion hc.2), if_pos nofun]

theorem addToUpdateQueueOf_keeps : (s.addToUpdateQueueOf g).tables = s.tables ∧
    (s.addToUpdateQueueOf g).deleted = s.deleted ∧
      (s.addToUpdateQueueOf g).state = s.state := by
  unfold addToUpdateQueueOf
  cases s.queuePos g <;> exact ⟨rfl, rfl, rfl⟩

theorem count_setState_changed : (s.setState g .changed).queue.count (some g) =
    s.queue.count (some g) + if s.queuePos g = none then 1 else 0 := by
  have hadd : ∀ s : SaveState, (s.addToUpdateQueueOf g).queue.count (some g) =
      s.queue.count (some g) + if s.queuePos g = none then 1 else 0 := by
    intro s
    unfold addToUpdateQueueOf
    cases hpos : s.queuePos g <;> simp
  rw [setState_changed, hadd]
  by_cases hnew : s.state g = .new
  · rw [if_neg (not_not.2 hnew)]
  · rw [if_pos hnew]
    rfl

theorem setState_changed_spec (hq : s.QueueOk) :
    (s.setState g .changed).tables = s.tables ∧ (s.setState g .changed).deleted = s.deleted ∧
      (s.setState g .changed).QueueOk ∧ (s.setState g .changed).queuePos g ≠ none ∧
      (s.setState g .changed).state g = (if s.state g = .new then .new else .changed) ∧
      (∀ h, some h ∈ s.queue → some h ∈ (s.setState g .changed).queue) ∧
      ∀ h, h ≠ g → (s.setState g .changed).state h = s.state h ∧
        (s.setState g .changed).queuePos h = s.queuePos h ∧
        (s.setState g .changed).queue.count (some h) = s.queue.count (some h) := by
  rw [setState_changed]
  by_cases hnew : s.state g = .new
  · rw [if_neg (not_not.2 hnew), if_pos hnew]
    obtain ⟨htables, hdel, hstate⟩ := addToUpdateQueueOf_keeps (s := s) (g := g)
    obtain ⟨hq', hpos, hmem, hcount⟩ := addToUpdateQueueOf_spec hq (g := g)
    exact ⟨htables, hdel, hq', hpos, (congrFun hstate g).trans hnew, hmem,
      fun h hne => ⟨congrFun hstate h, hcount h hne⟩⟩
  · rw [if_pos hnew, if_neg hnew]
    obtain ⟨htables, hdel, hstate⟩ :=
      addToUpdateQueueOf_keeps (s := s.fSetState g .changed) (g := g)
    have hq₁ : (s.fSetState g .changed).QueueOk := hq
    obtain ⟨hq', hpos, hmem, hcount⟩ := addToUpdateQueueOf_spec hq₁ (g := g)
    exact ⟨htables, hdel, hq', hpos, (congrFun hstate g).trans (Function.update_self ..), hmem,
      fun h hne => ⟨(congrFun hstate h).trans (Function.update_of_ne hne ..), hcount h hne⟩⟩

/-- Items of the inventory that are touched count as changed; the others stay as they are. -/
theorem touch_spec (touched : List UInt32) (hq : s.QueueOk)
    (hr : ∀ g, o.Stored g → s.state g ≠ .removed) :
    (s.touch o touched).tables = s.tables ∧ (s.touch o touched).deleted = s.deleted ∧
      (∀ g, some g ∈ s.queue → some g ∈ (s.touch o touched).queue) ∧
      (∀ g, ¬ o.Stored g → (s.touch o touched).state g = s.state g ∧
        (s.touch o touched).queue.count (some g) = s.queue.count (some g)) ∧
      ∀ g, o.Stored g →
        ((s.touch o touched).state g = .unchanged ↔ s.state g = .unchanged ∧ g ∉ touched) ∧
        ((s.touch o touched).state g = .changed →
          s.state g = .changed ∨ s.state g = .unchanged) ∧
        (s.touch o touched).state g ≠ .removed ∧
        ((s.touch o touched).state g ≠ .unchanged →
          s.state g ≠ .unchanged ∨ some g ∈ (s.touch o touched).queue) := by
  induction touched generalizing s with
  | nil =>
    exact ⟨rfl, rfl, fun _ => id, fun _ _ => ⟨rfl, rfl⟩, fun g hg =>
      ⟨by simp [touch], fun hc => .inl hc, hr g hg, fun hc => .inl hc⟩⟩
  | cons b touched ih =>
    by_cases hb : o.Stored b
    swap
    · -- the item is not found where it should be, and nothing is done
      have hstep : s.touch o (b :: touched) = s.touch o touched := by
        unfold touch
        rw [List.foldl_cons, if_neg (show ¬ o.itemAt (o.place b) = some b from hb)]
      obtain ⟨htables, hdel, hmem, haway, hin⟩ := ih hq hr
      rw [hstep]
      refine ⟨htables, hdel, hmem, haway, fun g hg => ?_⟩
      have hne : g ≠ b := by
        rintro rfl
        exact hb hg
      simpa [hne] using hin g hg
    · have hstep : s.touch o (b :: touched) = (s.setState b .changed).touch o touched := by
        unfold touch
        rw [List.foldl_cons, if_pos (show o.itemAt (o.place b) = some b from hb)]
      obtain ⟨htables₁, hdel₁, hq₁, hpos₁, hself, hmem₁, hother⟩ :=
        setState_changed_spec hq (g := b)
      have hr₁ : ∀ g, o.Stored g → (s.setState b .changed).state g ≠ .removed := by
        intro g hg
        by_cases hne : g = b
        · rw [hne, hself]
          split_ifs <;> simp
        · rw [(hother g hne).1]
          exact hr g hg
      obtain ⟨htables, hdel, hmem, haway, hin⟩ := ih hq₁ hr₁
      rw [hstep]
      refine ⟨htables.trans htables₁, hdel.trans hdel₁, fun g hg => hmem g (hmem₁ g hg),
        fun g hg => ?_, fun g hg => ?_⟩
      · have hne : g ≠ b := by
          rintro rfl
          exact hg hb
        obtain ⟨hstate, hcount⟩ := haway g hg
        exact ⟨hstate.trans (hother g hne).1, hcount.trans (hother g hne).2.2⟩
      · obtain ⟨hun, hch, hnr, hqueued⟩ := hin g hg
        by_cases hne : g = b
        · subst hne
          -- the touched item itself
          have hne' : (s.setState g .changed).state g ≠ .unchanged := by
            rw [hself]
            split_ifs <;> simp
          refine ⟨?_, fun hc => ?_, hnr, fun _ => .inr (hmem g (hq₁.mem hpos₁))⟩
          · rw [hun]
            simp [hne']
          · have hcase := hch hc
            rw [hself] at hcase
            have hr' := hr g hg
            cases hs : s.state g with
            | unchanged => exact .inr rfl
            | changed => exact .inl rfl
            | new => simp [hs] at hcase
            | removed => exact absurd hs hr'
        · rw [(hother g hne).1] at hun hch hqueued
          refine ⟨hun.trans (and_congr_right fun _ => ?_), hch, hnr, hqueued⟩
          rw [List.mem_cons, not_or, and_iff_right hne]

/-! ### The save -/

/-- What holds of the items before the inventory is saved. -/
structure Tracked (o : Objects) (buyback : List UInt32) (s : SaveState) : Prop where
  queueOk : s.QueueOk
  not_removed : ∀ g, o.Stored g → s.state g ≠ .removed
  queued : ∀ g, o.Stored g → s.state g ≠ .unchanged → some g ∈ s.queue
  row : ∀ g, o.Stored g → s.state g = .unchanged →
    s.tables.instances g = some (o.content g)
  row_isSome : ∀ g, o.Stored g → s.state g = .changed → (s.tables.instances g).isSome
  inBuyback : ∀ g ∈ buyback, ¬ o.Stored g ∧ some g ∉ s.queue
  pending : ∀ g p, ¬ o.Stored g → s.tables.inventory g = some p →
    some g ∈ s.queue ∧ s.Doomed o g ∨ g ∈ buyback ∧ s.state g ≠ .new
  deleted : ∀ g, s.deleted g = false

variable {buyback touched : List UInt32}

/-- The state with which the loop over the queue starts. -/
theorem Tracked.progress (ht : Tracked o buyback s) (touched : List UInt32) :
    let s₀ := (s.forceBuyback buyback).touch o touched
    (∀ g, Progress o s₀ s₀ s₀.queue g) ∧ (∀ g, s₀.deleted g = false) ∧
      (∀ g, o.Stored g → s₀.tables.inventory g = s.tables.inventory g ∧
        (s₀.state g = .unchanged ↔ s.state g = .unchanged ∧ g ∉ touched)) ∧
      (∀ g, ¬ o.Stored g → s₀.queue.count (some g) = s.queue.count (some g)) ∧
      ∀ g, g ∉ buyback → ¬ o.Stored g → s₀.state g = s.state g ∧
        s₀.tables.instances g = s.tables.instances g := by
  obtain ⟨hqueue, hpos, hdel, hforce⟩ := forceBuyback_spec (s := s) buyback
  -- no item of the inventory is in a buyback slot
  have hin : ∀ g, o.Stored g → g ∉ buyback := fun g hg hm => (ht.inBuyback g hm).1 hg
  have hstate : ∀ g, o.Stored g → (s.forceBuyback buyback).state g = s.state g :=
    fun g hg => (hforce g).1 (hin g hg)
  have htables : ∀ g, o.Stored g →
      (s.forceBuyback buyback).tables.inventory g = s.tables.inventory g ∧
        (s.forceBuyback buyback).tables.instances g = s.tables.instances g :=
    fun g hg => (hforce g).2.1 (.inl (hin g hg))
  have hq : (s.forceBuyback buyback).QueueOk := fun g k hk => by
    rw [hpos] at hk
    rw [hqueue]
    exact ht.queueOk g k hk
  have hr : ∀ g, o.Stored g → (s.forceBuyback buyback).state g ≠ .removed := fun g hg => by
    rw [hstate g hg]
    exact ht.not_removed g hg
  obtain ⟨htables₀, hdel₀, hmem, haway, htouch⟩ := touch_spec touched hq hr
  intro s₀
  have hmem' : ∀ g, some g ∈ s.queue → some g ∈ s₀.queue := fun g hg =>
    hmem g (by rwa [hqueue])
  refine ⟨fun g => ?_, fun g => ?_, fun g hg => ⟨?_, ?_⟩, fun g hg => ?_, fun g hg hg' => ⟨?_, ?_⟩⟩
  · exact
      { not_removed := fun hg => (htouch g hg).2.2.1
        queued := fun hg hc => by
          refine ⟨?_, hc⟩
          rcases (htouch g hg).2.2.2 hc with hun | hm
          · rw [hstate g hg] at hun
            exact hmem' g (ht.queued g hg hun)
          · exact hm
        row := fun hg hc => by
          rw [htables₀, (htables g hg).2]
          have hun := ((htouch g hg).1.1 hc).1
          rw [hstate g hg] at hun
          exact ht.row g hg hun
        row_isSome := fun hg hc => by
          rw [htables₀, (htables g hg).2]
          rcases (htouch g hg).2.1 hc with hch | hun
          · rw [hstate g hg] at hch
            exact ht.row_isSome g hg hch
          · rw [hstate g hg] at hun
            rw [ht.row g hg hun]
            rfl
        keep := fun _ hc => hc
        only := fun _ hc => .inl hc
        done := fun _ hc hc' => absurd hc' hc
        pending := fun hg p hc => by
          rw [htables₀] at hc
          -- a row that is left belongs to an item that was not forced
          have hrow : (g ∉ buyback ∨ s.state g = .new) ∧ s.tables.inventory g = some p := by
            by_cases hb : g ∈ buyback ∧ s.state g ≠ .new
            · rw [(hforce g).2.2 hb.1 hb.2] at hc
              cases hc
            · have hb' : g ∉ buyback ∨ s.state g = .new := by
                rwa [not_and_or, not_not] at hb
              rw [((hforce g).2.1 hb').1] at hc
              exact ⟨hb', hc⟩
          rcases ht.pending g p hg hrow.2 with ⟨hm, hd⟩ | ⟨hb, hnew⟩
          · have hb : g ∉ buyback := fun hb => (ht.inBuyback g hb).2 hm
            refine ⟨hmem' g hm, ?_⟩
            unfold Doomed
            rw [(haway g hg).1, (hforce g).1 hb]
            exact hd
          · exact (hrow.1.elim (fun hc => hc hb) hnew).elim }
  · exact (congrFun (hdel₀.trans hdel) g).trans (ht.deleted g)
  · rw [htables₀, (htables g hg).1]
  · rw [(htouch g hg).1, hstate g hg]
  · rw [(haway g hg).2, hqueue]
  · rw [(haway g hg').1, (hforce g).1 hg]
  · rw [htables₀, ((hforce g).2.1 (.inl hg)).2]

/-- **Main result.** After a save every item of the inventory has its row of `item_instance`, and its
place if it had that place before or the save saw it as changed. No other item has a place. -/
theorem saveInventory_spec (ht : Tracked o buyback s)
    (h : s.saveInventory o buyback touched = some s') :
    (∀ g, o.Stored g → s'.tables.instances g = some (o.content g) ∧
      (s'.tables.inventory g = some (o.place g) ↔
        s.tables.inventory g = some (o.place g) ∨ s.state g ≠ .unchanged ∨ g ∈ touched)) ∧
      (∀ g, ¬ o.Stored g → s'.tables.inventory g = none) ∧
      ∀ g, ¬ o.Stored g → some g ∉ s.queue → g ∉ buyback →
        s'.tables.instances g = s.tables.instances g := by
  obtain ⟨hprogress, -, hstored, hcount, haway⟩ := ht.progress touched
  obtain ⟨s₁, hs₁, rfl⟩ := Option.map_eq_some_iff.1 h
  have hend := Progress.saveQueue hprogress hs₁
  refine ⟨fun g hg => ?_, fun g hg => ?_, fun g hg hm hb => ?_⟩
  · have hun : s₁.state g = .unchanged := by
      by_contra hc
      exact List.not_mem_nil ((hend g).queued hg hc).1
    obtain ⟨hinv, hstate⟩ := hstored g hg
    refine ⟨(hend g).row hg hun, ?_⟩
    constructor
    · intro hrow
      refine ((hend g).only hg hrow).imp (fun hc => hinv ▸ hc) fun hc => ?_
      rw [Ne, hstate, not_and_or, not_not] at hc
      exact hc
    · intro hrow
      by_cases hc : ((s.forceBuyback buyback).touch o touched).state g = .unchanged
      · obtain ⟨hs, hnt⟩ := hstate.1 hc
        have hrow' := hrow.resolve_right fun hc => hc.elim (fun hc => hc hs) hnt
        exact (hend g).keep hg (hinv.trans hrow')
      · exact (hend g).done hg hc hun
  · by_contra hc
    obtain ⟨p, hp⟩ := Option.ne_none_iff_exists'.1 hc
    exact List.not_mem_nil ((hend g).pending hg p hp).1
  · have hm' : some g ∉ ((s.forceBuyback buyback).touch o touched).queue := by
      rw [← List.count_eq_zero, hcount g hg]
      exact List.count_eq_zero.2 hm
    exact (saveQueue_instances hm' hs₁).trans (haway g hb hg).2

/-- What a save does to the row of an item outside of the inventory that is still in the queue. -/
theorem saveInventory_outside (ht : Tracked o buyback s)
    (h : s.saveInventory o buyback touched = some s') (hg : ¬ o.Stored g) (hb : g ∉ buyback)
    (hm : some g ∈ s.queue) :
    (s.Doomed o g → s'.tables.instances g = none) ∧
      (s.state g = .unchanged → o.itemAt (o.place g) ≠ none →
        s'.tables.instances g = s.tables.instances g) := by
  obtain ⟨-, -, -, hcount, haway⟩ := ht.progress touched
  obtain ⟨s₁, hs₁, rfl⟩ := Option.map_eq_some_iff.1 h
  obtain ⟨hstate, hrow⟩ := haway g hb hg
  refine ⟨fun hd => ?_, fun hun hat => ?_⟩
  · have hm₀ : some g ∈ ((s.forceBuyback buyback).touch o touched).queue := by
      rw [← List.count_pos_iff, hcount g hg]
      exact List.count_pos_iff.2 hm
    have hd₀ : ((s.forceBuyback buyback).touch o touched).Doomed o g := by
      unfold Doomed
      rw [hstate]
      exact hd
    exact (saveQueue_doomed hd₀ hm₀ hs₁ :)
  · obtain ⟨g', hg'⟩ := Option.ne_none_iff_exists'.1 hat
    have hne : g' ≠ g := by
      rintro rfl
      exact hg hg'
    exact (saveQueue_away hg' hne (hstate.trans hun) hs₁).trans hrow

/-- The save deletes no object twice exactly when what it deletes is in the queue once. -/
theorem saveInventory_isSome_iff (ht : Tracked o buyback s) :
    (s.saveInventory o buyback touched).isSome = true ↔
      ∀ g, ¬ o.Stored g → s.Doomed o g → s.queue.count (some g) ≤ 1 := by
  obtain ⟨hprogress, hdel, -, hcount, haway⟩ := ht.progress touched
  unfold saveInventory
  dsimp only
  rw [Option.isSome_map, saveQueue_isSome_iff]
  refine forall_congr' fun g => ?_
  rw [and_iff_right fun hc => by simp [hdel g] at hc]
  by_cases hg : o.Stored g
  · refine iff_of_true (fun hd => ?_) fun hc => absurd hg hc
    exact absurd hg (hd.not_stored (hprogress g).not_removed)
  · rw [imp_iff_right hg, hcount g hg]
    by_cases hb : g ∈ buyback
    · have hzero : s.queue.count (some g) = 0 := List.count_eq_zero.2 (ht.inBuyback g hb).2
      exact iff_of_true (fun _ => by omega) fun _ => by omega
    · unfold Doomed
      rw [(haway g hb hg).1]

end SaveState

end FaceCore.Saving
