import FaceCore.Lib.Runs
import FaceCore.Loot.Unlooted
import FaceCore.Player.Refund
import FaceCore.Player.SearchAgain

/-!
# Loot that goes into the bags at once

`Player::AutoStoreLoot`: a loot is filled for a player alone, and each of its entries is stored, at
the requested slot, else in the requested bag, else anywhere. The three attempts go on with one
vector of places, and what an attempt reserves before it fails stays in it. While the loot is filled,
the currency that is free for all is stored already; its slots are asked for again, and
`LootItemInSlot` answers with a null pointer.

* `fillLoot`, `autoStoreLoot`: the functions, for a loot and the items of a player;
* `AllOrNone`: all units of an item are added or none, and no stack outgrows its size;
* `Unmixed`: the attempt that finds places for all units comes after attempts that saw no room;
* `auto_store_loot_iff`: every entry is stored exactly or not at all, if and only if each slot is
  found and its attempts are unmixed.

What is sent, achievements and quests are left out.
-/

namespace FaceCore.Storage.AutoStore

open LootMgr (Looter LootItem LootStoreItem Loot lootItemInSlot getMaxSlotInLootFor)
open Plan Refund

/-- What the functions ask of the server: the item templates, which of them exist, their flags
`ITEM_PROTO_FLAG_PARTY_LOOT` and `ITEM_FLAGS_CU_FOLLOW_LOOT_RULES`, and the answers of
`LootItem::AllowedForPlayer`. -/
structure Server where
  world : World
  known : ℕ → Bool
  partyLoot : ℕ → Bool
  followLootRules : ℕ → Bool
  allowed : UInt32 → List UInt32 → Bool → UInt32 → Bool

/-- The item templates as the loot reads them. -/
def Server.lootWorld (srv : Server) : LootMgr.World where
  template itemid :=
    if srv.known itemid.toNat then
      some ⟨srv.world.maxStack itemid.toNat, srv.partyLoot itemid.toNat,
        srv.followLootRules itemid.toNat, (srv.world.template itemid.toNat).isCurrencyToken⟩
    else none
  allowed := srv.allowed

/-- A loot, and the items of the player who gets it: the next free item guid, and what lies where. -/
structure State where
  loot : Loot
  items : ℕ × Bags

section

variable (srv : Server)

/-- `Player::CanStoreNewItem`, with the places that are in `dest` before. -/
def canStoreNewItem (inv : Bags) (pos : Pos) (dest : List (Pos × ℕ)) (item count : ℕ) :
    StoreAnswer :=
  canStoreInto srv.world inv (srv.known item) (.entry item) pos count dest

/-- `Player::StoreLootItem`, with the items of the player. -/
def storeLootItem (guid : UInt32) (s : State) (lootSlot : ℕ) : State :=
  match lootItemInSlot s.loot lootSlot guid with
  | none => s
  | some f =>
    -- quest items use the blocked field for other purposes
    if !f.isQuest && f.item.isBlocked then s
    else
      let a := canStoreNewItem srv s.items.2 (nullBag, nullSlot) [] f.item.itemid.toNat f.item.count
      match a.res with
      | .error _ => s
      | .ok _ =>
        ⟨s.loot.take guid f, storeNewItem srv.world s.items f.item.itemid.toNat a.dest⟩

/-- One turn of the loop of `FillNotNormalLootFor` over the currency items. -/
def currencyTurn (p : Looter) (s : State) (i : ℕ) : State :=
  match s.loot.itemAt (s.loot.entryOfSlot i) with
  | none => s
  | some item =>
    if !item.isLooted && item.freeforall && item.allowedForPlayer srv.lootWorld p.guid then
      match srv.lootWorld.template item.itemid with
      | none => s
      | some proto => if proto.currencyToken then storeLootItem srv p.guid s i else s
    else s

/-- The loot after the entries `drops` that its template rolls are added and listed for the player. -/
def rolledLoot (p : Looter) (drops : List (LootStoreItem × ℕ)) : Loot :=
  LootMgr.fillLists srv.lootWorld (LootMgr.processed srv.lootWorld ⟨0, drops, []⟩).loot p

/-- `Loot::FillLoot` of a personal loot. -/
def fillLoot (p : Looter) (drops : List (LootStoreItem × ℕ)) (items : ℕ × Bags) : State :=
  (List.range (getMaxSlotInLootFor (rolledLoot srv p drops) p.guid)).foldl (currencyTurn srv p)
    ⟨rolledLoot srv p drops, items⟩

/-- The attempts of `AutoStoreLoot`, which go on with one vector. -/
def findPlaces (inv : Bags) (pos : Pos) (item count : ℕ) : StoreAnswer :=
  let a := canStoreNewItem srv inv pos [] item count
  let a :=
    if a.res ≠ .ok () ∧ pos.2 ≠ nullSlot then
      canStoreNewItem srv inv (pos.1, nullSlot) a.dest item count
    else a
  if a.res ≠ .ok () ∧ pos.1 ≠ nullBag then
    canStoreNewItem srv inv (nullBag, nullSlot) a.dest item count
  else a

/-- The body of the loop of `AutoStoreLoot`, for the item of the slot. -/
def autoStoreItem (pos : Pos) (items : ℕ × Bags) (lootItem : LootItem) : ℕ × Bags :=
  let a := findPlaces srv items.2 pos lootItem.itemid.toNat lootItem.count
  match a.res with
  | .error _ => items
  | .ok _ => storeNewItem srv.world items lootItem.itemid.toNat a.dest

/-- One turn of the loop; `none` is the use of a null pointer. -/
def autoStoreTurn (loot : Loot) (guid : UInt32) (pos : Pos) (items : ℕ × Bags) (i : ℕ) :
    Option (ℕ × Bags) :=
  (lootItemInSlot loot i guid).map fun f => autoStoreItem srv pos items f.item

/-- `Player::AutoStoreLoot` into the requested bag and slot. -/
def autoStoreLoot (p : Looter) (pos : Pos) (drops : List (LootStoreItem × ℕ)) (items : ℕ × Bags) :
    Option (ℕ × Bags) :=
  let s := fillLoot srv p drops items
  (List.range (getMaxSlotInLootFor s.loot p.guid)).foldl
    (Runs.stepOption (autoStoreTurn srv s.loot p.guid pos)) (some s.items)

end

/-! ### What should happen to the entries -/

/-- All units of an item are added, or none, and no stack outgrows its size. -/
structure AllOrNone (W : World) (item count : ℕ) (inv inv' : Bags) : Prop where
  units : (∀ e, unitsOfEntry e inv' = unitsOfEntry e inv + if item = e then count else 0) ∨
    ∀ e, unitsOfEntry e inv' = unitsOfEntry e inv
  outgrown : Stock.NoneOutgrown Item.entry W.maxStack inv inv'

/-- A turn of the filling stores what it finds exactly or not at all. -/
def FilledExactly (srv : Server) (p : Looter) (s : State) (i : ℕ) : Prop :=
  match lootItemInSlot s.loot i p.guid with
  | none => (currencyTurn srv p s i).items = s.items
  | some f => AllOrNone srv.world f.item.itemid.toNat f.item.count s.items.2
      (currencyTurn srv p s i).items.2

/-- A turn of `AutoStoreLoot` finds its entry, and stores it exactly or not at all. -/
def StoredExactly (srv : Server) (loot : Loot) (guid : UInt32) (pos : Pos)
    (s : Option (ℕ × Bags)) (i : ℕ) : Prop :=
  ∀ items, s = some items → ∃ f items', lootItemInSlot loot i guid = some f ∧
    autoStoreTurn srv loot guid pos items i = some items' ∧
      AllOrNone srv.world f.item.itemid.toNat f.item.count items.2 items'.2

/-- Every entry of the loot is stored exactly or not at all. -/
structure Exact (srv : Server) (p : Looter) (pos : Pos) (drops : List (LootStoreItem × ℕ))
    (items : ℕ × Bags) : Prop where
  filled : Runs.EachStep (currencyTurn srv p) (FilledExactly srv p) ⟨rolledLoot srv p drops, items⟩
    (List.range (getMaxSlotInLootFor (rolledLoot srv p drops) p.guid))
  stored : Runs.EachStep
    (Runs.stepOption (autoStoreTurn srv (fillLoot srv p drops items).loot p.guid pos))
    (StoredExactly srv (fillLoot srv p drops items).loot p.guid pos)
    (some (fillLoot srv p drops items).items)
    (List.range (getMaxSlotInLootFor (fillLoot srv p drops items).loot p.guid))

/-- The bags and slots that are tried. -/
def attempts (pos : Pos) : List Pos :=
  pos :: ((if pos.2 ≠ nullSlot then [(pos.1, nullSlot)] else []) ++
    if pos.1 ≠ nullBag then [(nullBag, nullSlot)] else [])

/-- What the attempts at some bags and slots see. -/
def sights (W : World) (inv : Bags) (item : ℕ) (ps : List Pos) : List (List (Pos × ℕ)) :=
  ps.map (seen W inv ((Wanted.entry item).src inv))

/-- The item has a template and the player may have so many of it. -/
def Permitted (srv : Server) (inv : Bags) (item count : ℕ) : Prop :=
  srv.known item = true ∧ (takeMore srv.world item count (heldOf srv.world inv (.entry item))
    (heldInCategoryOf srv.world inv (.entry item))).1 = .ok

/-- The attempt that finds places for all units comes after attempts that saw no room, if the player
may have the units at all. -/
def Unmixed (srv : Server) (inv : Bags) (ps : List Pos) (item count : ℕ) : Prop :=
  0 < count → Permitted srv inv item count → FirstFit count [] (sights srv.world inv item ps)

/-- The condition on a turn: the slot has an entry that is not looted yet, and the attempts to store
it are unmixed. -/
def Clear (srv : Server) (loot : Loot) (guid : UInt32) (pos : Pos) (s : Option (ℕ × Bags)) (i : ℕ) :
    Prop :=
  ∀ items, s = some items → ∃ f, lootItemInSlot loot i guid = some f ∧
    Unmixed srv items.2 (attempts pos) f.item.itemid.toNat f.item.count

/-! ### What the attempts find -/

variable {srv : Server} {inv : Bags} {items : ℕ × Bags} {pos : Pos} {ps : List Pos}
  {dest : List (Pos × ℕ)} {item k : ℕ} {o : Option (List (Pos × ℕ))}

/-- What is known of the places that are found for `k` units of an item by attempts at `ps`. -/
structure Searches (srv : Server) (inv : Bags) (item k : ℕ) (ps : List Pos)
    (o : Option (List (Pos × ℕ))) : Prop where
  goOn : 0 < k → Permitted srv inv item k → o = goOn k [] (sights srv.world inv item ps)
  permitted : o ≠ none → Permitted srv inv item k
  idle : k = 0 → ∀ dest, o = some dest → (dest.map Prod.snd).sum = 0

theorem toOption_plan (a : StoreAnswer) :
    a.plan.toOption = if a.res = .ok () then some a.dest else none := by
  cases h : a.res with
  | ok u => simp [StoreAnswer.plan, h, Except.map, Except.toOption]
  | error res => simp [StoreAnswer.plan, h, Except.map, Except.toOption]

theorem goOn_attempt (hk : 0 < k) (h : Permitted srv inv item k) (dest : List (Pos × ℕ)) (pos : Pos)
    (ps : List Pos) :
    goOn k dest (sights srv.world inv item (pos :: ps)) =
      if (canStoreNewItem srv inv pos dest item k).res = .ok () then
        some (canStoreNewItem srv inv pos dest item k).dest
      else goOn k (canStoreNewItem srv inv pos dest item k).dest (sights srv.world inv item ps) := by
  obtain ⟨hknown, hmore⟩ := h
  have hreports : Reports (canStoreNewItem srv inv pos dest item k) 0
      (refill (seen srv.world inv ((Wanted.entry item).src inv) pos) ⟨dest, k⟩) := by
    unfold canStoreNewItem
    rw [hknown]
    exact canStoreInto_reports hk dest pos hmore
  rw [hreports.dest]
  by_cases hcount :
      (refill (seen srv.world inv ((Wanted.entry item).src inv) pos) ⟨dest, k⟩).count = 0
  · rw [if_pos (hreports.ok.2 ⟨hcount, rfl⟩)]
    exact if_pos hcount
  · rw [if_neg fun hok => hcount (hreports.ok.1 hok).1]
    exact if_neg hcount

theorem permitted_of_canStoreNewItem (h : (canStoreNewItem srv inv pos dest item k).res = .ok ()) :
    Permitted srv inv item k := of_canStoreInto h

theorem sum_canStoreNewItem (h : Permitted srv inv item 0) (dest : List (Pos × ℕ)) (pos : Pos) :
    ((canStoreNewItem srv inv pos dest item 0).dest.map Prod.snd).sum =
      (dest.map Prod.snd).sum := by
  obtain ⟨hknown, hmore⟩ := h
  unfold canStoreNewItem
  rw [hknown]
  exact canStoreInto_zero dest pos hmore

theorem searches_canStoreNewItem (pos : Pos) :
    Searches srv inv item k [pos] (canStoreNewItem srv inv pos [] item k).plan.toOption where
  goOn hk hperm := by
    rw [goOn_attempt hk hperm, toOption_plan]
    rfl
  permitted hne := by
    rw [toOption_plan] at hne
    by_contra hperm
    exact hne (if_neg fun hok => hperm (permitted_of_canStoreNewItem hok))
  idle := by
    rintro rfl dest hdest
    rw [toOption_plan] at hdest
    split_ifs at hdest with hok
    obtain rfl := Option.some.inj hdest
    exact sum_canStoreNewItem (permitted_of_canStoreNewItem hok) [] pos

/-- What every attempt has, with whatever was reserved before. -/
theorem findPlaces_induction {P : StoreAnswer → Prop}
    (hfirst : ∀ pos, P (canStoreNewItem srv inv pos [] item k))
    (hnext : ∀ a pos, P a → P (canStoreNewItem srv inv pos a.dest item k)) (pos : Pos) :
    P (findPlaces srv inv pos item k) := by
  unfold findPlaces
  dsimp only
  split_ifs
  · exact hnext _ _ (hnext _ _ (hfirst pos))
  · exact hnext _ _ (hfirst pos)
  · exact hnext _ _ (hfirst pos)
  · exact hfirst pos

/-- The attempts of `AutoStoreLoot`. -/
theorem searches_findPlaces (pos : Pos) :
    Searches srv inv item k (attempts pos) (findPlaces srv inv pos item k).plan.toOption where
  goOn hk hperm := by
    unfold attempts findPlaces
    rw [goOn_attempt hk hperm, toOption_plan]
    by_cases hfirst : (canStoreNewItem srv inv pos [] item k).res = .ok ()
    · simp [hfirst]
    · -- the bag is tried without the slot if a slot was given, and then everything
      by_cases hslot : pos.2 = nullSlot <;> by_cases hbag : pos.1 = nullBag
      · simp [hfirst, hslot, hbag, sights, goOn]
      · simp only [hfirst, hslot, hbag, not_true_eq_false, and_false, if_false,
          not_false_eq_true, and_true, if_true, List.nil_append, ne_eq]
        rw [goOn_attempt hk hperm]
        rfl
      · simp only [hfirst, hslot, hbag, not_true_eq_false, and_false, if_false,
          not_false_eq_true, and_true, if_true, List.append_nil, ne_eq]
        rw [goOn_attempt hk hperm]
        rfl
      · simp only [hfirst, hslot, hbag, if_false, not_false_eq_true, and_true, if_true,
          List.singleton_append, ne_eq]
        rw [goOn_attempt hk hperm, goOn_attempt hk hperm]
        split_ifs <;> rfl
  permitted hne := by
    rw [toOption_plan] at hne
    by_contra hperm
    refine hne (if_neg fun hok => hperm ?_)
    exact findPlaces_induction (P := fun a => a.res = .ok () → Permitted srv inv item k)
      (fun _ => permitted_of_canStoreNewItem) (fun _ _ _ => permitted_of_canStoreNewItem) pos hok
  idle := by
    rintro rfl dest hdest
    rw [toOption_plan] at hdest
    split_ifs at hdest with hok
    obtain rfl := Option.some.inj hdest
    have hperm : Permitted srv inv item 0 :=
      findPlaces_induction (P := fun a => a.res = .ok () → Permitted srv inv item 0)
        (fun _ => permitted_of_canStoreNewItem) (fun _ _ _ => permitted_of_canStoreNewItem) pos hok
    exact findPlaces_induction (P := fun a => (a.dest.map Prod.snd).sum = 0)
      (fun pos => sum_canStoreNewItem hperm [] pos)
      (fun a pos ha => (sum_canStoreNewItem hperm a.dest pos).trans ha) pos

/-! ### Storing what is found -/

/-- What is stored along the places that are found. -/
def storeFound (srv : Server) (items : ℕ × Bags) (item : ℕ) (o : Option (List (Pos × ℕ))) :
    ℕ × Bags :=
  match o with
  | none => items
  | some dest => storeNewItem srv.world items item dest

theorem roomy_sights {W : World} {next : ℕ} (hd : Distinct next inv) :
    ∀ sp ∈ sights W inv item ps, Roomy (Reserved W inv (newItem next item)) sp := by
  intro sp hsp q hq
  obtain ⟨pos, -, rfl⟩ := List.mem_map.1 hsp
  obtain ⟨hloc, merge, hneed⟩ := sighted_seen pos q hq
  have habs : Absent inv (newItem next item) := absent_newItem hd
  rw [needSpace_congr (absent_null item) habs rfl] at hneed
  exact reserved_of_needSpace hloc (notInside_absent habs q.1) hneed

/-- What is found is stored: `count` units or more. -/
theorem stored_goOn (srv : Server) (hd : Distinct items.1 items.2) (hk : 0 < k) (hlt : k * ps.length < 2 ^ 32)
    (hgo : goOn k [] (sights srv.world items.2 item ps) = some dest) :
    k ≤ (dest.map Prod.snd).sum ∧
      Distinct (storeNewItem srv.world items item dest).1
        (storeNewItem srv.world items item dest).2 ∧
      StoredAlong srv.world (newItem items.1 item) (dest.map Prod.snd).sum dest items.2
        (storeNewItem srv.world items item dest).2 := by
  have hle := le_sum_goOn hgo
  obtain ⟨hwithin, hmax⟩ := within_goOn (roomy_sights hd) (within_start (n := 0)) hgo
  rw [List.map_nil, List.sum_nil, Nat.zero_add] at hle hmax
  have hlen : (sights srv.world items.2 item ps).length = ps.length := List.length_map _
  rw [hlen] at hmax
  exact ⟨hle, storeNewItem_within hd (lt_of_lt_of_le hk hle) (lt_of_le_of_lt hmax hlt) hwithin⟩

theorem storeNewItem_zero (hsum : (dest.map Prod.snd).sum = 0) :
    storeNewItem srv.world items item dest = items := by
  unfold storeNewItem
  simp [hsum]

theorem allOrNone_refl (W : World) (item count : ℕ) (inv : Bags) : AllOrNone W item count inv inv :=
  ⟨.inr fun _ => rfl, fun _ hc => .inr hc⟩

theorem pos_sights (W : World) (inv : Bags) (item : ℕ) (ps : List Pos) :
    ∀ sp ∈ sights W inv item ps, ∀ q ∈ sp, 0 < q.2 := by
  intro sp hsp q hq
  obtain ⟨pos, -, rfl⟩ := List.mem_map.1 hsp
  obtain ⟨-, merge, hneed⟩ := sighted_seen pos q hq
  exact needSpace_pos hneed

theorem unmixed_single : Unmixed srv inv [pos] item k := by
  intro _ _
  unfold sights
  rw [List.map_singleton, FirstFit]
  split_ifs
  · rfl
  · trivial

/-- What is found is stored exactly or not at all if and only if the attempts are unmixed. -/
theorem storeFound_spec (hd : Distinct items.1 items.2) (hlt : k * ps.length < 2 ^ 32)
    (h : Searches srv items.2 item k ps o) :
    Distinct (storeFound srv items item o).1 (storeFound srv items item o).2 ∧
      (AllOrNone srv.world item k items.2 (storeFound srv items item o).2 ↔
        Unmixed srv items.2 ps item k) := by
  have hexact := goOn_exact_iff (k := k) (pos_sights srv.world items.2 item ps)
  cases o with
  | none =>
    refine ⟨hd, iff_of_true (allOrNone_refl _ _ _ _) fun hk hperm => hexact.1 ?_⟩
    rw [← h.goOn hk hperm]
    nofun
  | some dest =>
    have hperm := h.permitted (Option.some_ne_none dest)
    rw [storeFound]
    rcases Nat.eq_zero_or_pos k with hk | hk
    · rw [storeNewItem_zero (h.idle hk dest rfl)]
      refine ⟨hd, iff_of_true (allOrNone_refl _ _ _ _) fun hpos => ?_⟩
      omega
    · -- the units that are stored are those of the places that were found
      have hgo := h.goOn hk hperm
      rw [← hgo] at hexact
      obtain ⟨hle, hdistinct, hstored⟩ := stored_goOn srv hd hk hlt hgo.symm
      refine ⟨hdistinct, ?_⟩
      constructor
      · intro hall _ _
        refine hexact.1 fun dest' hdest' => ?_
        obtain rfl := Option.some.inj hdest'
        have hunits := hstored.units item
        rw [if_pos (show (newItem items.1 item).entry = item from rfl)] at hunits
        rcases hall.units with hadd | hsame
        · have hk' := hadd item
          rw [if_pos rfl] at hk'
          omega
        · have hsame' := hsame item
          omega
      · intro hclear
        have hsum := hexact.2 (hclear hk hperm) dest rfl
        rw [hsum] at hstored
        exact ⟨.inl hstored.units, hstored.outgrown⟩

/-! ### One turn -/

variable {guid : UInt32} {p : Looter} {s : State} {loot : Loot} {i : ℕ}

theorem autoStoreItem_eq (pos : Pos) (items : ℕ × Bags) (lootItem : LootItem) :
    autoStoreItem srv pos items lootItem = storeFound srv items lootItem.itemid.toNat
      (findPlaces srv items.2 pos lootItem.itemid.toNat lootItem.count).plan.toOption := by
  rw [toOption_plan]
  unfold autoStoreItem
  dsimp only
  cases h : (findPlaces srv items.2 pos lootItem.itemid.toNat lootItem.count).res with
  | ok u => rw [if_pos rfl, storeFound]
  | error res => rw [if_neg nofun, storeFound]

theorem storeLootItem_cases (srv : Server) (guid : UInt32) (s : State) (lootSlot : ℕ) :
    storeLootItem srv guid s lootSlot = s ∨
      ∃ f, lootItemInSlot s.loot lootSlot guid = some f ∧
        storeLootItem srv guid s lootSlot = ⟨s.loot.take guid f,
          storeFound srv s.items f.item.itemid.toNat (canStoreNewItem srv s.items.2
            (nullBag, nullSlot) [] f.item.itemid.toNat f.item.count).plan.toOption⟩ := by
  unfold storeLootItem
  cases hf : lootItemInSlot s.loot lootSlot guid with
  | none => exact .inl rfl
  | some f =>
    dsimp only
    split_ifs
    · exact .inl rfl
    · cases hres : (canStoreNewItem srv s.items.2 (nullBag, nullSlot) [] f.item.itemid.toNat
          f.item.count).res with
      | error res => exact .inl rfl
      | ok u =>
        refine .inr ⟨f, rfl, ?_⟩
        rw [toOption_plan, hres, if_pos rfl, storeFound]

theorem currencyTurn_cases (srv : Server) (p : Looter) (s : State) (i : ℕ) :
    currencyTurn srv p s i = s ∨ currencyTurn srv p s i = storeLootItem srv p.guid s i := by
  unfold currencyTurn
  cases s.loot.itemAt (s.loot.entryOfSlot i) with
  | none => exact .inl rfl
  | some item =>
    dsimp only
    split_ifs
    · cases srv.lootWorld.template item.itemid with
      | none => exact .inl rfl
      | some proto =>
        dsimp only
        split_ifs
        · exact .inr rfl
        · exact .inl rfl
    · exact .inl rfl

/-- What the turns keep: the items are told apart, and the counts of the loot are bytes. -/
structure Sound (s : State) : Prop where
  distinct : Distinct s.items.1 s.items.2
  counts : LootMgr.ByteCounts s.loot

theorem currencyTurn_spec (hs : Sound s) :
    Sound (currencyTurn srv p s i) ∧ FilledExactly srv p s i := by
  have hidle : currencyTurn srv p s i = s →
      Sound (currencyTurn srv p s i) ∧ FilledExactly srv p s i := by
    intro heq
    unfold FilledExactly
    rw [heq]
    refine ⟨hs, ?_⟩
    cases lootItemInSlot s.loot i p.guid with
    | none => rfl
    | some f => exact allOrNone_refl _ _ _ _
  rcases currencyTurn_cases srv p s i with heq | heq
  · exact hidle heq
  · rcases storeLootItem_cases srv p.guid s i with hsame | ⟨f, hf, htake⟩
    · exact hidle (heq.trans hsame)
    · have he := (LootMgr.finds_of_lootItemInSlot hf).itemAt
      have hcount := hs.counts _ _ he
      have hsearches : Searches srv s.items.2 f.item.itemid.toNat f.item.count
          [(nullBag, nullSlot)] _ := searches_canStoreNewItem (nullBag, nullSlot)
      obtain ⟨hdistinct, hall⟩ := storeFound_spec hs.distinct
        (by rw [List.length_singleton]; omega) hsearches
      unfold FilledExactly
      rw [heq, htake, hf]
      exact ⟨⟨hdistinct, LootMgr.byteCounts_take hs.counts he⟩, hall.2 unmixed_single⟩

theorem length_attempts (pos : Pos) : (attempts pos).length ≤ 3 := by
  unfold attempts
  split_ifs <;> simp

theorem autoStoreItem_spec {lootItem : LootItem} (hd : Distinct items.1 items.2)
    (hcount : lootItem.count < 256) :
    Distinct (autoStoreItem srv pos items lootItem).1 (autoStoreItem srv pos items lootItem).2 ∧
      (AllOrNone srv.world lootItem.itemid.toNat lootItem.count items.2
          (autoStoreItem srv pos items lootItem).2 ↔
        Unmixed srv items.2 (attempts pos) lootItem.itemid.toNat lootItem.count) := by
  have hlen := length_attempts pos
  have hmul := Nat.mul_le_mul hcount.le hlen
  rw [autoStoreItem_eq]
  exact storeFound_spec hd (by omega) (searches_findPlaces pos)

/-! ### All turns -/

theorem sound_rolledLoot (drops : List (LootStoreItem × ℕ)) (hd : Distinct items.1 items.2) :
    Sound ⟨rolledLoot srv p drops, items⟩ := by
  refine ⟨hd, LootMgr.byteCounts_fillLists ?_ p⟩
  exact LootMgr.byteCounts_fillLoot srv.lootWorld ⟨0, drops, []⟩

theorem sound_fillLoot (drops : List (LootStoreItem × ℕ)) (hd : Distinct items.1 items.2) :
    Sound (fillLoot srv p drops items) :=
  List.foldlRecOn _ _ (sound_rolledLoot drops hd) fun _ hs _ _ => (currencyTurn_spec hs).1

theorem filled_exactly (drops : List (LootStoreItem × ℕ)) (hd : Distinct items.1 items.2)
    (slots : List ℕ) : Runs.EachStep (currencyTurn srv p) (FilledExactly srv p)
      ⟨rolledLoot srv p drops, items⟩ slots :=
  Runs.EachStep.mono_inv (C := fun _ _ => True) (I := Sound) (fun _ _ _ => trivial)
    (sound_rolledLoot drops hd) (fun _ _ hs _ => (currencyTurn_spec hs).1)
    fun _ _ hs _ => (currencyTurn_spec hs).2

theorem storedExactly_iff {r : Option (ℕ × Bags)} (hr : ∀ items, r = some items → Distinct items.1 items.2)
    (hloot : LootMgr.ByteCounts loot) :
    StoredExactly srv loot guid pos r i ↔ Clear srv loot guid pos r i := by
  refine forall₂_congr fun items hitems => exists_congr fun f => ?_
  constructor
  · rintro ⟨items', hf, hturn, hall⟩
    have hcount := hloot _ _ (LootMgr.finds_of_lootItemInSlot hf).itemAt
    rw [autoStoreTurn, hf, Option.map_some] at hturn
    obtain rfl := Option.some.inj hturn
    exact ⟨hf, (autoStoreItem_spec (hr items hitems) hcount).2.1 hall⟩
  · rintro ⟨hf, hclear⟩
    have hcount := hloot _ _ (LootMgr.finds_of_lootItemInSlot hf).itemAt
    refine ⟨autoStoreItem srv pos items f.item, hf, ?_, ?_⟩
    · rw [autoStoreTurn, hf, Option.map_some]
    · exact (autoStoreItem_spec (hr items hitems) hcount).2.2 hclear

theorem distinct_autoStoreTurn {items' : ℕ × Bags} (hd : Distinct items.1 items.2)
    (hloot : LootMgr.ByteCounts loot) (h : autoStoreTurn srv loot guid pos items i = some items') :
    Distinct items'.1 items'.2 := by
  obtain ⟨f, hf, rfl⟩ := Option.map_eq_some_iff.1 h
  have hcount := hloot _ _ (LootMgr.finds_of_lootItemInSlot hf).itemAt
  exact (autoStoreItem_spec hd hcount).1

/-- The turns of `AutoStoreLoot`, for any loot with counts that are bytes. -/
theorem eachStep_storedExactly_iff (hd : Distinct items.1 items.2)
    (hloot : LootMgr.ByteCounts loot) (slots : List ℕ) :
    Runs.EachStep (Runs.stepOption (autoStoreTurn srv loot guid pos))
        (StoredExactly srv loot guid pos) (some items) slots ↔
      Runs.EachStep (Runs.stepOption (autoStoreTurn srv loot guid pos))
        (Clear srv loot guid pos) (some items) slots := by
  refine Runs.eachStep_iff
    (I := fun r => ∀ items : ℕ × Bags, r = some items → Distinct items.1 items.2) ?_ ?_ ?_
  · intro items' hitems'
    obtain rfl := Option.some.inj hitems'
    exact hd
  · intro r i hr _ items' hitems'
    obtain ⟨items'', hr', hturn⟩ := Option.bind_eq_some_iff.1 hitems'
    exact distinct_autoStoreTurn (hr items'' hr') hloot hturn
  · exact fun r i hr => storedExactly_iff hr hloot

/-! ### Slots that are found -/

/-- No entry is currency that the player picks up while the loot is filled. -/
def NoCurrency (srv : Server) (p : Looter) (drops : List (LootStoreItem × ℕ)) : Prop :=
  ∀ i, ¬ (rolledLoot srv p drops).picksUp srv.lootWorld p i

theorem currencyTurn_of_not_picksUp (h : ¬ s.loot.picksUp srv.lootWorld p i) :
    currencyTurn srv p s i = s := by
  unfold currencyTurn
  cases hitem : s.loot.itemAt (s.loot.entryOfSlot i) with
  | none => rfl
  | some item =>
    dsimp only
    split_ifs with htest
    · simp only [Bool.and_eq_true, Bool.not_eq_true'] at htest
      cases hproto : srv.lootWorld.template item.itemid with
      | none => rfl
      | some proto =>
        dsimp only
        refine if_neg fun hcur => h ?_
        exact ⟨item, proto, hitem, htest.1.1, htest.1.2, htest.2, hproto, hcur⟩
    · rfl

theorem fillLoot_of_noCurrency {drops : List (LootStoreItem × ℕ)} (h : NoCurrency srv p drops)
    (items : ℕ × Bags) : fillLoot srv p drops items = ⟨rolledLoot srv p drops, items⟩ := by
  have hturn : ∀ i, currencyTurn srv p ⟨rolledLoot srv p drops, items⟩ i =
      ⟨rolledLoot srv p drops, items⟩ := fun i => currencyTurn_of_not_picksUp (h i)
  unfold fillLoot
  exact List.foldl_fixed' hturn _

/-- Nothing in the loot is looted, and what is listed for the player is there. -/
structure Untouched (l : Loot) (guid : UInt32) : Prop where
  items : l.All fun item => item.isLooted = false
  quest : ∀ r, l.playerQuestItems.find guid = some r → ∀ q ∈ r.2,
    q.isLooted = false ∧ q.index < l.questItems.length
  ffa : ∀ r, l.playerFFAItems.find guid = some r → ∀ q ∈ r.2, q.isLooted = false
  cond : ∀ r, l.playerNonQuestNonFFAConditionalItems.find guid = some r → ∀ q ∈ r.2,
    q.isLooted = false

theorem isLooted_of_position {m : LootMgr.QuestItemMap} {pos : ℕ} {q : LootMgr.QuestItem}
    (hm : ∀ r, m.find guid = some r → ∀ q ∈ r.2, q.isLooted = false)
    (hpos : LootMgr.position m guid i = some (pos, q)) : q.isLooted = false := by
  obtain ⟨ql, hfind, -, hq, -⟩ := LootMgr.position_eq_some hpos
  exact hm _ hfind q (List.mem_of_getElem? hq)

/-- In a loot that is untouched every slot of the player is found. -/
theorem found_of_untouched (h : Untouched loot guid) (hi : i < getMaxSlotInLootFor loot guid) :
    ∃ f, lootItemInSlot loot i guid = some f := by
  unfold getMaxSlotInLootFor at hi
  unfold lootItemInSlot
  by_cases hslot : loot.items.length ≤ i
  · rw [if_pos hslot]
    -- the quest items follow those of the loot
    cases hfind : loot.playerQuestItems.find guid with
    | none =>
      rw [hfind] at hi
      dsimp only at hi
      omega
    | some r =>
      rw [hfind] at hi
      have hlt : i - loot.items.length < r.2.length := by
        dsimp only at hi
        omega
      obtain ⟨hnew, hindex⟩ := h.quest r hfind _ (List.getElem_mem hlt)
      simp [List.getElem?_eq_getElem hlt, List.getElem?_eq_getElem hindex, hnew]
  · have hlt : i < loot.items.length := not_le.1 hslot
    have hnew := h.items (.item i) _ (List.getElem?_eq_getElem hlt)
    rw [if_neg hslot, List.getElem?_eq_getElem hlt]
    dsimp only
    split
    · next x listed q hfound =>
      -- the lists of the player say nothing of an item that nobody has taken
      have hq : q.isLooted = false := by
        split_ifs at hfound
        · obtain ⟨y, hy, heq⟩ := Option.map_eq_some_iff.1 hfound
          obtain ⟨-, rfl⟩ := Prod.mk.inj heq
          exact isLooted_of_position h.ffa hy
        · obtain ⟨y, hy, heq⟩ := Option.map_eq_some_iff.1 hfound
          obtain ⟨-, rfl⟩ := Prod.mk.inj heq
          exact isLooted_of_position h.cond hy
      rw [hq]
      exact ⟨_, rfl⟩
    · rw [hnew]
      exact ⟨_, rfl⟩

theorem find_list {m : LootMgr.QuestItemMap} {is : List ℕ} {r : UInt32 × List LootMgr.QuestItem}
    {q : LootMgr.QuestItem} (hm : m = Table.empty _) (hr : (m.list p.guid is).find guid = some r)
    (hq : q ∈ r.2) : q.isLooted = false ∧ q.index ∈ is := by
  subst hm
  unfold LootMgr.QuestItemMap.list at hr
  split_ifs at hr
  · cases hr
  · rw [Table.find_insert] at hr
    split_ifs at hr
    · obtain rfl := Option.some.inj hr
      obtain ⟨j, hj, rfl⟩ := List.mem_map.1 hq
      exact ⟨rfl, hj⟩
    · cases hr

theorem untouched_rolledLoot (drops : List (LootStoreItem × ℕ)) :
    Untouched (rolledLoot srv p drops) guid := by
  have hunlisted := LootMgr.unlisted_processed srv.lootWorld ⟨0, drops, []⟩
  have hnew : (LootMgr.processed srv.lootWorld ⟨0, drops, []⟩).loot.All
      fun item => item.isLooted = false := LootMgr.all_processed (fun _ _ => rfl) _
  have hlists := LootMgr.all_fillLists (w := srv.lootWorld) (fun _ h => h)
    (fun p item h => (LootMgr.isLooted_block p item).trans h) hnew p
  refine ⟨hlists, ?_, ?_, ?_⟩ <;> unfold rolledLoot <;> rw [LootMgr.fillLists_eq]
  · intro r hr q hq
    obtain ⟨hfree, hindex⟩ := find_list hunlisted.quest hr hq
    refine ⟨hfree, ?_⟩
    obtain ⟨item, hitem, -⟩ := LootMgr.mem_indices.1
      ((LootMgr.questListed_sublist _ p).subset hindex)
    exact lt_of_lt_of_eq (List.getElem?_eq_some_iff.1 hitem).1 List.length_mapIdx.symm
  · exact fun r hr q hq => (find_list hunlisted.ffa hr hq).1
  · exact fun r hr q hq => (find_list hunlisted.cond hr hq).1

/-! ### Main result -/

/-- **Main result.** Every entry of the loot is stored exactly or not at all, if and only if each
slot has an entry that was not taken while the loot was filled, and the attempts to store it are
unmixed. -/
theorem auto_store_loot_iff (drops : List (LootStoreItem × ℕ)) (hd : Distinct items.1 items.2) :
    Exact srv p pos drops items ↔ Runs.EachStep
      (Runs.stepOption (autoStoreTurn srv (fillLoot srv p drops items).loot p.guid pos))
      (Clear srv (fillLoot srv p drops items).loot p.guid pos)
      (some (fillLoot srv p drops items).items)
      (List.range (getMaxSlotInLootFor (fillLoot srv p drops items).loot p.guid)) := by
  have hsound : Sound (fillLoot srv p drops items) := sound_fillLoot drops hd
  constructor
  · intro h
    exact (eachStep_storedExactly_iff hsound.distinct hsound.counts _).1 h.stored
  · intro h
    exact ⟨filled_exactly drops hd _,
      (eachStep_storedExactly_iff hsound.distinct hsound.counts _).2 h⟩

/-- Without a requested bag and slot, a loot without such currency is stored exactly. -/
theorem exact_anywhere {drops : List (LootStoreItem × ℕ)} (h : NoCurrency srv p drops)
    (hd : Distinct items.1 items.2) : Exact srv p (nullBag, nullSlot) drops items := by
  have hsound : Sound (fillLoot srv p drops items) := sound_fillLoot drops hd
  refine ⟨filled_exactly drops hd _,
    (eachStep_storedExactly_iff hsound.distinct hsound.counts _).2 fun pre i hpre items' _ => ?_⟩
  have hmem := hpre.subset (List.mem_append_right pre List.mem_cons_self)
  rw [fillLoot_of_noCurrency h] at hmem ⊢
  obtain ⟨f, hf⟩ := found_of_untouched (untouched_rolledLoot drops) (List.mem_range.1 hmem)
  exact ⟨f, hf, unmixed_single⟩

/-- Bags with one slot, goods in stacks of twenty, and goods that are not stacked. -/
def bagsAndGoods : World where
  template entry :=
    if entry = 5 then ⟨.container, 0, .bag, 0, 1, 0, 0, 1, by decide, false, false⟩
    else ⟨.other 7, 0, .nonEquip, 0, if entry = 7 then 20 else 1, 0, 0, 0, noSlots_le, false, false⟩
  limitCategory _ := none
  isBindedNotWith _ := false

/-- A server with templates for all entries, where anybody may loot anything. -/
def goodsServer : Server := ⟨bagsAndGoods, fun _ => true, fun _ => false, fun _ => false,
  fun _ _ _ _ => true⟩

/-- A player who is in no group. -/
def finder : Looter := ⟨1, none⟩

/-- Five units of entry 7. -/
def fiveGoods : List (LootStoreItem × ℕ) := [(⟨7, false, []⟩, 5)]

/-- A piece of entry 9 besides. -/
def goodsAndPiece : List (LootStoreItem × ℕ) := fiveGoods ++ [(⟨9, false, []⟩, 1)]

/-- Two stacks of entry 7 that are not full, one of them in the bag, and a piece of entry 9. -/
def traveller : ℕ × Bags :=
  (5, ⟨[⟨.slot 19, ⟨1, 5, false, []⟩, 1⟩, ⟨.inBag 1 0, ⟨2, 7, false, []⟩, 18⟩,
    ⟨.slot 23, ⟨3, 9, false, []⟩, 1⟩, ⟨.slot 24, ⟨4, 7, false, []⟩, 17⟩], by decide⟩)

theorem distinct_traveller : Distinct traveller.1 traveller.2 := ⟨by decide, by decide⟩

theorem exact_anywhere_sample :
    Exact goodsServer finder (nullBag, nullSlot) goodsAndPiece traveller := by
  refine exact_anywhere ?_ distinct_traveller
  rintro i ⟨item, _, -, -, -, -, ⟨⟩, hcur⟩
  dsimp only [goodsServer, bagsAndGoods] at hcur
  split_ifs at hcur <;> cases hcur

/-- Both stacks are filled up, and the piece has a slot of its own. -/
example : (autoStoreLoot goodsServer finder (nullBag, nullSlot) goodsAndPiece traveller).map
    (fun items => items.2.toList.map fun c => (c.loc, c.item.entry, c.count)) =
      some [(.slot 25, 9, 1), (.slot 19, 5, 1), (.inBag 1 0, 7, 20), (.slot 23, 9, 1),
        (.slot 24, 7, 20)] := by
  decide +kernel

/-- A full backpack and two bags, one with eighteen units of entry 7 and one that is empty. -/
def packed : ℕ × Bags :=
  (19, ⟨(List.range 16).map (fun j => ⟨.slot (23 + j), ⟨j, 9, false, []⟩, 1⟩) ++
    [⟨.slot 19, ⟨16, 5, false, []⟩, 1⟩, ⟨.slot 20, ⟨17, 5, false, []⟩, 1⟩,
      ⟨.inBag 17 0, ⟨18, 7, false, []⟩, 18⟩], by decide⟩)

/-- A turn is clear if the attempts fit in every state it can meet. -/
theorem clear_of_all {loot : Loot} {guid : UInt32} {i : ℕ} (id : UInt32) (k : ℕ)
    {s : Option (ℕ × Bags)}
    (hfound : (lootItemInSlot loot i guid).map (fun f => (f.item.itemid, f.item.count)) =
      some (id, k))
    (hfit : s.all fun items =>
      decide (FirstFit k [] (sights srv.world items.2 id.toNat (attempts pos)))) :
    Clear srv loot guid pos s i := by
  obtain ⟨f, hf, hitem⟩ := Option.map_eq_some_iff.1 hfound
  obtain ⟨rfl, rfl⟩ := Prod.mk.inj hitem
  rintro items rfl
  exact ⟨f, hf, fun _ _ => of_decide_eq_true hfit⟩

/-- The place of the stack in the bag is asked for. The goods fill up both stacks, and the piece finds
no room there. -/
theorem auto_store_loot_sample : Exact goodsServer finder (19, 0) goodsAndPiece traveller := by
  refine (auto_store_loot_iff goodsAndPiece distinct_traveller).2 ?_
  have hslots : List.range (getMaxSlotInLootFor
      (fillLoot goodsServer finder goodsAndPiece traveller).loot finder.guid) = [0, 1] := by
    decide +kernel
  rw [hslots, Runs.eachStep_cons, Runs.eachStep_cons]
  refine ⟨clear_of_all 7 5 ?_ ?_, clear_of_all 9 1 ?_ ?_, Runs.EachStep.nil _⟩
  all_goals decide +kernel

/-- Five units are looted, and seven are stored: two of them for the attempt that failed. -/
theorem auto_store_loot_exceeds : Distinct packed.1 packed.2 ∧ unitsOfEntry 7 packed.2 = 18 ∧
    (autoStoreLoot goodsServer finder (20, 0) fiveGoods packed).map
      (fun items => unitsOfEntry 7 items.2) = some 25 ∧
    ¬ Exact goodsServer finder (20, 0) fiveGoods packed := by
  have hunits : unitsOfEntry 7 packed.2 = 18 := by decide
  refine ⟨⟨by decide, by decide⟩, hunits, by decide +kernel, fun h => ?_⟩
  obtain ⟨f, items, hf, hturn, hall⟩ := h.stored [] 0 (by decide) _ rfl
  have hfound : (lootItemInSlot (fillLoot goodsServer finder fiveGoods packed).loot 0
      finder.guid).map (fun f => (f.item.itemid, f.item.count)) = some (7, 5) := by decide +kernel
  have hseven : (autoStoreTurn goodsServer (fillLoot goodsServer finder fiveGoods packed).loot
      finder.guid (20, 0) (fillLoot goodsServer finder fiveGoods packed).items 0).map
      (fun items => unitsOfEntry 7 items.2) = some 25 := by decide +kernel
  have hbefore : unitsOfEntry 7 (fillLoot goodsServer finder fiveGoods packed).items.2 = 18 := by
    decide +kernel
  rw [hf, Option.map_some] at hfound
  rw [hturn, Option.map_some] at hseven
  obtain ⟨hid, hcount⟩ := Prod.mk.inj (Option.some.inj hfound)
  have hafter := Option.some.inj hseven
  rcases hall.units with hadd | hsame
  · have hadd7 := hadd 7
    rw [hid, hcount, hbefore, hafter] at hadd7
    exact absurd hadd7 (by decide)
  · have hsame7 := hsame 7
    rw [hbefore, hafter] at hsame7
    exact absurd hsame7 (by decide)

end FaceCore.Storage.AutoStore
