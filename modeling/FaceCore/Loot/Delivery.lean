import FaceCore.Loot.Lists

/-!
# Loot is delivered at most once

Whether each entry that is not free for all is put into an inventory at most once, and each entry
that is free for all at most once per player for whom it is listed and for nobody else.

`LootItemInSlot` lets the flag in a player's own list override the flag of the entry, finds
free-for-all entries also for players who are not listed, and the master looter's request does not
look at the flags at all. So a request keeps the law exactly when what it hands out is `Fresh`: not
looted yet, or listed for the player and not looted by him.

* `AtMostOnce`: the law, read off the record of deliveries;
* `Linked`: how the flags and the record hang together as long as the law lasts;
* `loot_delivered_once_iff`: the law holds along the requests on a filled loot exactly when each of
  them hands out what is fresh.
-/

namespace FaceCore.LootMgr

/-- The listing of an entry for a player, in the list that `FillFFALoot` or `FillQuestLoot` made. -/
def Loot.listing (l : Loot) (e : Entry) (player : UInt32) : Option QuestItem :=
  match e with
  | .item i => (position l.playerFFAItems player i).map Prod.snd
  | .quest i => (position l.playerQuestItems player i).map Prod.snd

/-- The law for one entry: if it is not free for all it is delivered at most once; if it is, at most
once to each player for whom it is listed, and to nobody else. -/
def DeliveredOnce (log : List (Entry × UInt32)) (listing : UInt32 → Option QuestItem) (e : Entry)
    (freeforall : Bool) : Prop :=
  if freeforall then ∀ p, log.count (e, p) ≤ 1 ∧ (listing p = none → (e, p) ∉ log)
  else log.countP (·.1 = e) ≤ 1

/-- Every entry is delivered at most once, to each player for whom it is listed if it is free for
all. -/
def AtMostOnce (s : State) : Prop :=
  ∀ e item, s.loot.itemAt e = some item →
    DeliveredOnce s.log (s.loot.listing e) e item.freeforall

/-- An entry can be handed to a player: it is not free for all and not looted, or it is free for all
and listed for him, and he has not looted it. -/
def Loot.Fresh (l : Loot) (e : Entry) (player : UInt32) : Prop :=
  ∀ item, l.itemAt e = some item →
    if item.freeforall then ∃ q, l.listing e player = some q ∧ q.isLooted = false
    else item.isLooted = false

/-- A call of `StoreLootItem` that puts an item into the inventory takes a fresh entry. -/
def StoreFresh (s : State) (player : UInt32) (lootSlot : ℕ) (canStore : Bool) : Prop :=
  ∀ f, lootItemInSlot s.loot lootSlot player = some f →
    f.isQuest = true ∨ f.item.isBlocked = false → canStore = true → 0 < f.item.count →
      s.loot.Fresh f.entry player

/-- A gift of the master looter that puts an item into the target's inventory is a fresh entry. -/
def GiveFresh (w : World) (s : State) (valid : Bool) (slotid : ℕ) (target : UInt32)
    (canStore : Bool) : Prop :=
  ∀ item, s.loot.itemAt (s.loot.entryOfSlot slotid) = some item → valid = true →
    canStore = true → (item.followLootRules = true → item.allowedForPlayer w target = true) →
      0 < item.count → s.loot.Fresh (s.loot.entryOfSlot slotid) target

/-- The condition on a request. -/
def RequestFresh (w : World) (s : State) : Request → Prop
  | .storeLootItem player lootSlot canStore => StoreFresh s player lootSlot canStore
  | .lootMasterGive valid slotid target canStore => GiveFresh w s valid slotid target canStore

/-- The condition on an event: a request, or an automatic pickup of currency while the loot is
filled, hands out a fresh entry. -/
def EventFresh (w : World) (s : State) : Event → Prop
  | .currency p i canStore => s.loot.picksUp w p i → StoreFresh s p.guid i canStore
  | .request r => RequestFresh w s r
  | _ => True

variable {w : World} {l : Loot} {s : State}

/-! ### Listings -/

theorem listing_setItem (e : Entry) (item : LootItem) (e' : Entry) (p : UInt32) :
    (l.setItem e item).listing e' p = l.listing e' p := by
  cases e <;> cases e' <;> rfl

/-- Marking what `LootItemInSlot` finds as looted by the player changes no other listing, and it is
listed for the player and not looted by him if it is free for all, unless he is not listed at
all. -/
theorem Finds.listing {slot : ℕ} {p : UInt32} {f : Found} (hd : Distinct l.playerQuestItems)
    (h : Finds l slot p f) :
    (∀ e' p', (e', p') ≠ (f.entry, p) →
        (l.mark p f.listed).listing e' p' = l.listing e' p') ∧
      (f.item.freeforall = true →
        (∃ q, l.listing f.entry p = some q ∧ q.isLooted = false ∧
            (l.mark p f.listed).listing f.entry p = some { q with isLooted := true }) ∨
          f.listed = none ∧ l.listing f.entry p = none) := by
  cases h with
  | @quest ql pos q item hfind hq hitem hnew =>
    have hpos := position_of_getElem? hd hfind hq
    have hmark := position_markLooted hpos
    refine ⟨fun e' p' hne => ?_, fun _ => .inl ⟨q, ?_, hnew, ?_⟩⟩
    · cases e' with
      | item i => rfl
      | quest i =>
        simp only [Loot.listing, Loot.mark, hmark]
        rw [if_neg]
        rintro ⟨rfl, rfl⟩
        exact hne rfl
    · simp [Loot.listing, hpos]
    · simp [Loot.listing, Loot.mark, hmark]
  | @ffa pos q item hitem hffa hpos hnew =>
    have hmark := position_markLooted hpos
    refine ⟨fun e' p' hne => ?_, fun _ => .inl ⟨q, ?_, hnew, ?_⟩⟩
    · cases e' with
      | quest i => rfl
      | item i =>
        simp only [Loot.listing, Loot.mark, hmark]
        rw [if_neg]
        rintro ⟨rfl, rfl⟩
        exact hne rfl
    · simp [Loot.listing, hpos]
    · simp [Loot.listing, Loot.mark, hmark]
  | cond hitem hffa hpos =>
    -- conditional entries are listed apart, and the marks there are none of the listings
    refine ⟨fun e' p' _ => by cases e' <;> rfl, fun hf => ?_⟩
    rw [hffa] at hf
    cases hf
  | unlisted hitem hnew hffa =>
    exact ⟨fun _ _ _ => rfl, fun hf => .inr ⟨rfl, by simp [Loot.listing, hffa hf]⟩⟩

/-! ### The record and the flags -/

/-- The flags say what was delivered, as far as there is still something to deliver. -/
structure Linked (s : State) : Prop where
  distinct : Distinct s.loot.playerQuestItems
  log_range : ∀ e p, (e, p) ∈ s.log → (s.loot.itemAt e).isSome
  listed_range : ∀ e p, (s.loot.listing e p).isSome → (s.loot.itemAt e).isSome
  single : ∀ e item, s.loot.itemAt e = some item → item.freeforall = false →
    (item.isLooted = false → ∀ p, (e, p) ∉ s.log) ∧
      (item.isLooted = true → 0 < item.count → ∃ p, (e, p) ∈ s.log)
  shared : ∀ e item p q, s.loot.itemAt e = some item → item.freeforall = true →
    s.loot.listing e p = some q → 0 < item.count → (q.isLooted = true ↔ (e, p) ∈ s.log)

theorem mem_log_deliver {e : Entry} {p : UInt32} {count : ℕ} {x : Entry × UInt32} :
    x ∈ (s.deliver e p count).log ↔ 0 < count ∧ x = (e, p) ∨ x ∈ s.log := by
  unfold State.deliver
  split_ifs with h
  · simp [h]
  · simp [Nat.pos_of_ne_zero h]

theorem atMostOnce_iff : AtMostOnce s ↔ ∀ e b,
    (s.loot.itemAt e).map LootItem.freeforall = some b →
      DeliveredOnce s.log (s.loot.listing e) e b := by
  simp only [AtMostOnce, Option.map_eq_some_iff, forall_exists_index, and_imp,
    forall_apply_eq_imp_iff₂]

theorem deliveredOnce_congr {log : List (Entry × UInt32)} {f g : UInt32 → Option QuestItem}
    {e : Entry} {b : Bool} (h : ∀ p, f p = none ↔ g p = none) :
    DeliveredOnce log f e b ↔ DeliveredOnce log g e b := by
  simp only [DeliveredOnce, h]

/-- One more delivery of an entry. -/
theorem deliveredOnce_cons_iff {log : List (Entry × UInt32)} {f : UInt32 → Option QuestItem}
    {e : Entry} {b : Bool} {p : UInt32} (h : DeliveredOnce log f e b) :
    DeliveredOnce ((e, p) :: log) f e b ↔
      if b then f p ≠ none ∧ (e, p) ∉ log else ∀ p', (e, p') ∉ log := by
  unfold DeliveredOnce at h ⊢
  split_ifs at h ⊢
  · constructor
    · intro h'
      obtain ⟨hcount, hlisted⟩ := h' p
      rw [List.count_cons_self] at hcount
      refine ⟨fun hnone => hlisted hnone List.mem_cons_self, ?_⟩
      rw [← List.count_eq_zero]
      omega
    · rintro ⟨hlisted, hnew⟩ p'
      by_cases hp : p' = p
      · subst hp
        rw [List.count_cons_self, List.count_eq_zero.2 hnew]
        exact ⟨le_rfl, fun hnone => absurd hnone hlisted⟩
      · have hne : (e, p) ≠ (e, p') := fun heq => hp (Prod.mk.inj heq).2.symm
        rw [List.count_cons_of_ne hne, List.mem_cons, or_iff_right hne.symm]
        exact h p'
  · rw [List.countP_cons_of_pos (by simp)]
    constructor
    · intro hle p' hmem
      have hzero : log.countP (·.1 = e) = 0 := by omega
      exact List.countP_eq_zero.1 hzero (e, p') hmem (by simp)
    · intro hnew
      rw [List.countP_eq_zero.2]
      rintro ⟨e', p'⟩ hmem heq
      obtain rfl := of_decide_eq_true heq
      exact hnew p' hmem

/-- What is fresh, read off the record. -/
theorem fresh_iff {e : Entry} {item : LootItem} {p : UInt32} (hs : Linked s)
    (he : s.loot.itemAt e = some item) (hpos : 0 < item.count) :
    s.loot.Fresh e p ↔
      if item.freeforall then s.loot.listing e p ≠ none ∧ (e, p) ∉ s.log
      else ∀ p', (e, p') ∉ s.log := by
  unfold Loot.Fresh
  simp only [he, Option.some.injEq, forall_eq']
  split_ifs with hf
  · cases hq : s.loot.listing e p with
    | none => simp
    | some q =>
      have hflag := hs.shared e item p q he hf hq hpos
      simp only [Option.some.injEq, exists_eq_left', ne_eq, reduceCtorEq, not_false_eq_true,
        true_and, ← hflag, Bool.not_eq_true]
  · have hf' : item.freeforall = false := by simpa using hf
    obtain ⟨hnot, hlooted⟩ := hs.single e item he hf'
    constructor
    · exact hnot
    · intro hnew
      by_contra hl
      obtain ⟨p', hp'⟩ := hlooted (by simpa using hl) hpos
      exact hnew p' hp'

/-- A delivery keeps the law exactly when there is nothing to deliver or it is fresh. -/
theorem atMostOnce_deliver_iff {e : Entry} {item : LootItem} {p : UInt32} {l' : Loot}
    (hs : Linked s) (h : AtMostOnce s) (he : s.loot.itemAt e = some item)
    (hffa : ∀ e', (l'.itemAt e').map LootItem.freeforall =
      (s.loot.itemAt e').map LootItem.freeforall)
    (hlist : ∀ e' p', l'.listing e' p' = none ↔ s.loot.listing e' p' = none) :
    AtMostOnce { s.deliver e p item.count with loot := l' } ↔
      (0 < item.count → s.loot.Fresh e p) := by
  have hlaw : AtMostOnce { s.deliver e p item.count with loot := l' } ↔
      ∀ e' item', s.loot.itemAt e' = some item' →
        DeliveredOnce (s.deliver e p item.count).log (s.loot.listing e') e' item'.freeforall := by
    rw [atMostOnce_iff]
    simp only [hffa, Option.map_eq_some_iff, forall_exists_index, and_imp,
      forall_apply_eq_imp_iff₂]
    exact forall₃_congr fun e' item' _ => deliveredOnce_congr (hlist e')
  rw [hlaw]
  by_cases hc : item.count = 0
  · refine iff_of_true ?_ fun hpos => by omega
    simp only [State.deliver, hc, if_true]
    exact h
  have hpos := Nat.pos_of_ne_zero hc
  have hdeliver : (s.deliver e p item.count).log = (e, p) :: s.log := by
    simp only [State.deliver, hc, if_false]
  rw [hdeliver, imp_iff_right hpos, fresh_iff hs he hpos]
  constructor
  · intro h'
    exact (deliveredOnce_cons_iff (h e item he)).1 (h' e item he)
  · intro hf e' item' he'
    by_cases hne : e' = e
    · subst hne
      obtain rfl := Option.some.inj (he.symm.trans he')
      exact (deliveredOnce_cons_iff (h e' item he)).2 hf
    · have := h e' item' he'
      unfold DeliveredOnce at this ⊢
      split_ifs at this ⊢
      · intro p'
        have hne' : (e, p) ≠ (e', p') := fun heq => hne (Prod.mk.inj heq).1.symm
        rw [List.count_cons_of_ne hne', List.mem_cons, or_iff_right hne'.symm]
        exact this p'
      · rw [List.countP_cons_of_neg (by simpa using Ne.symm hne)]
        exact this

/-! ### One request -/

theorem listing_take (p : UInt32) (f : Found) (e' : Entry) (p' : UInt32) :
    (l.take p f).listing e' p' = (l.mark p f.listed).listing e' p' := by
  have hcount : (l.take p f).listing e' p' =
      (if f.item.freeforall then l.mark p f.listed
        else (l.mark p f.listed).setItem f.entry { f.item with isLooted := true }).listing e' p' := by
    cases e' <;> rfl
  rw [hcount]
  split_ifs
  · rfl
  · rw [listing_setItem]

theorem listing_give (e : Entry) (item : LootItem) (e' : Entry) (p : UInt32) :
    (l.give e item).listing e' p = l.listing e' p := by
  have hcount : (l.give e item).listing e' p =
      (l.setItem e { item with count := 0, isLooted := true }).listing e' p := by
    cases e' <;> rfl
  rw [hcount, listing_setItem]

theorem listing_take_eq_none (p : UInt32) (f : Found) (e' : Entry) (p' : UInt32) :
    (l.take p f).listing e' p' = none ↔ l.listing e' p' = none := by
  rw [listing_take]
  rcases f.listed with _ | pos | pos | pos <;> cases e' <;>
    simp only [Loot.listing, Loot.mark, Option.map_eq_none_iff, position_markLooted_eq_none]

theorem distinct_take (p : UInt32) (f : Found) (h : Distinct l.playerQuestItems) :
    Distinct (l.take p f).playerQuestItems := by
  have hcount : (l.take p f).playerQuestItems = (l.mark p f.listed).playerQuestItems := by
    unfold Loot.take
    dsimp only
    split_ifs
    · rfl
    · cases f.entry <;> rfl
  rw [hcount]
  rcases f.listed with _ | pos | pos | pos
  · exact h
  · exact distinct_markLooted h p pos
  · exact h
  · exact h

theorem linked_storeLootItem {p : UInt32} {slot : ℕ} {canStore : Bool} (hs : Linked s) :
    Linked (storeLootItem s p slot canStore) := by
  rcases storeLootItem_cases s p slot canStore with ⟨heq, -⟩ | ⟨f, hf, -, -, heq⟩ <;> rw [heq]
  · exact hs
  have hfinds := finds_of_lootItemInSlot hf
  have he := hfinds.itemAt
  obtain ⟨hother, hlisted⟩ := hfinds.listing hs.distinct
  -- no item leaves the loot, it is only marked
  have hsome : ∀ e, ((s.loot.take p f).itemAt e).isSome = (s.loot.itemAt e).isSome := by
    intro e
    rw [itemAt_take he]
    by_cases h : e = f.entry
    · rw [if_pos h, h, he]
      rfl
    · rw [if_neg h]
  constructor
  · exact distinct_take p f hs.distinct
  · intro e p' hmem
    rw [hsome]
    rcases mem_log_deliver.1 hmem with ⟨-, heq⟩ | hmem
    · rw [(Prod.mk.inj heq).1, he]
      rfl
    · exact hs.log_range e p' hmem
  · intro e p' hsome'
    rw [hsome]
    refine hs.listed_range e p' ?_
    rw [Option.isSome_iff_ne_none] at hsome' ⊢
    exact mt (listing_take_eq_none p f e p').2 hsome'
  · intro e item hitem hffa
    rw [itemAt_take he] at hitem
    split_ifs at hitem with h1 h2
    · rw [← Option.some.inj hitem, h2] at hffa
      cases hffa
    · obtain rfl := Option.some.inj hitem
      refine ⟨nofun, fun _ hpos => ⟨p, mem_log_deliver.2 (.inl ⟨hpos, by rw [h1]⟩)⟩⟩
    · obtain ⟨hnot, hyes⟩ := hs.single e item hitem hffa
      refine ⟨fun hl p' hmem => ?_, fun hl hpos => ?_⟩
      · rcases mem_log_deliver.1 hmem with ⟨-, heq⟩ | hmem
        · exact h1 (Prod.mk.inj heq).1
        · exact hnot hl p' hmem
      · obtain ⟨p', hp'⟩ := hyes hl hpos
        exact ⟨p', mem_log_deliver.2 (.inr hp')⟩
  · intro e item p' q hitem hffa hq hpos
    rw [itemAt_take he] at hitem
    rw [listing_take] at hq
    -- the entry that was taken, and any other one
    by_cases hsame : (e, p') = (f.entry, p)
    · obtain ⟨rfl, rfl⟩ := Prod.mk.inj hsame
      rw [if_pos rfl] at hitem
      have hf' : f.item.freeforall = true := by
        split_ifs at hitem with h2
        · exact h2
        · rw [← Option.some.inj hitem] at hffa
          exact hffa
      rw [if_pos hf'] at hitem
      obtain rfl := Option.some.inj hitem
      rcases hlisted hf' with ⟨q', -, -, hmarked⟩ | ⟨hnone, hunlisted⟩
      · obtain rfl := Option.some.inj (hmarked.symm.trans hq)
        exact iff_of_true rfl (mem_log_deliver.2 (.inl ⟨hpos, rfl⟩))
      · rw [hnone] at hq
        exact absurd (hunlisted.symm.trans hq) (by simp)
    · rw [hother e p' hsame] at hq
      rw [mem_log_deliver, or_iff_right fun h => hsame h.2]
      split_ifs at hitem with h1 h2
      · obtain rfl := Option.some.inj hitem
        exact hs.shared e f.item p' q (h1 ▸ he) hffa hq hpos
      · rw [← Option.some.inj hitem] at hffa
        exact absurd hffa h2
      · exact hs.shared e item p' q hitem hffa hq hpos

theorem atMostOnce_storeLootItem_iff {p : UInt32} {slot : ℕ} {canStore : Bool} (hs : Linked s)
    (h : AtMostOnce s) :
    AtMostOnce (storeLootItem s p slot canStore) ↔ StoreFresh s p slot canStore := by
  rcases storeLootItem_cases s p slot canStore with ⟨heq, hno⟩ | ⟨f, hf, hb, hc, heq⟩ <;> rw [heq]
  · refine iff_of_true h fun f hf hb hc => ?_
    rw [hno f hf hb] at hc
    cases hc
  · have he := (finds_of_lootItemInSlot hf).itemAt
    rw [atMostOnce_deliver_iff hs h he ?_ (listing_take_eq_none p f)]
    · constructor
      · intro hfresh f' hf' _ _
        obtain rfl := Option.some.inj (hf.symm.trans hf')
        exact hfresh
      · intro hfresh
        exact hfresh f hf hb hc
    · intro e'
      rw [itemAt_take he]
      split_ifs with h1 h2
      · rw [h1, he]
      · rw [h1, he]
        rfl
      · rfl

theorem linked_lootMasterGive {valid : Bool} {slotid : ℕ} {target : UInt32} {canStore : Bool}
    (hs : Linked s) : Linked (lootMasterGive w s valid slotid target canStore) := by
  rcases lootMasterGive_cases w s valid slotid target canStore with
    ⟨heq, -⟩ | ⟨item, he, -, -, -, heq⟩ <;> rw [heq]
  · exact hs
  have hsome : ∀ e, ((s.loot.give (s.loot.entryOfSlot slotid) item).itemAt e).isSome =
      (s.loot.itemAt e).isSome := by
    intro e
    rw [itemAt_give he]
    split_ifs with h
    · rw [h, he]
      rfl
    · rfl
  constructor
  · have hsame : (s.loot.give (s.loot.entryOfSlot slotid) item).playerQuestItems =
        s.loot.playerQuestItems := by
      unfold Loot.give
      cases s.loot.entryOfSlot slotid <;> rfl
    rw [hsame]
    exact hs.distinct
  · intro e p' hmem
    rw [hsome]
    rcases mem_log_deliver.1 hmem with ⟨-, heq⟩ | hmem
    · rw [(Prod.mk.inj heq).1, he]
      rfl
    · exact hs.log_range e p' hmem
  · intro e p' hsome'
    rw [hsome]
    rw [listing_give] at hsome'
    exact hs.listed_range e p' hsome'
  · intro e item' hitem hffa
    rw [itemAt_give he] at hitem
    split_ifs at hitem with h1
    · obtain rfl := Option.some.inj hitem
      exact ⟨nofun, fun _ hpos => absurd hpos (lt_irrefl 0)⟩
    · obtain ⟨hnot, hyes⟩ := hs.single e item' hitem hffa
      refine ⟨fun hl p' hmem => ?_, fun hl hpos => ?_⟩
      · rcases mem_log_deliver.1 hmem with ⟨-, heq⟩ | hmem
        · exact h1 (Prod.mk.inj heq).1
        · exact hnot hl p' hmem
      · obtain ⟨p', hp'⟩ := hyes hl hpos
        exact ⟨p', mem_log_deliver.2 (.inr hp')⟩
  · intro e item' p' q hitem hffa hq hpos
    rw [itemAt_give he] at hitem
    rw [listing_give] at hq
    split_ifs at hitem with h1
    · obtain rfl := Option.some.inj hitem
      exact absurd hpos (lt_irrefl 0)
    · rw [mem_log_deliver, or_iff_right fun h => h1 (Prod.mk.inj h.2).1]
      exact hs.shared e item' p' q hitem hffa hq hpos

theorem atMostOnce_lootMasterGive_iff {valid : Bool} {slotid : ℕ} {target : UInt32}
    {canStore : Bool} (hs : Linked s) (h : AtMostOnce s) :
    AtMostOnce (lootMasterGive w s valid slotid target canStore) ↔
      GiveFresh w s valid slotid target canStore := by
  rcases lootMasterGive_cases w s valid slotid target canStore with
    ⟨heq, hno⟩ | ⟨item, he, hv, hc, hr, heq⟩ <;> rw [heq]
  · exact iff_of_true h fun item he hv hc hr => absurd hr (hno item he hv hc)
  · rw [atMostOnce_deliver_iff hs h he ?_ fun e' p' => by rw [listing_give]]
    · constructor
      · intro hfresh item' he' _ _ _
        obtain rfl := Option.some.inj (he.symm.trans he')
        exact hfresh
      · intro hfresh
        exact hfresh item he hv hc hr
    · intro e'
      rw [itemAt_give he]
      split_ifs with h1
      · rw [h1, he]
        rfl
      · rfl

/-! ### Filling -/

/-- How a step of the filling changes the loot: entries are added, not looted; the others stay but
for the bookkeeping of the filling; and entries are listed for players who had no listing of them,
not looted. -/
structure Grows (l l' : Loot) : Prop where
  distinct : Distinct l.playerQuestItems → Distinct l'.playerQuestItems
  isSome : ∀ e, (l.itemAt e).isSome → (l'.itemAt e).isSome
  itemAt : ∀ e item', l'.itemAt e = some item' →
    (∃ item, l.itemAt e = some item ∧ item'.freeforall = item.freeforall ∧
        item'.isLooted = item.isLooted ∧ item'.count = item.count) ∨
      l.itemAt e = none ∧ item'.isLooted = false
  listing : ∀ e p, l'.listing e p = l.listing e p ∨
    l.listing e p = none ∧ (l'.itemAt e).isSome ∧
      ∃ q, l'.listing e p = some q ∧ q.isLooted = false

theorem Grows.refl (l : Loot) : Grows l l :=
  ⟨id, fun _ => id, fun _ item h => .inl ⟨item, h, rfl, rfl, rfl⟩, fun _ _ => .inl rfl⟩

theorem Grows.trans {l₁ l₂ l₃ : Loot} (h : Grows l₁ l₂) (h' : Grows l₂ l₃) : Grows l₁ l₃ := by
  refine ⟨h'.distinct ∘ h.distinct, fun e => h'.isSome e ∘ h.isSome e, fun e item₃ h₃ => ?_,
    fun e p => ?_⟩
  · rcases h'.itemAt e item₃ h₃ with ⟨item₂, h₂, hf, hl, hc⟩ | ⟨hnone, hl⟩
    · rcases h.itemAt e item₂ h₂ with ⟨item₁, h₁, hf', hl', hc'⟩ | ⟨hnone, hl'⟩
      · exact .inl ⟨item₁, h₁, hf.trans hf', hl.trans hl', hc.trans hc'⟩
      · exact .inr ⟨hnone, hl.trans hl'⟩
    · refine .inr ⟨?_, hl⟩
      by_contra hsome
      have := h.isSome e (Option.isSome_iff_ne_none.2 hsome)
      rw [hnone] at this
      cases this
  · rcases h'.listing e p with heq | ⟨hnone, hsome, q, hq, hl⟩
    · rw [heq]
      rcases h.listing e p with heq' | ⟨hnone', hsome', hq'⟩
      · exact .inl heq'
      · exact .inr ⟨hnone', h'.isSome e hsome', hq'⟩
    · refine .inr ⟨?_, hsome, q, hq, hl⟩
      rcases h.listing e p with heq' | ⟨hnone', -, -⟩
      · rw [← heq', hnone]
      · exact hnone'

/-- Filling keeps the law and the link between flags and record. -/
theorem Grows.keeps {l' : Loot} (hg : Grows s.loot l') (hs : Linked s) (h : AtMostOnce s) :
    Linked { s with loot := l' } ∧ AtMostOnce { s with loot := l' } := by
  have hnew : ∀ e p, s.loot.itemAt e = none → (e, p) ∉ s.log := by
    intro e p hnone hmem
    have := hs.log_range e p hmem
    rw [hnone] at this
    cases this
  constructor
  · constructor
    · exact hg.distinct hs.distinct
    · exact fun e p hmem => hg.isSome e (hs.log_range e p hmem)
    · intro e p hsome
      rcases hg.listing e p with heq | ⟨-, hsome', -⟩
      · rw [show State.loot { s with loot := l' } = l' from rfl, heq] at hsome
        exact hg.isSome e (hs.listed_range e p hsome)
      · exact hsome'
    · intro e item' hitem hffa
      rcases hg.itemAt e item' hitem with ⟨item, h₁, hf, hl, hc⟩ | ⟨hnone, hl⟩
      · rw [hl, hc]
        exact hs.single e item h₁ (hf ▸ hffa)
      · exact ⟨fun _ p => hnew e p hnone, fun hl' => absurd (hl.symm.trans hl') (by decide)⟩
    · intro e item' p q hitem hffa hq hpos
      rcases hg.listing e p with heq | ⟨hnone, -, q', hq', hl'⟩
      · have hq₁ : s.loot.listing e p = some q := heq.symm.trans hq
        rcases hg.itemAt e item' hitem with ⟨item, h₁, hf, hl, hc⟩ | ⟨hnone, -⟩
        · exact hs.shared e item p q h₁ (hf ▸ hffa) hq₁ (hc ▸ hpos)
        · have := hs.listed_range e p (by rw [hq₁]; rfl)
          rw [hnone] at this
          cases this
      · obtain rfl := Option.some.inj (hq'.symm.trans hq)
        refine iff_of_false (by simp [hl']) ?_
        rcases hg.itemAt e item' hitem with ⟨item, h₁, hf, -, -⟩ | ⟨hnone', -⟩
        · have := h e item h₁
          rw [← hf, hffa, DeliveredOnce, if_pos rfl] at this
          exact (this p).2 hnone
        · exact hnew e p hnone'
  · intro e item' hitem
    rcases hg.itemAt e item' hitem with ⟨item, h₁, hf, -, -⟩ | ⟨hnone, -⟩
    · have := h e item h₁
      rw [hf]
      unfold DeliveredOnce at this ⊢
      split_ifs at this ⊢
      · refine fun p => ⟨(this p).1, fun hl => (this p).2 ?_⟩
        rcases hg.listing e p with heq | ⟨hnone, -, -⟩
        · exact heq.symm.trans hl
        · exact hnone
      · exact this
    · unfold DeliveredOnce
      split_ifs
      · intro p
        rw [List.count_eq_zero.2 (hnew e p hnone)]
        exact ⟨Nat.zero_le 1, fun _ => hnew e p hnone⟩
      · rw [List.countP_eq_zero.2]
        · exact Nat.zero_le 1
        · rintro ⟨e', p⟩ hmem heq
          obtain rfl := of_decide_eq_true heq
          exact hnew e' p hnone hmem

/-- A list of items after one more is put at its end. -/
theorem getElem?_push (items : List LootItem) (item : LootItem) (i : ℕ) :
    (items ++ [item])[i]? = items[i]? ∨
      items[i]? = none ∧ (items ++ [item])[i]? = some item := by
  rcases lt_trichotomy i items.length with hi | rfl | hi
  · exact .inl (List.getElem?_append_left hi)
  · exact .inr ⟨by simp, List.getElem?_concat_length⟩
  · exact .inl (by rw [List.getElem?_eq_none (by simp; omega), List.getElem?_eq_none hi.le])

/-- An entry is added, not looted, and nothing is listed. -/
theorem grows_push {l l' : Loot} {item : LootItem} (h : item.isLooted = false)
    (hquest : l'.playerQuestItems = l.playerQuestItems)
    (hffa : l'.playerFFAItems = l.playerFFAItems)
    (hitem : ∀ e, l'.itemAt e = l.itemAt e ∨ l.itemAt e = none ∧ l'.itemAt e = some item) :
    Grows l l' := by
  refine ⟨fun hd => hquest ▸ hd, fun e he => ?_, fun e item' he => ?_, fun e p => .inl ?_⟩
  · rcases hitem e with heq | ⟨-, heq⟩
    · rwa [heq]
    · rw [heq, Option.isSome_some]
  · rcases hitem e with heq | ⟨hnone, heq⟩
    · exact .inl ⟨item', heq ▸ he, rfl, rfl, rfl⟩
    · exact .inr ⟨hnone, Option.some.inj (heq.symm.trans he) ▸ h⟩
  · cases e <;> simp only [Loot.listing, hquest, hffa]

theorem grows_addItem (item : LootStoreItem) (count : ℕ) (l : Loot) :
    Grows l (addItem w l item count) :=
  addItem_induction (Q := Grows l)
    (fun l' _ _ _ hl => hl.trans (grows_push rfl rfl rfl fun
      | .item _ => .inl rfl
      | .quest i => getElem?_push l'.questItems _ i))
    (fun l' _ _ _ hl => hl.trans (grows_push rfl rfl rfl fun
      | .item i => getElem?_push l'.items _ i
      | .quest _ => .inl rfl)) count (Grows.refl l)

/-- Items after an update that is only bookkeeping of the filling. -/
theorem of_updateAt {items : List LootItem} {is : List ℕ} {f : LootItem → LootItem}
    (hf : ∀ item, (f item).freeforall = item.freeforall ∧ (f item).isLooted = item.isLooted ∧
      (f item).count = item.count) {i : ℕ} {item' : LootItem}
    (h : (updateAt items is f)[i]? = some item') :
    ∃ item, items[i]? = some item ∧ item'.freeforall = item.freeforall ∧
      item'.isLooted = item.isLooted ∧ item'.count = item.count := by
  rw [getElem?_updateAt, Option.map_eq_some_iff] at h
  obtain ⟨item, hitem, rfl⟩ := h
  refine ⟨item, hitem, ?_⟩
  split_ifs
  · exact hf item
  · exact ⟨rfl, rfl, rfl⟩

theorem grows_fillLists (p : Looter) (l : Loot) : Grows l (fillLists w l p) := by
  have hblock : ∀ item : LootItem, (p.block item).freeforall = item.freeforall ∧
      (p.block item).isLooted = item.isLooted ∧ (p.block item).count = item.count := by
    intro item
    unfold Looter.block
    split_ifs <;> exact ⟨rfl, rfl, rfl⟩
  have hisSome : ∀ (items : List LootItem) (is : List ℕ) (f : LootItem → LootItem) (i : ℕ),
      ((updateAt items is f)[i]?).isSome = (items[i]?).isSome := by
    intro items is f i
    rw [getElem?_updateAt, Option.isSome_map]
  rw [fillLists_eq]
  refine ⟨fun hd => ?_, fun e he => ?_, fun e item' he => .inl ?_, fun e p' => ?_⟩
  · exact distinct_list hd (nodup_questListed l p)
  · cases e with
    | item i => exact (hisSome _ _ _ i).trans he
    | quest i => exact (hisSome _ _ _ i).trans he
  · cases e with
    | item i => exact of_updateAt (f := LootItem.counted) (fun _ => ⟨rfl, rfl, rfl⟩) he
    | quest i => exact of_updateAt hblock he
  · cases e with
    | item i =>
      rcases position_list (find_of_ffaListed (w := w)) p' i with heq | ⟨hold, hi, pos, q, hq, hl⟩
      · exact .inl (congrArg (Option.map Prod.snd) heq)
      · refine .inr ⟨congrArg (Option.map Prod.snd) hold, ?_, q,
          congrArg (Option.map Prod.snd) hq, hl⟩
        obtain ⟨item, hitem, -⟩ := mem_indices.1 ((ffaListed_sublist l p).mem hi)
        exact (hisSome _ _ _ i).trans (by rw [hitem]; rfl)
    | quest i =>
      rcases position_list (find_of_questListed (w := w)) p' i with heq | ⟨hold, hi, pos, q, hq, hl⟩
      · exact .inl (congrArg (Option.map Prod.snd) heq)
      · refine .inr ⟨congrArg (Option.map Prod.snd) hold, ?_, q,
          congrArg (Option.map Prod.snd) hq, hl⟩
        obtain ⟨item, hitem, -⟩ := mem_indices.1 ((questListed_sublist l p).mem hi)
        exact (hisSome _ _ _ i).trans (by rw [hitem]; rfl)

/-! ### Whole runs -/

/-- Every event keeps flags and record linked while the law lasts. -/
theorem step_linked {e : Event} (hs : Linked s) (h : AtMostOnce s) : Linked (step w s e) := by
  cases e with
  | addItem item count => exact ((grows_addItem item count s.loot).keeps hs h).1
  | fillLists p => exact ((grows_fillLists p s.loot).keeps hs h).1
  | currency p i canStore =>
    rcases currencyTurn_cases w p canStore s i with ⟨heq, -⟩ | ⟨-, heq⟩ <;>
      rw [step, heq]
    · exact hs
    · exact linked_storeLootItem hs
  | request r =>
    cases r with
    | storeLootItem player slot canStore => exact linked_storeLootItem hs
    | lootMasterGive valid slotid target canStore => exact linked_lootMasterGive hs

/-- An event keeps the law exactly when what it hands out is fresh. -/
theorem step_atMostOnce_iff {e : Event} (hs : Linked s) (h : AtMostOnce s) :
    AtMostOnce (step w s e) ↔ EventFresh w s e := by
  cases e with
  | addItem item count =>
    exact iff_of_true ((grows_addItem item count s.loot).keeps hs h).2 trivial
  | fillLists p => exact iff_of_true ((grows_fillLists p s.loot).keeps hs h).2 trivial
  | currency p i canStore =>
    rcases currencyTurn_cases w p canStore s i with ⟨heq, hno⟩ | ⟨hyes, heq⟩ <;>
      rw [step, heq]
    · exact iff_of_true h fun hyes => absurd hyes hno
    · rw [atMostOnce_storeLootItem_iff hs h]
      exact ⟨fun hf _ => hf, fun hf => hf hyes⟩
  | request r =>
    cases r with
    | storeLootItem player slot canStore => exact atMostOnce_storeLootItem_iff hs h
    | lootMasterGive valid slotid target canStore => exact atMostOnce_lootMasterGive_iff hs h

theorem itemAt_new (gold : UInt32) (e : Entry) : (Loot.new gold).itemAt e = none := by
  cases e <;> rfl

theorem linked_new (gold : UInt32) : Linked (State.new gold) := by
  have hnone := itemAt_new gold
  refine ⟨fun r hr => absurd hr Table.not_mem_empty, nofun, fun e p hsome => ?_,
    fun e item hitem => ?_, fun e item p q hitem => ?_⟩
  · cases e <;> cases hsome
  · exact absurd ((hnone e).symm.trans hitem) (by simp)
  · exact absurd ((hnone e).symm.trans hitem) (by simp)

theorem atMostOnce_new (gold : UInt32) : AtMostOnce (State.new gold) := by
  intro e item hitem
  exact absurd ((itemAt_new gold e).symm.trans hitem) (by simp)

/-- The law holds along any run of events exactly when all of them hand out what is fresh. -/
theorem events_once_iff (w : World) (gold : UInt32) (es : List Event) :
    Runs.Along (step w) AtMostOnce (State.new gold) es ↔
      Runs.EachStep (step w) (EventFresh w) (State.new gold) es :=
  Runs.along_iff_eachStep (linked_new gold) (atMostOnce_new gold)
    (fun _ _ hs h _ => step_linked hs h) fun _ _ hs h => step_atMostOnce_iff hs h

/-- **Main result.** Over the filling of a loot for any group and any requests on it, each entry is
delivered at most once, to each player for whom it is listed if it is free for all and to nobody
else, exactly when every automatic pickup of the filling and every request hands out what is
fresh. -/
theorem loot_delivered_once_iff (w : World) (fill : Fill) (reqs : List Request) :
    (Runs.Along (step w) AtMostOnce (State.new fill.gold) (fillEvents w fill) ∧
        Runs.Along (serve w) AtMostOnce (fillLoot w fill) reqs) ↔
      Runs.EachStep (step w) (EventFresh w) (State.new fill.gold) (fillEvents w fill) ∧
        Runs.EachStep (serve w) (RequestFresh w) (fillLoot w fill) reqs := by
  have h := events_once_iff w fill.gold (fillEvents w fill ++ reqs.map Event.request)
  rw [Runs.along_append, Runs.eachStep_append, Runs.along_map, Runs.eachStep_map,
    ← fillLoot_eq_foldl] at h
  exact h

/-- One item with a condition that two players of a group meet. -/
def conditionalFill : Fill where
  gold := 0
  drops := [(⟨1, false, [7]⟩, 1)]
  members :=
    [⟨⟨10, some (.freeForAll, 10)⟩, true, fun _ => true⟩,
      ⟨⟨20, some (.freeForAll, 10)⟩, true, fun _ => true⟩]

/-- An item with a condition is delivered to both players for whom it is listed: the flag in the
second player's list overrides the flag of the entry. -/
theorem loot_conditional_delivered_twice :
    ¬ Runs.Along (serve oneItemWorld) AtMostOnce (fillLoot oneItemWorld conditionalFill)
      [.storeLootItem 10 0 true, .storeLootItem 20 0 true] := by
  intro h
  have honce := atMostOnce_iff.1 (h _ (List.prefix_refl _)) (.item 0) false (by decide)
  simp only [DeliveredOnce, Bool.false_eq_true, if_false] at honce
  revert honce
  decide

end FaceCore.LootMgr
