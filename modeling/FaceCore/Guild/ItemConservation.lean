import FaceCore.Guild.BankItems

/-!
# The guild bank conserves items

Every call of `SwapItems` and `SwapItemsWithInventory` keeps the units of every entry in bank and
inventory together, keeps every stack within its size, and changes nothing if the move is refused.

* `bankCanStore_ok`: the plan of the bank reserves only what there is room for;
* `FitsAt`: a plan fits at an endpoint; `canStore_fits`, `canStore_swap`: the plans of `CanStore`
  fit once the items that leave have left;
* `Holds`, `removeItem_whole`, `removeItem_split`, `storeItem_fits`: what the operations of an
  endpoint do to the holdings;
* `guild_bank_items_conserved`: the calls.
-/

namespace FaceCore.Storage.GuildItems

variable {G : Guild} {bank bank₀ : Bank} {st st₀ : Holdings} {item : Item} {tabId slotId k n next : ℕ}
  {plan plan' : Plan Pos} {dest : List (Pos × ℕ)} {merge : Bool} {ep other : Endpoint}

/-! ### The plan of the bank -/

/-- In a slot of the tab there is room for `k` units of `item` once it left its own slot. -/
structure BankReserved (G : Guild) (bank : Bank) (item : Item) (tabId : ℕ) (pos : Pos) (k : ℕ) :
    Prop where
  bag : pos.1 = 0
  slot_lt : pos.2 < guildBankMaxSlots
  count_pos : 0 < k
  le : k ≤ G.world.maxStack item.entry
  other : ∀ c, otherItem G bank item tabId pos.2 = some c →
    c.item.entry = item.entry ∧ c.count + k ≤ G.world.maxStack item.entry

theorem reserveSpace_within (h : plan.Within (BankReserved G bank item tabId) n)
    (hpos : 0 < plan.count) (hslot : slotId < guildBankMaxSlots)
    (hres : reserveSpace G item slotId (otherItem G bank item tabId slotId) plan = some plan') :
    plan'.Within (BankReserved G bank item tabId) n := by
  unfold reserveSpace at hres
  have hmax := maxStack_pos G.world item.entry
  cases ho : otherItem G bank item tabId slotId with
  | none =>
    simp only [ho, Option.some.injEq] at hres
    subst hres
    refine h.reserve ⟨rfl, hslot, lt_min hmax hpos, min_le_left _ _, fun c hc => ?_⟩
    cases ho.symm.trans hc
  | some c =>
    simp only [ho] at hres
    split_ifs at hres with hc
    obtain rfl := Option.some.inj hres
    rw [not_or, not_not, not_le] at hc
    refine h.reserve ⟨rfl, hslot, lt_min (Nat.sub_pos_of_lt hc.2) hpos, ?_, fun c' hc' => ?_⟩
    · exact (min_le_left _ _).trans (Nat.sub_le _ _)
    · obtain rfl : c = c' := Option.some.inj (ho.symm.trans hc')
      refine ⟨hc.1, ?_⟩
      have hmin := min_le_left (G.world.maxStack item.entry - c.count) plan.count
      omega

theorem canStoreItemInTab_within {slots : List ℕ} {skipSlotId : ℕ}
    (h : plan.Within (BankReserved G bank item tabId) n)
    (hslots : ∀ slot ∈ slots, slot < guildBankMaxSlots) :
    (canStoreItemInTab G bank item tabId skipSlotId merge slots plan).Within
      (BankReserved G bank item tabId) n := by
  induction slots generalizing plan with
  | nil => exact h
  | cons slot slots ih =>
    have hrest := fun s hs => hslots s (List.mem_cons_of_mem slot hs)
    unfold canStoreItemInTab
    by_cases hzero : plan.count = 0
    · rw [if_pos hzero]
      exact h
    rw [if_neg hzero]
    by_cases hskip : slot = skipSlotId
    · rw [if_pos hskip]
      exact ih h hrest
    rw [if_neg hskip]
    by_cases hmerge : (otherItem G bank item tabId slot).isSome ≠ merge
    · simp only [if_pos hmerge]
      exact ih h hrest
    · simp only [if_neg hmerge]
      refine ih ?_ hrest
      cases hres : reserveSpace G item slot (otherItem G bank item tabId slot) plan with
      | none => exact h
      | some plan' =>
        exact reserveSpace_within h (Nat.pos_of_ne_zero hzero) (hslots slot List.mem_cons_self) hres

theorem bankCanStore_ok (hk : 0 < k) (hslot : slotId < guildBankMaxSlots ∨ slotId = nullSlot)
    (h : bankCanStore G bank tabId slotId item k false = .ok dest) :
    tabId < G.purchasedTabs ∧
      Plan.Within (BankReserved G bank item tabId) k ⟨dest, 0⟩ := by
  unfold bankCanStore at h
  by_cases hbound : G.isSoulBound item = true
  · rw [if_pos hbound] at h
    cases h
  rw [if_neg hbound] at h
  by_cases htab : G.purchasedTabs ≤ tabId
  · rw [if_pos htab] at h
    cases h
  rw [if_neg htab] at h
  refine ⟨not_le.1 htab, ?_⟩
  have hdone : ∀ p : Plan Pos, p.count = 0 → p.Within (BankReserved G bank item tabId) k →
      Plan.Within (BankReserved G bank item tabId) k ⟨p.dest, 0⟩ := by
    intro p hp hw
    rw [← hp]
    exact hw
  have hall : ∀ slot ∈ List.range guildBankMaxSlots, slot < guildBankMaxSlots :=
    fun slot hs => List.mem_range.1 hs
  cases hs : reserveSpecific G bank tabId slotId item k false with
  | none =>
    rw [hs] at h
    cases h
  | some p =>
    have hp : p.Within (BankReserved G bank item tabId) k := by
      unfold reserveSpecific at hs
      by_cases hne : slotId ≠ nullSlot
      · rw [if_pos hne] at hs
        exact reserveSpace_within Plan.within_start hk (hslot.resolve_right hne) hs
      · rw [if_neg hne] at hs
        obtain rfl := Option.some.inj hs
        exact Plan.within_start
    have hmerged : (if 1 < G.world.maxStack item.entry then
        canStoreItemInTab G bank item tabId slotId true (List.range guildBankMaxSlots) p
        else p).Within (BankReserved G bank item tabId) k := by
      split_ifs
      · exact canStoreItemInTab_within hp hall
      · exact hp
    simp only [hs] at h
    generalize (if 1 < G.world.maxStack item.entry then
      canStoreItemInTab G bank item tabId slotId true (List.range guildBankMaxSlots) p
      else p) = merged at h hmerged
    split_ifs at h with h1 h2 h3
    · obtain rfl := Except.ok.inj h
      exact hdone p h1.2 hp
    · obtain rfl := Except.ok.inj h
      exact hdone merged h2.2 hmerged
    · obtain rfl := Except.ok.inj h
      exact hdone _ h3 (canStoreItemInTab_within hmerged hall)

theorem bankCanStore_swap (hslot : slotId < guildBankMaxSlots)
    (hle : k ≤ G.world.maxStack item.entry)
    (h : bankCanStore G bank tabId slotId item k true = .ok dest) :
    tabId < G.purchasedTabs ∧ dest = [((0, slotId), k)] := by
  unfold bankCanStore at h
  by_cases hbound : G.isSoulBound item = true
  · rw [if_pos hbound] at h
    cases h
  rw [if_neg hbound] at h
  by_cases htab : G.purchasedTabs ≤ tabId
  · rw [if_pos htab] at h
    cases h
  rw [if_neg htab] at h
  have hne : slotId ≠ nullSlot := by
    rintro rfl
    exact absurd hslot (by decide)
  have hspecific : reserveSpecific G bank tabId slotId item k true =
      some ⟨[((0, slotId), k)], 0⟩ := by
    unfold reserveSpecific reserveSpace
    simp only [hne, ne_eq, not_false_eq_true, if_true, Plan.reserve_start, min_eq_right hle,
      Nat.sub_self]
  simp only [hspecific, hne, ne_eq, not_false_eq_true, and_self, if_true, Except.ok.injEq] at h
  exact ⟨not_le.1 htab, h.symm⟩

/-! ### Storing in the bank -/

/-- The places of the positions of a plan for a tab. -/
def bankPlaces (tabId : ℕ) (dest : List (Pos × ℕ)) : List ((ℕ × ℕ) × ℕ) :=
  dest.map fun q => ((tabId, q.1.2), q.2)

theorem getItem_eq (htab : tabId < G.purchasedTabs) (hslot : slotId < guildBankMaxSlots) :
    getItem G bank tabId slotId = bank.find (tabId, slotId) := if_pos ⟨htab, hslot⟩

theorem bankStoreItemAt_eq {pos : Pos} {clone : Bool} (htab : tabId < G.purchasedTabs)
    (hslot : pos.2 < guildBankMaxSlots) (hk : 0 < k) (hle : k ≤ G.world.maxStack item.entry) :
    bankStoreItemAt G tabId next bank pos item k clone =
      if clone = true ∧ bank.find (tabId, pos.2) = none then
        (next + 1, bank.put (tabId, pos.2) (copyOf item next) k)
      else (next, bank.put (tabId, pos.2) item k) := by
  unfold bankStoreItemAt
  rw [getItem_eq htab hslot]
  cases hf : bank.find (tabId, pos.2) with
  | some c =>
    simp only [Stock.put, hf, (Table.of_find hf).2, reduceCtorEq, and_false, if_false]
  | none =>
    have hcopy : cloneItem G.world item k next = some (copyOf item next, k) := by
      unfold cloneItem copyOf
      rw [if_neg (by omega), min_eq_left hle]
    cases clone with
    | false => simp [Stock.put, hf, hslot]
    | true => simp [Stock.put, hf, hslot, hcopy]

/-- The positions of a plan are slots of the bank. -/
def BankPlaceable (G : Guild) (item : Item) (dest : List (Pos × ℕ)) : Prop :=
  ∀ q ∈ dest, q.1.2 < guildBankMaxSlots ∧ 0 < q.2 ∧ q.2 ≤ G.world.maxStack item.entry

/-- `StoreItem` of the bank executes a plan as the stock does. -/
theorem bankStoreItem_eq (htab : tabId < G.purchasedTabs) (h : BankPlaceable G item dest) :
    bankStoreItem G tabId item next bank dest =
      Stock.store (copyOf item) item next bank (bankPlaces tabId dest) := by
  induction dest generalizing next bank with
  | nil => rfl
  | cons q dest ih =>
    obtain ⟨hslot, hk, hle⟩ := h q List.mem_cons_self
    have hrest : BankPlaceable G item dest := fun r hr => h r (List.mem_cons_of_mem q hr)
    have hplaces : bankPlaces tabId (q :: dest) =
        ((tabId, q.1.2), q.2) :: bankPlaces tabId dest := rfl
    have hempty : (bankPlaces tabId dest).isEmpty = dest.isEmpty := List.isEmpty_map
    rw [hplaces]
    unfold bankStoreItem Stock.store
    simp only [hempty, bankStoreItemAt_eq htab hslot hk hle, Bool.false_eq_true, false_and,
      if_false, true_and]
    by_cases hd : dest.isEmpty = true
    · simp only [hd, if_true]
    · simp only [hd, Bool.false_eq_true, if_false]
      cases hf : bank.find (tabId, q.1.2) with
      | none =>
        simp only [if_true]
        exact ih hrest
      | some c =>
        simp only [reduceCtorEq, if_false]
        exact ih hrest

theorem bank_fits (htab : tabId < G.purchasedTabs)
    (hout : Stock.Without Item.guid item.guid bank bank₀)
    (h : Plan.Within (BankReserved G bank item tabId) k ⟨dest, 0⟩) :
    Stock.Fits Item.entry G.world.maxStack bank₀ item (bankPlaces tabId dest) ∧
      BankPlaceable G item dest := by
  refine ⟨⟨?_, fun r hr => ?_⟩, fun q hq => ?_⟩
  · have hmap : (bankPlaces tabId dest).map Prod.fst =
        (dest.map Prod.fst).map fun pos => (tabId, pos.2) := by
      unfold bankPlaces
      rw [List.map_map, List.map_map]
      rfl
    rw [hmap]
    refine List.Nodup.map_on (fun p hp p' hp' heq => ?_) h.nodup
    obtain ⟨q, hq, rfl⟩ := List.mem_map.1 hp
    obtain ⟨q', hq', rfl⟩ := List.mem_map.1 hp'
    have hbag := (h.room q hq).bag.trans (h.room q' hq').bag.symm
    exact Prod.ext hbag (Prod.mk.inj heq).2
  · obtain ⟨q, hq, rfl⟩ := List.mem_map.1 hr
    have hres := h.room q hq
    refine ⟨hres.count_pos, hres.le, fun c hc => hres.other c ?_⟩
    unfold otherItem
    rw [getItem_eq htab hres.slot_lt, ← hout]
    exact hc
  · have hres := h.room q hq
    exact ⟨hres.slot_lt, hres.count_pos, hres.le⟩

/-! ### Holdings -/

/-- The units of an entry in bank and inventory together. -/
def unitsOfEntry (e : ℕ) (st : Holdings) : ℕ :=
  Stock.units (fun i => i.entry = e) st.bank + Storage.unitsOfEntry e st.bags

/-- The item objects are distinct and their stacks within the maximum. -/
structure Holdings.Valid (G : Guild) (st : Holdings) : Prop where
  bank : Stock.Fresh Item.guid st.next st.bank
  bags : Distinct st.next st.bags
  apart : ∀ c ∈ st.bank, ∀ c' ∈ st.bags, c.item.guid ≠ c'.item.guid
  bankStacked : Stock.Bounded Item.entry G.world.maxStack st.bank
  bagsStacked : Stacked G.world st.bags

/-- The item object is neither in the bank nor in the inventory. -/
structure Outside (item : Item) (st : Holdings) : Prop where
  bank : ∀ c ∈ st.bank, c.item.guid ≠ item.guid
  bags : ∀ c ∈ st.bags, c.item.guid ≠ item.guid

/-- `st₀` is `st` without the item object. -/
structure Left (item : Item) (st st₀ : Holdings) : Prop where
  bank : Stock.Without Item.guid item.guid st.bank st₀.bank
  bags : Lifted item st.bags st₀.bags

theorem Left.outside (h : Left item st st₀) : Outside item st₀ :=
  ⟨fun _ hc => h.bank.ne hc, fun _ hc => h.bags.ne hc⟩

theorem Outside.left (h : Outside item st) : Left item st st :=
  ⟨Stock.without_of_forall_ne h.bank, Stock.without_of_forall_ne h.bags⟩

theorem Outside.of_left {i : Item} (h : Outside i st) (hleft : Left item st st₀) : Outside i st₀ :=
  ⟨fun c hc => h.bank c (hleft.bank.subset hc), fun c hc => h.bags c (hleft.bags.subset hc)⟩

theorem Holdings.Valid.outside (h : st.Valid G) (item : Item) (hle : st.next ≤ item.guid) : Outside item st :=
  ⟨fun c hc => Nat.ne_of_lt (lt_of_lt_of_le (h.bank.lt c hc) hle),
    fun c hc => Nat.ne_of_lt (lt_of_lt_of_le (h.bags.lt c hc) hle)⟩

theorem Holdings.Valid.mono (h : st.Valid G) (hle : st.next ≤ next) :
    ({ st with next := next } : Holdings).Valid G :=
  ⟨h.bank.mono hle, h.bags.mono hle, h.apart, h.bankStacked, h.bagsStacked⟩

/-- A plan fits at an endpoint. -/
def FitsAt (G : Guild) (st : Holdings) (ep : Endpoint) (item : Item) (dest : List (Pos × ℕ)) :
    Prop :=
  match ep with
  | .bank tabId _ => tabId < G.purchasedTabs ∧ BankPlaceable G item dest ∧
      Stock.Fits Item.entry G.world.maxStack st.bank item (bankPlaces tabId dest)
  | .player _ => Placeable G.world st.bags item dest ∧
      Stock.Fits Item.entry G.world.maxStack st.bags item (places G.world st.bags dest)

theorem sum_bankPlaces : ((bankPlaces tabId dest).map Prod.snd).sum = (dest.map Prod.snd).sum := by
  unfold bankPlaces
  rw [List.map_map]
  rfl

/-- What storing `k` units of an item object does to the holdings. -/
structure StoredAt (G : Guild) (item : Item) (k : ℕ) (st st' : Holdings) : Prop where
  valid : st'.Valid G
  units : ∀ e, unitsOfEntry e st' = unitsOfEntry e st + if item.entry = e then k else 0
  next_le : st.next ≤ st'.next
  outside : ∀ i, Outside i st → i.guid ≠ item.guid → i.guid < st.next → Outside i st'

/-- Storing along a plan that fits adds the units of the plan. -/
theorem storeItem_fits (hv : st.Valid G) (hout : Outside item st) (hlt : item.guid < st.next)
    (hfits : FitsAt G st ep item dest) :
    StoredAt G item (dest.map Prod.snd).sum st (ep.storeItem G st dest item) := by
  cases ep with
  | bank tabId slotId =>
    obtain ⟨htab, hplace, hf⟩ := hfits
    have hs := stored_of_fits hf hv.bankStacked hv.bank hout.bank hlt
    rw [sum_bankPlaces, ← bankStoreItem_eq htab hplace] at hs
    unfold Endpoint.storeItem
    simp only [if_pos htab]
    refine ⟨⟨hs.fresh, hv.bags.mono hs.next_le, fun c hc c' hc' heq => ?_, hs.stacked,
      hv.bagsStacked⟩, fun e => ?_, hs.next_le, fun i hi hne hi_lt => ⟨fun c hc heq => ?_, hi.bags⟩⟩
    · rcases hs.guid c hc with ⟨d, hd, hdc⟩ | hitem | hnew
      · exact hv.apart d hd c' hc' (hdc.trans heq)
      · exact hout.bags c' hc' (heq.symm.trans hitem)
      · exact absurd (hv.bags.lt c' hc') (not_lt.2 (heq ▸ hnew))
    · have hunits := hs.units e
      show Stock.units _ (bankStoreItem G tabId item st.next st.bank dest).2 +
        Storage.unitsOfEntry e st.bags = Stock.units _ st.bank + Storage.unitsOfEntry e st.bags + _
      omega
    · rcases hs.guid c hc with ⟨d, hd, hdc⟩ | hitem | hnew
      · exact hi.bank d hd (hdc.trans heq)
      · exact hne (heq.symm.trans hitem)
      · exact absurd hi_lt (not_lt.2 (heq ▸ hnew))
  | player pos =>
    obtain ⟨hplace, hf⟩ := hfits
    have hs := stored_of_fits hf hv.bagsStacked hv.bags hout.bags hlt
    rw [sum_places, ← storeItem_eq hplace hv.bags.lt hlt] at hs
    unfold Endpoint.storeItem
    refine ⟨⟨hv.bank.mono hs.next_le, hs.fresh, fun c hc c' hc' heq => ?_, hv.bankStacked,
      hs.stacked⟩, fun e => ?_, hs.next_le, fun i hi hne hi_lt => ⟨hi.bank, fun c hc heq => ?_⟩⟩
    · rcases hs.guid c' hc' with ⟨d, hd, hdc⟩ | hitem | hnew
      · exact hv.apart c hc d hd (heq.trans hdc.symm)
      · exact hout.bank c hc (heq.trans hitem)
      · exact absurd (hv.bank.lt c hc) (not_lt.2 (heq ▸ hnew))
    · have hunits := hs.units e
      show Stock.units _ st.bank +
        Stock.units _ (Storage.storeItem G.world item st.next st.bags dest).2 =
          Stock.units _ st.bank + Stock.units _ st.bags + _
      omega
    · rcases hs.guid c hc with ⟨d, hd, hdc⟩ | hitem | hnew
      · exact hi.bags d hd (hdc.trans heq)
      · exact hne (heq.symm.trans hitem)
      · exact absurd hi_lt (not_lt.2 (heq ▸ hnew))

/-- The endpoint holds `k` units of the item object. -/
def Holds (G : Guild) (st : Holdings) (item : Item) (k : ℕ) : Endpoint → Prop
  | .bank tabId slotId => tabId < G.purchasedTabs ∧ slotId < guildBankMaxSlots ∧
      st.bank.find (tabId, slotId) = some ⟨(tabId, slotId), item, k⟩
  | .player pos => ∃ l, locate G.world st.bags pos = some l ∧ st.bags.find l = some ⟨l, item, k⟩

theorem holds_of_initItem (h : ep.initItem G st = some (item, k)) : Holds G st item k ep := by
  cases ep with
  | bank tabId slotId =>
    simp only [Endpoint.initItem, getItem, Option.map_eq_some_iff] at h
    obtain ⟨c, hc, hck⟩ := h
    split_ifs at hc with hslot
    have hloc := (Table.of_find hc).2
    obtain ⟨rfl, rfl⟩ := Prod.mk.inj hck
    refine ⟨hslot.1, hslot.2, hc.trans ?_⟩
    rw [← hloc]
  | player pos =>
    simp only [Endpoint.initItem] at h
    cases hc : getItemByPos G.world st.bags pos with
    | none =>
      rw [hc] at h
      cases h
    | some c =>
      simp only [hc] at h
      split_ifs at h
      obtain ⟨rfl, rfl⟩ := Prod.mk.inj (Option.some.inj h)
      obtain ⟨l, hl, hfind⟩ := Option.bind_eq_some_iff.1 hc
      refine ⟨l, hl, hfind.trans ?_⟩
      rw [← (Table.of_find hfind).2]

theorem Holds.bounds (hv : st.Valid G) (h : Holds G st item k ep) :
    0 < k ∧ k ≤ G.world.maxStack item.entry ∧ item.guid < st.next := by
  cases ep with
  | bank tabId slotId =>
    have hb := hv.bankStacked.of_find h.2.2
    exact ⟨hb.1, hb.2, hv.bank.lt _ (Table.of_find h.2.2).1⟩
  | player pos =>
    obtain ⟨l, _, hfind⟩ := h
    have hb := hv.bagsStacked.of_find hfind
    exact ⟨hb.1, hb.2, hv.bags.lt _ (Table.of_find hfind).1⟩

theorem removeItem_whole (other : Endpoint) (hv : st.Valid G) (h : Holds G st item k ep) :
    (ep.removeItem G st other k 0).Valid G ∧ Left item st (ep.removeItem G st other k 0) ∧
      (ep.removeItem G st other k 0).next = st.next ∧
      (∀ e, unitsOfEntry e (ep.removeItem G st other k 0) + (if item.entry = e then k else 0) =
        unitsOfEntry e st) := by
  cases ep with
  | bank tabId slotId =>
    obtain ⟨_, _, hfind⟩ := h
    have hm := (Table.of_find hfind).1
    refine ⟨⟨hv.bank.erase _, hv.bags, fun c hc => hv.apart c (Table.mem_erase.1 hc).1,
      hv.bankStacked.erase _, hv.bagsStacked⟩, ⟨Stock.without_erase hv.bank hfind,
      Stock.without_of_forall_ne fun c hc => (hv.apart _ hm c hc).symm⟩, rfl, fun e => ?_⟩
    have hunits := Stock.units_erase (p := fun i => decide (i.entry = e)) hfind
    simp only [Stock.unitsOf, decide_eq_true_eq] at hunits
    simp only [unitsOfEntry, Endpoint.removeItem, ne_eq, not_true_eq_false, if_false]
    omega
  | player pos =>
    obtain ⟨l, hl, hfind⟩ := h
    have hm := (Table.of_find hfind).1
    have hrem : Storage.removeItem G.world st.bags pos = st.bags.erase l := by
      unfold Storage.removeItem
      rw [getItemByPos_of_locate hl, hfind]
    simp only [Endpoint.removeItem, ne_eq, not_true_eq_false, if_false, hrem]
    refine ⟨⟨hv.bank, hv.bags.erase _, fun c hc c' hc' => hv.apart c hc c' (Table.mem_erase.1 hc').1,
      hv.bankStacked, hv.bagsStacked.erase _⟩, ⟨Stock.without_of_forall_ne fun c hc =>
      hv.apart c hc _ hm, Stock.without_erase hv.bags hfind⟩, trivial, fun e => ?_⟩
    have hunits := Stock.units_erase (p := fun i => decide (i.entry = e)) hfind
    simp only [Stock.unitsOf, decide_eq_true_eq] at hunits
    simp only [unitsOfEntry, Storage.unitsOfEntry]
    omega

theorem removeItem_split (other : Endpoint) (hv : st.Valid G) (h : Holds G st item k ep) (hn : 0 < n) (hnk : n < k) :
    (ep.removeItem G st other k n).Valid G ∧ (ep.removeItem G st other k n).next = st.next ∧
      (∀ i, Outside i st → Outside i (ep.removeItem G st other k n)) ∧
      (∀ e, unitsOfEntry e (ep.removeItem G st other k n) + (if item.entry = e then n else 0) =
        unitsOfEntry e st) := by
  cases ep with
  | bank tabId slotId =>
    obtain ⟨_, _, hfind⟩ := h
    have hk := hv.bankStacked.of_find hfind
    simp only [Endpoint.removeItem, hn.ne', ne_eq, not_false_eq_true, if_true]
    have hapart := (Stock.forall_item_setCount (l := (tabId, slotId)) (n := k - n)
      (P := fun j : Item => ∀ c' ∈ st.bags, j.guid ≠ c'.item.guid)).2 hv.apart
    refine ⟨⟨hv.bank.setCount, hv.bags, hapart,
      hv.bankStacked.setCount fun c hc => ?_, hv.bagsStacked⟩, trivial, fun i hi =>
      ⟨(Stock.forall_item_setCount (P := fun j : Item => j.guid ≠ i.guid)).2 hi.bank, hi.bags⟩,
      fun e => ?_⟩
    · obtain rfl := Option.some.inj (hfind.symm.trans hc)
      exact ⟨Nat.sub_pos_of_lt hnk, Nat.le_trans (Nat.sub_le _ _) hk.2⟩
    · have hunits := Stock.units_take (p := fun i => decide (i.entry = e)) hfind hnk.le
      simp only [decide_eq_true_eq] at hunits
      show Stock.units _ (st.bank.setCount _ _) + Storage.unitsOfEntry e st.bags + _ =
        Stock.units _ st.bank + Storage.unitsOfEntry e st.bags
      omega
  | player pos =>
    obtain ⟨l, hl, hfind⟩ := h
    have hk := hv.bagsStacked.of_find hfind
    simp only [Endpoint.removeItem, hn.ne', ne_eq, not_false_eq_true, if_true,
      getItemByPos_of_locate hl, hfind]
    have hapart := fun c hc => (Stock.forall_item_setCount (l := l) (n := k - n)
      (P := fun j : Item => c.item.guid ≠ j.guid)).2 (hv.apart c hc)
    have hloc := (Table.of_find hfind).2
    refine ⟨⟨hv.bank, hv.bags.setCount, hapart, hv.bankStacked,
      hv.bagsStacked.setCount fun c hc => ?_⟩, trivial, fun i hi =>
      ⟨hi.bank, (Stock.forall_item_setCount (P := fun j : Item => j.guid ≠ i.guid)).2 hi.bags⟩,
      fun e => ?_⟩
    · obtain rfl := Option.some.inj (hfind.symm.trans hc)
      exact ⟨Nat.sub_pos_of_lt hnk, Nat.le_trans (Nat.sub_le _ _) hk.2⟩
    · have hunits := Stock.units_take (p := fun i => decide (i.entry = e)) hfind hnk.le
      simp only [decide_eq_true_eq] at hunits
      show Stock.units _ st.bank + Stock.units _ (st.bags.setCount _ _) + _ =
        Stock.units _ st.bank + Stock.units _ st.bags
      omega

/-- One of the endpoints is in the bank, and they are not the same slot of it. -/
def Apart : Endpoint → Endpoint → Prop
  | .bank tabId slotId, .bank tabId' slotId' => (tabId, slotId) ≠ (tabId', slotId')
  | .bank _ _, .player _ => True
  | .player _, .bank _ _ => True
  | .player _, .player _ => False

theorem Apart.symm {ep' : Endpoint} (h : Apart ep ep') : Apart ep' ep := by
  cases ep <;> cases ep' <;> first | exact h | exact Ne.symm h

/-- Apart endpoints hold distinct item objects. -/
theorem Apart.guid_ne {ep' : Endpoint} {d : Item} {m : ℕ} (hv : st.Valid G) (hap : Apart ep ep')
    (h : Holds G st item k ep) (h' : Holds G st d m ep') : item.guid ≠ d.guid := by
  cases ep with
  | bank tabId slotId =>
    have hm := (Table.of_find h.2.2).1
    cases ep' with
    | bank tabId' slotId' =>
      intro hguid
      have heq := hv.bank.eq_of_id hm (Table.of_find h'.2.2).1 hguid
      exact hap (congrArg Cell.loc heq)
    | player pos =>
      obtain ⟨l, _, hfind⟩ := h'
      exact hv.apart _ hm _ (Table.of_find hfind).1
  | player pos =>
    obtain ⟨l, _, hfind⟩ := h
    cases ep' with
    | bank tabId slotId =>
      exact (hv.apart _ (Table.of_find h'.2.2).1 _ (Table.of_find hfind).1).symm
    | player pos' => exact hap.elim

/-- An endpoint keeps its item when the other one loses units. -/
theorem Holds.removeItem {ep' : Endpoint} {d : Item} {m : ℕ} (other : Endpoint)
    (hap : Apart ep ep') (h : Holds G st item k ep) (h' : Holds G st d m ep') :
    Holds G (ep.removeItem G st other k 0) d m ep' := by
  cases ep with
  | bank tabId slotId =>
    cases ep' with
    | bank tabId' slotId' =>
      refine ⟨h'.1, h'.2.1, ?_⟩
      simp only [Endpoint.removeItem, ne_eq, not_true_eq_false, if_false]
      rw [Table.find_erase, if_neg (Ne.symm hap)]
      exact h'.2.2
    | player pos => exact h'
  | player pos =>
    cases ep' with
    | bank tabId slotId => exact h'
    | player pos' => exact hap.elim

theorem FitsAt.removeItem_split {ep' : Endpoint} {i : Item} (other : Endpoint)
    (hf : FitsAt G st ep' i dest) (h : Holds G st item k ep) (hap : Apart ep ep') (hn : 0 < n) :
    FitsAt G (ep.removeItem G st other k n) ep' i dest := by
  cases ep with
  | bank tabId slotId =>
    obtain ⟨_, _, hfind⟩ := h
    cases ep' with
    | bank tabId' slotId' =>
      refine ⟨hf.1, hf.2.1, ?_⟩
      simp only [Endpoint.removeItem, hn.ne', ne_eq, not_false_eq_true, if_true]
      exact hf.2.2.setCount hfind (Nat.sub_le k n)
    | player pos => exact hf
  | player pos =>
    cases ep' with
    | bank tabId slotId => exact hf
    | player pos' => exact hap.elim

/-! ### The plans of the endpoints -/

/-- A slot that the two functions accept. -/
def Endpoint.WellFormed : Endpoint → Prop
  | .bank _ slotId => slotId < guildBankMaxSlots ∨ slotId = nullSlot
  | .player _ => True

theorem canStore_fits (hv : st.Valid G) (hleft : Left item st st₀) (hk : 0 < k)
    (hep : ep.WellFormed) (hin : ∀ pos, ep = .player pos → NotInside G.world st.bags item pos)
    (h : ep.canStore G st item k false = .ok dest) :
    FitsAt G st₀ ep item dest ∧ (dest.map Prod.snd).sum = k := by
  cases ep with
  | bank tabId slotId =>
    obtain ⟨htab, hw⟩ := bankCanStore_ok hk hep h
    obtain ⟨hfits, hplace⟩ := bank_fits htab hleft.bank hw
    exact ⟨⟨htab, hplace, hfits⟩, hw.total⟩
  | player pos =>
    have hw := canStoreItem_ok (hin pos rfl) hk h
    obtain ⟨hfits, hplace⟩ := fits_of_within hleft.bags hv.bags hw
    exact ⟨⟨hplace, hfits⟩, hw.total⟩

/-- The slot of the endpoint is empty. -/
def Free (G : Guild) (st : Holdings) : Endpoint → Prop
  | .bank tabId slotId => st.bank.find (tabId, slotId) = none
  | .player pos => ∃ l, locate G.world st.bags pos = some l ∧ st.bags.find l = none

theorem free_removeItem (other : Endpoint) (hv : st.Valid G) (h : Holds G st item k ep) :
    Free G (ep.removeItem G st other k 0) ep := by
  cases ep with
  | bank tabId slotId =>
    show (st.bank.erase (tabId, slotId)).find (tabId, slotId) = none
    rw [Table.find_erase, if_pos rfl]
  | player pos =>
    obtain ⟨l, hl, hfind⟩ := h
    have hrem : Storage.removeItem G.world st.bags pos = st.bags.erase l := by
      unfold Storage.removeItem
      rw [getItemByPos_of_locate hl, hfind]
    -- an item does not lie in itself: its bag lies in a bag slot
    have hin : NotInside G.world st.bags item pos := by
      intro b hb hguid
      have hbag := getBagByPos_eq_some.1 hb
      have hcell := hv.bags.eq_of_id (Table.of_find hbag.2.1).1 (Table.of_find hfind).1 hguid
      have hloc : Loc.slot pos.1 = l := by
        rw [← (Table.of_find hbag.2.1).2, hcell]
      rcases locate_eq_some.1 hl with ⟨hbag0, _, _⟩ | ⟨b', _, _, rfl⟩
      · exact bag_ne_bag0 hb hbag0
      · cases hloc
    refine ⟨l, ?_, ?_⟩
    · simp only [Endpoint.removeItem, ne_eq, not_true_eq_false, if_false, hrem]
      exact locate_lifted (Stock.without_erase hv.bags hfind) hl hin
    · simp only [Endpoint.removeItem, ne_eq, not_true_eq_false, if_false, hrem]
      rw [Table.find_erase, if_pos rfl]

/-- An endpoint remains free when the item of the other one leaves. -/
theorem Free.removeItem {ep' : Endpoint} (other : Endpoint) (hap : Apart ep ep')
    (h : Free G st ep') :
    Free G (ep.removeItem G st other k 0) ep' := by
  cases ep with
  | bank tabId slotId =>
    cases ep' with
    | bank tabId' slotId' =>
      show (st.bank.erase (tabId, slotId)).find (tabId', slotId') = none
      rw [Table.find_erase, if_neg (Ne.symm hap)]
      exact h
    | player pos => exact h
  | player pos =>
    cases ep' with
    | bank tabId slotId => exact h
    | player pos' => exact hap.elim

/-- The plan is for the slot of the endpoint. -/
def AtSlot (ep : Endpoint) (dest : List (Pos × ℕ)) : Prop :=
  ∃ pos k, dest = [(pos, k)] ∧ ∀ tabId slotId, ep = .bank tabId slotId → pos.2 = slotId

theorem Free.storeItem {ep' : Endpoint} (hap : Apart ep ep') (hfits : FitsAt G st ep item dest)
    (hat : AtSlot ep dest) (h : Free G st ep') : Free G (ep.storeItem G st dest item) ep' := by
  cases ep with
  | bank tabId slotId =>
    obtain ⟨htab, hplace, _⟩ := hfits
    unfold Endpoint.storeItem
    simp only [if_pos htab]
    cases ep' with
    | bank tabId' slotId' =>
      obtain ⟨pos, k, rfl, hslot⟩ := hat
      show (bankStoreItem G tabId item st.next st.bank _).2.find _ = none
      rw [bankStoreItem_eq htab hplace, Stock.find_store]
      · exact h
      · have hpos := hslot tabId slotId rfl
        simp only [bankPlaces, List.map_cons, List.map_nil, List.mem_singleton, hpos]
        exact Ne.symm hap
    | player pos => exact h
  | player pos =>
    cases ep' with
    | bank tabId slotId => exact h
    | player pos' => exact hap.elim

/-- The plan of `CanStore` with swap is the slot itself, and fits once it is empty. -/
theorem canStore_swap {d : Item} {m : ℕ} (hold : Holds G st d m ep) (hk : 0 < k)
    (hle : k ≤ G.world.maxStack item.entry) (hfree : Free G st₀ ep) (hout : Outside item st₀)
    (h : ep.canStore G st item k true = .ok dest) :
    FitsAt G st₀ ep item dest ∧ AtSlot ep dest ∧ (dest.map Prod.snd).sum = k := by
  cases ep with
  | bank tabId slotId =>
    obtain ⟨htab, hslot, _⟩ := hold
    obtain ⟨_, rfl⟩ := bankCanStore_swap hslot hle h
    refine ⟨⟨htab, fun q hq => ?_, Stock.fits_singleton hfree hk hle⟩, ⟨(0, slotId), k, rfl, ?_⟩,
      List.sum_singleton⟩
    · rw [List.mem_singleton.1 hq]
      exact ⟨hslot, hk, hle⟩
    · rintro _ _ ⟨⟩
      rfl
  | player pos =>
    obtain ⟨l, hl, _⟩ := hold
    obtain ⟨l₀, hl₀, hfind₀⟩ := hfree
    have hslots := slot_of_locate hl
    obtain ⟨rfl, _⟩ := canStoreItem_swap hslots.1 hslots.2 hle h
    refine ⟨⟨fun q hq => ?_, ?_⟩, ⟨pos, k, rfl, nofun⟩, List.sum_singleton⟩
    · rw [List.mem_singleton.1 hq]
      refine ⟨by rw [hl₀]; rfl, fun b hb => ?_, hk, hle⟩
      exact hout.bags b (Table.of_find (getBagByPos_eq_some.1 hb).2.1).1
    · unfold places
      rw [List.map_singleton, storeLoc_of_locate hl₀]
      exact Stock.fits_singleton hfind₀ hk hle

/-! ### The move -/

/-- What is kept when the holdings `st` become `r.2`, where `r.1` says whether items were moved. -/
structure Conserved (G : Guild) (st : Holdings) (r : Bool × Holdings) : Prop where
  valid : r.2.Valid G
  units : ∀ e, unitsOfEntry e r.2 = unitsOfEntry e st
  refused : r.1 = false → r.2.bank = st.bank ∧ r.2.bags = st.bags

theorem conserved_refused (hv : st.Valid G) : Conserved G st (false, st) :=
  ⟨hv, fun _ => rfl, fun _ => ⟨rfl, rfl⟩⟩

/-- The item is at `src`: if `dst` is a position of the player, the item is in no bag of his. -/
theorem notInside_dst {src dst : Endpoint} (hv : st.Valid G) (hs : Holds G st item k src)
    (hap : Apart src dst) (pos : Pos) (hdst : dst = .player pos) :
    NotInside G.world st.bags item pos := by
  subst hdst
  cases src with
  | bank tabId slotId =>
    intro b hb hguid
    have hm := (Table.of_find (getBagByPos_eq_some.1 hb).2.1).1
    exact hv.apart _ (Table.of_find hs.2.2).1 b hm hguid.symm
  | player pos' => exact hap.elim

theorem doItemsMove_split {src dst : Endpoint} (hv : st.Valid G) (hs : Holds G st item k src)
    (hap : Apart src dst) (hdst : dst.WellFormed) (hn : 0 < n) (hnk : n < k) :
    Conserved G st (doItemsMove G { st with next := st.next + 1 } src dst k none
      (copyOf item st.next, n) n) := by
  unfold doItemsMove
  cases hd : dst.canStore G { st with next := st.next + 1 } (copyOf item st.next) n false with
  | error _ =>
    simp only [Option.isSome_none, hd]
    exact ⟨hv.mono (Nat.le_succ _), fun _ => rfl, fun _ => ⟨rfl, rfl⟩⟩
  | ok dest =>
    simp only [Option.isSome_none, hd]
    have hv' := hv.mono (Nat.le_succ st.next)
    have hout := hv.outside (copyOf item st.next) (le_refl st.next)
    have hout' : Outside (copyOf item st.next) { st with next := st.next + 1 } :=
      ⟨hout.bank, hout.bags⟩
    obtain ⟨hfits, hsum⟩ := canStore_fits hv' hout'.left hn hdst
      (fun pos _ b hb => hout.bags b (Table.of_find (getBagByPos_eq_some.1 hb).2.1).1) hd
    have hs' : Holds G { st with next := st.next + 1 } item k src := by
      cases src <;> exact hs
    obtain ⟨hv₁, hnext₁, hout₁, hunits₁⟩ := removeItem_split dst hv' hs' hn hnk
    have hstored := storeItem_fits hv₁ (hout₁ _ hout') (hnext₁ ▸ Nat.lt_succ_self st.next)
      (hfits.removeItem_split dst hs' hap hn)
    refine ⟨hstored.valid, fun e => ?_, nofun⟩
    rw [hstored.units, hsum]
    exact hunits₁ e

theorem doItemsMove_whole {src dst : Endpoint} (hv : st.Valid G) (hs : Holds G st item k src)
    (hap : Apart src dst) (hdst : dst.WellFormed) :
    Conserved G st (doItemsMove G st src dst k none (item, k) 0) := by
  unfold doItemsMove
  cases hd : dst.canStore G st item k false with
  | error _ =>
    simp only [Option.isSome_none, hd]
    exact conserved_refused hv
  | ok dest =>
    simp only [Option.isSome_none, hd]
    obtain ⟨hk, _, hlt⟩ := hs.bounds hv
    obtain ⟨hv₁, hleft, hnext, hunits⟩ := removeItem_whole dst hv hs
    obtain ⟨hfits, hsum⟩ := canStore_fits hv hleft hk hdst (notInside_dst hv hs hap) hd
    have hstored := storeItem_fits hv₁ hleft.outside (hnext ▸ hlt) hfits
    refine ⟨hstored.valid, fun e => ?_, nofun⟩
    rw [hstored.units, hsum]
    exact hunits e

/-- The stacks of the two endpoints are swapped: the second plan still fits when the first was
executed. -/
theorem doItemsMove_swap {src dst : Endpoint} {d : Item} {m : ℕ} (hv : st.Valid G)
    (hs : Holds G st item k src) (hd : Holds G st d m dst) (hap : Apart src dst) :
    Conserved G st (doItemsMove G st src dst k (some (d, m)) (item, k) 0) := by
  unfold doItemsMove
  cases hcan : dst.canStore G st item k true with
  | error _ =>
    simp only [Option.isSome_some, hcan]
    exact conserved_refused hv
  | ok dest =>
    cases hcan' : src.canStore G st d m true with
    | error _ =>
      simp only [Option.isSome_some, hcan, hcan']
      exact conserved_refused hv
    | ok dest' =>
      simp only [Option.isSome_some, hcan, hcan']
      obtain ⟨hk, hkmax, hlt⟩ := hs.bounds hv
      obtain ⟨hm, hmmax, hdlt⟩ := hd.bounds hv
      -- the items leave
      obtain ⟨hv₁, hleft₁, hnext₁, hunits₁⟩ := removeItem_whole dst hv hs
      have hfree₁ := free_removeItem dst hv hs
      have hd₁ := hs.removeItem dst hap hd
      set st₁ := src.removeItem G st dst k 0
      obtain ⟨hv₂, hleft₂, hnext₂, hunits₂⟩ := removeItem_whole src hv₁ hd₁
      have hfree₂ := free_removeItem src hv₁ hd₁
      have hsrc₂ := hfree₁.removeItem (k := m) src hap.symm
      have hout₂ := hleft₁.outside.of_left hleft₂
      set st₂ := dst.removeItem G st₁ src m 0
      -- each is stored in the slot of the other
      obtain ⟨hfits, hat, hsum⟩ := canStore_swap hd hk hkmax hfree₂ hout₂ hcan
      have hlt₂ : st₂.next = st.next := hnext₂.trans hnext₁
      have hstored := storeItem_fits hv₂ hout₂ (hlt₂ ▸ hlt) hfits
      have hsrc₃ := hsrc₂.storeItem hap.symm hfits hat
      have hout₃ := hstored.outside d hleft₂.outside (hap.guid_ne hv hs hd).symm (hlt₂ ▸ hdlt)
      set st₃ := dst.storeItem G st₂ dest item
      obtain ⟨hfits', _, hsum'⟩ := canStore_swap hs hm hmmax hsrc₃ hout₃ hcan'
      have hdlt₃ : d.guid < st₃.next := lt_of_lt_of_le (hlt₂ ▸ hdlt) hstored.next_le
      have hstored' := storeItem_fits hstored.valid hout₃ hdlt₃ hfits'
      refine ⟨hstored'.valid, fun e => ?_, nofun⟩
      have h₁ := hunits₁ e
      have h₂ := hunits₂ e
      rw [hstored'.units, hstored.units, hsum, hsum']
      omega

theorem moveItems_conserved {src dst : Endpoint} {splitedAmount : ℕ} (hv : st.Valid G)
    (hap : Apart src dst) (hdst : dst.WellFormed) :
    Conserved G st (moveItems G st src dst splitedAmount) := by
  unfold moveItems
  cases hi : src.initItem G st with
  | none => exact conserved_refused hv
  | some p =>
    obtain ⟨item, k⟩ := p
    have hs := holds_of_initItem hi
    have hk := (hs.bounds hv).2.1
    simp only
    by_cases hlt : k < splitedAmount
    · rw [if_pos hlt]
      exact conserved_refused hv
    rw [if_neg hlt]
    by_cases hstore : (!dst.hasStoreRights G st src) = true
    · rw [if_pos hstore]
      exact conserved_refused hv
    rw [if_neg hstore]
    by_cases hwithdraw : (!src.hasWithdrawRights G st dst) = true
    · rw [if_pos hwithdraw]
      exact conserved_refused hv
    rw [if_neg hwithdraw]
    generalize hn : (if splitedAmount = k then 0 else splitedAmount) = n
    by_cases hzero : n = 0
    · rw [if_neg (not_not.2 hzero)]
      have hwhole := doItemsMove_whole hv hs hap hdst
      cases hmerge : (doItemsMove G st src dst k none (item, k) 0).1 with
      | true =>
        simp only [if_true]
        exact hwhole
      | false =>
        simp only [Bool.false_eq_true, if_false]
        cases hi' : dst.initItem G st with
        | none => exact conserved_refused hv
        | some q =>
          have hd : Holds G st q.1 q.2 dst := holds_of_initItem hi'
          simp only
          by_cases hstore' : (!src.hasStoreRights G st dst) = true
          · rw [if_pos hstore']
            exact conserved_refused hv
          rw [if_neg hstore']
          by_cases hwithdraw' : (!dst.hasWithdrawRights G st src) = true
          · rw [if_pos hwithdraw']
            exact conserved_refused hv
          rw [if_neg hwithdraw']
          exact doItemsMove_swap hv hs hd hap
    · rw [if_pos hzero]
      have hpos := Nat.pos_of_ne_zero hzero
      have hnk : n < k := by
        split_ifs at hn with heq <;> omega
      have hclone : cloneItem G.world item n st.next = some (copyOf item st.next, n) := by
        unfold cloneItem copyOf
        rw [if_neg (by omega), min_eq_left (by omega)]
      rw [hclone]
      exact doItemsMove_split hv hs hap hdst hpos hnk

theorem conserved_step (hst : st.Valid G) (call : Call) : Conserved G st (step G st call) := by
  cases call with
  | swapItems tabId slotId destTabId destSlotId splitedAmount =>
    simp only [step, swapItems]
    split_ifs with hslots hsame
    · exact conserved_refused hst
    · exact conserved_refused hst
    · refine moveItems_conserved hst (fun heq => hsame (Prod.mk.inj heq)) (Or.inl ?_)
      exact lt_of_not_ge fun hge => hslots (Or.inr (Or.inr (Or.inr hge)))
  | swapItemsWithInventory toChar tabId slotId playerPos splitedAmount =>
    simp only [step, swapItemsWithInventory]
    split_ifs with hslots hchar
    · exact conserved_refused hst
    · exact moveItems_conserved hst trivial trivial
    · refine moveItems_conserved hst trivial ?_
      have hslot := fun hge hne => hslots (Or.inl ⟨hge, hne⟩)
      exact (lt_or_ge slotId guildBankMaxSlots).imp_right fun hge => not_not.1 (hslot hge)

/-- **Main result.** Whatever the call, the units of every entry in bank and inventory together stay
the same, every stack keeps between one unit and its maximum, and if nothing was moved then bank
and inventory are as before. -/
theorem guild_bank_items_conserved (G : Guild) (st : Holdings) (hst : st.Valid G) (call : Call) :
    (∀ e, unitsOfEntry e (step G st call).2 = unitsOfEntry e st) ∧ (step G st call).2.Valid G ∧
      ((step G st call).1 = false →
        (step G st call).2.bank = st.bank ∧ (step G st call).2.bags = st.bags) := by
  have h := conserved_step hst call
  exact ⟨h.units, h.valid, h.refused⟩

/-- A guild with one tab, in which every entry is a trade good that stacks to 20. -/
def sampleGuild : Guild where
  world :=
    { template := fun _ =>
        { itemClass := .other 7, subClass := 0, inventoryType := .nonEquip, bagFamily := 0,
          stackable := 20, maxCount := 0, itemLimitCategory := 0, containerSlots := 0,
          containerSlots_le := noSlots_le, gemProperties := false, socketColor := false }
      limitCategory := fun _ => none
      isBindedNotWith := fun _ => false }
  purchasedTabs := 1
  ranks := []
  isLeader := true
  isSoulBound := fun _ => false
  canBeTraded := fun _ => true

/-- Five units of one entry in the bank and three of another in the leader's backpack. -/
def sampleHoldings : Holdings where
  bank := (Table.empty Cell.loc).insert ⟨(0, 0), ⟨1, 10, false, []⟩, 5⟩
  bags := (Table.empty Cell.loc).insert ⟨.slot inventorySlotItemStart, ⟨2, 20, false, []⟩, 3⟩
  next := 3
  member := some ⟨grGuildMaster, fun _ => 0⟩

theorem sampleHoldings_valid : sampleHoldings.Valid sampleGuild where
  bank := ⟨by decide, by decide⟩
  bags := ⟨by decide, by decide⟩
  apart := by decide
  bankStacked := by
    unfold Stock.Bounded
    decide
  bagsStacked := by
    unfold Stacked Stock.Bounded
    decide

/-- The two stacks are swapped. -/
theorem guild_bank_items_conserved_swap :
    (step sampleGuild sampleHoldings (.swapItemsWithInventory true 0 0 (255, 23) 0)).1 = true ∧
      ∀ e, unitsOfEntry e
          (step sampleGuild sampleHoldings (.swapItemsWithInventory true 0 0 (255, 23) 0)).2 =
        unitsOfEntry e sampleHoldings :=
  ⟨by decide +kernel,
    (guild_bank_items_conserved sampleGuild sampleHoldings sampleHoldings_valid _).1⟩

end FaceCore.Storage.GuildItems
