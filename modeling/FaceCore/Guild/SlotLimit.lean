import FaceCore.Lib.Runs
import FaceCore.Guild.ItemConservation

/-!
# The daily limit of items from a bank tab

What a member who is not the guild master can take out of a tab of the guild bank between two calls
of `Guild::ResetTimes`, by `SwapItems` and `SwapItemsWithInventory`. `HasWithdrawRights` asks
`_GetMemberRemainingSlots`, and `RemoveItem` counts by `_UpdateMemberWithdrawSlots`, each only if the
other end of the move is not in the same tab.

* `TabKept`: what is in a tab stays there; `moved_tab`, `swapped_tab`: the tabs a move takes out of;
* `Moved`, `moved_moveItems`: how a move ends;
* `SlotStep`, `slotStep_step`: a request counts one for each tab that it takes something out of;
* `takings`: how many requests of a sequence take something out of a tab;
* `guild_bank_slot_limit`: they are at most the items per day, and counted exactly.
-/

namespace FaceCore.Storage.GuildItems

open Runs

variable {G : Guild} {bank bank' bank'' : Bank} {st st' : Holdings} {item : Item}
  {t tabId slotId g k n next : ℕ} {dest : List (Pos × ℕ)} {ep other src dst : Endpoint} {m m' : Member}

/-! ### One tab of the bank -/

/-- Every stack of the tab is still there, with at least its units. -/
def TabKept (t : ℕ) (bank bank' : Bank) : Prop :=
  ∀ c ∈ bank, c.loc.1 = t →
    ∃ c' ∈ bank', c'.loc.1 = t ∧ c'.item.guid = c.item.guid ∧ c.count ≤ c'.count

instance : Decidable (TabKept t bank bank') :=
  inferInstanceAs (Decidable (∀ c ∈ bank.toList, c.loc.1 = t →
    ∃ c' ∈ bank'.toList, c'.loc.1 = t ∧ c'.item.guid = c.item.guid ∧ c.count ≤ c'.count))

/-- The tab is as it was. -/
def TabSame (t : ℕ) (bank bank' : Bank) : Prop := ∀ c, c.loc.1 = t → (c ∈ bank' ↔ c ∈ bank)

/-- In the tab the item object has less than `k` units. -/
def Lacks (t g k : ℕ) (bank : Bank) : Prop :=
  ∀ c ∈ bank, c.loc.1 = t → c.item.guid = g → c.count < k

theorem TabKept.refl (t : ℕ) (bank : Bank) : TabKept t bank bank := by
  intro c hc ht
  exact ⟨c, hc, ht, rfl, le_rfl⟩

theorem TabKept.trans (h : TabKept t bank bank') (h' : TabKept t bank' bank'') :
    TabKept t bank bank'' := by
  intro c hc ht
  obtain ⟨c', hc', ht', hguid, hle⟩ := h c hc ht
  obtain ⟨c'', hc'', ht'', hguid', hle'⟩ := h' c' hc' ht'
  exact ⟨c'', hc'', ht'', hguid'.trans hguid, hle.trans hle'⟩

theorem TabSame.refl (t : ℕ) (bank : Bank) : TabSame t bank bank := fun _ _ => Iff.rfl

theorem TabSame.trans (h : TabSame t bank bank') (h' : TabSame t bank' bank'') :
    TabSame t bank bank'' :=
  fun c ht => (h' c ht).trans (h c ht)

theorem TabSame.kept (h : TabSame t bank bank') : TabKept t bank bank' := by
  intro c hc ht
  exact ⟨c, (h c ht).2 hc, ht, rfl, le_rfl⟩

theorem TabSame.lacks (h : TabSame t bank bank') (hl : Lacks t g k bank) : Lacks t g k bank' :=
  fun c hc ht => hl c ((h c ht).1 hc) ht

theorem Lacks.not_kept (h : Lacks t g k bank') {c : Cell (ℕ × ℕ) Item} (hc : c ∈ bank)
    (ht : c.loc.1 = t) (hg : c.item.guid = g) (hk : k ≤ c.count) : ¬ TabKept t bank bank' := by
  intro hkept
  obtain ⟨c', hc', ht', hguid, hle⟩ := hkept c hc ht
  have := h c' hc' ht' (hguid.trans hg)
  omega

/-! ### The operations on the bank -/

theorem mem_setCount {l : ℕ × ℕ} {c : Cell (ℕ × ℕ) Item} :
    c ∈ bank.setCount l n ↔ ∃ a ∈ bank, (if a.loc = l then a.withCount n else a) = c := by
  have h := Table.exists_mem_modify (t := bank) (k := l) (f := Cell.withCount n)
    (P := fun b => b = c) fun _ => rfl
  rw [exists_eq_right] at h
  exact h

theorem tabSame_erase {l : ℕ × ℕ} (hl : l.1 ≠ t) : TabSame t bank (bank.erase l) := by
  intro c ht
  rw [Table.mem_erase]
  refine and_iff_left fun heq => hl ?_
  rw [← heq]
  exact ht

theorem tabSame_setCount {l : ℕ × ℕ} (hl : l.1 ≠ t) : TabSame t bank (bank.setCount l n) := by
  intro c ht
  rw [mem_setCount]
  constructor
  · rintro ⟨a, ha, rfl⟩
    split_ifs at ht ⊢ with hal
    · exact absurd (hal ▸ ht) hl
    · exact ha
  · intro hc
    refine ⟨c, hc, if_neg fun heq => hl ?_⟩
    rw [← heq]
    exact ht

theorem tabKept_setCount {c : Cell (ℕ × ℕ) Item} {l : ℕ × ℕ} (hf : bank.find l = some c)
    (hn : c.count ≤ n) : TabKept t bank (bank.setCount l n) := by
  intro a ha ht
  by_cases hal : a.loc = l
  · have hac : a = c := Option.some.inj ((Table.find_key ha).symm.trans (hal ▸ hf))
    refine ⟨a.withCount n, mem_setCount.2 ⟨a, ha, if_pos hal⟩, ht, rfl, ?_⟩
    rw [hac]
    exact hn
  · exact ⟨a, mem_setCount.2 ⟨a, ha, if_neg hal⟩, ht, rfl, le_rfl⟩

theorem tabKept_insert {c : Cell (ℕ × ℕ) Item} (hf : bank.find c.loc = none) :
    TabKept t bank (bank.insert c) := by
  intro a ha ht
  exact ⟨a, Table.mem_insert.2 (.inr ⟨ha, Table.find_eq_none.1 hf a ha⟩), ht, rfl, le_rfl⟩

theorem tabSame_insert {c : Cell (ℕ × ℕ) Item} (hc : c.loc.1 ≠ t) :
    TabSame t bank (bank.insert c) := by
  intro a ht
  rw [Table.mem_insert]
  constructor
  · rintro (rfl | ⟨ha, -⟩)
    · exact absurd ht hc
    · exact ha
  · intro ha
    refine .inr ⟨ha, fun heq => hc ?_⟩
    rw [← heq]
    exact ht

/-- What `_StoreItem` does at one slot: nothing, more units in a stack, or a new stack in a free
slot, of the item or of a copy with the next guid. -/
theorem bankStoreItemAt_cases (next : ℕ) (bank : Bank) (pos : Pos) (item : Item) (k : ℕ)
    (clone : Bool) (htab : tabId < G.purchasedTabs) :
    next ≤ (bankStoreItemAt G tabId next bank pos item k clone).1 ∧
      ((bankStoreItemAt G tabId next bank pos item k clone).2 = bank ∨
        (∃ c, bank.find (tabId, pos.2) = some c ∧
          (bankStoreItemAt G tabId next bank pos item k clone).2 =
            bank.setCount (tabId, pos.2) (c.count + k)) ∨
        ∃ (i : Item) (j : ℕ), (i.guid = item.guid ∨ i.guid = next) ∧
          bank.find (tabId, pos.2) = none ∧
          (bankStoreItemAt G tabId next bank pos item k clone).2 =
            bank.insert ⟨(tabId, pos.2), i, j⟩) := by
  unfold bankStoreItemAt
  cases hget : getItem G bank tabId pos.2 with
  | some c =>
    unfold getItem at hget
    split_ifs at hget
    refine ⟨le_rfl, .inr (.inl ⟨c, hget, ?_⟩)⟩
    show bank.setCount c.loc (c.count + k) = _
    rw [(Table.of_find hget).2]
  | none =>
    dsimp only
    by_cases hslot : pos.2 < guildBankMaxSlots
    · rw [getItem_eq htab hslot] at hget
      cases clone with
      | false =>
        simp only [Bool.false_eq_true, if_false, if_pos hslot]
        exact ⟨le_rfl, .inr (.inr ⟨item, k, .inl rfl, hget, rfl⟩)⟩
      | true =>
        simp only [if_true, if_pos hslot]
        unfold cloneItem
        split_ifs
        · exact ⟨le_rfl, .inl rfl⟩
        · exact ⟨Nat.le_succ next, .inr (.inr
            ⟨⟨next, item.entry, false, []⟩, min k (G.world.maxStack item.entry), .inr rfl, hget,
              rfl⟩)⟩
    · split
      · rw [if_neg hslot]
        split_ifs
        · exact ⟨Nat.le_succ next, .inl rfl⟩
        · exact ⟨le_rfl, .inl rfl⟩
      · exact ⟨le_rfl, .inl rfl⟩

/-- Storing an item in a tab keeps the stacks of every tab and does not touch the other tabs; it
brings no object into the bank but the item and copies with new guids. -/
theorem bankStoreItem_spec (htab : tabId < G.purchasedTabs) :
    TabKept t bank (bankStoreItem G tabId item next bank dest).2 ∧
      (tabId ≠ t → TabSame t bank (bankStoreItem G tabId item next bank dest).2) ∧
      (item.guid ≠ g → g < next → Lacks t g 0 bank →
        Lacks t g 0 (bankStoreItem G tabId item next bank dest).2) := by
  have hone : ∀ (next : ℕ) (bank : Bank) (pos : Pos) (k : ℕ) (clone : Bool),
      TabKept t bank (bankStoreItemAt G tabId next bank pos item k clone).2 ∧
        (tabId ≠ t → TabSame t bank (bankStoreItemAt G tabId next bank pos item k clone).2) ∧
        (item.guid ≠ g → g < next → Lacks t g 0 bank →
          Lacks t g 0 (bankStoreItemAt G tabId next bank pos item k clone).2) := by
    intro next bank pos k clone
    rcases (bankStoreItemAt_cases next bank pos item k clone htab).2 with
      heq | ⟨c, hc, heq⟩ | ⟨i, j, hi, hnone, heq⟩
    · rw [heq]
      exact ⟨.refl t bank, fun _ => .refl t bank, fun _ _ h => h⟩
    · rw [heq]
      refine ⟨tabKept_setCount hc (Nat.le_add_right _ _), fun hne => tabSame_setCount hne, ?_⟩
      intro _ _ hl a ha ht hg
      obtain ⟨b, hb, rfl⟩ := mem_setCount.1 ha
      split_ifs at ht hg
      · exact absurd (hl b hb ht hg) (Nat.not_lt_zero _)
      · exact absurd (hl b hb ht hg) (Nat.not_lt_zero _)
    · rw [heq]
      refine ⟨tabKept_insert hnone, fun hne => tabSame_insert hne, ?_⟩
      intro hne hlt hl a ha ht hg
      rcases Table.mem_insert.1 ha with rfl | ⟨ha, -⟩
      · rcases hi with hi | hi
        · exact absurd (hi.symm.trans hg) hne
        · exact absurd (hi.symm.trans hg) hlt.ne'
      · exact absurd (hl a ha ht hg) (Nat.not_lt_zero _)
  induction dest generalizing next bank with
  | nil => exact ⟨.refl t bank, fun _ => .refl t bank, fun _ _ h => h⟩
  | cons q dest ih =>
    unfold bankStoreItem
    split_ifs
    · exact hone next bank q.1 q.2 false
    · obtain ⟨hkept, hsame, hlacks⟩ := hone next bank q.1 q.2 true
      have hle := (bankStoreItemAt_cases next bank q.1 item q.2 true htab).1
      dsimp only
      obtain ⟨hkept', hsame', hlacks'⟩ :=
        @ih (bankStoreItemAt G tabId next bank q.1 item q.2 true).2
          (bankStoreItemAt G tabId next bank q.1 item q.2 true).1
      refine ⟨hkept.trans hkept', fun hne => (hsame hne).trans (hsame' hne), ?_⟩
      intro hne hlt hl
      exact hlacks' hne (lt_of_lt_of_le hlt hle) (hlacks hne hlt hl)

/-! ### The operations of an endpoint -/

/-- The endpoint is in the tab. -/
def Endpoint.InTab (t : ℕ) : Endpoint → Prop
  | .bank tabId _ => tabId = t
  | .player _ => False

instance : Decidable (ep.InTab t) := by
  unfold Endpoint.InTab
  cases ep <;> infer_instance

/-- What is removed at the endpoint leaves the tab. -/
def Endpoint.Leaves (t : ℕ) (ep other : Endpoint) : Prop := ep.InTab t ∧ ¬ other.InTab t

instance : Decidable (ep.Leaves t other) := inferInstanceAs (Decidable (_ ∧ _))

theorem sameTab_iff (h : ep.InTab t) : ep.sameTab other = true ↔ other.InTab t := by
  cases ep with
  | player pos => exact h.elim
  | bank tabId slotId =>
    obtain rfl : tabId = t := h
    cases other with
    | player pos => simp [Endpoint.sameTab, Endpoint.InTab]
    | bank tabId' slotId' => simp [Endpoint.sameTab, Endpoint.InTab, eq_comm]

theorem storeItem_kept (ep : Endpoint) (dest : List (Pos × ℕ)) (item : Item) :
    TabKept t st.bank (ep.storeItem G st dest item).bank := by
  cases ep with
  | player pos => exact .refl t _
  | bank tabId slotId =>
    simp only [Endpoint.storeItem]
    split_ifs with htab
    · exact (bankStoreItem_spec (g := 0) htab).1
    · exact .refl t _

theorem storeItem_same (dest : List (Pos × ℕ)) (item : Item) (h : ¬ ep.InTab t) :
    TabSame t st.bank (ep.storeItem G st dest item).bank := by
  cases ep with
  | player pos => exact .refl t _
  | bank tabId slotId =>
    simp only [Endpoint.storeItem]
    split_ifs with htab
    · exact (bankStoreItem_spec (g := 0) htab).2.1 h
    · exact .refl t _

theorem storeItem_lacks (ep : Endpoint) (dest : List (Pos × ℕ)) (hne : item.guid ≠ g)
    (hlt : g < st.next) (hl : Lacks t g 0 st.bank) :
    Lacks t g 0 (ep.storeItem G st dest item).bank := by
  cases ep with
  | player pos => exact hl
  | bank tabId slotId =>
    simp only [Endpoint.storeItem]
    split_ifs with htab
    · exact (bankStoreItem_spec htab).2.2 hne hlt hl
    · exact hl

theorem storeItem_member : (ep.storeItem G st dest item).member = st.member := by
  cases ep with
  | player pos => rfl
  | bank tabId slotId =>
    simp only [Endpoint.storeItem]
    split_ifs <;> rfl

theorem next_le_storeItemAt {W : World} {inv : Bags} {pos : Pos} {clone : Bool} :
    next ≤ (storeItemAt W next inv pos item k clone).1 := by
  unfold storeItemAt
  split
  · exact le_rfl
  · split_ifs
    · split
      · exact Nat.le_succ next
      · exact le_rfl
    · exact le_rfl

theorem next_le_storeItem {W : World} {inv : Bags} :
    next ≤ (Storage.storeItem W item next inv dest).1 := by
  induction dest generalizing next inv with
  | nil => exact le_rfl
  | cons q dest ih =>
    unfold Storage.storeItem
    split_ifs
    · exact next_le_storeItemAt
    · exact next_le_storeItemAt.trans ih

theorem next_le_bankStoreItem (htab : tabId < G.purchasedTabs) :
    next ≤ (bankStoreItem G tabId item next bank dest).1 := by
  induction dest generalizing next bank with
  | nil => exact le_rfl
  | cons q dest ih =>
    unfold bankStoreItem
    split_ifs
    · exact (bankStoreItemAt_cases next bank q.1 item q.2 false htab).1
    · exact (bankStoreItemAt_cases next bank q.1 item q.2 true htab).1.trans ih

theorem next_le_endpointStoreItem : st.next ≤ (ep.storeItem G st dest item).next := by
  cases ep with
  | player pos => exact next_le_storeItem
  | bank tabId slotId =>
    simp only [Endpoint.storeItem]
    split_ifs with htab
    · exact next_le_bankStoreItem htab
    · exact le_rfl

theorem Holds.exists_mem (h : Holds G st item k ep) (hep : ep.InTab t) :
    ∃ c ∈ st.bank, c.loc.1 = t ∧ c.item.guid = item.guid ∧ c.count = k := by
  cases ep with
  | player pos => exact hep.elim
  | bank tabId slotId => exact ⟨_, (Table.of_find h.2.2).1, hep, rfl, rfl⟩

theorem removeItem_same (h : ¬ ep.InTab t) :
    TabSame t st.bank (ep.removeItem G st other k n).bank := by
  cases ep with
  | player pos => exact .refl t _
  | bank tabId slotId =>
    simp only [Endpoint.removeItem]
    split_ifs
    · exact tabSame_setCount h
    · exact tabSame_erase h

/-- Removing units at an endpoint in a tab: the object lacks some there. -/
theorem removeItem_lacks (other : Endpoint) (hv : st.Valid G) (hs : Holds G st item k ep) (hep : ep.InTab t)
    (hn : n < k) : Lacks t item.guid k (ep.removeItem G st other k n).bank := by
  cases ep with
  | player pos => exact hep.elim
  | bank tabId slotId =>
    obtain ⟨-, -, hfind⟩ := hs
    have hmem := (Table.of_find hfind).1
    have hloc : ∀ c ∈ st.bank, c.item.guid = item.guid → c = ⟨(tabId, slotId), item, k⟩ :=
      fun c hc hg => hv.bank.eq_of_id hc hmem hg
    simp only [Endpoint.removeItem]
    split_ifs with hne
    · intro c hc _ hg
      obtain ⟨a, ha, rfl⟩ := mem_setCount.1 hc
      split_ifs at hg ⊢ with hl
      · exact Nat.sub_lt (by omega) (Nat.pos_of_ne_zero hne)
      · exact absurd (congrArg Cell.loc (hloc a ha hg)) hl
    · intro c hc _ hg
      obtain ⟨hc, hne⟩ := Table.mem_erase.1 hc
      exact absurd (congrArg Cell.loc (hloc c hc hg)) hne

theorem removeItem_lacks_whole (other : Endpoint) (hv : st.Valid G) (hs : Holds G st item k ep) :
    Lacks t item.guid 0 (ep.removeItem G st other k 0).bank := by
  obtain ⟨-, hleft, -⟩ := removeItem_whole other hv hs
  intro c hc _ hg
  exact absurd hg (hleft.bank.ne hc)

/-! ### The counters -/

/-- The items per day of a rank in a tab, as a signed number. -/
def slotsPerDay (G : Guild) (m : Member) (t : ℕ) : ℤ :=
  (getRankBankTabSlotsPerDay G m.rankId t).toInt

/-- The rank of the member may view the tab. -/
def CanView (G : Guild) (m : Member) (t : ℕ) : Prop :=
  (rightsAndSlots G m.rankId t).rights &&& guildBankRightViewTab ≠ 0

/-- What was taken today is not negative, and nothing or within the items per day. -/
def Tallied (G : Guild) (m : Member) : Prop :=
  ∀ t, 0 ≤ (m.bankWithdraw t).toInt ∧
    ((m.bankWithdraw t).toInt = 0 ∨ (m.bankWithdraw t).toInt ≤ slotsPerDay G m t)

theorem toInt_sub_of_le {x y : Int32} (hy : 0 ≤ y.toInt) (hle : y.toInt ≤ x.toInt) :
    (x - y).toInt = x.toInt - y.toInt := by
  have hx := x.toInt_lt
  rw [Int32.toInt_sub]
  apply Int.bmod_eq_of_le <;> omega

theorem toInt_succ {x : Int32} {b : ℤ} (hx : x.toInt < b) (hb : b < 2 ^ 31) :
    (x + 1).toInt = x.toInt + 1 := by
  have hmin := x.le_toInt
  rw [Int32.toInt_add]
  apply Int.bmod_eq_of_le <;> simp <;> omega

theorem remaining_eq (hrank : m.rankId ≠ grGuildMaster) (h : Tallied G m) (t : ℕ) :
    (CanView G m t ∧ (m.bankWithdraw t).toInt < slotsPerDay G m t →
        (getMemberRemainingSlots G (some m) t).toInt =
          slotsPerDay G m t - (m.bankWithdraw t).toInt) ∧
      (¬ (CanView G m t ∧ (m.bankWithdraw t).toInt < slotsPerDay G m t) →
        getMemberRemainingSlots G (some m) t = 0) := by
  obtain ⟨h0, hle⟩ := h t
  unfold getMemberRemainingSlots
  simp only [if_neg hrank]
  by_cases hview : CanView G m t
  · have hbit : (rightsAndSlots G m.rankId t).rights &&& guildBankRightViewTab ≠ 0 := hview
    rw [if_pos hbit]
    constructor
    · rintro ⟨-, hlt⟩
      have hsub := toInt_sub_of_le (x := getRankBankTabSlotsPerDay G m.rankId t) h0 hlt.le
      rw [if_pos]
      · exact hsub
      · rw [gt_iff_lt, Int32.lt_iff_toInt_lt, hsub]
        have : slotsPerDay G m t = (getRankBankTabSlotsPerDay G m.rankId t).toInt := rfl
        show (0 : ℤ) < _
        omega
    · intro hnot
      have hge : slotsPerDay G m t ≤ (m.bankWithdraw t).toInt := by
        by_contra hlt
        exact hnot ⟨hview, by omega⟩
      rw [if_neg]
      rw [gt_iff_lt, Int32.lt_iff_toInt_lt]
      rcases hle with hzero | hle
      · have heq : m.bankWithdraw t = 0 := Int32.toInt_inj.1 hzero
        rw [heq, Int32.sub_zero]
        show ¬ (0 : ℤ) < slotsPerDay G m t
        omega
      · rw [toInt_sub_of_le h0 hle]
        have : slotsPerDay G m t = (getRankBankTabSlotsPerDay G m.rankId t).toInt := rfl
        show ¬ (0 : ℤ) < _
        omega
  · have hbit : ¬ (rightsAndSlots G m.rankId t).rights &&& guildBankRightViewTab ≠ 0 := hview
    rw [if_neg hbit]
    exact ⟨fun h => absurd h.1 hview, fun _ => rfl⟩

/-- The counter of the member after `RemoveItem`, if it is below the items per day wherever the item
leaves a tab. -/
theorem removeItem_member (ep other : Endpoint) (hm : st.member = some m) (hrank : m.rankId ≠ grGuildMaster)
    (hlt : ∀ t, ep.Leaves t other → (m.bankWithdraw t).toInt < slotsPerDay G m t) :
    ∃ m', (ep.removeItem G st other k n).member = some m' ∧ m'.rankId = m.rankId ∧
      ∀ t, m'.bankWithdraw t =
        if ep.Leaves t other then m.bankWithdraw t + 1 else m.bankWithdraw t := by
  cases ep with
  | player pos =>
    refine ⟨m, hm, rfl, fun t => ?_⟩
    rw [if_neg fun h => h.1]
  | bank tabId slotId =>
    have hin : (Endpoint.bank tabId slotId).InTab tabId := rfl
    simp only [Endpoint.removeItem, hm]
    by_cases hsame : (Endpoint.bank tabId slotId).sameTab other = true
    · rw [if_pos hsame]
      refine ⟨m, rfl, rfl, fun t => ?_⟩
      rw [if_neg]
      rintro ⟨ht, hnot⟩
      exact hnot ((sameTab_iff ht).1 hsame)
    · rw [if_neg hsame]
      have hleaves : (Endpoint.bank tabId slotId).Leaves tabId other :=
        ⟨hin, fun h => hsame ((sameTab_iff hin).2 h)⟩
      refine ⟨{ m with
        bankWithdraw := Function.update m.bankWithdraw tabId (m.bankWithdraw tabId + 1) },
        ?_, rfl, fun t => ?_⟩
      · unfold updateMemberWithdrawSlots
        rw [Option.map_some, if_pos]
        exact ⟨hrank, Int32.lt_iff_toInt_lt.2 (hlt tabId hleaves)⟩
      · by_cases ht : t = tabId
        · subst ht
          rw [if_pos hleaves]
          exact Function.update_self _ _ _
        · rw [if_neg fun h => ht h.1.symm]
          exact Function.update_of_ne ht _ _

/-- With the right to withdraw, the counter is below the items per day and the tab may be viewed. -/
theorem of_hasWithdrawRights (hm : st.member = some m) (hrank : m.rankId ≠ grGuildMaster)
    (h : Tallied G m) (hright : ep.hasWithdrawRights G st other = true) (hl : ep.Leaves t other) :
    CanView G m t ∧ (m.bankWithdraw t).toInt < slotsPerDay G m t := by
  cases ep with
  | player pos => exact hl.1.elim
  | bank tabId slotId =>
    obtain ⟨rfl, hnot⟩ := hl
    simp only [Endpoint.hasWithdrawRights, Bool.or_eq_true, decide_eq_true_eq] at hright
    rcases hright with hsame | hne
    · have hin : (Endpoint.bank tabId slotId).InTab tabId := rfl
      exact absurd ((sameTab_iff hin).1 hsame) hnot
    · rw [hm] at hne
      by_contra hcontra
      exact hne ((remaining_eq hrank h tabId).2 hcontra)

/-! ### A move -/

/-- How a move ends: it is refused, or some or all of the units are moved, or two stacks are
swapped, with the rights to withdraw what leaves a tab. -/
inductive Moved (G : Guild) (st : Holdings) (src dst : Endpoint) : Bool × Holdings → Prop
  | refused (next : ℕ) : Moved G st src dst (false, { st with next := next })
  | moved (next : ℕ) (item clone : Item) (k n : ℕ) (dest : List (Pos × ℕ)) (hnext : st.next ≤ next)
    (hs : Holds G st item k src) (hn : n < k) (hright : src.hasWithdrawRights G st dst = true) :
    Moved G st src dst
      (true, dst.storeItem G (src.removeItem G { st with next := next } dst k n) dest clone)
  | swapped (item d : Item) (k j : ℕ) (dest dest' : List (Pos × ℕ)) (hs : Holds G st item k src)
    (hd : Holds G st d j dst) (hright : src.hasWithdrawRights G st dst = true)
    (hright' : dst.hasWithdrawRights G st src = true) :
    Moved G st src dst (true, src.storeItem G
      (dst.storeItem G (dst.removeItem G (src.removeItem G st dst k 0) src j 0) dest item) dest' d)

theorem moved_doItemsMove (hnext : st.next ≤ next) (clone : Item × ℕ) (hs : Holds G st item k src)
    (hn : n < k) (hright : src.hasWithdrawRights G st dst = true) :
    Moved G st src dst (doItemsMove G { st with next := next } src dst k none clone n) := by
  unfold doItemsMove
  cases hd : dst.canStore G { st with next := next } clone.1 clone.2
      (none : Option (Item × ℕ)).isSome with
  | error _ => exact .refused next
  | ok dest => exact .moved next item clone.1 k n dest hnext hs hn hright

theorem moved_doItemsMove_swap {d : Item} {j : ℕ} (hs : Holds G st item k src)
    (hd : Holds G st d j dst) (hright : src.hasWithdrawRights G st dst = true)
    (hright' : dst.hasWithdrawRights G st src = true) :
    Moved G st src dst (doItemsMove G st src dst k (some (d, j)) (item, k) 0) := by
  have hrefused : Moved G st src dst (false, st) := .refused st.next
  unfold doItemsMove
  dsimp only
  cases dst.canStore G st item k (some (d, j)).isSome with
  | error _ => exact hrefused
  | ok dest =>
    dsimp only
    cases src.canStore G st d j true with
    | error _ => exact hrefused
    | ok dest' => exact .swapped item d k j dest dest' hs hd hright hright'

theorem moved_moveItems (hv : st.Valid G) (splitedAmount : ℕ) :
    Moved G st src dst (moveItems G st src dst splitedAmount) := by
  have hrefused : Moved G st src dst (false, st) := .refused st.next
  unfold moveItems
  cases hi : src.initItem G st with
  | none => exact hrefused
  | some p =>
    obtain ⟨item, k⟩ := p
    have hs := holds_of_initItem hi
    have hk := (hs.bounds hv).1
    dsimp only
    by_cases hlt : k < splitedAmount
    · rw [if_pos hlt]
      exact hrefused
    rw [if_neg hlt]
    by_cases hstore : (!dst.hasStoreRights G st src) = true
    · rw [if_pos hstore]
      exact hrefused
    rw [if_neg hstore]
    by_cases hwithdraw : (!src.hasWithdrawRights G st dst) = true
    · rw [if_pos hwithdraw]
      exact hrefused
    rw [if_neg hwithdraw]
    rw [Bool.not_eq_true', Bool.not_eq_false] at hwithdraw
    by_cases hsplit : (if splitedAmount = k then 0 else splitedAmount) = 0
    · rw [if_neg (not_not.2 hsplit)]
      have hwhole := moved_doItemsMove le_rfl (item, k) hs hk hwithdraw
      by_cases hmerge : (doItemsMove G st src dst k none (item, k) 0).1 = true
      · rw [if_pos hmerge]
        exact hwhole
      rw [if_neg hmerge]
      cases hi' : dst.initItem G st with
      | none => exact hrefused
      | some q =>
        obtain ⟨d, j⟩ := q
        dsimp only
        by_cases hstore' : (!src.hasStoreRights G st dst) = true
        · rw [if_pos hstore']
          exact hrefused
        rw [if_neg hstore']
        by_cases hwithdraw' : (!dst.hasWithdrawRights G st src) = true
        · rw [if_pos hwithdraw']
          exact hrefused
        rw [if_neg hwithdraw']
        rw [Bool.not_eq_true', Bool.not_eq_false] at hwithdraw'
        exact moved_doItemsMove_swap hs (holds_of_initItem hi') hwithdraw hwithdraw'
    · rw [if_pos hsplit]
      have hn : (if splitedAmount = k then 0 else splitedAmount) < k := by
        split_ifs with heq
        · exact hk
        · omega
      cases cloneItem G.world item (if splitedAmount = k then 0 else splitedAmount) st.next with
      | none => exact hrefused
      | some clone => exact moved_doItemsMove (Nat.le_succ st.next) clone hs hn hwithdraw

/-- Both endpoints are in the tab. -/
def Endpoint.Within (src dst : Endpoint) (t : ℕ) : Prop := src.InTab t ∧ dst.InTab t

theorem leaves_or (hw : ¬ src.Within dst t) (hin : src.InTab t ∨ dst.InTab t) :
    src.Leaves t dst ∨ dst.Leaves t src := by
  rcases hin with h | h
  · exact .inl ⟨h, fun h' => hw ⟨h, h'⟩⟩
  · exact .inr ⟨h, fun h' => hw ⟨h', h⟩⟩

/-- Moving units of an item object: they leave the tab of the source, and no other. -/
theorem moved_tab {clone : Item} (hv : st.Valid G) (hs : Holds G st item k src) (hn : n < k)
    (hw : ¬ src.Within dst t) :
    TabKept t st.bank (dst.storeItem G (src.removeItem G st dst k n) dest clone).bank ↔
      ¬ src.Leaves t dst := by
  by_cases hsrc : src.InTab t
  · have hdst : ¬ dst.InTab t := fun h => hw ⟨hsrc, h⟩
    obtain ⟨c, hc, ht, hg, hk⟩ := hs.exists_mem hsrc
    have hlacks := (storeItem_same (G := G) dest clone hdst).lacks
      (removeItem_lacks dst hv hs hsrc hn)
    exact iff_of_false (hlacks.not_kept hc ht hg hk.ge) fun h => h ⟨hsrc, hdst⟩
  · exact iff_of_true ((removeItem_same hsrc).kept.trans (storeItem_kept dst dest clone))
      fun h => hsrc h.1

/-- Swapping two item objects: each leaves its tab. -/
theorem swapped_tab {d : Item} {j : ℕ} {dest' : List (Pos × ℕ)} (hv : st.Valid G)
    (hap : Apart src dst) (hs : Holds G st item k src) (hd : Holds G st d j dst)
    (hw : ¬ src.Within dst t) :
    TabKept t st.bank (src.storeItem G (dst.storeItem G
        (dst.removeItem G (src.removeItem G st dst k 0) src j 0) dest item) dest' d).bank ↔
      ¬ (src.InTab t ∨ dst.InTab t) := by
  have hne := hap.guid_ne hv hs hd
  have hslt := (hs.bounds hv).2.2
  have hdlt := (hd.bounds hv).2.2
  obtain ⟨hv₁, -, hnext₁, -⟩ := removeItem_whole dst hv hs
  have hd₁ := hs.removeItem dst hap hd
  obtain ⟨-, -, hnext₂, -⟩ := removeItem_whole src hv₁ hd₁
  have hnext := hnext₂.trans hnext₁
  have hlacks₁ : Lacks t item.guid 0 (src.removeItem G st dst k 0).bank :=
    removeItem_lacks_whole dst hv hs
  have hlacks₂ := removeItem_lacks_whole (t := t) src hv₁ hd₁
  set st₁ := src.removeItem G st dst k 0 with hst₁
  set st₂ := dst.removeItem G st₁ src j 0 with hst₂
  -- what is stored in the tab of the one object is the other object
  by_cases hsrc : src.InTab t
  · have hdst : ¬ dst.InTab t := fun h => hw ⟨hsrc, h⟩
    obtain ⟨c, hc, ht, hg, -⟩ := hs.exists_mem hsrc
    have h₂ : TabSame t st₁.bank st₂.bank := removeItem_same hdst
    have h₃ := h₂.trans (storeItem_same (G := G) dest item hdst)
    have hlt : item.guid < (dst.storeItem G st₂ dest item).next :=
      lt_of_lt_of_le (hnext.symm ▸ hslt) next_le_endpointStoreItem
    have h₄ := storeItem_lacks (G := G) src dest' hne.symm hlt (h₃.lacks hlacks₁)
    exact iff_of_false (h₄.not_kept hc ht hg (Nat.zero_le _)) fun h => h (.inl hsrc)
  · by_cases hdst : dst.InTab t
    · obtain ⟨c, hc, ht, hg, -⟩ := hd.exists_mem hdst
      have h₃ := storeItem_lacks (G := G) dst dest hne (hnext.symm ▸ hdlt) hlacks₂
      have h₄ := (storeItem_same (G := G) dest' d hsrc).lacks h₃
      exact iff_of_false (h₄.not_kept hc ht hg (Nat.zero_le _)) fun h => h (.inr hdst)
    · have h₁ : TabSame t st.bank st₁.bank := removeItem_same hsrc
      have h₂ : TabSame t st₁.bank st₂.bank := removeItem_same hdst
      have h₃ := (h₁.trans h₂).kept.trans (storeItem_kept (G := G) dst dest item)
      have h₄ := h₃.trans (storeItem_kept (G := G) src dest' d)
      exact iff_of_true h₄ fun h => h.elim hsrc hdst

/-! ### The counters of a request -/

/-- How a request changes the counters of the member: one more for each tab that something was taken
out of, which he may view and where he is within the items per day. -/
structure SlotStep (G : Guild) (took : ℕ → Prop) (m m' : Member) : Prop where
  rank : m'.rankId = m.rankId
  kept : ∀ t, ¬ took t → m'.bankWithdraw t = m.bankWithdraw t
  counted : ∀ t, took t → CanView G m t ∧ (m.bankWithdraw t).toInt < slotsPerDay G m t ∧
    m'.bankWithdraw t = m.bankWithdraw t + 1

theorem SlotStep.of_not {took : ℕ → Prop} (h : ∀ t, ¬ took t) : SlotStep G took m m :=
  ⟨rfl, fun _ _ => rfl, fun t ht => absurd ht (h t)⟩

/-- A move takes out of the tabs it leaves, and counts each. -/
theorem slotStep_moved (hv : st.Valid G) (hap : Apart src dst) (hm : st.member = some m)
    (hrank : m.rankId ≠ grGuildMaster) (ht : Tallied G m) {r : Bool × Holdings}
    (h : Moved G st src dst r) :
    ∃ m', r.2.member = some m' ∧
      SlotStep G (fun t => ¬ src.Within dst t ∧ ¬ TabKept t st.bank r.2.bank) m m' := by
  cases h with
  | refused next => exact ⟨m, hm, .of_not fun t h => h.2 (.refl t _)⟩
  | moved next item clone k n dest hnext hs hn hright =>
    have hs' : Holds G { st with next := next } item k src := by
      cases src <;> exact hs
    have hlt := fun t hl => of_hasWithdrawRights (t := t) hm hrank ht hright hl
    have hm₀ : ({ st with next := next } : Holdings).member = some m := hm
    obtain ⟨m', hm', hrank', hcount⟩ := removeItem_member (G := G) (k := k) (n := n) src dst hm₀ hrank
      fun t hl => (hlt t hl).2
    refine ⟨m', storeItem_member.trans hm', hrank', fun t htook => ?_, fun t htook => ?_⟩
    · rw [hcount, if_neg]
      intro hl
      exact htook ⟨fun hw => hl.2 hw.2,
        fun hkept => (moved_tab (hv.mono hnext) hs' hn fun hw => hl.2 hw.2).1 hkept hl⟩
    · obtain ⟨hw, hkept⟩ := htook
      have hl : src.Leaves t dst :=
        not_not.1 fun hl => hkept ((moved_tab (hv.mono hnext) hs' hn hw).2 hl)
      refine ⟨(hlt t hl).1, (hlt t hl).2, ?_⟩
      rw [hcount, if_pos hl]
  | swapped item d k j dest dest' hs hd hright hright' =>
    have hlt := fun t hl => of_hasWithdrawRights (t := t) hm hrank ht hright hl
    have hlt' := fun t hl => of_hasWithdrawRights (t := t) hm hrank ht hright' hl
    obtain ⟨m₁, hm₁, hrank₁, hcount₁⟩ := removeItem_member (G := G) (k := k) (n := 0) src dst hm hrank
      fun t hl => (hlt t hl).2
    have hsame : ∀ t, dst.Leaves t src → m₁.bankWithdraw t = m.bankWithdraw t := by
      intro t hl
      rw [hcount₁, if_neg fun h => h.2 hl.1]
    have hlt₁ : ∀ t, dst.Leaves t src → (m₁.bankWithdraw t).toInt < slotsPerDay G m₁ t := by
      intro t hl
      unfold slotsPerDay
      rw [hsame t hl, hrank₁]
      exact (hlt' t hl).2
    obtain ⟨m₂, hm₂, hrank₂, hcount₂⟩ := removeItem_member (G := G) (k := j) (n := 0) dst src hm₁
      (hrank₁ ▸ hrank) hlt₁
    have hcount : ∀ t, m₂.bankWithdraw t = if src.Leaves t dst ∨ dst.Leaves t src
        then m.bankWithdraw t + 1 else m.bankWithdraw t := by
      intro t
      rw [hcount₂]
      by_cases hl : dst.Leaves t src
      · rw [if_pos hl, if_pos (.inr hl), hsame t hl]
      · rw [if_neg hl, hcount₁]
        simp only [hl, or_false]
    refine ⟨m₂, (storeItem_member.trans storeItem_member).trans hm₂, hrank₂.trans hrank₁,
      fun t htook => ?_, fun t htook => ?_⟩
    · rw [hcount, if_neg]
      intro hl
      have hw : ¬ src.Within dst t := fun hw => hl.elim (fun h => h.2 hw.2) fun h => h.2 hw.1
      exact htook ⟨hw, fun hkept => (swapped_tab hv hap hs hd hw).1 hkept
        (hl.imp (fun h => h.1) fun h => h.1)⟩
    · obtain ⟨hw, hkept⟩ := htook
      have hin := not_not.1 fun hin => hkept ((swapped_tab hv hap hs hd hw).2 hin)
      have hl := leaves_or hw hin
      have hview := hl.elim (hlt t) (hlt' t)
      refine ⟨hview.1, hview.2, ?_⟩
      rw [hcount, if_pos hl]

section
variable {took : ℕ → Prop}

theorem SlotStep.slotsPerDay_eq (h : SlotStep G took m m') (t : ℕ) :
    slotsPerDay G m' t = slotsPerDay G m t := by
  unfold slotsPerDay
  rw [h.rank]

theorem SlotStep.canView_iff (h : SlotStep G took m m') (t : ℕ) :
    CanView G m' t ↔ CanView G m t := by
  unfold CanView
  rw [h.rank]

/-- What was taken out of a tab is counted once. -/
theorem SlotStep.toInt_counted (h : SlotStep G took m m') (ht : took t) :
    (m'.bankWithdraw t).toInt = (m.bankWithdraw t).toInt + 1 := by
  obtain ⟨-, hlt, heq⟩ := h.counted t ht
  rw [heq]
  exact toInt_succ hlt (Int32.toInt_lt _)

theorem SlotStep.tallied (h : SlotStep G took m m') (ht : Tallied G m) : Tallied G m' := by
  intro t
  obtain ⟨h0, hle⟩ := ht t
  rw [h.slotsPerDay_eq]
  by_cases htook : took t
  · have hlt := (h.counted t htook).2.1
    rw [h.toInt_counted htook]
    omega
  · rw [h.kept t htook]
    exact ⟨h0, hle⟩

theorem SlotStep.remaining (h : SlotStep G took m m') (ht : Tallied G m)
    (hrank : m.rankId ≠ grGuildMaster) (t : ℕ) :
    (took t → getMemberRemainingSlots G (some m) t ≠ 0 ∧
        (getMemberRemainingSlots G (some m') t).toInt =
          (getMemberRemainingSlots G (some m) t).toInt - 1) ∧
      (¬ took t →
        getMemberRemainingSlots G (some m') t = getMemberRemainingSlots G (some m) t) := by
  constructor
  · intro htook
    obtain ⟨hview, hlt, -⟩ := h.counted t htook
    have hleft := (remaining_eq hrank ht t).1 ⟨hview, hlt⟩
    have hrank' : m'.rankId ≠ grGuildMaster := h.rank ▸ hrank
    have hcount := h.toInt_counted htook
    have hper := h.slotsPerDay_eq t
    constructor
    · intro hzero
      rw [hzero] at hleft
      have : (0 : Int32).toInt = 0 := rfl
      omega
    · by_cases hlt' : (m'.bankWithdraw t).toInt < slotsPerDay G m' t
      · rw [(remaining_eq hrank' (h.tallied ht) t).1 ⟨(h.canView_iff t).2 hview, hlt'⟩]
        omega
      · rw [(remaining_eq hrank' (h.tallied ht) t).2 fun hv => hlt' hv.2]
        have : (0 : Int32).toInt = 0 := rfl
        omega
  · intro htook
    have heq := h.kept t htook
    unfold getMemberRemainingSlots
    simp only [h.rank, heq]

end

/-! ### Calls -/

/-- The call is between two slots of the tab. -/
def Call.Within : Call → ℕ → Prop
  | .swapItems tabId _ destTabId _ _, t => tabId = t ∧ destTabId = t
  | .swapItemsWithInventory _ _ _ _ _, _ => False

instance (call : Call) (t : ℕ) : Decidable (call.Within t) := by
  unfold Call.Within
  cases call <;> infer_instance

/-- A call took something out of the tab, to the inventory or to another tab. -/
def Took (call : Call) (st st' : Holdings) (t : ℕ) : Prop :=
  ¬ call.Within t ∧ ¬ TabKept t st.bank st'.bank

instance (call : Call) : Decidable (Took call st st' t) :=
  inferInstanceAs (Decidable (¬ _ ∧ ¬ _))

/-- How many calls of a sequence take something out of the tab. -/
def takings (G : Guild) (t : ℕ) : Holdings → List Call → ℕ
  | _, [] => 0
  | st, call :: calls =>
    (if Took call st (step G st call).2 t then 1 else 0) + takings G t (step G st call).2 calls

theorem takings_cons (call : Call) (calls : List Call) :
    takings G t st (call :: calls) = (if Took call st (step G st call).2 t then 1 else 0) +
      takings G t (step G st call).2 calls := rfl

theorem not_took_of_refused (hv : st.Valid G) {call : Call} (h : (step G st call).1 = false) :
    ¬ Took call st (step G st call).2 t := by
  rintro ⟨-, hkept⟩
  rw [((conserved_step hv call).refused h).1] at hkept
  exact hkept (.refl t _)

theorem slotStep_step (hv : st.Valid G) (hm : st.member = some m)
    (hrank : m.rankId ≠ grGuildMaster) (ht : Tallied G m) (call : Call) :
    ∃ m', (step G st call).2.member = some m' ∧
      SlotStep G (fun t => Took call st (step G st call).2 t) m m' := by
  have hnone : ∃ m', st.member = some m' ∧ SlotStep G (fun t => Took call st st t) m m' :=
    ⟨m, hm, .of_not fun t h => h.2 (.refl t _)⟩
  cases call with
  | swapItems tabId slotId destTabId destSlotId splitedAmount =>
    simp only [step, swapItems]
    split_ifs with hslots hsame
    · exact hnone
    · exact hnone
    · have hap : Apart (.bank tabId slotId) (.bank destTabId destSlotId) :=
        fun heq => hsame (Prod.mk.inj heq)
      exact slotStep_moved hv hap hm hrank ht (moved_moveItems hv splitedAmount)
  | swapItemsWithInventory toChar tabId slotId playerPos splitedAmount =>
    simp only [step, swapItemsWithInventory]
    split_ifs with hslots hchar
    · exact hnone
    · have hap : Apart (.bank tabId slotId) (.player playerPos) := trivial
      obtain ⟨m', hm', hstep⟩ := slotStep_moved hv hap hm hrank ht (moved_moveItems hv splitedAmount)
      exact ⟨m', hm', hstep.rank, fun t h => hstep.kept t fun h' => h ⟨id, h'.2⟩,
        fun t h => hstep.counted t ⟨fun hw => hw.2, h.2⟩⟩
    · have hap : Apart (.player playerPos) (.bank tabId slotId) := trivial
      obtain ⟨m', hm', hstep⟩ := slotStep_moved hv hap hm hrank ht (moved_moveItems hv splitedAmount)
      exact ⟨m', hm', hstep.rank, fun t h => hstep.kept t fun h' => h ⟨id, h'.2⟩,
        fun t h => hstep.counted t ⟨fun hw => hw.1, h.2⟩⟩

/-! ### The limit -/

/-- What holds between the calls of the member. -/
structure Limited (G : Guild) (rankId : ℕ) (st : Holdings) : Prop where
  valid : st.Valid G
  member : ∃ m, st.member = some m ∧ m.rankId = rankId ∧ Tallied G m

/-- A call takes out of the tab only if something is left of the items per day, of which it takes
one; else, and if it is refused, what is left stays. -/
def CountsExactly (G : Guild) (t : ℕ) (st : Holdings) (call : Call) : Prop :=
  let left := getMemberRemainingSlots G st.member t
  let left' := getMemberRemainingSlots G (step G st call).2.member t
  (Took call st (step G st call).2 t → left ≠ 0 ∧ left'.toInt = left.toInt - 1) ∧
    (¬ Took call st (step G st call).2 t → left' = left) ∧
    ((step G st call).1 = false → ¬ Took call st (step G st call).2 t)

theorem limited_step {rankId : ℕ} (hrank : rankId ≠ grGuildMaster) (h : Limited G rankId st)
    (call : Call) : Limited G rankId (step G st call).2 := by
  obtain ⟨hv, m, hm, rfl, ht⟩ := h
  obtain ⟨m', hm', hstep⟩ := slotStep_step hv hm hrank ht call
  exact ⟨(conserved_step hv call).valid, m', hm', hstep.rank, hstep.tallied ht⟩

theorem countsExactly_step {rankId : ℕ} (hrank : rankId ≠ grGuildMaster) (h : Limited G rankId st)
    (t : ℕ) (call : Call) : CountsExactly G t st call := by
  obtain ⟨hv, m, hm, rfl, ht⟩ := h
  obtain ⟨m', hm', hstep⟩ := slotStep_step hv hm hrank ht call
  obtain ⟨hcount, hkept⟩ := hstep.remaining ht hrank t
  unfold CountsExactly
  rw [hm, hm']
  exact ⟨hcount, hkept, not_took_of_refused hv⟩

/-- Along a sequence of calls, the counter is what was taken. -/
theorem takings_run (hv : st.Valid G) (hm : st.member = some m) (hrank : m.rankId ≠ grGuildMaster)
    (ht : Tallied G m) (calls : List Call) :
    ∃ m' : Member, Tallied G m' ∧ m'.rankId = m.rankId ∧
      (m'.bankWithdraw t).toInt = (m.bankWithdraw t).toInt + takings G t st calls ∧
      (¬ CanView G m t → takings G t st calls = 0) := by
  induction calls generalizing st m with
  | nil => exact ⟨m, ht, rfl, (add_zero _).symm, fun _ => rfl⟩
  | cons call calls ih =>
    obtain ⟨m₁, hm₁, hstep⟩ := slotStep_step hv hm hrank ht call
    obtain ⟨m', ht', hrank', hcount, hview⟩ := ih (conserved_step hv call).valid hm₁
      (hstep.rank ▸ hrank) (hstep.tallied ht)
    refine ⟨m', ht', hrank'.trans hstep.rank, ?_, fun hnot => ?_⟩
    · rw [hcount, takings_cons]
      split_ifs with htook
      · have := hstep.toInt_counted htook
        omega
      · have := congrArg Int32.toInt (hstep.kept t htook)
        omega
    · rw [takings_cons, if_neg fun htook => hnot (hstep.counted t htook).1,
        hview fun h => hnot ((hstep.canView_iff t).1 h)]

/-- **Main result.** A member who is not the guild master starts with nothing taken: of his calls, at
most as many as the items per day of his rank take something out of a tab, none if the rank may not
view it, and each of those takes exactly one from what is left, while the others, and the refused
ones among them, take none. -/
theorem guild_bank_slot_limit (G : Guild) (st : Holdings) (hst : st.Valid G) (m : Member)
    (hm : st.member = some m) (hrank : m.rankId ≠ grGuildMaster)
    (hreset : ∀ t, m.bankWithdraw t = 0) (calls : List Call) (t : ℕ) :
    (takings G t st calls : ℤ) ≤ max 0 (slotsPerDay G m t) ∧
      (¬ CanView G m t → takings G t st calls = 0) ∧
      EachStep (fun st call => (step G st call).2) (CountsExactly G t) st calls := by
  have ht : Tallied G m := by
    intro t
    rw [hreset]
    exact ⟨le_rfl, .inl rfl⟩
  obtain ⟨m', ht', hrank', hcount, hview⟩ := takings_run (t := t) hst hm hrank ht calls
  refine ⟨?_, hview, ?_⟩
  · have hle := (ht' t).2
    have hper : slotsPerDay G m' t = slotsPerDay G m t := by
      unfold slotsPerDay
      rw [hrank']
    rw [hreset] at hcount
    have hzero : (0 : Int32).toInt = 0 := rfl
    omega
  · refine EachStep.mono_inv (I := Limited G m.rankId) (C := fun _ _ => True) (fun _ _ _ => trivial)
      ⟨hst, m, hm, rfl, ht⟩ (fun st call h _ => limited_step hrank h call)
      fun st call h _ => countsExactly_step hrank h t call

/-- A guild whose second rank may take one item a day out of the tab. -/
def dailyGuild : Guild :=
  { sampleGuild with
    ranks := [fun _ => ⟨0xFF, guildWithdrawSlotUnlimited⟩, fun _ => ⟨guildBankRightViewTab, 1⟩]
    isLeader := false }

/-- The member of the second rank. -/
def dailyHoldings : Holdings := { sampleHoldings with member := some ⟨1, fun _ => 0⟩ }

/-- Of two calls that take two units each, the second is refused. -/
theorem guild_bank_slot_limit_two_calls :
    takings dailyGuild 0 dailyHoldings
        [.swapItemsWithInventory true 0 0 (255, 24) 2,
          .swapItemsWithInventory true 0 0 (255, 25) 2] = 1 ∧
      CountsExactly dailyGuild 0 dailyHoldings (.swapItemsWithInventory true 0 0 (255, 24) 2) :=
  ⟨by decide +kernel,
    (guild_bank_slot_limit dailyGuild dailyHoldings
      ⟨sampleHoldings_valid.bank, sampleHoldings_valid.bags, sampleHoldings_valid.apart,
        sampleHoldings_valid.bankStacked, sampleHoldings_valid.bagsStacked⟩
      ⟨1, fun _ => 0⟩ rfl (by decide) (fun _ => rfl)
      [.swapItemsWithInventory true 0 0 (255, 24) 2] 0).2.2 [] _ (List.prefix_refl _)⟩

end FaceCore.Storage.GuildItems
