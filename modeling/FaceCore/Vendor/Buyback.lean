import FaceCore.Lib.Runs
import FaceCore.Vendor.Sale

/-!
# What the buyback slots discard

`Player::AddItemToBuyBackSlot` looks for a free slot when the current one is taken, but what it finds
is overwritten by the oldest slot that it has seen before.

* `Customer.discarded`: the stack that an addition deletes;
* `DiscardsRightly`: only a full list loses a stack, and an oldest one;
* `SearchRight`: the searches that end at the right slot;
* `buyback_discards_iff`: a run from empty slots discards rightly exactly if all its searches are of
  these.
-/

namespace FaceCore.Storage.Vendor

/-- The calls: an addition, of nothing or of a stack at some time, and a removal without deletion. -/
inductive BuybackCall
  | addItemToBuyBackSlot (pItem : Option (Item × ℕ)) (etime : UInt32)
  | removeItemFromBuyBackSlot (slot : ℕ)

variable {v : Creature} {s : Customer} {buyback : ℕ → BuybackSlot} {is : List ℕ} {c : BuybackCall}

/-- What a call does. -/
def Customer.step (v : Creature) (s : Customer) : BuybackCall → Customer
  | .addItemToBuyBackSlot none _ => s
  | .addItemToBuyBackSlot (some (item, count)) etime => s.addItemToBuyBackSlot v item count etime
  | .removeItemFromBuyBackSlot slot => s.removeItemFromBuyBackSlot slot

/-- The stack that the call deletes: an addition deletes what the slot holds that it takes. -/
def Customer.discarded (s : Customer) : BuybackCall → Option (Item × ℕ)
  | .addItemToBuyBackSlot (some _) _ => (s.buyback s.slotForBuyBack).item
  | _ => none

/-- The buyback slots. -/
def IsBuybackSlot (i : ℕ) : Prop := buybackSlotStart ≤ i ∧ i < buybackSlotEnd

/-- No buyback slot is free. -/
def Customer.Full (s : Customer) : Prop := ∀ i, IsBuybackSlot i → (s.buyback i).item.isSome = true

/-- A stack is deleted only when all slots are occupied, and then one with the smallest timestamp. -/
def DiscardsRightly (s : Customer) (c : BuybackCall) : Prop :=
  (s.discarded c).isSome = true → s.Full ∧
    ∀ i, IsBuybackSlot i → (s.buyback s.slotForBuyBack).timestamp ≤ (s.buyback i).timestamp

/-- The current slot is free, or the first one, or none. -/
def SearchRight (s : Customer) : BuybackCall → Prop
  | .addItemToBuyBackSlot (some _) _ =>
    (s.buyback s.currentBuybackSlot).item.isNone = true ∨
      (s.buyback buybackSlotStart).item.isNone = true ∨ s.Full
  | _ => True

/-- What the calls keep: the current slot is a buyback slot, and a free slot has no timestamp. -/
structure Customer.Tidy (s : Customer) : Prop where
  current : IsBuybackSlot s.currentBuybackSlot
  timestamp : ∀ i, (s.buyback i).item.isNone = true → (s.buyback i).timestamp = 0

/-- A player who has sold nothing yet. -/
structure Customer.SoldNothing (s : Customer) : Prop where
  buyback : ∀ i, s.buyback i = .empty
  current : s.currentBuybackSlot = buybackSlotStart

theorem Customer.SoldNothing.tidy (h : s.SoldNothing) : s.Tidy where
  current := by
    rw [h.current]
    exact ⟨Nat.le_refl _, by decide⟩
  timestamp i _ := by
    rw [h.buyback i]
    rfl

/-! ### The search for the oldest slot -/

theorem oldestFrom_zero (slot : ℕ) : oldestFrom buyback is 0 slot = slot := by
  induction is with
  | nil => rfl
  | cons i is ih =>
    have hnot : ¬ (0 : UInt32) > (buyback i).timestamp := UInt32.not_lt_zero
    unfold oldestFrom
    rw [if_neg hnot, ih, ite_self]

/-- The search breaks off at a free slot, so what it returns is occupied. -/
theorem oldestFrom_occupied {t : UInt32} {slot : ℕ} (h : (buyback slot).item.isSome = true) :
    (buyback (oldestFrom buyback is t slot)).item.isSome = true := by
  induction is generalizing t slot with
  | nil => exact h
  | cons i is ih =>
    unfold oldestFrom
    split_ifs with hfree hold
    · exact h
    · exact ih (by simpa [Option.isSome_iff_ne_none] using hfree)
    · exact ih h

/-- Among occupied slots the search finds an oldest one. -/
theorem oldestFrom_oldest (slot : ℕ) (h : ∀ i ∈ is, (buyback i).item.isSome = true) :
    ∀ i ∈ slot :: is, (buyback (oldestFrom buyback is (buyback slot).timestamp slot)).timestamp ≤
      (buyback i).timestamp := by
  induction is generalizing slot with
  | nil => simp [oldestFrom]
  | cons j is ih =>
    rw [List.forall_mem_cons] at h
    have hoccupied : ¬ (buyback j).item.isNone = true := by
      simpa [Option.isSome_iff_ne_none] using h.1
    unfold oldestFrom
    rw [if_neg hoccupied]
    split_ifs with hold
    · have hrest := ih j h.2
      exact List.forall_mem_cons.2 ⟨UInt32.le_trans (hrest j List.mem_cons_self) (UInt32.le_of_lt hold),
        hrest⟩
    · have hrest := ih slot h.2
      rw [List.forall_mem_cons] at hrest
      refine List.forall_mem_cons.2 ⟨hrest.1, List.forall_mem_cons.2 ⟨?_, hrest.2⟩⟩
      exact UInt32.le_trans hrest.1 (UInt32.not_lt.1 hold)

theorem mem_searched {i : ℕ} : i ∈ buybackSlotStart ::
    List.range' (buybackSlotStart + 1) (buybackSlotEnd - (buybackSlotStart + 1)) ↔
      IsBuybackSlot i := by
  rw [List.mem_cons, List.mem_range'_1, IsBuybackSlot]
  simp only [buybackSlotStart, buybackSlotEnd]
  omega

/-! ### One call -/

theorem Customer.Tidy.remove (h : s.Tidy) (slot : ℕ) : (s.removeItemFromBuyBackSlot slot).Tidy := by
  unfold Customer.removeItemFromBuyBackSlot
  split_ifs with hslot
  · refine ⟨?_, fun i => ?_⟩
    · dsimp only
      split_ifs
      · exact hslot
      · exact h.current
    · by_cases hi : i = slot
      · subst hi
        simp [BuybackSlot.empty]
      · simpa [hi] using h.timestamp i
  · exact h

theorem Customer.Tidy.add (h : s.Tidy) (item : Item) (count : ℕ) (etime : UInt32) :
    (s.addItemToBuyBackSlot v item count etime).Tidy := by
  have hr := h.remove s.slotForBuyBack
  refine ⟨?_, fun i => ?_⟩
  · obtain ⟨hle, hlt⟩ := hr.current
    unfold Customer.addItemToBuyBackSlot IsBuybackSlot
    dsimp only
    split_ifs <;> omega
  · by_cases hi : i = s.slotForBuyBack
    · subst hi
      simp [Customer.addItemToBuyBackSlot]
    · simpa [Customer.addItemToBuyBackSlot, hi] using hr.timestamp i

theorem Customer.Tidy.step (h : s.Tidy) (c : BuybackCall) : (s.step v c).Tidy := by
  cases c with
  | addItemToBuyBackSlot pItem etime =>
    cases pItem with
    | none => exact h
    | some p => exact h.add p.1 p.2 etime
  | removeItemFromBuyBackSlot slot => exact h.remove slot

/-- A search for a full list finds the oldest slot. -/
theorem slotForBuyBack_oldest (h : s.Tidy) (hfull : s.Full) :
    ∀ i, IsBuybackSlot i → (s.buyback s.slotForBuyBack).timestamp ≤ (s.buyback i).timestamp := by
  intro i hi
  unfold Customer.slotForBuyBack
  rw [if_pos (hfull _ h.current)]
  refine oldestFrom_oldest _ (fun j hj => hfull j ?_) i (mem_searched.2 hi)
  exact mem_searched.1 (List.mem_cons_of_mem _ hj)

/-- One call discards rightly exactly if its search ends at the right slot. -/
theorem discardsRightly_iff (h : s.Tidy) : DiscardsRightly s c ↔ SearchRight s c := by
  rcases c with ⟨_ | p, etime⟩ | slot
  · exact iff_of_true nofun trivial
  · unfold DiscardsRightly SearchRight Customer.discarded
    dsimp only
    constructor
    · intro hright
      by_contra hsearch
      simp only [not_or, Bool.not_eq_true, Option.isNone_eq_false_iff] at hsearch
      obtain ⟨hcurrent, hfirst, hfull⟩ := hsearch
      refine hfull (hright ?_).1
      unfold Customer.slotForBuyBack
      rw [if_pos hcurrent]
      exact oldestFrom_occupied hfirst
    · rintro (hcurrent | hfirst | hfull) hsome
      · have hslot : s.slotForBuyBack = s.currentBuybackSlot :=
          if_neg (by simpa using hcurrent)
        rw [hslot, Option.isNone_iff_eq_none.1 hcurrent] at hsome
        cases hsome
      · -- a free first slot has no timestamp, so the search does not leave it
        by_cases hcurrent : (s.buyback s.currentBuybackSlot).item.isSome = true
        · have hslot : s.slotForBuyBack = buybackSlotStart := by
            unfold Customer.slotForBuyBack
            rw [if_pos hcurrent, h.timestamp _ hfirst, oldestFrom_zero]
          rw [hslot, Option.isNone_iff_eq_none.1 hfirst] at hsome
          cases hsome
        · have hslot : s.slotForBuyBack = s.currentBuybackSlot := if_neg hcurrent
          rw [hslot] at hsome
          exact absurd hsome hcurrent
      · exact ⟨hfull, slotForBuyBack_oldest h hfull⟩
  · exact iff_of_true nofun trivial

/-! ### Runs -/

/-- **Main result.** A run from empty buyback slots discards rightly exactly if, at each addition, the
current slot is free, or the first one, or none. -/
theorem buyback_discards_iff (h : s.SoldNothing) (calls : List BuybackCall) :
    Runs.EachStep (Customer.step v) DiscardsRightly s calls ↔
      Runs.EachStep (Customer.step v) SearchRight s calls :=
  Runs.eachStep_iff h.tidy (fun _ c hs _ => hs.step c) fun _ _ hs => discardsRightly_iff hs

/-- A sale of a stack of `guid` at the time `etime`. -/
def sale (guid : ℕ) (etime : UInt32) : BuybackCall :=
  .addItemToBuyBackSlot (some (⟨guid, 20, false, []⟩, 1)) etime

/-- Two sales, and the first stack bought back. -/
theorem buyback_discards_two : Runs.EachStep (Customer.step payTen) DiscardsRightly (threeUnits 0)
    [sale 2 10, sale 3 11, .removeItemFromBuyBackSlot 74] := by
  refine (buyback_discards_iff ⟨fun _ => rfl, rfl⟩ _).2 ?_
  simp only [Runs.eachStep_cons, sale, SearchRight]
  exact ⟨.inl rfl, .inl rfl, trivial, Runs.EachStep.nil _⟩

/-- Twelve sales fill the slots, and two stacks are bought back. -/
def twoBoughtBack : List BuybackCall :=
  (List.range 12).map (fun i => sale (2 + i) (10 + .ofNat i)) ++
    [.removeItemFromBuyBackSlot 80, .removeItemFromBuyBackSlot 82]

/-- Of two sales after that the second one deletes the stack of slot 74, with slot 82 free. -/
theorem buyback_discards_needlessly : (threeUnits 0).SoldNothing ∧
    ¬ Runs.EachStep (Customer.step payTen) DiscardsRightly (threeUnits 0)
      (twoBoughtBack ++ [sale 14 30, sale 15 31]) := by
  refine ⟨⟨fun _ => rfl, rfl⟩, fun h => ?_⟩
  have hright := h (twoBoughtBack ++ [sale 14 30]) (sale 15 31) (by simp)
  have hfree : (((twoBoughtBack ++ [sale 14 30]).foldl (Customer.step payTen)
      (threeUnits 0)).buyback 82).item.isSome = false := by decide +kernel
  rw [(hright (by decide +kernel)).1 82 ⟨by decide, by decide⟩] at hfree
  cases hfree

end FaceCore.Storage.Vendor
