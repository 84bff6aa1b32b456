import FaceCore.Lib.FixedWidth
import Mathlib.Data.List.Nodup
import Mathlib.Algebra.BigOperators.Group.List.Basic

/-!
# Items and the inventory

The item objects of a player, with the fields that the handlers of mails and auctions read. The
handlers keep pointers to items across the loop that takes them out of the inventory, so an object
that left its slot keeps its fields: `stored` says whether it still sits in a slot. A guid names
one object.

* `getItemByGuid`, `moveItemFromInventory`: `Player::GetItemByGuid`, `MoveItemFromInventory`;
* `units inv e`: how many units of the entry `e` the inventory holds.
-/

namespace FaceCore

/-- `GUID_LOPART`. -/
def guidLoPart (guid : UInt64) : UInt32 := guid.toUInt32

/-- An item object. -/
structure Item where
  guid : UInt64
  entry : UInt32
  /-- `ITEM_FIELD_STACK_COUNT`. -/
  count : UInt32
  /-- `ItemTemplate::GetMaxStackSize`. -/
  maxStackCount : UInt32
  /-- The object sits in a slot of its owner. -/
  stored : Bool
  /-- `m_lootGenerated`. -/
  lootGenerated : Bool
  /-- `ITEM_FLAG_SOULBOUND`, `ITEM_FLAG_BOP_TRADEABLE` and `ITEM_FLAG_WRAPPED`. -/
  soulBound : Bool
  bopTradeable : Bool
  wrapped : Bool
  /-- The template flags `ITEM_PROTO_FLAG_BIND_TO_ACCOUNT` and `ITEM_PROTO_FLAG_CONJURED`. -/
  boundAccountWide : Bool
  conjured : Bool
  /-- `ITEM_FIELD_DURATION`. -/
  duration : UInt32
  /-- The item is a bag, it is equipped as one, it holds something. -/
  isBag : Bool
  inBagPos : Bool
  notEmptyBag : Bool
  /-- `Player::CanUnequipItem` answers `EQUIP_ERR_OK` for its position. -/
  canUnequip : Bool
  /-- Its owner has it open as a loot container. -/
  beingLooted : Bool
  boundByEnchant : Bool
  deriving DecidableEq

/-- `Item::CanBeTraded`. -/
def Item.canBeTraded (it : Item) (mail trade : Bool) : Bool :=
  !it.lootGenerated &&
    !((!mail || !it.boundAccountWide) && (it.soulBound && (!it.bopTradeable || !trade))) &&
    !(it.isBag && (it.inBagPos || it.notEmptyBag)) &&
    it.canUnequip && !it.beingLooted && !it.boundByEnchant

/-- `Item::IsNotEmptyBag`. -/
def Item.isNotEmptyBag (it : Item) : Bool := it.isBag && it.notEmptyBag

/-- The item objects of a player; a guid names one of them. -/
structure Inventory where
  items : List Item
  nodup : (items.map Item.guid).Nodup

namespace Inventory

/-- `Player::GetItemByGuid`: the search goes over the slots. -/
def getItemByGuid (inv : Inventory) (guid : UInt64) : Option Item :=
  inv.items.find? fun it => it.stored && it.guid == guid

/-- Change the object with the given guid. -/
def update (inv : Inventory) (guid : UInt64) (f : Item → Item)
    (hf : ∀ it, (f it).guid = it.guid) : Inventory where
  items := inv.items.map fun it => if it.guid = guid then f it else it
  nodup := by
    have h : (Item.guid ∘ fun it => if it.guid = guid then f it else it) = Item.guid := by
      funext it
      by_cases hg : it.guid = guid <;> simp [hg, hf]
    rw [List.map_map, h]
    exact inv.nodup

/-- `Player::MoveItemFromInventory` at the position of the object `guid`. An object that already
left its slot has position `NULL_SLOT`, where nothing is found. -/
def moveItemFromInventory (inv : Inventory) (guid : UInt64) : Inventory :=
  inv.update guid (fun it => { it with stored := false }) fun _ => rfl

/-- The units of the entry `e` that an object contributes. -/
def unitsOf (e : UInt32) (it : Item) : ℕ := if it.stored ∧ it.entry = e then it.count.toNat else 0

/-- The units of the entry `e` in the inventory. -/
def units (inv : Inventory) (e : UInt32) : ℕ := (inv.items.map (unitsOf e)).sum

variable {inv : Inventory} {guid : UInt64} {it : Item}

theorem getItemByGuid_some (h : inv.getItemByGuid guid = some it) :
    it ∈ inv.items ∧ it.stored = true ∧ it.guid = guid := by
  have hp := List.find?_some h
  rw [Bool.and_eq_true, beq_iff_eq] at hp
  exact ⟨List.mem_of_find?_eq_some h, hp⟩

theorem eq_of_guid_eq {it' : Item} (h : it ∈ inv.items) (h' : it' ∈ inv.items)
    (hg : it.guid = it'.guid) : it = it' :=
  List.inj_on_of_nodup_map inv.nodup h h' hg

theorem sum_map_guid (f : Item → ℕ) (h : it ∈ inv.items) :
    (inv.items.map fun x => if x.guid = it.guid then f x else 0).sum = f it := by
  have key : ∀ l : List Item, (l.map Item.guid).Nodup → it ∈ l →
      (l.map fun x => if x.guid = it.guid then f x else 0).sum = f it := by
    intro l hl hm
    induction l with
    | nil => simp at hm
    | cons x l ih =>
      rw [List.map_cons, List.nodup_cons] at hl
      rw [List.map_cons, List.sum_cons]
      rcases List.mem_cons.1 hm with rfl | hm
      · have hz : ∀ y ∈ l.map fun x => if x.guid = it.guid then f x else 0, y = 0 := by
          intro y hy
          obtain ⟨x, hx, rfl⟩ := List.mem_map.1 hy
          have hne : x.guid ≠ it.guid := fun hxg => hl.1 (List.mem_map.2 ⟨x, hx, hxg⟩)
          exact if_neg hne
        rw [if_pos rfl, List.sum_eq_zero hz, add_zero]
      · have hne : x.guid ≠ it.guid := fun hxg => hl.1 (List.mem_map.2 ⟨it, hm, hxg.symm⟩)
        rw [if_neg hne, ih hl.2 hm, zero_add]
  exact key inv.items inv.nodup h

end Inventory

end FaceCore
