import FaceCore.Lib.Layers
import FaceCore.Lib.Runs

/-!
# The quests of game events

A game event may list quests that creatures and gameobjects offer while it is active. `StartEvent`
adds the pairs to the relation maps of `ObjectMgr`, which are multimaps; `StopEvent` erases one copy
of each pair, unless another active event lists the same quest.

* `EventQuests`: which pairs an event lists;
* `GameEventMgr`: the active events and the two maps; `startEvent`, `stopEvent`;
* `OfferedExactly`: what the maps should hold; `Unshared`, `NoShared`: no other event is in the way;
* `quests_offered`: runs in which nothing is shared are as they should be, and no other assignment
  of quests to events has only such runs.

The two functions also set the times and the state of the event and save them; neither map depends on
that, so it is left out. A multimap is the multiset of its pairs.
-/

namespace FaceCore.GameEvents

open Runs Layers

/-- `QuestRelList`: pairs of an entry and a quest. -/
abbrev QuestRelList := List (UInt32 × UInt32)

/-- `QuestRelations`. -/
abbrev QuestRelations := Multiset (UInt32 × UInt32)

/-- `mGameEventCreatureQuests` and `mGameEventGameObjectQuests`. -/
structure EventQuests where
  creature : UInt16 → QuestRelList
  gameObject : UInt16 → QuestRelList

/-- The active events, and the relation maps of creatures and gameobjects. -/
structure GameEventMgr where
  activeEvents : Finset UInt16
  creatureQuestMap : QuestRelations
  gameObjectQuestMap : QuestRelations

/-- Whether an active event other than `event` lists a quest. -/
def hasQuestActiveEventExcept (lists : UInt16 → QuestRelList) (activeEvents : Finset UInt16)
    (quest : UInt32) (event : UInt16) : Bool :=
  decide (∃ e ∈ activeEvents, e ≠ event ∧ ∃ p ∈ lists e, p.2 = quest)

/-- Half of `UpdateEventQuests`: the pairs of an event are inserted, or erased unless kept. -/
def updateQuests (kept : UInt32 → Bool) (pairs : QuestRelList) (activate : Bool)
    (map : QuestRelations) : QuestRelations :=
  if activate then layOver pairs map else takeOff (fun p => kept p.2) pairs map

namespace GameEventMgr

/-- `GameEventMgr::hasCreatureQuestActiveEventExcept`. -/
def hasCreatureQuestActiveEventExcept (q : EventQuests) (m : GameEventMgr) (quest : UInt32)
    (event : UInt16) : Bool :=
  hasQuestActiveEventExcept q.creature m.activeEvents quest event

/-- `GameEventMgr::hasGameObjectQuestActiveEventExcept`. -/
def hasGameObjectQuestActiveEventExcept (q : EventQuests) (m : GameEventMgr) (quest : UInt32)
    (event : UInt16) : Bool :=
  hasQuestActiveEventExcept q.gameObject m.activeEvents quest event

/-- `GameEventMgr::UpdateEventQuests`. -/
def updateEventQuests (q : EventQuests) (m : GameEventMgr) (event : UInt16) (activate : Bool) :
    GameEventMgr :=
  { m with
    creatureQuestMap :=
      updateQuests (fun quest => m.hasCreatureQuestActiveEventExcept q quest event)
        (q.creature event) activate m.creatureQuestMap
    gameObjectQuestMap :=
      updateQuests (fun quest => m.hasGameObjectQuestActiveEventExcept q quest event)
        (q.gameObject event) activate m.gameObjectQuestMap }

/-- `GameEventMgr::StartEvent`. -/
def startEvent (q : EventQuests) (m : GameEventMgr) (event : UInt16) : GameEventMgr :=
  updateEventQuests q { m with activeEvents := insert event m.activeEvents } event true

/-- `GameEventMgr::StopEvent`. -/
def stopEvent (q : EventQuests) (m : GameEventMgr) (event : UInt16) : GameEventMgr :=
  updateEventQuests q { m with activeEvents := m.activeEvents.erase event } event false

end GameEventMgr

/-- A start or a stop. -/
inductive Op
  | start (event : UInt16)
  | stop (event : UInt16)

/-- The manager after a start or a stop. -/
def step (q : EventQuests) (m : GameEventMgr) : Op → GameEventMgr
  | .start event => m.startEvent q event
  | .stop event => m.stopEvent q event

/-- Only inactive events are started, and only active ones stopped. -/
def Legal (m : GameEventMgr) : Op → Prop
  | .start event => event ∉ m.activeEvents
  | .stop event => event ∈ m.activeEvents

/-- A pair that is not permanent is in the map iff an active event lists it, and without active
events the map is the permanent one. -/
def Offered (permanent : QuestRelations) (lists : UInt16 → QuestRelList)
    (activeEvents : Finset UInt16) (map : QuestRelations) : Prop :=
  (∀ p, p ∉ permanent → (p ∈ map ↔ ∃ e ∈ activeEvents, p ∈ lists e)) ∧
    (activeEvents = ∅ → map = permanent)

/-- Both maps hold what the active events offer. -/
def OfferedExactly (q : EventQuests) (creatures gameObjects : QuestRelations) (m : GameEventMgr) :
    Prop :=
  Offered creatures q.creature m.activeEvents m.creatureQuestMap ∧
    Offered gameObjects q.gameObject m.activeEvents m.gameObjectQuestMap

/-- When an event stops, no other active event lists a quest of it. -/
def Unshared (q : EventQuests) (m : GameEventMgr) : Op → Prop
  | .start _ => True
  | .stop event =>
    (∀ p ∈ q.creature event, m.hasCreatureQuestActiveEventExcept q p.2 event = false) ∧
      ∀ p ∈ q.gameObject event, m.hasGameObjectQuestActiveEventExcept q p.2 event = false

/-- No two events list the same quest. -/
def Distinct (lists : UInt16 → QuestRelList) : Prop :=
  ∀ e e', e ≠ e' → ∀ p ∈ lists e, ∀ p' ∈ lists e', p.2 ≠ p'.2

/-- No two events list the same quest for creatures, or for gameobjects. -/
def NoShared (q : EventQuests) : Prop := Distinct q.creature ∧ Distinct q.gameObject

variable {q : EventQuests} {m : GameEventMgr} {op : Op} {ops : List Op}
  {creatures gameObjects permanent map : QuestRelations} {lists : UInt16 → QuestRelList}
  {activeEvents : Finset UInt16} {event e e' : UInt16} {p p' : UInt32 × UInt32} {quest : UInt32}

/-! ### What a start and a stop do -/

@[simp] theorem step_start : step q m (.start event) = m.startEvent q event := rfl

@[simp] theorem step_stop : step q m (.stop event) = m.stopEvent q event := rfl

@[simp] theorem startEvent_activeEvents :
    (m.startEvent q event).activeEvents = insert event m.activeEvents := rfl

@[simp] theorem stopEvent_activeEvents :
    (m.stopEvent q event).activeEvents = m.activeEvents.erase event := rfl

theorem startEvent_creatureQuestMap : (m.startEvent q event).creatureQuestMap =
    m.creatureQuestMap + (q.creature event : Multiset (UInt32 × UInt32)) :=
  layOver_eq_add

theorem startEvent_gameObjectQuestMap : (m.startEvent q event).gameObjectQuestMap =
    m.gameObjectQuestMap + (q.gameObject event : Multiset (UInt32 × UInt32)) :=
  layOver_eq_add

/-- The event itself is not asked, so it does not matter that it is not active any more. -/
theorem hasQuestActiveEventExcept_erase (active : Finset UInt16) :
    hasQuestActiveEventExcept lists (active.erase event) quest event =
      hasQuestActiveEventExcept lists active quest event := by
  rw [Bool.eq_iff_iff]
  unfold hasQuestActiveEventExcept
  simp only [decide_eq_true_eq, Finset.mem_erase]
  constructor
  · rintro ⟨e, ⟨-, he⟩, hne, hp⟩
    exact ⟨e, he, hne, hp⟩
  · rintro ⟨e, he, hne, hp⟩
    exact ⟨e, ⟨hne, he⟩, hne, hp⟩

theorem stopEvent_creatureQuestMap : (m.stopEvent q event).creatureQuestMap =
    takeOff (fun p => m.hasCreatureQuestActiveEventExcept q p.2 event) (q.creature event)
      m.creatureQuestMap := by
  unfold GameEventMgr.hasCreatureQuestActiveEventExcept
  simp only [← hasQuestActiveEventExcept_erase m.activeEvents]
  rfl

theorem stopEvent_gameObjectQuestMap : (m.stopEvent q event).gameObjectQuestMap =
    takeOff (fun p => m.hasGameObjectQuestActiveEventExcept q p.2 event) (q.gameObject event)
      m.gameObjectQuestMap := by
  unfold GameEventMgr.hasGameObjectQuestActiveEventExcept
  simp only [← hasQuestActiveEventExcept_erase m.activeEvents]
  rfl

/-! ### Nothing is shared -/

theorem hasQuestActiveEventExcept_eq_false :
    hasQuestActiveEventExcept lists activeEvents quest event = false ↔
      ∀ e ∈ activeEvents, e ≠ event → ∀ p ∈ lists e, p.2 ≠ quest := by
  unfold hasQuestActiveEventExcept
  simp only [decide_eq_false_iff_not, not_exists, not_and]

theorem unshared_of_noShared (h : NoShared q) (m : GameEventMgr) (op : Op) : Unshared q m op := by
  cases op with
  | start event => trivial
  | stop event =>
    constructor
    · intro p hp
      refine hasQuestActiveEventExcept_eq_false.2 fun e _ hne p' hp' => ?_
      exact h.1 e event hne p' hp' p hp
    · intro p hp
      refine hasQuestActiveEventExcept_eq_false.2 fun e _ hne p' hp' => ?_
      exact h.2 e event hne p' hp' p hp

/-! ### The maps are layered -/

/-- Both maps are the permanent ones with the lists of the active events. -/
structure LayeredMaps (q : EventQuests) (creatures gameObjects : QuestRelations)
    (m : GameEventMgr) : Prop where
  creature : m.creatureQuestMap = layered q.creature creatures m.activeEvents
  gameObject : m.gameObjectQuestMap = layered q.gameObject gameObjects m.activeEvents

theorem offered_of_layered (h : map = layered lists permanent activeEvents) :
    Offered permanent lists activeEvents map := by
  subst h
  constructor
  · intro p hp
    rw [mem_layered, or_iff_right hp]
  · rintro rfl
    exact layered_empty

theorem LayeredMaps.offeredExactly (h : LayeredMaps q creatures gameObjects m) :
    OfferedExactly q creatures gameObjects m :=
  ⟨offered_of_layered h.creature, offered_of_layered h.gameObject⟩

theorem LayeredMaps.step (h : LayeredMaps q creatures gameObjects m) (hlegal : Legal m op)
    (hop : Unshared q m op) : LayeredMaps q creatures gameObjects (step q m op) := by
  cases op with
  | start event =>
    constructor
    · rw [step_start, startEvent_creatureQuestMap, startEvent_activeEvents, h.creature,
        layered_insert hlegal]
    · rw [step_start, startEvent_gameObjectQuestMap, startEvent_activeEvents, h.gameObject,
        layered_insert hlegal]
  | stop event =>
    constructor
    · rw [step_stop, stopEvent_creatureQuestMap, stopEvent_activeEvents, takeOff_eq_sub hop.1,
        h.creature, layered_erase hlegal]
    · rw [step_stop, stopEvent_gameObjectQuestMap, stopEvent_activeEvents, takeOff_eq_sub hop.2,
        h.gameObject, layered_erase hlegal]

/-- The manager before any event: the maps are the permanent ones. -/
def initial (creatures gameObjects : QuestRelations) : GameEventMgr := ⟨∅, creatures, gameObjects⟩

theorem layeredMaps_initial (q : EventQuests) (creatures gameObjects : QuestRelations) :
    LayeredMaps q creatures gameObjects (initial creatures gameObjects) :=
  ⟨layered_empty.symm, layered_empty.symm⟩

/-! ### A quest that two events share -/

/-- Two events start and stop, one after the other. -/
def overlap (e e' : UInt16) : List Op := [.start e, .start e', .stop e, .stop e']

/-- What is left of a map after two events that list the same quest: the first one leaves its pair
behind, since the second one lists the quest as well. -/
theorem overlap_ne (hne : e ≠ e') (hp : p ∈ lists e) (hp' : p' ∈ lists e')
    (hquest : p'.2 = p.2) :
    takeOff (fun p => hasQuestActiveEventExcept lists {e'} p.2 e') (lists e')
      (takeOff (fun p => hasQuestActiveEventExcept lists (insert e' (insert e ∅)) p.2 e) (lists e)
        (permanent + (lists e : Multiset _) + (lists e' : Multiset _))) ≠ permanent := by
  intro heq
  have hkept : hasQuestActiveEventExcept lists (insert e' (insert e ∅)) p.2 e = true :=
    decide_eq_true ⟨e', Finset.mem_insert_self e' _, hne.symm, p', hp', hquest⟩
  have hgone : hasQuestActiveEventExcept lists {e'} p.2 e' = false := by
    refine hasQuestActiveEventExcept_eq_false.2 fun e he hne' => ?_
    exact absurd (Finset.mem_singleton.1 he) hne'
  have hcount := congrArg (Multiset.count p) heq
  have hpos : 0 < (lists e : Multiset _).count p := Multiset.count_pos.2 (Multiset.mem_coe.2 hp)
  rw [count_takeOff, count_takeOff, hkept, hgone, if_pos rfl, if_neg Bool.false_ne_true,
    Multiset.count_add, Multiset.count_add] at hcount
  omega

theorem overlap_legal (hne : e ≠ e') :
    EachStep (step q) Legal (initial creatures gameObjects) (overlap e e') := by
  unfold overlap
  refine eachStep_cons.2 ⟨Finset.notMem_empty e, eachStep_cons.2 ⟨?_, eachStep_cons.2 ⟨?_,
    eachStep_cons.2 ⟨?_, EachStep.nil _⟩⟩⟩⟩
  · show e' ∉ insert e ∅
    simp [hne.symm]
  · show e ∈ insert e' (insert e ∅)
    simp
  · show e' ∈ (insert e' (insert e ∅) : Finset UInt16).erase e
    simp [hne.symm]

theorem erase_pair (hne : e ≠ e') : (insert e' (insert e ∅) : Finset UInt16).erase e = {e'} := by
  ext x
  simp only [Finset.mem_erase, Finset.mem_insert, Finset.notMem_empty, or_false,
    Finset.mem_singleton]
  constructor
  · rintro ⟨hx, rfl | rfl⟩
    · rfl
    · exact absurd rfl hx
  · rintro rfl
    exact ⟨hne.symm, .inl rfl⟩

theorem overlap_creatureQuestMap (hne : e ≠ e') :
    ((overlap e e').foldl (step q) (initial creatures gameObjects)).creatureQuestMap =
      takeOff (fun p => hasQuestActiveEventExcept q.creature {e'} p.2 e') (q.creature e')
        (takeOff (fun p => hasQuestActiveEventExcept q.creature (insert e' (insert e ∅)) p.2 e)
          (q.creature e) (creatures + (q.creature e : Multiset _) +
            (q.creature e' : Multiset _))) := by
  simp only [overlap, List.foldl_cons, List.foldl_nil, step_start, step_stop,
    stopEvent_creatureQuestMap, startEvent_creatureQuestMap, stopEvent_activeEvents,
    startEvent_activeEvents, initial, GameEventMgr.hasCreatureQuestActiveEventExcept,
    erase_pair hne]

theorem overlap_gameObjectQuestMap (hne : e ≠ e') :
    ((overlap e e').foldl (step q) (initial creatures gameObjects)).gameObjectQuestMap =
      takeOff (fun p => hasQuestActiveEventExcept q.gameObject {e'} p.2 e') (q.gameObject e')
        (takeOff (fun p => hasQuestActiveEventExcept q.gameObject (insert e' (insert e ∅)) p.2 e)
          (q.gameObject e) (gameObjects + (q.gameObject e : Multiset _) +
            (q.gameObject e' : Multiset _))) := by
  simp only [overlap, List.foldl_cons, List.foldl_nil, step_start, step_stop,
    stopEvent_gameObjectQuestMap, startEvent_gameObjectQuestMap, stopEvent_activeEvents,
    startEvent_activeEvents, initial, GameEventMgr.hasGameObjectQuestActiveEventExcept,
    erase_pair hne]

/-- If all runs are as they should be, then no two events list the same quest. -/
theorem noShared_of_forall (h : ∀ ops, EachStep (step q) Legal (initial creatures gameObjects) ops →
    Along (step q) (OfferedExactly q creatures gameObjects) (initial creatures gameObjects) ops) :
    NoShared q := by
  have hlast : ∀ e e', e ≠ e' →
      let m := (overlap e e').foldl (step q) (initial creatures gameObjects)
      m.creatureQuestMap = creatures ∧ m.gameObjectQuestMap = gameObjects := by
    intro e e' hne m
    have hend := h (overlap e e') (overlap_legal hne) _ (List.prefix_refl _)
    have hempty : m.activeEvents = ∅ := by
      show ((insert e' (insert e ∅) : Finset UInt16).erase e).erase e' = ∅
      rw [erase_pair hne, Finset.erase_singleton]
    exact ⟨hend.1.2 hempty, hend.2.2 hempty⟩
  constructor
  · intro e e' hne p hp p' hp' hquest
    have hmap := (hlast e e' hne).1
    rw [overlap_creatureQuestMap hne] at hmap
    exact overlap_ne hne hp hp' hquest.symm hmap
  · intro e e' hne p hp p' hp' hquest
    have hmap := (hlast e e' hne).2
    rw [overlap_gameObjectQuestMap hne] at hmap
    exact overlap_ne hne hp hp' hquest.symm hmap

/-! ### Runs -/

/-- **Main result.** Along every run in which no stopped event shares a quest with another active
event, the maps hold exactly what the active events offer. All runs are like that if and only if no
two events list the same quest. -/
theorem quests_offered (q : EventQuests) (creatures gameObjects : QuestRelations) :
    (∀ ops, EachStep (step q) Legal (initial creatures gameObjects) ops →
      EachStep (step q) (Unshared q) (initial creatures gameObjects) ops →
        Along (step q) (OfferedExactly q creatures gameObjects)
          (initial creatures gameObjects) ops) ∧
      ((∀ ops, EachStep (step q) Legal (initial creatures gameObjects) ops →
        Along (step q) (OfferedExactly q creatures gameObjects)
          (initial creatures gameObjects) ops) ↔ NoShared q) := by
  have hrun : ∀ ops, EachStep (step q) Legal (initial creatures gameObjects) ops →
      EachStep (step q) (Unshared q) (initial creatures gameObjects) ops →
        Along (step q) (OfferedExactly q creatures gameObjects)
          (initial creatures gameObjects) ops := by
    intro ops hlegal hunshared pre hpre
    have hboth : EachStep (step q) (fun m op => Legal m op ∧ Unshared q m op)
        (initial creatures gameObjects) ops :=
      fun pre op h => ⟨hlegal pre op h, hunshared pre op h⟩
    refine LayeredMaps.offeredExactly (along_of_inv hboth ?_ ?_ pre hpre)
    · exact layeredMaps_initial q creatures gameObjects
    · exact fun m op hm hop => hm.step hop.1 hop.2
  refine ⟨hrun, noShared_of_forall, fun h ops hlegal => hrun ops hlegal ?_⟩
  exact fun pre op _ => unshared_of_noShared h _ op

/-- The quest 7 of the creatures 1 and 2: each of two events lists one of them. -/
def sharedQuest : EventQuests where
  creature := fun event => if event = 1 then [(1, 7)] else if event = 2 then [(2, 7)] else []
  gameObject := fun _ => []

/-- When both events have stopped, the creature 1 still offers the quest. -/
theorem shared_quest_stays :
    ¬ ∀ ops, EachStep (step sharedQuest) Legal (initial 0 0) ops →
      Along (step sharedQuest) (OfferedExactly sharedQuest 0 0) (initial 0 0) ops := by
  intro h
  have hmaps := h (overlap 1 2) (overlap_legal (by decide)) _ (List.prefix_refl _)
  exact absurd (hmaps.1.2 (by decide)) (by decide)

end FaceCore.GameEvents
