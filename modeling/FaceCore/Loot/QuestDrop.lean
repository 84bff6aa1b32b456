import FaceCore.Loot.Lists
import FaceCore.Loot.Termination

/-!
# Whether a quest drop is announced

`HaveQuestLootFor` says beforehand whether a loot can hold a quest item; gameobjects are activated for
a quest by its answer. `Process` follows references into the reference store, while `HasQuestDrop`
looks for them in the store that the loot itself belongs to.

* `QuestReach`: entries and references lead from a template to a quest drop;
* `questItems_process`: `Process` adds quest items only if they do in the reference store;
* `hasQuestDrop_iff`: `HasQuestDrop` answers whether they do in the store itself;
* `haveQuestLootFor_covers`: it covers the generator where a quest drop that is reached in the
  reference store is also reached in the store itself.
-/

namespace FaceCore.LootTemplates

open LootMgr (Loot)

/-- A quest drop with `drop` can be reached from a template, or from one of its groups, along references
with `follow` into `store`. -/
inductive QuestReach (store : LootStore) (drop follow : LootStoreItem → Prop) :
    LootTemplate → UInt8 → Prop
  | inGroup {t groupId g item} (hgroup : groupId ≠ 0)
      (hg : t.groups[groupId.toNat - 1]?.join = some g) (hitem : item ∈ g.items)
      (hquest : item.needsQuest = true) (hdrop : drop item) : QuestReach store drop follow t groupId
  | ofEntry {t item} (hitem : item ∈ t.entries) (hplain : ¬ item.mincountOrRef < 0)
      (hquest : item.needsQuest = true) (hdrop : drop item) : QuestReach store drop follow t 0
  | ofGroup {t g item} (hg : some g ∈ t.groups) (hitem : item ∈ g.items)
      (hquest : item.needsQuest = true) (hdrop : drop item) : QuestReach store drop follow t 0
  | ofRef {t t' item} (hitem : item ∈ t.entries) (href : item.mincountOrRef < 0)
      (hfind : store.find item.ref = some t') (hfollow : follow item)
      (hreach : QuestReach store drop follow t' item.group) : QuestReach store drop follow t 0

/-- `Process` can reach a quest drop: its entry is for the loot mode, and so are the references that
lead to it, which are followed with some luck. -/
def GeneratorReach (W : World) (c : Call) (refs : LootStore) : LootTemplate → UInt8 → Prop :=
  QuestReach refs (fun item => item.mismatch c = false) (LootStoreItem.Followed W c)

/-- `HasQuestDrop` can reach a quest drop. -/
def SearchReach (store : LootStore) : LootTemplate → UInt8 → Prop :=
  QuestReach store (fun _ => True) fun _ => True

/-- `HasQuestDrop` for `t` may call itself for the whole of `t'`. -/
def Searches (store : LootStore) (t t' : LootTemplate) : Prop :=
  ∃ item ∈ t.entries, item.mincountOrRef < 0 ∧ item.group = 0 ∧ store.find item.ref = some t'

/-- No template that is reached from `t` refers back to itself. -/
def SearchEnds (store : LootStore) (t : LootTemplate) : Prop :=
  ∀ t', Relation.ReflTransGen (Searches store) t t' → ¬ Relation.TransGen (Searches store) t' t'

/-- When `Process` can reach a quest drop through the reference store, `HasQuestDrop` can reach one
through the store itself. -/
def ReachCovered (W : World) (c : Call) (store refs : LootStore) (t : LootTemplate) : Prop :=
  GeneratorReach W c refs t 0 → SearchReach store t 0

/-- When some run of `Process` adds quest items, `HaveQuestLootFor` returns true. -/
def QuestCovered (W : World) (c : Call) (store refs : LootStore) (lootId : ℕ) : Prop :=
  ∀ t, store.find lootId = some t → ∀ rnd depth s s',
    process W c rnd refs depth t 0 s = some s' → s'.loot.questItems ≠ s.loot.questItems →
      ∃ depth, haveQuestLootFor store depth lootId = some true

variable {W : World} {c : Call} {rnd : ℕ → Draw} {refs store : LootStore} {t t' : LootTemplate}
  {groupId : UInt8} {s s' : Rolled} {item : LootStoreItem} {depth : ℕ} {g : LootGroup}
  {call : LootTemplate → UInt8 → Rolled → Option Rolled}

/-! ### What Process adds -/

/-- Only quest drops become quest items. -/
theorem questItems_addItem (h : item.needsQuest = false) :
    (s.addItem W rnd item).loot.questItems = s.loot.questItems := by
  unfold Rolled.addItem
  cases W.template item.itemid with
  | none => rfl
  | some proto =>
    refine LootMgr.addItem_induction (Q := fun l => l.questItems = s.loot.questItems)
      (fun l count hq _ _ => ?_) (fun _ _ _ _ hl => hl) _ rfl
    rw [show item.needsQuest = true from hq] at h
    cases h

theorem roll_loot : (item.roll W c rnd s).2.loot = s.loot := by
  unfold LootStoreItem.roll
  split_ifs <;> rfl

theorem rollChanced_mem {roll : ℚ} {items : List LootStoreItem}
    (h : rollChanced W roll items = some item) : item ∈ items := by
  induction items generalizing roll with
  | nil => cases h
  | cons i items ih =>
    unfold rollChanced at h
    split_ifs at h
    · obtain rfl := Option.some.inj h
      exact List.mem_cons_self
    · obtain rfl := Option.some.inj h
      exact List.mem_cons_self
    · exact List.mem_cons_of_mem i (ih h)

theorem mem_of_mem_filter {items : List LootStoreItem}
    (h : item ∈ items.filter fun item => !invalidSelector c s item) :
    item ∈ items ∧ item.mismatch c = false := by
  obtain ⟨hitem, hvalid⟩ := List.mem_filter.1 h
  rw [Bool.not_eq_true', invalidSelector, Bool.or_eq_false_iff] at hvalid
  exact ⟨hitem, hvalid.1⟩

theorem rollExplicit_mem (h : (g.rollExplicit W c rnd s).1 = some item) :
    item ∈ g.explicitlyChanced ∧ item.mismatch c = false := by
  unfold LootGroup.rollExplicit at h
  split at h
  · cases h
  · rename_i i items hfilter
    have hmem := rollChanced_mem h
    rw [← hfilter] at hmem
    exact mem_of_mem_filter hmem

theorem rollExplicit_loot : (g.rollExplicit W c rnd s).2.loot = s.loot := by
  unfold LootGroup.rollExplicit
  split <;> rfl

/-- `LootGroup::Roll` takes an entry of the group, for the loot mode. -/
theorem roll_mem (h : (g.roll W c rnd s).1 = some item) :
    item ∈ g.items ∧ item.mismatch c = false := by
  unfold LootGroup.roll at h
  rcases hexplicit : g.rollExplicit W c rnd s with ⟨_ | i, s₁⟩
  · simp only [hexplicit] at h
    split at h
    · cases h
    · rename_i i items hfilter
      have hmem := List.mem_of_getElem? h
      rw [← hfilter] at hmem
      exact (mem_of_mem_filter hmem).imp_left (List.mem_append_right _)
  · simp only [hexplicit] at h
    obtain rfl := Option.some.inj h
    exact (rollExplicit_mem (congrArg Prod.fst hexplicit)).imp_left (List.mem_append_left _)

theorem groupRoll_loot : (g.roll W c rnd s).2.loot = s.loot := by
  unfold LootGroup.roll
  have hloot : (g.rollExplicit W c rnd s).2.loot = s.loot := rollExplicit_loot
  rcases hexplicit : g.rollExplicit W c rnd s with ⟨_ | i, s₁⟩
  · rw [hexplicit] at hloot
    dsimp only
    split <;> exact hloot
  · rw [hexplicit] at hloot
    exact hloot

theorem questItems_groupProcess
    (h : ∀ item ∈ g.items, item.mismatch c = false → item.needsQuest = false) :
    (g.process W c rnd s).loot.questItems = s.loot.questItems := by
  have hloot : (g.roll W c rnd s).2.loot = s.loot := groupRoll_loot
  unfold LootGroup.process
  rcases hroll : g.roll W c rnd s with ⟨_ | item, s₁⟩
  · rw [hroll] at hloot
    exact congrArg Loot.questItems hloot
  · rw [hroll] at hloot
    obtain ⟨hitem, hmode⟩ := roll_mem (congrArg Prod.fst hroll)
    exact (questItems_addItem (h item hitem hmode)).trans (congrArg Loot.questItems hloot)

theorem questItems_groups {groups : List (Option LootGroup)}
    (h : ∀ g, some g ∈ groups → ∀ item ∈ g.items, item.mismatch c = false →
      item.needsQuest = false) :
    (groups.foldl (processGroup W c rnd) s).loot.questItems = s.loot.questItems := by
  induction groups generalizing s with
  | nil => rfl
  | cons g groups ih =>
    rw [List.foldl_cons, ih fun g' hg' => h g' (List.mem_cons_of_mem g hg')]
    cases g with
    | none => rfl
    | some g => exact questItems_groupProcess (h g List.mem_cons_self)

theorem questItems_processOneGroup (hgroup : groupId ≠ 0) (h : ¬ GeneratorReach W c refs t groupId) :
    (t.processOneGroup W c rnd groupId s).loot.questItems = s.loot.questItems := by
  unfold LootTemplate.processOneGroup
  cases hg : t.groups[groupId.toNat - 1]?.join with
  | none => rfl
  | some g =>
    refine questItems_groupProcess fun item hitem hmode => ?_
    exact Bool.eq_false_iff.2 fun hquest => h (.inGroup hgroup hg hitem hquest hmode)

theorem questItems_repeatCall {f : Rolled → Option Rolled}
    (h : ∀ s s', f s = some s' → s'.loot.questItems = s.loot.questItems) {n : ℕ}
    (hs : repeatCall f n s = some s') : s'.loot.questItems = s.loot.questItems := by
  induction n generalizing s with
  | zero => rw [Option.some.inj hs]
  | succ n ih =>
    obtain ⟨s₁, hs₁, hrest⟩ := Option.bind_eq_some_iff.1 hs
    exact (ih hrest).trans (h s s₁ hs₁)

/-- One entry: it is no quest drop, and the calls it leads to add no quest items. -/
theorem questItems_processEntry
    (hplain : item.mismatch c = false → ¬ item.mincountOrRef < 0 → item.needsQuest = false)
    (href : item.Followed W c → ∀ t, refs.find item.ref = some t →
      ∀ s s', call t item.group s = some s' → s'.loot.questItems = s.loot.questItems)
    (hs : processEntry W c rnd refs call s item = some s') :
    s'.loot.questItems = s.loot.questItems := by
  unfold processEntry at hs
  have hloot : (item.roll W c rnd s).2.loot = s.loot := roll_loot
  rcases hroll : item.roll W c rnd s with ⟨_ | _, s₁⟩
  · rw [hroll] at hs hloot
    dsimp only at hs hloot
    split_ifs at hs
    · rw [Option.some.inj hs]
    · rw [← Option.some.inj hs, hloot]
  · rw [hroll] at hs hloot
    have hchance : 100 ≤ item.chance ∨ 0 < item.ratedChance W c :=
      chance_of_roll (congrArg Prod.fst hroll)
    dsimp only at hs hloot
    rw [← hloot]
    split_ifs at hs with hmode hneg
    · rw [← Option.some.inj hs, hloot]
    · cases hfind : refs.find item.ref with
      | none =>
        rw [hfind] at hs
        rw [Option.some.inj hs]
      | some t =>
        simp only [hfind] at hs
        rcases Nat.eq_zero_or_pos (item.times W) with hzero | htimes
        · rw [hzero] at hs
          rw [Option.some.inj hs]
        · have hfollowed : item.Followed W c :=
            ⟨hneg, Bool.eq_false_iff.2 hmode, hchance, htimes⟩
          exact questItems_repeatCall (href hfollowed t hfind) hs
    · rw [← Option.some.inj hs]
      exact questItems_addItem (hplain (Bool.eq_false_iff.2 hmode) hneg)

theorem questItems_processEntries {items : List LootStoreItem}
    (h : ∀ item ∈ items, ∀ s s', processEntry W c rnd refs call s item = some s' →
      s'.loot.questItems = s.loot.questItems)
    (hs : items.foldlM (processEntry W c rnd refs call) s = some s') :
    s'.loot.questItems = s.loot.questItems := by
  induction items generalizing s with
  | nil => rw [Option.some.inj hs]
  | cons item items ih =>
    rw [List.foldlM_cons] at hs
    obtain ⟨s₁, hs₁, hrest⟩ := Option.bind_eq_some_iff.1 hs
    exact (ih (fun i hi => h i (List.mem_cons_of_mem item hi)) hrest).trans
      (h item List.mem_cons_self s s₁ hs₁)

theorem questItems_process (h : ¬ GeneratorReach W c refs t groupId)
    (hs : process W c rnd refs depth t groupId s = some s') :
    s'.loot.questItems = s.loot.questItems := by
  induction depth generalizing t groupId s s' with
  | zero =>
    unfold process at hs
    split_ifs at hs with hgroup
    rw [← Option.some.inj hs]
    exact questItems_processOneGroup hgroup h
  | succ depth ih =>
    unfold process at hs
    split_ifs at hs with hgroup
    · rw [← Option.some.inj hs]
      exact questItems_processOneGroup hgroup h
    · obtain rfl : groupId = 0 := not_not.1 hgroup
      obtain ⟨s₁, hs₁, rfl⟩ := Option.map_eq_some_iff.1 hs
      have hentries : s₁.loot.questItems = s.loot.questItems := by
        refine questItems_processEntries (fun item hitem s s' => ?_) hs₁
        refine questItems_processEntry (fun hmode hplain => ?_) fun hfollowed t' hfind s s' => ?_
        · exact Bool.eq_false_iff.2 fun hquest => h (.ofEntry hitem hplain hquest hmode)
        · exact ih fun hreach => h (.ofRef hitem hfollowed.isRef hfind hfollowed hreach)
      rw [← hentries]
      refine questItems_groups fun g hg item hitem hmode => ?_
      exact Bool.eq_false_iff.2 fun hquest => h (.ofGroup hg hitem hquest hmode)

/-! ### What HasQuestDrop finds -/

theorem groupHasQuestDrop_iff : g.hasQuestDrop = true ↔ ∃ item ∈ g.items, item.needsQuest = true := by
  unfold LootGroup.hasQuestDrop LootGroup.items
  rw [← List.any_append, List.any_eq_true]

theorem searchReach_group (hgroup : groupId ≠ 0) : SearchReach store t groupId ↔
    ((t.groups[groupId.toNat - 1]?.join).map LootGroup.hasQuestDrop).getD false = true := by
  constructor
  · intro h
    cases h with
    | inGroup _ hg hitem hquest =>
      rw [hg]
      exact groupHasQuestDrop_iff.2 ⟨_, hitem, hquest⟩
    | ofEntry => exact absurd rfl hgroup
    | ofGroup => exact absurd rfl hgroup
    | ofRef => exact absurd rfl hgroup
  · intro h
    cases hg : t.groups[groupId.toNat - 1]?.join with
    | none =>
      rw [hg] at h
      cases h
    | some g =>
      rw [hg] at h
      obtain ⟨item, hitem, hquest⟩ := groupHasQuestDrop_iff.1 h
      exact .inGroup hgroup hg hitem hquest trivial

/-- An entry is a quest drop, or a reference from which one can be reached. -/
def EntryReach (store : LootStore) (item : LootStoreItem) : Prop :=
  (¬ item.mincountOrRef < 0 ∧ item.needsQuest = true) ∨
    (item.mincountOrRef < 0 ∧ ∃ t, store.find item.ref = some t ∧ SearchReach store t item.group)

theorem searchReach_whole : SearchReach store t 0 ↔ (∃ item ∈ t.entries, EntryReach store item) ∨
    t.groups.any (fun g => (g.map LootGroup.hasQuestDrop).getD false) = true := by
  rw [List.any_eq_true]
  constructor
  · intro h
    cases h with
    | inGroup hgroup => exact absurd rfl hgroup
    | ofEntry hitem hplain hquest => exact Or.inl ⟨_, hitem, Or.inl ⟨hplain, hquest⟩⟩
    | ofGroup hg hitem hquest =>
      exact Or.inr ⟨_, hg, groupHasQuestDrop_iff.2 ⟨_, hitem, hquest⟩⟩
    | ofRef hitem href hfind _ hreach =>
      exact Or.inl ⟨_, hitem, Or.inr ⟨href, _, hfind, hreach⟩⟩
  · rintro (⟨item, hitem, ⟨hplain, hquest⟩ | ⟨href, t', hfind, hreach⟩⟩ | ⟨g, hg, hfound⟩)
    · exact .ofEntry hitem hplain hquest trivial
    · exact .ofRef hitem href hfind trivial hreach
    · cases g with
      | none => cases hfound
      | some g =>
        obtain ⟨item, hitem, hquest⟩ := groupHasQuestDrop_iff.1 hfound
        exact .ofGroup hg hitem hquest trivial

section

variable {search search' : LootTemplate → UInt8 → Option Bool} {items : List LootStoreItem} {b : Bool}

/-- The loop over the entries finds what its calls find. -/
theorem searchEntries_iff (hsearch : ∀ t g b, search t g = some b → (b = true ↔ SearchReach store t g))
    (h : searchEntries store search items = some b) :
    b = true ↔ ∃ item ∈ items, EntryReach store item := by
  have hcons : ∀ {item : LootStoreItem} {items : List LootStoreItem}, ¬ EntryReach store item →
      (b = true ↔ ∃ item ∈ items, EntryReach store item) →
      (b = true ↔ ∃ i ∈ item :: items, EntryReach store i) := by
    intro item items hno hiff
    rw [hiff]
    simp only [List.mem_cons, exists_eq_or_imp, hno, false_or]
  induction items with
  | nil =>
    rw [← Option.some.inj h]
    simp
  | cons item items ih =>
    unfold searchEntries at h
    split_ifs at h with href hquest
    · cases hfind : store.find item.ref with
      | none =>
        simp only [hfind] at h
        refine hcons ?_ (ih h)
        rintro (⟨hplain, -⟩ | ⟨-, t, ht, -⟩)
        · exact hplain href
        · rw [hfind] at ht
          cases ht
      | some t =>
        simp only [hfind] at h
        rcases hfound : search t item.group with _ | _ | _
        · simp [hfound] at h
        · simp only [hfound] at h
          refine hcons ?_ (ih h)
          rintro (⟨hplain, -⟩ | ⟨-, t', ht, hreach⟩)
          · exact hplain href
          · obtain rfl := Option.some.inj (hfind.symm.trans ht)
            exact Bool.false_ne_true ((hsearch t item.group false hfound).2 hreach)
        · simp only [hfound] at h
          obtain rfl := Option.some.inj h
          have hreach := (hsearch t item.group true hfound).1 rfl
          exact iff_of_true rfl ⟨item, List.mem_cons_self, Or.inr ⟨href, t, hfind, hreach⟩⟩
    · obtain rfl := Option.some.inj h
      exact iff_of_true rfl ⟨item, List.mem_cons_self, Or.inl ⟨href, hquest⟩⟩
    · refine hcons ?_ (ih h)
      rintro (⟨-, hq⟩ | ⟨hneg, -⟩)
      · exact hquest hq
      · exact href hneg

/-- `HasQuestDrop` answers whether it can reach a quest drop. -/
theorem hasQuestDrop_iff (h : hasQuestDrop store depth t groupId = some b) :
    b = true ↔ SearchReach store t groupId := by
  induction depth generalizing t groupId b with
  | zero =>
    unfold hasQuestDrop at h
    split_ifs at h with hgroup
    rw [← Option.some.inj h]
    exact (searchReach_group hgroup).symm
  | succ depth ih =>
    unfold hasQuestDrop at h
    split_ifs at h with hgroup
    · rw [← Option.some.inj h]
      exact (searchReach_group hgroup).symm
    · obtain rfl : groupId = 0 := not_not.1 hgroup
      obtain ⟨found, hfound, rfl⟩ := Option.map_eq_some_iff.1 h
      rw [Bool.or_eq_true, searchEntries_iff (fun _ _ _ hb => ih hb) hfound, searchReach_whole]

/-! ### HasQuestDrop returns -/

theorem searchEntries_mono (hsearch : ∀ t g b, search t g = some b → search' t g = some b)
    (h : searchEntries store search items = some b) :
    searchEntries store search' items = some b := by
  induction items with
  | nil => exact h
  | cons item items ih =>
    unfold searchEntries at h ⊢
    split_ifs at h ⊢
    · cases hfind : store.find item.ref with
      | none =>
        simp only [hfind] at h ⊢
        exact ih h
      | some t =>
        simp only [hfind] at h ⊢
        rcases hfound : search t item.group with _ | found
        · simp [hfound] at h
        · rw [hsearch _ _ _ hfound]
          cases found with
          | false =>
            simp only [hfound] at h
            exact ih h
          | true => simpa only [hfound] using h
    · exact h
    · exact ih h

theorem hasQuestDrop_mono (h : hasQuestDrop store depth t groupId = some b) :
    hasQuestDrop store (depth + 1) t groupId = some b := by
  induction depth generalizing t groupId b with
  | zero =>
    unfold hasQuestDrop at h ⊢
    split_ifs at h ⊢
    exact h
  | succ depth ih =>
    unfold hasQuestDrop at h ⊢
    split_ifs at h ⊢
    · exact h
    · obtain ⟨found, hfound, hgroups⟩ := Option.map_eq_some_iff.1 h
      exact Option.map_eq_some_iff.2 ⟨found, searchEntries_mono (fun _ _ _ hb => ih hb) hfound, hgroups⟩

theorem searchEntries_isSome (h : ∀ item ∈ items, item.mincountOrRef < 0 →
    ∀ t, store.find item.ref = some t → (search t item.group).isSome) :
    (searchEntries store search items).isSome := by
  induction items with
  | nil => rfl
  | cons item items ih =>
    have hrest := ih fun i hi => h i (List.mem_cons_of_mem item hi)
    unfold searchEntries
    split_ifs with href
    · cases hfind : store.find item.ref with
      | none => exact hrest
      | some t =>
        obtain ⟨found, hfound⟩ :=
          Option.isSome_iff_exists.1 (h item List.mem_cons_self href t hfind)
        dsimp only
        rw [hfound]
        cases found with
        | false => exact hrest
        | true => rfl
    · rfl
    · exact hrest

end

theorem hasQuestDrop_isSome (h : ∀ t', Searches store t t' → ∀ g, (hasQuestDrop store depth t' g).isSome)
    (groupId : UInt8) : (hasQuestDrop store (depth + 1) t groupId).isSome := by
  unfold hasQuestDrop
  split_ifs with hgroup
  · rfl
  · rw [Option.isSome_map]
    refine searchEntries_isSome fun item hitem href t' hfind => ?_
    by_cases hwhole : item.group = 0
    · exact h t' ⟨item, hitem, href, hwhole, hfind⟩ item.group
    · unfold hasQuestDrop
      rw [if_pos hwhole]
      rfl

/-- The search ends when no template that it reaches refers back to itself. -/
theorem exists_hasQuestDrop (h : SearchEnds store t) :
    ∃ depth, (hasQuestDrop store depth t 0).isSome := by
  let r : LootTemplate → LootTemplate → Prop := fun a b =>
    Relation.ReflTransGen (Searches store) t a ∧ Searches store a b
  let halts : ℕ → LootTemplate → Prop := fun n a =>
    Relation.ReflTransGen (Searches store) t a → ∀ g, (hasQuestDrop store n a g).isSome
  have hfound : ∀ a b, r a b → b ∈ {t | ∃ id, store.find id = some t} := by
    rintro a b ⟨-, item, -, -, -, hfind⟩
    exact ⟨item.ref, hfind⟩
  have hmono : ∀ n a, halts n a → halts (n + 1) a := by
    intro n a ha hreach g
    obtain ⟨b, hb⟩ := Option.isSome_iff_exists.1 (ha hreach g)
    exact Option.isSome_iff_exists.2 ⟨b, hasQuestDrop_mono hb⟩
  have hstep : ∀ n a, (∀ b, r a b → halts n b) → halts (n + 1) a := fun n a ha hreach =>
    hasQuestDrop_isSome fun b hab => ha b ⟨hreach, hab⟩ (hreach.tail hab)
  have hcycle : ∀ a, ¬ Relation.TransGen r a a := by
    intro a ha
    have hreach : Relation.ReflTransGen (Searches store) t a := by
      obtain ⟨b, hab, -⟩ := Recursion.exists_next_of_cycle ha
      exact hab.1
    have hsub : r ≤ Searches store := fun _ _ hab => hab.2
    exact h a hreach (Relation.TransGen.mono hsub a a ha)
  obtain ⟨depth, hdepth⟩ :=
    Recursion.exists_halts (finite_templates store) hfound hmono hstep hcycle t
  exact ⟨depth, hdepth .refl 0⟩

/-- A quest item that drops for sure, as a row of template 1. -/
def questRow : LootRow := ⟨1, 7, -100, 1, 0, 1, 1⟩

/-- A reference to template 1, as a row of template 5. -/
def questRefRow : LootRow := ⟨5, 1, 100, 1, 0, -1, 1⟩

end FaceCore.LootTemplates
