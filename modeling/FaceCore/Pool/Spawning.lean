import FaceCore.Pool.Despawning
import FaceCore.Lib.FixedWidth

/-!
# Spawning in pools

A pool is filled, with the pools under it, and stays within its limit.

* `Fits`: when the function for quests, which does not look at the counter, does no harm;
* `Turning`: the invariant of the loop of `SpawnObject`, which counts down what may be spawned;
* `spawnLoop_spec`, `spawnQuests_spec`, `spawnKind_spec`: one group of objects;
* `spawnPoolDepth_spec`: the recursion into the pools of a pool.
-/

namespace FaceCore.Pools

variable {cfg : Config} {rnd : ℕ → Draw} {s s' : PoolMgr} {k : Kind} {guid p q : ℕ}
  {spawnChild : PoolMgr → ℕ → PoolMgr}

/-! ### What it is to spawn -/

/-- The count of a pool. -/
abbrev PoolMgr.count (s : PoolMgr) (p : ℕ) : ℕ := s.spawnedData.getActiveObjectCount p

/-- What it is to spawn in the pools under `p`: the other pools stay, and `p` stays active. -/
structure Spawned (cfg : Config) (p : ℕ) (s s' : PoolMgr) : Prop where
  outside : ∀ q, ¬ cfg.forest.Below q p →
    s'.spawnedData.spawnedPools q = s.spawnedData.spawnedPools q
  present : s.spawnedData.isActiveObject .pool p → s'.spawnedData.isActiveObject .pool p

theorem Spawned.refl (cfg : Config) (p : ℕ) (s : PoolMgr) : Spawned cfg p s s :=
  ⟨fun _ _ => rfl, id⟩

theorem Spawned.trans {s'' : PoolMgr} (h : Spawned cfg p s s') (h' : Spawned cfg p s' s'') :
    Spawned cfg p s s'' where
  outside := fun q hq => (h'.outside q hq).trans (h.outside q hq)
  present := fun hact => h'.present (h.present hact)

theorem Despawned.spawned (h : Despawned cfg p s s') : Spawned cfg p s s' := ⟨h.outside, h.present⟩

theorem Spawned.count_eq (h : Spawned cfg p s s') (hq : ¬ cfg.forest.Below q p) :
    s'.count q = s.count q := by
  unfold PoolMgr.count ActivePoolData.getActiveObjectCount
  rw [h.outside q hq]

theorem Spawned.isOpen (h : Spawned cfg p s s') (hopen : cfg.Open s.spawnedData p) :
    cfg.Open s'.spawnedData p := hopen.imp_left h.present

theorem Spawned.of_child {c : ℕ} (h : Spawned cfg c s s') (hc : cfg.searchMap .pool c = some p) :
    Spawned cfg p s s' where
  outside := fun q hq => h.outside q fun hbelow => hq (hbelow.to_mother hc)
  present := by
    intro hact
    rw [isActive_pool, h.outside p (Forest.not_below_child hc)]
    exact hact

/-- The pools under `p` are within their limits. -/
def Config.Within (cfg : Config) (p : ℕ) (s : PoolMgr) : Prop :=
  ∀ q, cfg.forest.Below q p → s.count q ≤ (cfg.maxLimit q).toNat

/-- The activation of an object: one more in its pool, and nothing else. -/
theorem activate_spec (h : cfg.Balanced s.spawnedData) (hg : cfg.searchMap k guid = some p)
    (hidle : ¬ s.spawnedData.isActiveObject k guid) (hopen : cfg.Open s.spawnedData p) :
    cfg.Balanced (s.activate k guid p).spawnedData ∧ Spawned cfg p s (s.activate k guid p) ∧
      (s.activate k guid p).count p = s.count p + 1 ∧
      ∀ q, q ≠ p → (s.activate k guid p).count q = s.count q := by
  have hentry := spawnedPools_activate (d := s.spawnedData) hg
  refine ⟨h.activate hg hidle hopen, ⟨fun q hq => ?_, fun _ => ?_⟩, ?_, fun q hq => ?_⟩
  · have hp : q ≠ p := by
      rintro rfl
      exact hq (cfg.forest.below_refl q)
    have hsub : ¬ (k = .pool ∧ q = guid) := by
      rintro ⟨rfl, rfl⟩
      exact hq ((cfg.forest.below_refl q).to_mother hg)
    exact (hentry q).trans ((if_neg hp).trans (if_neg hsub))
  · exact isActive_activate.2 (.inr ⟨rfl, rfl⟩)
  · show ((s.spawnedData.activateObject k guid p).spawnedPools p).getD 0 = _
    rw [hentry, if_pos rfl, Option.getD_some]
  · show ((s.spawnedData.activateObject k guid p).spawnedPools q).getD 0 = _
    rw [hentry, if_neg hq]
    split_ifs with hsub
    · obtain ⟨rfl, rfl⟩ := hsub
      exact (count_of_inactive hidle).symm
    · rfl

theorem rollChanced_spec {active : ℕ → Bool} {triggerFrom : ℕ} {roll : ℚ} {l : List PoolObject}
    {obj : PoolObject} (h : rollChanced active triggerFrom roll l = some obj) :
    obj ∈ l ∧ (obj.guid = triggerFrom ∨ ¬ active obj.guid) := by
  induction l generalizing roll with
  | nil => cases h
  | cons x l ih =>
    rw [rollChanced] at h
    split_ifs at h with hx
    · obtain rfl := Option.some.inj h
      exact ⟨List.mem_cons_self, hx.2⟩
    · obtain ⟨hmem, hor⟩ := ih h
      exact ⟨List.mem_cons_of_mem x hmem, hor⟩

/-- `RollOne` gives an object of the group that is idle, or the triggering one. -/
theorem rollOne_spec {g : PoolGroup} {active : ℕ → Bool} {triggerFrom : ℕ} {draw : Draw}
    {obj : PoolObject} (h : g.rollOne active triggerFrom draw = some obj) :
    obj.guid ∈ g.guids ∧ (obj.guid = triggerFrom ∨ ¬ active obj.guid) := by
  unfold PoolGroup.rollOne at h
  split at h
  next o hroll =>
    obtain rfl := Option.some.inj h
    obtain ⟨hmem, hor⟩ := rollChanced_spec hroll
    exact ⟨List.mem_map_of_mem (List.mem_append_right _ hmem), hor⟩
  next =>
    split at h
    next o hget =>
      split_ifs at h with hor
      obtain rfl := Option.some.inj h
      have hmem := List.mem_of_getElem? hget
      exact ⟨List.mem_map_of_mem (List.mem_append_left _ hmem), hor⟩
    next => cases h

/-! ### The loop over a group -/

/-- The saved quests that are loaded before the limit runs out. -/
def taken (limit : UInt32) (rows : List ℕ) : List ℕ := rows.take ((limit - 1).toNat + 1)

/-- The quests of a pool that are active. -/
def Config.ownQuests (cfg : Config) (p : ℕ) (active : Finset ℕ) : Finset ℕ :=
  active.filter fun q => cfg.searchMap .quest q = some p

/-- The quests of a pool that can be drawn first. -/
def Config.idleQuests (cfg : Config) (p : ℕ) (active : Finset ℕ) : Finset ℕ :=
  ((cfg.group .quest p).equalChanced.map PoolObject.guid).toFinset \ active

/-- A call for quests that does no harm. Saved quests that are loaded are quests of the pool and not
active yet, and there is room for them. Otherwise there is room for the quests that are drawn, also
when the limit is 0, and no quest of another pool can be taken again for want of idle ones. -/
def Config.Fits (cfg : Config) (e : QuestSpawn) : Prop :=
  let limit := cfg.maxLimit e.pool
  if e.triggered = false ∧ e.saved ≠ [] then
    (taken limit e.saved).Nodup ∧
      (∀ q ∈ taken limit e.saved, cfg.searchMap .quest q = some e.pool ∧ q ∉ e.activeQuests) ∧
      e.count + (taken limit e.saved).length ≤ limit.toNat
  else
    let own := cfg.ownQuests e.pool e.activeQuests
    let idle := cfg.idleQuests e.pool e.activeQuests
    (limit = 0 → idle = ∅) ∧ (idle.card < limit.toNat → own = e.activeQuests) ∧
      e.count - own.card + min limit.toNat (idle.card + own.card) ≤ limit.toNat

/-- The records of a call all fit. -/
def Config.AllFit (cfg : Config) (s : PoolMgr) : Prop := ∀ e ∈ s.questSpawns, cfg.Fits e

/-- What a function does to a pool that it fills. -/
def Fills (cfg : Config) (p : ℕ) (s s' : PoolMgr) : Prop :=
  cfg.Balanced s'.spawnedData ∧ Spawned cfg p s s' ∧ cfg.Within p s'

theorem Fills.trans {s'' : PoolMgr} (h : Fills cfg p s s') (h' : Fills cfg p s' s'') :
    Fills cfg p s s'' := ⟨h'.1, h.2.1.trans h'.2.1, h'.2.2⟩

theorem Fills.of_draw (draws : ℕ) (h : Fills cfg p { s with draws := draws } s') :
    Fills cfg p s s' :=
  ⟨h.1, ⟨h.2.1.outside, h.2.1.present⟩, h.2.2⟩

theorem Fills.of_record (triggerFrom : ℕ) (h : Fills cfg p (s.record p triggerFrom) s') :
    Fills cfg p s s' := ⟨h.1, ⟨h.2.1.outside, h.2.1.present⟩, h.2.2⟩

/-- What spawning a child pool is expected to do. -/
def SpawnsChildren (cfg : Config) (spawnChild : PoolMgr → ℕ → PoolMgr) (p : ℕ) : Prop :=
  ∀ s c, cfg.searchMap .pool c = some p → s.questSpawns ⊆ (spawnChild s c).questSpawns ∧
    (cfg.Balanced s.spawnedData → cfg.Open s.spawnedData c → cfg.Within c s →
      cfg.AllFit (spawnChild s c) → Fills cfg c s (spawnChild s c))

/-- The state in which the loop of `SpawnObject` is when it turns: an object that triggered it is
still active, and there is room for what may come. -/
structure Turning (cfg : Config) (k : Kind) (p count triggerFrom : ℕ) (s : PoolMgr) : Prop where
  balanced : cfg.Balanced s.spawnedData
  isOpen : cfg.Open s.spawnedData p
  within : cfg.Within p s
  trigger : triggerFrom ≠ 0 →
    cfg.searchMap k triggerFrom = some p ∧ s.spawnedData.isActiveObject k triggerFrom
  room : s.count p + count ≤ (cfg.maxLimit p).toNat + if triggerFrom ≠ 0 then 1 else 0

theorem Turning.turn {count triggerFrom : ℕ} (h : Turning cfg k p (count + 1) triggerFrom s) :
    Turning cfg k p count triggerFrom s :=
  { h with room := by have := h.room; omega }

theorem Turning.settle {count triggerFrom : ℕ} (h : Turning cfg k p (count + 1) triggerFrom s) :
    Turning cfg k p count 0 s where
  balanced := h.balanced
  isOpen := h.isOpen
  within := h.within
  trigger := fun h0 => absurd rfl h0
  room := by
    have hroom := h.room
    split_ifs at hroom ⊢ <;> omega

/-- One turn that activates an object: one more object, with its own objects when it is a pool. -/
theorem Turning.spawnOne {count triggerFrom : ℕ} {obj : ℕ}
    (h : Turning cfg k p count triggerFrom s) (hchild : SpawnsChildren cfg spawnChild p)
    (hobj : cfg.searchMap k obj = some p) (hidle : ¬ s.spawnedData.isActiveObject k obj)
    (hne : obj ≠ triggerFrom)
    (hfit : cfg.AllFit (if k = .pool then spawnChild (s.activate k obj p) obj
      else s.activate k obj p)) :
    let s' := if k = .pool then spawnChild (s.activate k obj p) obj else s.activate k obj p
    cfg.Balanced s'.spawnedData ∧ Spawned cfg p s s' ∧ s'.count p = s.count p + 1 ∧
      (∀ q, cfg.forest.Below q p → q ≠ p → s'.count q ≤ (cfg.maxLimit q).toNat) ∧
      (triggerFrom ≠ 0 → s'.spawnedData.isActiveObject k triggerFrom) := by
  obtain ⟨hbal, hsp, hone, hother⟩ := activate_spec h.balanced hobj hidle h.isOpen
  have hin : ∀ q, cfg.forest.Below q p → q ≠ p →
      (s.activate k obj p).count q ≤ (cfg.maxLimit q).toNat := fun q hq hqp =>
    (hother q hqp).symm ▸ h.within q hq
  have htrig : triggerFrom ≠ 0 → (s.activate k obj p).spawnedData.isActiveObject k triggerFrom :=
    fun h0 => isActive_activate.2 (.inl (.inl (h.trigger h0).2))
  dsimp only
  split_ifs at hfit ⊢ with hk
  · subst hk
    have hact : (s.activate .pool obj p).spawnedData.isActiveObject .pool obj :=
      isActive_activate.2 (.inl (.inr ⟨rfl, rfl⟩))
    have hpo : p ≠ obj := (ne_of_searchMap hobj).symm
    have hwithin : cfg.Within obj (s.activate .pool obj p) := fun q hq =>
      hin q (hq.to_mother hobj) (by
        rintro rfl
        exact Forest.not_below_child hobj hq)
    obtain ⟨hbal', hsp', hwithin'⟩ := (hchild _ obj hobj).2 hbal (.inl hact) hwithin hfit
    refine ⟨hbal', hsp.trans (hsp'.of_child hobj), ?_, fun q hq hqp => ?_, fun h0 => ?_⟩
    · rw [hsp'.count_eq (Forest.not_below_child hobj), hone]
    · by_cases hqo : cfg.forest.Below q obj
      · exact hwithin' q hqo
      · rw [hsp'.count_eq hqo]
        exact hin q hq hqp
    · have hout := hsp'.outside triggerFrom
        (Forest.not_below_sibling hobj (h.trigger h0).1 hne.symm)
      rw [isActive_pool, hout]
      exact htrig h0
  · exact ⟨hbal, hsp, hone, hin, htrig⟩

/-- Then the object that triggered the loop despawns: one spawn, one despawn. -/
theorem Turning.exchange {count triggerFrom : ℕ} (h : Turning cfg k p (count + 1) triggerFrom s)
    (h0 : triggerFrom ≠ 0) (hbal : cfg.Balanced s'.spawnedData) (hsp : Spawned cfg p s s')
    (hone : s'.count p = s.count p + 1)
    (hin : ∀ q, cfg.forest.Below q p → q ≠ p → s'.count q ≤ (cfg.maxLimit q).toNat)
    (hact : s'.spawnedData.isActiveObject k triggerFrom) :
    Turning cfg k p count 0 (despawnObject cfg (despawnPool cfg) k p triggerFrom s') ∧
      Spawned cfg p s (despawnObject cfg (despawnPool cfg) k p triggerFrom s') := by
  obtain ⟨hbal', hdes, hgone⟩ :=
    despawnObject_spec (despawnsChildren_despawnPool cfg p) hbal k triggerFrom
  have htrig := (h.trigger h0).1
  have hless := hdes.activeIn_lt htrig hact (hgone _ htrig (.inr rfl))
  have hcount : ∀ q, (despawnObject cfg (despawnPool cfg) k p triggerFrom s').count q ≤
      s'.count q := by
    intro q
    rw [PoolMgr.count, PoolMgr.count, hbal' q, hbal q]
    exact hdes.activeIn_le q
  have hp : (despawnObject cfg (despawnPool cfg) k p triggerFrom s').count p < s'.count p := by
    rw [PoolMgr.count, PoolMgr.count, hbal' p, hbal p]
    exact hless
  have hroom := h.room
  rw [if_pos h0] at hroom
  have hlimit := h.within p (cfg.forest.below_refl p)
  refine ⟨⟨hbal', (hsp.trans hdes.spawned).isOpen h.isOpen, fun q hq => ?_, fun h => absurd rfl h,
    ?_⟩, hsp.trans hdes.spawned⟩
  · by_cases hqp : q = p
    · subst hqp
      omega
    · exact (hcount q).trans (hin q hq hqp)
  · rw [if_neg (not_not.2 rfl)]
    omega

/-- The record of the calls grows. -/
theorem subset_spawnLoop (hchild : SpawnsChildren cfg spawnChild p)
    (count triggerFrom lastDespawned : ℕ) (s : PoolMgr) :
    s.questSpawns ⊆
      (spawnLoop cfg rnd spawnChild k p count triggerFrom lastDespawned s).questSpawns := by
  induction count generalizing triggerFrom lastDespawned s with
  | zero => exact fun _ he => he
  | succ count ih =>
    rw [spawnLoop]
    dsimp only
    split
    · exact ih _ _ { s with draws := s.draws + 1 }
    next obj hroll =>
      have hobj := cfg.mem_guids.1 (rollOne_spec hroll).1
      split_ifs with hlast htrig h0 hk hk
      · exact ih _ _ { s with draws := s.draws + 1 }
      · exact ih _ _ { s with draws := s.draws + 1 }
      · subst hk
        refine List.Subset.trans ?_ (ih _ _ _)
        rw [questSpawns_despawnObject questSpawns_despawnPool]
        exact (hchild ({ s with draws := s.draws + 1 }.activate .pool obj.guid p) obj.guid hobj).1
      · refine List.Subset.trans ?_ (ih _ _ _)
        rw [questSpawns_despawnObject questSpawns_despawnPool]
        exact fun _ he => he
      · subst hk
        exact List.Subset.trans
          (hchild ({ s with draws := s.draws + 1 }.activate .pool obj.guid p) obj.guid hobj).1
          (ih _ _ _)
      · exact ih _ _ ({ s with draws := s.draws + 1 }.activate k obj.guid p)

/-- The loop of `SpawnObject` keeps the pool within its limit. -/
theorem spawnLoop_spec (hchild : SpawnsChildren cfg spawnChild p)
    {count triggerFrom lastDespawned : ℕ} (h : Turning cfg k p count triggerFrom s)
    (hfit : cfg.AllFit (spawnLoop cfg rnd spawnChild k p count triggerFrom lastDespawned s)) :
    Fills cfg p s (spawnLoop cfg rnd spawnChild k p count triggerFrom lastDespawned s) := by
  induction count generalizing triggerFrom lastDespawned s with
  | zero => exact ⟨h.balanced, Spawned.refl cfg p s, h.within⟩
  | succ count ih =>
    -- the draw changes neither the pools nor the record
    have hdraw : Turning cfg k p (count + 1) triggerFrom { s with draws := s.draws + 1 } :=
      ⟨h.balanced, h.isOpen, h.within, h.trigger, h.room⟩
    rw [spawnLoop] at hfit ⊢
    dsimp only at hfit ⊢
    refine Fills.of_draw (s.draws + 1) ?_
    cases hroll : (cfg.group k p).rollOne (s.spawnedData.isActiveObject k) triggerFrom
        (rnd s.draws) with
    | none =>
      rw [hroll] at hfit
      exact ih hdraw.turn hfit
    | some obj =>
      rw [hroll] at hfit
      dsimp only at hfit ⊢
      obtain ⟨hmem, hor⟩ := rollOne_spec hroll
      have hobj := cfg.mem_guids.1 hmem
      by_cases hlast : obj.guid = lastDespawned
      · rw [if_pos hlast] at hfit ⊢
        exact ih hdraw.turn hfit
      by_cases htrig : obj.guid = triggerFrom
      · rw [if_neg hlast, if_pos htrig] at hfit ⊢
        exact ih hdraw.settle hfit
      rw [if_neg hlast, if_neg htrig] at hfit ⊢
      have hidle := hor.resolve_left htrig
      by_cases h0 : triggerFrom ≠ 0
      · rw [if_pos h0] at hfit ⊢
        obtain ⟨hbal, hsp, hone, hin, hact⟩ := hdraw.spawnOne hchild hobj hidle htrig (by
          intro e he
          refine hfit e (subset_spawnLoop hchild _ _ _ _ ?_)
          rw [questSpawns_despawnObject questSpawns_despawnPool]
          exact he)
        obtain ⟨hturn, hsp'⟩ := hdraw.exchange h0 hbal hsp hone hin (hact h0)
        obtain ⟨hb, hs, hw⟩ := ih hturn hfit
        exact ⟨hb, hsp'.trans hs, hw⟩
      · rw [if_neg h0] at hfit ⊢
        obtain ⟨hbal, hsp, hone, hin, -⟩ := hdraw.spawnOne hchild hobj hidle htrig fun e he =>
          hfit e (subset_spawnLoop hchild _ _ _ _ he)
        have hroom := hdraw.room
        rw [if_neg h0] at hroom
        obtain ⟨hb, hs, hw⟩ := ih ⟨hbal, hsp.isOpen h.isOpen,
          fun q hq => by
            by_cases hqp : q = p
            · subst hqp
              rw [hone]
              omega
            · exact hin q hq hqp,
          fun h => absurd rfl h, by rw [hone, if_neg (not_not.2 rfl)]; omega⟩ hfit
        exact ⟨hb, hsp.trans hs, hw⟩

/-! ### Quests -/

theorem selectRandom_mem {set : Finset ℕ} (h : set.Nonempty) (draw : Draw) :
    selectRandom set draw ∈ set := Picking.pick_mem h 0 draw.index

/-- What it is to activate `n` more objects of a pool. -/
def Adds (cfg : Config) (p n : ℕ) (s s' : PoolMgr) : Prop :=
  cfg.Balanced s'.spawnedData ∧ Spawned cfg p s s' ∧ s'.count p = s.count p + n ∧
    ∀ q, q ≠ p → s'.count q = s.count q

theorem Adds.trans {s'' : PoolMgr} {n m : ℕ} (h : Adds cfg p n s s') (h' : Adds cfg p m s' s'') :
    Adds cfg p (n + m) s s'' := by
  obtain ⟨-, hsp, hone, hother⟩ := h
  obtain ⟨hbal', hsp', hone', hother'⟩ := h'
  exact ⟨hbal', hsp.trans hsp', by omega, fun q hq => (hother' q hq).trans (hother q hq)⟩

/-- The pools under `p` stay within their limits, if there is room in `p`. -/
theorem Adds.fills {n : ℕ} (h : Adds cfg p n s s') (hwithin : cfg.Within p s)
    (hroom : s.count p + n ≤ (cfg.maxLimit p).toNat) : Fills cfg p s s' := by
  obtain ⟨hbal, hsp, hone, hother⟩ := h
  refine ⟨hbal, hsp, fun q hq => ?_⟩
  by_cases hqp : q = p
  · subst hqp
    omega
  · rw [hother q hqp]
    exact hwithin q hq

theorem quest_active_activate {q' : ℕ} :
    q' ∈ (s.activate .quest q p).spawnedData.activeQuests ↔
      q' = q ∨ q' ∈ s.spawnedData.activeQuests := Finset.mem_insert

theorem loadQuests_spec {rows : List ℕ} {limit : UInt32} (h : cfg.Balanced s.spawnedData)
    (hopen : cfg.Open s.spawnedData p) (hne : rows ≠ []) (hnodup : (taken limit rows).Nodup)
    (hidle : ∀ q ∈ taken limit rows,
      cfg.searchMap .quest q = some p ∧ q ∉ s.spawnedData.activeQuests) :
    Adds cfg p (taken limit rows).length s (loadQuests p rows limit s) := by
  induction rows generalizing limit s with
  | nil => exact absurd rfl hne
  | cons q rows ih =>
    have hcons : taken limit (q :: rows) = q :: rows.take (limit - 1).toNat := rfl
    rw [hcons] at hnodup hidle ⊢
    obtain ⟨hnot, hnodup⟩ := List.nodup_cons.1 hnodup
    obtain ⟨hq, hidleq⟩ := hidle q List.mem_cons_self
    have hone : Adds cfg p 1 s (s.activate .quest q p) :=
      activate_spec h hq (fun hact => hidleq (isActive_quest.1 hact)) hopen
    rw [loadQuests]
    split_ifs with hlimit
    · rw [hlimit]
      exact hone
    · cases rows with
      | nil =>
        rw [List.take_nil]
        exact hone
      | cons q' rows =>
        have htaken : taken (limit - 1) (q' :: rows) = (q' :: rows).take (limit - 1).toNat := by
          rw [taken, FixedWidth.toNat_sub_one hlimit]
        rw [← htaken] at hnodup hidle hnot ⊢
        have hrest := ih hone.1 (hone.2.1.isOpen hopen) (List.cons_ne_nil _ _) hnodup
          fun x hx => ⟨(hidle x (List.mem_cons_of_mem q hx)).1, fun hact => by
            rcases quest_active_activate.1 hact with rfl | hact
            · exact hnot hx
            · exact (hidle x (List.mem_cons_of_mem q hx)).2 hact⟩
        rw [List.length_cons, Nat.add_comm]
        exact hone.trans hrest

theorem recycleQuests_spec (limit : UInt32) (fuel : ℕ) (currentQuests newQuests : Finset ℕ)
    (s : PoolMgr) :
    (recycleQuests rnd limit fuel currentQuests newQuests s).2.spawnedData = s.spawnedData ∧
      (recycleQuests rnd limit fuel currentQuests newQuests s).2.questSpawns = s.questSpawns ∧
      (recycleQuests rnd limit fuel currentQuests newQuests s).1 ⊆ newQuests ∪ currentQuests := by
  induction fuel generalizing currentQuests newQuests s with
  | zero => exact ⟨rfl, rfl, Finset.subset_union_left⟩
  | succ fuel ih =>
    rw [recycleQuests]
    split_ifs with hmore
    · have hmem := selectRandom_mem hmore.2 (rnd s.draws)
      obtain ⟨hdata, hrec, hsub⟩ := ih (currentQuests.erase (selectRandom currentQuests
        (rnd s.draws))) (insert (selectRandom currentQuests (rnd s.draws)) newQuests)
        { s with draws := s.draws + 1 }
      refine ⟨hdata, hrec, hsub.trans fun q hq => ?_⟩
      rcases Finset.mem_union.1 hq with hq | hq
      · rcases Finset.mem_insert.1 hq with rfl | hq
        · exact Finset.mem_union_right _ hmem
        · exact Finset.mem_union_left _ hq
      · exact Finset.mem_union_right _ (Finset.mem_of_mem_erase hq)
    · exact ⟨rfl, rfl, Finset.subset_union_left⟩

/-- Random quests that are idle quests of the pool, not more of them than the limit. -/
theorem activateQuests_spec {fuel : ℕ} {newQuests : Finset ℕ} {limit : UInt32}
    (h : cfg.Balanced s.spawnedData) (hopen : cfg.Open s.spawnedData p)
    (hfuel : newQuests.card ≤ fuel) (hnew : newQuests.Nonempty) (hlimit : limit ≠ 0)
    (hidle : ∀ q ∈ newQuests,
      cfg.searchMap .quest q = some p ∧ q ∉ s.spawnedData.activeQuests) :
    ∃ n ≤ min limit.toNat newQuests.card,
      Adds cfg p n s (activateQuests rnd p fuel newQuests limit s) := by
  induction fuel generalizing newQuests limit s with
  | zero => exact absurd hnew.card_pos (by omega)
  | succ fuel ih =>
    have hmem := selectRandom_mem hnew (rnd s.draws)
    rw [activateQuests]
    generalize selectRandom newQuests (rnd s.draws) = q at hmem ⊢
    have hone : Adds cfg p 1 { s with draws := s.draws + 1 }
        ({ s with draws := s.draws + 1 }.activate .quest q p) :=
      activate_spec h (hidle q hmem).1 (fun hact => (hidle q hmem).2 (isActive_quest.1 hact)) hopen
    have hcard := Finset.card_erase_add_one hmem
    have hpos := FixedWidth.toNat_sub_one hlimit
    split_ifs with hmore
    · obtain ⟨n, hn, hrest⟩ := ih hone.1 (hone.2.1.isOpen hopen) (by omega) hmore.2 hmore.1
        fun x hx => ⟨(hidle x (Finset.mem_of_mem_erase hx)).1, fun hact => by
          rcases quest_active_activate.1 hact with rfl | hact
          · exact Finset.notMem_erase _ _ hx
          · exact (hidle x (Finset.mem_of_mem_erase hx)).2 hact⟩
      obtain ⟨hbal, hsp, hcount, hother⟩ := hone.trans hrest
      exact ⟨1 + n, by omega, hbal, ⟨hsp.outside, hsp.present⟩, hcount, hother⟩
    · obtain ⟨hbal, hsp, hcount, hother⟩ := hone
      exact ⟨1, by omega, hbal, ⟨hsp.outside, hsp.present⟩, hcount, hother⟩

theorem questSpawns_loadQuests (rows : List ℕ) (limit : UInt32) (s : PoolMgr) :
    (loadQuests p rows limit s).questSpawns = s.questSpawns := by
  induction rows generalizing limit s with
  | nil => rfl
  | cons q rows ih =>
    rw [loadQuests]
    split_ifs
    · rfl
    · exact ih _ _

theorem questSpawns_activateQuests (fuel : ℕ) (newQuests : Finset ℕ) (limit : UInt32)
    (s : PoolMgr) : (activateQuests rnd p fuel newQuests limit s).questSpawns = s.questSpawns := by
  induction fuel generalizing newQuests limit s with
  | zero => rfl
  | succ fuel ih =>
    rw [activateQuests]
    split_ifs
    · exact ih _ _ _
    · rfl

theorem questSpawns_selectQuests (limit : UInt32) (s : PoolMgr) :
    (selectQuests cfg rnd p limit s).2.questSpawns = s.questSpawns := by
  have hdespawn : (despawnObject cfg (despawnPool cfg) .quest p 0 s).questSpawns = s.questSpawns :=
    questSpawns_despawnObject questSpawns_despawnPool .quest p 0 s
  unfold selectQuests
  dsimp only
  split_ifs
  · exact (recycleQuests_spec limit _ _ _ _).2.1.trans hdespawn
  · exact hdespawn

theorem questSpawns_spawnQuests (limit : UInt32) (triggerFrom : ℕ) (s : PoolMgr) :
    (spawnQuests cfg rnd p limit triggerFrom s).questSpawns =
      s.questSpawns ++ [s.questSpawn p triggerFrom] := by
  unfold spawnQuests
  dsimp only
  split_ifs <;>
    simp only [questSpawns_loadQuests, questSpawns_selectQuests, questSpawns_activateQuests,
      saveQuestsToDB] <;> rfl

/-- What may be drawn: idle quests of the pool, and for want of them active quests of any pool. -/
theorem selectQuests_spec (limit : UInt32) (s : PoolMgr) :
    (selectQuests cfg rnd p limit s).2.spawnedData =
        (despawnObject cfg (despawnPool cfg) .quest p 0 s).spawnedData ∧
      (selectQuests cfg rnd p limit s).1 ⊆
        cfg.idleQuests p s.spawnedData.activeQuests ∪ s.spawnedData.activeQuests ∧
      (limit.toNat ≤ (cfg.idleQuests p s.spawnedData.activeQuests).card →
        (selectQuests cfg rnd p limit s).1 = cfg.idleQuests p s.spawnedData.activeQuests) := by
  unfold selectQuests
  dsimp only
  split_ifs with hless
  · obtain ⟨hdata, -, hsub⟩ := @recycleQuests_spec rnd limit
      s.spawnedData.activeQuests.card s.spawnedData.activeQuests
      (cfg.idleQuests p s.spawnedData.activeQuests)
      (despawnObject cfg (despawnPool cfg) .quest p 0 s)
    exact ⟨hdata, hsub, fun hle => absurd hle (Nat.not_le.2 hless)⟩
  · exact ⟨rfl, Finset.subset_union_left, fun _ => rfl⟩

/-- After the pool is cleared of its quests, some of them and of the idle ones are activated. -/
theorem activateSelected_spec {new : Finset ℕ} {limit : UInt32} (h : cfg.Balanced s.spawnedData)
    (hopen : cfg.Open s.spawnedData p) (hwithin : cfg.Within p s)
    (hclear : s'.spawnedData = (despawnObject cfg (despawnPool cfg) .quest p 0 s).spawnedData)
    (hnew : new ⊆ cfg.idleQuests p s.spawnedData.activeQuests ∪
      cfg.ownQuests p s.spawnedData.activeQuests)
    (hroom : s.count p - (cfg.ownQuests p s.spawnedData.activeQuests).card +
      min limit.toNat new.card ≤ (cfg.maxLimit p).toNat) :
    Fills cfg p s s' ∧ (new.Nonempty → limit ≠ 0 →
      Fills cfg p s (activateQuests rnd p new.card new limit s')) := by
  obtain ⟨hbal, hdes, hgone⟩ :=
    despawnObject_spec (despawnsChildren_despawnPool cfg p) h .quest 0
  rw [← hclear] at hbal hgone
  have hdes : Despawned cfg p s s' := by
    constructor
    · rw [hclear]
      exact hdes.shrinks
    · rw [hclear]
      exact hdes.outside
    · rw [hclear]
      exact hdes.present
  have hown : ∀ g ∈ cfg.ownQuests p s.spawnedData.activeQuests, cfg.searchMap .quest g = some p ∧
      s.spawnedData.isActiveObject .quest g ∧ ¬ s'.spawnedData.isActiveObject .quest g := by
    intro g hg
    obtain ⟨hact, hmap⟩ := Finset.mem_filter.1 hg
    exact ⟨hmap, isActive_quest.2 hact, hgone g hmap (.inl rfl)⟩
  have hcleared : Fills cfg p s s' := by
    refine ⟨hbal, hdes.spawned, fun q hq => ?_⟩
    rw [PoolMgr.count, hbal q]
    exact (hdes.activeIn_le q).trans ((h q).ge.trans (hwithin q hq))
  refine ⟨hcleared, fun hne hlimit => ?_⟩
  have hidle : ∀ q ∈ new, cfg.searchMap .quest q = some p ∧ q ∉ s'.spawnedData.activeQuests := by
    intro q hq
    rcases Finset.mem_union.1 (hnew hq) with hq | hq
    · obtain ⟨hmem, hnot⟩ := Finset.mem_sdiff.1 hq
      refine ⟨cfg.mem_guids.1 ?_, fun hact => hnot ?_⟩
      · rw [PoolGroup.guids, List.map_append]
        exact List.mem_append_left _ (List.mem_toFinset.1 hmem)
      · exact isActive_quest.1 (hdes.shrinks .quest q (isActive_quest.2 hact))
    · exact ⟨(hown q hq).1, fun hact => (hown q hq).2.2 (isActive_quest.2 hact)⟩
  have hadds : ∃ n ≤ min limit.toNat new.card,
      Adds cfg p n s' (activateQuests rnd p new.card new limit s') :=
    activateQuests_spec hbal (hdes.spawned.isOpen hopen) le_rfl hne hlimit hidle
  obtain ⟨n, hn, hadds⟩ := hadds
  have hless := hdes.activeIn_add_le _ hown
  rw [← hbal p, ← h p] at hless
  refine hcleared.trans (hadds.fills hcleared.2.2 ?_)
  rw [PoolMgr.count] at hroom ⊢
  omega

/-- The function for quests, when its record fits. -/
theorem spawnQuests_spec {triggerFrom : ℕ} (h : cfg.Balanced s.spawnedData)
    (hopen : cfg.Open s.spawnedData p) (hwithin : cfg.Within p s)
    (hfit : cfg.Fits (s.questSpawn p triggerFrom)) :
    Fills cfg p s (spawnQuests cfg rnd p (cfg.maxLimit p) triggerFrom s) := by
  unfold Config.Fits PoolMgr.questSpawn at hfit
  unfold spawnQuests
  dsimp only at hfit ⊢
  -- the record does not matter here
  refine Fills.of_record triggerFrom ?_
  by_cases hload : triggerFrom = 0 ∧ (s.record p triggerFrom).poolQuestSave p ≠ []
  · rw [if_pos ⟨by simpa using hload.1, hload.2⟩] at hfit
    obtain ⟨hnodup, hidle, hroom⟩ := hfit
    rw [if_pos hload]
    exact (loadQuests_spec (s := s.record p triggerFrom) h hopen hload.2 hnodup hidle).fills
      hwithin hroom
  rw [if_neg fun hboth => hload ⟨by simpa using hboth.1, hboth.2⟩] at hfit
  rw [if_neg hload]
  obtain ⟨hzero, hforeign, hroom⟩ := hfit
  have hsel := @selectQuests_spec cfg rnd p (cfg.maxLimit p) (s.record p triggerFrom)
  generalize selectQuests cfg rnd p (cfg.maxLimit p) (s.record p triggerFrom) = selected at *
  obtain ⟨hclear, hsub, henough⟩ := hsel
  have hnew : selected.1 ⊆ cfg.idleQuests p s.spawnedData.activeQuests ∪
      cfg.ownQuests p s.spawnedData.activeQuests := by
    by_cases hless : (cfg.idleQuests p s.spawnedData.activeQuests).card < (cfg.maxLimit p).toNat
    · rw [hforeign hless]
      exact hsub
    · rw [henough (Nat.not_lt.1 hless)]
      exact Finset.subset_union_left
  have hcard : selected.1.card ≤ (cfg.idleQuests p s.spawnedData.activeQuests).card +
      (cfg.ownQuests p s.spawnedData.activeQuests).card :=
    (Finset.card_le_card hnew).trans (Finset.card_union_le _ _)
  have hspec := @activateSelected_spec cfg rnd (s.record p triggerFrom) selected.2 p selected.1
    (cfg.maxLimit p) h hopen hwithin hclear hnew (by
      refine le_trans ?_ hroom
      exact Nat.add_le_add_left (min_le_min_left _ hcard) _)
  have hpos : selected.1 ≠ ∅ → cfg.maxLimit p ≠ 0 := by
    intro hne h0
    refine hne ((henough ?_).trans (hzero h0))
    rw [h0]
    exact Nat.zero_le _
  split_ifs with hnone htrig
  · exact hspec.1
  · obtain ⟨hbal, hsp, hin⟩ := hspec.2 (Finset.nonempty_iff_ne_empty.2 hnone) (hpos hnone)
    exact ⟨hbal, ⟨hsp.outside, hsp.present⟩, hin⟩
  · exact hspec.2 (Finset.nonempty_iff_ne_empty.2 hnone) (hpos hnone)

/-! ### Pools -/

theorem count_add_spawnCount {limit : UInt32} {count : ℕ} (h : count ≤ limit.toNat)
    (triggerFrom : ℕ) :
    count + spawnCount limit count triggerFrom ≤
      limit.toNat + if triggerFrom ≠ 0 then 1 else 0 := by
  have hle : Int.bmod ((limit.toNat : ℤ) - count) (2 ^ 32) ≤ limit.toNat - count := by
    unfold Int.bmod
    dsimp only
    split_ifs <;> omega
  unfold spawnCount
  split_ifs <;> omega

theorem spawnKind_spec {triggerFrom : ℕ} (hchild : SpawnsChildren cfg spawnChild p)
    (h : cfg.Balanced s.spawnedData) (hopen : cfg.Open s.spawnedData p) (hwithin : cfg.Within p s)
    (htrig : triggerFrom ≠ 0 →
      cfg.searchMap k triggerFrom = some p ∧ s.spawnedData.isActiveObject k triggerFrom)
    (hfit : cfg.AllFit (spawnKind cfg rnd spawnChild k p triggerFrom s)) :
    Fills cfg p s (spawnKind cfg rnd spawnChild k p triggerFrom s) := by
  unfold spawnKind at hfit ⊢
  split_ifs at hfit ⊢ with hempty
  · exact ⟨h, Spawned.refl cfg p s, hwithin⟩
  unfold spawnObject at hfit ⊢
  split_ifs at hfit ⊢ with hk
  · refine spawnQuests_spec h hopen hwithin (hfit _ ?_)
    rw [questSpawns_spawnQuests]
    exact List.mem_append_right _ (List.mem_singleton_self _)
  · refine spawnLoop_spec hchild ⟨h, hopen, hwithin, htrig, ?_⟩ hfit
    exact count_add_spawnCount (hwithin p (cfg.forest.below_refl p)) triggerFrom

theorem subset_spawnKind (hchild : SpawnsChildren cfg spawnChild p) (k : Kind) (triggerFrom : ℕ)
    (s : PoolMgr) :
    s.questSpawns ⊆ (spawnKind cfg rnd spawnChild k p triggerFrom s).questSpawns := by
  unfold spawnKind spawnObject
  split_ifs with hempty hk
  · exact fun _ he => he
  · rw [questSpawns_spawnQuests]
    exact List.subset_append_left _ _
  · exact subset_spawnLoop hchild _ _ _ _

/-- `SpawnPool` keeps the pools under a pool within their limits, whatever the depth. -/
theorem spawnPoolDepth_spec {depth : ℕ} (s : PoolMgr) (hdepth : cfg.level p < depth) :
    s.questSpawns ⊆ (spawnPoolDepth cfg rnd depth s p).questSpawns ∧
      (cfg.Balanced s.spawnedData → cfg.Open s.spawnedData p → cfg.Within p s →
        cfg.AllFit (spawnPoolDepth cfg rnd depth s p) →
          Fills cfg p s (spawnPoolDepth cfg rnd depth s p)) := by
  induction depth generalizing s p with
  | zero => omega
  | succ depth ih =>
    have hchild : SpawnsChildren cfg (spawnPoolDepth cfg rnd depth) p := fun s c hc =>
      ih s (lt_of_lt_of_le (cfg.level_lt hc) (Nat.lt_succ_iff.1 hdepth))
    rw [spawnPoolDepth]
    -- one kind after the other
    induction [Kind.pool, .gameobject, .creature, .quest] generalizing s with
    | nil => exact ⟨fun _ he => he, fun h _ hwithin _ => ⟨h, Spawned.refl cfg p s, hwithin⟩⟩
    | cons k ks ihk =>
      have hfirst : s.questSpawns ⊆
          (spawnKind cfg rnd (spawnPoolDepth cfg rnd depth) k p 0 s).questSpawns :=
        subset_spawnKind hchild k 0 s
      obtain ⟨hgrows, hrest⟩ := ihk (spawnKind cfg rnd (spawnPoolDepth cfg rnd depth) k p 0 s)
      refine ⟨List.Subset.trans hfirst hgrows, fun h hopen hwithin hfit => ?_⟩
      have hkind : Fills cfg p s (spawnKind cfg rnd (spawnPoolDepth cfg rnd depth) k p 0 s) :=
        spawnKind_spec hchild h hopen hwithin (fun h0 => absurd rfl h0) fun e he =>
          hfit e (hgrows he)
      exact hkind.trans (hrest hkind.1 (hkind.2.1.isOpen hopen) hkind.2.2 hfit)

theorem spawnsChildren_spawnPool (cfg : Config) (rnd : ℕ → Draw) (p : ℕ) :
    SpawnsChildren cfg (spawnPool cfg rnd) p :=
  fun s _ _ => spawnPoolDepth_spec s (Nat.lt_succ_self _)

end FaceCore.Pools
