import FaceCore.Pool.PoolMgr

/-!
# Despawning in pools

Objects of pools become active and are removed, and pools despawn.

* `activeIn`, `Balanced`: the number of active objects, and the counters that are these numbers;
* `Balanced.activate`, `Balanced.remove`: one object keeps the balance;
* `Despawned`: what it is to despawn in the pools under a pool;
* `despawnObject_spec`, `despawnPool_spec`: the functions do that.
-/

namespace FaceCore.Pools

variable {cfg : Config} {d : ActivePoolData} {s s' : PoolMgr} {k : Kind} {guid p q : ℕ}

/-- The objects of a pool. -/
def Config.contents (cfg : Config) (p : ℕ) : Finset (Kind × ℕ) :=
  ([Kind.creature, .gameobject, .pool, .quest].flatMap fun k =>
    (cfg.group k p).guids.map fun guid => (k, guid)).toFinset

theorem mem_contents {o : Kind × ℕ} : o ∈ cfg.contents p ↔ cfg.searchMap o.1 o.2 = some p := by
  obtain ⟨k, guid⟩ := o
  rw [← cfg.mem_guids]
  cases k <;> simp [Config.contents]

/-- The number of active objects of a pool. -/
def Config.activeIn (cfg : Config) (d : ActivePoolData) (p : ℕ) : ℕ :=
  ((cfg.contents p).filter fun o => d.isActiveObject o.1 o.2).card

/-- The counters are the numbers of the active objects. -/
def Config.Balanced (cfg : Config) (d : ActivePoolData) : Prop :=
  ∀ p, d.getActiveObjectCount p = cfg.activeIn d p

/-- A pool that may be filled: it is active in its mother, or has none. -/
def Config.Open (cfg : Config) (d : ActivePoolData) (p : ℕ) : Prop :=
  d.isActiveObject .pool p ∨ cfg.searchMap .pool p = none

/-! ### One object -/

theorem ne_of_searchMap (h : cfg.searchMap .pool guid = some p) : guid ≠ p := by
  rintro rfl
  exact lt_irrefl _ (cfg.level_lt h)

@[simp] theorem isActive_creature :
    d.isActiveObject .creature guid ↔ guid ∈ d.spawnedCreatures := decide_eq_true_iff

@[simp] theorem isActive_gameobject :
    d.isActiveObject .gameobject guid ↔ guid ∈ d.spawnedGameobjects := decide_eq_true_iff

@[simp] theorem isActive_quest :
    d.isActiveObject .quest guid ↔ guid ∈ d.activeQuests := decide_eq_true_iff

@[simp] theorem isActive_pool :
    d.isActiveObject .pool guid = (d.spawnedPools guid).isSome := rfl

theorem isActive_setCount {k' : Kind} {guid' n : ℕ} :
    (d.setCount p (some n)).isActiveObject k' guid' ↔
      d.isActiveObject k' guid' ∨ (k' = .pool ∧ guid' = p) := by
  cases k' with
  | pool =>
    show (if guid' = p then some n else d.spawnedPools guid').isSome ↔
      (d.spawnedPools guid').isSome ∨ _
    split_ifs with h <;> simp [h]
  | creature | gameobject | quest => simp [ActivePoolData.setCount]

theorem isActive_mark {k' : Kind} {guid' : ℕ} : (d.mark k guid).isActiveObject k' guid' ↔
    d.isActiveObject k' guid' ∨ (k' = k ∧ guid' = guid) := by
  cases k with
  | pool => exact isActive_setCount
  | creature | gameobject | quest =>
    cases k' <;> simp [ActivePoolData.mark, or_comm]

theorem isActive_unmark {k' : Kind} {guid' : ℕ} : (d.unmark k guid).isActiveObject k' guid' ↔
    d.isActiveObject k' guid' ∧ ¬ (k' = k ∧ guid' = guid) := by
  cases k with
  | pool =>
    cases k' with
    | pool =>
      show (if guid' = guid then none else d.spawnedPools guid').isSome ↔
        (d.spawnedPools guid').isSome ∧ _
      split_ifs with h <;> simp [h]
    | creature | gameobject | quest => simp [ActivePoolData.unmark, ActivePoolData.setCount]
  | creature | gameobject | quest =>
    cases k' <;> simp [ActivePoolData.unmark, and_comm]

theorem isActive_activate {k' : Kind} {guid' : ℕ} :
    (d.activateObject k guid p).isActiveObject k' guid' ↔
      (d.isActiveObject k' guid' ∨ (k' = k ∧ guid' = guid)) ∨ (k' = .pool ∧ guid' = p) :=
  isActive_setCount.trans (or_congr_left isActive_mark)

theorem isActive_remove {k' : Kind} {guid' : ℕ} :
    (d.removeObject k guid p).isActiveObject k' guid' ↔
      (d.isActiveObject k' guid' ∧ ¬ (k' = k ∧ guid' = guid)) ∨ (k' = .pool ∧ guid' = p) :=
  isActive_setCount.trans (or_congr_left isActive_unmark)

theorem spawnedPools_mark (q : ℕ) : (d.mark k guid).spawnedPools q =
    if k = .pool ∧ q = guid then some 0 else d.spawnedPools q := by
  cases k <;> simp [ActivePoolData.mark, ActivePoolData.setCount]

theorem spawnedPools_unmark (q : ℕ) : (d.unmark k guid).spawnedPools q =
    if k = .pool ∧ q = guid then none else d.spawnedPools q := by
  cases k <;> simp [ActivePoolData.unmark, ActivePoolData.setCount]

/-- The entries of `mSpawnedPools` when an object of the pool `p` is activated. -/
theorem spawnedPools_activate (hg : cfg.searchMap k guid = some p) (q : ℕ) :
    (d.activateObject k guid p).spawnedPools q =
      if q = p then some (d.getActiveObjectCount p + 1)
      else if k = .pool ∧ q = guid then some 0 else d.spawnedPools q := by
  have hp : ¬ (k = .pool ∧ p = guid) := by
    rintro ⟨rfl, rfl⟩
    exact ne_of_searchMap hg rfl
  have hcount : (d.mark k guid).getActiveObjectCount p = d.getActiveObjectCount p := by
    unfold ActivePoolData.getActiveObjectCount
    rw [spawnedPools_mark, if_neg hp]
  show (if q = p then some ((d.mark k guid).getActiveObjectCount p + 1)
    else (d.mark k guid).spawnedPools q) = _
  rw [hcount, spawnedPools_mark]

/-- The entries of `mSpawnedPools` when an object of the pool `p` is removed. -/
theorem spawnedPools_remove (hg : cfg.searchMap k guid = some p) (q : ℕ) :
    (d.removeObject k guid p).spawnedPools q =
      if q = p then some (d.getActiveObjectCount p - 1)
      else if k = .pool ∧ q = guid then none else d.spawnedPools q := by
  have hp : ¬ (k = .pool ∧ p = guid) := by
    rintro ⟨rfl, rfl⟩
    exact ne_of_searchMap hg rfl
  have hcount : (d.unmark k guid).getActiveObjectCount p = d.getActiveObjectCount p := by
    unfold ActivePoolData.getActiveObjectCount
    rw [spawnedPools_unmark, if_neg hp]
  show (if q = p then some ((d.unmark k guid).getActiveObjectCount p - 1)
    else (d.unmark k guid).spawnedPools q) = _
  rw [hcount, spawnedPools_unmark]

theorem count_of_inactive (h : ¬ d.isActiveObject .pool p) : d.getActiveObjectCount p = 0 := by
  have hnone : d.spawnedPools p = none := by simpa [ActivePoolData.isActiveObject] using h
  unfold ActivePoolData.getActiveObjectCount
  rw [hnone]
  rfl

/-- A pool with an active object is active. -/
theorem active_of_count (h : d.getActiveObjectCount p ≠ 0) : d.isActiveObject .pool p := by
  by_contra hne
  exact h (count_of_inactive hne)

theorem not_self_mem : ¬ cfg.searchMap .pool p = some p := fun h => ne_of_searchMap h rfl

theorem Config.Balanced.count_pos (h : cfg.Balanced d) (hg : cfg.searchMap k guid = some p)
    (hactive : d.isActiveObject k guid) : d.getActiveObjectCount p ≠ 0 := by
  rw [h p]
  exact (Finset.card_pos.2 ⟨(k, guid), Finset.mem_filter.2 ⟨mem_contents.2 hg, hactive⟩⟩).ne'

theorem Config.Balanced.activate (h : cfg.Balanced d) (hg : cfg.searchMap k guid = some p)
    (hidle : ¬ d.isActiveObject k guid) (hopen : cfg.Open d p) :
    cfg.Balanced (d.activateObject k guid p) := by
  intro q
  unfold ActivePoolData.getActiveObjectCount Config.activeIn
  rw [spawnedPools_activate hg]
  by_cases hq : q = p
  · subst hq
    rw [if_pos rfl, Option.getD_some, h q, Config.activeIn]
    have hset : (cfg.contents q).filter (fun o =>
          (d.activateObject k guid q).isActiveObject o.1 o.2) =
        insert (k, guid) ((cfg.contents q).filter fun o => d.isActiveObject o.1 o.2) := by
      ext ⟨k', guid'⟩
      rw [Finset.mem_filter, Finset.mem_insert, Finset.mem_filter, mem_contents, isActive_activate,
        Prod.mk.injEq]
      constructor
      · rintro ⟨hmem, (hact | heq) | ⟨rfl, rfl⟩⟩
        · exact .inr ⟨hmem, hact⟩
        · exact .inl heq
        · exact absurd hmem not_self_mem
      · rintro (⟨rfl, rfl⟩ | ⟨hmem, hact⟩)
        · exact ⟨hg, .inl (.inr ⟨rfl, rfl⟩)⟩
        · exact ⟨hmem, .inl (.inl hact)⟩
    rw [hset, Finset.card_insert_of_notMem]
    exact fun hmem => hidle (Finset.mem_filter.1 hmem).2
  · rw [if_neg hq]
    have hset : (cfg.contents q).filter (fun o =>
          (d.activateObject k guid p).isActiveObject o.1 o.2) =
        (cfg.contents q).filter fun o => d.isActiveObject o.1 o.2 := by
      refine Finset.filter_congr fun o ho => ?_
      rw [mem_contents] at ho
      rw [isActive_activate]
      constructor
      · rintro ((hact | ⟨hk, hguid⟩) | ⟨hk, hguid⟩)
        · exact hact
        · rw [hk, hguid] at ho
          exact absurd (Option.some.inj (ho.symm.trans hg)) hq
        · rw [hk, hguid] at ho ⊢
          exact hopen.resolve_right fun hnone => by rw [hnone] at ho; cases ho
      · exact fun hact => .inl (.inl hact)
    rw [hset]
    split_ifs with hsub
    · obtain ⟨rfl, rfl⟩ := hsub
      rw [Option.getD_some, ← Config.activeIn, ← h q, count_of_inactive hidle]
    · exact h q

theorem Config.Balanced.remove (h : cfg.Balanced d) (hg : cfg.searchMap k guid = some p)
    (hactive : d.isActiveObject k guid) (hempty : k = .pool → d.getActiveObjectCount guid = 0) :
    cfg.Balanced (d.removeObject k guid p) := by
  have hp := active_of_count (h.count_pos hg hactive)
  intro q
  unfold ActivePoolData.getActiveObjectCount Config.activeIn
  rw [spawnedPools_remove hg]
  by_cases hq : q = p
  · subst hq
    rw [if_pos rfl, Option.getD_some, h q, Config.activeIn]
    have hset : (cfg.contents q).filter (fun o =>
          (d.removeObject k guid q).isActiveObject o.1 o.2) =
        ((cfg.contents q).filter fun o => d.isActiveObject o.1 o.2).erase (k, guid) := by
      ext ⟨k', guid'⟩
      rw [Finset.mem_filter, Finset.mem_erase, Finset.mem_filter, mem_contents, isActive_remove,
        Ne, Prod.mk.injEq]
      constructor
      · rintro ⟨hmem, ⟨hact, hne⟩ | ⟨rfl, rfl⟩⟩
        · exact ⟨hne, hmem, hact⟩
        · exact absurd hmem not_self_mem
      · rintro ⟨hne, hmem, hact⟩
        exact ⟨hmem, .inl ⟨hact, hne⟩⟩
    rw [hset, Finset.card_erase_of_mem (Finset.mem_filter.2 ⟨mem_contents.2 hg, hactive⟩)]
  · rw [if_neg hq]
    have hset : (cfg.contents q).filter (fun o =>
          (d.removeObject k guid p).isActiveObject o.1 o.2) =
        (cfg.contents q).filter fun o => d.isActiveObject o.1 o.2 := by
      refine Finset.filter_congr fun o ho => ?_
      rw [mem_contents] at ho
      rw [isActive_remove]
      constructor
      · rintro (⟨hact, -⟩ | ⟨hk, hguid⟩)
        · exact hact
        · rw [hk, hguid]
          exact hp
      · refine fun hact => .inl ⟨hact, ?_⟩
        rintro ⟨hk, hguid⟩
        rw [hk, hguid] at ho
        exact hq (Option.some.inj (ho.symm.trans hg))
    rw [hset]
    split_ifs with hsub
    · obtain ⟨rfl, rfl⟩ := hsub
      rw [Option.getD_none, ← Config.activeIn, ← h q, hempty rfl]
    · exact h q

/-! ### Despawning -/

/-- What it is to despawn in the pools under `p`: nothing becomes active, and the other pools and
the entry of `p` stay. -/
structure Despawned (cfg : Config) (p : ℕ) (s s' : PoolMgr) : Prop where
  shrinks : ∀ k guid, s'.spawnedData.isActiveObject k guid → s.spawnedData.isActiveObject k guid
  outside : ∀ q, ¬ cfg.forest.Below q p →
    s'.spawnedData.spawnedPools q = s.spawnedData.spawnedPools q
  present : s.spawnedData.isActiveObject .pool p → s'.spawnedData.isActiveObject .pool p

theorem Despawned.refl (cfg : Config) (p : ℕ) (s : PoolMgr) : Despawned cfg p s s :=
  ⟨fun _ _ h => h, fun _ _ => rfl, id⟩

theorem Despawned.trans {s'' : PoolMgr} (h : Despawned cfg p s s') (h' : Despawned cfg p s' s'') :
    Despawned cfg p s s'' where
  shrinks := fun k guid hact => h.shrinks k guid (h'.shrinks k guid hact)
  outside := fun q hq => (h'.outside q hq).trans (h.outside q hq)
  present := fun hact => h'.present (h.present hact)

/-- A mother is not touched when a child despawns. -/
theorem Despawned.of_child {c : ℕ} (h : Despawned cfg c s s')
    (hc : cfg.searchMap .pool c = some p) : Despawned cfg p s s' where
  shrinks := h.shrinks
  outside := fun q hq => h.outside q fun hbelow => hq (hbelow.to_mother hc)
  present := by
    intro hact
    rw [isActive_pool, h.outside p (Forest.not_below_child hc)]
    exact hact

theorem Despawned.activeIn_le (h : Despawned cfg p s s') (q : ℕ) :
    cfg.activeIn s'.spawnedData q ≤ cfg.activeIn s.spawnedData q :=
  Finset.card_le_card (Finset.monotone_filter_right _ fun o _ => h.shrinks o.1 o.2)

/-- `RemoveObject` of an active object of the pool. -/
theorem despawned_remove (h : cfg.Balanced s.spawnedData) (hg : cfg.searchMap k guid = some p)
    (hactive : s.spawnedData.isActiveObject k guid) : Despawned cfg p s (s.remove k guid p) where
  shrinks := by
    intro k' guid' hact
    rcases isActive_remove.1 hact with ⟨hact, -⟩ | ⟨rfl, rfl⟩
    · exact hact
    · exact active_of_count (h.count_pos hg hactive)
  outside := by
    intro q hq
    have hp : q ≠ p := by
      rintro rfl
      exact hq (cfg.forest.below_refl q)
    have hsub : ¬ (k = .pool ∧ q = guid) := by
      rintro ⟨rfl, rfl⟩
      exact hq ((cfg.forest.below_refl q).to_mother hg)
    exact (spawnedPools_remove hg q).trans ((if_neg hp).trans (if_neg hsub))
  present := fun _ => isActive_remove.2 (.inr ⟨rfl, rfl⟩)

/-- What despawning a child pool is expected to do. -/
def DespawnsChildren (cfg : Config) (despawnChild : PoolMgr → ℕ → PoolMgr) (p : ℕ) : Prop :=
  ∀ s c, cfg.searchMap .pool c = some p → cfg.Balanced s.spawnedData →
    cfg.Balanced (despawnChild s c).spawnedData ∧ Despawned cfg c s (despawnChild s c) ∧
      (despawnChild s c).spawnedData.getActiveObjectCount c = 0

variable {despawnChild : PoolMgr → ℕ → PoolMgr}

theorem despawnOne_spec {obj : ℕ} (guid : ℕ) (hchild : DespawnsChildren cfg despawnChild p)
    (hobj : cfg.searchMap k obj = some p) (h : cfg.Balanced s.spawnedData) :
    cfg.Balanced (despawnOne despawnChild k p guid s obj).spawnedData ∧
      Despawned cfg p s (despawnOne despawnChild k p guid s obj) ∧
      ((guid = 0 ∨ obj = guid) →
        ¬ (despawnOne despawnChild k p guid s obj).spawnedData.isActiveObject k obj) := by
  have hself : ¬ (k = .pool ∧ obj = p) := by
    rintro ⟨rfl, rfl⟩
    exact not_self_mem hobj
  unfold despawnOne
  split_ifs with hsel hk
  · subst hk
    obtain ⟨hbal, hdes, hzero⟩ := hchild s obj hobj h
    have hact := hdes.present hsel.1
    refine ⟨hbal.remove hobj hact fun _ => hzero,
      (hdes.of_child hobj).trans (despawned_remove hbal hobj hact), fun _ hstill => ?_⟩
    rcases isActive_remove.1 hstill with ⟨-, hne⟩ | hp
    · exact hne ⟨rfl, rfl⟩
    · exact hself hp
  · refine ⟨h.remove hobj hsel.1 fun heq => absurd heq hk, despawned_remove h hobj hsel.1,
      fun _ hstill => ?_⟩
    rcases isActive_remove.1 hstill with ⟨-, hne⟩ | hp
    · exact hne ⟨rfl, rfl⟩
    · exact hself hp
  · exact ⟨h, Despawned.refl cfg p s, fun hall hstill => hsel ⟨hstill, hall⟩⟩

theorem despawnObject_spec (hchild : DespawnsChildren cfg despawnChild p)
    (h : cfg.Balanced s.spawnedData) (k : Kind) (guid : ℕ) :
    cfg.Balanced (despawnObject cfg despawnChild k p guid s).spawnedData ∧
      Despawned cfg p s (despawnObject cfg despawnChild k p guid s) ∧
      ∀ obj, cfg.searchMap k obj = some p → (guid = 0 ∨ obj = guid) →
        ¬ (despawnObject cfg despawnChild k p guid s).spawnedData.isActiveObject k obj := by
  have key : ∀ (l : List ℕ) (s : PoolMgr), (∀ obj ∈ l, cfg.searchMap k obj = some p) →
      cfg.Balanced s.spawnedData →
      cfg.Balanced (l.foldl (despawnOne despawnChild k p guid) s).spawnedData ∧
        Despawned cfg p s (l.foldl (despawnOne despawnChild k p guid) s) ∧
        ∀ obj ∈ l, (guid = 0 ∨ obj = guid) →
          ¬ (l.foldl (despawnOne despawnChild k p guid) s).spawnedData.isActiveObject k obj := by
    intro l
    induction l with
    | nil => exact fun s _ h => ⟨h, Despawned.refl cfg p s, fun obj hobj => by cases hobj⟩
    | cons x l ih =>
      intro s hl h
      obtain ⟨hbal, hdes, hgone⟩ := despawnOne_spec guid hchild
        (hl x List.mem_cons_self) h
      obtain ⟨hbal', hdes', hgone'⟩ := ih _ (fun y hy => hl y (List.mem_cons_of_mem x hy)) hbal
      refine ⟨hbal', hdes.trans hdes', fun obj hobj hsel => ?_⟩
      rcases List.mem_cons.1 hobj with rfl | hobj
      · exact fun hact => hgone hsel (hdes'.shrinks k obj hact)
      · exact hgone' obj hobj hsel
  obtain ⟨hbal, hdes, hgone⟩ := key (cfg.group k p).guids s (fun obj hobj => cfg.mem_guids.1 hobj) h
  exact ⟨hbal, hdes, fun obj hobj hsel => hgone obj (cfg.mem_guids.2 hobj) hsel⟩

/-- `DespawnPool` leaves no object of the pool active. -/
theorem despawnPoolDepth_spec {depth : ℕ} (hdepth : cfg.level p < depth)
    (h : cfg.Balanced s.spawnedData) :
    cfg.Balanced (despawnPoolDepth cfg depth s p).spawnedData ∧
      Despawned cfg p s (despawnPoolDepth cfg depth s p) ∧
      (despawnPoolDepth cfg depth s p).spawnedData.getActiveObjectCount p = 0 := by
  induction depth generalizing s p with
  | zero => omega
  | succ depth ih =>
    have hchild : DespawnsChildren cfg (despawnPoolDepth cfg depth) p := fun s c hc hs =>
      ih (lt_of_lt_of_le (cfg.level_lt hc) (Nat.lt_succ_iff.1 hdepth)) hs
    have key : ∀ (ks : List Kind) (s : PoolMgr), cfg.Balanced s.spawnedData →
        cfg.Balanced (ks.foldl (fun s k =>
          despawnObject cfg (despawnPoolDepth cfg depth) k p 0 s) s).spawnedData ∧
        Despawned cfg p s (ks.foldl (fun s k =>
          despawnObject cfg (despawnPoolDepth cfg depth) k p 0 s) s) ∧
        ∀ k ∈ ks, ∀ obj, cfg.searchMap k obj = some p →
          ¬ (ks.foldl (fun s k => despawnObject cfg (despawnPoolDepth cfg depth) k p 0 s)
            s).spawnedData.isActiveObject k obj := by
      intro ks
      induction ks with
      | nil => exact fun s h => ⟨h, Despawned.refl cfg p s, fun k hk => by cases hk⟩
      | cons k ks ihk =>
        intro s h
        obtain ⟨hbal, hdes, hgone⟩ := despawnObject_spec hchild h k 0
        obtain ⟨hbal', hdes', hgone'⟩ := ihk _ hbal
        refine ⟨hbal', hdes.trans hdes', fun k' hk' obj hobj => ?_⟩
        rcases List.mem_cons.1 hk' with rfl | hk'
        · exact fun hact => hgone obj hobj (.inl rfl) (hdes'.shrinks k' obj hact)
        · exact hgone' k' hk' obj hobj
    obtain ⟨hbal, hdes, hgone⟩ := key [.creature, .gameobject, .pool, .quest] s h
    refine ⟨hbal, hdes, (hbal p).trans ?_⟩
    refine Finset.card_eq_zero.2 (Finset.filter_eq_empty_iff.2 fun o ho => ?_)
    refine hgone o.1 ?_ o.2 (mem_contents.1 ho)
    cases o.1 <;> decide

theorem despawnPool_spec (h : cfg.Balanced s.spawnedData) (p : ℕ) :
    cfg.Balanced (despawnPool cfg s p).spawnedData ∧ Despawned cfg p s (despawnPool cfg s p) ∧
      (despawnPool cfg s p).spawnedData.getActiveObjectCount p = 0 :=
  despawnPoolDepth_spec (Nat.lt_succ_self _) h

theorem despawnsChildren_despawnPool (cfg : Config) (p : ℕ) :
    DespawnsChildren cfg (despawnPool cfg) p := fun _ c _ hs => despawnPool_spec hs c

/-- The number is less by the objects of the pool that are gone. -/
theorem Despawned.activeIn_add_le (h : Despawned cfg p s s') (gone : Finset ℕ)
    (hgone : ∀ g ∈ gone, cfg.searchMap k g = some p ∧ s.spawnedData.isActiveObject k g ∧
      ¬ s'.spawnedData.isActiveObject k g) :
    cfg.activeIn s'.spawnedData p + gone.card ≤ cfg.activeIn s.spawnedData p := by
  have hinj : Function.Injective fun g : ℕ => (k, g) := fun a b hab => (Prod.mk.inj hab).2
  rw [← Finset.card_image_of_injective gone hinj]
  unfold Config.activeIn
  rw [← Finset.card_union_of_disjoint]
  · refine Finset.card_le_card (Finset.union_subset
      (Finset.monotone_filter_right _ fun o _ => h.shrinks o.1 o.2) fun o ho => ?_)
    obtain ⟨g, hg, rfl⟩ := Finset.mem_image.1 ho
    exact Finset.mem_filter.2 ⟨mem_contents.2 (hgone g hg).1, (hgone g hg).2.1⟩
  · refine Finset.disjoint_left.2 fun o ho hmem => ?_
    obtain ⟨g, hg, rfl⟩ := Finset.mem_image.1 hmem
    exact (hgone g hg).2.2 (Finset.mem_filter.1 ho).2

theorem Despawned.activeIn_lt (h : Despawned cfg p s s') (hg : cfg.searchMap k guid = some p)
    (hactive : s.spawnedData.isActiveObject k guid)
    (hgone : ¬ s'.spawnedData.isActiveObject k guid) :
    cfg.activeIn s'.spawnedData p < cfg.activeIn s.spawnedData p := by
  have hle := h.activeIn_add_le {guid} fun g hmem => by
    rw [Finset.mem_singleton.1 hmem]
    exact ⟨hg, hactive, hgone⟩
  rw [Finset.card_singleton] at hle
  omega

theorem questSpawns_despawnObject
    (hchild : ∀ s c, (despawnChild s c).questSpawns = s.questSpawns) (k : Kind) (p guid : ℕ)
    (s : PoolMgr) : (despawnObject cfg despawnChild k p guid s).questSpawns = s.questSpawns := by
  unfold despawnObject
  induction (cfg.group k p).guids generalizing s with
  | nil => rfl
  | cons x l ih =>
    refine (ih _).trans ?_
    unfold despawnOne
    split_ifs
    · exact hchild s x
    · rfl
    · rfl

theorem questSpawns_despawnPoolDepth (depth : ℕ) (s : PoolMgr) (p : ℕ) :
    (despawnPoolDepth cfg depth s p).questSpawns = s.questSpawns := by
  induction depth generalizing s p with
  | zero => rfl
  | succ depth ih =>
    rw [despawnPoolDepth]
    induction [Kind.creature, .gameobject, .pool, .quest] generalizing s with
    | nil => rfl
    | cons k ks ihk => exact (ihk _).trans (questSpawns_despawnObject ih k p 0 s)

theorem questSpawns_despawnPool (s : PoolMgr) (p : ℕ) :
    (despawnPool cfg s p).questSpawns = s.questSpawns := questSpawns_despawnPoolDepth _ s p

end FaceCore.Pools
