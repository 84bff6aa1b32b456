import FaceCore.Pool.Spawning
import FaceCore.Lib.Runs

/-!
# The limits of the pools

When the counters of the pool manager are the numbers of the active objects of the pools, and not
above their limits.

* `Op.Legal`: calls that do not activate a pool behind the back of its mother;
* `Limited`: the counters are right and within the limits;
* `pool_limits_kept`: the result along runs.
-/

namespace FaceCore.Pools

variable {cfg : Config} {rnd : ℕ → Draw} {s s' : PoolMgr} {k : Kind} {guid p : ℕ}

/-! ### Runs -/

/-- The calls that the limits allow for: a pool is spawned that has no mother or is active in her,
and an object that triggers an update is active. -/
def Op.Legal (cfg : Config) (s : PoolMgr) : Op → Prop
  | .spawnPool p => cfg.Open s.spawnedData p
  | .updatePool k p guid => cfg.searchMap k guid = some p ∧ s.spawnedData.isActiveObject k guid
  | .despawnPool _ => True

/-- The counters of all pools are the numbers of their active objects, and within their limits. -/
def Config.Limited (cfg : Config) (s : PoolMgr) : Prop :=
  ∀ p, s.count p = cfg.activeIn s.spawnedData p ∧
    cfg.activeIn s.spawnedData p ≤ (cfg.maxLimit p).toNat

theorem Config.Limited.balanced (h : cfg.Limited s) : cfg.Balanced s.spawnedData :=
  fun p => (h p).1

theorem Config.Limited.within (h : cfg.Limited s) (p : ℕ) : cfg.Within p s :=
  fun q _ => (h q).1.trans_le (h q).2

theorem Config.Limited.of_fills (h : cfg.Limited s) (hfills : Fills cfg p s s') :
    cfg.Limited s' := by
  obtain ⟨hbal, hsp, hin⟩ := hfills
  intro q
  refine ⟨hbal q, (hbal q).symm.trans_le ?_⟩
  by_cases hq : cfg.forest.Below q p
  · exact hin q hq
  · rw [← PoolMgr.count, hsp.count_eq hq]
    exact (h q).1.trans_le (h q).2

theorem Config.Limited.despawnPool (h : cfg.Limited s) (p : ℕ) :
    cfg.Limited (despawnPool cfg s p) := by
  obtain ⟨hbal, hdes, -⟩ := despawnPool_spec h.balanced p
  exact fun q => ⟨hbal q, (hdes.activeIn_le q).trans (h q).2⟩

/-- An active object triggers its pool, or its pool triggers the mother. -/
theorem Config.Limited.updatePool (h : cfg.Limited s) (hg : cfg.searchMap k guid = some p)
    (hactive : s.spawnedData.isActiveObject k guid)
    (hfit : cfg.AllFit (updatePool cfg rnd k p guid s)) :
    cfg.Limited (updatePool cfg rnd k p guid s) := by
  have hp := active_of_count (h.balanced.count_pos hg hactive)
  unfold Pools.updatePool at hfit ⊢
  split_ifs at hfit ⊢ with hmother
  · have hm : cfg.searchMap .pool p = some (cfg.isPartOfAPool p) := by
      unfold Config.isPartOfAPool at hmother ⊢
      cases hmap : cfg.searchMap .pool p with
      | none => rw [hmap] at hmother; exact absurd rfl hmother
      | some m => rfl
    have hopen := active_of_count (h.balanced.count_pos hm hp)
    exact h.of_fills (spawnKind_spec (spawnsChildren_spawnPool cfg rnd _) h.balanced (.inl hopen)
      (h.within _) (fun _ => ⟨hm, hp⟩) hfit)
  · exact h.of_fills (spawnKind_spec (spawnsChildren_spawnPool cfg rnd _) h.balanced (.inl hp)
      (h.within _) (fun _ => ⟨hg, hactive⟩) hfit)

theorem Config.Limited.exec {op : Op} (h : cfg.Limited s) (hop : op.Legal cfg s)
    (hfit : cfg.AllFit (exec cfg rnd s op)) : cfg.Limited (exec cfg rnd s op) := by
  have h' : cfg.Limited { s with questSpawns := [] } := h
  cases op with
  | spawnPool p =>
    exact h'.of_fills ((spawnPoolDepth_spec _ (Nat.lt_succ_self _)).2 h'.balanced hop (h'.within p)
      hfit)
  | updatePool k p guid => exact h'.updatePool hop.1 hop.2 hfit
  | despawnPool p => exact h'.despawnPool p

theorem limited_initial (cfg : Config) (poolQuestSave : ℕ → List ℕ) :
    cfg.Limited (PoolMgr.initial poolQuestSave) := by
  intro p
  have hnone : cfg.activeIn (PoolMgr.initial poolQuestSave).spawnedData p = 0 := by
    refine Finset.card_eq_zero.2 (Finset.filter_eq_empty_iff.2 ?_)
    rintro ⟨k, guid⟩ -
    cases k <;> simp [PoolMgr.initial]
  rw [hnone]
  exact ⟨rfl, Nat.zero_le _⟩

/-- **Main result.** Along every run whose calls are legal, and in which every call of the function
for quests fits, the counters are the numbers of active objects and within the limits. -/
theorem pool_limits_kept (cfg : Config) (rnd : ℕ → Draw) (poolQuestSave : ℕ → List ℕ)
    (ops : List Op)
    (hops : Runs.EachStep (exec cfg rnd)
      (fun s op => op.Legal cfg s ∧ cfg.AllFit (exec cfg rnd s op))
      (PoolMgr.initial poolQuestSave) ops) :
    Runs.Along (exec cfg rnd) cfg.Limited (PoolMgr.initial poolQuestSave) ops :=
  Runs.along_of_inv hops (limited_initial cfg poolQuestSave) fun _ _ h hop => h.exec hop.1 hop.2

def exampleGroup (k : Kind) (p : ℕ) : PoolGroup :=
  if k = .creature ∧ p = 1 then ⟨[], [⟨10, 0⟩]⟩
  else if k = .quest ∧ p = 1 then ⟨[], [⟨100, 0⟩]⟩
  else if k = .creature ∧ p = 2 then ⟨[], [⟨20, 0⟩, ⟨21, 0⟩]⟩
  else if k = .quest ∧ p = 3 then ⟨[], [⟨200, 0⟩, ⟨201, 0⟩]⟩ else ⟨[], []⟩

def exampleSearchMap (k : Kind) (guid : ℕ) : Option ℕ :=
  if k = .creature ∧ guid = 10 then some 1
  else if k = .quest ∧ guid = 100 then some 1
  else if k = .creature ∧ (guid = 20 ∨ guid = 21) then some 2
  else if k = .quest ∧ (guid = 200 ∨ guid = 201) then some 3 else none

theorem mem_exampleGroup :
    guid ∈ (exampleGroup k p).guids ↔ exampleSearchMap k guid = some p := by
  unfold exampleGroup exampleSearchMap
  by_cases h1 : p = 1
  · cases k <;> simp [PoolGroup.guids, h1]
  · by_cases h2 : p = 2
    · cases k <;> simp [PoolGroup.guids, h2] <;> grind
    · by_cases h3 : p = 3 <;> cases k <;> simp [PoolGroup.guids, h1, h2, h3] <;> grind

theorem exampleSearchMap_pool (a : ℕ) : exampleSearchMap .pool a = none := by
  simp [exampleSearchMap]

/-- Pool 1 has a creature and a quest for one place, pool 2 two creatures, and pool 3 two quests. -/
def examplePools : Config where
  maxLimit := fun _ => 1
  group := exampleGroup
  searchMap := exampleSearchMap
  mem_guids := mem_exampleGroup
  level := fun _ => 0
  level_lt := by
    intro a b h
    rw [exampleSearchMap_pool] at h
    cases h

/-- The saved quest of the third pool, and the one that is drawn when it is done. -/
def savedQuest : ℕ → List ℕ := fun p => if p = 3 then [201] else []

/-- A creature of the second pool is killed, and the other one spawns for it. The third pool loads
its saved quest, and takes the other one later. -/
theorem pool_limits_kept_creatures :
    Runs.Along (exec examplePools fun n => ⟨0, n⟩) examplePools.Limited
      (PoolMgr.initial savedQuest) [.spawnPool 2, .updatePool .creature 2 20, .spawnPool 3,
        .updatePool .quest 3 201, .despawnPool 2] := by
  refine pool_limits_kept _ _ _ _ ?_
  refine Runs.eachStep_cons.2 ⟨⟨.inr rfl, ?_⟩, Runs.eachStep_cons.2 ⟨⟨⟨rfl, ?_⟩, ?_⟩,
    Runs.eachStep_cons.2 ⟨⟨.inr rfl, ?_⟩, Runs.eachStep_cons.2 ⟨⟨⟨rfl, ?_⟩, ?_⟩,
    Runs.eachStep_cons.2 ⟨⟨trivial, ?_⟩, Runs.EachStep.nil _⟩⟩⟩⟩⟩
  · exact fun e he => absurd he List.not_mem_nil
  · decide
  · exact fun e he => absurd he List.not_mem_nil
  · unfold Config.AllFit Config.Fits
    decide
  · decide
  · unfold Config.AllFit Config.Fits
    decide
  · exact fun e he => absurd he List.not_mem_nil

/-- The saved quest of the first pool is activated beside the creature, in one call. -/
theorem saved_quest_beside_creature :
    Runs.EachStep (exec examplePools fun n => ⟨0, n⟩) (fun s op => op.Legal examplePools s)
      (PoolMgr.initial fun _ => [100]) [.spawnPool 1] ∧
      ¬ Runs.Along (exec examplePools fun n => ⟨0, n⟩) examplePools.Limited
        (PoolMgr.initial fun _ => [100]) [.spawnPool 1] := by
  refine ⟨Runs.eachStep_cons.2 ⟨.inr rfl, Runs.EachStep.nil _⟩, fun h => ?_⟩
  have hlimited := (h [.spawnPool 1] (List.prefix_refl _)) 1
  have hle := hlimited.1.trans_le hlimited.2
  revert hle
  decide

end FaceCore.Pools
