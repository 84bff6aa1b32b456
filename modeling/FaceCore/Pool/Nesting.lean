import FaceCore.Pool.Spawning
import FaceCore.Pool.MotherPools
import FaceCore.Lib.Recursion

/-!
# The nesting of pools

`SpawnPool` and `DespawnPool` call themselves for the pools in a pool. Over the groups that were
loaded they are written with a depth of recursion and without an answer when it runs out.

* `spawnNested`, `despawnNested`: the functions; what they do with creatures, gameobjects and quests
  does not call them, and is any function;
* `NestsWell`: no pool is under itself, and both functions answer for every pool;
* `nestsWell_of_acyclic`: the second part follows from the first;
* `nestsWell_loadPools_iff`: when the check for circular references is enough;
* `nestsWell_of_one_mother`: it is for a table that gives every pool one mother, once.
-/

namespace FaceCore.Pools

/-- What `SpawnPool` and `DespawnPool` do with the objects of a pool that are not pools. -/
structure OtherKinds where
  spawn : PoolMgr → ℕ → PoolMgr
  despawnCreaturesAndGameobjects : PoolMgr → ℕ → PoolMgr
  despawnQuests : PoolMgr → ℕ → PoolMgr

section Recursion

variable (groups : ℕ → PoolGroup) (maxLimit : ℕ → UInt32) (others : OtherKinds) (rnd : ℕ → Draw)

/-- The part of `PoolGroup<Pool>::DespawnObject` for one pool of the group. -/
def despawnSubpool (despawnChild : PoolMgr → ℕ → Option PoolMgr) (p guid : ℕ) (s : PoolMgr)
    (child : ℕ) : Option PoolMgr :=
  if s.spawnedData.isActiveObject .pool child ∧ (guid = 0 ∨ child = guid) then
    (despawnChild s child).map fun s => s.remove .pool child p
  else some s

/-- `PoolGroup<Pool>::DespawnObject`. -/
def despawnSubpools (despawnChild : PoolMgr → ℕ → Option PoolMgr) (p guid : ℕ) (s : PoolMgr) :
    Option PoolMgr :=
  (groups p).guids.foldlM (despawnSubpool despawnChild p guid) s

/-- `PoolMgr::DespawnPool`. -/
def despawnNested : ℕ → PoolMgr → ℕ → Option PoolMgr
  | 0, _, _ => none
  | depth + 1, s, p =>
    (despawnSubpools groups (despawnNested depth) p 0 (others.despawnCreaturesAndGameobjects s p)).map
      fun s => others.despawnQuests s p

/-- The loop of `PoolGroup<Pool>::SpawnObject`, `count` times. -/
def spawnSubpoolsLoop (spawnChild despawnChild : PoolMgr → ℕ → Option PoolMgr) (p : ℕ) :
    ℕ → ℕ → ℕ → PoolMgr → Option PoolMgr
  | 0, _, _, s => some s
  | count + 1, triggerFrom, lastDespawned, s =>
    let rolled := (groups p).rollOne (s.spawnedData.isActiveObject .pool) triggerFrom (rnd s.draws)
    let s := { s with draws := s.draws + 1 }
    match rolled with
    | none => spawnSubpoolsLoop spawnChild despawnChild p count triggerFrom lastDespawned s
    | some obj =>
      if obj.guid = lastDespawned then
        spawnSubpoolsLoop spawnChild despawnChild p count triggerFrom lastDespawned s
      else if obj.guid = triggerFrom then
        spawnSubpoolsLoop spawnChild despawnChild p count 0 lastDespawned s
      else
        (spawnChild (s.activate .pool obj.guid p) obj.guid).bind fun s =>
          if triggerFrom ≠ 0 then
            (despawnSubpools groups despawnChild p triggerFrom s).bind fun s =>
              spawnSubpoolsLoop spawnChild despawnChild p count 0 triggerFrom s
          else spawnSubpoolsLoop spawnChild despawnChild p count 0 lastDespawned s

/-- `PoolMgr::SpawnPool<Pool>`. -/
def spawnSubpools (spawnChild despawnChild : PoolMgr → ℕ → Option PoolMgr) (p triggerFrom : ℕ)
    (s : PoolMgr) : Option PoolMgr :=
  if (groups p).isEmpty then some s
  else spawnSubpoolsLoop groups rnd spawnChild despawnChild p
    (spawnCount (maxLimit p) (s.spawnedData.getActiveObjectCount p) triggerFrom) triggerFrom 0 s

/-- `PoolMgr::SpawnPool`. -/
def spawnNested : ℕ → PoolMgr → ℕ → Option PoolMgr
  | 0, _, _ => none
  | depth + 1, s, p =>
    (spawnSubpools groups maxLimit rnd (spawnNested depth) (despawnNested groups others depth) p 0 s).map
      fun s => others.spawn s p

end Recursion

/-- No pool is under itself, and to spawn and to despawn a pool comes to an end. -/
structure NestsWell (l : PoolsOfPools) : Prop where
  acyclic : ∀ p, ¬ Relation.TransGen l.Contains p p
  spawns : ∀ maxLimit others rnd s p,
    ∃ depth, (spawnNested l.groups maxLimit others rnd depth s p).isSome
  despawns : ∀ others s p, ∃ depth, (despawnNested l.groups others depth s p).isSome

variable {groups : ℕ → PoolGroup} {maxLimit : ℕ → UInt32} {others : OtherKinds} {rnd : ℕ → Draw}
  {spawnChild despawnChild : PoolMgr → ℕ → Option PoolMgr} {p : ℕ}

/-! ### Along ranks -/

theorem isSome_foldlM {σ ι : Type*} {f : σ → ι → Option σ} {is : List ι}
    (h : ∀ s, ∀ i ∈ is, (f s i).isSome) (s : σ) : (is.foldlM f s).isSome := by
  induction is generalizing s with
  | nil => rfl
  | cons i is ih =>
    obtain ⟨s', hs'⟩ := Option.isSome_iff_exists.1 (h s i List.mem_cons_self)
    rw [List.foldlM_cons, hs']
    exact ih (fun s j hj => h s j (List.mem_cons_of_mem i hj)) s'

theorem isSome_despawnSubpools (h : ∀ s, ∀ c ∈ (groups p).guids, (despawnChild s c).isSome)
    (guid : ℕ) (s : PoolMgr) : (despawnSubpools groups despawnChild p guid s).isSome := by
  refine isSome_foldlM (fun s c hc => ?_) s
  unfold despawnSubpool
  split_ifs
  · rw [Option.isSome_map]
    exact h s c hc
  · rfl

theorem isSome_spawnSubpoolsLoop (hspawn : ∀ s, ∀ c ∈ (groups p).guids, (spawnChild s c).isSome)
    (hdespawn : ∀ s, ∀ c ∈ (groups p).guids, (despawnChild s c).isSome)
    (count triggerFrom lastDespawned : ℕ) (s : PoolMgr) :
    (spawnSubpoolsLoop groups rnd spawnChild despawnChild p count triggerFrom lastDespawned
      s).isSome := by
  induction count generalizing triggerFrom lastDespawned s with
  | zero => rfl
  | succ count ih =>
    rw [spawnSubpoolsLoop]
    split
    next => exact ih _ _ _
    next obj hroll =>
      split_ifs
      · exact ih _ _ _
      · exact ih _ _ _
      all_goals
        obtain ⟨s', hs'⟩ := Option.isSome_iff_exists.1
          (hspawn (PoolMgr.activate { s with draws := s.draws + 1 } .pool obj.guid p) obj.guid
            (rollOne_spec hroll).1)
        rw [hs', Option.bind_some]
      · obtain ⟨s'', hs''⟩ := Option.isSome_iff_exists.1
          (isSome_despawnSubpools hdespawn triggerFrom s')
        rw [hs'', Option.bind_some]
        exact ih _ _ _
      · exact ih _ _ _

section Ranked

variable {rank : ℕ → ℕ} (hrank : ∀ p, ∀ c ∈ (groups p).guids, rank c < rank p)

include hrank

/-- When every pool in a pool has a smaller rank, a depth over the rank is enough to despawn. -/
theorem isSome_despawnNested {depth : ℕ} (h : rank p < depth) (s : PoolMgr) :
    (despawnNested groups others depth s p).isSome := by
  induction depth generalizing p s with
  | zero => exact absurd h (Nat.not_lt_zero _)
  | succ depth ih =>
    rw [despawnNested, Option.isSome_map]
    refine isSome_despawnSubpools (fun s c hc => ih ?_ s) 0 _
    have hlt := hrank p c hc
    omega

/-- And it is enough to spawn. -/
theorem isSome_spawnNested {depth : ℕ} (h : rank p < depth) (s : PoolMgr) :
    (spawnNested groups maxLimit others rnd depth s p).isSome := by
  induction depth generalizing p s with
  | zero => exact absurd h (Nat.not_lt_zero _)
  | succ depth ih =>
    have hlt : ∀ c ∈ (groups p).guids, rank c < depth := by
      intro c hc
      have hlt := hrank p c hc
      omega
    rw [spawnNested, Option.isSome_map]
    unfold spawnSubpools
    split_ifs
    · rfl
    · exact isSome_spawnSubpoolsLoop (fun s c hc => ih (hlt c hc) s)
        (fun s c hc => isSome_despawnNested hrank (hlt c hc) s) _ _ _ s

end Ranked

/-- Groups that reach finitely many pools and have no cycle nest well. -/
theorem nestsWell_of_acyclic {l : PoolsOfPools} (bound : ℕ)
    (hbound : ∀ mother child, l.Contains mother child → child ≤ bound)
    (h : ∀ p, ¬ Relation.TransGen l.Contains p p) : NestsWell l := by
  have hfin : (Set.Iic bound).Finite := Set.finite_Iic bound
  obtain ⟨rank, hrank⟩ := Recursion.exists_rank hfin hbound h
  exact ⟨h, fun _ _ _ s p => ⟨rank p + 1, isSome_spawnNested hrank (Nat.lt_succ_self _) s⟩,
    fun _ s p => ⟨rank p + 1, isSome_despawnNested hrank (Nat.lt_succ_self _) s⟩⟩

/-! ### The table -/

/-- Every ring of the links of the table has a link that the check takes out. -/
def RingsBroken (maxPoolId : ℕ) (maxLimit : ℕ → UInt32) (rows : List PoolRow) : Prop :=
  ∀ p, ¬ Relation.TransGen (fun mother child => Linked maxPoolId rows mother child ∧
    ¬ TakenOut maxPoolId maxLimit rows mother child) p p

variable {maxPoolId : ℕ} {rows : List PoolRow} {mother child : ℕ}

theorem Linked.child_le (h : Linked maxPoolId rows mother child) : child ≤ maxPoolId := by
  obtain ⟨r, -, hr, -, rfl⟩ := h
  exact hr.2.1

theorem nestsWell_of_ringsBroken (h : RingsBroken maxPoolId maxLimit rows) :
    NestsWell (PoolsOfPools.loadPools maxPoolId maxLimit rows) := by
  refine nestsWell_of_acyclic maxPoolId (fun m c hmc => (contains_iff.1 hmc).1.child_le) ?_
  intro p hp
  exact h p (hp.lift id fun m c hmc => contains_iff.1 hmc)

/-- The pools nest well exactly if every ring of links of the table is broken by the check. -/
theorem nestsWell_loadPools_iff (maxPoolId : ℕ) (maxLimit : ℕ → UInt32) (rows : List PoolRow) :
    NestsWell (PoolsOfPools.loadPools maxPoolId maxLimit rows) ↔
      RingsBroken maxPoolId maxLimit rows := by
  refine ⟨fun h p hp => ?_, nestsWell_of_ringsBroken⟩
  exact h.acyclic p (hp.lift id fun m c hmc => contains_iff.2 hmc)

/-- Pool 2 is in pool 1, and pool 1 in the pools 3 and 2. -/
def twoMothers : List PoolRow := [⟨2, 1, 0⟩, ⟨1, 3, 0⟩, ⟨1, 2, 0⟩]

theorem twoMothers_not_nestsWell :
    ¬ NestsWell (PoolsOfPools.loadPools 3 (fun _ => 1) twoMothers) := by
  intro h
  have h12 : (PoolsOfPools.loadPools 3 (fun _ => 1) twoMothers).Contains 1 2 := by
    unfold PoolsOfPools.Contains
    decide
  have h21 : (PoolsOfPools.loadPools 3 (fun _ => 1) twoMothers).Contains 2 1 := by
    unfold PoolsOfPools.Contains
    decide
  exact h.acyclic 1 (.head h12 (.single h21))

/-! ### One mother for every pool -/

/-- No pool is in two rows that are not skipped. -/
def OneMother (maxPoolId : ℕ) (rows : List PoolRow) : Prop :=
  rows.Pairwise fun r r' => r.Accepted maxPoolId → r'.Accepted maxPoolId →
    r.childPoolId ≠ r'.childPoolId

theorem OneMother.firstMother_eq (h : OneMother maxPoolId rows)
    (hlink : Linked maxPoolId rows mother child) :
    firstMother maxPoolId rows child = some mother := by
  obtain ⟨r, hr, hacc, rfl, rfl⟩ := hlink
  have hsome : (rows.find? fun r' => r'.Accepted maxPoolId ∧ r'.childPoolId = r.childPoolId).isSome :=
    List.find?_isSome.2 ⟨r, hr, by simp [hacc]⟩
  obtain ⟨r', hfind⟩ := Option.isSome_iff_exists.1 hsome
  have hspec := List.find?_some hfind
  rw [decide_eq_true_eq] at hspec
  obtain rfl : r' = r := by
    by_contra hne
    have : Std.Symm fun r r' : PoolRow => r.Accepted maxPoolId → r'.Accepted maxPoolId →
        r.childPoolId ≠ r'.childPoolId := ⟨fun _ _ hrr ha hb => (hrr hb ha).symm⟩
    exact List.Pairwise.forall h (List.mem_of_find?_eq_some hfind) hr hne hspec.1 hacc hspec.2
  rw [firstMother, hfind, Option.map_some]

theorem OneMother.listed_le (h : OneMother maxPoolId rows) (explicit : Bool) :
    listed maxPoolId maxLimit rows mother child explicit ≤ 1 := by
  unfold listed
  rw [List.countP_eq_length_filter]
  generalize hl : rows.filter _ = l
  match l with
  | [] | [_] => simp
  | r :: r' :: l =>
    have hmem : ∀ x ∈ r :: r' :: l, x.Accepted maxPoolId ∧ x.childPoolId = child := by
      intro x hx
      rw [← hl, List.mem_filter, decide_eq_true_eq] at hx
      exact ⟨hx.2.1, hx.2.2.2.1⟩
    have hpair : (r :: r' :: l).Pairwise _ := hl ▸ List.Pairwise.filter _ h
    obtain ⟨hr, hrc⟩ := hmem r (by simp)
    obtain ⟨hr', hrc'⟩ := hmem r' (by simp)
    exact absurd (hrc.trans hrc'.symm) ((List.pairwise_cons.1 hpair).1 r' (by simp) hr hr')

/-- A ring of first mothers has a pool from which the check starts. -/
theorem exists_start {p : ℕ} (h : Rings.OnRing (firstMother maxPoolId rows) p) :
    ∃ j ∈ List.range maxPoolId, Rings.Leads (firstMother maxPoolId rows) j p := by
  obtain ⟨m, hpm, hmp⟩ := h.exists_next
  obtain ⟨r, -, hr, rfl, rfl⟩ := firstMother_eq_some hpm
  obtain ⟨hmother, hchild, hne, -⟩ := hr
  rcases Nat.lt_or_ge r.childPoolId maxPoolId with hlt | hge
  · exact ⟨_, List.mem_range.2 hlt, .refl⟩
  · exact ⟨_, List.mem_range.2 (by omega), hmp⟩

/-- The check is enough for a table that gives every pool one mother, once. -/
theorem nestsWell_of_one_mother (h : OneMother maxPoolId rows) :
    NestsWell (PoolsOfPools.loadPools maxPoolId maxLimit rows) := by
  classical
  refine nestsWell_of_ringsBroken fun p hp => ?_
  let next := firstMother maxPoolId rows
  let K : ℕ → Prop := fun c => ∃ m, TakenOut maxPoolId maxLimit rows m c
  let g : ℕ → Option ℕ := fun c => if K c then none else next c
  have hcut : Rings.Cut next K g := ⟨fun _ hc => if_pos hc, fun _ hc => if_neg hc⟩
  have hring : Rings.OnRing g p := by
    refine Relation.transGen_swap.1 (hp.lift id fun m c hmc => ?_)
    have hnext : next c = some m := h.firstMother_eq hmc.1
    have hK : ¬ K c := by
      rintro ⟨m', hout⟩
      obtain rfl : m' = m := Option.some.inj (hout.1.1.symm.trans hnext)
      exact hmc.2 hout
    exact (hcut.kept c hK).trans hnext
  have hfirst : Rings.OnRing next p := hring.lift id fun _ _ hab => hcut.mono hab
  obtain ⟨c, hc, hpc⟩ := Rings.exists_chosen (fun _ _ => mem_range_of_firstMother) hfirst
    (exists_start hfirst)
  obtain ⟨m, hcm, -⟩ := (hfirst.of_leads hpc).exists_next
  exact hcut.onRing hring hpc ⟨m, ⟨hcm, hc⟩, fun explicit => h.listed_le explicit⟩

theorem nestsWell_three_pools :
    NestsWell (PoolsOfPools.loadPools 4 (fun _ => 1) [⟨2, 1, 0⟩, ⟨3, 2, 0⟩, ⟨1, 3, 0⟩]) :=
  nestsWell_of_one_mother (by unfold OneMother; decide)

/-! ### A configuration whose pools have levels -/

/-- The objects of a pool that are not pools, with the functions for them. -/
def Config.otherKinds (cfg : Config) (rnd : ℕ → Draw) : OtherKinds where
  spawn := fun s p => [Kind.gameobject, .creature, .quest].foldl
    (fun s k => spawnKind cfg rnd (fun s _ => s) k p 0 s) s
  despawnCreaturesAndGameobjects := fun s p => [Kind.creature, .gameobject].foldl
    (fun s k => despawnObject cfg (fun s _ => s) k p 0 s) s
  despawnQuests := fun s p => despawnObject cfg (fun s _ => s) .quest p 0 s

variable {cfg : Config}

theorem level_lt_of_mem {c : ℕ} (hc : c ∈ (cfg.group .pool p).guids) : cfg.level c < cfg.level p :=
  cfg.level_lt (cfg.mem_guids.1 hc)

theorem foldlM_eq_some {σ ι : Type*} {f : σ → ι → Option σ} {g : σ → ι → σ} {is : List ι}
    (h : ∀ s, ∀ i ∈ is, f s i = some (g s i)) (s : σ) : is.foldlM f s = some (is.foldl g s) := by
  induction is generalizing s with
  | nil => rfl
  | cons i is ih =>
    rw [List.foldlM_cons, h s i List.mem_cons_self]
    exact ih (fun s j hj => h s j (List.mem_cons_of_mem i hj)) (g s i)

theorem despawnObject_congr {k : Kind} (hk : k ≠ .pool) (f g : PoolMgr → ℕ → PoolMgr) (guid : ℕ)
    (s : PoolMgr) : despawnObject cfg f k p guid s = despawnObject cfg g k p guid s := by
  have hone : despawnOne f k p guid = despawnOne g k p guid := by
    funext s obj
    unfold despawnOne
    rw [if_neg hk, if_neg hk]
  unfold despawnObject
  rw [hone]

theorem spawnLoop_congr {k : Kind} (hk : k ≠ .pool) (f g : PoolMgr → ℕ → PoolMgr)
    (count triggerFrom lastDespawned : ℕ) (s : PoolMgr) :
    spawnLoop cfg rnd f k p count triggerFrom lastDespawned s =
      spawnLoop cfg rnd g k p count triggerFrom lastDespawned s := by
  induction count generalizing triggerFrom lastDespawned s with
  | zero => rfl
  | succ count ih => simp only [spawnLoop, if_neg hk, ih]

theorem spawnKind_congr {k : Kind} (hk : k ≠ .pool) (f g : PoolMgr → ℕ → PoolMgr) (guid : ℕ)
    (s : PoolMgr) : spawnKind cfg rnd f k p guid s = spawnKind cfg rnd g k p guid s := by
  unfold spawnKind spawnObject
  rw [spawnLoop_congr hk f g]

theorem despawnSubpools_eq {f : PoolMgr → ℕ → PoolMgr}
    (h : ∀ s, ∀ c ∈ (cfg.group .pool p).guids, despawnChild s c = some (f s c)) (guid : ℕ)
    (s : PoolMgr) : despawnSubpools (cfg.group .pool) despawnChild p guid s =
      some (despawnObject cfg f .pool p guid s) := by
  refine foldlM_eq_some (fun s c hc => ?_) s
  unfold despawnSubpool despawnOne
  rw [h s c hc, if_pos rfl, Option.map_some]
  split_ifs <;> rfl

/-- Over a configuration `DespawnPool` answers what the function of its levels gives. -/
theorem despawnNested_eq {depth : ℕ} (h : cfg.level p < depth) (s : PoolMgr) :
    despawnNested (cfg.group .pool) (cfg.otherKinds rnd) depth s p =
      some (despawnPoolDepth cfg depth s p) := by
  induction depth generalizing p s with
  | zero => exact absurd h (Nat.not_lt_zero _)
  | succ depth ih =>
    have hchild : ∀ s, ∀ c ∈ (cfg.group .pool p).guids,
        despawnNested (cfg.group .pool) (cfg.otherKinds rnd) depth s c =
          some (despawnPoolDepth cfg depth s c) := by
      intro s c hc
      have hlt := level_lt_of_mem hc
      exact ih (by omega) s
    rw [despawnNested, despawnSubpools_eq hchild, Option.map_some]
    simp only [despawnPoolDepth, Config.otherKinds, List.foldl_cons, List.foldl_nil]
    have hother : ∀ k, k ≠ Kind.pool → ∀ s, despawnObject cfg (fun s _ => s) k p 0 s =
        despawnObject cfg (despawnPoolDepth cfg depth) k p 0 s :=
      fun k hk s => despawnObject_congr hk _ _ 0 s
    rw [hother .creature (by decide), hother .gameobject (by decide), hother .quest (by decide)]

/-- Without a triggering object the loops agree. -/
theorem spawnSubpoolsLoop_eq {f : PoolMgr → ℕ → PoolMgr}
    (h : ∀ s, ∀ c ∈ (cfg.group .pool p).guids, spawnChild s c = some (f s c))
    (count lastDespawned : ℕ) (s : PoolMgr) :
    spawnSubpoolsLoop (cfg.group .pool) rnd spawnChild despawnChild p count 0 lastDespawned s =
      some (spawnLoop cfg rnd f .pool p count 0 lastDespawned s) := by
  induction count generalizing lastDespawned s with
  | zero => rfl
  | succ count ih =>
    rw [spawnSubpoolsLoop, spawnLoop]
    cases hroll : (cfg.group .pool p).rollOne (s.spawnedData.isActiveObject .pool) 0
      (rnd s.draws) with
    | none => exact ih _ _
    | some obj =>
      have hobj := fun s => h s obj.guid (rollOne_spec hroll).1
      simp only [hobj, Option.bind_some, ne_eq, not_true_eq_false, if_false, if_true, ih]
      split_ifs <;> rfl

/-- And so does `SpawnPool`. -/
theorem spawnNested_eq {depth : ℕ} (h : cfg.level p < depth) (s : PoolMgr) :
    spawnNested (cfg.group .pool) cfg.maxLimit (cfg.otherKinds rnd) rnd depth s p =
      some (spawnPoolDepth cfg rnd depth s p) := by
  induction depth generalizing p s with
  | zero => exact absurd h (Nat.not_lt_zero _)
  | succ depth ih =>
    have hchild : ∀ s, ∀ c ∈ (cfg.group .pool p).guids,
        spawnNested (cfg.group .pool) cfg.maxLimit (cfg.otherKinds rnd) rnd depth s c =
          some (spawnPoolDepth cfg rnd depth s c) := by
      intro s c hc
      have hlt := level_lt_of_mem hc
      exact ih (by omega) s
    have hpools : spawnSubpools (cfg.group .pool) cfg.maxLimit rnd
        (spawnNested (cfg.group .pool) cfg.maxLimit (cfg.otherKinds rnd) rnd depth)
        (despawnNested (cfg.group .pool) (cfg.otherKinds rnd) depth) p 0 s =
          some (spawnKind cfg rnd (spawnPoolDepth cfg rnd depth) .pool p 0 s) := by
      unfold spawnSubpools spawnKind spawnObject
      rw [spawnSubpoolsLoop_eq hchild, if_neg (c := Kind.pool = .quest) (by decide)]
      split_ifs <;> rfl
    rw [spawnNested, hpools, Option.map_some]
    simp only [spawnPoolDepth, Config.otherKinds, List.foldl_cons, List.foldl_nil]
    have hother : ∀ k, k ≠ Kind.pool → ∀ s, spawnKind cfg rnd (fun s _ => s) k p 0 s =
        spawnKind cfg rnd (spawnPoolDepth cfg rnd depth) k p 0 s :=
      fun k hk s => spawnKind_congr hk _ _ 0 s
    rw [hother .gameobject (by decide), hother .creature (by decide), hother .quest (by decide)]

end FaceCore.Pools
