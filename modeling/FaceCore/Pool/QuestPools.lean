import FaceCore.Pool.Spawning

/-!
# The quests that a pool activates

`PoolGroup<Quest>::SpawnObject` takes the saved quests of a pool, or clears the pool and draws new
ones: first from its quests that were not active, and for want of them from the active ones.

* `activatedQuests`: the quests that a call activates, one after the other;
* `spawnedData_spawnQuests`: the call is the clearing and these activations;
* `QuestsRight`: what a call should do;
* `questsRight_iff`: when it does, whatever the random numbers are.
-/

namespace FaceCore.Pools

/-- `LoadFromDB` gives no quest a chance of its own. -/
structure QuestConfig extends Config where
  equal : ∀ p, (group .quest p).explicitlyChanced = []

namespace QuestConfig

/-- The quests of a pool. -/
def quests (cfg : QuestConfig) (p : ℕ) : Finset ℕ := (cfg.group .quest p).guids.toFinset

theorem mem_quests {cfg : QuestConfig} {p guid : ℕ} :
    guid ∈ cfg.quests p ↔ cfg.searchMap .quest guid = some p := by
  rw [quests, List.mem_toFinset, cfg.mem_guids]

theorem idleQuests_eq (cfg : QuestConfig) (p : ℕ) (active : Finset ℕ) :
    cfg.idleQuests p active = cfg.quests p \ active := by
  unfold Config.idleQuests quests PoolGroup.guids
  rw [cfg.equal p, List.append_nil]

end QuestConfig

/-- A call that takes what is saved: no object triggered it, and there are rows. -/
def PoolMgr.Saved (s : PoolMgr) (p triggerFrom : ℕ) : Prop :=
  triggerFrom = 0 ∧ s.poolQuestSave p ≠ []

instance (s : PoolMgr) (p triggerFrom : ℕ) : Decidable (s.Saved p triggerFrom) :=
  inferInstanceAs (Decidable (_ ∧ _))

/-- The quests that the last loop of `SpawnObject` draws. -/
def picks (rnd : ℕ → Draw) : ℕ → Finset ℕ → UInt32 → ℕ → List ℕ
  | 0, _, _, _ => []
  | fuel + 1, newQuests, limit, draws =>
    let questId := selectRandom newQuests (rnd draws)
    let newQuests := newQuests.erase questId
    let limit := limit - 1
    questId :: if limit ≠ 0 ∧ newQuests.Nonempty then picks rnd fuel newQuests limit (draws + 1)
      else []

/-- The quests that a call of `PoolGroup<Quest>::SpawnObject` activates. -/
def activatedQuests (cfg : Config) (rnd : ℕ → Draw) (p : ℕ) (limit : UInt32) (triggerFrom : ℕ)
    (s : PoolMgr) : List ℕ :=
  if s.Saved p triggerFrom then taken limit (s.poolQuestSave p)
  else
    let selected := selectQuests cfg rnd p limit (s.record p triggerFrom)
    if selected.1 = ∅ then []
    else picks rnd selected.1.card selected.1 limit selected.2.draws

/-- Activate quests of a pool one after the other. -/
def ActivePoolData.activateAll (d : ActivePoolData) (p : ℕ) (quests : List ℕ) : ActivePoolData :=
  quests.foldl (fun d questId => d.activateObject .quest questId p) d

variable {cfg : Config} {rnd : ℕ → Draw} {s : PoolMgr} {p triggerFrom : ℕ} {limit : UInt32}

/-! ### The activations of a call -/

theorem spawnedData_loadQuests {rows : List ℕ} (hne : rows ≠ []) :
    (loadQuests p rows limit s).spawnedData = s.spawnedData.activateAll p (taken limit rows) := by
  induction rows generalizing limit s with
  | nil => exact absurd rfl hne
  | cons q rows ih =>
    have hcons : taken limit (q :: rows) = q :: rows.take (limit - 1).toNat := rfl
    rw [loadQuests, hcons]
    split_ifs with hlimit
    · rw [hlimit]
      rfl
    · cases rows with
      | nil =>
        rw [List.take_nil]
        rfl
      | cons q' rows =>
        have htaken : taken (limit - 1) (q' :: rows) = (q' :: rows).take (limit - 1).toNat := by
          rw [taken, FixedWidth.toNat_sub_one hlimit]
        rw [← htaken]
        exact ih (List.cons_ne_nil _ _)

theorem spawnedData_activateQuests (fuel : ℕ) (newQuests : Finset ℕ) :
    (activateQuests rnd p fuel newQuests limit s).spawnedData =
      s.spawnedData.activateAll p (picks rnd fuel newQuests limit s.draws) := by
  induction fuel generalizing newQuests limit s with
  | zero => rfl
  | succ fuel ih =>
    rw [activateQuests, picks]
    split_ifs
    · rw [ih]
      rfl
    · rfl

/-- A call clears the pool, unless it takes what is saved, and activates quests. -/
theorem spawnedData_spawnQuests : (spawnQuests cfg rnd p limit triggerFrom s).spawnedData =
    ActivePoolData.activateAll
      (if s.Saved p triggerFrom then s.spawnedData
        else (despawnObject cfg (despawnPool cfg) .quest p 0 (s.record p triggerFrom)).spawnedData)
      p (activatedQuests cfg rnd p limit triggerFrom s) := by
  unfold spawnQuests activatedQuests
  dsimp only
  by_cases hsaved : s.Saved p triggerFrom
  · have hload : triggerFrom = 0 ∧ (s.record p triggerFrom).poolQuestSave p ≠ [] := hsaved
    rw [if_pos hload, if_pos hsaved, if_pos hsaved]
    exact spawnedData_loadQuests hsaved.2
  · have hload : ¬(triggerFrom = 0 ∧ (s.record p triggerFrom).poolQuestSave p ≠ []) := hsaved
    rw [if_neg hload, if_neg hsaved, if_neg hsaved]
    have hclear := (@selectQuests_spec cfg rnd p limit (s.record p triggerFrom)).1
    generalize selectQuests cfg rnd p limit (s.record p triggerFrom) = selected at hclear ⊢
    rw [← hclear]
    split_ifs
    · rfl
    · exact spawnedData_activateQuests _ _
    · exact spawnedData_activateQuests _ _

theorem mem_activateAll {quests : List ℕ} {d : ActivePoolData} {q : ℕ} :
    q ∈ (d.activateAll p quests).activeQuests ↔ q ∈ d.activeQuests ∨ q ∈ quests := by
  unfold ActivePoolData.activateAll
  induction quests generalizing d with
  | nil => simp
  | cons q' quests ih =>
    have hone : q ∈ (d.activateObject .quest q' p).activeQuests ↔ q = q' ∨ q ∈ d.activeQuests :=
      Finset.mem_insert
    rw [List.foldl_cons, ih, hone, List.mem_cons]
    tauto

theorem mem_despawnObject {q : ℕ} :
    q ∈ (despawnObject cfg (despawnPool cfg) .quest p 0 s).spawnedData.activeQuests ↔
      q ∈ s.spawnedData.activeQuests ∧ cfg.searchMap .quest q ≠ some p := by
  have key : ∀ (l : List ℕ) (s : PoolMgr),
      q ∈ (l.foldl (despawnOne (despawnPool cfg) .quest p 0) s).spawnedData.activeQuests ↔
        q ∈ s.spawnedData.activeQuests ∧ q ∉ l := by
    intro l
    induction l with
    | nil => simp
    | cons q' l ih =>
      intro s
      have hone : q ∈ (despawnOne (despawnPool cfg) .quest p 0 s q').spawnedData.activeQuests ↔
          q ∈ s.spawnedData.activeQuests ∧ q ≠ q' := by
        unfold despawnOne
        split_ifs with hact hpool
        · exact absurd hpool (by decide)
        · show q ∈ s.spawnedData.activeQuests.erase q' ↔ _
          rw [Finset.mem_erase, and_comm]
        · have hnot : q' ∉ s.spawnedData.activeQuests := by simpa using hact
          refine ⟨fun hq => ⟨hq, ?_⟩, And.left⟩
          rintro rfl
          exact hnot hq
      rw [List.foldl_cons, ih, hone, List.mem_cons, not_or, and_assoc]
  rw [despawnObject, key]
  exact and_congr_right fun _ => not_congr cfg.mem_guids

/-! ### What is drawn -/

/-- Random quests: different ones, as many as there are up to the limit, which 0 is not. -/
theorem picks_spec {newQuests : Finset ℕ} {fuel : ℕ} (hfuel : newQuests.card ≤ fuel)
    (hne : newQuests.Nonempty) (draws : ℕ) :
    (picks rnd fuel newQuests limit draws).Nodup ∧
      (∀ q ∈ picks rnd fuel newQuests limit draws, q ∈ newQuests) ∧
      (picks rnd fuel newQuests limit draws).length =
        min ((limit - 1).toNat + 1) newQuests.card := by
  induction fuel generalizing newQuests limit draws with
  | zero => exact absurd hne.card_pos (by omega)
  | succ fuel ih =>
    have hmem := selectRandom_mem hne (rnd draws)
    rw [picks]
    generalize selectRandom newQuests (rnd draws) = q at hmem ⊢
    have hcard := Finset.card_erase_add_one hmem
    split_ifs with hmore
    · have hpos := FixedWidth.toNat_sub_one hmore.1
      obtain ⟨hnodup, hsub, hlen⟩ := @ih (limit - 1) _ (by omega) hmore.2 (draws + 1)
      refine ⟨List.nodup_cons.2 ⟨fun hq => ?_, hnodup⟩, ?_, ?_⟩
      · exact Finset.notMem_erase _ _ (hsub q hq)
      · rw [List.forall_mem_cons]
        exact ⟨hmem, fun q' hq' => Finset.mem_of_mem_erase (hsub q' hq')⟩
      · rw [List.length_cons, hlen]
        omega
    · refine ⟨List.nodup_singleton q, fun q' hq' => List.mem_singleton.1 hq' ▸ hmem, ?_⟩
      rw [List.length_singleton]
      rcases not_and_or.1 hmore with hlimit | hempty
      · rw [not_not.1 hlimit]
        have hpos := hne.card_pos
        simp only [UInt32.toNat_zero]
        omega
      · rw [Finset.not_nonempty_iff_eq_empty] at hempty
        rw [hempty, Finset.card_empty] at hcard
        omega

/-- Quests are taken again until there are as many as the limit, or none is left. -/
theorem card_recycleQuests {fuel : ℕ} {currentQuests newQuests : Finset ℕ}
    (hfuel : currentQuests.card ≤ fuel) (hdisj : Disjoint newQuests currentQuests)
    (hle : newQuests.card ≤ limit.toNat) (s : PoolMgr) :
    newQuests ⊆ (recycleQuests rnd limit fuel currentQuests newQuests s).1 ∧
      (recycleQuests rnd limit fuel currentQuests newQuests s).1.card =
        min limit.toNat (newQuests.card + currentQuests.card) := by
  induction fuel generalizing currentQuests newQuests s with
  | zero =>
    have hzero : currentQuests.card = 0 := by omega
    refine ⟨fun _ hq => hq, ?_⟩
    rw [hzero, Nat.add_zero, min_eq_right hle]
    rfl
  | succ fuel ih =>
    rw [recycleQuests]
    split_ifs with hmore
    · have hmem := selectRandom_mem hmore.2 (rnd s.draws)
      generalize selectRandom currentQuests (rnd s.draws) = q at hmem ⊢
      have hnew : q ∉ newQuests := fun hq => Finset.disjoint_left.1 hdisj hq hmem
      have hcard := Finset.card_erase_add_one hmem
      have hinsert := Finset.card_insert_of_notMem hnew
      have hdisj' : Disjoint (insert q newQuests) (currentQuests.erase q) := by
        rw [Finset.disjoint_insert_left]
        exact ⟨Finset.notMem_erase _ _, hdisj.mono_right (Finset.erase_subset _ _)⟩
      obtain ⟨hsub, heq⟩ := ih (by omega) hdisj' (by omega) { s with draws := s.draws + 1 }
      refine ⟨(Finset.subset_insert q _).trans hsub, ?_⟩
      dsimp only
      rw [heq, hinsert]
      omega
    · refine ⟨fun _ hq => hq, ?_⟩
      rcases not_and_or.1 hmore with hfull | hempty
      · show newQuests.card = _
        omega
      · rw [Finset.not_nonempty_iff_eq_empty] at hempty
        rw [hempty, Finset.card_empty, Nat.add_zero, min_eq_right hle]

/-- What is drawn from: as many quests as the limit, if there are so many. -/
theorem card_selectQuests (s : PoolMgr) :
    cfg.idleQuests p s.spawnedData.activeQuests ⊆ (selectQuests cfg rnd p limit s).1 ∧
      ((cfg.idleQuests p s.spawnedData.activeQuests).card ≤ limit.toNat →
        (selectQuests cfg rnd p limit s).1.card = min limit.toNat
          ((cfg.idleQuests p s.spawnedData.activeQuests).card +
            s.spawnedData.activeQuests.card)) := by
  have hdisj : Disjoint (cfg.idleQuests p s.spawnedData.activeQuests) s.spawnedData.activeQuests :=
    Finset.sdiff_disjoint
  unfold selectQuests
  dsimp only
  split_ifs with hless
  · have hspec := @card_recycleQuests rnd limit _ _ _ le_rfl hdisj (Nat.le_of_lt hless)
      (despawnObject cfg (despawnPool cfg) .quest p 0 s)
    exact ⟨hspec.1, fun _ => hspec.2⟩
  · refine ⟨fun _ hq => hq, fun hle => ?_⟩
    have heq : (cfg.idleQuests p s.spawnedData.activeQuests).card = limit.toNat :=
      le_antisymm hle (not_lt.1 hless)
    have hmin : min limit.toNat ((cfg.idleQuests p s.spawnedData.activeQuests).card +
        s.spawnedData.activeQuests.card) = limit.toNat := by omega
    rw [hmin]
    exact heq

theorem toFinset_picks {newQuests : Finset ℕ} (hne : newQuests.Nonempty)
    (hle : newQuests.card ≤ (limit - 1).toNat + 1) (draws : ℕ) :
    (picks rnd newQuests.card newQuests limit draws).toFinset = newQuests := by
  obtain ⟨hnodup, hsub, hlen⟩ := @picks_spec rnd limit _ _ le_rfl hne draws
  refine Finset.eq_of_subset_of_card_le (fun q hq => hsub q (List.mem_toFinset.1 hq)) ?_
  rw [List.toFinset_card_of_nodup hnodup, hlen, min_eq_right hle]

/-- Some random numbers take any given quest again, if there are not enough idle ones. -/
theorem exists_mem_selectQuests {q : ℕ} (hq : q ∈ s.spawnedData.activeQuests)
    (hless : (cfg.idleQuests p s.spawnedData.activeQuests).card < limit.toNat) :
    ∃ rnd, q ∈ (selectQuests cfg rnd p limit s).1 := by
  obtain ⟨i, hi⟩ := Picking.exists_pick_eq hq 0
  refine ⟨fun _ => ⟨0, i⟩, ?_⟩
  have hpos : 0 < s.spawnedData.activeQuests.card := Finset.card_pos.2 ⟨q, hq⟩
  obtain ⟨n, hn⟩ := Nat.exists_eq_succ_of_ne_zero hpos.ne'
  have hmono : ∀ (fuel : ℕ) (current new : Finset ℕ) (s : PoolMgr),
      new ⊆ (recycleQuests (fun _ => ⟨0, i⟩) limit fuel current new s).1 := by
    intro fuel
    induction fuel with
    | zero => exact fun _ _ _ _ hx => hx
    | succ fuel ih =>
      intro current new s
      rw [recycleQuests]
      split_ifs
      · exact (Finset.subset_insert _ _).trans (ih _ _ _)
      · exact fun _ hx => hx
  unfold selectQuests
  dsimp only
  have hmore : (((cfg.group .quest p).equalChanced.map PoolObject.guid).toFinset \
      s.spawnedData.activeQuests).card < limit.toNat ∧ s.spawnedData.activeQuests.Nonempty :=
    ⟨hless, q, hq⟩
  rw [if_pos hmore.1, hn, recycleQuests, if_pos hmore]
  refine hmono _ _ _ _ ?_
  rw [selectRandom, hi]
  exact Finset.mem_insert_self _ _

/-! ### A call that does what it should -/

theorem mem_spawnQuests {q : ℕ} :
    q ∈ (spawnQuests cfg rnd p limit triggerFrom s).spawnedData.activeQuests ↔
      (q ∈ s.spawnedData.activeQuests ∧
        (s.Saved p triggerFrom ∨ cfg.searchMap .quest q ≠ some p)) ∨
      q ∈ activatedQuests cfg rnd p limit triggerFrom s := by
  rw [spawnedData_spawnQuests, mem_activateAll]
  by_cases hsaved : s.Saved p triggerFrom
  · simp [hsaved]
  · rw [if_neg hsaved, mem_despawnObject]
    simp [hsaved, PoolMgr.record]

/-- The quests that are activated are different quests of the pool, the active ones of the pool keep
to the limit, are as many as possible if nothing saved is taken, and the quests of the other pools
stay as they are. -/
structure QuestsRight (cfg : QuestConfig) (rnd : ℕ → Draw) (p : ℕ) (limit : UInt32)
    (triggerFrom : ℕ) (s : PoolMgr) : Prop where
  nodup : (activatedQuests cfg.toConfig rnd p limit triggerFrom s).Nodup
  own : ∀ q ∈ activatedQuests cfg.toConfig rnd p limit triggerFrom s,
    cfg.searchMap .quest q = some p
  le : (cfg.ownQuests p
    (spawnQuests cfg.toConfig rnd p limit triggerFrom s).spawnedData.activeQuests).card ≤
      limit.toNat
  exactly : ¬s.Saved p triggerFrom → (cfg.ownQuests p
    (spawnQuests cfg.toConfig rnd p limit triggerFrom s).spawnedData.activeQuests).card =
      min limit.toNat (cfg.quests p).card
  others : ∀ q p', cfg.searchMap .quest q = some p' → p' ≠ p →
    (q ∈ (spawnQuests cfg.toConfig rnd p limit triggerFrom s).spawnedData.activeQuests ↔
      q ∈ s.spawnedData.activeQuests)

/-- Saved quests are different ones of the pool, and not too many with those that are active. Else
every quest of the pool is active, if the limit is 0, and if it is not, then there are enough that
are not active, or nothing is active but quests of the pool. -/
def QuestsFit (cfg : QuestConfig) (p : ℕ) (limit : UInt32) (triggerFrom : ℕ) (s : PoolMgr) : Prop :=
  let active := s.spawnedData.activeQuests
  if s.Saved p triggerFrom then
    let loaded := taken limit (s.poolQuestSave p)
    loaded.Nodup ∧ (∀ q ∈ loaded, q ∈ cfg.quests p) ∧
      (cfg.ownQuests p active ∪ loaded.toFinset).card ≤ limit.toNat
  else if limit = 0 then cfg.quests p ⊆ active
  else limit.toNat ≤ (cfg.quests p \ active).card ∨ active ⊆ cfg.quests p

section

variable {cfg : QuestConfig}

theorem mem_ownQuests {active : Finset ℕ} {q : ℕ} :
    q ∈ cfg.ownQuests p active ↔ q ∈ active ∧ cfg.searchMap .quest q = some p := Finset.mem_filter

/-- The active quests of the pool after a call that activates only such. -/
theorem ownQuests_spawnQuests (hown : ∀ q ∈ activatedQuests cfg.toConfig rnd p limit triggerFrom s,
    cfg.searchMap .quest q = some p) :
    cfg.ownQuests p (spawnQuests cfg.toConfig rnd p limit triggerFrom s).spawnedData.activeQuests =
      (if s.Saved p triggerFrom then cfg.ownQuests p s.spawnedData.activeQuests else ∅) ∪
        (activatedQuests cfg.toConfig rnd p limit triggerFrom s).toFinset := by
  ext q
  rw [mem_ownQuests, mem_spawnQuests, Finset.mem_union, List.mem_toFinset]
  by_cases hsaved : s.Saved p triggerFrom
  · rw [if_pos hsaved, mem_ownQuests]
    have hq := hown q
    tauto
  · rw [if_neg hsaved]
    have hq := hown q
    simp only [hsaved, Finset.notMem_empty]
    tauto

/-- A call that activates only quests of the pool leaves the other pools alone. -/
theorem others_of_own (hown : ∀ q ∈ activatedQuests cfg.toConfig rnd p limit triggerFrom s,
    cfg.searchMap .quest q = some p) {q p' : ℕ} (hq : cfg.searchMap .quest q = some p')
    (hne : p' ≠ p) :
    q ∈ (spawnQuests cfg.toConfig rnd p limit triggerFrom s).spawnedData.activeQuests ↔
      q ∈ s.spawnedData.activeQuests := by
  have hnot : cfg.searchMap .quest q ≠ some p := by
    rw [hq]
    exact fun h => hne (Option.some.inj h)
  rw [mem_spawnQuests]
  constructor
  · rintro (⟨hact, -⟩ | hact)
    · exact hact
    · exact absurd (hown q hact) hnot
  · exact fun hact => .inl ⟨hact, .inr hnot⟩

theorem questsRight_saved_iff (hsaved : s.Saved p triggerFrom) :
    QuestsRight cfg rnd p limit triggerFrom s ↔ QuestsFit cfg p limit triggerFrom s := by
  have hact : activatedQuests cfg.toConfig rnd p limit triggerFrom s =
      taken limit (s.poolQuestSave p) := if_pos hsaved
  have hfit : QuestsFit cfg p limit triggerFrom s ↔
      (taken limit (s.poolQuestSave p)).Nodup ∧
      (∀ q ∈ taken limit (s.poolQuestSave p), cfg.searchMap .quest q = some p) ∧
      (cfg.ownQuests p s.spawnedData.activeQuests ∪
        (taken limit (s.poolQuestSave p)).toFinset).card ≤ limit.toNat := by
    unfold QuestsFit
    simp only [if_pos hsaved, QuestConfig.mem_quests]
  rw [hfit]
  constructor
  · intro h
    have hown := h.own
    have hle := h.le
    rw [ownQuests_spawnQuests hown, if_pos hsaved, hact] at hle
    exact ⟨hact ▸ h.nodup, hact ▸ hown, hle⟩
  · rintro ⟨hnodup, hmem, hle⟩
    have hown : ∀ q ∈ activatedQuests cfg.toConfig rnd p limit triggerFrom s,
        cfg.searchMap .quest q = some p := hact ▸ hmem
    refine ⟨hact ▸ hnodup, hown, ?_, absurd hsaved, fun q p' => others_of_own hown⟩
    rw [ownQuests_spawnQuests hown, if_pos hsaved, hact]
    exact hle

/-- The quests that are activated, if nothing saved is taken. -/
theorem activatedQuests_spec (hsaved : ¬s.Saved p triggerFrom) :
    (activatedQuests cfg.toConfig rnd p limit triggerFrom s).Nodup ∧
      (∀ q ∈ activatedQuests cfg.toConfig rnd p limit triggerFrom s,
        q ∈ (selectQuests cfg.toConfig rnd p limit (s.record p triggerFrom)).1) ∧
      (activatedQuests cfg.toConfig rnd p limit triggerFrom s).length =
        min ((limit - 1).toNat + 1)
          (selectQuests cfg.toConfig rnd p limit (s.record p triggerFrom)).1.card := by
  unfold activatedQuests
  rw [if_neg hsaved]
  dsimp only
  split_ifs with hempty
  · refine ⟨List.nodup_nil, fun q hq => absurd hq List.not_mem_nil, ?_⟩
    rw [hempty, Finset.card_empty, Nat.min_zero]
    rfl
  · exact picks_spec le_rfl (Finset.nonempty_iff_ne_empty.2 hempty) _

theorem card_select (hfit : limit.toNat ≤ (cfg.quests p \ s.spawnedData.activeQuests).card ∨
      s.spawnedData.activeQuests ⊆ cfg.quests p) :
    (selectQuests cfg.toConfig rnd p limit s).1 ⊆ cfg.quests p ∧
      min limit.toNat (selectQuests cfg.toConfig rnd p limit s).1.card =
        min limit.toNat (cfg.quests p).card := by
  obtain ⟨-, hsub, henough⟩ := @selectQuests_spec cfg.toConfig rnd p limit s
  obtain ⟨-, hcard⟩ := @card_selectQuests cfg.toConfig rnd p limit s
  rw [cfg.idleQuests_eq] at hsub henough hcard
  by_cases hle : limit.toNat ≤ (cfg.quests p \ s.spawnedData.activeQuests).card
  · have hquests : (cfg.quests p \ s.spawnedData.activeQuests).card ≤ (cfg.quests p).card :=
      Finset.card_le_card Finset.sdiff_subset
    rw [henough hle]
    exact ⟨Finset.sdiff_subset, by omega⟩
  · have hown := hfit.resolve_left hle
    refine ⟨hsub.trans (Finset.union_subset Finset.sdiff_subset hown), ?_⟩
    have hsum := Finset.card_sdiff_add_card_eq_card hown
    rw [hcard (Nat.le_of_not_le hle), hsum]
    omega

theorem questsRight_of_fit (hsaved : ¬s.Saved p triggerFrom)
    (hfit : QuestsFit cfg p limit triggerFrom s) (rnd : ℕ → Draw) :
    QuestsRight cfg rnd p limit triggerFrom s := by
  unfold QuestsFit at hfit
  simp only [if_neg hsaved] at hfit
  obtain ⟨hnodup, hsel, hlen⟩ := @activatedQuests_spec rnd s p triggerFrom limit cfg hsaved
  have key : (∀ q ∈ activatedQuests cfg.toConfig rnd p limit triggerFrom s, q ∈ cfg.quests p) ∧
      (activatedQuests cfg.toConfig rnd p limit triggerFrom s).length =
        min limit.toNat (cfg.quests p).card := by
    by_cases hlimit : limit = 0
    · rw [if_pos hlimit] at hfit
      have henough := (@selectQuests_spec cfg.toConfig rnd p limit (s.record p triggerFrom)).2.2
      have hidle : cfg.idleQuests p (s.record p triggerFrom).spawnedData.activeQuests = ∅ := by
        rw [cfg.idleQuests_eq]
        exact Finset.sdiff_eq_empty_iff_subset.2 hfit
      rw [hidle] at henough
      have hempty := henough (by rw [hlimit]; exact Nat.zero_le _)
      rw [hempty, Finset.card_empty, Nat.min_zero] at hlen
      rw [List.eq_nil_of_length_eq_zero hlen, hlimit]
      exact ⟨fun q hq => absurd hq List.not_mem_nil, (Nat.zero_min _).symm⟩
    · rw [if_neg hlimit] at hfit
      have hselect := @card_select rnd (s.record p triggerFrom) p limit cfg hfit
      rw [FixedWidth.toNat_sub_one hlimit, hselect.2] at hlen
      exact ⟨fun q hq => hselect.1 (hsel q hq), hlen⟩
  have hown : ∀ q ∈ activatedQuests cfg.toConfig rnd p limit triggerFrom s,
      cfg.searchMap .quest q = some p := fun q hq => QuestConfig.mem_quests.1 (key.1 q hq)
  have hcard : (cfg.ownQuests p
      (spawnQuests cfg.toConfig rnd p limit triggerFrom s).spawnedData.activeQuests).card =
        min limit.toNat (cfg.quests p).card := by
    rw [ownQuests_spawnQuests hown, if_neg hsaved, Finset.empty_union,
      List.toFinset_card_of_nodup hnodup, key.2]
  exact ⟨hnodup, hown, hcard.trans_le (min_le_left _ _), fun _ => hcard,
    fun q p' => others_of_own hown⟩

theorem fit_of_questsRight (hsaved : ¬s.Saved p triggerFrom)
    (h : ∀ rnd, QuestsRight cfg rnd p limit triggerFrom s) :
    QuestsFit cfg p limit triggerFrom s := by
  unfold QuestsFit
  simp only [if_neg hsaved]
  by_cases hlimit : limit = 0
  · -- an idle quest would be activated although the limit is 0
    rw [if_pos hlimit]
    intro q hq
    by_contra hidle
    have hr := h fun _ => ⟨0, 0⟩
    obtain ⟨-, -, hlen⟩ :=
      @activatedQuests_spec (fun _ => ⟨0, 0⟩) s p triggerFrom limit cfg hsaved
    have hmem : q ∈ (selectQuests cfg.toConfig (fun _ => ⟨0, 0⟩) p limit
        (s.record p triggerFrom)).1 := by
      refine card_selectQuests (s.record p triggerFrom) |>.1 ?_
      rw [cfg.idleQuests_eq]
      exact Finset.mem_sdiff.2 ⟨hq, hidle⟩
    have hpos := Finset.card_pos.2 ⟨q, hmem⟩
    have hle := hr.le
    rw [ownQuests_spawnQuests hr.own, if_neg hsaved, Finset.empty_union,
      List.toFinset_card_of_nodup hr.nodup, hlimit, UInt32.toNat_zero] at hle
    rw [hlimit] at hlen hpos
    omega
  · rw [if_neg hlimit]
    by_contra hnot
    obtain ⟨hless, hforeign⟩ := not_or.1 hnot
    obtain ⟨q, hq, hnotmem⟩ := Finset.not_subset.1 hforeign
    -- some random numbers take a quest that is not one of the pool
    have hless' : (cfg.idleQuests p (s.record p triggerFrom).spawnedData.activeQuests).card <
        limit.toNat := by
      rw [cfg.idleQuests_eq]
      exact not_le.1 hless
    obtain ⟨rnd, hmem⟩ := @exists_mem_selectQuests cfg.toConfig (s.record p triggerFrom) p limit q
      hq hless'
    have hcard := (@card_selectQuests cfg.toConfig rnd p limit (s.record p triggerFrom)).2
      (Nat.le_of_lt hless')
    have hroom : (selectQuests cfg.toConfig rnd p limit (s.record p triggerFrom)).1.card ≤
        (limit - 1).toNat + 1 := by
      rw [FixedWidth.toNat_sub_one hlimit, hcard]
      exact min_le_left _ _
    have hact : q ∈ activatedQuests cfg.toConfig rnd p limit triggerFrom s := by
      unfold activatedQuests
      rw [if_neg hsaved]
      dsimp only
      rw [if_neg (Finset.ne_empty_of_mem hmem), ← List.mem_toFinset,
        toFinset_picks ⟨q, hmem⟩ hroom]
      exact hmem
    exact hnotmem (QuestConfig.mem_quests.2 ((h rnd).own q hact))

/-- **Main result.** `PoolGroup<Quest>::SpawnObject` does what it should for all random numbers
exactly if the saved quests, or else the limit and the active quests, allow for it. -/
theorem questsRight_iff (cfg : QuestConfig) (p : ℕ) (limit : UInt32) (triggerFrom : ℕ)
    (s : PoolMgr) : (∀ rnd, QuestsRight cfg rnd p limit triggerFrom s) ↔
      QuestsFit cfg p limit triggerFrom s := by
  by_cases hsaved : s.Saved p triggerFrom
  · constructor
    · exact fun h => (questsRight_saved_iff hsaved).1 (h fun _ => ⟨0, 0⟩)
    · exact fun h rnd => (questsRight_saved_iff hsaved).2 h
  · exact ⟨fit_of_questsRight hsaved, questsRight_of_fit hsaved⟩

end

def exampleQuestGroup (k : Kind) (p : ℕ) : PoolGroup :=
  if k = .quest ∧ (p = 1 ∨ p = 2) then ⟨[], [⟨100 * p, 0⟩]⟩ else ⟨[], []⟩

def exampleQuestMap (k : Kind) (guid : ℕ) : Option ℕ :=
  if k = .quest ∧ guid = 100 then some 1
  else if k = .quest ∧ guid = 200 then some 2 else none

theorem mem_exampleQuestGroup {k : Kind} {guid p : ℕ} :
    guid ∈ (exampleQuestGroup k p).guids ↔ exampleQuestMap k guid = some p := by
  unfold exampleQuestGroup exampleQuestMap
  by_cases h1 : p = 1
  · cases k <;> simp [PoolGroup.guids, h1]
  · by_cases h2 : p = 2 <;> cases k <;> simp [PoolGroup.guids, h1, h2] <;> grind

theorem exampleQuestMap_pool {a b : ℕ} (h : exampleQuestMap .pool a = some b) : (0 : ℕ) < 0 := by
  simp [exampleQuestMap] at h

theorem explicitlyChanced_exampleQuestGroup (p : ℕ) :
    (exampleQuestGroup .quest p).explicitlyChanced = [] := by
  unfold exampleQuestGroup
  split_ifs <;> rfl

/-- Two pools with one quest each. -/
def exampleQuests : QuestConfig where
  maxLimit := fun _ => 1
  group := exampleQuestGroup
  searchMap := exampleQuestMap
  mem_guids := mem_exampleQuestGroup
  level := fun _ => 0
  level_lt := exampleQuestMap_pool
  equal := explicitlyChanced_exampleQuestGroup

/-- Both quests are active, and the first pool is updated: the quest of the second pool may be drawn
for it. -/
theorem questsRight_exampleQuests :
    ¬∀ rnd, QuestsRight exampleQuests rnd 1 (exampleQuests.maxLimit 1) 100
      { PoolMgr.initial fun _ => [] with spawnedData := ⟨∅, ∅, {100, 200}, fun _ => some 1⟩ } := by
  intro h
  have hfit := fit_of_questsRight (by decide) h
  revert hfit
  unfold QuestsFit
  decide

end FaceCore.Pools
