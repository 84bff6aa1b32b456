import FaceCore.Lib.Bitmap
import FaceCore.Lib.Runs

/-!
# The ids of instances

`MapManager` hands out the ids of instances: `InitInstanceIds` and `LoadResetTimes` mark the ids of
the table `instance`, `GenerateInstanceId` takes the one under a cursor and moves the cursor on, and
`FreeInstanceId` gives one back. The ids in use are bits of a `std::vector<bool>`, whose capacity is
whatever the allocator left.

* `MapManager`: the vector and the cursor; an access outside the vector is `none`;
* `Server`, `Op`: the manager with the ids that are really in use, and what happens to it;
* `Fits`: the vector that a call grows has a bit for the new id;
* `generateInstanceId_least`: runs of such calls return the least positive id that is free.
-/

namespace FaceCore.Instances

open Runs

/-- Conversion to `uint32`. -/
def uint32 (n : ℕ) : ℕ := n % 2 ^ 32

/-- The fields of `MapManager` for ids, and whether `World::StopNow` was called. -/
structure MapManager where
  instanceIds : List Bool
  nextInstanceId : ℕ
  stopped : Bool

/-- The size that is meant to hold `id`, a multiple of 32. -/
def wordSize (id : ℕ) : ℕ := uint32 (id / 32 * 32 + if id % 32 > 0 then 32 else 0)

namespace MapManager

/-- `MapManager::InitInstanceIds`; the largest id comes from the table. -/
def initInstanceIds (maxId : Option ℕ) : MapManager :=
  match maxId with
  | none => ⟨[], 1, false⟩
  | some maxId => ⟨Bitmap.resize [] (wordSize maxId), 1, false⟩

/-- `MapManager::RegisterInstanceId`. -/
def registerInstanceId (m : MapManager) (instanceId : ℕ) : Option MapManager :=
  (Bitmap.write m.instanceIds instanceId true).map fun bits => { m with instanceIds := bits }

/-- The bits from which `GenerateInstanceId` takes the new id. -/
def allocate (m : MapManager) (capacity newInstanceId : ℕ) : List Bool :=
  if uint32 m.instanceIds.length ≤ newInstanceId then
    if m.instanceIds.length < capacity then Bitmap.resize m.instanceIds capacity
    else Bitmap.resize m.instanceIds (wordSize newInstanceId)
  else m.instanceIds

/-- `MapManager::GenerateInstanceId`, with the capacity of the vector. -/
def generateInstanceId (m : MapManager) (capacity : ℕ) : Option (ℕ × MapManager) :=
  let newInstanceId := m.nextInstanceId
  let first := uint32 (newInstanceId + 1)
  let next := (Bitmap.firstClear m.instanceIds (0xFFFFFFFF - first) first).getD first
  (Bitmap.write (m.allocate capacity newInstanceId) newInstanceId true).map fun bits =>
    (newInstanceId, ⟨bits, next, m.stopped || newInstanceId = next⟩)

/-- `MapManager::FreeInstanceId`. -/
def freeInstanceId (m : MapManager) (instanceId : ℕ) : Option MapManager :=
  (Bitmap.write m.instanceIds instanceId false).map fun bits =>
    { m with
      instanceIds := bits
      nextInstanceId := if instanceId < m.nextInstanceId then instanceId else m.nextInstanceId }

/-- A row of `instance` in `LoadResetTimes`. -/
def loadInstanceId (m : MapManager) (instanceId : ℕ) : Option MapManager :=
  registerInstanceId
    (if m.nextInstanceId = instanceId then
      { m with nextInstanceId := uint32 (instanceId + 1) } else m) instanceId

/-- The ids at startup, from the rows of `instance` in ascending order. -/
def load (ids : List ℕ) : Option MapManager :=
  ids.foldlM loadInstanceId (initInstanceIds ids.max?)

end MapManager

/-! ### The ids in use -/

/-- The manager, with the ids in use. -/
structure Server where
  mgr : MapManager
  inUse : Finset ℕ

/-- What happens to the ids. -/
inductive Op
  | generate (capacity : ℕ)
  | free (instanceId : ℕ)

/-- The server after an operation; `none` is an access outside the vector. -/
def Server.exec (s : Server) : Op → Option Server
  | .generate capacity =>
    (s.mgr.generateInstanceId capacity).map fun r => ⟨r.2, insert r.1 s.inUse⟩
  | .free instanceId => (s.mgr.freeInstanceId instanceId).map fun m => ⟨m, s.inUse.erase instanceId⟩

/-- One operation, until an access outside the vector. -/
def step : Option Server → Op → Option Server := stepOption Server.exec

/-- The server at startup. -/
def Server.load (ids : List ℕ) : Option Server :=
  (MapManager.load ids).map fun m => ⟨m, ids.toFinset⟩

/-- A call for which the capacity is not below the size and an id is left, or of an id in use. -/
def Legal (s : Server) : Op → Prop
  | .generate capacity =>
    s.mgr.instanceIds.length ≤ capacity ∧ s.inUse.card + 1 < 2 ^ 32 - 2
  | .free instanceId => instanceId ∈ s.inUse

/-- Every access lies inside the vector, and a new id is the least positive one not in use. -/
def Correct (s : Server) : Op → Prop
  | .generate capacity => ∃ r, s.mgr.generateInstanceId capacity = some r ∧
      IsLeast {i | 0 < i ∧ i ∉ s.inUse} r.1
  | .free instanceId => (s.mgr.freeInstanceId instanceId).isSome

/-- The vector reaches beyond the id under the cursor, or grows beyond it: to its capacity if that
is larger than the size, and else to the next multiple of 32 (and then no id in use is cut off).
And the id that is freed is not 0. -/
def Fits (s : Server) : Op → Prop
  | .generate capacity =>
    let id := s.mgr.nextInstanceId
    let size := s.mgr.instanceIds.length
    id < uint32 size ∨ (size < capacity ∧ id < capacity) ∨
      (capacity ≤ size ∧ id % 32 ≠ 0 ∧ id < 2 ^ 32 - 32 ∧ ∀ i ∈ s.inUse, i < id / 32 * 32 + 32)
  | .free instanceId => instanceId ≠ 0

/-- The largest id of the table is no multiple of 32, and its vector has a size. -/
def LoadFits (ids : List ℕ) : Prop := ∀ maxId ∈ ids.max?, maxId % 32 ≠ 0 ∧ maxId < 2 ^ 32 - 32

instance (ids : List ℕ) : Decidable (LoadFits ids) :=
  inferInstanceAs (Decidable (∀ maxId ∈ ids.max?, maxId % 32 ≠ 0 ∧ maxId < 2 ^ 32 - 32))

instance (s : Server) : ∀ op, Decidable (Legal s op)
  | .generate capacity => inferInstanceAs
    (Decidable (s.mgr.instanceIds.length ≤ capacity ∧ s.inUse.card + 1 < 2 ^ 32 - 2))
  | .free instanceId => inferInstanceAs (Decidable (instanceId ∈ s.inUse))

instance (s : Server) : ∀ op, Decidable (Fits s op)
  | .generate capacity => inferInstanceAs
    (Decidable (s.mgr.nextInstanceId < uint32 s.mgr.instanceIds.length ∨
      (s.mgr.instanceIds.length < capacity ∧ s.mgr.nextInstanceId < capacity) ∨
        (capacity ≤ s.mgr.instanceIds.length ∧ s.mgr.nextInstanceId % 32 ≠ 0 ∧
          s.mgr.nextInstanceId < 2 ^ 32 - 32 ∧
            ∀ i ∈ s.inUse, i < s.mgr.nextInstanceId / 32 * 32 + 32)))
  | .free instanceId => inferInstanceAs (Decidable (instanceId ≠ 0))

variable {s t : Server} {m m' : MapManager} {capacity id n : ℕ} {ids : List ℕ}

/-! ### Sizes -/

theorem uint32_of_lt (h : n < 2 ^ 32) : uint32 n = n := Nat.mod_eq_of_lt h

theorem wordSize_eq (hmod : id % 32 ≠ 0) (hlt : id < 2 ^ 32 - 32) :
    wordSize id = id / 32 * 32 + 32 := by
  unfold wordSize
  rw [if_pos (by omega), uint32_of_lt (by omega)]

/-- The size that is meant to hold an id does so unless the id is a multiple of 32. -/
theorem lt_wordSize_iff (hid : id < 2 ^ 32) :
    id < wordSize id ↔ id % 32 ≠ 0 ∧ id < 2 ^ 32 - 32 := by
  constructor
  · intro h
    unfold wordSize uint32 at h
    split_ifs at h <;> omega
  · rintro ⟨hmod, hlt⟩
    rw [wordSize_eq hmod hlt]
    omega

/-! ### The cursor and the bits agree with the ids in use -/

/-- The bits that are set are the ids in use, and the cursor is the least positive one that is
free. -/
structure Consistent (s : Server) : Prop where
  bits : Bitmap.Represents s.mgr.instanceIds s.inUse
  cursor : IsLeast {i | 0 < i ∧ i ∉ s.inUse} s.mgr.nextInstanceId

theorem Consistent.allocate (h : Consistent s) (hfits : Fits s (.generate capacity)) :
    s.mgr.nextInstanceId < (s.mgr.allocate capacity s.mgr.nextInstanceId).length ∧
      Bitmap.Represents (s.mgr.allocate capacity s.mgr.nextInstanceId) s.inUse := by
  have hle : uint32 s.mgr.instanceIds.length ≤ s.mgr.instanceIds.length := Nat.mod_le _ _
  have hused := fun i (hi : i ∈ s.inUse) => h.bits.lt_length hi
  unfold MapManager.allocate
  unfold Fits at hfits
  dsimp only at hfits
  split_ifs with hsize hcap
  · rw [Bitmap.length_resize]
    refine ⟨by omega, h.bits.resize fun i hi => ?_⟩
    exact (hused i hi).trans hcap
  · obtain ⟨-, hmod, hlt, hbelow⟩ :=
      (hfits.resolve_left (by omega)).resolve_left fun hc => hcap hc.1
    rw [Bitmap.length_resize, wordSize_eq hmod hlt]
    exact ⟨by omega, h.bits.resize hbelow⟩
  · exact ⟨by omega, h.bits⟩

theorem Consistent.firstClear (h : Consistent s) (hcard : s.inUse.card + 1 < 2 ^ 32 - 2) :
    ∃ next, IsLeast {i | 0 < i ∧ i ∉ insert s.mgr.nextInstanceId s.inUse} next ∧
      Bitmap.firstClear s.mgr.instanceIds
        (0xFFFFFFFF - uint32 (s.mgr.nextInstanceId + 1)) (uint32 (s.mgr.nextInstanceId + 1)) =
          some next := by
  obtain ⟨next, hnext⟩ := Bitmap.exists_isLeast (insert s.mgr.nextInstanceId s.inUse)
  refine ⟨next, hnext, ?_⟩
  have hcursor := Bitmap.le_card_add_one h.cursor
  have hbound := Bitmap.le_card_add_one hnext
  have hinsert := Finset.card_insert_le s.mgr.nextInstanceId s.inUse
  obtain ⟨hpos, hfree⟩ := hnext.1
  rw [Finset.mem_insert, not_or] at hfree
  have hlt : s.mgr.nextInstanceId < next :=
    lt_of_le_of_ne (h.cursor.2 ⟨hpos, hfree.2⟩) (Ne.symm hfree.1)
  rw [uint32_of_lt (by omega)]
  refine h.bits.firstClear hlt (by omega) hfree.2 fun k hk hkn => ?_
  have hmem := Bitmap.mem_of_lt_isLeast hnext (by omega) hkn
  exact (Finset.mem_insert.1 hmem).resolve_left (by omega)

theorem Consistent.generate (h : Consistent s) (hlegal : Legal s (.generate capacity))
    (hfits : Fits s (.generate capacity)) :
    ∃ m', s.mgr.generateInstanceId capacity = some (s.mgr.nextInstanceId, m') ∧
      Consistent ⟨m', insert s.mgr.nextInstanceId s.inUse⟩ := by
  obtain ⟨hlt, hbits⟩ := h.allocate hfits
  obtain ⟨next, hnext, hscan⟩ := h.firstClear hlegal.2
  obtain ⟨bits, hwrite⟩ := Option.isSome_iff_exists.1 ((Bitmap.write_isSome (b := true)).2 hlt)
  unfold MapManager.generateInstanceId
  dsimp only
  rw [hscan, hwrite]
  exact ⟨_, rfl, hbits.write_true hwrite, hnext⟩

/-- An id that comes back below the cursor is the least one that is free. -/
theorem isLeast_erase (h : IsLeast {i | 0 < i ∧ i ∉ s.inUse} n) (hpos : 0 < id)
    (hid : id ∈ s.inUse) :
    IsLeast {i | 0 < i ∧ i ∉ s.inUse.erase id} (if id < n then id else n) := by
  have hne : n ≠ id := fun heq => h.1.2 (heq ▸ hid)
  split_ifs with hlt
  · refine ⟨⟨hpos, Finset.notMem_erase id _⟩, fun k hk => ?_⟩
    by_contra hlt'
    refine hk.2 (Finset.mem_erase.2 ⟨by omega, ?_⟩)
    exact Bitmap.mem_of_lt_isLeast h hk.1 (by omega)
  · refine ⟨⟨h.1.1, fun hmem => h.1.2 (Finset.mem_of_mem_erase hmem)⟩, fun k hk => ?_⟩
    by_contra hlt'
    refine hk.2 (Finset.mem_erase.2 ⟨by omega, ?_⟩)
    exact Bitmap.mem_of_lt_isLeast h hk.1 (by omega)

theorem Consistent.free (h : Consistent s) (hid : id ∈ s.inUse) (hpos : id ≠ 0) :
    ∃ m', s.mgr.freeInstanceId id = some m' ∧ Consistent ⟨m', s.inUse.erase id⟩ := by
  have hlt := h.bits.lt_length hid
  obtain ⟨bits, hwrite⟩ := Option.isSome_iff_exists.1 ((Bitmap.write_isSome (b := false)).2 hlt)
  unfold MapManager.freeInstanceId
  rw [hwrite]
  exact ⟨_, rfl, h.bits.write_false hwrite, isLeast_erase h.cursor (by omega) hid⟩

/-- A call that fits is correct, and the next state is consistent again. -/
theorem Consistent.exec (h : Consistent s) {op : Op} (hlegal : Legal s op) (hfits : Fits s op) :
    Correct s op ∧ ∃ t, s.exec op = some t ∧ Consistent t := by
  cases op with
  | generate capacity =>
    obtain ⟨m', hm', hnext⟩ := h.generate hlegal hfits
    refine ⟨⟨_, hm', h.cursor⟩, _, ?_, hnext⟩
    simp only [Server.exec, hm', Option.map_some]
  | free id =>
    obtain ⟨m', hm', hnext⟩ := h.free hlegal hfits
    refine ⟨Option.isSome_iff_exists.2 ⟨m', hm'⟩, _, ?_, hnext⟩
    simp only [Server.exec, hm', Option.map_some]

/-! ### Startup -/

theorem loadInstanceId_isSome : (m.loadInstanceId id).isSome ↔ id < m.instanceIds.length := by
  unfold MapManager.loadInstanceId MapManager.registerInstanceId
  rw [Option.isSome_map, Bitmap.write_isSome]
  split_ifs <;> rfl

theorem length_loadInstanceId (h : m.loadInstanceId id = some m') :
    m'.instanceIds.length = m.instanceIds.length := by
  unfold MapManager.loadInstanceId MapManager.registerInstanceId at h
  obtain ⟨bits, hwrite, rfl⟩ := Option.map_eq_some_iff.1 h
  rw [Bitmap.length_write hwrite]
  split_ifs <;> rfl

theorem foldlM_loadInstanceId_isSome :
    (ids.foldlM MapManager.loadInstanceId m).isSome ↔ ∀ id ∈ ids, id < m.instanceIds.length := by
  induction ids generalizing m with
  | nil => simp
  | cons id ids ih =>
    rw [List.foldlM_cons, List.forall_mem_cons, ← loadInstanceId_isSome]
    cases hm : m.loadInstanceId id with
    | none => simp
    | some m' =>
      rw [← length_loadInstanceId hm, ← ih]
      simp

/-- The rows are all inside the vector unless the largest id has no bit. -/
theorem load_isSome (hids : ∀ id ∈ ids, id < 2 ^ 32) :
    (MapManager.load ids).isSome ↔ LoadFits ids := by
  unfold MapManager.load LoadFits
  rw [foldlM_loadInstanceId_isSome]
  cases hmax : ids.max? with
  | none =>
    rw [List.max?_eq_none_iff.1 hmax]
    simp
  | some maxId =>
    obtain ⟨hmem, hle⟩ := List.max?_eq_some_iff.1 hmax
    simp only [MapManager.initInstanceIds, Bitmap.length_resize, Option.mem_some_iff, forall_eq']
    rw [← lt_wordSize_iff (hids maxId hmem)]
    exact ⟨fun h => h maxId hmem, fun h id hid => (hle id hid).trans_lt h⟩

theorem Consistent.loadInstanceId {s : Finset ℕ} (h : Consistent ⟨m, s⟩)
    (habove : ∀ i ∈ s, i < id) (hcard : s.card < 2 ^ 32 - 2)
    (hm : m.loadInstanceId id = some m') : Consistent ⟨m', insert id s⟩ := by
  unfold MapManager.loadInstanceId MapManager.registerInstanceId at hm
  obtain ⟨bits, hwrite, rfl⟩ := Option.map_eq_some_iff.1 hm
  have hcursor := h.cursor
  have hbound := Bitmap.le_card_add_one hcursor
  dsimp only at hcursor hbound
  split_ifs at hwrite ⊢ with hnext
  · refine ⟨h.bits.write_true hwrite, ?_⟩
    dsimp only
    rw [uint32_of_lt (by omega)]
    refine ⟨⟨Nat.succ_pos id, fun hmem => ?_⟩, fun k hk => ?_⟩
    · rcases Finset.mem_insert.1 hmem with heq | hmem
      · omega
      · exact absurd (habove _ hmem) (by omega)
    · obtain ⟨hpos, hfree⟩ := hk
      rw [Finset.mem_insert, not_or] at hfree
      have hle := hcursor.2 ⟨hpos, hfree.2⟩
      omega
  · refine ⟨h.bits.write_true hwrite, ⟨hcursor.1.1, fun hmem => ?_⟩, fun k hk => ?_⟩
    · rcases Finset.mem_insert.1 hmem with heq | hmem
      · exact hnext heq
      · exact hcursor.1.2 hmem
    · exact hcursor.2 ⟨hk.1, fun hmem => hk.2 (Finset.mem_insert_of_mem hmem)⟩

theorem Consistent.foldlM {s : Finset ℕ} (h : Consistent ⟨m, s⟩) (hsorted : ids.Pairwise (· < ·))
    (habove : ∀ i ∈ s, ∀ j ∈ ids, i < j) (hcard : s.card + ids.length < 2 ^ 32 - 2)
    (hm : ids.foldlM MapManager.loadInstanceId m = some m') :
    Consistent ⟨m', s ∪ ids.toFinset⟩ := by
  induction ids generalizing m s with
  | nil =>
    obtain rfl : m = m' := by simpa using hm
    simpa using h
  | cons id ids ih =>
    rw [List.foldlM_cons] at hm
    obtain ⟨m₁, hm₁, hm⟩ := Option.bind_eq_some_iff.1 hm
    obtain ⟨hid, hsorted⟩ := List.pairwise_cons.1 hsorted
    rw [List.length_cons] at hcard
    have hnext := h.loadInstanceId (fun i hi => habove i hi id List.mem_cons_self) (by omega) hm₁
    have hinsert := Finset.card_insert_le id s
    rw [List.toFinset_cons, Finset.union_insert, ← Finset.insert_union]
    refine ih hnext hsorted (fun i hi j hj => ?_) (by omega) hm
    rcases Finset.mem_insert.1 hi with rfl | hi
    · exact hid j hj
    · exact habove i hi j (List.mem_cons_of_mem id hj)

theorem consistent_initInstanceIds (maxId : Option ℕ) :
    Consistent ⟨MapManager.initInstanceIds maxId, ∅⟩ := by
  have hcursor : IsLeast {i : ℕ | 0 < i ∧ i ∉ (∅ : Finset ℕ)} 1 :=
    ⟨⟨Nat.one_pos, Finset.notMem_empty 1⟩, fun _ hk => hk.1⟩
  cases maxId with
  | none => exact ⟨Bitmap.represents_nil, hcursor⟩
  | some maxId =>
    exact ⟨Bitmap.represents_nil.resize fun i hi => absurd hi (Finset.notMem_empty i), hcursor⟩

theorem consistent_load (hsorted : ids.Pairwise (· < ·)) (hcard : ids.length < 2 ^ 32 - 2)
    (hs : Server.load ids = some s) : Consistent s := by
  obtain ⟨m, hm, rfl⟩ := Option.map_eq_some_iff.1 hs
  have h := (consistent_initInstanceIds ids.max?).foldlM hsorted
    (fun i hi => absurd hi (Finset.notMem_empty i)) (by simpa using hcard) hm
  rwa [Finset.empty_union] at h

/-! ### Runs -/

/-- The operation meets its condition, if the server still runs. -/
def Running (P : Server → Op → Prop) (s : Option Server) (op : Op) : Prop :=
  ∀ a, s = some a → P a op

instance (P : Server → Op → Prop) [∀ s op, Decidable (P s op)] (s : Option Server) (op : Op) :
    Decidable (Running P s op) :=
  match s with
  | none => isTrue fun _ h => by cases h
  | some s => decidable_of_iff (P s op) (by simp [Running])

theorem Consistent.run (h : Consistent s) {ops : List Op}
    (hlegal : EachStep step (Running Legal) (some s) ops)
    (hfits : EachStep step (Running Fits) (some s) ops) :
    EachStep step (fun a op => ∃ s, a = some s ∧ Correct s op) (some s) ops := by
  induction ops generalizing s with
  | nil => exact EachStep.nil _
  | cons op ops ih =>
    obtain ⟨hl, hlegal⟩ := eachStep_cons.1 hlegal
    obtain ⟨hf, hfits⟩ := eachStep_cons.1 hfits
    obtain ⟨hcorrect, t, ht, hnext⟩ := h.exec (hl s rfl) (hf s rfl)
    have hstep : step (some s) op = some t := ht
    rw [hstep] at hlegal hfits
    refine eachStep_cons.2 ⟨⟨s, rfl, hcorrect⟩, ?_⟩
    rw [hstep]
    exact ih hnext hlegal hfits

/-- **Main result.** The rows of `instance` are registered inside the vector exactly if the largest
id is no multiple of 32 (and below the last one). Then, along every run of calls that fit, every
access is inside the vector, and `GenerateInstanceId` returns the least positive id that is not in
use. -/
theorem generateInstanceId_least (hsorted : ids.Pairwise (· < ·)) (hids : ∀ id ∈ ids, id < 2 ^ 32)
    (hcard : ids.length < 2 ^ 32 - 2) :
    ((Server.load ids).isSome ↔ LoadFits ids) ∧
      (LoadFits ids → ∀ ops, EachStep step (Running Legal) (Server.load ids) ops →
        EachStep step (Running Fits) (Server.load ids) ops →
          EachStep step (fun a op => ∃ s, a = some s ∧ Correct s op) (Server.load ids) ops) := by
  have hload : (Server.load ids).isSome ↔ LoadFits ids := by
    unfold Server.load
    rw [Option.isSome_map]
    exact load_isSome hids
  refine ⟨hload, fun hfit ops hlegal hfits => ?_⟩
  obtain ⟨s, hs⟩ := Option.isSome_iff_exists.1 (hload.2 hfit)
  rw [hs] at hlegal hfits ⊢
  exact (consistent_load hsorted hcard hs).run hlegal hfits

/-- Three ids at startup; two new ones, and an old one that is freed before the second. -/
def reuseRun : List Op := [.generate 32, .free 2, .generate 64]

theorem generateInstanceId_least_run :
    LoadFits [1, 2, 4] ∧ EachStep step (fun a op => ∃ s, a = some s ∧ Correct s op)
      (Server.load [1, 2, 4]) reuseRun := by
  have hlegal : EachStep step (Running Legal) (Server.load [1, 2, 4]) reuseRun := by
    unfold reuseRun
    exact eachStep_cons.2 ⟨by decide, eachStep_cons.2 ⟨by decide, eachStep_cons.2 ⟨by decide,
      EachStep.nil _⟩⟩⟩
  have hfits : EachStep step (Running Fits) (Server.load [1, 2, 4]) reuseRun := by
    unfold reuseRun
    exact eachStep_cons.2 ⟨by decide, eachStep_cons.2 ⟨by decide, eachStep_cons.2 ⟨by decide,
      EachStep.nil _⟩⟩⟩
  refine ⟨by decide, (generateInstanceId_least ?_ ?_ ?_).2 (by decide) reuseRun hlegal hfits⟩
  · decide
  · decide
  · decide

/-- One instance, whose id is 32: its vector has the bits 0 to 31. -/
theorem load_multiple_of_32 :
    ¬ ([32].Pairwise (· < ·) → (∀ id ∈ [32], id < 2 ^ 32) → [32].length < 2 ^ 32 - 2 →
      (Server.load [32]).isSome ∧ ∀ ops, EachStep step (Running Legal) (Server.load [32]) ops →
        EachStep step (fun a op => ∃ s, a = some s ∧ Correct s op) (Server.load [32]) ops) := by
  intro h
  have hload := (h (by decide) (by decide) (by decide)).1
  exact absurd hload (by decide)

end FaceCore.Instances
