import FaceCore.Collision.BihPoint
import FaceCore.Collision.DynamicTree

/-!
# Runs of the dynamic map tree

* `BIHWrap.Inv`: a cell holds some models, and its hierarchy is one of them unless it has to be built
  again; `BIHWrap.Inv.intersectPoint`: a query of a cell;
* `Grid.Inv`: the table and the cells hold the models that are on the map, `inv_exec`, `inv_run`;
* `Reports`: what a query is for; `query_after_run`: a query after any requests.
-/

namespace FaceCore.Collision

variable {α F : Type*} [LinearOrder F] {st : Setting α F} {w : BIHWrap α F} {m : α → Prop}
  {a obj : α}

/-! ### What a cell keeps -/

/-- The cell holds the models `m`, and its tree is one of them unless it has to be built again. -/
structure BIHWrap.Inv (st : Setting α F) (w : BIHWrap α F) (m : α → Prop) : Prop where
  nodup : w.m_objects_to_push.Nodup
  mem : ∀ a, a ∈ w.m_objects_to_push ↔ m a
  unused : w.m_obj2Idx = []
  fresh : w.unbalanced_times = 0 → w.m_objects = w.m_objects_to_push.map some ∧
    w.m_tree.Loses w.m_objects_to_push.length 3 ∧
    (576 * w.m_objects_to_push.length + 3 ≤ 2 ^ 29 →
      w.m_tree.Answers st.arith (w.m_objects_to_push.map st.getBounds))

theorem BIHWrap.Inv.congr {m' : α → Prop} (h : w.Inv st m) (heq : ∀ a, m a ↔ m' a) :
    w.Inv st m' :=
  { h with mem := fun a => (h.mem a).trans (heq a) }

section

variable [BoundedOrder F] {least greatest : F}

/-- What is asked of the setting: models on the map with finite boxes, and enough rounds for a
build. -/
structure Setting.Good (st : Setting α F) (least greatest : F) : Prop where
  lawful : st.arith.Lawful least greatest
  within : ∀ a, (st.getBounds a).Within least greatest
  valid : ∀ a, isValid (st.cell a) = true
  rounds : 2 * (3 * Nat.card F) + 2 ≤ st.rounds
  levels : 64 ≤ st.levels

theorem BIHWrap.inv_new (hst : st.Good least greatest) :
    (BIHWrap.new st).Inv st fun _ => False where
  nodup := List.nodup_nil
  mem := fun _ => iff_of_false List.not_mem_nil id
  unused := rfl
  fresh := fun _ => ⟨rfl, ⟨List.nodup_nil, fun _ h => absurd h List.not_mem_nil, .inl rfl⟩,
    (stands_empty st.noBounds).answers hst.lawful⟩

theorem BIHWrap.Inv.balance [Finite F] (hst : st.Good least greatest) (h : w.Inv st m) :
    ∃ w', w.balance st = .ok w' ∧ w'.Inv st m ∧ w'.unbalanced_times = 0 ∧
      w'.m_objects_to_push = w.m_objects_to_push := by
  by_cases h0 : w.unbalanced_times = 0
  · exact ⟨w, if_pos h0, h, h0, rfl⟩
  · have hboxes : ∀ b ∈ w.m_objects_to_push.map st.getBounds, b.Within least greatest := by
      intro b hb
      obtain ⟨a, -, rfl⟩ := List.mem_map.mp hb
      exact hst.within a
    obtain ⟨tree, primBound, t, ι, lost, hbuild, hstands, hmany⟩ :=
      exists_stands hst.lawful hboxes hst.rounds hst.levels 3 w.m_tree
    refine ⟨{ w with unbalanced_times := 0, m_objects := w.m_objects_to_push.map some,
                     m_tree := tree }, ?_, ?_, rfl, rfl⟩
    · rw [BIHWrap.balance, if_neg h0, hbuild]
    · have hloses := hstands.loses hmany
      rw [List.length_map] at hloses
      exact ⟨h.nodup, h.mem, h.unused, fun _ => ⟨rfl, hloses, fun hsize =>
        hstands.answers hst.lawful (by rwa [List.length_map])⟩⟩

theorem BIHWrap.Inv.intersectPoint [Finite F] (hst : st.Good least greatest) (h : w.Inv st m)
    (hsize : 576 * w.m_objects_to_push.length + 3 ≤ 2 ^ 29) (p : Vector3 F) :
    ∃ w' calls, w.intersectPoint st p = .ok (w', calls) ∧ w'.Inv st m ∧ calls.Nodup ∧
      (∀ a ∈ calls, m a ∧ a ∉ w'.lost) ∧
      (∀ a, m a → (st.getBounds a).contains p = true → a ∉ w'.lost → a ∈ calls) ∧
      ∀ a ∈ w'.lost, 3 < w.m_objects_to_push.length := by
  obtain ⟨w', hbalance, h', h0, hpush⟩ := h.balance hst
  obtain ⟨hobjs, hloses, htree⟩ := h'.fresh h0
  obtain ⟨calls, hcalls, hcallsNodup, hkept, hfound⟩ := htree (by rw [hpush]; exact hsize) p
  have hobj : ∀ idx : ℕ, (w'.m_objects[idx]?).join = w'.m_objects_to_push[idx]? := by
    intro idx
    rw [hobjs, List.getElem?_map]
    cases w'.m_objects_to_push[idx]? <;> rfl
  -- a model has one index only
  have hinj : ∀ {i j : ℕ} {a : α}, w'.m_objects_to_push[i]? = some a →
      w'.m_objects_to_push[j]? = some a → i = j := by
    intro i j a hi hj
    obtain ⟨hlt, -⟩ := List.getElem?_eq_some_iff.mp hi
    exact (List.getElem?_inj hlt h'.nodup).mp (hi.trans hj.symm)
  have hlost : ∀ {idx : ℕ} {a : α}, w'.m_objects_to_push[idx]? = some a →
      (a ∈ w'.lost ↔ idx ∈ w'.m_tree.lost) := by
    intro idx a hidx
    simp only [BIHWrap.lost, hobj, List.mem_filterMap]
    constructor
    · rintro ⟨i, hi, ha⟩
      exact hinj ha hidx ▸ hi
    · exact fun hi => ⟨idx, hi, hidx⟩
  refine ⟨w', calls.filterMap fun idx => (w'.m_objects[idx]?).join, ?_, h', ?_, fun a ha => ?_,
    fun a ha hbox hkept => ?_, fun a ha => ?_⟩
  · rw [BIHWrap.intersectPoint, hbalance]
    dsimp only
    rw [hcalls]
  · refine hcallsNodup.filterMap fun i j a hi hj => ?_
    rw [hobj, Option.mem_def] at hi hj
    exact hinj hi hj
  · obtain ⟨idx, hcall, hidx⟩ := List.mem_filterMap.mp ha
    rw [hobj] at hidx
    exact ⟨(h'.mem a).mp (List.mem_of_getElem? hidx),
      fun hin => (hkept idx hcall).2 ((hlost hidx).mp hin)⟩
  · obtain ⟨idx, hidx⟩ := List.getElem?_of_mem ((h'.mem a).mpr ha)
    have hbounds : (w'.m_objects_to_push.map st.getBounds)[idx]? = some (st.getBounds a) := by
      rw [List.getElem?_map, hidx, Option.map_some]
    exact List.mem_filterMap.mpr ⟨idx, hfound idx _ hbounds hbox fun hin =>
      hkept ((hlost hidx).mpr hin), by rw [hobj, hidx]⟩
  · obtain ⟨idx, hidx, -⟩ := List.mem_filterMap.mp ha
    exact hpush ▸ hloses.lt_of_mem hidx

end

variable [DecidableEq α]

theorem BIHWrap.Inv.insert (h : w.Inv st m) (obj : α) :
    (w.insert obj).Inv st fun a => a = obj ∨ m a where
  nodup := h.nodup.insert
  mem := fun a => by rw [BIHWrap.insert, List.mem_insert_iff, h.mem]
  unused := h.unused
  fresh := fun h0 => absurd h0 (Nat.succ_ne_zero _)

theorem BIHWrap.Inv.remove (h : w.Inv st m) (obj : α) :
    (w.remove obj).Inv st fun a => m a ∧ a ≠ obj := by
  have hlookup : w.m_obj2Idx.lookup obj = none := by rw [h.unused, List.lookup_nil]
  simp only [BIHWrap.remove, hlookup]
  refine ⟨h.nodup.erase obj, fun a => ?_, h.unused, fun h0 => absurd h0 (Nat.succ_ne_zero _)⟩
  rw [h.nodup.mem_erase_iff, h.mem, and_comm]

/-! ### What the grid keeps -/

variable {g : Grid α F} {l l' : List α} {c : ℤ × ℤ}
  {table : Table (Prod.fst : α × ℤ × ℤ → α)}

/-- The table and the cells hold the models `l`. -/
structure Grid.Inv (st : Setting α F) (g : Grid α F) (l : List α) : Prop where
  nodup : l.Nodup
  table : ∀ a, g.memberTable.find a = if a ∈ l then some (a, st.cell a) else none
  nodes : ∀ c w, g.nodes c = some w → w.Inv st fun a => a ∈ l ∧ st.cell a = c
  there : ∀ a ∈ l, (g.nodes (st.cell a)).isSome = true

theorem Grid.inv_new (st : Setting α F) : (Grid.new : Grid α F).Inv st [] where
  nodup := List.nodup_nil
  table := fun a => rfl
  nodes := fun c w h => by simp [Grid.new] at h
  there := fun a h => absurd h List.not_mem_nil

theorem Grid.Inv.contains_iff (h : g.Inv st l) (a : α) : g.contains a = true ↔ a ∈ l := by
  rw [Grid.contains, h.table]
  split_ifs with ha <;> simp [ha]

theorem Grid.Inv.setNode (h : g.Inv st l) (hl' : l'.Nodup)
    (hother : ∀ a, st.cell a ≠ c → (a ∈ l' ↔ a ∈ l))
    (hw : w.Inv st fun a => a ∈ l' ∧ st.cell a = c)
    (htable : ∀ a, table.find a = if a ∈ l' then some (a, st.cell a) else none) (n : ℕ) :
    Grid.Inv st { g.setNode c w with memberTable := table, unbalanced_times := n } l' where
  nodup := hl'
  table := htable
  nodes := fun d w' hd => by
    simp only [Grid.setNode] at hd
    split_ifs at hd with hdc
    · exact hdc ▸ Option.some.inj hd ▸ hw
    · refine (h.nodes d w' hd).congr fun a => and_congr_left fun ha => (hother a ?_).symm
      exact fun hc => hdc (ha.symm.trans hc)
  there := fun a ha => by
    simp only [Grid.setNode]
    split_ifs with hc
    · rfl
    · exact h.there a ((hother a hc).mp ha)

theorem Grid.Inv.sameModels (h : g.Inv st l) (hw : w.Inv st fun a => a ∈ l ∧ st.cell a = c) :
    (g.setNode c w).Inv st l :=
  h.setNode h.nodup (fun _ _ => Iff.rfl) hw h.table g.unbalanced_times

theorem Grid.Inv.remove (h : g.Inv st l) (hobj : obj ∈ l) :
    ∃ g', g.remove obj = .ok g' ∧ g'.Inv st (l.erase obj) := by
  have hfind := h.table obj
  rw [if_pos hobj] at hfind
  obtain ⟨w, hw⟩ := Option.isSome_iff_exists.mp (h.there obj hobj)
  have hmem : ∀ a, a ∈ l.erase obj ↔ a ≠ obj ∧ a ∈ l := fun a => h.nodup.mem_erase_iff
  refine ⟨_, by rw [Grid.remove, hfind]; dsimp only; rw [hw], h.setNode (h.nodup.erase obj)
    (fun a ha => ?_) (((h.nodes _ w hw).remove obj).congr fun a => ?_) (fun a => ?_) _⟩
  · rw [hmem]
    refine and_iff_right fun heq => ha ?_
    rw [heq]
  · rw [hmem, and_right_comm, and_comm (a := a ∈ l)]
  · simp only [Grid.setNode, Table.find_erase, hmem, h.table]
    split_ifs <;> simp_all

theorem Grid.Inv.timers (h : g.Inv st l) (timer : ℤ) (n : ℕ) :
    ({ g with rebalance_timer := timer, unbalanced_times := n } : Grid α F).Inv st l :=
  ⟨h.nodup, h.table, h.nodes, h.there⟩

/-! ### Requests that build -/

variable [BoundedOrder F] {least greatest : F}

theorem Grid.Inv.insert (hst : st.Good least greatest) (h : g.Inv st l) (obj : α) :
    ∃ g', g.insert st obj = .ok g' ∧ g'.Inv st (l.insert obj) := by
  -- the cell before the model is put in, which may be a new one
  have hcell : ((g.nodes (st.cell obj)).getD (BIHWrap.new st)).Inv st
      fun a => a ∈ l ∧ st.cell a = st.cell obj := by
    cases hc : g.nodes (st.cell obj) with
    | none =>
      refine (BIHWrap.inv_new hst).congr fun a => iff_of_false id fun ha => ?_
      have hsome := h.there a ha.1
      rw [ha.2, hc] at hsome
      cases hsome
    | some w => exact h.nodes _ w hc
  refine ⟨_, if_pos (hst.valid obj), h.setNode h.nodup.insert (fun a ha => ?_)
    ((hcell.insert obj).congr fun a => ?_) (fun a => ?_) _⟩
  · rw [List.mem_insert_iff]
    refine or_iff_right_of_imp ?_
    rintro rfl
    exact absurd rfl ha
  · rw [List.mem_insert_iff, or_and_right]
    refine or_congr_left ⟨?_, And.left⟩
    rintro rfl
    exact ⟨rfl, rfl⟩
  · simp only [Grid.setNode, Table.find_insert, List.mem_insert_iff, h.table]
    by_cases ha : a = obj
    · simp [ha]
    · simp [ha]

variable [Finite F]

theorem Grid.Inv.balanceAt (hst : st.Good least greatest) (h : g.Inv st l)
    (c : ℤ × ℤ) : ∃ g', g.balanceAt st c = .ok g' ∧ g'.Inv st l := by
  rw [Grid.balanceAt]
  cases hc : g.nodes c with
  | none => exact ⟨g, rfl, h⟩
  | some w =>
    obtain ⟨w', hbalance, hw', -⟩ := (h.nodes c w hc).balance hst
    exact ⟨g.setNode c w', by dsimp only; rw [hbalance], h.sameModels hw'⟩

theorem Grid.Inv.balanceAll (hst : st.Good least greatest) (h : g.Inv st l)
    (cs : List (ℤ × ℤ)) : ∃ g', g.balanceAll st cs = .ok g' ∧ g'.Inv st l := by
  induction cs generalizing g with
  | nil => exact ⟨g, rfl, h⟩
  | cons c cs ih =>
    obtain ⟨g₁, hg₁, h₁⟩ := h.balanceAt hst c
    obtain ⟨g', hg', h'⟩ := ih h₁
    exact ⟨g', by rw [Grid.balanceAll, hg₁, ← hg'], h'⟩

theorem Grid.Inv.update (hst : st.Good least greatest) (h : g.Inv st l)
    (difftime : ℤ) : ∃ g', g.update st difftime = .ok g' ∧ g'.Inv st l := by
  rw [Grid.update]
  split_ifs
  · exact ⟨g, rfl, h⟩
  · exact ⟨_, rfl, h.timers _ _⟩
  · obtain ⟨g', hg', h'⟩ := (h.timers CHECK_TREE_PERIOD g.unbalanced_times).balanceAll hst cells
    exact ⟨_, by rw [hg'], h'.timers g'.rebalance_timer 0⟩
  · exact ⟨_, rfl, h.timers _ _⟩

/-- What a query at `p` should report of the models `l`: those of the cell whose box contains the
point and that its hierarchy has not lost, each once, and nothing that is not in the cell. Only a
cell of more than three models can lose some. -/
structure Reports (st : Setting α F) (l : List α) (p : Vector3 F) (g : Grid α F) (calls : List α) :
    Prop where
  nodup : calls.Nodup
  sound : ∀ a ∈ calls, a ∈ l ∧ st.cell a = st.cellAt p ∧ a ∉ g.lostAt (st.cellAt p)
  complete : ∀ a ∈ l, st.cell a = st.cellAt p → (st.getBounds a).contains p = true →
    a ∉ g.lostAt (st.cellAt p) → a ∈ calls
  crowded : ∀ a ∈ l, st.cell a = st.cellAt p → a ∈ g.lostAt (st.cellAt p) →
    3 < (l.filter fun b => st.cell b = st.cellAt p).length

theorem Grid.Inv.intersectPoint (hst : st.Good least greatest) (h : g.Inv st l)
    (hsize : 576 * l.length + 3 ≤ 2 ^ 29) (p : Vector3 F) :
    ∃ g' calls, g.intersectPoint st p = .ok (g', calls) ∧ g'.Inv st l ∧
      Reports st l p g' calls := by
  have hnone : ∀ a ∈ l, st.cell a = st.cellAt p → isValid (st.cellAt p) = true ∧
      (g.nodes (st.cellAt p)).isSome = true :=
    fun a ha hcell => hcell ▸ ⟨hst.valid a, h.there a ha⟩
  -- where there is no node, no model is missed
  have hempty : (∀ a ∈ l, st.cell a ≠ st.cellAt p) → Reports st l p g [] := fun hno =>
    ⟨List.nodup_nil, fun a ha => absurd ha List.not_mem_nil,
      fun a ha hcell => absurd hcell (hno a ha), fun a ha hcell => absurd hcell (hno a ha)⟩
  rw [Grid.intersectPoint]
  split_ifs with hvalid
  · cases hc : g.nodes (st.cellAt p) with
    | none =>
      refine ⟨g, [], rfl, h, hempty fun a ha hcell => ?_⟩
      have hsome := (hnone a ha hcell).2
      rw [hc] at hsome
      cases hsome
    | some w =>
      have hw := h.nodes _ w hc
      have hlen : w.m_objects_to_push.length ≤
          (l.filter fun b => st.cell b = st.cellAt p).length := by
        refine (hw.nodup.subperm fun a ha => ?_).length_le
        exact List.mem_filter.mpr (((hw.mem a).mp ha).imp_right decide_eq_true)
      have hle := List.length_filter_le (fun b => decide (st.cell b = st.cellAt p)) l
      obtain ⟨w', calls, hcalls, hw', hnodup, hin, hfound, hcrowded⟩ :=
        hw.intersectPoint hst (by omega) p
      have hlost : (g.setNode (st.cellAt p) w').lostAt (st.cellAt p) = w'.lost := by
        simp [Grid.lostAt, Grid.setNode]
      refine ⟨g.setNode _ w', calls, by dsimp only; rw [hcalls], h.sameModels hw', hnodup,
        fun a ha => ?_, fun a ha hcell => ?_, fun a _ _ ha => ?_⟩
      · rw [hlost]
        exact and_assoc.mp (hin a ha)
      · rw [hlost]
        exact hfound a ⟨ha, hcell⟩
      · exact (hcrowded a (hlost ▸ ha)).trans_le hlen
  · exact ⟨g, [], rfl, h, hempty fun a ha hcell => hvalid (hnone a ha hcell).1⟩

/-! ### Whole runs -/

theorem inv_exec (hst : st.Good least greatest) (h : g.Inv st l)
    (hsize : 576 * l.length + 3 ≤ 2 ^ 29) (r : Request α F) :
    ∃ g' calls, exec st g r = .ok (g', calls) ∧ g'.Inv st (liveAfter l r) := by
  cases r with
  | insert obj =>
    obtain ⟨g', hg', h'⟩ := h.insert hst obj
    exact ⟨g', [], by rw [exec, hg']; rfl, h'⟩
  | remove obj =>
    by_cases hobj : obj ∈ l
    · obtain ⟨g', hg', h'⟩ := h.remove hobj
      exact ⟨g', [], by rw [exec, if_pos ((h.contains_iff obj).mpr hobj), hg']; rfl, h'⟩
    · refine ⟨g, [], if_neg fun hc => hobj ((h.contains_iff obj).mp hc), ?_⟩
      rw [liveAfter, List.erase_of_not_mem hobj]
      exact h
  | update difftime =>
    obtain ⟨g', hg', h'⟩ := h.update hst difftime
    exact ⟨g', [], by rw [exec, hg']; rfl, h'⟩
  | query p =>
    obtain ⟨g', calls, hg', h', -⟩ := h.intersectPoint hst hsize p
    exact ⟨g', calls, hg', h'⟩

theorem inv_run (hst : st.Good least greatest) (rs : List (Request α F))
    (h : g.Inv st l)
    (hsize : ∀ n, 576 * ((rs.take n).foldl liveAfter l).length + 3 ≤ 2 ^ 29) :
    ∃ g', run st rs g = .ok g' ∧ g'.Inv st (rs.foldl liveAfter l) := by
  induction rs generalizing g l with
  | nil => exact ⟨g, rfl, h⟩
  | cons r rs ih =>
    obtain ⟨g₁, calls, hg₁, h₁⟩ := inv_exec hst h (hsize 0) r
    obtain ⟨g', hg', h'⟩ := ih h₁ fun n => hsize (n + 1)
    exact ⟨g', by rw [run, hg₁, ← hg'], h'⟩

/-- The model at the address 4 is a small cube, and all others are crates of one size in one cell. -/
def fiveModels : Setting ℕ (Fin 8) where
  arith := eightFloats
  getBounds a := if a = 4 then pebble else crate
  getPosition a := if a = 4 then pebble.lo else spot
  computeCell x := x.val
  noBounds := cube (Fin.last 7)
  rounds := 50
  levels := 64

theorem fiveModels_good : fiveModels.Good 1 6 where
  lawful := lawful_eightFloats
  within := fun a => by
    dsimp only [fiveModels]
    unfold AABox.Within
    split_ifs <;> decide
  valid := fun a => by
    by_cases ha : a = 4
    · subst ha
      decide
    · simp only [Setting.cell, fiveModels, if_neg ha]
      decide
  rounds := by simp [fiveModels]
  levels := le_rfl

/-- A crate is taken away after a query, and the tree is built again by an update. -/
def takenAway : List (Request ℕ (Fin 8)) :=
  [.insert 0, .insert 1, .insert 4, .insert 2, .insert 3, .query spot, .remove 1, .remove 1, .update 150,
    .update 150]

omit [LinearOrder F] [BoundedOrder F] [Finite F] in
theorem length_live_le (rs : List (Request α F)) : (live rs).length ≤ rs.length := by
  have hstep : ∀ (l : List α) (r : Request α F), (liveAfter l r).length ≤ l.length + 1 := by
    intro l r
    cases r with
    | insert obj =>
      by_cases hobj : obj ∈ l
      · rw [liveAfter, List.insert_of_mem hobj]
        exact Nat.le_succ _
      · rw [liveAfter, List.insert_of_not_mem hobj, List.length_cons]
    | remove obj => exact List.length_erase_le.trans (Nat.le_succ _)
    | _ => exact Nat.le_succ _
  have hall : ∀ l : List α, (rs.foldl liveAfter l).length ≤ l.length + rs.length := by
    induction rs with
    | nil => exact fun l => le_rfl
    | cons r rs ih =>
      intro l
      have hone := hstep l r
      have hrest := ih (liveAfter l r)
      rw [List.foldl_cons, List.length_cons]
      omega
  exact (hall []).trans_eq (Nat.zero_add _)

-- the crates of a cell that has four of them are all lost, and found when one of them is gone
example : (run fiveModels (takenAway.take 5) Grid.new >>= fun g =>
    exec fiveModels g (.query spot)).map Prod.snd = .ok [] := by decide +kernel

example : (run fiveModels (takenAway.take 8) Grid.new >>= fun g =>
    exec fiveModels g (.query spot)).map Prod.snd = .ok [3, 2, 0] := by decide +kernel

end FaceCore.Collision
