import FaceCore.Lib.Flags
import Mathlib.Data.List.Forall2
import Mathlib.Tactic

/-!
# Roles in the dungeon finder

`LFGMgr::CheckGroupRoles` looks for one role for each player of a group, by taking roles away from
the masks of the players until every mask is one role. The masks are changed in place; a role that
was taken away in vain is given back.

* `checkGroupRoles`: the recursion of the source, which leaves the roles it found in the masks;
* `Reduces`, `Fits`: what is left of masks, and what the recursion stops at;
* `checkGroupRoles_spec`: it stops there whenever it can, and leaves the masks as they are otherwise;
* `Chosen`, `Satisfiable`: what is looked for, and `checkGroupRoles_iff`, that it is found.

The number of players is compared in eight bits.
-/

namespace FaceCore.DungeonFinding

/-! ### The masks -/

def playerRoleLeader : UInt8 := 0x01
def playerRoleTank : UInt8 := 0x02
def playerRoleHealer : UInt8 := 0x04
def playerRoleDamage : UInt8 := 0x08

def lfgTanksNeeded : ℕ := 1
def lfgHealersNeeded : ℕ := 1
def lfgDpsNeeded : ℕ := 3

/-- The part of the loop of `CheckGroupRoles` for one role of the player `i`: the result of the
function, or the masks and the new number of players with this role and no other. `again` is the
recursive call. -/
def tryRole (again : List UInt8 → Bool × List UInt8) (role : UInt8) (needed i : ℕ)
    (groles : List UInt8) (count : ℕ) : Except (Bool × List UInt8) (List UInt8 × ℕ) :=
  let mask := groles.getD i 0
  if mask &&& role = 0 then .ok (groles, count)
  else if mask ≠ role then
    let found := again (groles.set i (mask - role))
    if found.1 then .error found
    else .ok (found.2.set i (found.2.getD i 0 + role), count)
  else if count = needed then .error (false, groles)
  else .ok (groles, count + 1)

/-- The loop of `CheckGroupRoles` over the players. -/
def checkPlayers (again : List UInt8 → Bool × List UInt8) :
    List ℕ → List UInt8 → ℕ → ℕ → ℕ → Bool × List UInt8
  | [], groles, damage, healer, tank => (tank + healer + damage = groles.length % 2 ^ 8, groles)
  | i :: is, groles, damage, healer, tank =>
    if groles.getD i 0 = 0 then (false, groles)
    else
      match tryRole again playerRoleDamage lfgDpsNeeded i groles damage with
      | .error found => found
      | .ok (groles, damage) =>
        match tryRole again playerRoleHealer lfgHealersNeeded i groles healer with
        | .error found => found
        | .ok (groles, healer) =>
          match tryRole again playerRoleTank lfgTanksNeeded i groles tank with
          | .error found => found
          | .ok (groles, tank) => checkPlayers again is groles damage healer tank

/-- `CheckGroupRoles` after the flag of the leader is removed, with the depth of the recursion. -/
def checkRoles : ℕ → List UInt8 → Bool × List UInt8
  | 0, groles => (false, groles)
  | depth + 1, groles =>
    if groles = [] then (false, groles)
    else checkPlayers (checkRoles depth) (List.range groles.length) groles 0 0 0

/-- `LFGMgr::CheckGroupRoles`: every level of the recursion takes one role away. -/
def checkGroupRoles (groles : List UInt8) : Bool × List UInt8 :=
  checkRoles (3 * groles.length + 1) (groles.map (· &&& ~~~playerRoleLeader))

/-! ### One mask -/

/-- A role that a player can have. -/
def IsRole (role : UInt8) : Prop :=
  role = playerRoleTank ∨ role = playerRoleHealer ∨ role = playerRoleDamage

/-- A fact about all masks can be tried out. -/
instance decidableForallUInt8 {P : UInt8 → Prop} [DecidablePred P] : Decidable (∀ m, P m) :=
  decidable_of_iff (∀ i : Fin 256, P (UInt8.ofFin i)) ⟨fun h m => h m.toFin, fun h _ => h _⟩

theorem IsRole.ne_zero {r : UInt8} (hr : IsRole r) : r ≠ 0 := by
  rcases hr with rfl | rfl | rfl <;> decide

theorem IsRole.and_rest {r : UInt8} (hr : IsRole r) : r &&& 0xF1 = 0 := by
  rcases hr with rfl | rfl | rfl <;> decide

theorem IsRole.and_self {r : UInt8} (hr : IsRole r) : r &&& r ≠ 0 := by
  rcases hr with rfl | rfl | rfl <;> decide

theorem sub_role {r : UInt8} (hr : IsRole r) {m : UInt8} : m &&& r ≠ 0 →
    m - r &&& m = m - r ∧ (m - r) &&& 0xF1 = m &&& 0xF1 ∧ (m - r) &&& r = 0 ∧ m - r + r = m := by
  revert m
  rcases hr with rfl | rfl | rfl <;> decide +kernel

theorem sub_role_eq {r : UInt8} (hr : IsRole r) {m : UInt8} : m &&& r ≠ 0 → m - r = m &&& ~~~r := by
  revert m
  rcases hr with rfl | rfl | rfl <;> decide +kernel

theorem and_sub_role {r m x : UInt8} (hr : IsRole r) (hm : m &&& r ≠ 0) (hx : x &&& m = x)
    (hxr : x &&& r = 0) : x &&& (m - r) = x := by
  rw [sub_role_eq hr hm, ← UInt8.and_assoc, hx, Flags.and_not_eq_self_iff]
  exact hxr

theorem IsRole.and_eq_self {r : UInt8} (hr : IsRole r) {m : UInt8} : m &&& r ≠ 0 → m &&& r = r := by
  revert m
  rcases hr with rfl | rfl | rfl <;> decide +kernel

theorem eq_parts (m : UInt8) : m = (m &&& 0xF1) ||| (m &&& playerRoleTank) |||
    (m &&& playerRoleHealer) ||| (m &&& playerRoleDamage) := by
  revert m
  decide +kernel

theorem exists_role_of_ne {m m' : UInt8} (hkept : m' &&& m = m') (hrest : m' &&& 0xF1 = m &&& 0xF1)
    (hne : m' ≠ m) : ∃ r, IsRole r ∧ m &&& r ≠ 0 ∧ m' &&& r = 0 := by
  by_contra hnone
  have hsame : ∀ r, IsRole r → m' &&& r = m &&& r := by
    intro r hr
    by_cases hm : m &&& r = 0
    · rw [← hkept, UInt8.and_assoc, hm, UInt8.and_zero]
    · have hm' : m' &&& r ≠ 0 := fun hzero => hnone ⟨r, hr, hm, hzero⟩
      rw [hr.and_eq_self hm, hr.and_eq_self hm']
  refine hne ?_
  rw [eq_parts m', eq_parts m, hrest, hsame _ (.inl rfl), hsame _ (.inr (.inl rfl)),
    hsame _ (.inr (.inr rfl))]

/-- The number of roles in a mask. -/
def weight (m : UInt8) : ℕ :=
  (m &&& playerRoleTank ≠ 0 : Bool).toNat + (m &&& playerRoleHealer ≠ 0 : Bool).toNat +
    (m &&& playerRoleDamage ≠ 0 : Bool).toNat

theorem weight_sub_role {r : UInt8} (hr : IsRole r) {m : UInt8} :
    m &&& r ≠ 0 → weight (m - r) < weight m := by
  revert m
  rcases hr with rfl | rfl | rfl <;> decide +kernel

theorem weight_le (m : UInt8) : weight m ≤ 3 := by
  unfold weight
  have := Bool.toNat_le (m &&& playerRoleTank ≠ 0 : Bool)
  have := Bool.toNat_le (m &&& playerRoleHealer ≠ 0 : Bool)
  have := Bool.toNat_le (m &&& playerRoleDamage ≠ 0 : Bool)
  omega

/-! ### One player -/

theorem getD_set {l : List UInt8} {i : ℕ} (hi : i < l.length) (m : UInt8) (j : ℕ) :
    (l.set i m).getD j 0 = if i = j then m else l.getD j 0 := by
  rw [List.getD_eq_getElem?_getD, List.getElem?_set, List.getD_eq_getElem?_getD]
  split_ifs with hij
  · subst hij
    rfl
  · rfl

theorem set_getD {l : List UInt8} {i : ℕ} (hi : i < l.length) : l.set i (l.getD i 0) = l := by
  rw [List.getD_eq_getElem?_getD, List.getElem?_eq_getElem hi, Option.getD_some, List.set_getElem_self]

/-- A call that finds nothing leaves the masks as they are. -/
def Restores (f : List UInt8 → Bool × List UInt8) : Prop := ∀ l, (f l).1 = false → (f l).2 = l

section

variable {again : List UInt8 → Bool × List UInt8} {role : UInt8} {needed i count : ℕ}
  {groles : List UInt8}

/-- How the counter of a role goes on after a player with the mask. -/
structure Counts (role : UInt8) (needed : ℕ) (mask : UInt8) (count count' : ℕ) : Prop where
  count_eq : count' = count + if mask = role then 1 else 0
  notFull : mask = role → count ≠ needed

/-- What happens for one role of one player: what the recursion finds without it, or a failure
because there are enough players with this role alone, or the counter goes on. -/
theorem tryRole_cases (needed count : ℕ) (hagain : Restores again) (hrole : IsRole role) (hi : i < groles.length) :
    (groles.getD i 0 &&& role ≠ 0 ∧ (again (groles.set i (groles.getD i 0 - role))).1 = true ∧
        tryRole again role needed i groles count =
          .error (again (groles.set i (groles.getD i 0 - role)))) ∨
      (groles.getD i 0 = role ∧ count = needed ∧
        tryRole again role needed i groles count = .error (false, groles)) ∨
      ∃ count', Counts role needed (groles.getD i 0) count count' ∧
        tryRole again role needed i groles count = .ok (groles, count') ∧
        (groles.getD i 0 &&& role ≠ 0 → groles.getD i 0 ≠ role →
          (again (groles.set i (groles.getD i 0 - role))).1 = false) := by
  unfold tryRole
  dsimp only
  by_cases hnone : groles.getD i 0 &&& role = 0
  · have hne : groles.getD i 0 ≠ role := by
      intro heq
      rw [heq] at hnone
      exact hrole.and_self hnone
    refine .inr (.inr ⟨count, ⟨by rw [if_neg hne, Nat.add_zero], fun h => absurd h hne⟩, by rw [if_pos hnone], ?_⟩)
    exact fun h => absurd hnone h
  rw [if_neg hnone]
  by_cases hmulti : groles.getD i 0 = role
  · rw [if_neg (not_not.2 hmulti)]
    by_cases hfull : count = needed
    · exact .inr (.inl ⟨hmulti, hfull, by rw [if_pos hfull]⟩)
    · refine .inr (.inr ⟨count + 1, ⟨by rw [if_pos hmulti], fun _ => hfull⟩, by rw [if_neg hfull], ?_⟩)
      exact fun _ h => absurd hmulti h
  · rw [if_pos hmulti]
    cases hfound : (again (groles.set i (groles.getD i 0 - role))).1 with
    | true => exact .inl ⟨hnone, rfl, by rw [if_pos rfl]⟩
    | false =>
      -- the role is given back to masks that the recursion has left alone
      have hback : ((groles.set i (groles.getD i 0 - role)).set i
          ((groles.set i (groles.getD i 0 - role)).getD i 0 + role)) = groles := by
        rw [getD_set hi, if_pos rfl, (sub_role hrole hnone).2.2.2, List.set_set, set_getD hi]
      refine .inr (.inr ⟨count, ⟨by rw [if_neg hmulti, Nat.add_zero], fun h => absurd h hmulti⟩, ?_, fun _ _ => rfl⟩)
      rw [hagain _ hfound, hback]
      simp

end

/-! ### The loop -/

section

variable {again : List UInt8 → Bool × List UInt8} {i : ℕ} {is : List ℕ} {groles : List UInt8}
  {damage healer tank : ℕ}

/-- One turn of the loop: what the recursion finds, or a failure, or the next player when no role
can be taken away from this one. -/
theorem checkPlayers_cons (is : List ℕ) (damage healer tank : ℕ) (hagain : Restores again) (hi : i < groles.length) :
    (∃ role, IsRole role ∧ groles.getD i 0 &&& role ≠ 0 ∧
        (again (groles.set i (groles.getD i 0 - role))).1 = true ∧
        checkPlayers again (i :: is) groles damage healer tank =
          again (groles.set i (groles.getD i 0 - role))) ∨
      (checkPlayers again (i :: is) groles damage healer tank = (false, groles) ∧
        (groles.getD i 0 = 0 ∨ (groles.getD i 0 = playerRoleDamage ∧ damage = lfgDpsNeeded) ∨
          (groles.getD i 0 = playerRoleHealer ∧ healer = lfgHealersNeeded) ∨
          (groles.getD i 0 = playerRoleTank ∧ tank = lfgTanksNeeded))) ∨
      (groles.getD i 0 ≠ 0 ∧ ∃ damage' healer' tank',
        Counts playerRoleDamage lfgDpsNeeded (groles.getD i 0) damage damage' ∧
        Counts playerRoleHealer lfgHealersNeeded (groles.getD i 0) healer healer' ∧
        Counts playerRoleTank lfgTanksNeeded (groles.getD i 0) tank tank' ∧
        checkPlayers again (i :: is) groles damage healer tank =
          checkPlayers again is groles damage' healer' tank' ∧
        ∀ role, IsRole role → groles.getD i 0 &&& role ≠ 0 → groles.getD i 0 ≠ role →
          (again (groles.set i (groles.getD i 0 - role))).1 = false) := by
  rw [checkPlayers]
  by_cases hzero : groles.getD i 0 = 0
  · exact .inr (.inl ⟨by rw [if_pos hzero], .inl hzero⟩)
  rw [if_neg hzero]
  rcases tryRole_cases lfgDpsNeeded damage hagain (.inr (.inr rfl)) hi with
    ⟨hmask, htrue, hd⟩ | ⟨hmask, hfull, hd⟩ | ⟨damage', hdamage, hd, hdfalse⟩
  · exact .inl ⟨_, .inr (.inr rfl), hmask, htrue, by rw [hd]⟩
  · exact .inr (.inl ⟨by rw [hd], .inr (.inl ⟨hmask, hfull⟩)⟩)
  rw [hd]
  rcases tryRole_cases lfgHealersNeeded healer hagain (.inr (.inl rfl)) hi with
    ⟨hmask, htrue, hh⟩ | ⟨hmask, hfull, hh⟩ | ⟨healer', hhealer, hh, hhfalse⟩
  · exact .inl ⟨_, .inr (.inl rfl), hmask, htrue, by dsimp only; rw [hh]⟩
  · exact .inr (.inl ⟨by dsimp only; rw [hh], .inr (.inr (.inl ⟨hmask, hfull⟩))⟩)
  dsimp only
  rw [hh]
  rcases tryRole_cases lfgTanksNeeded tank hagain (.inl rfl) hi with
    ⟨hmask, htrue, ht⟩ | ⟨hmask, hfull, ht⟩ | ⟨tank', htank, ht, htfalse⟩
  · exact .inl ⟨_, .inl rfl, hmask, htrue, by dsimp only; rw [ht]⟩
  · exact .inr (.inl ⟨by dsimp only; rw [ht], .inr (.inr (.inr ⟨hmask, hfull⟩))⟩)
  refine .inr (.inr ⟨hzero, damage', healer', tank', hdamage, hhealer, htank, ?_, ?_⟩)
  · dsimp only
    rw [ht]
  · rintro role (rfl | rfl | rfl)
    exacts [htfalse, hhfalse, hdfalse]

theorem checkPlayers_restores (hagain : Restores again) (his : ∀ i ∈ is, i < groles.length)
    (h : (checkPlayers again is groles damage healer tank).1 = false) :
    (checkPlayers again is groles damage healer tank).2 = groles := by
  induction is generalizing damage healer tank with
  | nil => rfl
  | cons i is ih =>
    obtain ⟨hi, his⟩ := List.forall_mem_cons.1 his
    rcases checkPlayers_cons is damage healer tank
      hagain hi with ⟨role, -, -, htrue, heq⟩ | ⟨heq, -⟩ | ⟨-, _, _, _, -, -, -, heq, -⟩
    · rw [heq, htrue] at h
      cases h
    · rw [heq]
    · rw [heq] at h ⊢
      exact ih his h

end

theorem checkRoles_restores (depth : ℕ) : Restores (checkRoles depth) := by
  induction depth with
  | zero => exact fun _ _ => rfl
  | succ depth ih =>
    intro l h
    rw [checkRoles] at h ⊢
    split_ifs at h ⊢
    · rfl
    · exact checkPlayers_restores ih (fun i hi => List.mem_range.1 hi) h

/-! ### What the recursion stops at -/

/-- Every player keeps something of his mask, and loses nothing but roles. -/
structure Reduces (masks masks' : List UInt8) : Prop where
  length : masks'.length = masks.length
  ne_zero : ∀ i < masks.length, masks'.getD i 0 ≠ 0
  kept : ∀ i < masks.length, masks'.getD i 0 &&& masks.getD i 0 = masks'.getD i 0
  rest : ∀ i < masks.length, masks'.getD i 0 &&& 0xF1 = masks.getD i 0 &&& 0xF1

/-- So many players have one role alone, not more of each role than are needed. -/
structure Fits (k : ℕ) (masks : List UInt8) : Prop where
  total : masks.count playerRoleTank + masks.count playerRoleHealer +
    masks.count playerRoleDamage = k
  tank_le : masks.count playerRoleTank ≤ lfgTanksNeeded
  healer_le : masks.count playerRoleHealer ≤ lfgHealersNeeded
  damage_le : masks.count playerRoleDamage ≤ lfgDpsNeeded

section

variable {masks masks' : List UInt8} {i : ℕ} {role : UInt8}

theorem Reduces.refl (h : ∀ i < masks.length, masks.getD i 0 ≠ 0) : Reduces masks masks :=
  ⟨rfl, h, fun _ _ => UInt8.and_self, fun _ _ => rfl⟩

theorem Reduces.of_set (hrole : IsRole role) (hi : i < masks.length)
    (hmask : masks.getD i 0 &&& role ≠ 0)
    (h : Reduces (masks.set i (masks.getD i 0 - role)) masks') : Reduces masks masks' := by
  have hlen : (masks.set i (masks.getD i 0 - role)).length = masks.length := List.length_set
  obtain ⟨hkept, hrest, -, -⟩ := sub_role hrole hmask
  refine ⟨h.length.trans hlen, fun j hj => h.ne_zero j (hlen ▸ hj), fun j hj => ?_, fun j hj => ?_⟩
  · have hj' := h.kept j (hlen ▸ hj)
    rw [getD_set hi] at hj'
    split_ifs at hj' with hij
    · subst hij
      rw [← hj', UInt8.and_assoc, hkept]
    · exact hj'
  · have hj' := h.rest j (hlen ▸ hj)
    rw [getD_set hi] at hj'
    split_ifs at hj' with hij
    · subst hij
      exact hj'.trans hrest
    · exact hj'

theorem Reduces.set (hrole : IsRole role) (hi : i < masks.length)
    (hmask : masks.getD i 0 &&& role ≠ 0) (hnot : masks'.getD i 0 &&& role = 0)
    (h : Reduces masks masks') : Reduces (masks.set i (masks.getD i 0 - role)) masks' := by
  have hlen : (masks.set i (masks.getD i 0 - role)).length = masks.length := List.length_set
  refine ⟨h.length.trans hlen.symm, fun j hj => h.ne_zero j (hlen ▸ hj), fun j hj => ?_,
    fun j hj => ?_⟩
  · rw [getD_set hi]
    split_ifs with hij
    · subst hij
      exact and_sub_role hrole hmask (h.kept i hi) hnot
    · exact h.kept j (hlen ▸ hj)
  · rw [getD_set hi]
    split_ifs with hij
    · subst hij
      rw [(sub_role hrole hmask).2.1]
      exact h.rest i hi
    · exact h.rest j (hlen ▸ hj)

/-- The number of roles in all masks. -/
def weights (masks : List UInt8) : ℕ := (masks.map weight).sum

theorem weights_set (hrole : IsRole role) (hi : i < masks.length)
    (hmask : masks.getD i 0 &&& role ≠ 0) :
    weights (masks.set i (masks.getD i 0 - role)) < weights masks := by
  have hless := weight_sub_role hrole hmask
  have hget : masks.getD i 0 = masks[i] := by
    rw [List.getD_eq_getElem?_getD, List.getElem?_eq_getElem hi, Option.getD_some]
  rw [hget] at hless ⊢
  have hsplit : masks = masks.take i ++ masks[i] :: masks.drop (i + 1) := by
    rw [List.getElem_cons_drop, List.take_append_drop]
  have hsum : weights masks = ((masks.take i).map weight).sum + (weight masks[i] +
      ((masks.drop (i + 1)).map weight).sum) := by
    conv_lhs => rw [weights, hsplit]
    rw [List.map_append, List.map_cons, List.sum_append, List.sum_cons]
  have hset : weights (masks.set i (masks[i] - role)) = ((masks.take i).map weight).sum +
      (weight (masks[i] - role) + ((masks.drop (i + 1)).map weight).sum) := by
    rw [weights, List.set_eq_take_append_cons_drop, if_pos hi, List.map_append, List.map_cons,
      List.sum_append, List.sum_cons]
  omega

theorem weights_le (masks : List UInt8) : weights masks ≤ 3 * masks.length := by
  induction masks with
  | nil => exact Nat.le_refl 0
  | cons m masks ih =>
    have hm := weight_le m
    rw [weights, List.map_cons, List.sum_cons, ← weights, List.length_cons]
    omega

end

/-- The counters of the loop: the players so far that have this role and no other. -/
structure Counted (before : List UInt8) (damage healer tank : ℕ) : Prop where
  damage_eq : damage = before.count playerRoleDamage
  healer_eq : healer = before.count playerRoleHealer
  tank_eq : tank = before.count playerRoleTank
  damage_le : damage ≤ lfgDpsNeeded
  healer_le : healer ≤ lfgHealersNeeded
  tank_le : tank ≤ lfgTanksNeeded

theorem counted_nil : Counted [] 0 0 0 := ⟨rfl, rfl, rfl, by decide, by decide, by decide⟩

section

variable {again : List UInt8 → Bool × List UInt8} {groles masks' : List UInt8} {i m : ℕ}
  {damage healer tank damage' healer' tank' : ℕ}

theorem Counts.next {before : List UInt8} {role mask : UInt8} {needed count count' : ℕ}
    (h : Counts role needed mask count count') (hcount : count = before.count role)
    (hle : count ≤ needed) : count' = (before ++ [mask]).count role ∧ count' ≤ needed := by
  obtain ⟨rfl, hfull⟩ := h
  rw [List.count_append, List.count_singleton, ← hcount]
  by_cases heq : mask = role
  · have hne := hfull heq
    rw [if_pos heq, if_pos (beq_iff_eq.2 heq)]
    omega
  · simp [heq, hle]

theorem Counted.next {before : List UInt8} {mask : UInt8} (h : Counted before damage healer tank)
    (hd : Counts playerRoleDamage lfgDpsNeeded mask damage damage')
    (hh : Counts playerRoleHealer lfgHealersNeeded mask healer healer')
    (ht : Counts playerRoleTank lfgTanksNeeded mask tank tank') :
    Counted (before ++ [mask]) damage' healer' tank' := by
  have hdamage := hd.next h.damage_eq h.damage_le
  have hhealer := hh.next h.healer_eq h.healer_le
  have htank := ht.next h.tank_eq h.tank_le
  exact ⟨hdamage.1, hhealer.1, htank.1, hdamage.2, hhealer.2, htank.2⟩

theorem take_succ_getD (hi : i < groles.length) :
    groles.take (i + 1) = groles.take i ++ [groles.getD i 0] := by
  rw [List.take_succ_eq_append_getElem hi, List.getD_eq_getElem?_getD, List.getElem?_eq_getElem hi,
    Option.getD_some]

theorem checkPlayers_sound (hrestores : Restores again)
    (hagain : ∀ l, (again l).1 = true → Reduces l (again l).2 ∧ Fits (l.length % 2 ^ 8) (again l).2)
    (hm : i + m = groles.length) (hc : Counted (groles.take i) damage healer tank)
    (hne : ∀ j < i, groles.getD j 0 ≠ 0)
    (h : (checkPlayers again (List.range' i m) groles damage healer tank).1 = true) :
    Reduces groles (checkPlayers again (List.range' i m) groles damage healer tank).2 ∧
      Fits (groles.length % 2 ^ 8)
        (checkPlayers again (List.range' i m) groles damage healer tank).2 := by
  induction m generalizing i damage healer tank with
  | zero =>
    rw [Nat.add_zero] at hm
    subst hm
    rw [List.take_length] at hc
    have hsum : tank + healer + damage = groles.length % 2 ^ 8 := decide_eq_true_iff.1 h
    obtain ⟨rfl, rfl, rfl, hd, hh, ht⟩ := hc
    exact ⟨.refl hne, hsum, ht, hh, hd⟩
  | succ m ih =>
    have hi : i < groles.length := by omega
    rw [List.range'_succ] at h ⊢
    rcases checkPlayers_cons (List.range' (i + 1) m) damage healer tank
      hrestores hi with ⟨role, hrole, hmask, htrue, heq⟩ | ⟨heq, -⟩ |
        ⟨hzero, damage', healer', tank', hd, hh, ht, heq, -⟩
    · obtain ⟨hreduces, hfits⟩ := hagain _ htrue
      rw [List.length_set] at hfits
      rw [heq]
      exact ⟨hreduces.of_set hrole hi hmask, hfits⟩
    · rw [heq] at h
      cases h
    · rw [heq] at h ⊢
      refine ih (by omega) ?_ (fun j hj => ?_) h
      · rw [take_succ_getD hi]
        exact hc.next hd hh ht
      · rcases Nat.lt_succ_iff_lt_or_eq.1 hj with hlt | rfl
        · exact hne j hlt
        · exact hzero

/-- The loop stops at masks that are left of the given ones and fit, if there are some. -/
theorem checkPlayers_complete (hrestores : Restores again) (hreduces : Reduces groles masks')
    (hfits : Fits (groles.length % 2 ^ 8) masks')
    (hagain : ∀ l, Reduces l masks' → weights l < weights groles → l.length = groles.length →
      (again l).1 = true)
    (hm : i + m = groles.length) (hc : Counted (groles.take i) damage healer tank)
    (hsame : groles.take i = masks'.take i) :
    (checkPlayers again (List.range' i m) groles damage healer tank).1 = true := by
  induction m generalizing i damage healer tank with
  | zero =>
    rw [Nat.add_zero] at hm
    have hall : groles = masks' := by
      rw [hm, List.take_length] at hsame
      rw [hsame, ← hreduces.length, List.take_length]
    subst hall
    rw [hm, List.take_length] at hc
    obtain ⟨rfl, rfl, rfl, -, -, -⟩ := hc
    exact decide_eq_true hfits.total
  | succ m ih =>
    have hi : i < groles.length := by omega
    have hi' : i < masks'.length := by rw [hreduces.length]; exact hi
    have hmask' := hreduces.ne_zero i hi
    have hkept := hreduces.kept i hi
    -- a player with one role is among those who have it in the end
    have hroom : ∀ {role : UInt8} {count needed : ℕ}, IsRole role → groles.getD i 0 = role →
        count = (groles.take i).count role → masks'.count role ≤ needed → count ≠ needed := by
      intro role count needed hrole heq hcount hle
      have hown : masks'.getD i 0 = role := by
        rw [heq] at hkept
        rw [← hkept]
        exact hrole.and_eq_self fun hzero => hmask' (by rw [← hkept, hzero])
      have hmore := (List.take_sublist (i + 1) masks').count_le role
      rw [take_succ_getD hi', ← hsame, List.count_append, hown, List.count_singleton_self] at hmore
      omega
    rw [List.range'_succ]
    rcases checkPlayers_cons (List.range' (i + 1) m) damage healer tank
      hrestores hi with ⟨role, hrole, hmask, htrue, heq⟩ | ⟨heq, hwhy⟩ |
        ⟨hzero, damage', healer', tank', hd, hh, ht, heq, hnot⟩
    · rw [heq]
      exact htrue
    · rcases hwhy with hz | ⟨hmask, hfull⟩ | ⟨hmask, hfull⟩ | ⟨hmask, hfull⟩
      · rw [hz, UInt8.and_zero] at hkept
        exact absurd hkept.symm hmask'
      · exact absurd hfull (hroom (.inr (.inr rfl)) hmask hc.damage_eq hfits.damage_le)
      · exact absurd hfull (hroom (.inr (.inl rfl)) hmask hc.healer_eq hfits.healer_le)
      · exact absurd hfull (hroom (.inl rfl) hmask hc.tank_eq hfits.tank_le)
    · by_cases hmask : masks'.getD i 0 = groles.getD i 0
      · rw [heq]
        refine ih (by omega) ?_ ?_
        · rw [take_succ_getD hi]
          exact hc.next hd hh ht
        · rw [take_succ_getD hi, take_succ_getD hi', hsame, hmask]
      · -- a role that is not left in the end can be taken away
        obtain ⟨role, hrole, hin, hout⟩ := exists_role_of_ne hkept (hreduces.rest i hi) hmask
        have hne : groles.getD i 0 ≠ role := by
          intro hown
          rw [hown] at hkept
          exact hmask' (by rw [← hkept, hout])
        have htrue := hagain _ (hreduces.set hrole hi hin hout) (weights_set hrole hi hin)
          List.length_set
        rw [hnot role hrole hin hne] at htrue
        cases htrue

end

theorem checkRoles_sound (depth : ℕ) {masks : List UInt8} (h : (checkRoles depth masks).1 = true) :
    Reduces masks (checkRoles depth masks).2 ∧
      Fits (masks.length % 2 ^ 8) (checkRoles depth masks).2 := by
  induction depth generalizing masks with
  | zero => cases h
  | succ depth ih =>
    rw [checkRoles] at h ⊢
    split_ifs at h ⊢
    rw [List.range_eq_range'] at h ⊢
    exact checkPlayers_sound (checkRoles_restores depth) (fun _ => ih) (Nat.zero_add _) counted_nil
      nofun h

theorem checkRoles_complete {depth : ℕ} {masks masks' : List UInt8} (hne : masks ≠ [])
    (hreduces : Reduces masks masks') (hfits : Fits (masks.length % 2 ^ 8) masks')
    (hdepth : weights masks < depth) : (checkRoles depth masks).1 = true := by
  induction depth generalizing masks with
  | zero => omega
  | succ depth ih =>
    rw [checkRoles, if_neg hne, List.range_eq_range']
    refine checkPlayers_complete (checkRoles_restores depth) hreduces hfits
      (fun l hl hless hlen => ih ?_ hl (hlen ▸ hfits) (by omega)) (Nat.zero_add _) counted_nil rfl
    rintro rfl
    exact hne (List.length_eq_zero_iff.1 hlen.symm)

/-- `CheckGroupRoles` succeeds exactly if something is left of the masks that fits, with as many
players of one role as there are players in eight bits; it leaves this in the masks then, and
otherwise changes nothing but the flag of the leader. -/
theorem checkGroupRoles_spec {masks : List UInt8} (hne : masks ≠ []) :
    ((checkGroupRoles masks).1 = true ↔
        ∃ masks', Reduces (masks.map (· &&& ~~~playerRoleLeader)) masks' ∧
          Fits (masks.length % 2 ^ 8) masks') ∧
      ((checkGroupRoles masks).1 = true →
        Reduces (masks.map (· &&& ~~~playerRoleLeader)) (checkGroupRoles masks).2 ∧
          Fits (masks.length % 2 ^ 8) (checkGroupRoles masks).2) ∧
      ((checkGroupRoles masks).1 = false →
        (checkGroupRoles masks).2 = masks.map (· &&& ~~~playerRoleLeader)) := by
  have hlen : (masks.map (· &&& ~~~playerRoleLeader)).length = masks.length := List.length_map _
  have hsound := @checkRoles_sound (3 * masks.length + 1) (masks.map (· &&& ~~~playerRoleLeader))
  rw [hlen] at hsound
  refine ⟨⟨fun h => ⟨_, hsound h⟩, ?_⟩, hsound, checkRoles_restores _ _⟩
  rintro ⟨masks', hreduces, hfits⟩
  have hle := weights_le (masks.map (· &&& ~~~playerRoleLeader))
  rw [hlen] at hle
  exact checkRoles_complete (by simpa using hne) hreduces (hlen ▸ hfits) (by omega)

/-! ### What is looked for -/

/-- One role for each mask, not more of each than are needed. -/
def Chosen (masks roles : List UInt8) : Prop :=
  List.Forall₂ (fun mask role => IsRole role ∧ mask &&& role ≠ 0) masks roles ∧
    roles.count playerRoleTank ≤ lfgTanksNeeded ∧ roles.count playerRoleHealer ≤ lfgHealersNeeded ∧
    roles.count playerRoleDamage ≤ lfgDpsNeeded

/-- The roles of a group can be chosen from the masks of its players. -/
def Satisfiable (masks : List UInt8) : Prop := ∃ roles, Chosen masks roles

/-- The masks have no flags but those of the three roles. -/
def OnlyRoles (masks : List UInt8) : Prop := ∀ m ∈ masks, m &&& 0xF1 = 0

/-- If the counters are the number of players, every player has one role. -/
theorem isRole_of_counts {masks : List UInt8} :
    masks.count playerRoleTank + masks.count playerRoleHealer + masks.count playerRoleDamage ≤
        masks.length ∧
      (masks.count playerRoleTank + masks.count playerRoleHealer + masks.count playerRoleDamage =
        masks.length ↔ ∀ m ∈ masks, IsRole m) := by
  induction masks with
  | nil => simp
  | cons m masks ih =>
    obtain ⟨hle, hall⟩ := ih
    by_cases hm : IsRole m
    · have hone : (m :: masks).count playerRoleTank + (m :: masks).count playerRoleHealer +
          (m :: masks).count playerRoleDamage = masks.count playerRoleTank +
            masks.count playerRoleHealer + masks.count playerRoleDamage + 1 := by
        rcases hm with rfl | rfl | rfl <;>
          simp [playerRoleTank, playerRoleHealer, playerRoleDamage] <;> omega
      rw [hone, List.length_cons, List.forall_mem_cons, ← hall]
      exact ⟨by omega, fun heq => ⟨hm, by omega⟩, fun heq => by omega⟩
    · have htank : m ≠ playerRoleTank := fun h => hm (.inl h)
      have hhealer : m ≠ playerRoleHealer := fun h => hm (.inr (.inl h))
      have hdamage : m ≠ playerRoleDamage := fun h => hm (.inr (.inr h))
      rw [List.count_cons_of_ne htank, List.count_cons_of_ne hhealer,
        List.count_cons_of_ne hdamage, List.length_cons, List.forall_mem_cons]
      exact ⟨by omega, fun heq => by omega, fun heq => absurd heq.1 hm⟩

section

variable {masks roles : List UInt8}

theorem mem_getD {l : List UInt8} {i : ℕ} (hi : i < l.length) : l.getD i 0 ∈ l := by
  rw [List.getD_eq_getElem?_getD, List.getElem?_eq_getElem hi, Option.getD_some]
  exact List.getElem_mem hi

/-- If every player is left with one role, his mask had nothing but roles. -/
theorem Reduces.onlyRoles (h : Reduces masks roles) (hfits : Fits masks.length roles) :
    (∀ r ∈ roles, IsRole r) ∧ OnlyRoles masks := by
  have hroles : ∀ r ∈ roles, IsRole r := isRole_of_counts.2.1 (hfits.total.trans h.length.symm)
  refine ⟨hroles, fun m hm => ?_⟩
  obtain ⟨i, hi, rfl⟩ := List.getElem_of_mem hm
  have hrest := h.rest i hi
  rw [(hroles _ (mem_getD (h.length ▸ hi))).and_rest, List.getD_eq_getElem?_getD,
    List.getElem?_eq_getElem hi, Option.getD_some] at hrest
  exact hrest.symm

/-- A choice is what is left of the masks when every player has one role. -/
theorem chosen_iff (honly : OnlyRoles masks) :
    Chosen masks roles ↔ Reduces masks roles ∧ Fits masks.length roles := by
  constructor
  · rintro ⟨hall, htank, hhealer, hdamage⟩
    obtain ⟨hlen, hget⟩ := List.forall₂_iff_get.1 hall
    have hat : ∀ i < masks.length, IsRole (roles.getD i 0) ∧
        masks.getD i 0 &&& roles.getD i 0 ≠ 0 := by
      intro i hi
      have hi' : i < roles.length := hlen ▸ hi
      simpa [List.getD_eq_getElem?_getD, hi, hi'] using hget i hi hi'
    refine ⟨⟨hlen.symm, fun i hi => (hat i hi).1.ne_zero, fun i hi => ?_, fun i hi => ?_⟩,
      ?_, htank, hhealer, hdamage⟩
    · rw [UInt8.and_comm]
      exact (hat i hi).1.and_eq_self (hat i hi).2
    · rw [(hat i hi).1.and_rest, honly _ (mem_getD hi)]
    · rw [hlen]
      refine isRole_of_counts.2.2 fun r hr => ?_
      obtain ⟨i, hi, rfl⟩ := List.getElem_of_mem hr
      have hrole := (hat i (hlen ▸ hi)).1
      rwa [List.getD_eq_getElem?_getD, List.getElem?_eq_getElem hi, Option.getD_some] at hrole
  · rintro ⟨hreduces, hfits⟩
    refine ⟨List.forall₂_iff_get.2 ⟨hreduces.length.symm, fun i hi hi' => ?_⟩, hfits.tank_le,
      hfits.healer_le, hfits.damage_le⟩
    have hrole := (hreduces.onlyRoles hfits).1 _ (List.getElem_mem hi')
    have hkept := hreduces.kept i hi
    rw [List.getD_eq_getElem?_getD, List.getElem?_eq_getElem hi', List.getD_eq_getElem?_getD,
      List.getElem?_eq_getElem hi, Option.getD_some, Option.getD_some] at hkept
    refine ⟨hrole, fun hzero => hrole.ne_zero ?_⟩
    rw [List.get_eq_getElem, List.get_eq_getElem, UInt8.and_comm] at hzero
    exact hkept.symm.trans hzero

theorem chosen_map_leader :
    Chosen (masks.map (· &&& ~~~playerRoleLeader)) roles ↔ Chosen masks roles := by
  have hand : ∀ {mask role : UInt8}, IsRole role →
      (mask &&& ~~~playerRoleLeader) &&& role = mask &&& role := by
    rintro mask role (rfl | rfl | rfl) <;> exact Flags.and_not_and_of_disjoint rfl
  have hsame : (fun mask role : UInt8 => IsRole role ∧ mask &&& ~~~playerRoleLeader &&& role ≠ 0) =
      fun mask role => IsRole role ∧ mask &&& role ≠ 0 := by
    funext mask role
    exact propext (and_congr_right fun hrole => by rw [hand hrole])
  unfold Chosen
  simp only [List.forall₂_map_left_iff, hsame]

theorem onlyRoles_map_leader :
    OnlyRoles (masks.map (· &&& ~~~playerRoleLeader)) ↔ ∀ m ∈ masks, m &&& 0xF0 = 0 := by
  have hand : ∀ m : UInt8, m &&& ~~~playerRoleLeader &&& 0xF1 = m &&& 0xF0 := fun m =>
    (UInt8.and_assoc m _ _).trans rfl
  unfold OnlyRoles
  simp only [List.forall_mem_map, hand]

theorem Chosen.length_le (h : Chosen masks roles) (hflags : ∀ m ∈ masks, m &&& 0xF0 = 0) :
    masks.length ≤ 5 := by
  obtain ⟨htotal, htank, hhealer, hdamage⟩ :=
    ((chosen_iff (onlyRoles_map_leader.2 hflags)).1 (chosen_map_leader.2 h)).2
  rw [List.length_map] at htotal
  unfold lfgTanksNeeded at htank
  unfold lfgHealersNeeded at hhealer
  unfold lfgDpsNeeded at hdamage
  omega

/-- **Main result.** `CheckGroupRoles` finds a role for each player if and only if there is one:
for a group of at most 255 players whose masks have no other flags than the four. -/
theorem checkGroupRoles_iff (hne : masks ≠ []) (hlen : masks.length < 2 ^ 8) :
    (checkGroupRoles masks).1 = true ↔ (∀ m ∈ masks, m &&& 0xF0 = 0) ∧ Satisfiable masks := by
  obtain ⟨hfound, -, -⟩ := checkGroupRoles_spec hne
  rw [Nat.mod_eq_of_lt hlen] at hfound
  rw [hfound]
  have hmap : (masks.map (· &&& ~~~playerRoleLeader)).length = masks.length := List.length_map _
  constructor
  · rintro ⟨roles, hreduces, hfits⟩
    rw [← hmap] at hfits
    have honly := (hreduces.onlyRoles hfits).2
    refine ⟨onlyRoles_map_leader.1 honly, roles, chosen_map_leader.1 ?_⟩
    exact (chosen_iff honly).2 ⟨hreduces, hfits⟩
  · rintro ⟨hflags, roles, hchosen⟩
    have hboth := (chosen_iff (onlyRoles_map_leader.2 hflags)).1 (chosen_map_leader.2 hchosen)
    rw [hmap] at hboth
    exact ⟨roles, hboth⟩

end

end FaceCore.DungeonFinding
