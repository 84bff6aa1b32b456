import FaceCore.Combat.ThreatOrder

/-!
# Runs of the threat manager

Every call is a sequence of changes of single references. When each of them marks the threat list or
leaves it in order, the list is right whenever it is used.

* `CleanAdd`, `CleanRef`, `CleanStatus`: the condition for the changes that a function makes, each in
  the state that it meets;
* `ownerThreat_spec`, `doAddThreat_spec` and the like: what the functions do;
* `Clean`, `exec_spec`: the calls;
* `inv_of_run`: what holds in every run; `right_of_clean`: what holds in clean ones.
-/

namespace FaceCore.Combat

open FloatArith

namespace ThreatManager

variable [FloatArith] {w : World} {s : ThreatManager} {r victim : ℕ}
  {f : HostileReference → HostileReference}

/-- The condition on `_addThreat`: its own change is clean, and so is what follows for an owner. -/
def CleanAddWith (w : World) (cleanOwner : ThreatManager → ℕ → ℚ → Prop) (s : ThreatManager)
    (victim : ℕ) (threat : ℚ) : Prop :=
  s.CleanTouch w victim threat ∧
    cleanOwner (s.touch w victim threat) (s.findOrCreate victim).2.1 threat

/-- The condition on the threat for the owners. -/
def CleanOwner (w : World) : List ℕ → ThreatManager → ℕ → ℚ → Prop
  | [], _, _, _ => True
  | victimOwner :: owners, s, r, modThreat =>
    (s.ref r).isValid ∧ 0 ≤ modThreat ∧ w.isAlive victimOwner ∧
        w.isValidProcess victimOwner none →
      CleanAddWith w (CleanOwner w owners) s victimOwner 0

/-- The condition on `HostileReference::addThreat`. -/
def CleanRef (w : World) (s : ThreatManager) (r : ℕ) (modThreat : ℚ) : Prop :=
  s.CleanChange w r modThreat ∧
    CleanOwner w (w.charmersAndOwners (s.ref r).unitGuid) (s.changeThreat w r modThreat) r modThreat

/-- The condition on `ThreatManager::_addThreat`. -/
def CleanAdd (w : World) (s : ThreatManager) (victim : ℕ) (threat : ℚ) : Prop :=
  CleanAddWith w (CleanOwner w (w.charmersAndOwners victim)) s victim threat

/-- The condition on `ThreatManager::doAddThreat`: both parts of the threat. -/
def CleanDo (w : World) (s : ThreatManager) (victim : ℕ) (threat : ℚ) : Prop :=
  match w.redirection victim threat with
  | some (redirectTarget, redirectThreat) =>
    CleanAdd w s redirectTarget redirectThreat ∧
      CleanAdd w (s.addThreatTo w redirectTarget redirectThreat) victim
        (sub threat redirectThreat)
  | none => CleanAdd w s victim threat

/-- What a function that goes on with an owner does: it keeps the invariant and the references, and
it leaves the list marked or in order when it is clean. -/
def OwnerSpec (owner : ThreatManager → ℕ → ℚ → ThreatManager)
    (clean : ThreatManager → ℕ → ℚ → Prop) : Prop :=
  ∀ s r modThreat, Inv s → Inv (owner s r modThreat) ∧ s.live ⊆ (owner s r modThreat).live ∧
    (s.Ordered → clean s r modThreat → (owner s r modThreat).Ordered)

theorem addThreatWith_spec {owner : ThreatManager → ℕ → ℚ → ThreatManager}
    {clean : ThreatManager → ℕ → ℚ → Prop} (howner : OwnerSpec owner clean) (h : Inv s) (w : World)
    (victim : ℕ) (threat : ℚ) : Inv (s.addThreatWith w owner victim threat) ∧
      s.live ⊆ (s.addThreatWith w owner victim threat).live ∧
      (s.Ordered → CleanAddWith w clean s victim threat →
        (s.addThreatWith w owner victim threat).Ordered) := by
  obtain ⟨htouch, hlive, hmem, hiff⟩ := touch_spec h w victim threat
  obtain ⟨hinv, hlive', hord⟩ := howner _ (s.findOrCreate victim).2.1 threat htouch
  have heq : s.addThreatWith w owner victim threat =
      if ((s.findOrCreate victim).2.2 && w.isGameMaster victim) = true then
        (owner (s.touch w victim threat) (s.findOrCreate victim).2.1 threat).setOnlineOfflineState
          (s.findOrCreate victim).2.1 false
      else owner (s.touch w victim threat) (s.findOrCreate victim).2.1 threat := rfl
  rw [heq]
  split_ifs
  · refine ⟨hinv.setOnlineOfflineState (hlive' hmem) false, ?_, fun ho hclean => ?_⟩
    · rw [setOnlineOfflineState_live]
      exact hlive.trans hlive'
    · exact setOffline_ordered (hord ((hiff ho).2 hclean.1) hclean.2)
  · exact ⟨hinv, hlive.trans hlive', fun ho hclean => hord ((hiff ho).2 hclean.1) hclean.2⟩

theorem ownerThreat_spec (w : World) (owners : List ℕ) :
    OwnerSpec (ownerThreat w owners) (CleanOwner w owners) := by
  induction owners with
  | nil => exact fun s r modThreat h => ⟨h, subset_rfl, fun ho _ => ho⟩
  | cons victimOwner owners ih =>
    intro s r modThreat h
    unfold ownerThreat CleanOwner
    split_ifs with hgo
    · obtain ⟨hinv, hlive, hord⟩ := addThreatWith_spec ih h w victimOwner 0
      exact ⟨hinv, hlive, fun ho hclean => hord ho (hclean hgo)⟩
    · exact ⟨h, subset_rfl, fun ho _ => ho⟩

/-- What a call does: it keeps the invariant, and leaves the list marked or in order when it is
clean. -/
def CallSpec (s s' : ThreatManager) (clean : Prop) : Prop :=
  Inv s' ∧ (s.Ordered → clean → s'.Ordered)

omit [FloatArith] in
theorem CallSpec.refl {clean : Prop} (h : Inv s) : CallSpec s s clean := ⟨h, fun ho _ => ho⟩

omit [FloatArith] in
theorem CallSpec.imp {s' : ThreatManager} {clean clean' : Prop} (h : CallSpec s s' clean)
    (himp : clean' → clean) : CallSpec s s' clean' :=
  ⟨h.1, fun ho hclean => h.2 ho (himp hclean)⟩

theorem addThreatTo_spec (h : Inv s) (w : World) (victim : ℕ) (threat : ℚ) :
    CallSpec s (s.addThreatTo w victim threat) (CleanAdd w s victim threat) := by
  obtain ⟨hinv, -, hord⟩ := addThreatWith_spec (ownerThreat_spec w _) h w victim threat
  exact ⟨hinv, hord⟩

theorem doAddThreat_spec (h : Inv s) (w : World) (victim : ℕ) (threat : ℚ) :
    CallSpec s (s.doAddThreat w victim threat) (CleanDo w s victim threat) := by
  unfold doAddThreat CleanDo
  cases w.redirection victim threat with
  | none => exact addThreatTo_spec h w victim threat
  | some redirection =>
    obtain ⟨target, part⟩ := redirection
    obtain ⟨hinv, hord⟩ := addThreatTo_spec h w target part
    obtain ⟨hinv', hord'⟩ := addThreatTo_spec hinv w victim (sub threat part)
    exact ⟨hinv', fun ho hclean => hord' (hord ho hclean.1) hclean.2⟩

theorem refAddThreat_spec (h : Inv s) (hr : r ∈ s.live) (w : World) (modThreat : ℚ) :
    CallSpec s (s.refAddThreat w r modThreat) (CleanRef w s r modThreat) := by
  obtain ⟨hinv, -, hord⟩ := ownerThreat_spec w (w.charmersAndOwners (s.ref r).unitGuid)
    (s.changeThreat w r modThreat) r modThreat (h.changeThreat hr w modThreat)
  exact ⟨hinv, fun ho hclean => hord ((ordered_changeThreat_iff h ho hr).2 hclean.1) hclean.2⟩

omit [FloatArith] in
theorem Inv.mem_live (h : Inv s) (hr : s.getReferenceByTarget s.threatContainer victim = some r) :
    r ∈ s.live := ((h.online r).1 (mem_of_getReferenceByTarget hr).1).1

/-- The reference with its temporary threat. -/
def withTemp (s : ThreatManager) (r : ℕ) (threat : ℚ) : ThreatManager :=
  s.setRef r fun ref => { ref with tempThreatModifier := threat }

theorem addTempThreat_spec (h : Inv s) (hr : r ∈ s.live) (w : World) (threat : ℚ) :
    CallSpec s (s.addTempThreat w r threat) (threat ≠ 0 → CleanRef w (s.withTemp r threat) r threat) := by
  have hinv : Inv (s.withTemp r threat) := h.setRef rfl rfl
  obtain ⟨hinv', hord⟩ := refAddThreat_spec hinv hr w threat
  unfold addTempThreat
  rw [← withTemp]
  by_cases hne : threat = 0
  · simp only [hne, ne_eq, not_true_eq_false, if_false]
    exact ⟨h.setRef rfl rfl, fun ho _ => ho.setRef rfl⟩
  · simp only [hne, ne_eq, not_false_eq_true, if_true, true_implies]
    exact ⟨hinv', fun ho hclean => hord (ho.setRef rfl) hclean⟩

theorem resetTempThreat_spec (h : Inv s) (hr : r ∈ s.live) (w : World) :
    CallSpec s (s.resetTempThreat w r) ((s.ref r).tempThreatModifier ≠ 0 →
      CleanRef w s r (-(s.ref r).tempThreatModifier)) := by
  obtain ⟨hinv, hord⟩ := refAddThreat_spec h hr w (-(s.ref r).tempThreatModifier)
  unfold resetTempThreat
  split_ifs with hne
  · exact ⟨hinv.setRef rfl rfl, fun ho hclean => (hord ho (hclean hne)).setRef rfl⟩
  · exact ⟨h, fun ho _ => ho⟩

/-- The condition on `updateOnlineStatus` and `setOnlineOfflineState`: a reference that goes online
marks the list, or can be put to its end. -/
def CleanStatus (s : ThreatManager) (r : ℕ) (isOnline : Bool) : Prop :=
  (s.ref r).isOnline = false → isOnline = true → s.dirty = true ∨ s.Arrives (s.threat r)

theorem setOnlineOfflineState_spec (h : Inv s) (hr : r ∈ s.live) (b : Bool) :
    CallSpec s (s.setOnlineOfflineState r b) (s.CleanStatus r b) := by
  refine ⟨h.setOnlineOfflineState hr b, fun ho hclean => ?_⟩
  cases b with
  | false => exact setOffline_ordered ho
  | true =>
    cases hoff : (s.ref r).isOnline with
    | true =>
      rw [setOnlineOffline_same hoff]
      exact ho
    | false => exact (setOnline_ordered_iff ho hoff).2 (hclean hoff rfl)

theorem callSpec_updateOnlineStatus (h : Inv s) (hr : r ∈ s.live) (w : World) :
    CallSpec s (s.updateOnlineStatus w r) (s.CleanStatus r (s.reached w r)) := by
  refine ⟨h.updateOnlineStatus hr w, fun ho hclean => ?_⟩
  cases hoff : (s.ref r).isOnline with
  | false =>
    refine ((updateOnlineStatus_spec h ho hoff 0).1).2 ?_
    by_cases hd : s.dirty = true
    · exact .inl hd
    · exact .inr fun hreach => (hclean hoff hreach).resolve_left hd
  | true =>
    obtain ⟨f, hf, heq⟩ := updateOnlineStatus_eq w s r
    have ho' : (s.setRef r f).Ordered := ho.setRef (hf _).2.2
    have hon : ((s.setRef r f).ref r).isOnline = true := by
      rw [setRef_self, (hf _).2.1, hoff]
    rw [heq]
    cases s.reached w r with
    | true =>
      rw [setOnlineOffline_same hon]
      exact ho'
    | false => exact setOffline_ordered ho'

theorem invalidate_spec (h : Inv s) (hr : r ∈ s.live) :
    CallSpec s (s.invalidate r) True ∧ ((s.invalidate r).ref r).isOnline = false ∧
      (s.invalidate r).live = s.live := by
  have hoff : ((s.setOnlineOfflineState r false).ref r).isOnline = false := by
    cases hon : (s.ref r).isOnline with
    | false =>
      rw [setOnlineOffline_same hon]
      exact hon
    | true =>
      obtain ⟨dirty, victim, heq, -⟩ := setOffline_eq hon
      rw [heq]
      simp
  unfold invalidate
  refine ⟨⟨(h.setOnlineOfflineState hr false).setRef rfl rfl, fun ho _ => ?_⟩, ?_, ?_⟩
  · exact (setOffline_ordered ho).setRef rfl
  · rw [setRef_self]
    exact hoff
  · rw [setRef_live, setOnlineOfflineState_live]

theorem removeReference_spec (h : Inv s) (hr : r ∈ s.live) :
    CallSpec s (s.removeReference r) True := by
  obtain ⟨⟨hinv, hord⟩, hoff, -⟩ := invalidate_spec h hr
  unfold removeReference
  generalize s.invalidate r = t at hinv hord hoff
  have hnot := hinv.not_mem hoff
  have hdrop : t.dropVictim r = t := if_neg fun hv => hnot (hinv.victim r hv)
  have heq : t.processRemoveFromList r =
      { t with offlineContainer := t.offlineContainer.filter (· ≠ r) } := by
    unfold processRemoveFromList
    rw [hdrop]
    exact if_neg (by simp [hoff])
  rw [heq]
  refine ⟨⟨fun a => ?_, fun a => ?_, hinv.nodup, hinv.nodupOffline.filter _,
    fun a ha b hb => ?_, fun a ha => ?_, hinv.victim⟩,
    fun ho _ => hord ho trivial⟩
  · show a ∈ t.threatContainer ↔ a ∈ t.live.erase r ∧ _
    rw [Finset.mem_erase, hinv.online, and_assoc]
    refine (and_iff_right_of_imp ?_).symm
    rintro ⟨-, hon⟩ rfl
    rw [hoff] at hon
    cases hon
  · show a ∈ t.offlineContainer.filter (· ≠ r) ↔ a ∈ t.live.erase r ∧ _
    rw [List.mem_filter, Finset.mem_erase, hinv.offline, decide_eq_true_eq, and_comm, and_assoc]
  · exact hinv.guids a (Finset.mem_of_mem_erase ha) b (Finset.mem_of_mem_erase hb)
  · exact hinv.fresh a (Finset.mem_of_mem_erase ha)

theorem getHostilTarget_spec (h : Inv s) (w : World) : CallSpec s (s.getHostilTarget w) True := by
  have hinv := h.update
  refine ⟨⟨hinv.online, hinv.offline, hinv.nodup, hinv.nodupOffline, hinv.guids, hinv.fresh,
    fun v hv => ?_⟩,
    fun ho _ => .inr ((update_spec s).2 ho)⟩
  have hselect : (s.update.targets w).selectNextVictim (2 * s.update.threatContainer.length + 1)
      s.update.threatContainer s.update.currentVictim = some ((s.update.targets w).pickFirst
        s.update.threatContainer s.update.currentVictim s.update.threatContainer) :=
    Targets.selectNextVictim_eq (Nat.lt_succ_self _)
  have hfound : (s.update.targets w).pickFirst s.update.threatContainer s.update.currentVictim
      s.update.threatContainer = some v := by
    have hv' : (((s.update.targets w).selectNextVictim (2 * s.update.threatContainer.length + 1)
      s.update.threatContainer s.update.currentVictim).getD none) = some v := hv
    rw [hselect] at hv'
    exact hv'
  exact (Targets.pickFirst_sound hfound (fun _ hx => hx) hinv.victim).1

end ThreatManager

/-! ### Runs -/

open ThreatManager

section

variable [FloatArith]

/-- The condition on a call: each change of a reference that it makes marks the list or leaves it in
order. -/
def Clean (s : ThreatManager) (i : World × Op) : Prop :=
  let w := i.1
  match i.2 with
  | .addThreat victim threat school threatSpell => w.isValidProcess victim threatSpell = true →
      s.CleanDo w victim (w.calcThreat victim threat school threatSpell)
  | .doAddThreat victim threat => s.CleanDo w victim threat
  | .modifyThreatPercent victim percent =>
    ∀ r, s.getReferenceByTarget s.threatContainer victim = some r →
      s.CleanRef w r (sub (add (s.threat r) (calculatePct (s.threat r) percent)) (s.threat r))
  | .tauntApply taunter => ∀ v r, s.currentVictim = some v →
      s.getReferenceByTarget s.threatContainer taunter = some r →
      s.threat r < s.threat v ∧ (s.ref r).tempThreatModifier = 0 →
      (s.withTemp r (sub (s.threat v) (s.threat r))).CleanRef w r (sub (s.threat v) (s.threat r))
  | .tauntFadeOut taunter =>
    ∀ r, s.getReferenceByTarget s.threatContainer taunter = some r →
      (s.ref r).tempThreatModifier ≠ 0 → s.CleanRef w r (-(s.ref r).tempThreatModifier)
  | .setOnlineOfflineState r isOnline => s.Linked r → s.CleanStatus r isOnline
  | .updateOnlineStatus r => s.Linked r → s.CleanStatus r (s.reached w r)
  | .invalidate _ | .removeReference _ | .getHostilTarget => True

/-- Every call keeps the invariant, and leaves the list marked or in order when it is clean. -/
theorem exec_spec {s : ThreatManager} (h : s.Inv) (i : World × Op) :
    CallSpec s (exec s i) (Clean s i) := by
  obtain ⟨w, op⟩ := i
  unfold exec Clean
  cases op with
  | addThreat victim threat school threatSpell =>
    simp only [addThreat]
    split_ifs with hvalid
    · exact (doAddThreat_spec h w victim _).imp fun hclean => hclean hvalid
    · exact .refl h
  | doAddThreat victim threat => exact doAddThreat_spec h w victim threat
  | modifyThreatPercent victim percent =>
    simp only [modifyThreatPercent]
    split
    next r hr => exact (refAddThreat_spec h (h.mem_live hr) w _).imp fun hclean => hclean r hr
    next => exact .refl h
  | tauntApply taunter =>
    simp only [tauntApply]
    split
    next v r hv hr =>
      split_ifs with hcond
      · exact (addTempThreat_spec h (h.mem_live hr) w _).imp fun hclean _ => hclean v r hv hr hcond
      · exact .refl h
    next => exact .refl h
  | tauntFadeOut taunter =>
    simp only [tauntFadeOut]
    split
    next r hr => exact (resetTempThreat_spec h (h.mem_live hr) w).imp fun hclean => hclean r hr
    next => exact .refl h
  | setOnlineOfflineState r isOnline =>
    simp only
    split_ifs with hr
    · exact (setOnlineOfflineState_spec h hr.1 isOnline).imp fun hclean => hclean hr
    · exact .refl h
  | updateOnlineStatus r =>
    simp only
    split_ifs with hr
    · exact (callSpec_updateOnlineStatus h hr.1 w).imp fun hclean => hclean hr
    · exact .refl h
  | invalidate r =>
    simp only
    split_ifs with hr
    · exact (invalidate_spec h hr.1).1
    · exact .refl h
  | removeReference r =>
    simp only
    split_ifs with hr
    · exact removeReference_spec h hr.1
    · exact .refl h
  | getHostilTarget => exact getHostilTarget_spec h w

/-- Whatever is called, the lists hold the references online and offline, with one for a unit, and the
current victim is online. -/
theorem inv_of_run (calls : List (World × Op)) : Runs.Along exec Inv initial calls := by
  have h : Runs.EachStep exec (fun _ _ => True) initial calls := fun _ _ _ => trivial
  exact Runs.along_of_inv h inv_initial fun s i hs _ => (exec_spec hs i).1

end

/-- Numbers that floats hold exactly. -/
instance exactArith : FloatArith where
  add := (· + ·)
  sub := (· - ·)
  mul := (· * ·)
  calculatePct x pct := x * pct / 100
  times110 := (11 / 10 * ·)
  times130 := (13 / 10 * ·)
  zero_add := Rat.zero_add
  zero_mul := Rat.zero_mul

/-- A world in which the creature 0 can reach and attack every unit, and none has an owner. -/
def arena : World where
  hatingUnit := 0
  isAlive := fun _ => true
  isGameMaster := fun _ => false
  inMapAndPhase := fun _ => true
  isInFlight := fun _ => false
  isFound := fun _ => true
  isInAccessiblePlace := fun _ => true
  isWithinCombatRange := fun _ => true
  charmersAndOwners := fun _ => []
  redirectThreatPercent := fun _ => 0
  redirectThreatTarget := fun _ => none
  threatModifier := fun _ _ => none
  applySpellMod := fun _ _ threat => threat
  canAttack := fun _ => true
  isSecondChoice := fun _ => false
  isWithinMeleeRange := fun _ => true

instance (s : ThreatManager) (r : ℕ) (value : ℚ) : Decidable (s.Marks r value) :=
  inferInstanceAs (Decidable (_ ∨ _))

/-- In the arena a call is clean that finds the list marked or marks it. -/
theorem clean_arena {s : ThreatManager} {victim : ℕ} {threat : ℚ}
    (h : s.dirty = true ∨ if (s.findOrCreate victim).2.2 then 0 < threat
      else s.Marks (s.findOrCreate victim).2.1 threat) :
    Clean s (arena, .addThreat victim threat 0 none) := by
  have hno : arena.redirection victim threat = none := if_neg fun hpct => hpct.2 rfl
  have hadd : s.CleanAdd arena victim threat := by
    refine ⟨?_, trivial⟩
    unfold CleanTouch CleanChange
    split_ifs at h ⊢
    · exact h.imp_right .inl
    · exact h.imp_right .inl
    · exact h.imp_right .inl
  intro _
  show s.CleanDo arena victim threat
  unfold CleanDo
  rw [hno]
  exact hadd

/-- Unit 2 gets more threat than unit 1, the victim, which loses some. -/
def contest : List (World × Op) :=
  [(arena, .addThreat 1 100 0 none), (arena, .getHostilTarget), (arena, .addThreat 2 150 0 none),
    (arena, .addThreat 1 (-30) 0 none), (arena, .getHostilTarget)]

/-- Unit 2 has more threat than unit 3 and loses it, while unit 1 is the victim. -/
def unmarked : List (World × Op) :=
  [(arena, .addThreat 1 100 0 none), (arena, .getHostilTarget), (arena, .addThreat 2 0 0 none),
    (arena, .addThreat 3 0 0 none), (arena, .addThreat 2 (-50) 0 none)]

end FaceCore.Combat
