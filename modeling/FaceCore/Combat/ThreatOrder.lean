import FaceCore.Combat.ThreatManager

/-!
# The order of the threat list

After `update` the threat list is to be in order, and to hold exactly the references that are online,
one for each unit, the current victim among them.

* `Right`: what is asked of the list; `Inv`: the part that every change keeps;
* `Ordered`: the list is marked as dirty, or in order (`update_spec`);
* `setOnline_eq`, `setOffline_eq`: a reference goes online or offline;
* `Marks`, `Outruns`: when a change marks the list; `Keeps`, `Arrives`: when it leaves it in order;
* `setOnline_ordered_iff`, `ordered_changeThreat_iff`, `touch_spec`: exactly which changes of one
  reference leave the list marked or in order.
-/

namespace FaceCore.Combat

open FloatArith

namespace ThreatManager

variable {w : World} {s : ThreatManager} {r r' victim : ℕ} {x : ℚ} {f : HostileReference → HostileReference}

/-- The list goes down in threat. -/
def InOrder (s : ThreatManager) : Prop :=
  s.threatContainer.Pairwise fun a b => s.threat b ≤ s.threat a

/-- The list is in order when it is next used. -/
def Ordered (s : ThreatManager) : Prop := s.dirty = true ∨ s.InOrder

/-- What is asked of the manager when the list is used. -/
structure Right (s : ThreatManager) : Prop where
  inOrder : s.InOrder
  online : ∀ r, r ∈ s.threatContainer ↔ r ∈ s.live ∧ (s.ref r).isOnline = true
  guids : (s.threatContainer.map fun r => (s.ref r).unitGuid).Nodup
  victim : ∀ r, s.currentVictim = some r → r ∈ s.threatContainer

/-- The lists hold the references online and offline, with one reference for a unit. -/
structure Inv (s : ThreatManager) : Prop where
  online : ∀ r, r ∈ s.threatContainer ↔ r ∈ s.live ∧ (s.ref r).isOnline = true
  offline : ∀ r, r ∈ s.offlineContainer ↔ r ∈ s.live ∧ (s.ref r).isOnline = false
  nodup : s.threatContainer.Nodup
  nodupOffline : s.offlineContainer.Nodup
  guids : ∀ r ∈ s.live, ∀ r' ∈ s.live, (s.ref r).unitGuid = (s.ref r').unitGuid → r = r'
  fresh : ∀ r ∈ s.live, r < s.nextRef
  victim : ∀ r, s.currentVictim = some r → r ∈ s.threatContainer

theorem inv_initial : Inv initial where
  online := by simp [initial]
  offline := by simp [initial]
  nodup := List.nodup_nil
  nodupOffline := List.nodup_nil
  guids := by simp [initial]
  fresh := by simp [initial]
  victim := by simp [initial]

/-! ### When the list is used -/

theorem update_spec (s : ThreatManager) :
    s.update.threatContainer.Perm s.threatContainer ∧ (s.Ordered → s.update.InOrder) := by
  unfold update InOrder
  by_cases hdirty : s.dirty = true ∧ s.threatContainer.length > 1
  · simp only [hdirty, and_self, if_true]
    refine ⟨List.mergeSort_perm _ _, fun _ => ?_⟩
    let le : ℕ → ℕ → Bool := fun a b => s.threat b ≤ s.threat a
    have htrans : ∀ a b c, le a b = true → le b c = true → le a c = true := by
      intro a b c hab hbc
      exact decide_eq_true ((of_decide_eq_true hbc).trans (of_decide_eq_true hab))
    have htotal : ∀ a b, (le a b || le b a) = true := by
      intro a b
      rw [Bool.or_eq_true, decide_eq_true_eq, decide_eq_true_eq]
      exact le_total _ _
    exact (List.pairwise_mergeSort htrans htotal s.threatContainer).imp of_decide_eq_true
  · simp only [hdirty, if_false]
    refine ⟨List.Perm.refl _, ?_⟩
    rintro (h | h)
    · have hlen : s.threatContainer.length ≤ 1 := not_lt.1 fun hlt => hdirty ⟨h, hlt⟩
      match s.threatContainer, hlen with
      | [], _ => exact List.Pairwise.nil
      | [_], _ => exact List.pairwise_singleton _ _
    · exact h

theorem Inv.update (h : Inv s) : Inv s.update where
  online := fun r => (update_spec s).1.mem_iff.trans (h.online r)
  offline := h.offline
  nodup := (update_spec s).1.nodup_iff.2 h.nodup
  nodupOffline := h.nodupOffline
  guids := h.guids
  fresh := h.fresh
  victim := fun r hr => (update_spec s).1.mem_iff.2 (h.victim r hr)

theorem Inv.right (h : Inv s) (hin : s.InOrder) : Right s where
  inOrder := hin
  online := h.online
  guids := by
    refine List.Nodup.map_on (fun a ha b hb hab => ?_) h.nodup
    exact h.guids a ((h.online a).1 ha).1 b ((h.online b).1 hb).1 hab
  victim := h.victim

/-! ### One event of a reference -/

/-- A change of threat that marks the list. -/
def Marks (s : ThreatManager) (r : ℕ) (value : ℚ) : Prop :=
  (s.currentVictim = some r ∧ value < 0) ∨ (s.currentVictim ≠ some r ∧ 0 < value)

/-- A threat that marks the list when a reference with it goes online. -/
def Outruns [FloatArith] (s : ThreatManager) (x : ℚ) : Prop :=
  ∃ v, s.currentVictim = some v ∧ times110 (s.threat v) < x

theorem processThreatChange_dirty {value : ℚ} :
    (s.processThreatChange r value).dirty = true ↔ s.dirty = true ∨ s.Marks r value := by
  unfold processThreatChange Marks
  split_ifs with h <;> simp [h]

theorem processThreatChange_eq (s : ThreatManager) (r : ℕ) (value : ℚ) :
    ∃ dirty, s.processThreatChange r value = { s with dirty := dirty } := by
  unfold processThreatChange
  split_ifs
  · exact ⟨true, rfl⟩
  · exact ⟨s.dirty, rfl⟩

@[simp] theorem setRef_live : (s.setRef r f).live = s.live := rfl

@[simp] theorem setRef_self : (s.setRef r f).ref r = f (s.ref r) := Function.update_self ..

@[simp] theorem setRef_of_ne (h : r' ≠ r) : (s.setRef r f).ref r' = s.ref r' := Function.update_of_ne h ..

theorem setRef_field {β : Type*} (field : HostileReference → β)
    (h : field (f (s.ref r)) = field (s.ref r)) (a : ℕ) :
    field ((s.setRef r f).ref a) = field (s.ref a) := by
  by_cases ha : a = r
  · subst ha
    rw [setRef_self, h]
  · rw [setRef_of_ne ha]

theorem Inv.setRef (h : Inv s) (hguid : (f (s.ref r)).unitGuid = (s.ref r).unitGuid)
    (honline : (f (s.ref r)).isOnline = (s.ref r).isOnline) : Inv (s.setRef r f) := by
  have hg := setRef_field HostileReference.unitGuid hguid
  have ho := setRef_field HostileReference.isOnline honline
  exact
    { online := fun a => by rw [ho]; exact h.online a
      offline := fun a => by rw [ho]; exact h.offline a
      nodup := h.nodup
      nodupOffline := h.nodupOffline
      guids := fun a ha b hb hab => h.guids a ha b hb (by rw [← hg, ← hg b]; exact hab)
      fresh := h.fresh
      victim := h.victim }

theorem Ordered.setRef (h : s.Ordered) (hf : (f (s.ref r)).threat = (s.ref r).threat) :
    (s.setRef r f).Ordered := by
  have hthreat : (s.setRef r f).threat = s.threat := funext (setRef_field HostileReference.threat hf)
  refine h.imp_right fun hin => ?_
  show s.threatContainer.Pairwise fun a b => (s.setRef r f).threat b ≤ (s.setRef r f).threat a
  rw [hthreat]
  exact hin

theorem Inv.processThreatChange (h : Inv s) (value : ℚ) : Inv (s.processThreatChange r value) := by
  obtain ⟨dirty, heq⟩ := processThreatChange_eq s r value
  rw [heq]
  exact ⟨h.online, h.offline, h.nodup, h.nodupOffline, h.guids, h.fresh, h.victim⟩

theorem nodup_concat {l : List ℕ} (h : l.Nodup) (hr : r ∉ l) : (l ++ [r]).Nodup := by
  refine List.nodup_append.2 ⟨h, List.nodup_singleton r, fun a ha b hb => ?_⟩
  rintro rfl
  exact hr (List.mem_singleton.1 hb ▸ ha)

variable [FloatArith]

theorem setOnline_eq (h : (s.ref r).isOnline = false) :
    ∃ dirty, s.setOnlineOfflineState r true =
        { s.setRef r fun ref => { ref with isOnline := true } with
          threatContainer := s.threatContainer ++ [r]
          offlineContainer := s.offlineContainer.filter (· ≠ r)
          dirty := dirty } ∧
      (dirty = true ↔ s.dirty = true ∨ s.Outruns (s.threat r)) := by
  let t := s.setRef r fun ref => { ref with isOnline := true, isAccessible := true && ref.isAccessible }
  have hset : s.setOnlineOfflineState r true = t.processOnlineStatus r := by
    unfold setOnlineOfflineState
    rw [if_pos (by simp [h])]
  have hthreat : t.threat = s.threat := funext (setRef_field HostileReference.threat rfl)
  have hany : (t.currentVictim.any fun v => t.threat r > times110 (t.threat v)) = true ↔
      s.Outruns (s.threat r) := by
    rw [hthreat, Option.any_eq_true]
    simp only [decide_eq_true_eq]
    rfl
  have honline : (t.ref r).isOnline = true := by simp [t]
  rw [hset]
  unfold processOnlineStatus
  rw [if_pos honline]
  by_cases hout : (t.currentVictim.any fun v => t.threat r > times110 (t.threat v)) = true
  · refine ⟨true, ?_, iff_of_true rfl (.inr (hany.1 hout))⟩
    simp only [hout, if_true]
    rfl
  · refine ⟨s.dirty, ?_, (or_iff_left fun h => hout (hany.2 h)).symm⟩
    simp only [hout]
    rfl

theorem setOffline_eq (h : (s.ref r).isOnline = true) :
    ∃ dirty victim, s.setOnlineOfflineState r false =
        { s.setRef r fun ref => { ref with isOnline := false, isAccessible := false } with
          threatContainer := s.threatContainer.filter (· ≠ r)
          offlineContainer := s.offlineContainer ++ [r]
          dirty := dirty
          currentVictim := victim } ∧
      (s.dirty = true → dirty = true) ∧
      ∀ v, victim = some v → s.currentVictim = some v ∧ v ≠ r := by
  let t := s.setRef r fun ref =>
    { ref with isOnline := false, isAccessible := false && ref.isAccessible }
  have hset : s.setOnlineOfflineState r false = t.processOnlineStatus r := by
    unfold setOnlineOfflineState
    rw [if_pos (by simp [h])]
  have hoffline : ¬ (t.ref r).isOnline = true := by simp [t]
  rw [hset]
  unfold processOnlineStatus dropVictim
  rw [if_neg hoffline]
  by_cases hv : t.currentVictim = some r
  · refine ⟨true, none, ?_, fun _ => rfl, fun v hv => ?_⟩
    · simp only [hv, if_true]
      rfl
    · cases hv
  · refine ⟨s.dirty, s.currentVictim, ?_, id, fun v hv' => ⟨hv', ?_⟩⟩
    · simp only [hv, if_false]
      rfl
    · rintro rfl
      exact hv hv'

theorem setOnlineOffline_same {b : Bool} (h : (s.ref r).isOnline = b) :
    s.setOnlineOfflineState r b = s := if_neg (not_not.2 h)

theorem Inv.setOnline (h : Inv s) (hr : r ∈ s.live) (hoff : (s.ref r).isOnline = false) :
    Inv (s.setOnlineOfflineState r true) := by
  obtain ⟨dirty, heq, -⟩ := setOnline_eq hoff
  have hnot : r ∉ s.threatContainer := by
    intro hmem
    rw [h.online, hoff] at hmem
    exact Bool.false_ne_true hmem.2
  have hg := setRef_field (s := s) (r := r) (f := fun ref => { ref with isOnline := true })
    HostileReference.unitGuid rfl
  rw [heq]
  refine ⟨fun a => ?_, fun a => ?_, ?_, h.nodupOffline.filter _,
    fun a ha b hb hab => h.guids a ha b hb ?_, h.fresh,
    fun v hv => List.mem_append_left _ (h.victim v hv)⟩
  · rw [List.mem_append, List.mem_singleton, h.online]
    by_cases ha : a = r
    · subst ha
      simp [hr]
    · simp [ha]
  · rw [List.mem_filter, h.offline]
    by_cases ha : a = r
    · subst ha
      simp
    · simp [ha]
  · exact nodup_concat h.nodup hnot
  · rw [← hg, ← hg b]
    exact hab

theorem Inv.setOffline (h : Inv s) (hr : r ∈ s.live) (hon : (s.ref r).isOnline = true) :
    Inv (s.setOnlineOfflineState r false) := by
  obtain ⟨dirty, victim, heq, -, hvictim⟩ := setOffline_eq hon
  have hg := setRef_field (s := s) (r := r)
    (f := fun ref => { ref with isOnline := false, isAccessible := false })
    HostileReference.unitGuid rfl
  have hnot : r ∉ s.offlineContainer := by
    intro hmem
    rw [h.offline, hon] at hmem
    exact Bool.false_ne_true hmem.2.symm
  rw [heq]
  refine ⟨fun a => ?_, fun a => ?_, h.nodup.filter _, ?_,
    fun a ha b hb hab => h.guids a ha b hb ?_, h.fresh, fun v hv => ?_⟩
  · rw [List.mem_filter, h.online]
    by_cases ha : a = r
    · subst ha
      simp
    · simp [ha]
  · rw [List.mem_append, List.mem_singleton, h.offline]
    by_cases ha : a = r
    · subst ha
      simp [hr]
    · simp [ha]
  · exact nodup_concat h.nodupOffline hnot
  · rw [← hg, ← hg b]
    exact hab
  · obtain ⟨hcur, hne⟩ := hvictim v hv
    exact List.mem_filter.2 ⟨h.victim v hcur, by simpa using hne⟩

theorem Inv.setOnlineOfflineState (h : Inv s) (hr : r ∈ s.live) (b : Bool) :
    Inv (s.setOnlineOfflineState r b) := by
  by_cases hb : (s.ref r).isOnline = b
  · rw [setOnlineOffline_same hb]
    exact h
  · cases b with
    | true => exact h.setOnline hr (by simpa using hb)
    | false => exact h.setOffline hr (by simpa using hb)

theorem setOnlineOfflineState_live (b : Bool) : (s.setOnlineOfflineState r b).live = s.live := by
  by_cases hb : (s.ref r).isOnline = b
  · rw [setOnlineOffline_same hb]
  · cases b with
    | true =>
      obtain ⟨dirty, heq, -⟩ := setOnline_eq (s := s) (r := r) (by simpa using hb)
      rw [heq]
      rfl
    | false =>
      obtain ⟨dirty, victim, heq, -⟩ := setOffline_eq (s := s) (r := r) (by simpa using hb)
      rw [heq]
      rfl

/-- Whether `updateOnlineStatus` finds the target online, linked again if need be. -/
def reached (w : World) (s : ThreatManager) (r : ℕ) : Bool :=
  ((s.ref r).isValid || w.isFound (s.ref r).unitGuid) && w.isReached (s.ref r).unitGuid

theorem updateOnlineStatus_eq (w : World) (s : ThreatManager) (r : ℕ) :
    ∃ f : HostileReference → HostileReference,
      (∀ ref, (f ref).unitGuid = ref.unitGuid ∧ (f ref).isOnline = ref.isOnline ∧
        (f ref).threat = ref.threat) ∧
      s.updateOnlineStatus w r = (s.setRef r f).setOnlineOfflineState r (s.reached w r) := by
  refine ⟨fun ref =>
    { ref with
      isValid := ref.isValid || w.isFound ref.unitGuid
      isAccessible := (ref.isValid || w.isFound ref.unitGuid) && w.isAccessible ref.unitGuid },
    fun ref => ⟨rfl, rfl, rfl⟩, ?_⟩
  unfold updateOnlineStatus reached
  simp only [setRef_self]
  congr 1
  unfold setRef
  simp

theorem Inv.updateOnlineStatus (h : Inv s) (hr : r ∈ s.live) (w : World) :
    Inv (s.updateOnlineStatus w r) := by
  obtain ⟨f, hf, heq⟩ := updateOnlineStatus_eq w s r
  rw [heq]
  exact (h.setRef (hf _).1 (hf _).2.1).setOnlineOfflineState hr _

theorem updateOnlineStatus_live : (s.updateOnlineStatus w r).live = s.live := by
  obtain ⟨f, -, heq⟩ := updateOnlineStatus_eq w s r
  rw [heq, setOnlineOfflineState_live, setRef_live]

/-- The reference with its new threat. -/
def withThreat (s : ThreatManager) (r : ℕ) (modThreat : ℚ) : ThreatManager :=
  s.setRef r fun ref => { ref with threat := add ref.threat modThreat }

/-- The manager before `changeThreat` fires its event. -/
def beforeEvent (w : World) (s : ThreatManager) (r : ℕ) (modThreat : ℚ) : ThreatManager :=
  if (s.ref r).isOnline then s.withThreat r modThreat
  else (s.withThreat r modThreat).updateOnlineStatus w r

theorem changeThreat_eq (w : World) (s : ThreatManager) (r : ℕ) (modThreat : ℚ) :
    s.changeThreat w r modThreat = (s.beforeEvent w r modThreat).processThreatChange r modThreat := by
  have hnow : (if ((s.withThreat r modThreat).ref r).isOnline then s.withThreat r modThreat
      else (s.withThreat r modThreat).updateOnlineStatus w r) = s.beforeEvent w r modThreat := by
    unfold beforeEvent withThreat
    rw [setRef_self]
  show (if modThreat ≠ 0 then (if ((s.withThreat r modThreat).ref r).isOnline then
      s.withThreat r modThreat
    else (s.withThreat r modThreat).updateOnlineStatus w r).processThreatChange r modThreat
    else if ((s.withThreat r modThreat).ref r).isOnline then s.withThreat r modThreat
    else (s.withThreat r modThreat).updateOnlineStatus w r) = _
  rw [hnow]
  by_cases hmod : modThreat = 0
  · subst hmod
    simp [processThreatChange]
  · simp [hmod]

theorem Inv.changeThreat (h : Inv s) (hr : r ∈ s.live) (w : World) (modThreat : ℚ) :
    Inv (s.changeThreat w r modThreat) := by
  have hset : Inv (s.withThreat r modThreat) := h.setRef rfl rfl
  rw [changeThreat_eq]
  refine Inv.processThreatChange ?_ _
  unfold beforeEvent
  split_ifs
  · exact hset
  · exact hset.updateOnlineStatus hr w

theorem changeThreat_live {modThreat : ℚ} : (s.changeThreat w r modThreat).live = s.live := by
  obtain ⟨dirty, heq⟩ := processThreatChange_eq (s.beforeEvent w r modThreat) r modThreat
  rw [changeThreat_eq, heq]
  show (s.beforeEvent w r modThreat).live = s.live
  unfold beforeEvent
  split_ifs
  · rfl
  · exact updateOnlineStatus_live

/-! ### What one change does to the order -/

/-- The new threat leaves a reference in its place: nothing before it has less, nothing behind it
more. -/
def Keeps (s : ThreatManager) (r : ℕ) (x : ℚ) : Prop :=
  ∀ pre suf, s.threatContainer = pre ++ r :: suf →
    (∀ a ∈ pre, x ≤ s.threat a) ∧ ∀ b ∈ suf, s.threat b ≤ x

/-- A reference with this threat can be put to the end of the list, or marks it. -/
def Arrives (s : ThreatManager) (x : ℚ) : Prop :=
  s.Outruns x ∨ ∀ a ∈ s.threatContainer, x ≤ s.threat a

/-- A change of threat after which the list is marked or in order. -/
def CleanChange (w : World) (s : ThreatManager) (r : ℕ) (modThreat : ℚ) : Prop :=
  s.dirty = true ∨ s.Marks r modThreat ∨
    if (s.ref r).isOnline then s.Keeps r (add (s.threat r) modThreat)
    else s.reached w r = true → s.Arrives (add (s.threat r) modThreat)

theorem threat_withThreat_self {modThreat : ℚ} :
    (s.withThreat r modThreat).threat r = add (s.threat r) modThreat := by
  unfold threat withThreat
  rw [setRef_self]

theorem threat_withThreat_of_ne {modThreat : ℚ} (h : r' ≠ r) :
    (s.withThreat r modThreat).threat r' = s.threat r' := by
  unfold threat withThreat
  rw [setRef_of_ne h]

theorem inOrder_withThreat_of_not_mem {modThreat : ℚ} (h : r ∉ s.threatContainer) :
    (s.withThreat r modThreat).InOrder ↔ s.InOrder := by
  have heq : ∀ a ∈ s.threatContainer, (s.withThreat r modThreat).threat a = s.threat a := by
    intro a ha
    refine threat_withThreat_of_ne ?_
    rintro rfl
    exact h ha
  refine List.Pairwise.iff_of_mem fun {a b} ha hb => ?_
  rw [heq a ha, heq b hb]

omit [FloatArith] in
theorem ne_of_nodup {l pre suf : List ℕ} (h : l.Nodup) (hlist : l = pre ++ r :: suf) :
    (∀ a ∈ pre, a ≠ r) ∧ ∀ b ∈ suf, b ≠ r := by
  rw [hlist] at h
  obtain ⟨-, hsuf, hpre⟩ := List.nodup_append.1 h
  refine ⟨fun a ha => hpre a ha r List.mem_cons_self, ?_⟩
  rintro b hb rfl
  exact (List.nodup_cons.1 hsuf).1 hb

/-- In a list that is in order one threat can change without harm exactly if it stays in its place. -/
theorem inOrder_withThreat_iff {modThreat : ℚ} (hnodup : s.threatContainer.Nodup)
    (hin : s.InOrder) (hr : r ∈ s.threatContainer) :
    (s.withThreat r modThreat).InOrder ↔ s.Keeps r (add (s.threat r) modThreat) := by
  have hparts : ∀ pre suf, s.threatContainer = pre ++ r :: suf →
      ((s.withThreat r modThreat).InOrder ↔
        (∀ a ∈ pre, add (s.threat r) modThreat ≤ s.threat a) ∧
          ∀ b ∈ suf, s.threat b ≤ add (s.threat r) modThreat) := by
    intro pre suf hlist
    obtain ⟨hpre, hsuf⟩ := ne_of_nodup hnodup hlist
    have hnew : ∀ a, a ≠ r → (s.withThreat r modThreat).threat a = s.threat a :=
      fun a ha => threat_withThreat_of_ne ha
    have hself : (s.withThreat r modThreat).threat r = add (s.threat r) modThreat :=
      threat_withThreat_self
    unfold InOrder at hin ⊢
    rw [hlist, List.pairwise_append, List.pairwise_cons] at hin
    show (s.threatContainer.Pairwise _) ↔ _
    rw [hlist, List.pairwise_append, List.pairwise_cons]
    obtain ⟨h₁, ⟨-, h₂⟩, h₁₂⟩ := hin
    constructor
    · rintro ⟨-, ⟨hb, -⟩, ha⟩
      refine ⟨fun a hmem => ?_, fun b hmem => ?_⟩
      · rw [← hself, ← hnew a (hpre a hmem)]
        exact ha a hmem r List.mem_cons_self
      · rw [← hself, ← hnew b (hsuf b hmem)]
        exact hb b hmem
    · rintro ⟨ha, hb⟩
      refine ⟨h₁.imp_of_mem fun {a b} hmem hmem' hab => ?_,
        ⟨fun b hmem => ?_, h₂.imp_of_mem fun {a b} hmem hmem' hab => ?_⟩,
        fun a hmem b hmem' => ?_⟩
      · rw [hnew a (hpre a hmem), hnew b (hpre b hmem')]
        exact hab
      · rw [hself, hnew b (hsuf b hmem)]
        exact hb b hmem
      · rw [hnew a (hsuf a hmem), hnew b (hsuf b hmem')]
        exact hab
      · rw [hnew a (hpre a hmem)]
        rcases List.mem_cons.1 hmem' with rfl | hmem'
        · rw [hself]
          exact ha a hmem
        · rw [hnew b (hsuf b hmem')]
          exact h₁₂ a hmem b (List.mem_cons_of_mem r hmem')
  obtain ⟨pre, suf, hlist⟩ := List.append_of_mem hr
  exact ⟨fun h pre suf hlist => (hparts pre suf hlist).1 h, fun h =>
    (hparts pre suf hlist).2 (h pre suf hlist)⟩

omit [FloatArith] in
theorem processThreatChange_inOrder {value : ℚ} :
    (s.processThreatChange r value).InOrder ↔ s.InOrder := by
  obtain ⟨dirty, heq⟩ := processThreatChange_eq s r value
  rw [heq]
  rfl

omit [FloatArith] in
theorem processThreatChange_ordered {value : ℚ} :
    (s.processThreatChange r value).Ordered ↔ s.dirty = true ∨ s.Marks r value ∨ s.InOrder := by
  unfold Ordered
  rw [processThreatChange_dirty, processThreatChange_inOrder, or_assoc]

/-- A reference that goes online, when the list is in order or marked. -/
theorem setOnline_ordered_iff (h : s.Ordered) (hoff : (s.ref r).isOnline = false) :
    (s.setOnlineOfflineState r true).Ordered ↔ s.dirty = true ∨ s.Arrives (s.threat r) := by
  obtain ⟨dirty, heq, hdirty⟩ := setOnline_eq hoff
  have hthreat : (s.setRef r fun ref => { ref with isOnline := true }).threat = s.threat :=
    funext (setRef_field HostileReference.threat rfl)
  have hin : (s.setOnlineOfflineState r true).InOrder ↔
      s.InOrder ∧ ∀ a ∈ s.threatContainer, s.threat r ≤ s.threat a := by
    rw [heq]
    show ((s.threatContainer ++ [r]).Pairwise fun a b =>
      (s.setRef r fun ref => { ref with isOnline := true }).threat b ≤
        (s.setRef r fun ref => { ref with isOnline := true }).threat a) ↔ _
    rw [hthreat, List.pairwise_append]
    simp [InOrder]
  have hmark : (s.setOnlineOfflineState r true).dirty = true ↔
      s.dirty = true ∨ s.Outruns (s.threat r) := by
    rw [heq]
    exact hdirty
  unfold Ordered Arrives
  rw [hin, hmark, or_assoc]
  by_cases hd : s.dirty = true
  · simp [hd]
  · have hs : s.InOrder := h.resolve_left hd
    simp [hs]

theorem setOffline_ordered (h : s.Ordered) : (s.setOnlineOfflineState r false).Ordered := by
  by_cases hon : (s.ref r).isOnline = true
  · obtain ⟨dirty, victim, heq, hdirty, -⟩ := setOffline_eq hon
    have hthreat : (s.setRef r fun ref =>
        { ref with isOnline := false, isAccessible := false }).threat = s.threat :=
      funext (setRef_field HostileReference.threat rfl)
    rw [heq]
    refine h.imp hdirty fun hin => ?_
    show ((s.threatContainer.filter (· ≠ r)).Pairwise fun a b =>
      (s.setRef r fun ref => { ref with isOnline := false, isAccessible := false }).threat b ≤
        (s.setRef r fun ref => { ref with isOnline := false, isAccessible := false }).threat a)
    rw [hthreat]
    exact hin.filter _
  · rw [setOnlineOffline_same (by simpa using hon)]
    exact h

theorem ordered_changeThreat_online {modThreat : ℚ} (hon : (s.ref r).isOnline = true) :
    (s.changeThreat w r modThreat).Ordered ↔
      s.dirty = true ∨ s.Marks r modThreat ∨ (s.withThreat r modThreat).InOrder := by
  rw [changeThreat_eq, processThreatChange_ordered, beforeEvent, if_pos hon]
  rfl

omit [FloatArith] in
theorem Inv.not_mem (h : Inv s) (hoff : (s.ref r).isOnline = false) : r ∉ s.threatContainer := by
  intro hmem
  rw [h.online, hoff] at hmem
  exact Bool.false_ne_true hmem.2

/-- A threat that arrives does so whatever the threat of a reference offline. -/
theorem arrives_congr {t : ThreatManager} (h : Inv s) (hcur : t.currentVictim = s.currentVictim)
    (hlist : t.threatContainer = s.threatContainer)
    (hthreat : ∀ a ∈ s.threatContainer, t.threat a = s.threat a) : t.Arrives x ↔ s.Arrives x := by
  unfold Arrives Outruns
  rw [hcur, hlist]
  refine or_congr ⟨?_, ?_⟩ (forall₂_congr fun a ha => by rw [hthreat a ha])
  · rintro ⟨v, hv, hlt⟩
    rw [hthreat v (h.victim v hv)] at hlt
    exact ⟨v, hv, hlt⟩
  · rintro ⟨v, hv, hlt⟩
    rw [← hthreat v (h.victim v hv)] at hlt
    exact ⟨v, hv, hlt⟩

theorem setOnline_marks {value : ℚ} (hoff : (s.ref r).isOnline = false) :
    (s.setOnlineOfflineState r true).Marks r value ↔ s.Marks r value := by
  obtain ⟨dirty, heq, -⟩ := setOnline_eq hoff
  rw [heq]
  rfl

/-- The status of a reference offline is looked up, when the list is in order or marked. -/
theorem updateOnlineStatus_spec (h : Inv s) (hord : s.Ordered) (hoff : (s.ref r).isOnline = false)
    (value : ℚ) : ((s.updateOnlineStatus w r).Ordered ↔ s.dirty = true ∨
        (s.reached w r = true → s.Arrives (s.threat r))) ∧
      ((s.updateOnlineStatus w r).Marks r value ↔ s.Marks r value) := by
  obtain ⟨f, hf, heq⟩ := updateOnlineStatus_eq w s r
  have hthreat : (s.setRef r f).threat = s.threat :=
    funext (setRef_field HostileReference.threat (hf _).2.2)
  have hoff' : ((s.setRef r f).ref r).isOnline = false := by
    rw [setRef_self, (hf _).2.1, hoff]
  have hord' : (s.setRef r f).Ordered := hord.setRef (hf _).2.2
  rw [heq]
  cases hreach : s.reached w r with
  | false =>
    rw [setOnlineOffline_same hoff']
    exact ⟨iff_of_true hord' (.inr fun hno => absurd hno Bool.false_ne_true), Iff.rfl⟩
  | true =>
    refine ⟨?_, setOnline_marks hoff'⟩
    rw [setOnline_ordered_iff hord' hoff', hthreat,
      arrives_congr (t := s.setRef r f) h rfl rfl fun a _ => congrFun hthreat a,
      imp_iff_right rfl]
    rfl

/-- One change of the threat of a reference: the list is marked or in order afterwards exactly if the
change is clean. -/
theorem ordered_changeThreat_iff {modThreat : ℚ} (h : Inv s) (hord : s.Ordered) (hr : r ∈ s.live) :
    (s.changeThreat w r modThreat).Ordered ↔ s.CleanChange w r modThreat := by
  unfold CleanChange
  by_cases hon : (s.ref r).isOnline = true
  · rw [ordered_changeThreat_online hon, if_pos hon]
    rcases hord with hdirty | hin
    · exact iff_of_true (.inl hdirty) (.inl hdirty)
    · rw [inOrder_withThreat_iff h.nodup hin ((h.online r).2 ⟨hr, hon⟩)]
  · have hoff : (s.ref r).isOnline = false := by simpa using hon
    have hnot := h.not_mem hoff
    have hset : Inv (s.withThreat r modThreat) := h.setRef rfl rfl
    have hoff' : ((s.withThreat r modThreat).ref r).isOnline = false := by
      rw [withThreat, setRef_self]
      exact hoff
    have hord' : (s.withThreat r modThreat).Ordered :=
      hord.imp_right (inOrder_withThreat_of_not_mem hnot).2
    have hreach : (s.withThreat r modThreat).reached w r = s.reached w r := by
      unfold reached withThreat
      rw [setRef_self]
    obtain ⟨hiff, hmarks⟩ := updateOnlineStatus_spec (w := w) hset hord' hoff' modThreat
    have harrives : (s.withThreat r modThreat).Arrives ((s.withThreat r modThreat).threat r) ↔
        s.Arrives (add (s.threat r) modThreat) := by
      rw [threat_withThreat_self]
      refine arrives_congr h rfl rfl fun a ha => threat_withThreat_of_ne ?_
      rintro rfl
      exact hnot ha
    have hsame : (s.withThreat r modThreat).Marks r modThreat ↔ s.Marks r modThreat := Iff.rfl
    have hdirty : (s.withThreat r modThreat).dirty = s.dirty := rfl
    rw [changeThreat_eq, processThreatChange_ordered, beforeEvent, if_neg hon, if_neg hon,
      or_left_comm, ← Ordered, hmarks, hiff, harrives, hreach, hsame, hdirty, or_left_comm]

/-! ### Finding or creating a reference -/

omit [FloatArith] in
theorem mem_of_getReferenceByTarget {container : List ℕ}
    (h : s.getReferenceByTarget container victim = some r) :
    r ∈ container ∧ (s.ref r).unitGuid = victim := by
  have hspec := List.find?_some h
  exact ⟨List.mem_of_find?_eq_some h, of_decide_eq_true hspec⟩

omit [FloatArith] in
theorem getReferenceByTarget_eq_none {container : List ℕ}
    (h : s.getReferenceByTarget container victim = none) :
    ∀ r ∈ container, (s.ref r).unitGuid ≠ victim := by
  intro r hr heq
  have hno := List.find?_eq_none.1 h r hr
  rw [decide_eq_true_eq] at hno
  exact hno heq

/-- The manager with a new reference. -/
def created (s : ThreatManager) (victim : ℕ) : ThreatManager :=
  { s with
    ref := Function.update s.ref s.nextRef (.new victim)
    live := insert s.nextRef s.live
    nextRef := s.nextRef + 1
    threatContainer := s.threatContainer ++ [s.nextRef] }

omit [FloatArith] in
/-- A reference that is there, or a new one when there is none. -/
theorem findOrCreate_spec (h : Inv s) (victim : ℕ) :
    (∃ r ∈ s.live, s.findOrCreate victim = (s, r, false)) ∨
      ((∀ r ∈ s.live, (s.ref r).unitGuid ≠ victim) ∧
        s.findOrCreate victim = (s.created victim, s.nextRef, true)) := by
  unfold findOrCreate
  cases hon : s.getReferenceByTarget s.threatContainer victim with
  | some r =>
    exact .inl ⟨r, ((h.online r).1 (mem_of_getReferenceByTarget hon).1).1, rfl⟩
  | none =>
    cases hoff : s.getReferenceByTarget s.offlineContainer victim with
    | some r =>
      exact .inl ⟨r, ((h.offline r).1 (mem_of_getReferenceByTarget hoff).1).1, rfl⟩
    | none =>
      refine .inr ⟨fun r hr => ?_, rfl⟩
      cases honline : (s.ref r).isOnline with
      | true => exact getReferenceByTarget_eq_none hon r ((h.online r).2 ⟨hr, honline⟩)
      | false => exact getReferenceByTarget_eq_none hoff r ((h.offline r).2 ⟨hr, honline⟩)

omit [FloatArith] in
theorem Inv.created (h : Inv s) (hnew : ∀ r ∈ s.live, (s.ref r).unitGuid ≠ victim) :
    Inv (s.created victim) := by
  have hfresh : s.nextRef ∉ s.live := fun hmem => lt_irrefl _ (h.fresh _ hmem)
  have hold : ∀ a ∈ s.live, (s.created victim).ref a = s.ref a := by
    intro a ha
    refine Function.update_of_ne ?_ ..
    rintro rfl
    exact hfresh ha
  have hself : (s.created victim).ref s.nextRef = .new victim := Function.update_self ..
  have hlive : (s.created victim).live = insert s.nextRef s.live := rfl
  refine ⟨fun a => ?_, fun a => ?_, ?_, h.nodupOffline, fun a ha b hb hab => ?_, fun a ha => ?_,
    fun v hv => ?_⟩
  · show a ∈ s.threatContainer ++ [s.nextRef] ↔ _
    rw [List.mem_append, List.mem_singleton, hlive, Finset.mem_insert, h.online]
    by_cases ha : a = s.nextRef
    · subst ha
      simp [hself, HostileReference.new]
    · by_cases hmem : a ∈ s.live
      · simp [hold a hmem, hmem, ha]
      · simp [hmem, ha]
  · show a ∈ s.offlineContainer ↔ _
    rw [hlive, Finset.mem_insert, h.offline]
    by_cases ha : a = s.nextRef
    · subst ha
      simp [hself, HostileReference.new, hfresh]
    · by_cases hmem : a ∈ s.live
      · simp [hold a hmem, hmem]
      · simp [hmem, ha]
  · exact nodup_concat h.nodup fun hmem => hfresh ((h.online _).1 hmem).1
  · rw [hlive, Finset.mem_insert] at ha hb
    rcases ha with rfl | ha <;> rcases hb with rfl | hb
    · rfl
    · rw [hself, hold b hb] at hab
      exact absurd hab.symm (hnew b hb)
    · rw [hself, hold a ha] at hab
      exact absurd hab (hnew a ha)
    · rw [hold a ha, hold b hb] at hab
      exact h.guids a ha b hb hab
  · rw [hlive, Finset.mem_insert] at ha
    show a < s.nextRef + 1
    rcases ha with rfl | ha
    · exact Nat.lt_succ_self _
    · exact Nat.lt_succ_of_lt (h.fresh a ha)
  · exact List.mem_append_left _ (h.victim v hv)

/-- `_addThreat` up to the threat of an owner. -/
def touch (w : World) (s : ThreatManager) (victim : ℕ) (threat : ℚ) : ThreatManager :=
  (s.findOrCreate victim).1.changeThreat w (s.findOrCreate victim).2.1 threat

/-- A new reference is put to the end of the list and marks it if its threat is positive. -/
def CleanTouch (w : World) (s : ThreatManager) (victim : ℕ) (threat : ℚ) : Prop :=
  if (s.findOrCreate victim).2.2 then
    s.dirty = true ∨ 0 < threat ∨ ∀ a ∈ s.threatContainer, threat ≤ s.threat a
  else s.CleanChange w (s.findOrCreate victim).2.1 threat

theorem ordered_created_iff {threat : ℚ} (h : Inv s) (hord : s.Ordered) :
    ((s.created victim).changeThreat w s.nextRef threat).Ordered ↔
      s.dirty = true ∨ 0 < threat ∨ ∀ a ∈ s.threatContainer, threat ≤ s.threat a := by
  have hself : (s.created victim).ref s.nextRef = .new victim := Function.update_self ..
  have hne : ∀ a ∈ s.threatContainer, a ≠ s.nextRef :=
    fun a ha => (h.fresh a ((h.online a).1 ha).1).ne
  have hold : ∀ a ∈ s.threatContainer,
      ((s.created victim).withThreat s.nextRef threat).threat a = s.threat a := by
    intro a ha
    rw [threat_withThreat_of_ne (hne a ha)]
    exact congrArg HostileReference.threat (Function.update_of_ne (hne a ha) ..)
  have hnew : ((s.created victim).withThreat s.nextRef threat).threat s.nextRef = threat := by
    rw [threat_withThreat_self, ThreatManager.threat, hself]
    exact FloatArith.zero_add threat
  have hmarks : (s.created victim).Marks s.nextRef threat ↔ 0 < threat := by
    have hcur : s.currentVictim ≠ some s.nextRef := fun hv => hne _ (h.victim _ hv) rfl
    show (s.currentVictim = some s.nextRef ∧ _) ∨ (s.currentVictim ≠ some s.nextRef ∧ _) ↔ _
    simp [hcur]
  have hin : ((s.created victim).withThreat s.nextRef threat).InOrder ↔
      s.InOrder ∧ ∀ a ∈ s.threatContainer, threat ≤ s.threat a := by
    show ((s.threatContainer ++ [s.nextRef]).Pairwise fun a b =>
      ((s.created victim).withThreat s.nextRef threat).threat b ≤
        ((s.created victim).withThreat s.nextRef threat).threat a) ↔ _
    rw [List.pairwise_append]
    refine and_congr (List.Pairwise.iff_of_mem fun {a b} ha hb => by rw [hold a ha, hold b hb]) ?_
    simp only [List.pairwise_singleton, List.mem_singleton, forall_eq, true_and, hnew]
    exact forall₂_congr fun a ha => by rw [hold a ha]
  have hon : ((s.created victim).ref s.nextRef).isOnline = true := by
    rw [hself]
    rfl
  have hdirty : (s.created victim).dirty = s.dirty := rfl
  rw [ordered_changeThreat_online hon, hmarks, hin, hdirty]
  rcases hord with hd | hs
  · simp [hd]
  · simp [hs]

/-- The reference that `_addThreat` finds or makes is there, and the list is marked or in order
exactly if the change is clean. -/
theorem touch_spec (h : Inv s) (w : World) (victim : ℕ) (threat : ℚ) :
    Inv (s.touch w victim threat) ∧ s.live ⊆ (s.touch w victim threat).live ∧
      (s.findOrCreate victim).2.1 ∈ (s.touch w victim threat).live ∧
      (s.Ordered → ((s.touch w victim threat).Ordered ↔ s.CleanTouch w victim threat)) := by
  unfold touch CleanTouch
  rw [changeThreat_live]
  rcases findOrCreate_spec h victim with ⟨r, hr, heq⟩ | ⟨hnew, heq⟩
  · rw [heq]
    exact ⟨h.changeThreat hr w threat, subset_rfl, hr, fun hord =>
      ordered_changeThreat_iff h hord hr⟩
  · rw [heq]
    have hlive : (s.created victim).live = insert s.nextRef s.live := rfl
    refine ⟨(h.created hnew).changeThreat ?_ w threat, ?_, ?_, ordered_created_iff h⟩
    · rw [hlive]
      exact Finset.mem_insert_self ..
    · rw [hlive]
      exact Finset.subset_insert ..
    · rw [hlive]
      exact Finset.mem_insert_self ..

end ThreatManager

end FaceCore.Combat
