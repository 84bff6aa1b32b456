import Mathlib.Algebra.Order.Ring.Rat
import Mathlib.Tactic.Linarith
import Mathlib.Tactic.NormNum.Basic

/-!
# The next victim

`ThreatContainer::selectNextVictim` goes down a threat list, the highest threat first. Targets that
are a second choice are passed over, and the list is gone through again when the last one is such a
target, this time with every target. A target that can be attacked takes the place of the current
victim if its threat is more than 110 percent of the victim's and it stands in melee range, or more
than 130 percent; if its threat is not more than 110 percent, the current victim stays.

* `loop`, `selectNextVictim`: the function, with fuel;
* `pick`, `pickFirst`: the two passes, without it (`selectNextVictim_eq`);
* `Right`: what the function should find;
* `selectNextVictim_right_iff`: exactly when it finds that.
-/

namespace FaceCore.Combat

/-- What `selectNextVictim` asks about the targets of the references: the threat, whether the
attacker can attack the target, whether it is a second choice (immune, or under an aura that damage
breaks), and whether it is in melee range. The products `1.1f * x` and `1.3f * x` are those of
floats. -/
structure Targets (ι : Type) where
  times110 : ℚ → ℚ
  times130 : ℚ → ℚ
  threat : ι → ℚ
  canAttack : ι → Bool
  secondChoice : ι → Bool
  inMelee : ι → Bool

namespace Targets

variable {ι : Type} [DecidableEq ι] (T : Targets ι)

/-- The comparison of a target with the current victim: the reference that is found, or none when
the loop goes on. -/
def compare (currentVictim : Option ι) (currentRef : ι) : Option ι :=
  match currentVictim with
  | none => some currentRef
  | some v =>
    if v = currentRef ∨ T.threat currentRef ≤ T.times110 (T.threat v) then
      some (if v ≠ currentRef ∧ T.canAttack v then v else currentRef)
    else if T.threat currentRef > T.times130 (T.threat v) ∨
        (T.threat currentRef > T.times110 (T.threat v) ∧ T.inMelee currentRef) then some currentRef
    else none

/-- The loop of `selectNextVictim` over the list `l`, from the iterator on. -/
def loop (l : List ι) : ℕ → Bool → Option ι → List ι → Option (Option ι)
  | 0, _, _, _ => none
  | _ + 1, _, _, [] => some none
  | fuel + 1, noPriorityTargetFound, currentVictim, currentRef :: rest =>
    if !noPriorityTargetFound && T.secondChoice currentRef then
      if rest.isEmpty then loop l fuel true currentVictim l
      else loop l fuel false (if currentVictim = some currentRef then none else currentVictim) rest
    else if T.canAttack currentRef then
      match T.compare currentVictim currentRef with
      | some found => some (some found)
      | none => loop l fuel noPriorityTargetFound currentVictim rest
    else loop l fuel noPriorityTargetFound currentVictim rest

/-- `ThreatContainer::selectNextVictim`, with fuel for its loop. -/
def selectNextVictim (fuel : ℕ) (l : List ι) (currentVictim : Option ι) : Option (Option ι) :=
  T.loop l fuel false currentVictim l

/-! ### The two passes -/

/-- What the loop finds with a target that is not passed over. -/
def verdict (victim : Option ι) (ref : ι) : Option ι :=
  if T.canAttack ref then T.compare victim ref else none

/-- The pass in which every target counts. -/
def pick (victim : Option ι) (l : List ι) : Option ι := l.findSome? (T.verdict victim)

/-- The pass in which targets of second choice are passed over. -/
def pickFirst (l : List ι) : Option ι → List ι → Option ι
  | _, [] => none
  | victim, ref :: rest =>
    if T.secondChoice ref then
      if rest.isEmpty then T.pick victim l
      else pickFirst l (if victim = some ref then none else victim) rest
    else
      match T.verdict victim ref with
      | some found => some found
      | none => pickFirst l victim rest

variable {T} {l rest : List ι} {victim : Option ι} {v ref : ι} {fuel : ℕ}

theorem loop_true_eq (h : rest.length < fuel) :
    T.loop l fuel true victim rest = some (T.pick victim rest) := by
  induction rest generalizing fuel with
  | nil =>
    obtain ⟨n, rfl⟩ := Nat.exists_eq_succ_of_ne_zero (Nat.ne_of_gt h)
    rfl
  | cons ref rest ih =>
    obtain ⟨n, rfl⟩ := Nat.exists_eq_succ_of_ne_zero (Nat.ne_of_gt (Nat.zero_lt_of_lt h))
    have hrest := @ih n (Nat.lt_of_succ_lt_succ h)
    rw [pick, List.findSome?_cons, verdict, loop]
    by_cases hatt : T.canAttack ref = true
    · simp only [hatt, Bool.not_true, Bool.false_and, Bool.false_eq_true, if_false, if_true]
      cases T.compare victim ref with
      | none => exact hrest
      | some found => rfl
    · simp only [hatt, Bool.not_true, Bool.false_and, Bool.false_eq_true, if_false]
      exact hrest

/-- The loop ends after it has gone twice through the list. -/
theorem loop_false_eq (h : rest.length + l.length < fuel) :
    T.loop l fuel false victim rest = some (T.pickFirst l victim rest) := by
  induction rest generalizing fuel victim with
  | nil =>
    obtain ⟨n, rfl⟩ := Nat.exists_eq_succ_of_ne_zero (Nat.ne_of_gt (Nat.zero_lt_of_lt h))
    rfl
  | cons ref rest ih =>
    obtain ⟨n, rfl⟩ := Nat.exists_eq_succ_of_ne_zero (Nat.ne_of_gt (Nat.zero_lt_of_lt h))
    rw [List.length_cons] at h
    have hrest : ∀ victim, T.loop l n false victim rest = some (T.pickFirst l victim rest) :=
      fun victim => ih (by omega)
    rw [pickFirst, verdict, loop]
    by_cases hsec : T.secondChoice ref = true
    · simp only [hsec, Bool.not_false, Bool.and_self, if_true]
      split_ifs
      · exact loop_true_eq (by omega)
      · exact hrest none
      · exact hrest victim
    · simp only [hsec, Bool.and_false, Bool.false_eq_true, if_false]
      by_cases hatt : T.canAttack ref = true
      · simp only [hatt, if_true]
        cases T.compare victim ref with
        | none => exact hrest victim
        | some found => rfl
      · simp only [hatt, Bool.false_eq_true, if_false]
        exact hrest victim

theorem selectNextVictim_eq (h : 2 * l.length < fuel) :
    T.selectNextVictim fuel l victim = some (T.pickFirst l victim l) :=
  loop_false_eq (by omega)

/-! ### What a pass finds -/

/-- The target neither takes the place of the victim nor makes it stay: its threat is more than 110
percent, but not more than 130 percent, and it is not in melee range. -/
def Skipped (T : Targets ι) (v ref : ι) : Prop :=
  ref ≠ v ∧ T.times110 (T.threat v) < T.threat ref ∧ T.threat ref ≤ T.times130 (T.threat v) ∧
    ¬T.inMelee ref = true

/-- The target takes the place of the victim. -/
def Pulls (T : Targets ι) (v ref : ι) : Prop :=
  T.times110 (T.threat v) < T.threat ref ∧
    (T.times130 (T.threat v) < T.threat ref ∨ T.inMelee ref = true)

/-- The target is preferred: it can be attacked and is no second choice. -/
def Preferred (T : Targets ι) (ref : ι) : Prop :=
  T.canAttack ref = true ∧ ¬T.secondChoice ref = true

/-- What the loop finds with a target in the first pass. -/
def first (T : Targets ι) (victim : Option ι) (ref : ι) : Option ι :=
  if T.secondChoice ref then none else T.verdict victim ref

theorem compare_eq_none_iff : T.compare (some v) ref = none ↔ T.Skipped v ref := by
  unfold compare Skipped
  dsimp only
  split_ifs with hstay hpull
  · refine iff_of_false (fun h => by cases h) fun h => ?_
    rcases hstay with rfl | hle
    · exact h.1 rfl
    · exact absurd h.2.1 (not_lt.2 hle)
  · refine iff_of_false (fun h => by cases h) fun h => ?_
    rcases hpull with hlt | ⟨-, hmelee⟩
    · exact absurd h.2.2.1 (not_le.2 hlt)
    · exact h.2.2.2 hmelee
  · obtain ⟨hne, hlt⟩ := not_or.1 hstay
    obtain ⟨hle, hmelee⟩ := not_or.1 hpull
    refine iff_of_true rfl ⟨Ne.symm hne, not_le.1 hlt, not_lt.1 hle, fun h => hmelee ⟨?_, h⟩⟩
    exact not_le.1 hlt

theorem compare_of_le (hne : v ≠ ref) (hle : T.threat ref ≤ T.times110 (T.threat v)) :
    T.compare (some v) ref = some (if T.canAttack v then v else ref) := by
  simp [compare, hle, hne]

theorem compare_of_pulls (hne : v ≠ ref) (h : T.Pulls v ref) :
    T.compare (some v) ref = some ref := by
  obtain ⟨hlt, hpull⟩ := h
  unfold compare
  have hstay : ¬(v = ref ∨ T.threat ref ≤ T.times110 (T.threat v)) :=
    fun h => h.elim hne (not_le.2 hlt)
  have hpull' : T.threat ref > T.times130 (T.threat v) ∨
      (T.threat ref > T.times110 (T.threat v) ∧ T.inMelee ref = true) :=
    hpull.imp_right fun hmelee => ⟨hlt, hmelee⟩
  dsimp only
  rw [if_neg hstay, if_pos hpull']

/-- What is found is the target itself, or the victim when it can be attacked. -/
theorem compare_sound {found : ι} (h : T.compare victim ref = some found) :
    found = ref ∨ (victim = some found ∧ T.canAttack found = true) := by
  unfold compare at h
  cases victim with
  | none => exact .inl (Option.some.inj h).symm
  | some v =>
    dsimp only at h
    split_ifs at h with hstay hboth
    · obtain rfl := Option.some.inj h
      exact .inr ⟨rfl, hboth.2⟩
    · exact .inl (Option.some.inj h).symm
    · exact .inl (Option.some.inj h).symm

theorem verdict_sound {found : ι} (h : T.verdict victim ref = some found) :
    T.canAttack found = true ∧ (found = ref ∨ victim = some found) := by
  unfold verdict at h
  split_ifs at h with hatt
  rcases compare_sound h with rfl | ⟨hvictim, hfound⟩
  · exact ⟨hatt, .inl rfl⟩
  · exact ⟨hfound, .inr hvictim⟩

theorem verdict_eq_none_iff : T.verdict (some v) ref = none ↔
    (T.canAttack ref = true → T.Skipped v ref) := by
  unfold verdict
  split_ifs with hatt
  · simp [hatt, compare_eq_none_iff]
  · simp [hatt]

theorem first_eq_none_iff : T.first (some v) ref = none ↔
    (T.Preferred ref → T.Skipped v ref) := by
  unfold first Preferred
  split_ifs with hsec
  · simp [hsec]
  · simp [hsec, verdict_eq_none_iff]

theorem first_none_eq_some_iff {found : ι} :
    T.first none ref = some found ↔ T.Preferred ref ∧ found = ref := by
  have hnone : T.compare none ref = some ref := rfl
  unfold first Preferred verdict
  rw [hnone]
  split_ifs with hsec hatt
  · simp [hsec]
  · simp [hsec, hatt, eq_comm]
  · simp [hatt]

theorem pick_sound {found : ι} (h : T.pick victim l = some found)
    (hv : ∀ w, victim = some w → w ∈ l) : T.canAttack found = true ∧ found ∈ l := by
  obtain ⟨ref, href, hfound⟩ := List.exists_of_findSome?_eq_some h
  obtain ⟨hatt, rfl | hvictim⟩ := verdict_sound hfound
  · exact ⟨hatt, href⟩
  · exact ⟨hatt, hv _ hvictim⟩

theorem pick_isSome_iff :
    (T.pick (some v) l).isSome ↔ ∃ ref ∈ l, T.canAttack ref = true ∧ ¬T.Skipped v ref := by
  unfold pick
  rw [List.findSome?_isSome_iff]
  refine exists_congr fun ref => and_congr_right fun _ => ?_
  rw [Option.isSome_iff_ne_none, Ne, verdict_eq_none_iff, Classical.not_imp]

/-! ### The first pass -/

/-- The last target of a list is a second choice. -/
def LastSecond (T : Targets ι) (l : List ι) : Prop := ∃ x ∈ l.getLast?, T.secondChoice x = true

omit [DecidableEq ι] in
theorem lastSecond_cons {x y : ι} : T.LastSecond (x :: y :: rest) ↔ T.LastSecond (y :: rest) := by
  unfold LastSecond
  rw [List.getLast?_cons_cons]

omit [DecidableEq ι] in
theorem lastSecond_append {l₁ l₂ : List ι} (h : l₂ ≠ []) :
    T.LastSecond (l₁ ++ l₂) ↔ T.LastSecond l₂ := by
  unfold LastSecond
  rw [List.getLast?_append, List.getLast?_eq_some_getLast h, Option.some_or]

open Classical in
/-- The first pass, when the victim is not met as a second choice. -/
theorem pickFirst_eq (hv : ∀ x ∈ rest, T.secondChoice x = true → victim ≠ some x) :
    T.pickFirst l victim rest =
      (rest.findSome? (T.first victim)).or
        (if T.LastSecond rest then T.pick victim l else none) := by
  induction rest with
  | nil => simp [pickFirst, LastSecond]
  | cons ref rest ih =>
    have hrest := ih fun x hx => hv x (List.mem_cons_of_mem ref hx)
    rw [pickFirst, List.findSome?_cons, first]
    by_cases hsec : T.secondChoice ref = true
    · rw [if_pos hsec, if_pos hsec, if_neg (hv ref List.mem_cons_self hsec)]
      cases rest with
      | nil => simp [LastSecond, hsec]
      | cons x rest =>
        simp only [lastSecond_cons]
        exact hrest
    · rw [if_neg hsec, if_neg hsec]
      cases T.verdict victim ref with
      | some found => rfl
      | none =>
        cases rest with
        | nil => simp [pickFirst, LastSecond, hsec]
        | cons x rest =>
          simp only [lastSecond_cons]
          exact hrest

/-- The first pass, when the victim is met as a second choice. -/
theorem pickFirst_append {l₁ l₂ : List ι} (hv : v ∉ l₁) (hsec : T.secondChoice v = true) :
    T.pickFirst l (some v) (l₁ ++ v :: l₂) =
      (l₁.findSome? (T.first (some v))).or
        (if l₂.isEmpty then T.pick (some v) l else T.pickFirst l none l₂) := by
  induction l₁ with
  | nil => simp [pickFirst, hsec]
  | cons ref l₁ ih =>
    rw [List.mem_cons, not_or] at hv
    have hne : ¬some v = some ref := fun h => hv.1 (Option.some.inj h)
    have hrest := ih hv.2
    rw [List.cons_append, pickFirst, List.findSome?_cons, first]
    by_cases hsecref : T.secondChoice ref = true
    · rw [if_pos hsecref, if_pos hsecref, if_neg hne]
      have hnil : (l₁ ++ v :: l₂).isEmpty = false := by simp
      rw [hnil]
      exact hrest
    · rw [if_neg hsecref, if_neg hsecref]
      cases T.verdict (some v) ref with
      | some found => rfl
      | none => exact hrest

/-! ### What should be found -/

/-- Nobody is found exactly if nobody can be attacked, who is found can be attacked, and a second
choice is found only if there is nobody else. -/
structure Right (T : Targets ι) (l : List ι) (result : Option ι) : Prop where
  isNone : result = none ↔ ∀ x ∈ l, ¬T.canAttack x = true
  sound : ∀ x, result = some x → x ∈ l ∧ T.canAttack x = true
  second : ∀ x, result = some x → T.secondChoice x = true →
    ∀ y ∈ l, T.canAttack y = true → T.secondChoice y = true

/-- The targets before the victim. -/
def before (v : ι) (l : List ι) : List ι := l.takeWhile (· ≠ v)

/-- The targets behind the victim. -/
def after (v : ι) (l : List ι) : List ι := (l.dropWhile (· ≠ v)).tail

/-- With nobody preferred: the last target is a second choice, so that there is another pass, and
the victim is forgotten in the first one or does not hide everybody in the other one. -/
def SecondFound (T : Targets ι) (l : List ι) (victim : Option ι) : Prop :=
  T.LastSecond l ∧ ∀ v, victim = some v →
    (T.secondChoice v = true ∧ v ∉ l.getLast?) ∨ ∃ x ∈ l, T.canAttack x = true ∧ ¬T.Skipped v x

/-- With somebody preferred, and the victim a second choice: a preferred target before the victim
takes his place, or finds that he cannot be attacked; or all of them are skipped, and one behind him
is preferred, or the other pass begins with one. -/
def PreferredFoundBehind (T : Targets ι) (l : List ι) (v : ι) : Prop :=
  (∃ x ∈ before v l, T.Preferred x ∧
    (T.Pulls v x ∨ (T.threat x ≤ T.times110 (T.threat v) ∧ ¬T.canAttack v = true))) ∨
  ((∀ x ∈ before v l, T.Preferred x → T.Skipped v x) ∧
    ((∃ x ∈ after v l, T.Preferred x) ∨
      (T.LastSecond (after v l) ∧ ∃ x ∈ l.find? T.canAttack, ¬T.secondChoice x = true)))

/-- With somebody preferred: the victim does not hide every such target. -/
def PreferredFound (T : Targets ι) (l : List ι) (v : ι) : Prop :=
  if T.secondChoice v then T.PreferredFoundBehind l v
  else ∃ x ∈ l, T.Preferred x ∧ ¬T.Skipped v x

/-- The threat list and the victim for which the selection goes well. -/
def SelectsWell (T : Targets ι) (l : List ι) (victim : Option ι) : Prop :=
  (∀ x ∈ l, ¬T.canAttack x = true) ∨ ((∀ x ∈ l, ¬T.Preferred x) ∧ T.SecondFound l victim) ∨
    ((∃ x ∈ l, T.Preferred x) ∧ ∀ v, victim = some v → T.PreferredFound l v)

/-- Who is found stands in the list and can be attacked. -/
theorem pickFirst_sound {found : ι} (h : T.pickFirst l victim rest = some found)
    (hrest : ∀ x ∈ rest, x ∈ l) (hv : ∀ w, victim = some w → w ∈ l) :
    found ∈ l ∧ T.canAttack found = true := by
  induction rest generalizing victim with
  | nil => cases h
  | cons ref rest ih =>
    have hmem := hrest ref List.mem_cons_self
    have hrest' : ∀ x ∈ rest, x ∈ l := fun x hx => hrest x (List.mem_cons_of_mem ref hx)
    rw [pickFirst] at h
    split_ifs at h with hsec hlast hvictim
    · exact (pick_sound h hv).symm
    · exact ih h hrest' fun w hw => by cases hw
    · exact ih h hrest' hv
    · cases hverdict : T.verdict victim ref with
      | none =>
        rw [hverdict] at h
        exact ih h hrest' hv
      | some found' =>
        rw [hverdict] at h
        obtain rfl := Option.some.inj h
        obtain ⟨hatt, rfl | hfound⟩ := verdict_sound hverdict
        · exact ⟨hmem, hatt⟩
        · exact ⟨hv _ hfound, hatt⟩

omit [DecidableEq ι] in
/-- With nobody preferred, anybody will do. -/
theorem right_iff_isSome {result : Option ι}
    (hsound : ∀ x, result = some x → x ∈ l ∧ T.canAttack x = true)
    (hatt : ∃ x ∈ l, T.canAttack x = true) (hnone : ∀ x ∈ l, ¬T.Preferred x) :
    T.Right l result ↔ result.isSome := by
  have hsecond : ∀ y ∈ l, T.canAttack y = true → T.secondChoice y = true := by
    intro y hy hatt
    by_contra hsec
    exact hnone y hy ⟨hatt, hsec⟩
  rw [Option.isSome_iff_ne_none]
  constructor
  · intro h hresult
    obtain ⟨x, hx, hx'⟩ := hatt
    exact h.isNone.1 hresult x hx hx'
  · intro hne
    refine ⟨iff_of_false hne fun h => ?_, hsound, fun x _ _ => hsecond⟩
    obtain ⟨x, hx, hx'⟩ := hatt
    exact h x hx hx'

omit [DecidableEq ι] in
/-- With somebody preferred, such a target has to be found. -/
theorem right_iff_preferred {result : Option ι}
    (hsound : ∀ x, result = some x → x ∈ l ∧ T.canAttack x = true)
    (hpref : ∃ x ∈ l, T.Preferred x) :
    T.Right l result ↔ ∃ x ∈ result, ¬T.secondChoice x = true := by
  obtain ⟨y, hy, hatt, hsec⟩ := hpref
  constructor
  · intro h
    cases hresult : result with
    | none => exact absurd hatt (h.isNone.1 hresult y hy)
    | some x => exact ⟨x, rfl, fun hx => hsec (h.second x hresult hx y hy hatt)⟩
  · rintro ⟨x, hx, hxsec⟩
    obtain rfl := hx
    refine ⟨iff_of_false (fun h => by cases h) fun h => h y hy hatt, hsound, ?_⟩
    intro z hz hzsec
    obtain rfl := Option.some.inj hz
    exact absurd hzsec hxsec

theorem pick_none_eq : T.pick none l = l.find? T.canAttack := by
  unfold pick
  induction l with
  | nil => rfl
  | cons x l ih =>
    rw [List.findSome?_cons, List.find?_cons, verdict]
    by_cases hatt : T.canAttack x = true
    · rw [if_pos hatt, hatt]
      rfl
    · rw [if_neg hatt, Bool.eq_false_iff.2 hatt]
      exact ih

theorem findSome?_first_none :
    (l.findSome? (T.first none)).isSome ↔ ∃ x ∈ l, T.Preferred x := by
  rw [List.findSome?_isSome_iff]
  refine exists_congr fun x => and_congr_right fun _ => ?_
  rw [Option.isSome_iff_exists]
  constructor
  · rintro ⟨found, hfound⟩
    exact (first_none_eq_some_iff.1 hfound).1
  · exact fun h => ⟨x, first_none_eq_some_iff.2 ⟨h, rfl⟩⟩

theorem preferred_of_first_none {found : ι} (h : l.findSome? (T.first none) = some found) :
    T.Preferred found := by
  obtain ⟨x, -, hx⟩ := List.exists_of_findSome?_eq_some h
  obtain ⟨hpref, rfl⟩ := first_none_eq_some_iff.1 hx
  exact hpref

open Classical in
theorem pickFirst_none : T.pickFirst l none rest = (rest.findSome? (T.first none)).or
    (if T.LastSecond rest then l.find? T.canAttack else none) := by
  have h := @pickFirst_eq ι _ T l rest none fun _ _ _ h => by cases h
  rw [pick_none_eq] at h
  exact h

/-- What a pass without a victim finds, if somebody in the list is preferred. -/
theorem preferred_pickFirst_none : (∃ x ∈ T.pickFirst l none rest, ¬T.secondChoice x = true) ↔
    (∃ x ∈ rest, T.Preferred x) ∨
      (T.LastSecond rest ∧ ∃ x ∈ l.find? T.canAttack, ¬T.secondChoice x = true) := by
  classical
  rw [pickFirst_none]
  cases hfirst : rest.findSome? (T.first none) with
  | some found =>
    have hsome : ∃ x ∈ rest, T.Preferred x := by
      rw [← findSome?_first_none, hfirst]
      rfl
    exact iff_of_true ⟨found, rfl, (preferred_of_first_none hfirst).2⟩ (.inl hsome)
  | none =>
    have hnone : ¬∃ x ∈ rest, T.Preferred x := by
      rw [← findSome?_first_none, hfirst]
      simp
    rw [Option.none_or, or_iff_right hnone]
    split_ifs with hlast
    · simp [hlast]
    · simp [hlast]

/-- What a pass without a victim finds, if nobody is preferred. -/
theorem isSome_pickFirst_none (hatt : ∃ x ∈ l, T.canAttack x = true)
    (hnone : ∀ x ∈ rest, ¬T.Preferred x) :
    (T.pickFirst l none rest).isSome ↔ T.LastSecond rest := by
  classical
  have hfirst : rest.findSome? (T.first none) = none := by
    rw [← Option.not_isSome_iff_eq_none, findSome?_first_none]
    rintro ⟨x, hx, hpref⟩
    exact hnone x hx hpref
  rw [pickFirst_none, hfirst, Option.none_or]
  split_ifs with hlast
  · rw [List.find?_isSome]
    exact iff_of_true hatt hlast
  · exact iff_of_false (by simp) hlast

/-- What the passes find with a victim that is no second choice. -/
theorem selects_other (hv : ¬T.secondChoice v = true) (hmem : v ∈ l)
    (hatt : ∃ x ∈ l, T.canAttack x = true) : T.Right l (T.pickFirst l (some v) l) ↔
      ((∀ x ∈ l, ¬T.Preferred x) ∧ T.SecondFound l (some v)) ∨
        ((∃ x ∈ l, T.Preferred x) ∧ T.PreferredFound l v) := by
  classical
  have hsound : ∀ x, T.pickFirst l (some v) l = some x → x ∈ l ∧ T.canAttack x = true :=
    fun x hx => pickFirst_sound hx (fun _ hx => hx) fun w hw => Option.some.inj hw ▸ hmem
  have heq := @pickFirst_eq ι _ T l l (some v) fun x _ hx h => hv (Option.some.inj h ▸ hx)
  have hfirst : l.findSome? (T.first (some v)) = none ↔
      ∀ x ∈ l, T.Preferred x → T.Skipped v x := by
    rw [List.findSome?_eq_none_iff]
    exact forall₂_congr fun _ _ => first_eq_none_iff
  by_cases hpref : ∃ x ∈ l, T.Preferred x
  · have hnot : ¬∀ x ∈ l, ¬T.Preferred x := fun h => by
      obtain ⟨x, hx, hx'⟩ := hpref
      exact h x hx hx'
    rw [right_iff_preferred hsound hpref, or_iff_right fun h => hnot h.1, and_iff_right hpref,
      PreferredFound, if_neg hv, heq]
    cases hfound : l.findSome? (T.first (some v)) with
    | some found =>
      -- the target itself, or the victim, which is preferred, too
      obtain ⟨x, hx, hxfound⟩ := List.exists_of_findSome?_eq_some hfound
      have hxpref : T.Preferred x ∧ ¬T.Skipped v x := by
        have hne : ¬T.first (some v) x = none := by rw [hxfound]; simp
        rw [first_eq_none_iff, Classical.not_imp] at hne
        exact hne
      refine iff_of_true ⟨found, rfl, ?_⟩ ⟨x, hx, hxpref⟩
      rw [first, if_neg hxpref.1.2] at hxfound
      rcases (verdict_sound hxfound).2 with rfl | hvictim
      · exact hxpref.1.2
      · exact Option.some.inj hvictim ▸ hv
    | none =>
      have hskip := hfirst.1 hfound
      refine iff_of_false ?_ ?_
      · rw [Option.none_or]
        rintro ⟨x, hx, hxsec⟩
        split_ifs at hx with hlast
        · obtain ⟨y, hy, hyfound⟩ := List.exists_of_findSome?_eq_some (Option.mem_def.1 hx)
          obtain ⟨hxatt, rfl | hvictim⟩ := verdict_sound hyfound
          · have hne : ¬T.verdict (some v) x = none := by rw [hyfound]; simp
            rw [verdict_eq_none_iff, Classical.not_imp] at hne
            exact hne.2 (hskip x hy ⟨hxatt, hxsec⟩)
          · obtain rfl := Option.some.inj hvictim
            exact (hskip v hmem ⟨hxatt, hxsec⟩).1 rfl
        · cases hx
      · rintro ⟨x, hx, hxpref, hxskip⟩
        exact hxskip (hskip x hx hxpref)
  · have hnone : ∀ x ∈ l, ¬T.Preferred x := fun x hx hx' => hpref ⟨x, hx, hx'⟩
    rw [right_iff_isSome hsound hatt hnone, or_iff_left fun h => hpref h.1, and_iff_right hnone,
      heq, hfirst.2 fun x hx hx' => absurd hx' (hnone x hx), Option.none_or]
    unfold SecondFound
    split_ifs with hlast
    · rw [pick_isSome_iff]
      simp [hlast, hv]
    · exact iff_of_false (by simp) fun h => hlast h.1

omit [DecidableEq ι] in
theorem Skipped.not_pulls (h : T.Skipped v ref) : ¬T.Pulls v ref :=
  fun hpull => hpull.2.elim (not_lt.2 h.2.2.1) h.2.2.2

theorem before_append {l₁ l₂ : List ι} (h : v ∉ l₁) : before v (l₁ ++ v :: l₂) = l₁ := by
  have hall : ∀ x ∈ l₁, decide (x ≠ v) = true := fun x hx =>
    decide_eq_true fun heq => h (heq ▸ hx)
  rw [before, List.takeWhile_append_of_pos hall]
  simp

theorem after_append {l₁ l₂ : List ι} (h : v ∉ l₁) : after v (l₁ ++ v :: l₂) = l₂ := by
  have hall : ∀ x ∈ l₁, decide (x ≠ v) = true := fun x hx =>
    decide_eq_true fun heq => h (heq ▸ hx)
  rw [after, List.dropWhile_append_of_pos hall]
  simp

/-- What the targets before the victim let the first pass find. The list is sorted, so that nobody
takes the place of the victim once he stays. -/
theorem preferred_before {l₁ : List ι} {found : ι} (hsec : T.secondChoice v = true)
    (hsorted : l₁.Pairwise fun a b => T.threat b ≤ T.threat a) (hv : v ∉ l₁)
    (h : l₁.findSome? (T.first (some v)) = some found) :
    ¬T.secondChoice found = true ↔ ∃ x ∈ l₁, T.Preferred x ∧
      (T.Pulls v x ∨ (T.threat x ≤ T.times110 (T.threat v) ∧ ¬T.canAttack v = true)) := by
  obtain ⟨as, x, bs, rfl, hx, has⟩ := List.findSome?_eq_some_iff.1 h
  have hmem : x ∈ as ++ x :: bs := List.mem_append_right as List.mem_cons_self
  have hne : v ≠ x := fun heq => hv (heq ▸ hmem)
  have hpref : T.Preferred x ∧ ¬T.Skipped v x := by
    have hsome : ¬T.first (some v) x = none := by rw [hx]; simp
    rw [first_eq_none_iff, Classical.not_imp] at hsome
    exact hsome
  rw [first, if_neg hpref.1.2, verdict, if_pos hpref.1.1] at hx
  by_cases hpull : T.Pulls v x
  · rw [compare_of_pulls hne hpull] at hx
    obtain rfl := Option.some.inj hx
    exact iff_of_true hpref.1.2 ⟨x, hmem, hpref.1, .inl hpull⟩
  · have hle : T.threat x ≤ T.times110 (T.threat v) := by
      by_contra hlt
      refine hpref.2 ⟨Ne.symm hne, not_le.1 hlt, ?_, fun hmelee => ?_⟩
      · exact not_lt.1 fun hlt' => hpull ⟨not_le.1 hlt, .inl hlt'⟩
      · exact hpull ⟨not_le.1 hlt, .inr hmelee⟩
    rw [compare_of_le hne hle] at hx
    by_cases hatt : T.canAttack v = true
    · rw [if_pos hatt] at hx
      obtain rfl := Option.some.inj hx
      refine iff_of_false (fun h => h hsec) ?_
      rintro ⟨y, hy, hypref, hypull | ⟨-, hyatt⟩⟩
      · rw [List.mem_append, List.mem_cons] at hy
        rcases hy with hy | rfl | hy
        · -- passed over before
          exact (first_eq_none_iff.1 (has y hy) hypref).not_pulls hypull
        · exact hpull hypull
        · -- behind it: no more threat
          have hyx : T.threat y ≤ T.threat x :=
            (List.pairwise_cons.1 (List.pairwise_append.1 hsorted).2.1).1 y hy
          exact not_lt.2 (hyx.trans hle) hypull.1
      · exact hyatt hatt
    · rw [if_neg hatt] at hx
      obtain rfl := Option.some.inj hx
      exact iff_of_true hpref.1.2 ⟨x, hmem, hpref.1, .inr ⟨hle, hatt⟩⟩

/-- What the passes find with a victim that is a second choice. -/
theorem selects_second (hsec : T.secondChoice v = true) (hmem : v ∈ l) (hnodup : l.Nodup)
    (hsorted : l.Pairwise fun a b => T.threat b ≤ T.threat a)
    (hatt : ∃ x ∈ l, T.canAttack x = true) : T.Right l (T.pickFirst l (some v) l) ↔
      ((∀ x ∈ l, ¬T.Preferred x) ∧ T.SecondFound l (some v)) ∨
        ((∃ x ∈ l, T.Preferred x) ∧ T.PreferredFound l v) := by
  have hsound : ∀ x, T.pickFirst l (some v) l = some x → x ∈ l ∧ T.canAttack x = true :=
    fun x hx => pickFirst_sound hx (fun _ hx => hx) fun w hw => Option.some.inj hw ▸ hmem
  obtain ⟨l₁, l₂, rfl⟩ := List.append_of_mem hmem
  obtain ⟨-, hnodup₂, hdisj⟩ := List.nodup_append.1 hnodup
  have hv₁ : v ∉ l₁ := fun h => hdisj v h v List.mem_cons_self rfl
  have hv₂ : v ∉ l₂ := (List.nodup_cons.1 hnodup₂).1
  have heq := @pickFirst_append ι _ T (l₁ ++ v :: l₂) v l₁ l₂ hv₁ hsec
  by_cases hpref : ∃ x ∈ l₁ ++ v :: l₂, T.Preferred x
  · have hnot : ¬∀ x ∈ l₁ ++ v :: l₂, ¬T.Preferred x := fun h => by
      obtain ⟨x, hx, hx'⟩ := hpref
      exact h x hx hx'
    rw [right_iff_preferred hsound hpref, or_iff_right fun h => hnot h.1, and_iff_right hpref,
      PreferredFound, if_pos hsec, PreferredFoundBehind, before_append hv₁, after_append hv₁, heq]
    cases hfound : l₁.findSome? (T.first (some v)) with
    | some found =>
      have hskip : ¬∀ x ∈ l₁, T.Preferred x → T.Skipped v x := fun h => by
        have hnone : l₁.findSome? (T.first (some v)) = none :=
          List.findSome?_eq_none_iff.2 fun x hx => first_eq_none_iff.2 (h x hx)
        rw [hfound] at hnone
        cases hnone
      rw [or_iff_left fun h => hskip h.1,
        ← preferred_before hsec (List.pairwise_append.1 hsorted).1 hv₁ hfound]
      simp
    | none =>
      have hskip : ∀ x ∈ l₁, T.Preferred x → T.Skipped v x := fun x hx =>
        first_eq_none_iff.1 (List.findSome?_eq_none_iff.1 hfound x hx)
      have hno : ¬∃ x ∈ l₁, T.Preferred x ∧
          (T.Pulls v x ∨ (T.threat x ≤ T.times110 (T.threat v) ∧ ¬T.canAttack v = true)) := by
        rintro ⟨x, hx, hxpref, hpull | ⟨hle, -⟩⟩
        · exact (hskip x hx hxpref).not_pulls hpull
        · exact not_lt.2 hle (hskip x hx hxpref).2.1
      rw [or_iff_right hno, and_iff_right hskip, Option.none_or]
      cases l₂ with
      | nil =>
        -- the victim is the last target: in the other pass it hides those before it
        refine iff_of_false ?_ (by simp [LastSecond])
        rintro ⟨x, hx, hxsec⟩
        obtain ⟨y, hy, hyfound⟩ := List.exists_of_findSome?_eq_some (Option.mem_def.1 hx)
        obtain ⟨hxatt, rfl | hvictim⟩ := verdict_sound hyfound
        · have hne : ¬T.verdict (some v) x = none := by rw [hyfound]; simp
          rw [verdict_eq_none_iff, Classical.not_imp] at hne
          rw [List.mem_append, List.mem_singleton] at hy
          rcases hy with hy | rfl
          · exact hne.2 (hskip x hy ⟨hxatt, hxsec⟩)
          · exact hxsec hsec
        · exact hxsec (Option.some.inj hvictim ▸ hsec)
      | cons y l₂ => exact preferred_pickFirst_none
  · have hnone : ∀ x ∈ l₁ ++ v :: l₂, ¬T.Preferred x := fun x hx hx' => hpref ⟨x, hx, hx'⟩
    have hfirst : l₁.findSome? (T.first (some v)) = none :=
      List.findSome?_eq_none_iff.2 fun x hx => first_eq_none_iff.2 fun hx' =>
        absurd hx' (hnone x (List.mem_append_left _ hx))
    rw [right_iff_isSome hsound hatt hnone, or_iff_left fun h => hpref h.1, and_iff_right hnone,
      heq, hfirst, Option.none_or]
    unfold SecondFound
    cases l₂ with
    | nil =>
      have hlast : T.LastSecond (l₁ ++ [v]) := ⟨v, by simp, hsec⟩
      rw [List.isEmpty_nil, if_pos rfl, pick_isSome_iff]
      simp [hlast]
    | cons y l₂ =>
      have hlast : v ∉ (l₁ ++ v :: y :: l₂).getLast? := by
        rw [List.getLast?_append, List.getLast?_cons_cons,
          List.getLast?_eq_some_getLast (List.cons_ne_nil y l₂), Option.some_or]
        intro h
        exact hv₂ (Option.some.inj h ▸ List.getLast_mem _)
      have hrest : ∀ x ∈ y :: l₂, ¬T.Preferred x := fun x hx =>
        hnone x (List.mem_append_right l₁ (List.mem_cons_of_mem v hx))
      have hlastSecond : T.LastSecond (l₁ ++ v :: y :: l₂) ↔ T.LastSecond (y :: l₂) := by
        rw [lastSecond_append (List.cons_ne_nil v _), lastSecond_cons]
      rw [hlastSecond]
      refine (isSome_pickFirst_none hatt hrest).trans ⟨fun h => ⟨h, ?_⟩, fun h => h.1⟩
      intro w hw
      obtain rfl := Option.some.inj hw
      exact .inl ⟨hsec, hlast⟩

theorem selects_some (hmem : v ∈ l) (hnodup : l.Nodup)
    (hsorted : l.Pairwise fun a b => T.threat b ≤ T.threat a)
    (hatt : ∃ x ∈ l, T.canAttack x = true) : T.Right l (T.pickFirst l (some v) l) ↔
      ((∀ x ∈ l, ¬T.Preferred x) ∧ T.SecondFound l (some v)) ∨
        ((∃ x ∈ l, T.Preferred x) ∧ T.PreferredFound l v) := by
  by_cases hsec : T.secondChoice v = true
  · exact selects_second hsec hmem hnodup hsorted hatt
  · exact selects_other hsec hmem hatt

/-- What the passes find without a victim. -/
theorem selects_none (hatt : ∃ x ∈ l, T.canAttack x = true) : T.Right l (T.pickFirst l none l) ↔
    ((∀ x ∈ l, ¬T.Preferred x) ∧ T.SecondFound l none) ∨ ∃ x ∈ l, T.Preferred x := by
  have hsound : ∀ x, T.pickFirst l none l = some x → x ∈ l ∧ T.canAttack x = true :=
    fun x hx => pickFirst_sound hx (fun _ hx => hx) fun w hw => by cases hw
  by_cases hpref : ∃ x ∈ l, T.Preferred x
  · rw [right_iff_preferred hsound hpref, preferred_pickFirst_none]
    exact iff_of_true (.inl hpref) (.inr hpref)
  · have hnone : ∀ x ∈ l, ¬T.Preferred x := fun x hx hx' => hpref ⟨x, hx, hx'⟩
    rw [right_iff_isSome hsound hatt hnone, isSome_pickFirst_none hatt hnone, or_iff_left hpref,
      and_iff_right hnone, SecondFound]
    simp

/-- The selection ends, with a target of the list that can be attacked if with any, and it finds the
right one exactly on a list and with a victim for which it goes well. -/
theorem selectNextVictim_right_iff (hnodup : l.Nodup)
    (hsorted : l.Pairwise fun a b => T.threat b ≤ T.threat a)
    (hvictim : ∀ v, victim = some v → v ∈ l) (hfuel : 2 * l.length < fuel) :
    ∃ result, T.selectNextVictim fuel l victim = some result ∧
      (∀ x, result = some x → x ∈ l ∧ T.canAttack x = true) ∧
      (T.Right l result ↔ T.SelectsWell l victim) := by
  have hsound : ∀ x, T.pickFirst l victim l = some x → x ∈ l ∧ T.canAttack x = true :=
    fun x hx => pickFirst_sound hx (fun _ hx => hx) hvictim
  refine ⟨T.pickFirst l victim l, selectNextVictim_eq hfuel, hsound, ?_⟩
  unfold SelectsWell
  by_cases hatt : ∃ x ∈ l, T.canAttack x = true
  · have hsome : ¬∀ x ∈ l, ¬T.canAttack x = true := fun h => by
      obtain ⟨x, hx, hx'⟩ := hatt
      exact h x hx hx'
    rw [or_iff_right hsome]
    cases victim with
    | none =>
      rw [selects_none hatt]
      simp
    | some v =>
      rw [selects_some (hvictim v rfl) hnodup hsorted hatt]
      simp
  · have hnone : ∀ x ∈ l, ¬T.canAttack x = true := fun x hx hx' => hatt ⟨x, hx, hx'⟩
    have hresult : T.pickFirst l victim l = none := by
      cases hfound : T.pickFirst l victim l with
      | none => rfl
      | some x => exact absurd (hsound x hfound).2 (hnone x (hsound x hfound).1)
    refine iff_of_true ⟨iff_of_true hresult hnone, hsound, fun x hx => ?_⟩ (.inl hnone)
    rw [hresult] at hx
    cases hx

/-- A target that stands off with 120 percent of the threat of the victim, which cannot be
attacked. -/
def outOfReach : Targets Bool where
  times110 x := 11 / 10 * x
  times130 x := 13 / 10 * x
  threat ref := if ref then 100 else 120
  canAttack ref := !ref
  secondChoice _ := false
  inMelee _ := false

/-- With such a list nobody is selected. -/
theorem selectNextVictim_not_right :
    outOfReach.selectNextVictim 5 [false, true] (some true) = some none ∧
      ¬outOfReach.Right [false, true] none := by
  constructor
  · have hskip : outOfReach.compare (some true) false = none := by
      rw [compare_eq_none_iff]
      refine ⟨by decide, ?_, ?_, by decide⟩ <;> norm_num [outOfReach]
    simp [selectNextVictim, loop, hskip]
    simp [outOfReach]
  · intro h
    exact h.isNone.1 rfl false List.mem_cons_self rfl

/-- The reading of `selectNextVictim_right_iff` for this list. -/
theorem selectNextVictim_right_iff_outOfReach :
    ∃ result, outOfReach.selectNextVictim 5 [false, true] (some true) = some result ∧
      (∀ x, result = some x → x ∈ [false, true] ∧ outOfReach.canAttack x = true) ∧
      (outOfReach.Right [false, true] result ↔ outOfReach.SelectsWell [false, true] (some true)) :=
  selectNextVictim_right_iff (by decide)
    (by norm_num [outOfReach]) (fun v hv => Option.some.inj hv ▸ by decide) (by decide)

end Targets

end FaceCore.Combat
