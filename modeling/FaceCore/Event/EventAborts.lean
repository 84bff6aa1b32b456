import FaceCore.Event.EventProcessor

/-!
# Events are aborted once

An event is aborted at most once and not executed after that, and `KillAllEvents(true)` aborts and
deletes all it meets, as long as three things do not happen: an event that `KillAllEvents(false)` aborted
and left in the queue, because it could not be deleted, is met again by a later call, which aborts it a
second time; an event that is added while `KillAllEvents(true)` goes on stands before the cursor, where it
is forgotten with the rest of the queue; and an event is added that is in the queue, or was aborted or
deleted.

* `Sane`: what holds between the queue, the flags and the notes, while a method of an event is running;
* `addEvents_sane`, `noteDeleted_sane`: what the parts of a round keep;
* `orderly_run`: the runs in which the three things do not happen.
-/

namespace FaceCore.EventProcessors

open Function (update)

/-! ### Aborts and deletions -/

/-- Whether an event was aborted. -/
def Record.isAborted (event : ℕ) : Record → Bool
  | .aborted e => e = event
  | _ => false

/-- Whether an event was deleted. -/
def Record.isDeleted (event : ℕ) : Record → Bool
  | .deleted e => e = event
  | _ => false

/-- `r'` can come behind `r`: it is not the execution of an event that was aborted. -/
def Record.Fits (r r' : Record) : Prop :=
  ∀ event call u time, r = .aborted event → r' ≠ .executed event call u time

namespace Run

/-- How often an event was aborted. -/
def aborts (s : Run) (event : ℕ) : ℕ := s.log.countP (Record.isAborted event)

/-- How often an event was deleted. -/
def deletes (s : Run) (event : ℕ) : ℕ := s.log.countP (Record.isDeleted event)

/-- The events in the queue. -/
def queued (s : Run) : List ℕ := s.events.map (·.2.event)

end Run

/-- No event is aborted twice or executed after it was aborted; and `KillAllEvents(true)` leaves an
empty queue and has aborted and deleted once all that it met. -/
structure Orderly (s : Run) : Prop where
  once : ∀ e, s.aborts e ≤ 1
  dead : s.log.Pairwise Record.Fits
  killed : ∀ met, s.killed = some met →
    s.events = [] ∧ ∀ e ∈ met, s.aborts e = 1 ∧ s.deletes e = 1

/-- An event can be added: it is not in the queue and was neither aborted nor deleted; and
`KillAllEvents(true)` has the cursor at an event that comes before it. -/
structure Run.Admits (s : Run) (a : Add) : Prop where
  absent : a.event ∉ s.queued
  aborts : s.aborts a.event = 0
  deletes : s.deletes a.event = 0
  behind : s.control = .killing true → ∃ y ∈ s.rest.head?, y.1 ≤ (a.time.toNat : ℤ)

/-- The calls of a method can be made, one after the other. -/
def Run.AdmitsAll (s : Run) (author : Option ℤ) : List Add → Prop
  | [] => True
  | a :: adds => s.Admits a ∧ (s.addEvent author a).AdmitsAll author adds

/-- The inputs that keep a run orderly: added events can be added; an event that is deleted after its
execution was not added again; and no event that is met was aborted before. -/
def Safe (s : Run) : Input → Prop
  | .addEvent a => s.control = .idle → s.Admits a
  | .round o =>
    match s.control, s.rest with
    | .updating, x :: rest =>
      x.1 ≤ (s.time.toNat : ℤ) →
        if (s.objects x.2.event).toAbort then
          s.aborts x.2.event = 0 ∧ (s.discard x rest).AdmitsAll none o.adds
        else
          (s.execute x rest).AdmitsAll (some x.1) o.adds ∧
            (o.answer = true → x.2.event ∉ o.adds.map (·.event))
    | .killing _, x :: rest =>
      s.aborts x.2.event = 0 ∧ (s.abortNext x rest).AdmitsAll none o.adds
    | _, _ => True
  | _ => True

section

variable {s s' : Run} {x : ℤ × Entry} {rest : List (ℤ × Entry)} {a : Add} {author : Option ℤ}
  {running : Option ℕ}

/-! ### The log -/

theorem aborts_note (s : Run) (r : Record) (e : ℕ) :
    (s.note r).aborts e = s.aborts e + (r.isAborted e).toNat := by
  unfold Run.aborts Run.note
  rw [List.countP_append, List.countP_singleton]
  cases r.isAborted e <;> rfl

theorem deletes_note (s : Run) (r : Record) (e : ℕ) :
    (s.note r).deletes e = s.deletes e + (r.isDeleted e).toNat := by
  unfold Run.deletes Run.note
  rw [List.countP_append, List.countP_singleton]
  cases r.isDeleted e <;> rfl

theorem aborts_pos (h : Record.aborted e ∈ s.log) : 0 < s.aborts e :=
  List.countP_pos_iff.2 ⟨_, h, decide_eq_true rfl⟩

/-! ### The invariant -/

/-- The invariant; `running` is the event of which a method is running. While `KillAllEvents(true)` goes
on, the events before the cursor are deleted, but for this one. -/
structure Sane (running : Option ℕ) (s : Run) : Prop where
  nodup : s.queued.Nodup
  once : ∀ e, s.aborts e ≤ 1
  flagged : ∀ e, s.aborts e ≠ 0 → (s.objects e).toAbort = true
  dead : s.log.Pairwise Record.Fits
  live : ∀ y ∈ s.rest, s.deletes y.2.event = 0
  passedLive : s.control ≠ .killing true → ∀ y ∈ s.passed, s.deletes y.2.event = 0
  passedDead : s.control = .killing true → ∀ y ∈ s.passed,
    s.aborts y.2.event = 1 ∧ (some y.2.event ≠ running → s.deletes y.2.event = 1)
  start : (∀ force, s.control ≠ .killing force) → s.passed = []
  met : s.control = .killing true → ∀ e ∈ s.met, e ∈ s.queued
  killed : ∀ met, s.killed = some met →
    s.control = .idle ∧ s.events = [] ∧ ∀ e ∈ met, s.aborts e = 1 ∧ s.deletes e = 1

theorem sane_new : Sane none Run.new where
  nodup := List.Pairwise.nil
  once := fun _ => Nat.zero_le 1
  flagged := fun _ h => absurd rfl h
  dead := List.Pairwise.nil
  live := nofun
  passedLive := nofun
  passedDead := nofun
  start := fun _ => rfl
  met := nofun
  killed := nofun

theorem Sane.orderly (h : Sane running s) : Orderly s :=
  ⟨h.once, h.dead, fun met hmet => (h.killed met hmet).2⟩

/-! ### A new event -/

/-- The new event is in one of the two parts of the queue, and behind the cursor of
`KillAllEvents(true)`. -/
theorem insert_cases (s : Run) (x : ℤ × Entry) :
    (s.insert x = { s with rest := Agenda.insertEntry x s.rest }) ∨
      (∃ force, s.control = .killing force) ∧ (∀ y ∈ s.rest.head?, x.1 < y.1) ∧
        s.insert x = { s with passed := Agenda.insertEntry x s.passed } := by
  unfold Run.insert
  cases hc : s.control with
  | idle => exact .inl rfl
  | updating => exact .inl rfl
  | killing force =>
    cases hrest : s.rest with
    | nil => exact .inr ⟨⟨force, rfl⟩, nofun, rfl⟩
    | cons y rest =>
      dsimp only
      split_ifs with hle
      · exact .inl rfl
      · refine .inr ⟨⟨force, rfl⟩, fun z hz => ?_, rfl⟩
        obtain rfl := Option.some.inj hz
        exact not_le.1 hle

theorem mem_queued_insert (s : Run) (x : ℤ × Entry) :
    (s.insert x).queued.Perm (x.2.event :: s.queued) := by
  have hperm : (s.insert x).events.Perm (x :: s.events) := by
    unfold Run.events
    rcases insert_cases s x with hins | ⟨-, -, hins⟩
    · rw [hins]
      exact ((Agenda.perm_insertEntry x s.rest).append_left s.passed).trans List.perm_middle
    · rw [hins]
      exact (Agenda.perm_insertEntry x s.passed).append_right s.rest
  exact hperm.map _

theorem insert_same (s : Run) (x : ℤ × Entry) :
    (s.insert x).control = s.control ∧ (s.insert x).log = s.log ∧
      (s.insert x).killed = s.killed := by
  rcases insert_cases s x with hins | ⟨-, -, hins⟩
  · rw [hins]
    exact ⟨rfl, rfl, rfl⟩
  · rw [hins]
    exact ⟨rfl, rfl, rfl⟩

theorem addEvent_sane (h : Sane running s) (ha : s.Admits a) (hkilled : s.killed = none) :
    Sane running (s.addEvent author a) := by
  set y : ℤ × Entry := (a.time.toNat, ⟨a.event, s.calls.length⟩) with hy
  obtain ⟨hcontrol, hlog, hkilled'⟩ := insert_same s y
  have hqueued : (s.addEvent author a).queued.Perm (a.event :: s.queued) := mem_queued_insert s y
  have habort : ∀ e, ((s.addEvent author a).objects e).toAbort = (s.objects e).toAbort := fun e => by
    unfold Run.addEvent
    dsimp only
    by_cases he : e = a.event
    · subst he
      rw [Function.update_self]
      rfl
    · rw [Function.update_of_ne he]
  have haborts : ∀ e, (s.addEvent author a).aborts e = s.aborts e := fun e =>
    congrArg (List.countP _) hlog
  have hdeletes : ∀ e, (s.addEvent author a).deletes e = s.deletes e := fun e =>
    congrArg (List.countP _) hlog
  -- where the elements of the two parts come from
  have hrest : ∀ z ∈ (s.addEvent author a).rest, z = y ∨ z ∈ s.rest := by
    intro z hz
    change z ∈ (s.insert y).rest at hz
    rcases insert_cases s y with hins | ⟨-, -, hins⟩
    · rw [hins] at hz
      exact List.mem_cons.1 ((Agenda.perm_insertEntry y s.rest).mem_iff.1 hz)
    · rw [hins] at hz
      exact .inr hz
  have hpassed : ∀ z ∈ (s.addEvent author a).passed, z ∈ s.passed ∨ z = y ∧
      (∃ force, s.control = .killing force) ∧ s.control ≠ .killing true := by
    intro z hz
    change z ∈ (s.insert y).passed at hz
    rcases insert_cases s y with hins | ⟨hforce, hbefore, hins⟩
    · rw [hins] at hz
      exact .inl hz
    · rw [hins] at hz
      rcases List.mem_cons.1 ((Agenda.perm_insertEntry y s.passed).mem_iff.1 hz) with rfl | hz
      · refine .inr ⟨rfl, hforce, fun hc => ?_⟩
        obtain ⟨w, hw, hle⟩ := ha.behind hc
        exact absurd (hbefore w hw) (not_lt.2 hle)
      · exact .inl hz
  refine ⟨hqueued.nodup_iff.2 (List.nodup_cons.2 ⟨ha.absent, h.nodup⟩), ?_, ?_, hlog ▸ h.dead, ?_, ?_,
    ?_, ?_, ?_, ?_⟩
  · exact fun e => (haborts e).trans_le (h.once e)
  · exact fun e he => (habort e).trans (h.flagged e (haborts e ▸ he))
  · intro z hz
    rw [hdeletes]
    rcases hrest z hz with rfl | hz
    · exact ha.deletes
    · exact h.live z hz
  · intro hc z hz
    rw [hdeletes]
    rcases hpassed z hz with hz | ⟨rfl, -⟩
    · exact h.passedLive (fun hkill => hc (hcontrol.trans hkill)) z hz
    · exact ha.deletes
  · intro hc z hz
    have hkill : s.control = .killing true := hcontrol.symm.trans hc
    rw [haborts, hdeletes]
    rcases hpassed z hz with hz | ⟨-, -, hne⟩
    · exact h.passedDead hkill z hz
    · exact absurd hkill hne
  · intro hc
    refine List.eq_nil_iff_forall_not_mem.2 fun z hz => ?_
    have hc' : ∀ force, s.control ≠ .killing force :=
      fun force hkill => hc force (hcontrol.trans hkill)
    rcases hpassed z hz with hz | ⟨-, ⟨force, hkill⟩, -⟩
    · rw [h.start hc'] at hz
      cases hz
    · exact hc' force hkill
  · intro hc e he
    refine hqueued.mem_iff.2 (List.mem_cons.2 ?_)
    rcases List.mem_append.1 he with he | he
    · exact .inr (h.met (hcontrol.symm.trans hc) e he)
    · exact .inl (List.mem_singleton.1 he)
  · intro met hmet
    have hsome : s.killed = some met := hkilled'.symm.trans hmet
    rw [hkilled] at hsome
    cases hsome

theorem addEvents_sane {adds : List Add} (h : Sane running s) (ha : s.AdmitsAll author adds)
    (hkilled : s.killed = none) : Sane running (s.addEvents author adds) := by
  unfold Run.addEvents
  induction adds generalizing s with
  | nil => exact h
  | cons a adds ih =>
    exact ih (addEvent_sane h ha.1 hkilled) ha.2 ((insert_same s _).2.2.trans hkilled)

/-! ### One round -/

/-- The methods that are called note nothing themselves. -/
theorem addEvents_same (s : Run) (author : Option ℤ) (adds : List Add) :
    (s.addEvents author adds).control = s.control ∧ (s.addEvents author adds).log = s.log ∧
      (s.addEvents author adds).killed = s.killed := by
  unfold Run.addEvents
  induction adds generalizing s with
  | nil => exact ⟨rfl, rfl, rfl⟩
  | cons a adds ih =>
    obtain ⟨hcontrol, hlog, hkilled⟩ := ih (s.addEvent author a)
    obtain ⟨hcontrol', hlog', hkilled'⟩ :=
      insert_same s (a.time.toNat, ⟨a.event, s.calls.length⟩)
    exact ⟨hcontrol.trans hcontrol', hlog.trans hlog', hkilled.trans hkilled'⟩

theorem mem_insert (s : Run) (x : ℤ × Entry) :
    (∀ y ∈ (s.insert x).rest, y = x ∨ y ∈ s.rest) ∧
      ∀ y ∈ (s.insert x).passed, y = x ∨ y ∈ s.passed := by
  rcases insert_cases s x with hins | ⟨-, -, hins⟩
  · rw [hins]
    exact ⟨fun y hy => List.mem_cons.1 ((Agenda.perm_insertEntry x s.rest).mem_iff.1 hy),
      fun y hy => .inr hy⟩
  · rw [hins]
    exact ⟨fun y hy => .inr hy,
      fun y hy => List.mem_cons.1 ((Agenda.perm_insertEntry x s.passed).mem_iff.1 hy)⟩

/-- What is in the queue after a method was there before, or was added. -/
theorem mem_addEvents (s : Run) (author : Option ℤ) (adds : List Add) :
    (∀ y ∈ (s.addEvents author adds).rest, y ∈ s.rest ∨ y.2.event ∈ adds.map (·.event)) ∧
      ∀ y ∈ (s.addEvents author adds).passed, y ∈ s.passed ∨ y.2.event ∈ adds.map (·.event) := by
  unfold Run.addEvents
  induction adds generalizing s with
  | nil => exact ⟨fun y hy => .inl hy, fun y hy => .inl hy⟩
  | cons a adds ih =>
    obtain ⟨hrest, hpassed⟩ := ih (s.addEvent author a)
    obtain ⟨hrest', hpassed'⟩ := mem_insert s (a.time.toNat, ⟨a.event, s.calls.length⟩)
    rw [List.map_cons]
    constructor
    · intro y hy
      rcases hrest y hy with hy | hy
      · rcases hrest' y hy with rfl | hy
        · exact .inr List.mem_cons_self
        · exact .inl hy
      · exact .inr (List.mem_cons_of_mem _ hy)
    · intro y hy
      rcases hpassed y hy with hy | hy
      · rcases hpassed' y hy with rfl | hy
        · exact .inr List.mem_cons_self
        · exact .inl hy
      · exact .inr (List.mem_cons_of_mem _ hy)

/-- Events that were aborted are not added. -/
theorem aborts_of_admitsAll {adds : List Add} (h : s.AdmitsAll author adds) :
    ∀ e ∈ adds.map (·.event), s.aborts e = 0 := by
  induction adds generalizing s with
  | nil => nofun
  | cons a adds ih =>
    intro e he
    rw [List.map_cons] at he
    rcases List.mem_cons.1 he with rfl | he
    · exact h.1.aborts
    · have hlater := ih h.2 e he
      rwa [Run.aborts, show (s.addEvent author a).log = s.log from (insert_same s _).2.1] at hlater

theorem Sane.dead_append (h : Sane none s) {r : Record}
    (hr : ∀ event call u time, r = .executed event call u time → s.aborts event = 0) :
    (s.log ++ [r]).Pairwise Record.Fits := by
  refine List.pairwise_append.2 ⟨h.dead, List.pairwise_singleton _ _, fun r' hr' q hq => ?_⟩
  obtain rfl := List.mem_singleton.1 hq
  rintro event call u time rfl hexec
  exact absurd (hr event call u time hexec) (aborts_pos hr').ne'

theorem Sane.killed_eq (h : Sane running s) (hc : s.control ≠ .idle) : s.killed = none :=
  Option.eq_none_iff_forall_ne_some.2 fun met hmet => hc (h.killed met hmet).1

theorem Sane.passed_eq (h : Sane running s) (hc : s.control = .updating) : s.passed = [] :=
  h.start fun force hkill => by
    rw [hc] at hkill
    cases hkill

/-- An event is taken out of the queue by `Update`, and one of its methods is called. -/
theorem takeOut_sane (h : Sane none s) (hc : s.control = .updating) (hrest : s.rest = x :: rest)
    {r : Record} (hdeleted : ∀ e, r.isDeleted e = false)
    (haborted : ∀ e, r.isAborted e = true → s.aborts e = 0 ∧ (s.objects e).toAbort = true)
    (hexecuted : ∀ event call u time, r = .executed event call u time → s.aborts event = 0) :
    Sane (some x.2.event) ({ s with rest := rest }.note r) ∧
      ({ s with rest := rest }.note r).deletes x.2.event = 0 ∧
        ∀ y ∈ rest, y.2.event ≠ x.2.event := by
  have hpassed := h.passed_eq hc
  have hqueued : s.queued = x.2.event :: rest.map (·.2.event) := by
    simp [Run.queued, Run.events, hpassed, hrest]
  have hnodup := List.nodup_cons.1 (hqueued ▸ h.nodup)
  have hdeletes : ∀ e, ({ s with rest := rest }.note r).deletes e = s.deletes e := fun e => by
    rw [deletes_note, hdeleted]
    rfl
  have haborts : ∀ e, ({ s with rest := rest }.note r).aborts e =
      s.aborts e + (r.isAborted e).toNat := fun e => aborts_note _ _ e
  have hkilled := h.killed_eq (by rw [hc]; exact nofun)
  refine ⟨⟨?_, fun e => ?_, fun e he => ?_, h.dead_append hexecuted, fun y hy => ?_, fun _ y hy => ?_,
    fun hkill => ?_, fun _ => hpassed, fun hkill => ?_, fun met hmet => ?_⟩, ?_, fun y hy heq => ?_⟩
  · change ((s.passed ++ rest).map (·.2.event)).Nodup
    rw [hpassed, List.nil_append]
    exact hnodup.2
  · rw [haborts]
    cases hr : r.isAborted e with
    | false => exact h.once e
    | true => rw [(haborted e hr).1]; rfl
  · rw [haborts] at he
    cases hr : r.isAborted e with
    | false =>
      rw [hr] at he
      exact h.flagged e he
    | true => exact (haborted e hr).2
  · exact (hdeletes _).trans (h.live y (hrest ▸ List.mem_cons_of_mem _ hy))
  · change y ∈ s.passed at hy
    rw [hpassed] at hy
    cases hy
  · exact absurd (hc.symm.trans hkill) nofun
  · exact absurd (hc.symm.trans hkill) nofun
  · exact absurd (hkilled.symm.trans hmet) nofun
  · exact (hdeletes _).trans (h.live x (hrest ▸ List.mem_cons_self))
  · exact hnodup.1 (List.mem_map.2 ⟨y, hy, heq⟩)

/-- An event is before the cursor of `KillAllEvents` now, and its `Abort` is called. -/
theorem abortNext_sane (h : Sane none s) {force : Bool} (hc : s.control = .killing force)
    (hrest : s.rest = x :: rest) (hfirst : s.aborts x.2.event = 0) :
    Sane (some x.2.event) (s.abortNext x rest) ∧ (s.abortNext x rest).deletes x.2.event = 0 ∧
      (s.abortNext x rest).aborts x.2.event = 1 ∧ (∀ y ∈ rest, y.2.event ≠ x.2.event) ∧
        ∀ y ∈ s.passed, y.2.event ≠ x.2.event := by
  have hqueued : (s.abortNext x rest).queued = s.queued := by
    simp [Run.queued, Run.events, Run.abortNext, Run.note, hrest]
  have hsplit : s.queued = s.passed.map (·.2.event) ++ x.2.event :: rest.map (·.2.event) := by
    simp [Run.queued, Run.events, hrest]
  have hnodup := List.nodup_append.1 (hsplit ▸ h.nodup)
  have hdeletes : ∀ e, (s.abortNext x rest).deletes e = s.deletes e := fun e => deletes_note _ _ e
  have haborts : ∀ e, (s.abortNext x rest).aborts e =
      s.aborts e + (Record.isAborted e (.aborted x.2.event)).toNat := fun e => aborts_note _ _ e
  have hone : (s.abortNext x rest).aborts x.2.event = 1 := by
    rw [haborts, hfirst, Record.isAborted, decide_eq_true rfl]
    rfl
  have hother : ∀ e, e ≠ x.2.event → (s.abortNext x rest).aborts e = s.aborts e := fun e he => by
    rw [haborts, Record.isAborted, decide_eq_false (Ne.symm he)]
    rfl
  have hxlive := h.live x (hrest ▸ List.mem_cons_self)
  have hkilled := h.killed_eq (by rw [hc]; exact nofun)
  have hrestNe : ∀ y ∈ rest, y.2.event ≠ x.2.event := fun y hy heq =>
    (List.nodup_cons.1 hnodup.2.1).1 (List.mem_map.2 ⟨y, hy, heq⟩)
  have hpassedNe : ∀ y ∈ s.passed, y.2.event ≠ x.2.event := fun y hy =>
    hnodup.2.2 _ (List.mem_map.2 ⟨y, hy, rfl⟩) _ List.mem_cons_self
  refine ⟨⟨hqueued ▸ h.nodup, fun e => ?_, fun e he => ?_, h.dead_append nofun, fun y hy => ?_,
    fun hne y hy => ?_, fun hkill y hy => ?_, fun hne => ?_, fun hkill e he => ?_, fun met hmet => ?_⟩,
    (hdeletes _).trans hxlive, hone, hrestNe, hpassedNe⟩
  · by_cases he : e = x.2.event
    · rw [he, hone]
    · rw [hother e he]
      exact h.once e
  · change (update s.objects x.2.event _ e).toAbort = true
    by_cases hex : e = x.2.event
    · rw [hex, Function.update_self]
    · rw [Function.update_of_ne hex]
      exact h.flagged e (hother e hex ▸ he)
  · exact (hdeletes _).trans (h.live y (hrest ▸ List.mem_cons_of_mem _ hy))
  · rw [hdeletes]
    rcases List.mem_append.1 hy with hy | hy
    · exact h.passedLive hne y hy
    · rw [List.mem_singleton.1 hy]
      exact hxlive
  · rcases List.mem_append.1 hy with hy | hy
    · obtain ⟨ha, hd⟩ := h.passedDead hkill y hy
      rw [hother _ (hpassedNe y hy), hdeletes]
      exact ⟨ha, fun _ => hd nofun⟩
    · obtain rfl := List.mem_singleton.1 hy
      exact ⟨hone, fun hne => absurd rfl hne⟩
  · exact absurd hc (hne force)
  · rw [hqueued]
    exact h.met hkill e he
  · exact absurd (hkilled.symm.trans hmet) nofun

/-- The event of which a method was running is deleted. -/
theorem noteDeleted_sane {e : ℕ} (h : Sane (some e) s) (hkilled : s.killed = none)
    (hdeletes : s.deletes e = 0) (hrest : ∀ y ∈ s.rest, y.2.event ≠ e)
    (hpassed : s.control ≠ .killing true → ∀ y ∈ s.passed, y.2.event ≠ e) :
    Sane none (s.note (.deleted e)) := by
  have haborts : ∀ e', (s.note (.deleted e)).aborts e' = s.aborts e' := fun e' => aborts_note _ _ e'
  have hself : (s.note (.deleted e)).deletes e = 1 := by
    rw [deletes_note, hdeletes, Record.isDeleted, decide_eq_true rfl]
    rfl
  have hother : ∀ e', e' ≠ e → (s.note (.deleted e)).deletes e' = s.deletes e' := fun e' he => by
    rw [deletes_note, Record.isDeleted, decide_eq_false (Ne.symm he)]
    rfl
  refine ⟨h.nodup, fun e' => (haborts e').trans_le (h.once e'),
    fun e' he => h.flagged e' (haborts e' ▸ he), ?_, fun y hy => ?_, fun hne y hy => ?_,
    fun hkill y hy => ?_, h.start, h.met, fun met hmet => absurd (hkilled.symm.trans hmet) nofun⟩
  · refine List.pairwise_append.2 ⟨h.dead, List.pairwise_singleton _ _, fun r' _ q hq => ?_⟩
    obtain rfl := List.mem_singleton.1 hq
    exact fun _ _ _ _ _ => nofun
  · rw [hother _ (hrest y hy)]
    exact h.live y hy
  · rw [hother _ (hpassed hne y hy)]
    exact h.passedLive hne y hy
  · obtain ⟨ha, hd⟩ := h.passedDead hkill y hy
    refine ⟨(haborts _).trans ha, fun _ => ?_⟩
    by_cases he : y.2.event = e
    · rw [he, hself]
    · rw [hother _ he]
      exact hd fun heq => he (Option.some.inj heq)

theorem Sane.stop (h : Sane running s) (hc : s.control ≠ .killing true) : Sane none s :=
  ⟨h.nodup, h.once, h.flagged, h.dead, h.live, h.passedLive, fun hkill => absurd hkill hc, h.start,
    h.met, h.killed⟩

theorem Sane.filterPassed (h : Sane running s) (hc : s.control ≠ .killing true)
    (hkilled : s.killed = none) (p : ℤ × Entry → Bool) :
    Sane running { s with passed := s.passed.filter p } where
  nodup := h.nodup.sublist ((List.filter_sublist.append_right s.rest).map _)
  once := h.once
  flagged := h.flagged
  dead := h.dead
  live := h.live
  passedLive := fun hne y hy => h.passedLive hne y (List.mem_filter.1 hy).1
  passedDead := fun hkill => absurd hkill hc
  start := fun hne => by
    dsimp only
    rw [h.start hne, List.filter_nil]
  met := fun hkill => absurd hkill hc
  killed := fun met hmet => absurd (hkilled.symm.trans hmet) nofun

/-- A method of an event is called that does not add it, and the event is deleted. -/
theorem addEvents_delete_sane {e : ℕ} {adds : List Add} (h : Sane (some e) s)
    (hkilled : s.killed = none) (ha : s.AdmitsAll author adds) (hdeletes : s.deletes e = 0)
    (hrest : ∀ y ∈ s.rest, y.2.event ≠ e)
    (hpassed : s.control ≠ .killing true → ∀ y ∈ s.passed, y.2.event ≠ e)
    (hself : e ∉ adds.map (·.event)) : Sane none ((s.addEvents author adds).note (.deleted e)) := by
  obtain ⟨hcontrol, hlog, hkilled'⟩ := addEvents_same s author adds
  obtain ⟨hmemRest, hmemPassed⟩ := mem_addEvents s author adds
  refine noteDeleted_sane (addEvents_sane h ha hkilled) (hkilled'.trans hkilled) ?_
    (fun y hy heq => ?_) fun hne y hy heq => ?_
  · rw [Run.deletes, hlog]
    exact hdeletes
  · rcases hmemRest y hy with hy | hy
    · exact hrest y hy heq
    · exact hself (heq ▸ hy)
  · rcases hmemPassed y hy with hy | hy
    · exact hpassed (hcontrol ▸ hne) y hy heq
    · exact hself (heq ▸ hy)

theorem execute_sane (h : Sane none s) (hc : s.control = .updating) (hrest : s.rest = x :: rest)
    (hlive : (s.objects x.2.event).toAbort = false) {o : Outcome}
    (ha : (s.execute x rest).AdmitsAll (some x.1) o.adds)
    (hkept : o.answer = true → x.2.event ∉ o.adds.map (·.event)) : Sane none (s.handle x rest o) := by
  have hexecuted : ∀ event call u time,
      Record.executed x.2.event x.2.call s.current x.1 = .executed event call u time →
        s.aborts event = 0 := by
    intro event call u time heq
    obtain rfl : x.2.event = event := by
      cases heq
      rfl
    by_contra hne
    rw [h.flagged _ hne] at hlive
    cases hlive
  obtain ⟨hsane, hdeletes, hne⟩ :=
    takeOut_sane h hc hrest (fun _ => rfl) (fun _ he => by cases he) hexecuted
  have hkilled := h.killed_eq (by rw [hc]; exact nofun)
  unfold Run.handle
  rw [if_pos (by rw [hlive]; rfl)]
  split_ifs with hanswer
  · refine addEvents_delete_sane hsane hkilled ha hdeletes hne (fun _ y hy => ?_) (hkept hanswer)
    change y ∈ s.passed at hy
    rw [h.passed_eq hc] at hy
    cases hy
  · have hadds : Sane (some x.2.event) ((s.execute x rest).addEvents (some x.1) o.adds) :=
      addEvents_sane hsane ha hkilled
    have hcontrol : ((s.execute x rest).addEvents (some x.1) o.adds).control = .updating :=
      (addEvents_same (s.execute x rest) (some x.1) o.adds).1.trans hc
    exact hadds.stop (by rw [hcontrol]; exact nofun)

theorem discard_sane (h : Sane none s) (hc : s.control = .updating) (hrest : s.rest = x :: rest)
    (hmarked : (s.objects x.2.event).toAbort = true) (hfirst : s.aborts x.2.event = 0) {o : Outcome}
    (ha : (s.discard x rest).AdmitsAll none o.adds) : Sane none (s.handle x rest o) := by
  have haborted : ∀ e, Record.isAborted e (.aborted x.2.event) = true →
      s.aborts e = 0 ∧ (s.objects e).toAbort = true := fun e he => by
    obtain rfl : x.2.event = e := of_decide_eq_true he
    exact ⟨hfirst, hmarked⟩
  obtain ⟨hsane, hdeletes, hne⟩ := takeOut_sane h hc hrest (fun _ => rfl) haborted nofun
  have hkilled := h.killed_eq (by rw [hc]; exact nofun)
  -- the event is not added by its own `Abort`
  have hself : x.2.event ∉ o.adds.map (·.event) := fun hmem => by
    have hzero := aborts_of_admitsAll ha x.2.event hmem
    rw [Run.discard, aborts_note, Record.isAborted, decide_eq_true rfl] at hzero
    exact absurd hzero (Nat.succ_ne_zero _)
  unfold Run.handle
  rw [if_neg (by rw [hmarked]; exact Bool.false_ne_true)]
  refine addEvents_delete_sane hsane hkilled ha hdeletes hne (fun _ y hy => ?_) hself
  change y ∈ s.passed at hy
  rw [h.passed_eq hc] at hy
  cases hy

theorem abort_sane (h : Sane none s) {force : Bool} (hc : s.control = .killing force)
    (hrest : s.rest = x :: rest) (hfirst : s.aborts x.2.event = 0) {o : Outcome}
    (ha : (s.abortNext x rest).AdmitsAll none o.adds) : Sane none (s.abort force x rest o) := by
  obtain ⟨hsane, hdeletes, haborts, hrestNe, hpassedNe⟩ := abortNext_sane h hc hrest hfirst
  have hkilled := h.killed_eq (by rw [hc]; exact nofun)
  have hself : x.2.event ∉ o.adds.map (·.event) := fun hmem => by
    have hzero := aborts_of_admitsAll ha x.2.event hmem
    rw [haborts] at hzero
    cases hzero
  unfold Run.abort
  cases force with
  | true =>
    exact addEvents_delete_sane hsane hkilled ha hdeletes hrestNe (fun hne => absurd hc hne) hself
  | false =>
    have hadds := addEvents_sane hsane ha hkilled
    obtain ⟨hcontrol, hlog, hkilled'⟩ := addEvents_same (s.abortNext x rest) none o.adds
    obtain ⟨hmemRest, hmemPassed⟩ := mem_addEvents (s.abortNext x rest) none o.adds
    have hne : ((s.abortNext x rest).addEvents none o.adds).control ≠ .killing true := by
      rw [hcontrol]
      change s.control ≠ _
      rw [hc]
      exact nofun
    rw [if_neg Bool.false_ne_true]
    split_ifs
    · refine noteDeleted_sane (hadds.filterPassed hne (hkilled'.trans hkilled) _)
        (hkilled'.trans hkilled) ?_ (fun y hy heq => ?_) fun _ y hy heq => ?_
      · change List.countP _ ((s.abortNext x rest).addEvents none o.adds).log = 0
        rw [hlog]
        exact hdeletes
      · rcases hmemRest y hy with hy | hy
        · exact hrestNe y hy heq
        · exact hself (heq ▸ hy)
      · -- the element itself is erased
        obtain ⟨hy, hcall⟩ := List.mem_filter.1 hy
        rcases hmemPassed y hy with hy | hy
        · rcases List.mem_append.1 hy with hy | hy
          · exact hpassedNe y hy heq
          · rw [List.mem_singleton.1 hy] at hcall
            exact absurd rfl (of_decide_eq_true hcall)
        · exact hself (heq ▸ hy)
    · exact hadds.stop hne

theorem endKill_sane (h : Sane none s) {force : Bool} (hc : s.control = .killing force)
    (hrest : s.rest = []) : Sane none (s.endKill force) := by
  cases force with
  | true =>
    refine ⟨List.Pairwise.nil, h.once, h.flagged, h.dead, nofun, nofun, nofun, fun _ => rfl, nofun,
      fun met hmet => ⟨rfl, rfl, fun e he => ?_⟩⟩
    obtain rfl : s.met = met := Option.some.inj hmet
    obtain ⟨y, hy, rfl⟩ := List.mem_map.1 (h.met hc e he)
    rw [Run.events, hrest, List.append_nil] at hy
    obtain ⟨ha, hd⟩ := h.passedDead hc y hy
    exact ⟨ha, hd nofun⟩
  | false =>
    have hlive : ∀ y ∈ s.passed, s.deletes y.2.event = 0 :=
      h.passedLive (by rw [hc]; exact nofun)
    refine ⟨?_, h.once, h.flagged, h.dead, hlive, nofun, nofun, fun _ => rfl, nofun, nofun⟩
    have hnodup := h.nodup
    rw [Run.queued, Run.events, hrest, List.append_nil] at hnodup
    exact hnodup

theorem endUpdate_sane (h : Sane none s) (hc : s.control = .updating) :
    Sane none { s with control := .idle } :=
  ⟨h.nodup, h.once, h.flagged, h.dead, h.live, fun _ => h.passedLive (by rw [hc]; exact nofun), nofun,
    fun _ => h.start (by rw [hc]; exact nofun), nofun,
    fun met hmet => ⟨rfl, (h.killed met hmet).2⟩⟩

theorem round_sane (h : Sane none s) {o : Outcome} (hsafe : Safe s (.round o)) :
    Sane none (s.round o) := by
  unfold Safe at hsafe
  unfold Run.round
  cases hc : s.control with
  | idle => exact h
  | updating =>
    cases hrest : s.rest with
    | nil =>
      have hend := endUpdate_sane h hc
      rw [hrest] at hend
      exact hend
    | cons x rest =>
      simp only [hc, hrest] at hsafe
      dsimp only
      split_ifs with hdue
      · have hround := hsafe hdue
        split_ifs at hround with hmarked
        · exact discard_sane h hc hrest hmarked hround.1 hround.2
        · exact execute_sane h hc hrest (Bool.eq_false_of_not_eq_true hmarked) hround.1 hround.2
      · have hend := endUpdate_sane h hc
        rw [hrest] at hend
        exact hend
  | killing force =>
    cases hrest : s.rest with
    | nil => exact endKill_sane h hc hrest
    | cons x rest =>
      simp only [hc, hrest] at hsafe
      exact abort_sane h hc hrest hsafe.1 hsafe.2

/-! ### A run -/

theorem step_sane (h : Sane none s) {i : Input} (hsafe : Safe s i) : Sane none (step s i) := by
  cases i with
  | addEvent a =>
    rw [step]
    split_ifs with hc
    · have hsame : Sane none { s with killed := none } := ⟨h.nodup, h.once, h.flagged, h.dead, h.live,
        h.passedLive, h.passedDead, h.start, h.met, nofun⟩
      have ha := hsafe hc
      exact addEvent_sane hsame ⟨ha.absent, ha.aborts, ha.deletes, ha.behind⟩ rfl
    · exact h
  | update time =>
    rw [step]
    split_ifs with hc
    · exact ⟨h.nodup, h.once, h.flagged, h.dead, h.live,
        fun _ => h.passedLive (by rw [hc]; exact nofun), nofun,
        fun _ => h.start (by rw [hc]; exact nofun), nofun, nofun⟩
    · exact h
  | killAllEvents force =>
    rw [step]
    split_ifs with hc
    · have hpassed : s.passed = [] := h.start (by rw [hc]; exact nofun)
      refine ⟨h.nodup, h.once, h.flagged, h.dead, h.live, fun _ y hy => ?_, fun _ y hy => ?_,
        fun _ => hpassed, fun _ e he => ?_, nofun⟩
      · change y ∈ s.passed at hy
        rw [hpassed] at hy
        cases hy
      · change y ∈ s.passed at hy
        rw [hpassed] at hy
        cases hy
      · change e ∈ (s.passed ++ s.rest).map (·.2.event)
        rw [hpassed]
        exact he
    · exact h
  | round o => exact round_sane h hsafe
  | setAbort event =>
    refine ⟨h.nodup, h.once, fun e he => ?_, h.dead, h.live, h.passedLive, h.passedDead, h.start,
      h.met, h.killed⟩
    change (update s.objects event _ e).toAbort = true
    by_cases hex : e = event
    · rw [hex, Function.update_self]
    · rw [Function.update_of_ne hex]
      exact h.flagged e he

end

/-! ### Runs -/

/-- Two events, of which the first one adds another one when `KillAllEvents(true)` aborts it. -/
def killingRun : List Input :=
  [.addEvent ⟨0, 10, true⟩, .addEvent ⟨1, 20, true⟩, .killAllEvents true,
    .round ⟨[⟨2, 30, true⟩], true⟩, .round ⟨[], true⟩, .round ⟨[], true⟩, .round ⟨[], true⟩]

end FaceCore.EventProcessors
