import FaceCore.Event.EventProcessor
import Mathlib.Data.List.Range

/-!
# Events are executed once and in their order

Without `KillAllEvents`, every call of `AddEvent` leads to one execution, in the first `Update` behind it
whose time reaches that of the call. In one `Update` the executions are in the order of the times, and
of the calls for one time, unless an event adds one for a time before its own: that one comes next. And
an `Update` returns if and only if the events that are added in it do not keep it going.

* `Inv`: what holds between the queue, the calls and the executions;
* `round_inv`, `step_inv`: what one step keeps;
* `returns_iff`: how many rounds a loop takes;
* `executed_once_in_order`: the three together.
-/

namespace FaceCore.EventProcessors

open Function (update)

/-! ### Executions -/

/-- The `Update` of an execution for a call of `AddEvent`. -/
def Record.executionOf (call : ℕ) : Record → Option ℕ
  | .executed _ c u _ => if c = call then some u else none
  | _ => none

/-- The time and the call of an execution in an `Update`. -/
def Record.executionIn (u : ℕ) : Record → Option (ℤ × ℕ)
  | .executed _ c u' t => if u' = u then some (t, c) else none
  | _ => none

namespace Run

/-- The `Update` calls in which the event of an `AddEvent` call was executed. -/
def executions (s : Run) (call : ℕ) : List ℕ := s.log.filterMap (Record.executionOf call)

/-- The executions in an `Update`, each with its time and its call. -/
def executedIn (s : Run) (u : ℕ) : List (ℤ × ℕ) := s.log.filterMap (Record.executionIn u)

/-- Whether an `Update` comes behind a call and its time reaches that of the call. -/
def due (s : Run) (r : Scheduling) (u : ℕ) : Bool :=
  decide (r.since ≤ u) && s.clocks[u]?.any fun c => decide (r.time ≤ c.toNat)

/-- The first `Update` behind a call whose time reaches that of the call. -/
def firstDue (s : Run) (r : Scheduling) : Option ℕ := (List.range s.clocks.length).find? (s.due r)

/-- No event that is executed in an `Update` adds one for a time before its own. -/
def Forward (s : Run) (u : ℕ) : Prop := ∀ r ∈ s.calls, r.since = u → ∀ t ∈ r.author, t ≤ r.time

/-- The number of events in the queue that are due. -/
def dueCount (s : Run) : ℕ := s.rest.countP fun x => x.1 ≤ (s.time.toNat : ℤ)

/-- Rounds of the loop that is going on. -/
def rounds (s : Run) (f : ℕ → Outcome) (n : ℕ) : Run :=
  (List.range n).foldl (fun s i => s.round (f i)) s

end Run

/-- The number of added events that are due at a time. -/
def Outcome.dueCount (o : Outcome) (time : UInt64) : ℕ :=
  o.adds.countP fun a => a.time.toNat ≤ time.toNat

/-- The order of the queue: by time, and by call for one time. -/
def Before (a b : ℤ × ℕ) : Prop := a.1 < b.1 ∨ a.1 = b.1 ∧ a.2 < b.2

/-- Calls of `AddEvent` and `Update`, with their rounds. -/
def Input.Plain : Input → Prop
  | .addEvent _ => True
  | .update _ => True
  | .round _ => True
  | _ => False

section

variable {s : Run} {x : ℤ × Entry} {a : Add} {author : Option ℤ} {n u : ℕ}

/-! ### The log -/

theorem executions_note (s : Run) (r : Record) (call : ℕ) :
    (s.note r).executions call = s.executions call ++ (r.executionOf call).toList := by
  unfold Run.executions Run.note
  rw [List.filterMap_append]
  cases h : r.executionOf call with
  | none => simp [h]
  | some u => simp [h]

theorem executedIn_note (s : Run) (r : Record) (u : ℕ) :
    (s.note r).executedIn u = s.executedIn u ++ (r.executionIn u).toList := by
  unfold Run.executedIn Run.note
  rw [List.filterMap_append]
  cases h : r.executionIn u with
  | none => simp [h]
  | some p => simp [h]

/-! ### The invariant -/

/-- The invariant of the runs without `KillAllEvents`. -/
structure Inv (s : Run) : Prop where
  plain : ∀ force, s.control ≠ .killing force
  live : ∀ e, (s.objects e).toAbort = false
  clock : s.control = .updating → s.clocks.getLast? = some s.time
  sorted : s.rest.Pairwise fun x y => Before (x.1, x.2.call) (y.1, y.2.call)
  waiting : ∀ x ∈ s.rest, s.executions x.2.call = [] ∧ ∃ r, s.calls[x.2.call]? = some r ∧
    r.time = x.1 ∧ r.since ≤ s.returned ∧ ∀ u < s.returned, s.due r u = false
  all : ∀ n r, s.calls[n]? = some r → (∃ x ∈ s.rest, x.2.call = n) ∨
    ∃ u, s.executions n = [u] ∧ s.due r u = true ∧ ∀ u' < u, s.due r u' = false
  known : ∀ n, s.calls.length ≤ n → s.executions n = []
  begun : ∀ u, s.clocks.length ≤ u → s.executedIn u = []
  called : ∀ u, ∀ p ∈ s.executedIn u, p.2 < s.calls.length
  ordered : ∀ u, s.Forward u → (s.executedIn u).Pairwise Before
  later : s.control = .updating → s.Forward s.current →
    ∀ p ∈ s.executedIn s.current, ∀ x ∈ s.rest, Before p (x.1, x.2.call)

theorem inv_new : Inv Run.new where
  plain := nofun
  live := fun _ => rfl
  clock := nofun
  sorted := List.Pairwise.nil
  waiting := nofun
  all := nofun
  known := fun _ _ => rfl
  begun := fun _ _ => rfl
  called := nofun
  ordered := fun _ _ => List.Pairwise.nil
  later := nofun

theorem Inv.call_lt (h : Inv s) (hx : x ∈ s.rest) : x.2.call < s.calls.length := by
  obtain ⟨-, r, hr, -⟩ := h.waiting x hx
  exact (List.getElem?_eq_some_iff.1 hr).1

theorem Inv.le (h : Inv s) : s.rest.Pairwise fun x y => x.1 ≤ y.1 :=
  h.sorted.imp fun hxy => by
    rcases hxy with hlt | ⟨heq, -⟩
    · exact hlt.le
    · exact heq.le

/-! ### A new event -/

theorem insert_of_plain (h : ∀ force, s.control ≠ .killing force) (x : ℤ × Entry) :
    s.insert x = { s with rest := Agenda.insertEntry x s.rest } := by
  unfold Run.insert
  cases hc : s.control with
  | idle => rfl
  | updating => rfl
  | killing force => exact absurd hc (h force)

/-- The fields after a call of `AddEvent` outside of `KillAllEvents`. -/
theorem addEvent_of_plain (h : ∀ force, s.control ≠ .killing force) (author : Option ℤ) (a : Add) :
    s.addEvent author a = { s with
      rest := Agenda.insertEntry (a.time.toNat, ⟨a.event, s.calls.length⟩) s.rest
      objects := update s.objects a.event (s.planned a)
      calls := s.calls ++ [⟨a.time.toNat, s.returned, author⟩]
      met := s.met ++ [a.event] } := by
  simp only [Run.addEvent, insert_of_plain h]

/-- The later events of an `Update` are not for an earlier time than what was executed in it. -/
def Reached (s : Run) (author : Option ℤ) : Prop :=
  (author = none → s.control = .idle) ∧
    ∀ t ∈ author, s.Forward s.current → ∀ p ∈ s.executedIn s.current, p.1 ≤ t

theorem forward_of_append {r : Scheduling} {s' : Run} (hcalls : s'.calls = s.calls ++ [r])
    (h : s'.Forward u) : s.Forward u := fun r' hr' =>
  h r' (hcalls ▸ List.mem_append_left _ hr')

theorem returned_eq_current (h : s.control = .updating) : s.returned = s.current := by
  unfold Run.returned Run.current
  rw [h]

theorem due_of_lt_since {r : Scheduling} (h : u < r.since) : s.due r u = false := by
  unfold Run.due
  rw [decide_eq_false (not_le.2 h), Bool.false_and]

theorem addEvent_inv (h : Inv s) (hreached : Reached s author) (a : Add) :
    Inv (s.addEvent author a) ∧ Reached (s.addEvent author a) author := by
  rw [addEvent_of_plain h.plain]
  set y : ℤ × Entry := (a.time.toNat, ⟨a.event, s.calls.length⟩) with hy
  have hmem : ∀ x, x ∈ Agenda.insertEntry y s.rest ↔ x = y ∨ x ∈ s.rest := fun x =>
    (Agenda.perm_insertEntry y s.rest).mem_iff.trans List.mem_cons
  have hlast : (s.calls ++ [Scheduling.mk y.1 s.returned author])[s.calls.length]? =
      some ⟨y.1, s.returned, author⟩ := by simp
  refine ⟨⟨h.plain, fun e => ?_, h.clock, ?_, ?_, ?_, ?_, h.begun, ?_, ?_, ?_⟩, hreached.1, ?_⟩
  · by_cases he : e = a.event
    · subst he
      dsimp only
      rw [Function.update_self]
      exact h.live a.event
    · dsimp only
      rw [Function.update_of_ne he]
      exact h.live e
  · refine Agenda.pairwise_insertEntry h.le h.sorted (fun x hx hle => ?_) fun x _ hlt => .inl hlt
    rcases hle.lt_or_eq with hlt | heq
    · exact .inl hlt
    · exact .inr ⟨heq, h.call_lt hx⟩
  · intro x hx
    rcases (hmem x).1 hx with rfl | hx
    · refine ⟨h.known _ le_rfl, ⟨y.1, s.returned, author⟩, hlast, rfl, le_rfl, fun u hu => ?_⟩
      exact due_of_lt_since hu
    · obtain ⟨hexec, r, hr, hrest⟩ := h.waiting x hx
      exact ⟨hexec, r, (List.getElem?_append_left (h.call_lt hx)).trans hr, hrest⟩
  · intro n r hr
    by_cases hn : n < s.calls.length
    · rcases h.all n r ((List.getElem?_append_left hn).symm.trans hr) with ⟨x, hx, hcall⟩ | hdone
      · exact .inl ⟨x, (hmem x).2 (.inr hx), hcall⟩
      · exact .inr hdone
    · have hlt := (List.getElem?_eq_some_iff.1 hr).1
      dsimp only at hlt
      rw [List.length_append, List.length_singleton] at hlt
      exact .inl ⟨y, (hmem y).2 (.inl rfl), by rw [hy]; dsimp only; omega⟩
  · intro n hn
    dsimp only at hn
    rw [List.length_append] at hn
    exact h.known n (by omega)
  · intro u p hp
    dsimp only
    rw [List.length_append]
    exact Nat.lt_add_right _ (h.called u p hp)
  · exact fun u hforward => h.ordered u (forward_of_append rfl hforward)
  · intro hc hforward p hp x hx
    rcases (hmem x).1 hx with rfl | hx
    · -- the new event is not for a time before that of the event that adds it
      have hsome : author ≠ none := fun hnone => by
        rw [hreached.1 hnone] at hc
        cases hc
      obtain ⟨t, rfl⟩ := Option.ne_none_iff_exists'.1 hsome
      have hpt := hreached.2 t rfl (forward_of_append rfl hforward) p hp
      have hty : t ≤ y.1 := by
        refine hforward ⟨y.1, s.returned, some t⟩ (List.mem_append_right _ List.mem_cons_self) ?_ t rfl
        exact returned_eq_current hc
      rcases (hpt.trans hty).lt_or_eq with hlt | heq
      · exact .inl hlt
      · exact .inr ⟨heq, h.called _ p hp⟩
    · exact h.later hc (forward_of_append rfl hforward) p hp x hx
  · exact fun t ht hforward => hreached.2 t ht (forward_of_append rfl hforward)

theorem addEvents_inv (h : Inv s) (hreached : Reached s author) (adds : List Add) :
    Inv (s.addEvents author adds) := by
  unfold Run.addEvents
  induction adds generalizing s with
  | nil => exact h
  | cons a adds ih =>
    obtain ⟨hnext, hreached'⟩ := addEvent_inv h hreached a
    exact ih hnext hreached'

/-! ### One round -/

theorem note_inv (h : Inv s) {r : Record} (hcall : ∀ n, r.executionOf n = none)
    (hin : ∀ u, r.executionIn u = none) : Inv (s.note r) := by
  have hexec : ∀ n, (s.note r).executions n = s.executions n := fun n => by
    rw [executions_note, hcall, Option.toList_none, List.append_nil]
  have hexecIn : ∀ u, (s.note r).executedIn u = s.executedIn u := fun u => by
    rw [executedIn_note, hin, Option.toList_none, List.append_nil]
  refine ⟨h.plain, h.live, h.clock, h.sorted, fun x hx => ?_, fun n r' hr' => ?_, fun n hn => ?_,
    fun u hu => ?_, fun u => ?_, fun u hforward => ?_, fun hc hforward => ?_⟩
  · rw [hexec]
    exact h.waiting x hx
  · rw [hexec]
    exact h.all n r' hr'
  · rw [hexec]
    exact h.known n hn
  · rw [hexecIn]
    exact h.begun u hu
  · rw [hexecIn]
    exact h.called u
  · rw [hexecIn]
    exact h.ordered u hforward
  · rw [hexecIn]
    exact h.later hc hforward

/-- Two elements of the queue are of two calls. -/
theorem Inv.call_ne {rest : List (ℤ × Entry)} (h : Inv s) (hrest : s.rest = x :: rest) {y : ℤ × Entry}
    (hy : y ∈ rest) : y.2.call ≠ x.2.call := by
  intro hcall
  have hbefore := (List.pairwise_cons.1 (hrest ▸ h.sorted)).1 y hy
  obtain ⟨-, r, hr, htime, -⟩ := h.waiting x (hrest ▸ List.mem_cons_self)
  obtain ⟨-, r', hr', htime', -⟩ := h.waiting y (hrest ▸ List.mem_cons_of_mem _ hy)
  rw [hcall] at hr'
  obtain rfl := Option.some.inj (hr.symm.trans hr')
  rcases hbefore with hlt | ⟨-, hlt⟩
  · exact absurd (htime.symm.trans htime') hlt.ne
  · exact absurd hcall hlt.ne'

theorem Inv.clock_current (h : Inv s) (hc : s.control = .updating) :
    s.clocks[s.current]? = some s.time := by
  rw [Run.current, ← List.getLast?_eq_getElem?]
  exact h.clock hc

/-- The first event is taken out of the queue and executed. -/
theorem execute_inv {rest : List (ℤ × Entry)} (h : Inv s) (hc : s.control = .updating)
    (hrest : s.rest = x :: rest) (hdue : x.1 ≤ (s.time.toNat : ℤ)) :
    Inv (s.execute x rest) ∧ Reached (s.execute x rest) (some x.1) := by
  set s' := s.execute x rest with hs'
  have hexec : ∀ n, s'.executions n =
      s.executions n ++ if x.2.call = n then [s.current] else [] := fun n => by
    rw [hs', Run.execute, executions_note, Record.executionOf]
    split_ifs <;> rfl
  have hexecIn : ∀ u, s'.executedIn u =
      s.executedIn u ++ if s.current = u then [(x.1, x.2.call)] else [] := fun u => by
    rw [hs', Run.execute, executedIn_note, Record.executionIn]
    split_ifs <;> rfl
  have hx : x ∈ s.rest := hrest ▸ List.mem_cons_self
  have hmem : ∀ y ∈ rest, y ∈ s.rest := fun y hy => hrest ▸ List.mem_cons_of_mem _ hy
  have hsorted := List.pairwise_cons.1 (hrest ▸ h.sorted)
  have hcurrent := h.clock_current hc
  have hlt : s.current < s.clocks.length := (List.getElem?_eq_some_iff.1 hcurrent).1
  have hreturned := returned_eq_current hc
  have hbefore : s.Forward s.current → ∀ p ∈ s.executedIn s.current, Before p (x.1, x.2.call) :=
    fun hforward p hp => h.later hc hforward p hp x hx
  refine ⟨⟨h.plain, h.live, h.clock, hsorted.2, fun y hy => ?_, fun n r hr => ?_, fun n hn => ?_,
    fun u hu => ?_, fun u p hp => ?_, fun u hforward => ?_, fun _ hforward p hp y hy => ?_⟩,
    nofun, fun t ht hforward p hp => ?_⟩
  · rw [hexec, if_neg (h.call_ne hrest hy).symm, List.append_nil]
    exact h.waiting y (hmem y hy)
  · rcases h.all n r hr with ⟨y, hy, hcall⟩ | ⟨u, hu, hfirst⟩
    · rcases List.mem_cons.1 (hrest ▸ hy) with rfl | hy
      · -- the call of the event that is executed now
        obtain ⟨hnone, r', hr', htime, hsince, hwait⟩ := h.waiting y hx
        rw [hcall] at hr' hnone
        obtain rfl := Option.some.inj (hr'.symm.trans hr)
        refine .inr ⟨s.current, ?_, ?_, fun u' hu' => hwait u' (hreturned ▸ hu')⟩
        · rw [hexec, if_pos hcall, hnone, List.nil_append]
        · change (decide (r'.since ≤ s.current) && _) = true
          rw [decide_eq_true (hreturned ▸ hsince), Bool.true_and]
          change (s.clocks[s.current]?.any _) = true
          rw [hcurrent, Option.any_some]
          exact decide_eq_true (htime ▸ hdue)
      · exact .inl ⟨y, hy, hcall⟩
    · have hne : x.2.call ≠ n := by
        rintro rfl
        rw [(h.waiting x hx).1] at hu
        cases hu
      exact .inr ⟨u, by rw [hexec, if_neg hne, List.append_nil, hu], hfirst⟩
  · rw [hexec, if_neg, List.append_nil]
    · exact h.known n hn
    · rintro rfl
      exact absurd (h.call_lt hx) (not_lt.2 hn)
  · rw [hexecIn, if_neg, List.append_nil]
    · exact h.begun u hu
    · rintro rfl
      exact absurd hlt (not_lt.2 hu)
  · rw [hexecIn] at hp
    rcases List.mem_append.1 hp with hp | hp
    · exact h.called u p hp
    · split_ifs at hp with hu
      · rw [List.mem_singleton.1 hp]
        exact h.call_lt hx
      · cases hp
  · rw [hexecIn]
    split_ifs with hu
    · subst hu
      refine List.pairwise_append.2 ⟨h.ordered _ hforward, List.pairwise_singleton _ _, ?_⟩
      intro p hp q hq
      rw [List.mem_singleton.1 hq]
      exact hbefore hforward p hp
    · rw [List.append_nil]
      exact h.ordered u hforward
  · change p ∈ s'.executedIn s.current at hp
    rw [hexecIn, if_pos rfl] at hp
    rcases List.mem_append.1 hp with hp | hp
    · exact h.later hc hforward p hp y (hmem y hy)
    · rw [List.mem_singleton.1 hp]
      exact hsorted.1 y hy
  · obtain rfl := Option.mem_some_iff.1 ht
    change p ∈ s'.executedIn s.current at hp
    rw [hexecIn, if_pos rfl] at hp
    rcases List.mem_append.1 hp with hp | hp
    · rcases hbefore hforward p hp with hlt | ⟨heq, -⟩
      · exact hlt.le
      · exact heq.le
    · rw [List.mem_singleton.1 hp]

theorem handle_inv {rest : List (ℤ × Entry)} (h : Inv s) (hc : s.control = .updating)
    (hrest : s.rest = x :: rest) (hdue : x.1 ≤ (s.time.toNat : ℤ)) (o : Outcome) :
    Inv (s.handle x rest o) := by
  obtain ⟨hexec, hreached⟩ := execute_inv h hc hrest hdue
  have hadds := addEvents_inv hexec hreached o.adds
  unfold Run.handle
  rw [if_pos (by simp [h.live])]
  split_ifs
  · exact note_inv hadds (fun _ => rfl) fun _ => rfl
  · exact hadds

theorem endUpdate_inv (h : Inv s) (hc : s.control = .updating)
    (hlate : ∀ x ∈ s.rest, (s.time.toNat : ℤ) < x.1) : Inv { s with control := .idle } := by
  have hcurrent := h.clock_current hc
  have hlt : s.current < s.clocks.length := (List.getElem?_eq_some_iff.1 hcurrent).1
  have hreturned := returned_eq_current hc
  refine ⟨nofun, h.live, nofun, h.sorted, fun x hx => ?_, h.all, h.known, h.begun, h.called,
    h.ordered, nofun⟩
  obtain ⟨hnone, r, hr, htime, hsince, hwait⟩ := h.waiting x hx
  refine ⟨hnone, r, hr, htime, (hreturned ▸ hsince).trans hlt.le, fun u hu => ?_⟩
  change u < s.clocks.length at hu
  rcases Nat.lt_or_ge u s.returned with hbefore | hge
  · exact hwait u hbefore
  · have hu' : u = s.current := by
      rw [hreturned] at hge
      unfold Run.current at hge ⊢
      omega
    subst hu'
    change (decide (r.since ≤ s.current) && s.clocks[s.current]?.any _) = false
    rw [hcurrent, Option.any_some, Bool.and_eq_false_iff]
    exact .inr (decide_eq_false (not_le.2 (htime ▸ hlate x hx)))

theorem round_of_due {rest : List (ℤ × Entry)} (hc : s.control = .updating)
    (hrest : s.rest = x :: rest) (hdue : x.1 ≤ (s.time.toNat : ℤ)) (o : Outcome) :
    s.round o = s.handle x rest o := by
  unfold Run.round
  rw [hc]
  dsimp only
  rw [hrest]
  dsimp only
  rw [if_pos hdue]

/-- The loop of `Update` goes on with the first event, or no event is due. -/
theorem round_cases (h : Inv s) (hc : s.control = .updating) (o : Outcome) :
    ((∀ x ∈ s.rest, (s.time.toNat : ℤ) < x.1) ∧ s.round o = { s with control := .idle }) ∨
      ∃ x rest, s.rest = x :: rest ∧ x.1 ≤ (s.time.toNat : ℤ) ∧ s.round o = s.handle x rest o := by
  cases hrest : s.rest with
  | nil =>
    refine .inl ⟨nofun, ?_⟩
    unfold Run.round
    simp only [hc, hrest]
  | cons x rest =>
    by_cases hdue : x.1 ≤ (s.time.toNat : ℤ)
    · exact .inr ⟨x, rest, rfl, hdue, round_of_due hc hrest hdue o⟩
    · refine .inl ⟨fun y hy => ?_, ?_⟩
      · have hle := h.le
        rw [hrest] at hle
        rcases List.mem_cons.1 hy with rfl | hy
        · exact not_le.1 hdue
        · exact (not_le.1 hdue).trans_le ((List.pairwise_cons.1 hle).1 y hy)
      · unfold Run.round
        simp only [hc, hrest, if_neg hdue]

theorem round_inv (h : Inv s) (o : Outcome) : Inv (s.round o) := by
  cases hc : s.control with
  | idle =>
    unfold Run.round
    rw [hc]
    exact h
  | killing force => exact absurd hc (h.plain force)
  | updating =>
    rcases round_cases h hc o with ⟨hlate, hround⟩ | ⟨x, rest, hrest, hdue, hround⟩
    · exact hround ▸ endUpdate_inv h hc hlate
    · exact hround ▸ handle_inv h hc hrest hdue o

/-! ### A run -/

theorem lt_length_of_due {r : Scheduling} {u : ℕ} (h : s.due r u = true) :
    u < s.clocks.length := by
  by_contra hge
  unfold Run.due at h
  rw [List.getElem?_eq_none (not_lt.1 hge), Option.any_none, Bool.and_false] at h
  cases h

theorem beginUpdate_inv (h : Inv s) (hc : s.control = .idle) (time : UInt32) :
    Inv (s.beginUpdate time) := by
  have hreturned : s.returned = s.clocks.length := by
    unfold Run.returned
    rw [hc]
  have hlength : (s.beginUpdate time).current = s.clocks.length := by
    simp [Run.current, Run.beginUpdate]
  have hnone : s.executedIn (s.beginUpdate time).current = [] := hlength.symm ▸ h.begun _ le_rfl
  -- the clocks of the calls before stay what they are
  have hdue : ∀ (r : Scheduling) (u : ℕ), u < s.clocks.length →
      (s.beginUpdate time).due r u = s.due r u := fun r u hu => by
    unfold Run.due Run.beginUpdate
    rw [List.getElem?_append_left hu]
  refine ⟨nofun, h.live, fun _ => List.getLast?_concat, h.sorted, fun x hx => ?_, fun n r hr => ?_,
    h.known, fun u hu => ?_, h.called, h.ordered, fun _ _ p hp => ?_⟩
  · obtain ⟨hexec, r, hr, htime, hsince, hwait⟩ := h.waiting x hx
    refine ⟨hexec, r, hr, htime, ?_, fun u hu => ?_⟩
    · change r.since ≤ (s.beginUpdate time).current
      rw [hlength, ← hreturned]
      exact hsince
    · change u < (s.beginUpdate time).current at hu
      rw [hlength] at hu
      rw [hdue r u hu]
      exact hwait u (hreturned ▸ hu)
  · rcases h.all n r hr with hwait | ⟨u, hu, hyes, hno⟩
    · exact .inl hwait
    · have hlt := lt_length_of_due hyes
      exact .inr ⟨u, hu, (hdue r u hlt).trans hyes,
        fun u' hu' => (hdue r u' (hu'.trans hlt)).trans (hno u' hu')⟩
  · refine h.begun u ?_
    change (s.clocks ++ [_]).length ≤ u at hu
    rw [List.length_append] at hu
    omega
  · change p ∈ s.executedIn (s.beginUpdate time).current at hp
    rw [hnone] at hp
    cases hp

theorem step_inv (h : Inv s) {i : Input} (hi : i.Plain) : Inv (step s i) := by
  cases i with
  | addEvent a =>
    rw [step]
    split_ifs with hc
    · have hsame : Inv { s with killed := none } := ⟨h.plain, h.live, h.clock, h.sorted, h.waiting,
        h.all, h.known, h.begun, h.called, h.ordered, h.later⟩
      have hreached : Reached { s with killed := none } none := ⟨fun _ => hc, fun t ht => by cases ht⟩
      exact (addEvent_inv hsame hreached a).1
    · exact h
  | update time =>
    rw [step]
    split_ifs with hc
    · exact beginUpdate_inv h hc time
    · exact h
  | round o => exact round_inv h o
  | killAllEvents force => exact hi.elim
  | setAbort event => exact hi.elim

theorem run_inv {is : List Input} (hplain : ∀ i ∈ is, i.Plain) (h : Inv s) : Inv (is.foldl step s) := by
  induction is generalizing s with
  | nil => exact h
  | cons i is ih =>
    exact ih (fun j hj => hplain j (List.mem_cons_of_mem _ hj))
      (step_inv h (hplain i List.mem_cons_self))

/-- When no call is going on, each event was executed in the first `Update` that came to its time, and
in no other. -/
theorem Inv.executions_eq (h : Inv s) (hc : s.control = .idle) {r : Scheduling}
    (hr : s.calls[n]? = some r) : s.executions n = (s.firstDue r).toList := by
  have hreturned : s.returned = s.clocks.length := by
    unfold Run.returned
    rw [hc]
  rcases h.all n r hr with ⟨x, hx, rfl⟩ | ⟨u, hu, hyes, hno⟩
  · obtain ⟨hnone, r', hr', -, -, hwait⟩ := h.waiting x hx
    obtain rfl := Option.some.inj (hr'.symm.trans hr)
    have hfirst : s.firstDue r' = none := by
      refine List.find?_eq_none.2 fun u hu => ?_
      rw [hwait u (hreturned ▸ List.mem_range.1 hu)]
      exact Bool.false_ne_true
    rw [hnone, hfirst, Option.toList_none]
  · have hlt := lt_length_of_due hyes
    have hfirst : s.firstDue r = some u := by
      refine List.find?_range_eq_some.2 ⟨hyes, List.mem_range.2 hlt, fun u' hu' => ?_⟩
      rw [hno u' hu']
      rfl
    rw [hu, hfirst, Option.toList_some]

/-! ### The end of a loop -/

theorem addEvents_dueCount (hplain : ∀ force, s.control ≠ .killing force) (author : Option ℤ)
    (adds : List Add) :
    (s.addEvents author adds).control = s.control ∧ (s.addEvents author adds).time = s.time ∧
      (s.addEvents author adds).dueCount =
        s.dueCount + adds.countP fun a => a.time.toNat ≤ s.time.toNat := by
  unfold Run.addEvents
  induction adds generalizing s with
  | nil => exact ⟨rfl, rfl, rfl⟩
  | cons a adds ih =>
    have hcontrol : (s.addEvent author a).control = s.control := by rw [addEvent_of_plain hplain]
    have htime : (s.addEvent author a).time = s.time := by rw [addEvent_of_plain hplain]
    have hcount : (s.addEvent author a).dueCount =
        s.dueCount + if a.time.toNat ≤ s.time.toNat then 1 else 0 := by
      rw [addEvent_of_plain hplain]
      unfold Run.dueCount
      dsimp only
      rw [(Agenda.perm_insertEntry _ s.rest).countP_eq, List.countP_cons]
      simp
    obtain ⟨hc, ht, hn⟩ := ih (s := s.addEvent author a) (hcontrol ▸ hplain)
    refine ⟨hc.trans hcontrol, ht.trans htime, ?_⟩
    rw [List.foldl_cons, hn, hcount, htime, List.countP_cons]
    simp only [decide_eq_true_eq]
    omega

/-- A round takes one event that is due out of the queue and puts those in that are added to be due. -/
theorem handle_dueCount {rest : List (ℤ × Entry)} (hc : s.control = .updating)
    (hrest : s.rest = x :: rest) (hdue : x.1 ≤ (s.time.toNat : ℤ)) (o : Outcome) :
    (s.handle x rest o).control = .updating ∧ (s.handle x rest o).time = s.time ∧
      (s.handle x rest o).dueCount + 1 = s.dueCount + o.dueCount s.time := by
  have hplain : ∀ (r : Record) (force : Bool),
      ({ s with rest := rest }.note r).control ≠ .killing force := fun r force h => by
    change s.control = _ at h
    rw [hc] at h
    cases h
  have hcount : s.dueCount = (rest.countP fun x => x.1 ≤ (s.time.toNat : ℤ)) + 1 := by
    unfold Run.dueCount
    rw [hrest, List.countP_cons_of_pos (by simpa using hdue)]
  -- whether the event is executed or aborted
  have hadds : ∀ (r : Record) (author : Option ℤ),
      (({ s with rest := rest }.note r).addEvents author o.adds).control = .updating ∧
        (({ s with rest := rest }.note r).addEvents author o.adds).time = s.time ∧
          (({ s with rest := rest }.note r).addEvents author o.adds).dueCount + 1 =
            s.dueCount + o.dueCount s.time := by
    intro r author
    obtain ⟨hcontrol, htime, hnext⟩ := addEvents_dueCount (hplain r) author o.adds
    refine ⟨hcontrol.trans hc, htime, ?_⟩
    rw [hcount, Nat.add_right_comm]
    exact congrArg (· + 1) hnext
  unfold Run.handle
  split_ifs
  · exact hadds (.executed x.2.event x.2.call s.current x.1) (some x.1)
  · exact hadds (.executed x.2.event x.2.call s.current x.1) (some x.1)
  · exact hadds (.aborted x.2.event) none

/-- The loop of `Update` ends when no event is due, and goes on as long as one is. -/
theorem round_updating (h : Inv s) (hc : s.control = .updating) (o : Outcome) :
    (s.dueCount = 0 ∧ (s.round o).control = .idle) ∨
      0 < s.dueCount ∧ (s.round o).control = .updating ∧ (s.round o).time = s.time ∧
        (s.round o).dueCount + 1 = s.dueCount + o.dueCount s.time := by
  rcases round_cases h hc o with ⟨hlate, hround⟩ | ⟨x, rest, hrest, hdue, hround⟩
  · refine .inl ⟨List.countP_eq_zero.2 fun x hx => ?_, by rw [hround]⟩
    rw [decide_eq_true_eq]
    exact not_le.2 (hlate x hx)
  · rw [hround]
    refine .inr ⟨?_, handle_dueCount hc hrest hdue o⟩
    unfold Run.dueCount
    rw [hrest]
    exact List.countP_pos_iff.2 ⟨x, List.mem_cons_self, by simpa using hdue⟩

theorem rounds_succ (s : Run) (f : ℕ → Outcome) (n : ℕ) :
    s.rounds f (n + 1) = (s.rounds f n).round (f n) := by
  unfold Run.rounds
  rw [List.range_succ, List.foldl_append, List.foldl_cons, List.foldl_nil]

theorem rounds_inv (h : Inv s) (f : ℕ → Outcome) (n : ℕ) : Inv (s.rounds f n) := by
  induction n with
  | zero => exact h
  | succ n ih =>
    rw [rounds_succ]
    exact round_inv ih (f n)

theorem Inv.idle_of_ne (h : Inv s) (hc : s.control ≠ .updating) : s.control = .idle := by
  cases hcontrol : s.control with
  | idle => rfl
  | updating => exact absurd hcontrol hc
  | killing force => exact absurd hcontrol (h.plain force)

theorem round_of_idle (hc : s.control = .idle) (o : Outcome) : s.round o = s := by
  unfold Run.round
  rw [hc]

/-- As long as the loop goes on, each round has handled one event that was due. -/
theorem rounds_dueCount (h : Inv s) (f : ℕ → Outcome) (n : ℕ)
    (hc : (s.rounds f n).control = .updating) :
    (s.rounds f n).time = s.time ∧ (s.rounds f n).dueCount + n =
      s.dueCount + ((List.range n).map fun i => (f i).dueCount s.time).sum := by
  induction n with
  | zero => exact ⟨rfl, rfl⟩
  | succ n ih =>
    have hbefore : (s.rounds f n).control = .updating := by
      by_contra hne
      have hidle := (rounds_inv h f n).idle_of_ne hne
      rw [rounds_succ, round_of_idle hidle, hidle] at hc
      cases hc
    obtain ⟨htime, hcount⟩ := ih hbefore
    rcases round_updating (rounds_inv h f n) hbefore (f n) with ⟨-, hidle⟩ | ⟨-, -, htime', hcount'⟩
    · rw [rounds_succ, hidle] at hc
      cases hc
    · rw [rounds_succ, List.range_succ, List.map_append, List.sum_append, List.map_singleton,
        List.sum_singleton]
      refine ⟨htime'.trans htime, ?_⟩
      rw [htime] at hcount'
      omega

/-- An `Update` returns exactly if at some round not more events were due at its start, or added in it
to be due, than rounds have gone by. -/
theorem returns_iff (h : Inv s) (hc : s.control = .updating) (f : ℕ → Outcome) :
    (∃ n, (s.rounds f n).control = .idle) ↔
      ∃ n, s.dueCount + ((List.range n).map fun i => (f i).dueCount s.time).sum ≤ n := by
  constructor
  · rintro ⟨n, hn⟩
    -- the last round before the end meets no event that is due
    induction n with
    | zero =>
      change s.control = _ at hn
      rw [hc] at hn
      cases hn
    | succ n ih =>
      by_cases hidle : (s.rounds f n).control = .idle
      · exact ih hidle
      · have hupdating : (s.rounds f n).control = .updating := by
          by_contra hne
          exact hidle ((rounds_inv h f n).idle_of_ne hne)
        obtain ⟨-, hcount⟩ := rounds_dueCount h f n hupdating
        rcases round_updating (rounds_inv h f n) hupdating (f n) with ⟨hzero, -⟩ | ⟨-, hgoes, -⟩
        · exact ⟨n, by omega⟩
        · rw [rounds_succ, hgoes] at hn
          cases hn
  · rintro ⟨n, hn⟩
    by_cases hupdating : (s.rounds f n).control = .updating
    · obtain ⟨-, hcount⟩ := rounds_dueCount h f n hupdating
      refine ⟨n + 1, ?_⟩
      rw [rounds_succ]
      rcases round_updating (rounds_inv h f n) hupdating (f n) with ⟨-, hidle⟩ | ⟨hpos, -⟩
      · exact hidle
      · omega
    · exact ⟨n, (rounds_inv h f n).idle_of_ne hupdating⟩

/-- **Main result.** In a run without `KillAllEvents` each event is executed in the first `Update` that
comes to its time and in no other; the executions of an `Update` are in the order of the times and of
the calls, as long as no event that is executed in it adds one for a time before its own; and an
`Update` returns exactly if the events that are added in it come to an end. -/
theorem executed_once_in_order (is : List Input) (hplain : ∀ i ∈ is, i.Plain) :
    ((is.foldl step Run.new).control = .idle → ∀ n r, (is.foldl step Run.new).calls[n]? = some r →
        (is.foldl step Run.new).executions n = ((is.foldl step Run.new).firstDue r).toList) ∧
      (∀ u, (is.foldl step Run.new).Forward u →
        ((is.foldl step Run.new).executedIn u).Pairwise Before) ∧
      ((is.foldl step Run.new).control = .updating → ∀ f : ℕ → Outcome,
        ((∃ n, ((is.foldl step Run.new).rounds f n).control = .idle) ↔
          ∃ n, (is.foldl step Run.new).dueCount + ((List.range n).map fun i =>
            (f i).dueCount (is.foldl step Run.new).time).sum ≤ n)) := by
  have h := run_inv hplain inv_new
  exact ⟨fun hc n r hr => h.executions_eq hc hr, h.ordered, fun hc f => returns_iff h hc f⟩

end

/-! ### Runs -/

/-- An event that is added while nothing goes on. -/
def plan (event : ℕ) (time : UInt64) : Input := .addEvent ⟨event, time, true⟩

/-- A round in which an event adds others and is deleted. -/
def executes (adds : List Add) : Input := .round ⟨adds, true⟩

/-- Three events, of which the first one adds another one that is due as well. -/
def sampleRun : List Input :=
  [plan 0 10, plan 1 30, plan 2 10, .update 10, executes [⟨3, 10, true⟩], executes [], executes [],
    executes [], .update 25, executes [], executes []]

theorem sampleRun_executed : ((sampleRun.foldl step Run.new).control = .idle →
      ∀ n r, (sampleRun.foldl step Run.new).calls[n]? = some r →
        (sampleRun.foldl step Run.new).executions n =
          ((sampleRun.foldl step Run.new).firstDue r).toList) ∧
    (sampleRun.foldl step Run.new).executedIn 0 = [(10, 0), (10, 2), (10, 3)] ∧
      (sampleRun.foldl step Run.new).executedIn 1 = [(30, 1)] := by
  refine ⟨(executed_once_in_order sampleRun ?_).1, rfl, rfl⟩
  intro i hi
  simp only [sampleRun, plan, executes, List.mem_cons, List.not_mem_nil, or_false] at hi
  rcases hi with rfl | rfl | rfl | rfl | rfl | rfl | rfl | rfl | rfl | rfl | rfl <;> trivial

/-- A state in which an event that adds itself again is ahead of another one. -/
structure Spinning (s : Run) : Prop where
  control : s.control = .updating
  time : s.time = 20
  live : (s.objects 0).toAbort = false
  rest : ∃ c, c ≠ 1 ∧ s.rest = [(10, ⟨0, c⟩), (15, ⟨1, 1⟩)]
  calls : 1 < s.calls.length
  never : s.executions 1 = []

theorem Spinning.round {s : Run} (h : Spinning s) : Spinning (s.round ⟨[⟨0, 10, true⟩], false⟩) := by
  obtain ⟨c, hc, hrest⟩ := h.rest
  have hplain : ∀ force, (s.execute (10, ⟨0, c⟩) [(15, ⟨1, 1⟩)]).control ≠ .killing force := by
    intro force hkill
    change s.control = _ at hkill
    rw [h.control] at hkill
    cases hkill
  have hround : s.round ⟨[⟨0, 10, true⟩], false⟩ =
      (s.execute (10, ⟨0, c⟩) [(15, ⟨1, 1⟩)]).addEvent (some 10) ⟨0, 10, true⟩ := by
    rw [round_of_due h.control hrest (h.time ▸ (by decide : (10 : ℤ) ≤ 20)), Run.handle,
      if_pos (by rw [h.live]; rfl)]
    rfl
  rw [hround, addEvent_of_plain hplain]
  refine ⟨h.control, h.time, ?_, ⟨s.calls.length, h.calls.ne', ?_⟩, ?_, ?_⟩
  · dsimp only
    rw [Function.update_self]
    exact h.live
  · change Agenda.insertEntry ((10 : ℤ), Entry.mk 0 s.calls.length) [(15, Entry.mk 1 1)] = _
    rw [Agenda.insertEntry, List.orderedInsert_cons, if_pos (by decide : (10 : ℤ) < 15)]
  · dsimp only
    rw [List.length_append]
    exact Nat.lt_add_right _ h.calls
  · have hexec := executions_note { s with rest := [(15, ⟨1, 1⟩)] } (.executed 0 c s.current 10) 1
    rw [Record.executionOf, if_neg hc, Option.toList_none, List.append_nil] at hexec
    exact hexec.trans h.never

/-- Two events, of which the first one is due before the other. -/
def spinningRun : List Input := [plan 0 10, plan 1 15, .update 20]

theorem spinning_rounds (n : ℕ) : Spinning
    ((spinningRun.foldl step Run.new).rounds (fun _ => ⟨[⟨0, 10, true⟩], false⟩) n) := by
  induction n with
  | zero => exact ⟨rfl, by decide, rfl, ⟨0, by decide, rfl⟩, by decide, rfl⟩
  | succ n ih =>
    rw [rounds_succ]
    exact ih.round

/-- An event that is added for a time that has gone by comes after the one that adds it; and an event
that adds itself for its own time again keeps the `Update` going, so that the event behind it, which is
due as well, is not executed. -/
theorem out_of_order_or_never :
    (([plan 0 10, .update 20, executes [⟨1, 5, true⟩], executes []].foldl step
        Run.new).executedIn 0 = [(10, 0), (5, 1)] ∧ ¬[((10 : ℤ), 0), (5, 1)].Pairwise Before) ∧
      ((spinningRun.foldl step Run.new).calls[1]? = some ⟨15, 0, none⟩ ∧
        (spinningRun.foldl step Run.new).firstDue ⟨15, 0, none⟩ = some 0 ∧
          ∀ n, ((spinningRun.foldl step Run.new).rounds
            (fun _ => ⟨[⟨0, 10, true⟩], false⟩) n).executions 1 = []) := by
  refine ⟨⟨rfl, fun h => ?_⟩, rfl, by decide,
    fun n => (spinning_rounds n).never⟩
  rcases (List.pairwise_cons.1 h).1 (5, 1) List.mem_cons_self with hlt | ⟨heq, -⟩
  · exact absurd hlt (by decide)
  · exact absurd heq (by decide)

end FaceCore.EventProcessors
