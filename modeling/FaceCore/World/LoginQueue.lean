import FaceCore.Lib.Runs
import FaceCore.Lib.Table

/-!
# The queue of the sessions that wait for the world

`World`: the sessions by account, those that wait since the world is full, and the last place each
was told, 0 when it was let in. A session is an account and the number of a login.

* `Inv`: what is true of the queue after any logins and departures, `queue_of_run`.
-/

namespace FaceCore.LoginQueue

abbrev WorldSession := ℕ × ℕ

structure World where
  m_sessions : Table (Prod.fst : WorldSession → ℕ)
  m_QueuedPlayer : List WorldSession
  m_playerLimit : ℕ
  told : WorldSession → ℕ
  created : ℕ

@[grind] def getQueuePos (queue : List WorldSession) (sess : WorldSession) : ℕ :=
  if queue.contains sess then queue.idxOf sess + 1 else 0

/-- `SendAuthWaitQue` for sessions that follow each other. -/
def sendAuthWaitQue (told : WorldSession → ℕ) : List WorldSession → ℕ → WorldSession → ℕ
  | [], _ => told
  | s :: l, position => sendAuthWaitQue (Function.update told s position) l (position + 1)

variable {w : World} {sess : WorldSession}

def removeQueuedPlayer (w : World) (sess : WorldSession) : World × Bool :=
  let position := w.m_QueuedPlayer.idxOf sess
  let found := w.m_QueuedPlayer.contains sess
  let active := w.m_sessions.toList.length - w.m_QueuedPlayer.length
  let sessions := if found then active else active - 1
  let queue := w.m_QueuedPlayer.erase sess
  if (w.m_playerLimit = 0 ∨ sessions < w.m_playerLimit) ∧ queue ≠ [] then
    -- the first one is let in
    ({ w with m_QueuedPlayer := queue.tail, told := sendAuthWaitQue w.told queue 0 }, found)
  else
    ({ w with
      m_QueuedPlayer := queue
      told := sendAuthWaitQue w.told (queue.drop position) (position + 1) }, found)

/-- The rest of `AddSession_`, for a new session of the account. -/
def World.enter (w : World) (account decrease : ℕ) (skipsQueue : Bool) : World :=
  let s := (account, w.created)
  let m_sessions := w.m_sessions.insert s
  let waits := 0 < w.m_playerLimit ∧ w.m_playerLimit ≤ m_sessions.toList.length - decrease ∧
    skipsQueue = false
  let queue := if waits then w.m_QueuedPlayer ++ [s] else w.m_QueuedPlayer
  let told := Function.update w.told s (if waits then getQueuePos queue s else 0)
  ⟨m_sessions, queue, w.m_playerLimit, told, w.created + 1⟩

def addSession_ (w : World) (account : ℕ) (playerLoading skipsQueue : Bool) : World :=
  match w.m_sessions.find account with
  | none => w.enter account 1 skipsQueue
  | some old =>
    if playerLoading then w
    else
      let r := removeQueuedPlayer w old
      r.1.enter account (if r.2 then 0 else 1) skipsQueue

inductive Request
  | login (account : ℕ) (playerLoading skipsQueue : Bool)
  /-- `UpdateSessions` for a session whose update fails. -/
  | leave (account : ℕ)

def exec (w : World) : Request → World
  | .login account playerLoading skipsQueue => addSession_ w account playerLoading skipsQueue
  | .leave account =>
    match w.m_sessions.find account with
    | none => w
    | some sess =>
      let w := (removeQueuedPlayer (removeQueuedPlayer w sess).1 sess).1
      { w with m_sessions := w.m_sessions.erase account }

/-- Sessions wait in the order of their logins, only while the world is full, and each knows its
place. -/
structure Inv (w : World) : Prop where
  order : w.m_QueuedPlayer.Pairwise fun s s' => s.2 < s'.2
  live : ∀ s ∈ w.m_QueuedPlayer, s ∈ w.m_sessions
  told : ∀ s ∈ w.m_sessions, w.told s = getQueuePos w.m_QueuedPlayer s
  fresh : ∀ s ∈ w.m_sessions, s.2 < w.created
  full : w.m_QueuedPlayer ≠ [] → 0 < w.m_playerLimit ∧
    w.m_playerLimit + w.m_QueuedPlayer.length ≤ w.m_sessions.toList.length

@[grind =] theorem sendAuthWaitQue_eq {l : List WorldSession} (hl : l.Nodup)
    (told : WorldSession → ℕ) (n : ℕ) :
    sendAuthWaitQue told l n sess = if sess ∈ l then l.idxOf sess + n else told sess := by
  induction l generalizing told n with
  | nil => rfl
  | cons s l ih =>
    rw [sendAuthWaitQue, ih (List.nodup_cons.mp hl).2]
    grind [Function.update_apply]

theorem length_erase (h : sess ∈ w.m_sessions) :
    (w.m_sessions.erase sess.1).toList.length + 1 = w.m_sessions.toList.length := by
  simpa using Table.sum_erase (Table.find_key h) fun _ => 1

theorem Inv.without {queue : List WorldSession} {told : WorldSession → ℕ} (h : Inv w)
    (hs : sess ∈ w.m_sessions) (hsub : queue.Sublist w.m_QueuedPlayer) (hnot : sess ∉ queue)
    (hroom : queue ≠ [] → w.m_playerLimit + queue.length < w.m_sessions.toList.length)
    (htold : ∀ s, s ≠ sess → w.told s = getQueuePos w.m_QueuedPlayer s →
      told s = getQueuePos queue s) :
    Inv { w with
      m_sessions := w.m_sessions.erase sess.1, m_QueuedPlayer := queue, told := told } := by
  have hlength := length_erase hs
  have herase : ∀ s, s ∈ w.m_sessions.erase sess.1 ↔ s ∈ w.m_sessions ∧ s ≠ sess := fun s =>
    Table.mem_erase.trans (and_congr_right fun hs' =>
      not_congr ⟨Table.eq_of_key_eq hs' hs, congrArg _⟩)
  obtain ⟨order, live, htold', fresh, full⟩ := h
  refine ⟨order.sublist hsub, ?_, ?_, ?_, fun hne => ?_⟩ <;> dsimp only
  · grind
  · grind
  · grind
  · have hsome : w.m_QueuedPlayer ≠ [] := fun hnil => hne (List.sublist_nil.mp (hnil ▸ hsub))
    grind

theorem Inv.removed (h : Inv w) (hs : sess ∈ w.m_sessions) :
    ∃ queue told, removeQueuedPlayer w sess =
        ({ w with m_QueuedPlayer := queue, told := told }, w.m_QueuedPlayer.contains sess) ∧
      sess ∉ queue ∧ Inv { w with
        m_sessions := w.m_sessions.erase sess.1, m_QueuedPlayer := queue, told := told } ∧
      (sess ∈ w.m_QueuedPlayer → w.m_playerLimit ≤ (w.m_sessions.erase sess.1).toList.length) := by
  have hlength := length_erase hs
  have hfull := h.full
  have hnodup : w.m_QueuedPlayer.Nodup := h.order.imp fun hlt heq => hlt.ne (congrArg _ heq)
  unfold removeQueuedPlayer
  by_cases hq : sess ∈ w.m_QueuedPlayer
  · obtain ⟨a, b, hab⟩ := List.append_of_mem hq
    have herase : w.m_QueuedPlayer.erase sess = a ++ b := by grind
    have hposition : w.m_QueuedPlayer.idxOf sess = a.length := by grind
    have hroom := hfull (List.ne_nil_of_mem hq)
    simp only [herase, hposition, List.contains_iff_mem.mpr hq, if_true, List.drop_left]
    rw [if_neg (by omega)]
    exact ⟨a ++ b, _, rfl, by grind, h.without hs (by grind) (by grind) (by grind) (by grind),
      fun _ => by grind⟩
  · simp only [List.erase_of_not_mem hq, List.contains_iff_mem, hq, List.idxOf_of_notMem hq,
      List.drop_length, if_false]
    split_ifs with hpop
    · obtain ⟨pop, rest, hqueue⟩ := List.exists_cons_of_ne_nil hpop.2
      exact ⟨_, _, rfl, by grind, h.without hs (by grind) (by grind) (by grind) (by grind),
        False.elim⟩
    · exact ⟨_, _, rfl, hq, h.without hs (.refl _) hq (by grind) fun _ _ h => h, False.elim⟩

/-- The second `RemoveQueuedPlayer` of `UpdateSessions` changes nothing. -/
theorem removeQueuedPlayer_again (h : Inv { w with m_sessions := w.m_sessions.erase sess.1 })
    (hs : sess ∈ w.m_sessions) (hnot : sess ∉ w.m_QueuedPlayer) :
    (removeQueuedPlayer w sess).1 = w := by
  have hlength := length_erase hs
  have hfull := h.full
  simp only [removeQueuedPlayer, List.erase_of_not_mem hnot, List.idxOf_of_notMem hnot,
    List.drop_length]
  rw [if_neg (by grind)]
  rfl

/-- A new session waits behind the others, or it is let in. -/
theorem Inv.enter {account decrease : ℕ} (skipsQueue : Bool)
    (h : Inv { w with m_sessions := w.m_sessions.erase account })
    (hdecrease : decrease = 1 ∨ w.m_playerLimit ≤ (w.m_sessions.erase account).toList.length) :
    Inv (w.enter account decrease skipsQueue) := by
  have hlength : (w.m_sessions.insert (account, w.created)).toList.length =
    (w.m_sessions.erase account).toList.length + 1 := rfl
  have hinsert : ∀ s, s ∈ w.m_sessions.insert (account, w.created) ↔
      s = (account, w.created) ∨ s ∈ w.m_sessions.erase account := by simp
  have hnew : ∀ s ∈ w.m_sessions.erase account, s ≠ (account, w.created) :=
    fun s hs heq => (Table.mem_erase.mp hs).2 (congrArg _ heq)
  obtain ⟨order, live, told, fresh, full⟩ := h
  dsimp only at *
  unfold World.enter
  refine ⟨?_, ?_, ?_, ?_, ?_⟩ <;> dsimp only
  · grind
  · grind
  · grind [Function.update_apply]
  · grind
  · by_cases hnil : w.m_QueuedPlayer = [] <;> grind

theorem Inv.exec (h : Inv w) (i : Request) : Inv (exec w i) := by
  cases i with
  | login account playerLoading skipsQueue =>
    simp only [LoginQueue.exec, addSession_]
    split
    next hnone => exact Inv.enter skipsQueue (by rwa [Table.erase_eq_self hnone]) (.inl rfl)
    next old hold =>
      obtain ⟨hs, rfl⟩ := Table.of_find hold
      obtain ⟨queue, told, hr, -, h', hfound⟩ := h.removed hs
      rw [hr]
      cases playerLoading
      · refine Inv.enter skipsQueue h' ?_
        grind
      · exact h
  | leave account =>
    simp only [LoginQueue.exec]
    split
    next => exact h
    next sess hsess =>
      obtain ⟨hs, rfl⟩ := Table.of_find hsess
      obtain ⟨queue, told, hr, hnot, h', -⟩ := h.removed hs
      have hagain := removeQueuedPlayer_again (w := ⟨_, queue, _, told, _⟩) h' hs hnot
      rwa [hr, hagain]

/-- Whatever logs in and leaves, the queue is right. -/
theorem queue_of_run (m_playerLimit : ℕ) (requests : List Request) :
    Runs.Along exec Inv ⟨.empty _, [], m_playerLimit, fun _ => 0, 0⟩ requests := by
  refine Runs.along_of_inv (C := fun _ _ => True) (fun _ _ _ => trivial) ?_
    fun w i hw _ => hw.exec i
  exact ⟨.nil, nofun, nofun, nofun, fun hne => absurd rfl hne⟩

end FaceCore.LoginQueue
