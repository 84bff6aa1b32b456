import FaceCore.Auth.OnRead
import FaceCore.Auth.Session

/-!
# Packets from a stream of bytes

A stream of packets reaches the authentication server in chunks. The reference is what the server
does when every packet arrives on its own; the chunks should not matter.

* `deliver`: the packets that are dispatched when they arrive one by one;
* `Faithful`: the packets that were dispatched are those, and a part of a packet is in the buffer;
* `Tame`: no chunk ends in a challenge of which at least the smallest one is there, and a packet
  after which the loop stops, or should, has no other one behind it;
* `framing_iff`: along every run the two are the same thing, and then the chunks do not matter.
-/

namespace FaceCore.AuthFraming

open BigNumber Srp6 Framing

/-! ### The reference -/

section Reference

variable (sha : Sha1) (env : ℕ → Env)

/-- The packets that are dispatched when they arrive one by one: each one that is taken from the
buffer, until the connection is shut down. -/
def deliver : AuthSocket → ℕ → List (List UInt8) → List (List UInt8)
  | _, _, [] => []
  | st, n, p :: ps =>
    match taken st p with
    | none => []
    | some cmd =>
      p :: if (outcome sha env st n cmd p).shutdown then []
        else deliver (outcome sha env st n cmd p).sock (n + 1) ps

/-- None of the packets is dispatched. -/
def Idle (st : AuthSocket) (ps : List (List UInt8)) : Prop := ∀ p ∈ ps.head?, taken st p = none

/-- What `OnRead` does right by, for the complete packets of the buffer and the rest: there is no
part of a challenge that its handler takes for a whole one, and no packet behind one that fails with
the connection open, or does not fail and shuts it down. -/
def Tame : AuthSocket → ℕ → List (List UInt8) → List UInt8 → Prop
  | _, _, [], rest => ¬CutChallenge rest
  | st, n, p :: ps, rest =>
    match taken st p with
    | none => True
    | some cmd =>
      match (outcome sha env st n cmd p).ret, (outcome sha env st n cmd p).shutdown with
      | true, false => Tame (outcome sha env st n cmd p).sock (n + 1) ps rest
      | false, true => True
      | true, true => Idle (outcome sha env st n cmd p).sock ps
      | false, false => Idle (outcome sha env st n cmd p).sock ps

def TameConn (c : Conn) : Prop :=
  Tame sha env c.sock c.log.length (authPackets.split c.inbuf).1 (authPackets.split c.inbuf).2

end Reference

/-! ### One turn of the loop -/

section Turn

variable {sha : Sha1} {env : ℕ → Env} {st : AuthSocket} {c : Conn} {cmd : AuthCmd}
  {p r : List UInt8}

theorem onRead_taken (h : authPackets.frame c.inbuf = some (p, r))
    (hcmd : taken c.sock p = some cmd) (fuel : ℕ) :
    onRead sha env (fuel + 1) c =
      if (outcome sha env c.sock c.log.length cmd p).ret then
        onRead sha env fuel (afterPacket sha env c cmd p r)
      else afterPacket sha env c cmd p r := by
  obtain ⟨hhead, hauthed, -, -⟩ := taken_eq_some_iff.1 hcmd
  have hread := readPacket_of_frame h hcmd
  rw [← headCmd_of_frame h] at hhead
  rcases hbuf : c.inbuf with _ | ⟨b, l⟩
  · rw [hbuf] at hhead
    cases hhead
  rw [hbuf] at hhead hread
  have hlookup : lookup c.sock.authed b = some cmd :=
    lookup_eq_some_iff.2 ⟨(lookup_eq_some_iff.1 hhead).1, hauthed⟩
  rw [onRead]
  simp only [hbuf, hlookup, hread]

theorem idle_of_frame (h : authPackets.frame c.inbuf = some (p, r)) :
    Idle st (authPackets.split c.inbuf).1 ↔ taken st p = none := by
  rw [LengthCode.split_of_some h]
  simp [Idle]

theorem tame_of_frame_none (h : authPackets.frame c.inbuf = none) :
    TameConn sha env c ↔ ¬CutChallenge c.inbuf := by
  rw [TameConn, LengthCode.split_of_none h]
  rfl

theorem tame_of_not_taken (h : authPackets.frame c.inbuf = some (p, r))
    (hp : taken c.sock p = none) : TameConn sha env c := by
  rw [TameConn, LengthCode.split_of_some h]
  simp [Tame, hp]

/-- Nothing is ever dispatched behind a byte that is not the command of a handler. -/
theorem idle_of_lookup_none {b : UInt8} (h : lookup st.authed b = none) (l : List UInt8) :
    Idle st (authPackets.split (b :: l)).1 := by
  intro p hp
  obtain ⟨ps, hps⟩ := List.head?_eq_some_iff.1 hp
  obtain ⟨r, hframe, -, -⟩ := LengthCode.frame_of_split_cons hps
  have hne := LengthCode.ne_nil_of_frame hframe
  have happ := LengthCode.append_of_frame hframe
  cases p with
  | nil => exact absurd rfl hne
  | cons b' p =>
    obtain rfl : b' = b := (List.cons.inj happ).1
    simp [taken, h]

theorem not_cutChallenge_of_lookup_none {authed : Bool} {b : UInt8} (h : lookup authed b = none)
    (l : List UInt8) : ¬CutChallenge (b :: l) := by
  rintro ⟨hcut, -⟩
  have hsome : ∃ cmd, lookup authed b = some cmd := by
    obtain hcut | hcut := hcut
    · exact ⟨_, lookup_eq_some_iff.2 ⟨(lookup_eq_some_iff.1 hcut).1, nofun⟩⟩
    · exact ⟨_, lookup_eq_some_iff.2 ⟨(lookup_eq_some_iff.1 hcut).1, nofun⟩⟩
  rw [h] at hsome
  simp at hsome

theorem onRead_failed {b : UInt8} {l inbuf : List UInt8} (hbuf : c.inbuf = b :: l)
    (hlookup : lookup c.sock.authed b = some cmd) (hread : readPacket cmd c.inbuf = .error inbuf)
    (fuel : ℕ) : onRead sha env (fuel + 1) c = { c with inbuf := inbuf } := by
  rw [hbuf] at hread
  simp only [onRead, hbuf, hlookup, hread]

/-- The handler of a transfer command finds no patch and leaves its packet in the buffer; every
other one takes a complete packet. -/
theorem readPacket_of_not_taken (h : authPackets.frame c.inbuf = some (p, r))
    (hp : taken c.sock p = none) (hhead : headCmd c.inbuf = some cmd)
    (hauthed : cmd = .realmList → c.sock.authed = true) :
    readPacket cmd c.inbuf = .error c.inbuf := by
  by_cases haccept : cmd = .xferAccept
  · rw [haccept]
    rfl
  by_cases hresume : cmd = .xferResume
  · rw [hresume]
    rfl
  have := taken_eq_some_iff.2 ⟨(headCmd_of_frame h).symm.trans hhead, hauthed, haccept, hresume⟩
  rw [hp] at this
  cases this

/-- A turn that dispatches nothing ends the loop, and it does harm only to a challenge that is cut
off. -/
theorem onRead_idle (h : Idle c.sock (authPackets.split c.inbuf).1) (fuel : ℕ) :
    (TameConn sha env c ∧
      (onRead sha env (fuel + 1) c = c ∨
        (∀ l, Idle c.sock (authPackets.split (c.inbuf ++ l)).1) ∧
          onRead sha env (fuel + 1) c = { c with closed := true })) ∨
    (¬TameConn sha env c ∧ ∃ inbuf, inbuf.length < c.inbuf.length ∧
      onRead sha env (fuel + 1) c = { c with inbuf := inbuf }) := by
  rcases hbuf : c.inbuf with _ | ⟨b, l⟩
  · refine .inl ⟨?_, .inl (by simp only [onRead, hbuf])⟩
    rw [tame_of_frame_none (hbuf ▸ LengthCode.frame_nil), hbuf]
    exact fun hcut => absurd hcut.2 (by decide)
  rcases hlookup : lookup c.sock.authed b with _ | cmd
  · refine .inl ⟨?_, .inr ⟨fun l' => idle_of_lookup_none hlookup (l ++ l'), ?_⟩⟩
    swap
    · simp only [onRead, hbuf, hlookup]
    rcases hframe : authPackets.frame c.inbuf with _ | ⟨p, r⟩
    · rw [tame_of_frame_none hframe, hbuf]
      exact not_cutChallenge_of_lookup_none hlookup l
    · exact tame_of_not_taken hframe ((idle_of_frame hframe).1 h)
  obtain ⟨hbyte, hauthed⟩ := lookup_eq_some_iff.1 hlookup
  have hhead : headCmd c.inbuf = some cmd := by
    rw [hbuf]
    exact lookup_eq_some_iff.2 ⟨hbyte, fun _ => rfl⟩
  rw [← hbuf]
  rcases hframe : authPackets.frame c.inbuf with _ | ⟨p, r⟩
  · obtain ⟨inbuf, hread, hleft, hcut⟩ := readPacket_of_frame_none hframe hhead
    rw [tame_of_frame_none hframe, onRead_failed hbuf hlookup hread]
    by_cases hc : CutChallenge c.inbuf
    · exact .inr ⟨not_not.2 hc, inbuf, hcut hc, rfl⟩
    · exact .inl ⟨hc, .inl (by rw [hleft hc])⟩
  · have hp := (idle_of_frame hframe).1 h
    refine .inl ⟨tame_of_not_taken hframe hp, .inl ?_⟩
    rw [onRead_failed hbuf hlookup (readPacket_of_not_taken hframe hp hhead hauthed)]

theorem deliver_eq_nil_iff {n : ℕ} {ps : List (List UInt8)} :
    deliver sha env st n ps = [] ↔ Idle st ps := by
  cases ps with
  | nil => simp [deliver, Idle]
  | cons p ps => cases h : taken st p <;> simp [deliver, Idle, h]

theorem taken_of_not_idle (h : ¬Idle st (authPackets.split c.inbuf).1) :
    ∃ p r cmd, authPackets.frame c.inbuf = some (p, r) ∧ taken st p = some cmd := by
  rcases hframe : authPackets.frame c.inbuf with _ | ⟨p, r⟩
  · rw [LengthCode.split_of_none hframe] at h
    exact absurd (fun p hp => by cases hp) h
  · rw [idle_of_frame hframe, ← ne_eq, Option.ne_none_iff_exists'] at h
    obtain ⟨cmd, hcmd⟩ := h
    exact ⟨p, r, cmd, rfl, hcmd⟩

/-! ### The loop -/

/-- The loop only adds to the dispatched packets, and it does not open a connection again. -/
theorem onRead_mono (fuel : ℕ) (c : Conn) :
    c.log <+: (onRead sha env fuel c).log ∧
      (c.closed = true → (onRead sha env fuel c).closed = true) := by
  induction fuel generalizing c with
  | zero => exact ⟨List.prefix_refl _, id⟩
  | succ fuel ih =>
    by_cases hidle : Idle c.sock (authPackets.split c.inbuf).1
    · obtain ⟨-, h | ⟨-, h⟩⟩ | ⟨-, inbuf, -, h⟩ := @onRead_idle sha env c hidle fuel
      · rw [h]
        exact ⟨List.prefix_refl _, id⟩
      · rw [h]
        exact ⟨List.prefix_refl _, fun _ => rfl⟩
      · rw [h]
        exact ⟨List.prefix_refl _, id⟩
    · obtain ⟨p, r, cmd, hframe, hcmd⟩ := taken_of_not_idle hidle
      rw [onRead_taken hframe hcmd]
      have hlog : c.log <+: (afterPacket sha env c cmd p r).log := List.prefix_append _ _
      have hclosed : c.closed = true → (afterPacket sha env c cmd p r).closed = true := by
        intro h
        simp [afterPacket, h]
      split_ifs
      · obtain ⟨hlog', hclosed'⟩ := ih (afterPacket sha env c cmd p r)
        exact ⟨hlog.trans hlog', fun h => hclosed' (hclosed h)⟩
      · exact ⟨hlog, hclosed⟩

/-- The loop dispatches nothing exactly when there is nothing to dispatch. -/
theorem onRead_log_eq_iff (fuel : ℕ) :
    (onRead sha env (fuel + 1) c).log = c.log ↔ Idle c.sock (authPackets.split c.inbuf).1 := by
  constructor
  · intro hlog
    by_contra hidle
    obtain ⟨p, r, cmd, hframe, hcmd⟩ := taken_of_not_idle hidle
    have hlen : (afterPacket sha env c cmd p r).log.length ≤
        (onRead sha env (fuel + 1) c).log.length := by
      rw [onRead_taken hframe hcmd]
      split_ifs
      · exact (onRead_mono fuel _).1.length_le
      · exact le_rfl
    rw [hlog] at hlen
    simp [afterPacket] at hlen
  · intro hidle
    obtain ⟨-, h | ⟨-, h⟩⟩ | ⟨-, inbuf, -, h⟩ := @onRead_idle sha env c hidle fuel
    · rw [h]
    · rw [h]
    · rw [h]

variable (sha env) in
/-- The packets that are still to be dispatched when `l` arrives. -/
def pending (c : Conn) (l : List UInt8) : List (List UInt8) :=
  if c.closed then []
  else deliver sha env c.sock c.log.length (authPackets.split (c.inbuf ++ l)).1

variable (sha env) in
/-- From `c` to `c'` everything was dispatched that was to be, and nothing was lost. -/
def Settled (c c' : Conn) : Prop :=
  c'.log = c.log ++ deliver sha env c.sock c.log.length (authPackets.split c.inbuf).1 ∧
    (c'.closed = true ∨ c'.log.flatten ++ c'.inbuf = c.log.flatten ++ c.inbuf)

theorem settled_idle (hidle : Idle c.sock (authPackets.split c.inbuf).1) {c' : Conn} :
    Settled sha env c c' ↔
      c'.log = c.log ∧
        (c'.closed = true ∨ c'.log.flatten ++ c'.inbuf = c.log.flatten ++ c.inbuf) := by
  rw [Settled, deliver_eq_nil_iff.2 hidle, List.append_nil]

theorem deliver_taken (h : authPackets.frame c.inbuf = some (p, r))
    (hcmd : taken c.sock p = some cmd) (l : List UInt8) :
    deliver sha env c.sock c.log.length (authPackets.split (c.inbuf ++ l)).1 =
      p :: if (outcome sha env c.sock c.log.length cmd p).shutdown then []
        else deliver sha env (afterPacket sha env c cmd p r).sock
          (afterPacket sha env c cmd p r).log.length (authPackets.split (r ++ l)).1 := by
  rw [LengthCode.split_of_some (LengthCode.frame_append h l)]
  simp [deliver, hcmd, afterPacket]

/-- What is to be done after a packet is what was to be done, without the packet. -/
theorem settled_afterPacket_iff (h : authPackets.frame c.inbuf = some (p, r))
    (hcmd : taken c.sock p = some cmd)
    (hshut : (outcome sha env c.sock c.log.length cmd p).shutdown = false) {c' : Conn} :
    Settled sha env (afterPacket sha env c cmd p r) c' ↔ Settled sha env c c' := by
  have hdeliver := @deliver_taken sha env c cmd p r h hcmd []
  rw [hshut, if_neg (by decide), List.append_nil, List.append_nil] at hdeliver
  rw [Settled, Settled, hdeliver, ← LengthCode.append_of_frame h]
  simp [afterPacket]

theorem tame_taken_iff (h : authPackets.frame c.inbuf = some (p, r))
    (hcmd : taken c.sock p = some cmd) :
    TameConn sha env c ↔
      match (outcome sha env c.sock c.log.length cmd p).ret,
        (outcome sha env c.sock c.log.length cmd p).shutdown with
      | true, false => TameConn sha env (afterPacket sha env c cmd p r)
      | false, true => True
      | true, true => Idle (afterPacket sha env c cmd p r).sock (authPackets.split r).1
      | false, false => Idle (afterPacket sha env c cmd p r).sock (authPackets.split r).1 := by
  rw [TameConn, LengthCode.split_of_some h]
  simp [Tame, hcmd, afterPacket, TameConn]

/-- The loop settles what is in the buffer exactly when it is tame. -/
theorem settled_onRead_iff {fuel : ℕ} (hopen : c.closed = false) (hfuel : c.inbuf.length < fuel) :
    Settled sha env c (onRead sha env fuel c) ↔ TameConn sha env c := by
  induction fuel generalizing c with
  | zero => omega
  | succ fuel ih =>
    by_cases hidle : Idle c.sock (authPackets.split c.inbuf).1
    · rw [settled_idle hidle]
      obtain ⟨ht, h | ⟨-, h⟩⟩ | ⟨ht, inbuf, hlt, h⟩ := @onRead_idle sha env c hidle fuel
      · rw [h]
        exact iff_of_true ⟨rfl, .inr rfl⟩ ht
      · rw [h]
        exact iff_of_true ⟨rfl, .inl rfl⟩ ht
      · rw [h]
        refine iff_of_false ?_ ht
        rintro ⟨-, hclosed | hlost⟩
        · rw [hopen] at hclosed
          cases hclosed
        · have := congrArg List.length hlost
          simp only [List.length_append] at this
          omega
    obtain ⟨p, r, cmd, hframe, hcmd⟩ := taken_of_not_idle hidle
    have hlen := LengthCode.length_of_frame hframe
    have hdeliver := @deliver_taken sha env c cmd p r hframe hcmd []
    rw [List.append_nil, List.append_nil] at hdeliver
    rw [onRead_taken hframe hcmd, tame_taken_iff hframe hcmd]
    rcases hret : (outcome sha env c.sock c.log.length cmd p).ret with _ | _ <;>
      rcases hshut : (outcome sha env c.sock c.log.length cmd p).shutdown with _ | _
    · -- the packet fails with the connection open: what is behind it stays in the buffer
      rw [if_neg (by decide), ← settled_afterPacket_iff hframe hcmd hshut, Settled,
        List.self_eq_append_right, deliver_eq_nil_iff]
      exact and_iff_left (.inr rfl)
    · rw [if_neg (by decide), Settled, hdeliver, hshut, if_pos rfl]
      exact iff_of_true ⟨rfl, .inl (by simp [afterPacket, hshut])⟩ trivial
    · rw [if_pos rfl, ← settled_afterPacket_iff hframe hcmd hshut]
      refine ih ?_ ?_
      · simp [afterPacket, hopen, hshut]
      · simp only [afterPacket]
        omega
    · -- the connection is shut down, but the loop goes on with what is behind the packet
      have hclosed : (onRead sha env fuel (afterPacket sha env c cmd p r)).closed = true :=
        (onRead_mono fuel _).2 (by simp [afterPacket, hshut])
      rw [if_pos rfl, Settled, hdeliver, hshut, if_pos rfl, and_iff_left (.inl hclosed)]
      obtain ⟨fuel, rfl⟩ : ∃ n, fuel = n + 1 := ⟨fuel - 1, by omega⟩
      exact onRead_log_eq_iff fuel

/-- What is to be dispatched, sooner or later, is the same before and after the loop, if the buffer
is tame. -/
theorem pending_onRead {fuel : ℕ} (hopen : c.closed = false) (hfuel : c.inbuf.length < fuel)
    (htame : TameConn sha env c) (l : List UInt8) :
    (onRead sha env fuel c).log ++ pending sha env (onRead sha env fuel c) l =
      c.log ++ pending sha env c l := by
  induction fuel generalizing c with
  | zero => omega
  | succ fuel ih =>
    have hpending : pending sha env c l =
        deliver sha env c.sock c.log.length (authPackets.split (c.inbuf ++ l)).1 := by
      rw [pending, hopen, if_neg (by decide)]
    by_cases hidle : Idle c.sock (authPackets.split c.inbuf).1
    · obtain ⟨-, h | ⟨hnever, h⟩⟩ | ⟨ht, -⟩ := @onRead_idle sha env c hidle fuel
      · rw [h]
      · rw [h, hpending, deliver_eq_nil_iff.2 (hnever l)]
        rfl
      · exact absurd htame ht
    obtain ⟨p, r, cmd, hframe, hcmd⟩ := taken_of_not_idle hidle
    have hlen := LengthCode.length_of_frame hframe
    rw [hpending, deliver_taken hframe hcmd]
    rw [tame_taken_iff hframe hcmd] at htame
    rw [onRead_taken hframe hcmd]
    rcases hret : (outcome sha env c.sock c.log.length cmd p).ret with _ | _ <;>
      rcases hshut : (outcome sha env c.sock c.log.length cmd p).shutdown with _ | _
    · simp [pending, afterPacket, hopen, hshut]
    · simp [pending, afterPacket, hopen, hshut]
    · rw [hret, hshut] at htame
      rw [if_pos rfl, ih (by simp [afterPacket, hopen, hshut]) (by simp only [afterPacket]; omega)
        htame]
      simp [pending, afterPacket, hopen, hshut]
    · rw [hret, hshut] at htame
      have hclosed : (onRead sha env fuel (afterPacket sha env c cmd p r)).closed = true :=
        (onRead_mono fuel _).2 (by simp [afterPacket, hshut])
      obtain ⟨fuel, rfl⟩ : ∃ n, fuel = n + 1 := ⟨fuel - 1, by omega⟩
      rw [if_pos rfl, pending, hclosed, if_pos rfl, if_pos rfl, (onRead_log_eq_iff fuel).2 htame,
        List.append_nil]
      rfl

end Turn

/-! ### Runs -/

/-- A connection, and everything that was sent to it. -/
structure Wire where
  conn : Conn
  received : List UInt8

/-- A connection to which nothing was sent. -/
def Wire.new (st : AuthSocket) : Wire := ⟨⟨st, [], false, []⟩, []⟩

section Run

variable (sha : Sha1) (env : ℕ → Env) (st : AuthSocket)

/-- One chunk. -/
def wireStep (w : Wire) (chunk : List UInt8) : Wire :=
  ⟨handleInput sha env w.conn chunk, w.received ++ chunk⟩

/-- The packets that were dispatched are the ones that would have been if every packet had arrived
on its own, and the buffer of an open connection holds what has arrived behind them. -/
def Faithful (w : Wire) : Prop :=
  w.conn.log = deliver sha env st 0 (authPackets.split w.received).1 ∧
    (w.conn.closed = true ∨ w.conn.log.flatten ++ w.conn.inbuf = w.received)

/-- A chunk that leaves the buffer tame. -/
def TameChunk (w : Wire) (chunk : List UInt8) : Prop :=
  w.conn.closed = false → TameConn sha env (w.conn.arrive chunk)

/-- What tame chunks keep: the packets that were dispatched and those that are to be dispatched,
whatever comes, are the ones that would have been if every packet had arrived on its own. -/
def Consistent (w : Wire) : Prop :=
  (∀ l, w.conn.log ++ pending sha env w.conn l =
      deliver sha env st 0 (authPackets.split (w.received ++ l)).1) ∧
    (w.conn.closed = true ∨ w.conn.log.flatten ++ w.conn.inbuf = w.received)

variable {sha env st} {w : Wire} {chunk : List UInt8}

theorem wireStep_closed (h : w.conn.closed = true) :
    wireStep sha env w chunk = ⟨w.conn, w.received ++ chunk⟩ := by
  rw [wireStep, handleInput, if_pos h]

theorem wireStep_open (h : w.conn.closed = false) :
    wireStep sha env w chunk = ⟨onRead sha env ((w.conn.arrive chunk).inbuf.length + 1)
      (w.conn.arrive chunk), w.received ++ chunk⟩ := by
  rw [wireStep, handleInput, if_neg (by rw [h]; decide)]

theorem deliver_arrive (h : Consistent sha env st w) (hopen : w.conn.closed = false)
    (l : List UInt8) :
    w.conn.log ++ pending sha env (w.conn.arrive chunk) l =
      deliver sha env st 0 (authPackets.split (w.received ++ chunk ++ l)).1 := by
  have := h.1 (chunk ++ l)
  rw [pending, hopen, if_neg (by decide), ← List.append_assoc, ← List.append_assoc] at this
  rw [pending, show (w.conn.arrive chunk).closed = false from hopen, if_neg (by decide)]
  exact this

theorem faithful_wireStep_iff (h : Consistent sha env st w) :
    Faithful sha env st (wireStep sha env w chunk) ↔ TameChunk sha env w chunk := by
  unfold TameChunk
  rcases hclosed : w.conn.closed with _ | _
  · have hreceived := h.2.resolve_left (by simp [hclosed])
    have hdeliver := @deliver_arrive sha env st w chunk h hclosed []
    have harrive : (w.conn.arrive chunk).closed = false := hclosed
    rw [pending, harrive, if_neg (by decide), List.append_nil, List.append_nil] at hdeliver
    have hbytes : (w.conn.arrive chunk).log.flatten ++ (w.conn.arrive chunk).inbuf =
        w.received ++ chunk := by
      rw [← hreceived, List.append_assoc]
      rfl
    rw [wireStep_open hclosed, imp_iff_right rfl,
      ← settled_onRead_iff harrive (Nat.lt_succ_self _), Faithful, Settled, ← hdeliver, hbytes]
    rfl
  · rw [wireStep_closed hclosed]
    refine iff_of_true ⟨?_, .inl hclosed⟩ nofun
    rw [← h.1 chunk, pending, hclosed, if_pos rfl, List.append_nil]

theorem consistent_wireStep (h : Consistent sha env st w) (htame : TameChunk sha env w chunk) :
    Consistent sha env st (wireStep sha env w chunk) := by
  refine ⟨fun l => ?_, ((faithful_wireStep_iff h).2 htame).2⟩
  rcases hclosed : w.conn.closed with _ | _
  · have harrive : (w.conn.arrive chunk).closed = false := hclosed
    rw [wireStep_open hclosed, ← deliver_arrive h hclosed l]
    exact pending_onRead harrive (Nat.lt_succ_self _) (htame hclosed) l
  · rw [wireStep_closed hclosed, List.append_assoc, ← h.1 (chunk ++ l), pending, pending, hclosed,
      if_pos rfl, if_pos rfl]

theorem consistent_new : Consistent sha env st (Wire.new st) :=
  ⟨fun _ => rfl, .inr rfl⟩

theorem faithful_new : Faithful sha env st (Wire.new st) := by
  refine ⟨?_, .inr rfl⟩
  rw [show (Wire.new st).received = [] from rfl, LengthCode.split_of_none LengthCode.frame_nil]
  rfl

/-- Along every run, whatever is sent, the connection is faithful in every state exactly when every
chunk is tame. -/
theorem faithful_iff_tame {chunks : List (List UInt8)} :
    Runs.Along (wireStep sha env) (Faithful sha env st) (Wire.new st) chunks ↔
      Runs.EachStep (wireStep sha env) (TameChunk sha env) (Wire.new st) chunks :=
  Runs.along_iff_eachStep consistent_new faithful_new
    (fun _ _ h _ htame => consistent_wireStep h htame) fun _ _ h _ => faithful_wireStep_iff h

theorem received_foldl (w : Wire) (chunks : List (List UInt8)) :
    (chunks.foldl (wireStep sha env) w).received = w.received ++ chunks.flatten := by
  induction chunks generalizing w with
  | nil => simp
  | cons chunk chunks ih => simp [ih, wireStep]

theorem onRead_nil {c : Conn} (h : c.inbuf = []) (fuel : ℕ) : onRead sha env fuel c = c := by
  cases fuel with
  | zero => rfl
  | succ fuel => simp only [onRead, h]

theorem tame_of_inbuf_nil {c : Conn} (h : c.inbuf = []) : TameConn sha env c := by
  rw [tame_of_frame_none (h ▸ LengthCode.frame_nil), h]
  exact fun hcut => absurd hcut.2 (by decide)

/-- A buffer with one packet that is taken from it is tame, and then empty. -/
theorem onRead_packet {c : Conn} {cmd : AuthCmd} (h : WellFormed c.inbuf)
    (hcmd : taken c.sock c.inbuf = some cmd) (fuel : ℕ) :
    TameConn sha env c ∧ (onRead sha env (fuel + 1) c).inbuf = [] := by
  have hframe : authPackets.frame c.inbuf = some (c.inbuf, []) := by
    simpa using LengthCode.frame_packet_append h []
  have hidle : ∀ st, Idle st (authPackets.split []).1 := by
    intro st
    rw [LengthCode.split_of_none LengthCode.frame_nil]
    exact fun p hp => by cases hp
  constructor
  · rw [tame_taken_iff hframe hcmd]
    split
    · exact tame_of_inbuf_nil rfl
    · trivial
    · exact hidle _
    · exact hidle _
  · rw [onRead_taken hframe hcmd, onRead_nil rfl, ite_self]
    rfl

/-- A buffer of packets that starts with one that is never taken from it is tame, and stays as it
is. -/
theorem onRead_stuck {c : Conn} {q : List UInt8} {qs : List (List UInt8)}
    (h : ∀ p ∈ q :: qs, WellFormed p) (hbuf : c.inbuf = (q :: qs).flatten)
    (hq : taken c.sock q = none) (fuel : ℕ) :
    TameConn sha env c ∧ ((onRead sha env (fuel + 1) c).closed = true ∨
      onRead sha env (fuel + 1) c = c) := by
  have hframe : authPackets.frame c.inbuf = some (q, qs.flatten) := by
    rw [hbuf]
    exact LengthCode.frame_packet_append (h q (by simp)) _
  have ht : TameConn sha env c := tame_of_not_taken hframe hq
  refine ⟨ht, ?_⟩
  obtain ⟨-, h | ⟨-, h⟩⟩ | ⟨hnt, -⟩ := @onRead_idle sha env c ((idle_of_frame hframe).2 hq) fuel
  · exact .inr h
  · exact .inl (by rw [h])
  · exact absurd ht hnt

/-- Where packets arrive one by one, the buffer is empty between them, or it starts with a packet
that is never taken from it. -/
def Whole (w : Wire) : Prop :=
  w.conn.closed = true ∨ ∃ qs, w.conn.inbuf = qs.flatten ∧ (∀ q ∈ qs, WellFormed q) ∧
    Idle w.conn.sock qs

/-- A chunk that is a packet is tame. -/
theorem whole_wireStep (h : Whole w) (hchunk : WellFormed chunk) :
    TameChunk sha env w chunk ∧ Whole (wireStep sha env w chunk) := by
  rcases hclosed : w.conn.closed with _ | _
  swap
  · exact ⟨fun hopen => by simp [hopen] at hclosed, .inl (by rwa [wireStep_closed hclosed])⟩
  rw [wireStep_open hclosed]
  obtain ⟨qs, hbuf, hqs, hidle⟩ := h.resolve_left (by simp [hclosed])
  have hqs' : ∀ q ∈ qs ++ [chunk], WellFormed q := by
    intro q hq
    obtain hq | hq := List.mem_append.1 hq
    · exact hqs q hq
    · rwa [List.mem_singleton.1 hq]
  have hbuf' : (w.conn.arrive chunk).inbuf = (qs ++ [chunk]).flatten := by
    simp [Conn.arrive, hbuf]
  have hstuck : ∀ q qs', qs ++ [chunk] = q :: qs' → taken w.conn.sock q = none →
      TameChunk sha env w chunk ∧ Whole ⟨onRead sha env ((w.conn.arrive chunk).inbuf.length + 1)
        (w.conn.arrive chunk), w.received ++ chunk⟩ := by
    intro q qs' heq hq
    rw [heq] at hqs' hbuf'
    obtain ⟨ht, hc | hc⟩ := @onRead_stuck sha env (w.conn.arrive chunk) q qs' hqs' hbuf' hq
      (w.conn.arrive chunk).inbuf.length
    · exact ⟨fun _ => ht, .inl hc⟩
    · refine ⟨fun _ => ht, .inr ⟨q :: qs', ?_, hqs', ?_⟩⟩
      · rw [hc]
        exact hbuf'
      · rw [hc]
        simpa [Idle, Conn.arrive] using hq
  cases qs with
  | nil =>
    rcases hcmd : taken w.conn.sock chunk with _ | cmd
    · exact hstuck chunk [] rfl hcmd
    · have hchunk' : (w.conn.arrive chunk).inbuf = chunk := by simpa using hbuf'
      obtain ⟨ht, hnil⟩ := @onRead_packet sha env (w.conn.arrive chunk) cmd (by rwa [hchunk'])
        (by rwa [hchunk']) (w.conn.arrive chunk).inbuf.length
      exact ⟨fun _ => ht, .inr ⟨[], hnil, by simp, fun p hp => by cases hp⟩⟩
  | cons q qs => exact hstuck q (qs ++ [chunk]) rfl (hidle q rfl)

theorem tame_packets {w : Wire} (h : Whole w) {ps : List (List UInt8)}
    (hps : ∀ p ∈ ps, WellFormed p) : Runs.EachStep (wireStep sha env) (TameChunk sha env) w ps := by
  induction ps generalizing w with
  | nil => exact Runs.EachStep.nil w
  | cons p ps ih =>
    obtain ⟨ht, hwhole⟩ := whole_wireStep h (hps p (by simp))
    exact Runs.eachStep_cons.2 ⟨ht, ih hwhole fun q hq => hps q (by simp [hq])⟩

/-- The packets that tame chunks dispatch depend on the stream alone. -/
theorem log_of_tame {chunks : List (List UInt8)}
    (h : Runs.EachStep (wireStep sha env) (TameChunk sha env) (Wire.new st) chunks) :
    (chunks.foldl (wireStep sha env) (Wire.new st)).conn.log =
      deliver sha env st 0 (authPackets.split chunks.flatten).1 := by
  have hend := faithful_iff_tame.2 h chunks (List.prefix_refl _)
  rw [hend.1, received_foldl]
  rfl

end Run

/-- **Main result.** Let packets be sent, and let them arrive in chunks. The connection is faithful
in every state exactly when every chunk is tame, and then the packets that are dispatched are those
that are dispatched when every packet arrives on its own. -/
theorem framing_iff (sha : Sha1) (env : ℕ → Env) (st : AuthSocket) (ps : List (List UInt8))
    (hps : ∀ p ∈ ps, WellFormed p) (chunks : List (List UInt8))
    (hchunks : chunks.flatten = ps.flatten) :
    (Runs.Along (wireStep sha env) (Faithful sha env st) (Wire.new st) chunks ↔
      Runs.EachStep (wireStep sha env) (TameChunk sha env) (Wire.new st) chunks) ∧
    (Runs.EachStep (wireStep sha env) (TameChunk sha env) (Wire.new st) chunks →
      (chunks.foldl (wireStep sha env) (Wire.new st)).conn.log =
        (ps.foldl (wireStep sha env) (Wire.new st)).conn.log) := by
  refine ⟨faithful_iff_tame, fun htame => ?_⟩
  have hwhole : Whole (Wire.new st) := .inr ⟨[], rfl, by simp, fun p hp => by cases hp⟩
  rw [log_of_tame htame, log_of_tame (tame_packets hwhole hps), hchunks]

/-- A logon challenge of 36 bytes, for the login `AB`, which does not exist. -/
def sampleChallenge : List UInt8 :=
  [0x00, 0x00, 32, 0] ++ [0x57, 0x6F, 0x57, 0] ++ [3, 3, 5] ++ [0x34, 0x30] ++
    [0x36, 0x38, 0x78, 0] ++ [0x6E, 0x69, 0x57, 0] ++ [0x53, 0x55, 0x6E, 0x65] ++ [0, 0, 0, 0] ++
    [127, 0, 0, 1] ++ [2] ++ [65, 66]

/-- The packet is dispatched when it arrives in two chunks of 20 and 16 bytes. -/
theorem framing_iff_sample :
    ([sampleChallenge.take 20, sampleChallenge.drop 20].foldl
        (wireStep AuthSession.sampleSha fun _ => AuthSession.sampleEnv)
        (Wire.new (AuthSocket.new 0 0))).conn.log =
      ([sampleChallenge].foldl (wireStep AuthSession.sampleSha fun _ => AuthSession.sampleEnv)
        (Wire.new (AuthSocket.new 0 0))).conn.log := by
  refine (framing_iff _ _ _ [sampleChallenge] (by decide) _ (by decide)).2 ?_
  refine Runs.eachStep_cons.2 ⟨fun _ => ?_, Runs.eachStep_cons.2 ⟨fun _ => ?_, Runs.EachStep.nil _⟩⟩
  · rw [tame_of_frame_none (by decide)]
    exact fun hcut => absurd hcut.2 (by decide)
  · exact (@onRead_packet _ _ _ .logonChallenge (by decide) (by decide) 0).1

/-- When it arrives in chunks of 35 bytes and one byte, the header is taken from the buffer, and the
packet is not dispatched. -/
theorem framing_fails_for_cut_challenge :
    WellFormed sampleChallenge ∧
      [sampleChallenge.take 35, sampleChallenge.drop 35].flatten = [sampleChallenge].flatten ∧
      ([sampleChallenge.take 35, sampleChallenge.drop 35].foldl
          (wireStep AuthSession.sampleSha fun _ => AuthSession.sampleEnv)
          (Wire.new (AuthSocket.new 0 0))).conn.log = [] ∧
      ([sampleChallenge].foldl (wireStep AuthSession.sampleSha fun _ => AuthSession.sampleEnv)
          (Wire.new (AuthSocket.new 0 0))).conn.log = [sampleChallenge] ∧
      ([sampleChallenge.take 35].foldl
          (wireStep AuthSession.sampleSha fun _ => AuthSession.sampleEnv)
          (Wire.new (AuthSocket.new 0 0))).conn.inbuf ≠ sampleChallenge.take 35 := by
  decide

end FaceCore.AuthFraming
