import FaceCore.Auth.AuthSocket
import FaceCore.Lib.Framing

/-!
# Reading packets from the input buffer

`RealmSocket::handle_input` appends what has arrived to the input buffer and lets
`AuthSocket::OnRead` dispatch the packets in it; every handler checks on its own that its packet is
complete, and takes it from the buffer.

* `readPacket`, `onRead`, `handleInput`: what the server does with the buffer;
* `authPackets`: where the packets of a stream end, whatever the server does;
* `readPacket_of_frame`, `readPacket_of_frame_none`: what a handler takes from the buffer, compared
  with that.
-/

namespace FaceCore.AuthFraming

open BigNumber Srp6 Framing

/-! ### The server -/

/-- `sizeof` of `sAuthLogonChallenge_C`, `sAuthLogonProof_C` and `sAuthReconnectProof_C`. -/
def sizeofLogonChallenge : ℕ := 35
def sizeofLogonProof : ℕ := 75
def sizeofReconnectProof : ℕ := 58

/-- `RealmSocket::recv`: the bytes that are read, and what is left in the buffer. -/
def recv (inbuf : List UInt8) (len : ℕ) : Option (List UInt8 × List UInt8) :=
  if inbuf.length < len then none else some (inbuf.take len, inbuf.drop len)

/-- The size in the header of a challenge. -/
def challengeSize (header : List UInt8) : ℕ := setBinary (field header 2 2)

/-- How a challenge handler reads its packet: the header is taken before the rest is there. -/
def recvChallenge (inbuf : List UInt8) : Except (List UInt8) (List UInt8 × List UInt8) :=
  if inbuf.length < sizeofLogonChallenge then .error inbuf
  else
    match recv inbuf 4 with
    | none => .error inbuf
    | some (header, inbuf) =>
      let remaining := challengeSize header
      if remaining < sizeofLogonChallenge - 4 ∨ inbuf.length < remaining then .error inbuf
      else .ok (header ++ inbuf.take remaining, inbuf.drop remaining)

/-- How a handler reads a packet of fixed size. -/
def recvFixed (inbuf : List UInt8) (len : ℕ) : Except (List UInt8) (List UInt8 × List UInt8) :=
  match recv inbuf len with
  | none => .error inbuf
  | some r => .ok r

/-- How the handler of a command reads its packet: the packet, or that there is none, and what is
left in the buffer. There is never a patch to transfer. -/
def readPacket (cmd : AuthCmd) (inbuf : List UInt8) :
    Except (List UInt8) (List UInt8 × List UInt8) :=
  match cmd with
  | .logonChallenge => recvChallenge inbuf
  | .logonProof => recvFixed inbuf sizeofLogonProof
  | .reconnectChallenge => recvChallenge inbuf
  | .reconnectProof => recvFixed inbuf sizeofReconnectProof
  | .realmList => recvFixed inbuf 5
  | .xferAccept => .error inbuf
  | .xferResume => .error inbuf
  | .xferCancel => recvFixed inbuf 1

/-- The entry of the table for a command byte; the list of the realms is for those who are logged
on. -/
def lookup (authed : Bool) (b : UInt8) : Option AuthCmd :=
  authTable.find? fun cmd => cmd.toByte == b && (cmd ≠ .realmList || authed)

/-- A connection: the socket, the input buffer, whether it was shut down, and the packets that were
dispatched. -/
structure Conn where
  sock : AuthSocket
  inbuf : List UInt8
  closed : Bool
  log : List (List UInt8)

/-- The bytes of a chunk come behind those in the buffer. -/
def Conn.arrive (c : Conn) (chunk : List UInt8) : Conn := { c with inbuf := c.inbuf ++ chunk }

section Server

variable (sha : Sha1) (env : ℕ → Env)

/-- How the handler ends that gets a packet, in a connection with `n` dispatched packets. -/
def outcome (st : AuthSocket) (n : ℕ) (cmd : AuthCmd) (pkt : List UInt8) : Outcome :=
  handlePacket sha (env n) st cmd pkt

/-- The connection after the handler of a packet. -/
def afterPacket (c : Conn) (cmd : AuthCmd) (pkt inbuf : List UInt8) : Conn :=
  let o := outcome sha env c.sock c.log.length cmd pkt
  ⟨o.sock, inbuf, c.closed || o.shutdown, c.log ++ [pkt]⟩

/-- `AuthSocket::OnRead`. Every turn takes at least one byte. -/
def onRead : ℕ → Conn → Conn
  | 0, c => c
  | fuel + 1, c =>
    match c.inbuf with
    | [] => c
    | b :: _ =>
      match lookup c.sock.authed b with
      | none => { c with closed := true }
      | some cmd =>
        match readPacket cmd c.inbuf with
        | .error inbuf => { c with inbuf := inbuf }
        | .ok (pkt, inbuf) =>
          if (outcome sha env c.sock c.log.length cmd pkt).ret then
            onRead fuel (afterPacket sha env c cmd pkt inbuf)
          else afterPacket sha env c cmd pkt inbuf

/-- `RealmSocket::handle_input`, with a buffer that is large enough. -/
def handleInput (c : Conn) (chunk : List UInt8) : Conn :=
  if c.closed then c
  else onRead sha env ((c.arrive chunk).inbuf.length + 1) (c.arrive chunk)

end Server

/-! ### The packets of a stream -/

/-- A challenge tells its size in its header. -/
def challengePacketSize (l : List UInt8) : Option ℕ :=
  if l.length < 4 ∨ challengeSize l < sizeofLogonChallenge - 4 then none
  else some (4 + challengeSize l)

/-- The size of a packet of a command. -/
def cmdSize (cmd : AuthCmd) (l : List UInt8) : Option ℕ :=
  match cmd with
  | .logonChallenge => challengePacketSize l
  | .reconnectChallenge => challengePacketSize l
  | .logonProof => some sizeofLogonProof
  | .reconnectProof => some sizeofReconnectProof
  | .realmList => some 5
  | .xferAccept => some 1
  | .xferResume => some 9
  | .xferCancel => some 1

/-- The command of the packet at the head of a stream. -/
def headCmd (l : List UInt8) : Option AuthCmd := l.head?.bind (lookup true)

def packetSize (l : List UInt8) : Option ℕ := (headCmd l).bind (cmdSize · l)

theorem challengeSize_append {l : List UInt8} (h : ¬l.length < 4) (l' : List UInt8) :
    challengeSize (l ++ l') = challengeSize l := by
  unfold challengeSize field
  rw [List.drop_append_of_le_length (by omega), List.take_append_of_le_length (by simp; omega)]

theorem challengeSize_take {l : List UInt8} (h : ¬l.length < 4) :
    challengeSize (l.take 4) = challengeSize l := by
  conv_rhs => rw [← List.take_append_drop 4 l]
  exact (challengeSize_append (by simp; omega) _).symm

theorem challengePacketSize_eq_some_iff {l : List UInt8} {k : ℕ} :
    challengePacketSize l = some k ↔
      4 ≤ l.length ∧ sizeofLogonChallenge ≤ k ∧ k = 4 + challengeSize l := by
  unfold challengePacketSize sizeofLogonChallenge
  split_ifs with h
  · refine iff_of_false nofun ?_
    rintro ⟨hlen, hk, rfl⟩
    omega
  · rw [Option.some_inj]
    omega

theorem cmdSize_append {cmd : AuthCmd} {l : List UInt8} {k : ℕ} (h : cmdSize cmd l = some k)
    (l' : List UInt8) : cmdSize cmd (l ++ l') = some k := by
  have hchallenge : challengePacketSize l = some k → challengePacketSize (l ++ l') = some k := by
    rw [challengePacketSize_eq_some_iff, challengePacketSize_eq_some_iff]
    rintro ⟨hlen, hk, hsize⟩
    rw [challengeSize_append (by omega), List.length_append]
    exact ⟨by omega, hk, hsize⟩
  cases cmd with
  | logonChallenge => exact hchallenge h
  | reconnectChallenge => exact hchallenge h
  | _ => exact h

theorem cmdSize_pos {cmd : AuthCmd} {l : List UInt8} {k : ℕ} (h : cmdSize cmd l = some k) :
    0 < k := by
  have hchallenge : challengePacketSize l = some k → 0 < k := by
    rw [challengePacketSize_eq_some_iff]
    omega
  cases cmd with
  | logonChallenge => exact hchallenge h
  | reconnectChallenge => exact hchallenge h
  | _ =>
    cases h
    decide

theorem headCmd_append {l : List UInt8} {cmd : AuthCmd} (h : headCmd l = some cmd)
    (l' : List UInt8) : headCmd (l ++ l') = some cmd := by
  cases l with
  | nil => cases h
  | cons b l => exact h

/-- The packets of the authentication protocol. -/
def authPackets : LengthCode UInt8 where
  size := packetSize
  size_pos h := by
    obtain ⟨cmd, -, hsize⟩ := Option.bind_eq_some_iff.1 h
    exact cmdSize_pos hsize
  size_append h l' := by
    obtain ⟨cmd, hcmd, hsize⟩ := Option.bind_eq_some_iff.1 h
    exact Option.bind_eq_some_iff.2 ⟨cmd, headCmd_append hcmd l', cmdSize_append hsize l'⟩

/-- A packet that has the size that its head tells. -/
def WellFormed (pkt : List UInt8) : Prop := authPackets.size pkt = some pkt.length

instance (pkt : List UInt8) : Decidable (WellFormed pkt) :=
  inferInstanceAs (Decidable (packetSize pkt = some pkt.length))

/-- The command under which a packet is taken from the buffer. -/
def taken (st : AuthSocket) (pkt : List UInt8) : Option AuthCmd :=
  (pkt.head?.bind (lookup st.authed)).filter fun cmd => cmd ≠ .xferAccept ∧ cmd ≠ .xferResume

/-- A challenge of which at least the smallest one is there. -/
def CutChallenge (l : List UInt8) : Prop :=
  (headCmd l = some .logonChallenge ∨ headCmd l = some .reconnectChallenge) ∧
    sizeofLogonChallenge ≤ l.length

/-! ### What the handlers take from the buffer -/

section Read

variable {st : AuthSocket} {cmd : AuthCmd} {p r : List UInt8}

theorem lookup_eq_some_iff {authed : Bool} {b : UInt8} :
    lookup authed b = some cmd ↔ cmd.toByte = b ∧ (cmd = .realmList → authed = true) := by
  constructor
  · intro h
    have := List.find?_some h
    simp only [Bool.and_eq_true, beq_iff_eq, Bool.or_eq_true, decide_eq_true_eq] at this
    exact ⟨this.1, fun hc => this.2.resolve_left (absurd hc)⟩
  · rintro ⟨rfl, h⟩
    cases cmd with
    | realmList =>
      rw [h rfl]
      rfl
    | _ => rfl

/-- A packet is taken under the command at its head. -/
theorem taken_eq_some_iff :
    taken st p = some cmd ↔ headCmd p = some cmd ∧ (cmd = .realmList → st.authed = true) ∧
      cmd ≠ .xferAccept ∧ cmd ≠ .xferResume := by
  unfold taken headCmd
  cases p with
  | nil => simp
  | cons b p =>
    simp only [List.head?_cons, Option.bind_some, Option.filter_eq_some_iff, lookup_eq_some_iff,
      decide_eq_true_eq]
    tauto

theorem headCmd_of_frame {l : List UInt8} (h : authPackets.frame l = some (p, r)) :
    headCmd l = headCmd p := by
  have hne := LengthCode.ne_nil_of_frame h
  rw [← LengthCode.append_of_frame h]
  cases p with
  | nil => exact absurd rfl hne
  | cons b p => rfl

theorem recvFixed_of_le {l : List UInt8} {k : ℕ} (h : k ≤ l.length) :
    recvFixed l k = .ok (l.take k, l.drop k) := by
  rw [recvFixed, recv, if_neg (by omega)]

theorem recvFixed_of_lt {l : List UInt8} {k : ℕ} (h : l.length < k) : recvFixed l k = .error l := by
  rw [recvFixed, recv, if_pos h]

theorem recvChallenge_of_le {l : List UInt8} {k : ℕ} (h : challengePacketSize l = some k)
    (hle : k ≤ l.length) : recvChallenge l = .ok (l.take k, l.drop k) := by
  obtain ⟨hlen, hk, rfl⟩ := challengePacketSize_eq_some_iff.1 h
  unfold sizeofLogonChallenge at hk
  unfold recvChallenge recv sizeofLogonChallenge
  rw [if_neg (by omega), if_neg (by omega)]
  dsimp only
  rw [challengeSize_take (by omega), if_neg (by rw [List.length_drop]; omega), List.take_add,
    List.drop_drop]

/-- A challenge handler that has no complete challenge has thrown the header away, unless there was
less than the smallest challenge. -/
theorem recvChallenge_of_lt {l : List UInt8}
    (h : ∀ k, challengePacketSize l = some k → l.length < k) :
    recvChallenge l = .error (if l.length < sizeofLogonChallenge then l else l.drop 4) := by
  unfold recvChallenge
  split_ifs with hlen
  · rfl
  unfold sizeofLogonChallenge at hlen
  rw [recv, if_neg (by omega)]
  dsimp only
  rw [challengeSize_take (by omega)]
  refine if_pos (or_iff_not_imp_left.2 fun hbig => ?_)
  unfold sizeofLogonChallenge at hbig
  have := h _ (challengePacketSize_eq_some_iff.2
    ⟨by omega, by unfold sizeofLogonChallenge; omega, rfl⟩)
  rw [List.length_drop]
  omega

/-- A handler takes the complete packet that is at the head of the buffer. -/
theorem readPacket_of_frame {l : List UInt8} (h : authPackets.frame l = some (p, r))
    (hcmd : taken st p = some cmd) : readPacket cmd l = .ok (p, r) := by
  obtain ⟨hhead, -, haccept, hresume⟩ := taken_eq_some_iff.1 hcmd
  rw [← headCmd_of_frame h] at hhead
  obtain ⟨k, hsize, hle, rfl, rfl⟩ := LengthCode.frame_eq_some_iff.1 h
  have hk : cmdSize cmd l = some k := by
    simpa [authPackets, packetSize, hhead] using hsize
  cases cmd with
  | logonChallenge => exact recvChallenge_of_le hk hle
  | reconnectChallenge => exact recvChallenge_of_le hk hle
  | xferAccept => exact absurd rfl haccept
  | xferResume => exact absurd rfl hresume
  | _ =>
    cases hk
    exact recvFixed_of_le hle

theorem length_lt_of_frame_none {l : List UInt8} (h : authPackets.frame l = none)
    (hhead : headCmd l = some cmd) {k : ℕ} (hk : cmdSize cmd l = some k) : l.length < k := by
  by_contra hle
  have hsize : authPackets.size l = some k := by simp [authPackets, packetSize, hhead, hk]
  have := LengthCode.frame_eq_some_iff.2 ⟨k, hsize, Nat.le_of_not_lt hle, rfl, rfl⟩
  rw [h] at this
  cases this

theorem cutChallenge_iff {l : List UInt8} (hhead : headCmd l = some cmd) :
    CutChallenge l ↔
      (cmd = .logonChallenge ∨ cmd = .reconnectChallenge) ∧ sizeofLogonChallenge ≤ l.length := by
  rw [CutChallenge, hhead, Option.some_inj, Option.some_inj]

/-- A handler that finds no complete packet leaves the buffer as it is, except for a challenge of
which the smallest one is there. -/
theorem readPacket_of_frame_none {l : List UInt8} (h : authPackets.frame l = none)
    (hhead : headCmd l = some cmd) :
    ∃ inbuf, readPacket cmd l = .error inbuf ∧ (¬CutChallenge l → inbuf = l) ∧
      (CutChallenge l → inbuf.length < l.length) := by
  rw [cutChallenge_iff hhead]
  have hlt := @length_lt_of_frame_none cmd l h hhead
  have hchallenge : (∀ k, challengePacketSize l = some k → l.length < k) →
      ∃ inbuf, recvChallenge l = .error inbuf ∧ (¬sizeofLogonChallenge ≤ l.length → inbuf = l) ∧
        (sizeofLogonChallenge ≤ l.length → inbuf.length < l.length) := by
    intro hshort
    refine ⟨_, recvChallenge_of_lt hshort, fun hle => if_pos (by omega), fun hle => ?_⟩
    rw [if_neg (by omega), List.length_drop]
    unfold sizeofLogonChallenge at hle
    omega
  cases cmd with
  | logonChallenge => simpa [readPacket] using hchallenge fun k hk => hlt hk
  | reconnectChallenge => simpa [readPacket] using hchallenge fun k hk => hlt hk
  | xferAccept => exact ⟨l, rfl, fun _ => rfl, fun hcut => absurd hcut.1 (by decide)⟩
  | xferResume => exact ⟨l, rfl, fun _ => rfl, fun hcut => absurd hcut.1 (by decide)⟩
  | _ =>
    exact ⟨l, recvFixed_of_lt (hlt rfl), fun _ => rfl, fun hcut => absurd hcut.1 (by decide)⟩

end Read

end FaceCore.AuthFraming
