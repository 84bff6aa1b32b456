import FaceCore.Lib.Runs
import Mathlib.Data.UInt
import Mathlib.Algebra.Order.BigOperators.Group.List
import Mathlib.Logic.Function.Iterate

/-!
# Sending packets to a client

`WorldSocket::SendPacket`, `handle_output` and `handle_output_queue`. A packet is put behind what is
in the output buffer as long as it fits and no packet is queued; else it is queued. The buffer is
offered to the transport first, then the packet at the head of the queue, which is put back if it is
not taken as a whole.

* `Output`, `Event`, `step`: the two stores, what can happen, and the stores afterwards;
* `InOrder`: the bytes written are a prefix of the accepted packets, and all of them once the
  transport takes what it is offered, unless the connection has been closed;
* `output_in_order_iff`: a run is in order exactly if no packet that the transport did not take is
  put back into a full queue, and no accepted packet has a header that the refused ones before it
  have spoilt: the cipher goes on also for a packet that the queue refuses.

The cipher of the headers and the size of the buffer are parameters. The queue of the ACE library
refuses a packet when the blocks in it have reached its high water mark, at both ends. An answer
`-1` of `handle_output` makes the reactor close the socket. Wake-ups of the reactor and logs are
left out, and so are errors of the transport other than that it would block.
-/

namespace FaceCore.WorldSocket

/-! ### The header -/

/-- `0xFF & n`, as a byte. -/
def lowByte (n : ℕ) : UInt8 := UInt8.ofNat (0xFF &&& n)

theorem toNat_lowByte (n : ℕ) : (lowByte n).toNat = n % 256 := by
  have hand : 0xFF &&& n = n % 256 := by
    rw [Nat.and_comm]
    exact Nat.and_two_pow_sub_one_eq_mod n 8
  unfold lowByte
  rw [hand, UInt8.toNat_ofNat_of_lt' (Nat.mod_lt n (by decide))]

/-- `ServerPktHeader`: the size of the payload plus that of the opcode, and the opcode. -/
structure ServerPktHeader where
  size : UInt32
  cmd : UInt16

namespace ServerPktHeader

variable (h : ServerPktHeader)

/-- `ServerPktHeader::isLargePacket`. -/
def isLargePacket : Bool := h.size > 0x7FFF

/-- `ServerPktHeader::header`. -/
def header : List UInt8 :=
  (if h.isLargePacket then [(0x80 : UInt8) ||| lowByte (h.size.toNat >>> 16)] else []) ++
    [lowByte (h.size.toNat >>> 8), lowByte h.size.toNat, lowByte h.cmd.toNat,
      lowByte (h.cmd.toNat >>> 8)]

/-- `ServerPktHeader::getHeaderLength`. -/
def getHeaderLength : ℕ := 2 + if h.isLargePacket then 3 else 2

theorem length_header : h.header.length = h.getHeaderLength := by
  unfold header getHeaderLength
  split_ifs <;> rfl

end ServerPktHeader

/-- How a client reads a header at the head of its stream: size and opcode, and the rest. -/
def readHeader : List UInt8 → Option ((ℕ × ℕ) × List UInt8)
  | b₀ :: b₁ :: b₂ :: b₃ :: l =>
    if b₀.toNat < 128 then
      some ((b₀.toNat * 256 + b₁.toNat, b₃.toNat * 256 + b₂.toNat), l)
    else
      match l with
      | b₄ :: l =>
        some (((b₀.toNat - 128) * 65536 + b₁.toNat * 256 + b₂.toNat, b₄.toNat * 256 + b₃.toNat), l)
      | [] => none
  | _ => none

/-- A header is read as it was written, in its short and in its long form. -/
theorem readHeader_header (h : ServerPktHeader) (hsize : h.size.toNat < 2 ^ 23) (l : List UInt8) :
    readHeader (h.header ++ l) = some ((h.size.toNat, h.cmd.toNat), l) := by
  have hcmd := h.cmd.toNat_lt
  have hc₀ := toNat_lowByte h.cmd.toNat
  have hs₀ := toNat_lowByte h.size.toNat
  have hshift : ∀ n k : ℕ, (lowByte (n >>> k)).toNat = n / 2 ^ k % 256 := by
    intro n k
    rw [toNat_lowByte, Nat.shiftRight_eq_div_pow]
  have hlarge : h.isLargePacket = true ↔ 0x7FFF < h.size.toNat := by
    unfold ServerPktHeader.isLargePacket
    rw [decide_eq_true_eq, gt_iff_lt, UInt32.lt_iff_toNat_lt]
    rfl
  unfold ServerPktHeader.header
  by_cases hl : h.isLargePacket = true
  · rw [if_pos hl]
    have hbound := hlarge.1 hl
    have hfirst : ((0x80 : UInt8) ||| lowByte (h.size.toNat >>> 16)).toNat =
        128 + h.size.toNat / 65536 := by
      have hor := Nat.two_pow_add_eq_or_of_lt (b := h.size.toNat / 65536) (i := 7) (by omega) 1
      rw [UInt8.toNat_or, hshift, Nat.mod_eq_of_lt (by omega)]
      exact hor.symm
    simp only [List.cons_append, List.nil_append, readHeader, hfirst, hshift, hs₀, hc₀]
    rw [if_neg (by omega)]
    simp only [Option.some.injEq, Prod.mk.injEq, and_true]
    omega
  · rw [if_neg hl]
    have hbound : h.size.toNat ≤ 0x7FFF := Nat.le_of_not_lt fun hlt => hl (hlarge.2 hlt)
    simp only [List.cons_append, List.nil_append, readHeader, hshift, hs₀, hc₀]
    rw [if_pos (by omega)]
    simp only [Option.some.injEq, Prod.mk.injEq, and_true]
    omega

/-! ### The two stores -/

/-- `AuthCrypt` with its state `κ`. -/
structure Cipher (κ : Type*) where
  /-- `AuthCrypt::EncryptSend`. -/
  encryptSend : κ → List UInt8 → κ × List UInt8
  length_encryptSend : ∀ k l, (encryptSend k l).2.length = l.length

/-- A packet: its opcode and its payload. -/
abbrev Packet := UInt16 × List UInt8

/-- The header of a packet. -/
def packetHeader (p : Packet) : ServerPktHeader := ⟨UInt32.ofNat (p.2.length + 2), p.1⟩

/-- The cipher and the bytes behind one more packet. -/
def Cipher.packet {κ : Type*} (C : Cipher κ) (r : κ × List UInt8) (p : Packet) : κ × List UInt8 :=
  let (crypt, bytes) := C.encryptSend r.1 (packetHeader p).header
  (crypt, r.2 ++ (bytes ++ p.2))

/-- Packets one behind the other, each with its encrypted header. -/
def Cipher.packets {κ : Type*} (C : Cipher κ) (crypt : κ) (ps : List Packet) : κ × List UInt8 :=
  ps.foldl C.packet (crypt, [])

/-- A message block: the bytes between its read and its write pointer, and its size. -/
structure Block where
  data : List UInt8
  size : ℕ

/-- `high_water_mark` of the queue. -/
def highWaterMark : ℕ := 8 * 1024 * 1024

/-- `ACE_Message_Queue::is_full_i`. -/
def isFull (queue : List Block) : Bool := highWaterMark ≤ (queue.map Block.size).sum

/-- The part of the socket that sends, with a record of the bytes that the transport took and of the
packets for which `SendPacket` returned 0. -/
structure Output (κ : Type*) where
  crypt : κ
  /-- The bytes in `m_OutBuffer`. -/
  outBuffer : List UInt8
  msgQueue : List Block
  closing : Bool
  written : List UInt8
  accepted : List Packet

/-- A new socket. -/
def Output.new {κ : Type*} (crypt : κ) : Output κ := ⟨crypt, [], [], false, [], []⟩

/-- The answer of the transport to an offer: the number of bytes it takes, or that it would
block. -/
inductive SendResult
  | sent (n : ℕ)
  | wouldBlock
  deriving DecidableEq

/-- Does the transport take the whole offer of `len` bytes? -/
def SendResult.takes : SendResult → ℕ → Bool
  | .sent n, len => len ≤ n
  | .wouldBlock, _ => false

/-- What can happen. `handle_output` can make two offers, of the buffer and of the head of the
queue. -/
inductive Event
  | send (pct : Packet)
  | output (toBuffer toQueue : SendResult)

namespace Output

variable {κ : Type*} (C : Cipher κ) (outBufferSize : ℕ)

/-- There is space in the buffer, and nothing is queued. -/
def Fits (st : Output κ) (pct : Packet) : Prop :=
  outBufferSize - st.outBuffer.length ≥ pct.2.length + (packetHeader pct).getHeaderLength ∧
    st.msgQueue.isEmpty

instance (st : Output κ) (pct : Packet) : Decidable (st.Fits outBufferSize pct) :=
  inferInstanceAs (Decidable (_ ∧ _))

/-- `WorldSocket::SendPacket`. The header is encrypted before the queue can refuse the packet. -/
def sendPacket (st : Output κ) (pct : Packet) : Output κ :=
  if st.closing then st
  else
    let header := packetHeader pct
    let (crypt, bytes) := C.encryptSend st.crypt header.header
    let st := { st with crypt := crypt }
    if st.Fits outBufferSize pct then
      { st with outBuffer := st.outBuffer ++ (bytes ++ pct.2), accepted := st.accepted ++ [pct] }
    else if isFull st.msgQueue then st
    else
      { st with
        msgQueue := st.msgQueue ++ [⟨bytes ++ pct.2, pct.2.length + header.getHeaderLength⟩]
        accepted := st.accepted ++ [pct] }

/-- `WorldSocket::handle_output_queue`. -/
def handleOutputQueue (st : Output κ) (r : SendResult) : Output κ :=
  match st.msgQueue with
  | [] => st
  | mblk :: queue =>
    match r with
    | .wouldBlock =>
      -- the answer of `enqueue_head` is not looked at
      if isFull queue then { st with msgQueue := queue } else st
    | .sent n =>
      if n = 0 then { st with msgQueue := queue, closing := true }
      else if n < mblk.data.length then
        let st := { st with written := st.written ++ mblk.data.take n }
        if isFull queue then { st with msgQueue := queue, closing := true }
        else { st with msgQueue := { mblk with data := mblk.data.drop n } :: queue }
      else { st with written := st.written ++ mblk.data, msgQueue := queue }

/-- `WorldSocket::handle_output`. -/
def handleOutput (st : Output κ) (toBuffer toQueue : SendResult) : Output κ :=
  if st.closing then st
  else if st.outBuffer.length = 0 then st.handleOutputQueue toQueue
  else
    match toBuffer with
    | .wouldBlock => st
    | .sent n =>
      if n = 0 then { st with closing := true }
      else if n < st.outBuffer.length then
        { st with
          written := st.written ++ st.outBuffer.take n
          outBuffer := st.outBuffer.drop n }
      else
        handleOutputQueue { st with written := st.written ++ st.outBuffer, outBuffer := [] } toQueue

/-- One event. -/
def step (st : Output κ) : Event → Output κ
  | .send pct => st.sendPacket C outBufferSize pct
  | .output toBuffer toQueue => st.handleOutput toBuffer toQueue

/-! ### What is to be kept -/

/-- The bytes that wait in the two stores. -/
def pending (st : Output κ) : List UInt8 := st.outBuffer ++ st.msgQueue.flatMap Block.data

/-- The bytes at the head of the queue. -/
def headData (st : Output κ) : List UInt8 := (st.msgQueue.head?.map Block.data).getD []

/-- `handle_output` with a transport that takes everything it is offered. -/
def outputAll (st : Output κ) : Output κ :=
  st.handleOutput (.sent st.outBuffer.length) (.sent st.headData.length)

/-- As many of these calls as there can be something to offer. -/
def drain (st : Output κ) : Output κ := outputAll^[st.msgQueue.length + 1] st

/-- The stream of a socket whose cipher started with `crypt`: the accepted packets. -/
def stream (crypt : κ) (st : Output κ) : List UInt8 := (C.packets crypt st.accepted).2

/-- The bytes written are a prefix of the accepted packets, and all of them once the transport takes
everything, as long as the connection is open. -/
def InOrder (crypt : κ) (st : Output κ) : Prop :=
  st.written <+: st.stream C crypt ∧ (st.closing = false → st.drain.written = st.stream C crypt)

/-- The same, on a connection that has to stay open. -/
def Complete (crypt : κ) (st : Output κ) : Prop :=
  st.written <+: st.stream C crypt ∧ st.drain.written = st.stream C crypt

/-- If the packet is accepted, its header is encrypted as if no packet had been refused before. -/
def InStep (crypt : κ) (st : Output κ) (pct : Packet) : Prop :=
  st.closing = false → st.Fits outBufferSize pct ∨ isFull st.msgQueue = false →
    (C.encryptSend st.crypt (packetHeader pct).header).2 =
      (C.encryptSend (C.packets crypt st.accepted).1 (packetHeader pct).header).2

/-- A call of `handle_output` comes to the queue. -/
def OffersHead (st : Output κ) (toBuffer : SendResult) : Prop :=
  st.closing = false ∧ (st.outBuffer.length = 0 ∨ toBuffer.takes st.outBuffer.length = true)

/-- A packet at the head of the queue that would block is not put back into a full queue. -/
def Kept (crypt : κ) (st : Output κ) : Event → Prop
  | .send pct => st.InStep C outBufferSize crypt pct
  | .output toBuffer toQueue =>
    st.OffersHead toBuffer → toQueue = .wouldBlock → isFull st.msgQueue.tail = false

/-- No offer is answered by zero bytes, and a packet that is not taken as a whole is not put back
into a full queue. -/
def Served (crypt : κ) (st : Output κ) : Event → Prop
  | .send pct => st.InStep C outBufferSize crypt pct
  | .output toBuffer toQueue =>
    (st.closing = false → st.outBuffer.length ≠ 0 → toBuffer ≠ .sent 0) ∧
      (st.OffersHead toBuffer → st.msgQueue ≠ [] → toQueue ≠ .sent 0 ∧
        (isFull st.msgQueue.tail = true → toQueue.takes st.headData.length = true))

/-! ### Draining the stores -/

/-- No block of the queue is empty. -/
def Blocks (st : Output κ) : Prop := ∀ b ∈ st.msgQueue, b.data ≠ []

variable {C outBufferSize} {crypt : κ} {st : Output κ}

theorem drain_of_closing (h : st.closing = true) : st.drain = st := by
  have hfix : st.outputAll = st := by
    unfold outputAll handleOutput
    rw [if_pos h]
  exact Function.iterate_fixed hfix _

theorem handleOutputQueue_headData (hb : st.Blocks) :
    st.handleOutputQueue (.sent st.headData.length) =
      { st with written := st.written ++ st.headData, msgQueue := st.msgQueue.tail } := by
  obtain ⟨crypt, outBuffer, msgQueue, closing, written, accepted⟩ := st
  cases msgQueue with
  | nil => simp [handleOutputQueue, headData]
  | cons mblk queue =>
    have hmblk : mblk.data ≠ [] := hb mblk List.mem_cons_self
    simp [handleOutputQueue, headData, hmblk]

theorem outputAll_of_open (hopen : st.closing = false) (hb : st.Blocks) :
    st.outputAll =
      { st with
        written := st.written ++ st.outBuffer ++ st.headData
        outBuffer := []
        msgQueue := st.msgQueue.tail } := by
  unfold outputAll handleOutput
  rw [if_neg (by rw [hopen]; exact Bool.false_ne_true)]
  by_cases hempty : st.outBuffer.length = 0
  · rw [if_pos hempty, handleOutputQueue_headData hb, List.eq_nil_of_length_eq_zero hempty,
      List.append_nil]
  · rw [if_neg hempty]
    simp only [hempty, if_false, lt_irrefl]
    exact @handleOutputQueue_headData _
      { st with written := st.written ++ st.outBuffer, outBuffer := [] } hb

/-- An open connection writes all that waits. -/
theorem drain_written (hopen : st.closing = false) (hb : st.Blocks) :
    st.drain.written = st.written ++ st.pending := by
  obtain ⟨crypt, outBuffer, msgQueue, closing, written, accepted⟩ := st
  unfold drain
  induction msgQueue generalizing written outBuffer with
  | nil =>
    show (outputAll _).written = _
    rw [outputAll_of_open hopen hb]
    simp [headData, pending]
  | cons mblk queue ih =>
    have hq : ∀ b ∈ queue, b.data ≠ [] := fun b hbq => hb b (List.mem_cons_of_mem mblk hbq)
    rw [List.length_cons, Function.iterate_succ_apply, outputAll_of_open hopen hb]
    have hrest := ih [] (written ++ outBuffer ++ mblk.data) hopen hq
    simp only [headData, List.head?_cons, Option.map_some, Option.getD_some, List.tail_cons]
    rw [hrest]
    simp [pending]

theorem inOrder_iff (hb : st.Blocks) :
    st.InOrder C crypt ↔ st.written <+: st.stream C crypt ∧
      (st.closing = false → st.written ++ st.pending = st.stream C crypt) := by
  unfold InOrder
  refine and_congr_right fun _ => forall_congr' fun hopen => ?_
  rw [drain_written hopen hb]

/-! ### One event -/

theorem length_packet_pos (C : Cipher κ) (k : κ) (h : ServerPktHeader) (payload : List UInt8) :
    (C.encryptSend k h.header).2 ++ payload ≠ [] := by
  have hlen : 0 < (C.encryptSend k h.header).2.length := by
    rw [C.length_encryptSend, ServerPktHeader.length_header]
    unfold ServerPktHeader.getHeaderLength
    omega
  exact List.append_ne_nil_of_left_ne_nil (List.ne_nil_of_length_pos hlen) payload

/-- A packet is refused, or it goes behind everything that waits. -/
theorem sendPacket_cases (C : Cipher κ) (outBufferSize : ℕ) (hb : st.Blocks) (pct : Packet) :
    let st' := st.sendPacket C outBufferSize pct
    st'.Blocks ∧ st'.closing = st.closing ∧ st'.written = st.written ∧
      (¬ (st.closing = false ∧ (st.Fits outBufferSize pct ∨ isFull st.msgQueue = false)) ∧
          st'.accepted = st.accepted ∧ st'.pending = st.pending ∨
        (st.closing = false ∧ (st.Fits outBufferSize pct ∨ isFull st.msgQueue = false)) ∧
          st'.accepted = st.accepted ++ [pct] ∧
          st'.pending = st.pending ++
            ((C.encryptSend st.crypt (packetHeader pct).header).2 ++ pct.2)) := by
  have hpacket := length_packet_pos C st.crypt (packetHeader pct) pct.2
  unfold sendPacket
  by_cases hclosing : st.closing = true
  · rw [if_pos hclosing]
    exact ⟨hb, rfl, rfl, .inl ⟨by simp [hclosing], rfl, rfl⟩⟩
  rw [if_neg hclosing]
  have hopen : st.closing = false := Bool.eq_false_of_not_eq_true hclosing
  have hsame : Fits outBufferSize
      { st with crypt := (C.encryptSend st.crypt (packetHeader pct).header).1 } pct ↔
        st.Fits outBufferSize pct := Iff.rfl
  dsimp only
  simp only [hsame]
  split_ifs with hfits hfull
  · refine ⟨hb, rfl, rfl, .inr ⟨⟨hopen, .inl hfits⟩, rfl, ?_⟩⟩
    have hempty : st.msgQueue = [] := List.isEmpty_iff.1 hfits.2
    simp [pending, hempty]
  · exact ⟨hb, rfl, rfl, .inl ⟨by simp [hfits, hfull], rfl, rfl⟩⟩
  · refine ⟨?_, rfl, rfl, .inr ⟨⟨hopen, .inr (Bool.eq_false_of_not_eq_true hfull)⟩, rfl, ?_⟩⟩
    · intro b hmem
      rcases List.mem_append.1 hmem with hmem | hmem
      · exact hb b hmem
      · obtain rfl := List.mem_singleton.1 hmem
        exact hpacket
    · simp [pending, List.flatMap_append]

theorem stream_append (crypt : κ) (st : Output κ) (pct : Packet) :
    (C.packets crypt (st.accepted ++ [pct])).2 = st.stream C crypt ++
      ((C.encryptSend (C.packets crypt st.accepted).1 (packetHeader pct).header).2 ++ pct.2) := by
  rw [Cipher.packets, List.foldl_append]
  rfl

/-- What waits stays the stream exactly if the header of an accepted packet is in step. -/
theorem sendPacket_inStep (outBufferSize : ℕ) (hb : st.Blocks) (pct : Packet)
    (h : st.closing = false → st.written ++ st.pending = st.stream C crypt) :
    let st' := st.sendPacket C outBufferSize pct
    st.stream C crypt <+: st'.stream C crypt ∧
      ((st'.closing = false → st'.written ++ st'.pending = st'.stream C crypt) ↔
        st.InStep C outBufferSize crypt pct) := by
  dsimp only
  obtain ⟨-, hclosing, hwritten, ⟨hnot, hacc, hpending⟩ | ⟨⟨hopen, hroom⟩, hacc, hpending⟩⟩ :=
    sendPacket_cases C outBufferSize hb pct
  · rw [hclosing, hwritten, hpending, stream, stream, hacc]
    exact ⟨List.prefix_rfl, iff_of_true h fun hopen hroom => absurd ⟨hopen, hroom⟩ hnot⟩
  · have hstream : (st.sendPacket C outBufferSize pct).stream C crypt = st.stream C crypt ++
        ((C.encryptSend (C.packets crypt st.accepted).1 (packetHeader pct).header).2 ++ pct.2) := by
      rw [stream, hacc, stream_append]
    rw [hclosing, hwritten, hpending, hstream, ← h hopen]
    refine ⟨List.prefix_append _ _, ?_⟩
    rw [imp_iff_right hopen, InStep, imp_iff_right hopen, imp_iff_right hroom, ← List.append_assoc,
      List.append_right_inj, List.append_left_inj]

/-- What a call of `handle_output` can lead to: bytes move from the stores to the transport, the
connection is closed with bytes left, or a packet is lost on an open connection. -/
inductive Outcome
  | moved
  | closed
  | lost
  deriving DecidableEq

/-- What the outcomes mean. -/
def Effect (st st' : Output κ) : Outcome → Prop
  | .moved =>
    st'.closing = st.closing ∧ ∃ taken,
      st'.written = st.written ++ taken ∧ st.pending = taken ++ st'.pending
  | .closed =>
    st'.closing = true ∧ ∃ taken left,
      st'.written = st.written ++ taken ∧ st.pending = taken ++ left ∧ left ≠ []
  | .lost =>
    st.closing = false ∧ st'.closing = false ∧ ∃ taken left,
      st'.written = st.written ++ taken ∧ st.pending = taken ++ left ++ st'.pending ∧ left ≠ []

/-- What was written before the call came to the queue. -/
theorem Effect.of_flushed {st st' : Output κ} {o : Outcome}
    (h : Effect { st with written := st.written ++ st.outBuffer, outBuffer := [] } st' o) :
    Effect st st' o := by
  cases o with
  | moved =>
    obtain ⟨hclosing, taken, hwritten, hpending⟩ := h
    refine ⟨hclosing, st.outBuffer ++ taken, ?_, ?_⟩
    · rw [hwritten, List.append_assoc]
    · rw [List.append_assoc, ← hpending]
      rfl
  | closed =>
    obtain ⟨hclosing, taken, left, hwritten, hpending, hleft⟩ := h
    refine ⟨hclosing, st.outBuffer ++ taken, left, ?_, ?_, hleft⟩
    · rw [hwritten, List.append_assoc]
    · rw [List.append_assoc, ← hpending]
      rfl
  | lost =>
    obtain ⟨hopen, hopen', taken, left, hwritten, hpending, hleft⟩ := h
    refine ⟨hopen, hopen', st.outBuffer ++ taken, left, ?_, ?_, hleft⟩
    · rw [hwritten, List.append_assoc]
    · rw [List.append_assoc, List.append_assoc, ← List.append_assoc taken, ← hpending]
      rfl

/-- The call of `handle_output_queue`, once the buffer is empty. -/
theorem handleOutputQueue_effect (hopen : st.closing = false) (hbuffer : st.outBuffer = [])
    (hb : st.Blocks) (r : SendResult) :
    let st' := st.handleOutputQueue r
    st'.Blocks ∧ st'.accepted = st.accepted ∧ ∃ o, Effect st st' o ∧
      (o = .lost ↔ r = .wouldBlock ∧ isFull st.msgQueue.tail = true) ∧
      (o = .moved ↔ (st.msgQueue ≠ [] → r ≠ .sent 0 ∧
        (isFull st.msgQueue.tail = true → r.takes st.headData.length = true))) := by
  obtain ⟨crypt, outBuffer, msgQueue, closing, written, accepted⟩ := st
  subst hopen hbuffer
  cases msgQueue with
  | nil =>
    refine ⟨hb, rfl, .moved, ⟨rfl, [], (List.append_nil _).symm, rfl⟩, ?_, ?_⟩
    · exact iff_of_false nofun fun h => Bool.false_ne_true h.2
    · exact iff_of_true rfl nofun
  | cons mblk queue =>
    have hmblk : mblk.data ≠ [] := hb mblk List.mem_cons_self
    have hqueue : ∀ b ∈ queue, b.data ≠ [] := fun b hbq => hb b (List.mem_cons_of_mem mblk hbq)
    cases r with
    | wouldBlock =>
      unfold handleOutputQueue
      dsimp only
      -- the head cannot be put back, and is lost, if the queue has filled up
      by_cases hfull : isFull queue = true
      · rw [if_pos hfull]
        refine ⟨hqueue, rfl, .lost, ⟨rfl, rfl, [], mblk.data, ?_, ?_, hmblk⟩, ?_, ?_⟩
        · exact (List.append_nil _).symm
        · simp [pending]
        · simp [hfull]
        · simp [SendResult.takes, hfull]
      · rw [if_neg hfull]
        refine ⟨hb, rfl, .moved, ⟨rfl, [], (List.append_nil _).symm, rfl⟩, ?_, ?_⟩
        · simp [hfull]
        · simp [hfull]
    | sent n =>
      unfold handleOutputQueue
      dsimp only
      by_cases hzero : n = 0
      · subst hzero
        refine ⟨hqueue, rfl, .closed, ⟨rfl, [], mblk.data ++ queue.flatMap Block.data, ?_, ?_, ?_⟩,
          ?_, ?_⟩
        · exact (List.append_nil _).symm
        · simp [pending]
        · exact List.append_ne_nil_of_left_ne_nil hmblk _
        · simp
        · simp
      -- a part of the head is sent: the rest has to be put back
      by_cases hpart : n < mblk.data.length
      · have hdrop : mblk.data.drop n ≠ [] := by
          rw [Ne, List.drop_eq_nil_iff]
          omega
        have hnot : ¬ mblk.data.length ≤ n := by omega
        by_cases hfull : isFull queue = true
        · rw [if_neg hzero, if_pos hpart, if_pos hfull]
          refine ⟨hqueue, rfl, .closed,
            ⟨rfl, mblk.data.take n, mblk.data.drop n ++ queue.flatMap Block.data, rfl, ?_, ?_⟩,
            ?_, ?_⟩
          · rw [← List.append_assoc, List.take_append_drop]
            simp [pending]
          · exact List.append_ne_nil_of_left_ne_nil hdrop _
          · simp
          · simp [SendResult.takes, headData, hfull, hnot]
        · rw [if_neg hzero, if_pos hpart, if_neg hfull]
          refine ⟨?_, rfl, .moved, ⟨rfl, mblk.data.take n, rfl, ?_⟩, ?_, ?_⟩
          · intro b hmem
            rcases List.mem_cons.1 hmem with rfl | hmem
            · exact hdrop
            · exact hqueue b hmem
          · simp [pending, ← List.append_assoc]
          · simp
          · simp [hzero, hfull]
      · rw [if_neg hzero, if_neg hpart]
        refine ⟨hqueue, rfl, .moved, ⟨rfl, mblk.data, rfl, ?_⟩, ?_, ?_⟩
        · simp [pending]
        · simp
        · simp [SendResult.takes, headData, hzero, Nat.le_of_not_lt hpart]

/-- A call of `handle_output`: it loses a packet exactly if it is not `Kept`, and nothing but moves
bytes exactly if it is `Served`. -/
theorem handleOutput_effect (C : Cipher κ) (outBufferSize : ℕ) (crypt : κ) (hb : st.Blocks)
    (toBuffer toQueue : SendResult) :
    let st' := st.handleOutput toBuffer toQueue
    st'.Blocks ∧ st'.accepted = st.accepted ∧ ∃ o, Effect st st' o ∧
      (o ≠ .lost ↔ st.Kept C outBufferSize crypt (.output toBuffer toQueue)) ∧
      (st.closing = false →
        (o = .moved ↔ st.Served C outBufferSize crypt (.output toBuffer toQueue))) := by
  unfold handleOutput Kept Served OffersHead
  dsimp only
  by_cases hclosing : st.closing = true
  · rw [if_pos hclosing]
    refine ⟨hb, rfl, .moved, ⟨rfl, [], (List.append_nil _).symm, rfl⟩, ?_, ?_⟩
    · simp [hclosing]
    · simp [hclosing]
  have hopen : st.closing = false := Bool.eq_false_of_not_eq_true hclosing
  rw [if_neg hclosing]
  by_cases hempty : st.outBuffer.length = 0
  · rw [if_pos hempty]
    have hqueue := handleOutputQueue_effect hopen (List.eq_nil_of_length_eq_zero hempty) hb toQueue
    obtain ⟨hb', hstream, o, heffect, hlost, hmoved⟩ := hqueue
    refine ⟨hb', hstream, o, heffect, ?_, fun _ => ?_⟩
    · rw [Ne, hlost]
      simp [hopen, hempty]
    · rw [hmoved]
      simp [hopen, hempty]
  rw [if_neg hempty]
  have hne : st.outBuffer ≠ [] := fun h => hempty (by rw [h]; rfl)
  cases toBuffer with
  | wouldBlock =>
    refine ⟨hb, rfl, .moved, ⟨rfl, [], (List.append_nil _).symm, rfl⟩, ?_, fun _ => ?_⟩
    · simp [hempty, SendResult.takes]
    · simp [hempty, SendResult.takes]
  | sent n =>
    dsimp only
    by_cases hzero : n = 0
    · subst hzero
      rw [if_pos rfl]
      refine ⟨hb, rfl, .closed, ⟨rfl, [], st.pending, (List.append_nil _).symm, rfl, ?_⟩, ?_,
        fun _ => ?_⟩
      · exact List.append_ne_nil_of_left_ne_nil hne _
      · simp [hempty, SendResult.takes]
      · simp [hempty, hopen]
    rw [if_neg hzero]
    by_cases hpart : n < st.outBuffer.length
    · have hnot : ¬ st.outBuffer.length ≤ n := Nat.not_le.2 hpart
      rw [if_pos hpart]
      refine ⟨hb, rfl, .moved, ⟨rfl, st.outBuffer.take n, rfl, ?_⟩, ?_, fun _ => ?_⟩
      · simp [pending, ← List.append_assoc]
      · simp [hempty, SendResult.takes, hnot]
      · simp [hempty, SendResult.takes, hnot, hzero]
    · -- the buffer is sent whole, and the queue follows in the same call
      have hall : st.outBuffer.length ≤ n := Nat.le_of_not_lt hpart
      rw [if_neg hpart]
      have hqueue := @handleOutputQueue_effect _
        { st with written := st.written ++ st.outBuffer, outBuffer := [] } hopen rfl hb toQueue
      obtain ⟨hb', hstream, o, heffect, hlost, hmoved⟩ := hqueue
      refine ⟨hb', hstream, o, heffect.of_flushed, ?_, fun _ => ?_⟩
      · rw [Ne, hlost]
        simp [hopen, SendResult.takes, hall]
      · rw [hmoved]
        simp [hopen, SendResult.takes, hall, hzero, headData]

/-- A call on an open connection keeps the order of the bytes exactly if it loses no packet. -/
theorem Effect.inOrder_iff {st st' : Output κ} {o : Outcome} (heffect : Effect st st' o)
    (hb : st'.Blocks) (hstream : st'.accepted = st.accepted)
    (h : st.written ++ st.pending = st.stream C crypt) : st'.InOrder C crypt ↔ o ≠ .lost := by
  rw [Output.inOrder_iff hb, stream, hstream, ← stream, ← h]
  cases o with
  | moved =>
    obtain ⟨-, taken, hwritten, hpending⟩ := heffect
    refine iff_of_true ⟨⟨st'.pending, ?_⟩, fun _ => ?_⟩ nofun
    all_goals rw [hwritten, hpending, List.append_assoc]
  | closed =>
    obtain ⟨hclosing, taken, left, hwritten, hpending, -⟩ := heffect
    refine iff_of_true ⟨⟨left, ?_⟩, fun hopen' => ?_⟩ nofun
    · rw [hwritten, hpending, List.append_assoc]
    · rw [hclosing] at hopen'
      exact absurd hopen' Bool.true_eq_false_eq_False
  | lost =>
    obtain ⟨-, hopen', taken, left, hwritten, hpending, hleft⟩ := heffect
    refine iff_of_false (fun hin => ?_) fun hne => hne rfl
    have hlen := congrArg List.length (hin.2 hopen')
    have hpos := List.length_pos_of_ne_nil hleft
    rw [hwritten, hpending] at hlen
    simp only [List.length_append] at hlen
    omega

/-- It leaves the connection open with the bytes in order exactly if it only moves bytes. -/
theorem Effect.complete_iff {st st' : Output κ} {o : Outcome} (heffect : Effect st st' o)
    (hopen : st.closing = false) (hb : st'.Blocks) (hstream : st'.accepted = st.accepted)
    (h : st.written ++ st.pending = st.stream C crypt) : st'.Complete C crypt ↔ o = .moved := by
  rw [Complete, stream, hstream, ← stream, ← h]
  cases o with
  | moved =>
    obtain ⟨hclosing, taken, hwritten, hpending⟩ := heffect
    refine iff_of_true ⟨⟨st'.pending, ?_⟩, ?_⟩ rfl
    · rw [hwritten, hpending, List.append_assoc]
    · rw [drain_written (hclosing.trans hopen) hb, hwritten, hpending, List.append_assoc]
  | closed =>
    obtain ⟨hclosing, taken, left, hwritten, hpending, hleft⟩ := heffect
    refine iff_of_false (fun hcomplete => ?_) nofun
    have hlen := congrArg List.length hcomplete.2
    have hpos := List.length_pos_of_ne_nil hleft
    rw [drain_of_closing hclosing, hwritten, hpending] at hlen
    simp only [List.length_append] at hlen
    omega
  | lost =>
    obtain ⟨-, hopen', taken, left, hwritten, hpending, hleft⟩ := heffect
    refine iff_of_false (fun hcomplete => ?_) nofun
    have hlen := congrArg List.length hcomplete.2
    have hpos := List.length_pos_of_ne_nil hleft
    rw [drain_written hopen' hb, hwritten, hpending] at hlen
    simp only [List.length_append] at hlen
    omega

/-! ### Runs -/

theorem blocks_step (C : Cipher κ) (outBufferSize : ℕ) (hb : st.Blocks) (e : Event) :
    (st.step C outBufferSize e).Blocks := by
  cases e with
  | send pct => exact (sendPacket_cases C outBufferSize hb pct).1
  | output toBuffer toQueue =>
    exact (handleOutput_effect C outBufferSize st.crypt hb toBuffer toQueue).1

/-- A step keeps the order of the bytes exactly if it is `Kept`. -/
theorem inOrder_step_iff (outBufferSize : ℕ) (hb : st.Blocks) (h : st.InOrder C crypt) (e : Event) :
    (st.step C outBufferSize e).InOrder C crypt ↔ st.Kept C outBufferSize crypt e := by
  cases e with
  | send pct =>
    obtain ⟨hb', -, hwritten, -⟩ := sendPacket_cases C outBufferSize hb pct
    rw [inOrder_iff hb] at h
    obtain ⟨hpre, hiff⟩ := sendPacket_inStep outBufferSize hb pct h.2
    refine (inOrder_iff hb').trans ((and_iff_right ?_).trans hiff)
    rw [hwritten]
    exact h.1.trans hpre
  | output toBuffer toQueue =>
    by_cases hopen : st.closing = false
    · obtain ⟨hb', hstream, o, heffect, hlost, -⟩ :=
        handleOutput_effect C outBufferSize crypt hb toBuffer toQueue
      have hbytes := ((inOrder_iff hb).1 h).2 hopen
      exact (heffect.inOrder_iff hb' hstream hbytes).trans hlost
    · have hclosing : st.closing = true := Bool.eq_true_of_not_eq_false hopen
      have hsame : st.step C outBufferSize (.output toBuffer toQueue) = st := if_pos hclosing
      rw [hsame]
      exact iff_of_true h fun hoffers => absurd hoffers.1 hopen

/-- A step keeps the connection open and the bytes in order exactly if it is `Served`. -/
theorem complete_step_iff (hb : st.Blocks) (hopen : st.closing = false)
    (h : st.Complete C crypt) (e : Event) :
    ((st.step C outBufferSize e).Complete C crypt ↔ st.Served C outBufferSize crypt e) ∧
      (st.Served C outBufferSize crypt e → (st.step C outBufferSize e).closing = false) := by
  have hbytes : st.written ++ st.pending = st.stream C crypt := by
    rw [← drain_written hopen hb]
    exact h.2
  cases e with
  | send pct =>
    obtain ⟨hb', hclosing, hwritten, -⟩ :=
      sendPacket_cases C outBufferSize hb pct
    obtain ⟨hpre, hiff⟩ :=
      sendPacket_inStep outBufferSize hb pct fun _ => hbytes
    have hopen' := hclosing.trans hopen
    refine ⟨?_, fun _ => hopen'⟩
    rw [imp_iff_right hopen'] at hiff
    refine (and_iff_right ?_).trans (Iff.trans ?_ hiff)
    · rw [step, hwritten]
      exact h.1.trans hpre
    · rw [step, drain_written hopen' hb']
  | output toBuffer toQueue =>
    obtain ⟨hb', hstream, o, heffect, -, hmoved⟩ := handleOutput_effect C outBufferSize crypt hb
      toBuffer toQueue
    have hiff := (heffect.complete_iff hopen hb' hstream hbytes).trans (hmoved hopen)
    refine ⟨hiff, fun hserved => ?_⟩
    obtain rfl := (hmoved hopen).2 hserved
    exact heffect.1.trans hopen

end Output

/-- A stream transformation that changes nothing. -/
def plainCipher : Cipher Unit := ⟨fun k l => (k, l), fun _ _ => rfl⟩

/-- A packet too large for the buffer, one that fills the queue behind it, and a transport that
would block. -/
def fullQueueEvents (p q : List UInt8) : List Event :=
  [.send (0, p), .send (0, q), .output .wouldBlock .wouldBlock]

open Output in
theorem not_inOrder_of_length {p q : List UInt8} (hp : p.length = 65536)
    (hq : q.length = 8388604) :
    ¬ Runs.Along (step plainCipher 65536) (InOrder plainCipher ()) (new ())
      (fullQueueEvents p q) := by
  intro h
  have hnew : (new ()).Blocks := nofun
  have hb := blocks_step plainCipher 65536 (blocks_step plainCipher 65536 hnew (.send (0, p)))
    (.send (0, q))
  have hsent := h [.send (0, p), .send (0, q)] ⟨[.output .wouldBlock .wouldBlock], rfl⟩
  have hlost := h (fullQueueEvents p q) List.prefix_rfl
  have hkept := (inOrder_step_iff 65536 hb hsent (.output .wouldBlock .wouldBlock)).1 hlost
  have hfull := hkept ?_ rfl
  · revert hfull
    simp [step, sendPacket, Fits, new, isFull, packetHeader, ServerPktHeader.getHeaderLength,
      ServerPktHeader.isLargePacket, highWaterMark, plainCipher, hp, hq]
  · simp [OffersHead, step, sendPacket, Fits, new, isFull, packetHeader,
      ServerPktHeader.getHeaderLength, ServerPktHeader.isLargePacket, highWaterMark, plainCipher,
      hp, hq]

end FaceCore.WorldSocket
