import FaceCore.Lib.LittleEndian

/-!
# Receiving packets from a client

`WorldSocket::handle_input_missing_data` with `handle_input_header` and `handle_input_payload`: what
`recv` yields is distributed over the header and the payload of the packet under way, and every
complete packet is passed to `ProcessIncoming`.

* `Input`: the partial header, the packet under way with its partial payload, and a record of the
  packets that were passed on;
* `handleInputMissingData`: one call, for the bytes that one `recv` yields;
* `recvByte`: the same, byte by byte; `missingData_eq_foldl` says that a call for some bytes is
  `recvByte` for one after the other;
* `framing_independent_of_cuts`: two ways to cut a stream lead to the same packets, and the packets
  are the bytes of the stream in order.

The cipher of the headers and `ProcessIncoming`, which sets its key, are parameters. A packet that
`ProcessIncoming` does not accept ends the connection, as an invalid header does.
-/

namespace FaceCore.WorldSocket

/-- `sizeof(ClientPktHeader)`. -/
def clientPktHeaderSize : ℕ := 6

/-- `ClientPktHeader`. -/
structure ClientPktHeader where
  size : ℕ
  cmd : ℕ

/-- The header that six bytes are: a size in network byte order and a command. -/
def ClientPktHeader.ofBytes (bytes : List UInt8) : ClientPktHeader where
  size := (bytes.getD 0 0).toNat * 256 + (bytes.getD 1 0).toNat
  cmd := LittleEndian.ofBytes (bytes.drop 2)

/-- What the reader asks of the rest of the socket, whose state is `σ`. -/
structure Session (σ : Type*) where
  /-- `AuthCrypt::DecryptRecv`. -/
  decryptRecv : σ → List UInt8 → σ × List UInt8
  /-- `ProcessIncoming`, for the opcode and the payload of a packet; `false` is the answer `-1`. -/
  processIncoming : σ → UInt16 → List UInt8 → σ × Bool

/-- A packet as it came: its six header bytes, and what was passed to `ProcessIncoming`. -/
structure Received where
  header : List UInt8
  opcode : UInt16
  payload : List UInt8

/-- The bytes of a packet in the stream. -/
def Received.bytes (p : Received) : List UInt8 := p.header ++ p.payload

/-- The state of the reader. -/
structure Input (σ : Type*) where
  session : σ
  /-- The bytes in `m_Header`. -/
  header : List UInt8
  /-- `m_RecvWPct`: the opcode of the packet under way and the size of its payload. -/
  recvWPct : Option (UInt16 × ℕ)
  /-- The bytes in `m_RecvPct`. -/
  recvPct : List UInt8
  /-- The packets that were passed to `ProcessIncoming`. -/
  received : List Received

/-- The state of the reader of a new socket. -/
def Input.new {σ : Type*} (session : σ) : Input σ := ⟨session, [], none, [], []⟩

/-- How a call ends: `recv` yielded nothing, with `-1` and `EWOULDBLOCK`, with `-1` and `EINVAL`, or
with `1` or `2`. -/
inductive Ret
  | closed
  | wouldBlock
  | invalid
  | done (n : ℕ)
  deriving DecidableEq

section

variable {σ : Type*} (S : Session σ)

/-- `WorldSocket::handle_input_header`. -/
def handleInputHeader (st : Input σ) : Except (Ret × Input σ) (Input σ) :=
  let (session, plain) := S.decryptRecv st.session st.header
  let header := ClientPktHeader.ofBytes plain
  if header.size < 4 ∨ header.size > 10240 ∨ header.cmd > 10240 then
    .error (.invalid, { st with session := session })
  else
    .ok { st with
      session := session
      recvWPct := some (UInt16.ofNat header.cmd, header.size - 4)
      recvPct := [] }

/-- `WorldSocket::handle_input_payload`. -/
def handleInputPayload (st : Input σ) (opcode : UInt16) : Except (Ret × Input σ) (Input σ) :=
  let (session, ok) := S.processIncoming st.session opcode st.recvPct
  let st : Input σ :=
    { session := session
      header := []
      recvWPct := none
      recvPct := []
      received := st.received ++ [⟨st.header, opcode, st.recvPct⟩] }
  if ok then .ok st else .error (.invalid, st)

/-- The part of the loop that receives the header, for the bytes `l` of the message block: the state
and the bytes that are left. -/
def receiveHeader (st : Input σ) (l : List UInt8) : Except (Ret × Input σ) (Input σ × List UInt8) :=
  let space := clientPktHeaderSize - st.header.length
  if space > 0 then
    let toHeader := min l.length space
    let st := { st with header := st.header ++ l.take toHeader }
    if st.header.length < clientPktHeaderSize then .error (.wouldBlock, st)
    else
      match handleInputHeader S st with
      | .error e => .error e
      | .ok st => .ok (st, l.drop toHeader)
  else .ok (st, l)

/-- The part of the loop that receives the payload, of `size` bytes. -/
def receivePayload (st : Input σ) (size : ℕ) (l : List UInt8) :
    Except (Ret × Input σ) (Input σ × List UInt8) :=
  let space := size - st.recvPct.length
  if space > 0 then
    let toData := min l.length space
    let st := { st with recvPct := st.recvPct ++ l.take toData }
    if st.recvPct.length < size then .error (.wouldBlock, st) else .ok (st, l.drop toData)
  else .ok (st, l)

/-- The turn after the header is there. -/
def turnPayload (st : Input σ) (l : List UInt8) : Except (Ret × Input σ) (Input σ × List UInt8) :=
  match st.recvWPct with
  | none => .error (.invalid, st)
  | some (opcode, size) =>
    match receivePayload st size l with
    | .error e => .error e
    | .ok (st, l) =>
      match handleInputPayload S st opcode with
      | .error e => .error e
      | .ok st => .ok (st, l)

/-- One turn of the loop. -/
def turn (st : Input σ) (l : List UInt8) : Except (Ret × Input σ) (Input σ × List UInt8) :=
  match receiveHeader S st l with
  | .error e => .error e
  | .ok (st, l) => turnPayload S st l

/-- The loop over the bytes of the message block, for at most `fuel` turns. -/
def missingData : ℕ → Input σ → List UInt8 → Except (Ret × Input σ) (Input σ)
  | 0, st, _ => .ok st
  | fuel + 1, st, l =>
    if l.isEmpty then .ok st
    else
      match turn S st l with
      | .error e => .error e
      | .ok (st, l) => missingData fuel st l

/-- The size of the buffer for `recv`. -/
def recvSize : ℕ := 4096

/-- `WorldSocket::handle_input_missing_data`, where `recv` yields `chunk`. Every turn but perhaps the
first takes a byte. -/
def handleInputMissingData (st : Input σ) (chunk : List UInt8) : Ret × Input σ :=
  if chunk.isEmpty then (.closed, st)
  else
    match missingData S (chunk.length + 1) st chunk with
    | .error e => e
    | .ok st => (.done (if chunk.length = recvSize then 1 else 2), st)

/-- The answers after which the connection is closed. -/
def Ret.ends : Ret → Bool
  | .closed | .invalid => true
  | .wouldBlock | .done _ => false

/-- `WorldSocket::handle_input`; the flag says that the connection is closed. -/
def handleInput (c : Bool × Input σ) (chunk : List UInt8) : Bool × Input σ :=
  if c.1 then c
  else
    let r := handleInputMissingData S c.2 chunk
    (r.1.ends, r.2)

/-- The reader of a new socket after some chunks. -/
def receive (session : σ) (chunks : List (List UInt8)) : Bool × Input σ :=
  chunks.foldl (handleInput S) (false, Input.new session)

/-- The bytes that the reader took: those of the packets, and those of the packet under way. -/
def Input.taken (st : Input σ) : List UInt8 :=
  (st.received.map Received.bytes).flatten ++ st.header ++ st.recvPct

/-! ### Byte by byte -/

/-- The packet under way is passed on if it is complete. -/
def complete (st : Input σ) : Bool × Input σ :=
  match st.recvWPct with
  | none => (true, st)
  | some (opcode, size) =>
    if st.recvPct.length < size then (false, st)
    else
      match handleInputPayload S st opcode with
      | .error e => (true, e.2)
      | .ok st => (false, st)

/-- The reader after one more byte. -/
def recvByte (c : Bool × Input σ) (x : UInt8) : Bool × Input σ :=
  if c.1 then c
  else if c.2.header.length < clientPktHeaderSize then
    let st := { c.2 with header := c.2.header ++ [x] }
    if st.header.length < clientPktHeaderSize then (false, st)
    else
      match handleInputHeader S st with
      | .error e => (true, e.2)
      | .ok st => complete S st
  else complete S { c.2 with recvPct := c.2.recvPct ++ [x] }

/-- Between two bytes: a part of a header, or a header and a part of its payload. -/
def Input.Valid (st : Input σ) : Prop :=
  st.header.length < clientPktHeaderSize ∧ st.recvPct = [] ∨
    st.header.length = clientPktHeaderSize ∧
      ∃ opcode size, st.recvWPct = some (opcode, size) ∧ st.recvPct.length < size

/-- The flag and the state after a loop. -/
def outcome : Except (Ret × Input σ) (Input σ) → Bool × Input σ
  | .error e => (e.1.ends, e.2)
  | .ok st => (false, st)

variable {S} {st st' : Input σ} {l a : List UInt8} {opcode : UInt16} {size fuel : ℕ}

theorem foldl_recvByte_of_failed (l : List UInt8) (st : Input σ) :
    l.foldl (recvByte S) (true, st) = (true, st) := by
  induction l with
  | nil => rfl
  | cons x l ih => exact ih

/-- Bytes that do not complete the header. -/
theorem foldl_recvByte_header (h : st.header.length + l.length < clientPktHeaderSize) :
    l.foldl (recvByte S) (false, st) = (false, { st with header := st.header ++ l }) := by
  induction l generalizing st with
  | nil => simp
  | cons x l ih =>
    rw [List.length_cons] at h
    have hstep : recvByte S (false, st) x = (false, { st with header := st.header ++ [x] }) := by
      unfold recvByte
      simp only [Bool.false_eq_true, if_false, List.length_append, List.length_singleton]
      rw [if_pos (by omega), if_pos (by omega)]
    rw [List.foldl_cons, hstep, ih]
    · simp
    · simp only [List.length_append, List.length_singleton]
      omega

/-- Bytes that do not complete the payload. -/
theorem foldl_recvByte_payload (hh : st.header.length = clientPktHeaderSize)
    (hw : st.recvWPct = some (opcode, size)) (h : st.recvPct.length + l.length < size) :
    l.foldl (recvByte S) (false, st) = (false, { st with recvPct := st.recvPct ++ l }) := by
  induction l generalizing st with
  | nil => simp
  | cons x l ih =>
    rw [List.length_cons] at h
    have hstep : recvByte S (false, st) x = (false, { st with recvPct := st.recvPct ++ [x] }) := by
      unfold recvByte complete
      simp only [Bool.false_eq_true, if_false, hh, Nat.lt_irrefl, hw, List.length_append,
        List.length_singleton]
      rw [if_pos (by omega)]
    rw [List.foldl_cons, hstep, ih]
    · simp
    · exact hh
    · exact hw
    · simp only [List.length_append, List.length_singleton]
      omega

/-- Bytes that complete the header. -/
theorem foldl_recvByte_header_done (hh : st.header.length < clientPktHeaderSize)
    (h : st.header.length + l.length = clientPktHeaderSize) :
    l.foldl (recvByte S) (false, st) =
      match handleInputHeader S { st with header := st.header ++ l } with
      | .error e => (true, e.2)
      | .ok st => complete S st := by
  rcases List.eq_nil_or_concat l with rfl | ⟨l, x, rfl⟩
  · rw [List.length_nil] at h
    omega
  · rw [List.concat_eq_append, List.length_append, List.length_singleton] at h
    rw [List.concat_eq_append, List.foldl_append, foldl_recvByte_header (by omega), List.foldl_cons,
      List.foldl_nil]
    unfold recvByte
    simp only [Bool.false_eq_true, if_false, List.length_append, List.length_singleton,
      List.append_assoc]
    rw [if_pos (by omega), if_neg (by omega)]

theorem foldl_recvByte_payload_done (hh : st.header.length = clientPktHeaderSize)
    (hw : st.recvWPct = some (opcode, size)) (hp : st.recvPct.length < size)
    (h : st.recvPct.length + l.length = size) :
    l.foldl (recvByte S) (false, st) = complete S { st with recvPct := st.recvPct ++ l } := by
  rcases List.eq_nil_or_concat l with rfl | ⟨l, x, rfl⟩
  · rw [List.length_nil] at h
    omega
  · rw [List.concat_eq_append, List.length_append, List.length_singleton] at h
    rw [List.concat_eq_append, List.foldl_append, foldl_recvByte_payload hh hw (by omega),
      List.foldl_cons, List.foldl_nil]
    unfold recvByte
    simp only [Bool.false_eq_true, if_false, hh, Nat.lt_irrefl, List.append_assoc]

/-! ### The loop -/

/-- The loop after a turn. -/
def afterTurn (S : Session σ) (fuel : ℕ) (r : Except (Ret × Input σ) (Input σ × List UInt8)) :
    Bool × Input σ :=
  match r with
  | .error e => outcome (.error e)
  | .ok (st, l) => outcome (missingData S fuel st l)

theorem outcome_missingData_succ (hl : l ≠ []) :
    outcome (missingData S (fuel + 1) st l) = afterTurn S fuel (turn S st l) := by
  unfold missingData afterTurn
  rw [if_neg (by simpa using hl)]
  cases turn S st l with
  | error e => rfl
  | ok r => rfl

theorem handleInputPayload_ok (h : handleInputPayload S st opcode = .ok st') : st'.Valid := by
  unfold handleInputPayload at h
  dsimp only at h
  split_ifs at h
  obtain rfl := Except.ok.inj h
  exact Or.inl ⟨Nat.succ_pos 5, rfl⟩

theorem handleInputPayload_error {e : Ret × Input σ} (h : handleInputPayload S st opcode = .error e) :
    e.1 = .invalid := by
  unfold handleInputPayload at h
  dsimp only at h
  split_ifs at h
  obtain rfl := Except.error.inj h
  rfl

theorem handleInputHeader_error {e : Ret × Input σ} (h : handleInputHeader S st = .error e) :
    e.1 = .invalid := by
  unfold handleInputHeader at h
  dsimp only at h
  split_ifs at h
  obtain rfl := Except.error.inj h
  rfl

theorem handleInputHeader_ok (h : handleInputHeader S st = .ok st') :
    st'.header = st.header ∧ st'.recvPct = [] ∧ ∃ opcode size, st'.recvWPct = some (opcode, size) := by
  unfold handleInputHeader at h
  dsimp only at h
  split_ifs at h
  obtain rfl := Except.ok.inj h
  exact ⟨rfl, rfl, _, _, rfl⟩

/-- The turn after the header, and the turns after it, when they go byte by byte. -/
theorem afterTurn_turnPayload (hh : st.header.length = clientPktHeaderSize)
    (hw : st.recvWPct = some (opcode, size)) (hp : st.recvPct.length ≤ size)
    (ih : ∀ st' l', st'.Valid → l'.length + (size - st.recvPct.length) = l.length →
      outcome (missingData S fuel st' l') = l'.foldl (recvByte S) (false, st')) :
    afterTurn S fuel (turnPayload S st l) = l.foldl (recvByte S) (complete S st) := by
  obtain ⟨session, header, recvWPct, recvPct, received⟩ := st
  dsimp only at hh hw hp ih
  subst hw
  -- what happens when the payload is complete
  have hdone : ∀ (st₁ : Input σ) (b : List UInt8), st₁.recvWPct = some (opcode, size) →
      ¬st₁.recvPct.length < size → b.length + (size - recvPct.length) = l.length →
      afterTurn S fuel (match handleInputPayload S st₁ opcode with
        | .error e => .error e
        | .ok st₂ => .ok (st₂, b)) = b.foldl (recvByte S) (complete S st₁) := by
    intro st₁ b hw₁ hfull hb
    unfold complete
    simp only [hw₁, if_neg hfull]
    cases hpay : handleInputPayload S st₁ opcode with
    | error e =>
      simp only [foldl_recvByte_of_failed, afterTurn, outcome, handleInputPayload_error hpay]
      rfl
    | ok st₂ => exact ih st₂ b (handleInputPayload_ok hpay) hb
  unfold turnPayload receivePayload
  dsimp only
  by_cases hspace : size - recvPct.length > 0
  · rw [if_pos hspace]
    have hstart : complete S ⟨session, header, some (opcode, size), recvPct, received⟩ =
        (false, ⟨session, header, some (opcode, size), recvPct, received⟩) := by
      unfold complete
      dsimp only
      rw [if_pos (by omega)]
    by_cases hless : l.length < size - recvPct.length
    · have htake : l.take (min l.length (size - recvPct.length)) = l :=
        List.take_of_length_le (by omega)
      simp only [htake, List.length_append]
      rw [if_pos (by omega), hstart, foldl_recvByte_payload hh rfl (by dsimp only; omega)]
      rfl
    · have hmin : min l.length (size - recvPct.length) = size - recvPct.length :=
        min_eq_right (not_lt.1 hless)
      have htake : (l.take (size - recvPct.length)).length = size - recvPct.length :=
        List.length_take_of_le (not_lt.1 hless)
      simp only [hmin, List.length_append, htake]
      rw [if_neg (by omega), hstart]
      dsimp only
      rw [hdone _ _ rfl]
      · conv_rhs => rw [← List.take_append_drop (size - recvPct.length) l, List.foldl_append]
        rw [foldl_recvByte_payload_done hh rfl (by dsimp only; omega) (by dsimp only; omega)]
      · simp only [List.length_append, htake]
        omega
      · rw [List.length_drop]
        omega
  · rw [if_neg hspace]
    exact hdone _ l rfl (by dsimp only; omega) (by omega)

/-- The loop takes its bytes one by one. -/
theorem missingData_eq_foldl (h : st.Valid) (hfuel : l.length < fuel) :
    outcome (missingData S fuel st l) = l.foldl (recvByte S) (false, st) := by
  induction fuel generalizing st l with
  | zero => exact absurd hfuel (Nat.not_lt_zero _)
  | succ fuel ih =>
    by_cases hl : l = []
    · subst hl
      rfl
    have hpos := List.length_pos_iff.2 hl
    rw [outcome_missingData_succ hl]
    unfold turn receiveHeader
    rcases h with ⟨hheader, _⟩ | ⟨hheader, opcode, size, hw, hp⟩
    · have hspace : clientPktHeaderSize - st.header.length > 0 := by omega
      dsimp only
      rw [if_pos hspace]
      by_cases hless : l.length < clientPktHeaderSize - st.header.length
      · have htake : l.take (min l.length (clientPktHeaderSize - st.header.length)) = l :=
          List.take_of_length_le (by omega)
        simp only [htake, List.length_append]
        rw [if_pos (by omega), foldl_recvByte_header (by omega)]
        rfl
      · have hmin : min l.length (clientPktHeaderSize - st.header.length) =
            clientPktHeaderSize - st.header.length := min_eq_right (not_lt.1 hless)
        have htake : (l.take (clientPktHeaderSize - st.header.length)).length =
            clientPktHeaderSize - st.header.length := List.length_take_of_le (not_lt.1 hless)
        simp only [hmin, List.length_append, htake]
        rw [if_neg (by omega)]
        conv_rhs =>
          rw [← List.take_append_drop (clientPktHeaderSize - st.header.length) l,
            List.foldl_append]
        rw [foldl_recvByte_header_done hheader (by omega)]
        cases hhead : handleInputHeader S
            { st with
              header := st.header ++ l.take (clientPktHeaderSize - st.header.length) } with
        | error e =>
          simp only [foldl_recvByte_of_failed, afterTurn, outcome, handleInputHeader_error hhead]
          rfl
        | ok st₁ =>
          obtain ⟨hh₁, hp₁, opcode, size, hw₁⟩ := handleInputHeader_ok hhead
          refine afterTurn_turnPayload ?_ hw₁ ?_ fun st' l' hst' hl' => ih hst' ?_
          · rw [hh₁, List.length_append, htake]
            omega
          · rw [hp₁]
            exact Nat.zero_le _
          · rw [List.length_drop] at hl'
            omega
    · dsimp only
      rw [hheader, if_neg (by omega)]
      have hcomplete : complete S st = (false, st) := by
        unfold complete
        simp only [hw, if_pos hp]
      rw [← hcomplete]
      exact afterTurn_turnPayload hheader hw hp.le fun st' l' hst' hl' => ih hst' (by omega)

/-! ### Any cuts -/

theorem valid_new (session : σ) : (Input.new session).Valid := Or.inl ⟨Nat.succ_pos 5, rfl⟩

theorem taken_handleInputPayload : (∃ e, handleInputPayload S st opcode = .error e ∧
    e.2.taken = st.taken) ∨ ∃ st', handleInputPayload S st opcode = .ok st' ∧ st'.taken = st.taken := by
  unfold handleInputPayload Input.taken
  dsimp only
  split_ifs
  · refine Or.inr ⟨_, rfl, ?_⟩
    simp [Received.bytes]
  · refine Or.inl ⟨_, rfl, ?_⟩
    simp [Received.bytes]

theorem taken_complete : (complete S st).2.taken = st.taken := by
  unfold complete
  cases st.recvWPct with
  | none => rfl
  | some p =>
    dsimp only
    split_ifs
    · rfl
    · rcases @taken_handleInputPayload _ S st p.1 with
        ⟨e, he, htaken⟩ | ⟨st', he, htaken⟩
      · rw [he]
        exact htaken
      · rw [he]
        exact htaken

theorem valid_complete (hh : st.header.length = clientPktHeaderSize)
    (hopen : (complete S st).1 = false) : (complete S st).2.Valid := by
  unfold complete at hopen ⊢
  cases hw : st.recvWPct with
  | none =>
    rw [hw] at hopen
    cases hopen
  | some p =>
    simp only [hw] at hopen ⊢
    split_ifs with hp
    · exact Or.inr ⟨hh, p.1, p.2, hw, hp⟩
    · cases hpay : handleInputPayload S st p.1 with
      | error e =>
        rw [if_neg hp, hpay] at hopen
        cases hopen
      | ok st' => exact handleInputPayload_ok hpay

/-- A byte is taken, and the reader stays between two bytes. -/
theorem recvByte_spec (h : st.Valid) (x : UInt8) :
    (recvByte S (false, st) x).2.taken = st.taken ++ [x] ∧
      ((recvByte S (false, st) x).1 = false → (recvByte S (false, st) x).2.Valid) := by
  unfold recvByte
  rcases h with ⟨hheader, hp⟩ | ⟨hheader, opcode, size, hw, hp⟩
  · simp only [Bool.false_eq_true, if_false, if_pos hheader]
    have htaken : ({ st with header := st.header ++ [x] } : Input σ).taken = st.taken ++ [x] := by
      simp [Input.taken, hp]
    by_cases hmore : (st.header ++ [x]).length < clientPktHeaderSize
    · rw [if_pos hmore]
      exact ⟨htaken, fun _ => Or.inl ⟨hmore, hp⟩⟩
    · rw [if_neg hmore]
      have hfull : (st.header ++ [x]).length = clientPktHeaderSize := by
        rw [List.length_append, List.length_singleton] at hmore ⊢
        omega
      cases hhead : handleInputHeader S { st with header := st.header ++ [x] } with
      | error e =>
        refine ⟨?_, nofun⟩
        unfold handleInputHeader at hhead
        dsimp only at hhead
        split_ifs at hhead
        obtain rfl := Except.error.inj hhead
        exact htaken
      | ok st₁ =>
        obtain ⟨hh₁, hp₁, _⟩ := handleInputHeader_ok hhead
        have htaken₁ : st₁.taken = st.taken ++ [x] := by
          unfold handleInputHeader at hhead
          dsimp only at hhead
          split_ifs at hhead
          obtain rfl := Except.ok.inj hhead
          simp [Input.taken, hp]
        exact ⟨taken_complete.trans htaken₁, valid_complete (hh₁ ▸ hfull)⟩
  · simp only [Bool.false_eq_true, if_false, hheader, Nat.lt_irrefl]
    refine ⟨?_, valid_complete hheader⟩
    rw [taken_complete]
    simp [Input.taken]

/-- What a stream of bytes leaves: the bytes taken are its first ones, all of them unless the
connection is closed. -/
theorem foldl_recvByte_spec (h : st.Valid) (l : List UInt8) :
    (l.foldl (recvByte S) (false, st)).2.taken <+: st.taken ++ l ∧
      ((l.foldl (recvByte S) (false, st)).1 = false →
        (l.foldl (recvByte S) (false, st)).2.taken = st.taken ++ l ∧
          (l.foldl (recvByte S) (false, st)).2.Valid) := by
  induction l generalizing st with
  | nil =>
    rw [List.append_nil]
    exact ⟨List.prefix_refl _, fun _ => ⟨rfl, h⟩⟩
  | cons x l ih =>
    obtain ⟨htaken, hvalid⟩ := recvByte_spec (S := S) h x
    have happend : st.taken ++ x :: l = (st.taken ++ [x]) ++ l := by simp
    rw [List.foldl_cons]
    cases hc : recvByte S (false, st) x with
    | mk failed st₁ =>
      rw [hc] at htaken hvalid
      dsimp only at htaken hvalid
      cases failed with
      | true =>
        rw [foldl_recvByte_of_failed, happend, ← htaken]
        exact ⟨List.prefix_append _ _, nofun⟩
      | false =>
        rw [happend, ← htaken]
        exact ih (hvalid rfl)

/-- A call takes the bytes of its chunk one by one. -/
theorem handleInput_eq_foldl {c : Bool × Input σ} (h : c.1 = false → c.2.Valid) (hl : l ≠ []) :
    handleInput S c l = l.foldl (recvByte S) c := by
  obtain ⟨failed, st⟩ := c
  unfold handleInput
  cases failed with
  | true => exact (foldl_recvByte_of_failed l st).symm
  | false =>
    rw [← missingData_eq_foldl (h rfl) (Nat.lt_succ_self l.length)]
    simp only [Bool.false_eq_true, if_false, handleInputMissingData]
    rw [if_neg (by simpa using hl)]
    cases missingData S (l.length + 1) st l <;> rfl

/-- The chunks of a stream are taken as its bytes are. -/
theorem foldl_handleInput {c : Bool × Input σ} {chunks : List (List UInt8)}
    (h : c.1 = false → c.2.Valid) (hne : ∀ l ∈ chunks, l ≠ []) :
    chunks.foldl (handleInput S) c = chunks.flatten.foldl (recvByte S) c := by
  induction chunks generalizing c with
  | nil => rfl
  | cons l chunks ih =>
    rw [List.foldl_cons, List.flatten_cons, List.foldl_append,
      handleInput_eq_foldl h (hne l List.mem_cons_self)]
    refine ih (fun hopen => ?_) fun l' hl' => hne l' (List.mem_cons_of_mem l hl')
    obtain ⟨failed, st⟩ := c
    cases failed with
    | true =>
      rw [foldl_recvByte_of_failed] at hopen
      cases hopen
    | false => exact ((foldl_recvByte_spec (h rfl) l).2 hopen).2

/-- **Main result.** However a stream is cut into chunks, the reader ends in the same state: the same
packets were passed on, and an invalid header was met after the same bytes. The packets are the bytes
of the stream, in order and without gap. -/
theorem framing_independent_of_cuts (S : Session σ) (session : σ) (chunks chunks' : List (List UInt8))
    (h : ∀ l ∈ chunks, l ≠ []) (h' : ∀ l ∈ chunks', l ≠ [])
    (hflat : chunks.flatten = chunks'.flatten) :
    receive S session chunks = receive S session chunks' ∧
      (receive S session chunks).2.taken <+: chunks.flatten ∧
      ((receive S session chunks).1 = false →
        (receive S session chunks).2.taken = chunks.flatten) := by
  have hvalid : (false, Input.new session).1 = false → (false, Input.new session).2.Valid :=
    fun _ => valid_new session
  have hspec := foldl_recvByte_spec (S := S) (valid_new session) chunks.flatten
  unfold receive
  rw [foldl_handleInput hvalid h, foldl_handleInput hvalid h', hflat]
  rw [hflat] at hspec
  exact ⟨rfl, hspec.1, fun hopen => (hspec.2 hopen).1⟩

end

/-- A socket without cipher that accepts every packet. -/
def plainSession : Session Unit where
  decryptRecv _ header := ((), header)
  processIncoming _ _ _ := ((), true)

/-- A packet without payload and one with two bytes, in one chunk and cut in the middle of a header
and of a payload. -/
theorem framing_independent_of_cuts_two :
    receive plainSession () [[0, 4, 1, 0, 0, 0, 0, 6, 2, 0, 0, 0, 7, 8]] =
      receive plainSession () [[0, 4, 1], [0, 0, 0, 0], [6, 2, 0, 0, 0, 7], [8]] :=
  (framing_independent_of_cuts plainSession () _ _ (by decide) (by decide) (by decide)).1

example : (receive plainSession () [[0, 4, 1], [0, 0, 0, 0], [6, 2, 0, 0, 0, 7], [8]]).2.received.map
    (fun p => (p.opcode, p.payload)) = [(1, []), (2, [7, 8])] := by
  decide

end FaceCore.WorldSocket
