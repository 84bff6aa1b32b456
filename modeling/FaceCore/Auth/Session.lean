import FaceCore.Auth.AuthSocket
import FaceCore.Lib.Runs

/-!
# Who is logged on

Every handler of `AuthSocket` can be reached at any time, and nothing resets `_authed`. This module
runs arbitrary sequences of packets and keeps, beside the socket, what being logged on
rests on: the last challenge that was processed, and the proof that was accepted last.

* `Challenge`, `Proof`: the record of a challenge, made from the packet and the database alone, and
  that of an accepted proof, with the values it was checked against;
* `Authentic`: a socket that is logged on was so by a proof for its last challenge;
* `Orderly`: the packets of a client that keeps to the protocol;
* `authentic_iff_orderly`: the two are the same thing along every run.
-/

namespace FaceCore.AuthSession

open BigNumber Srp6

/-- The two ways to log on. -/
inductive Kind
  | logon
  | reconnect
  deriving DecidableEq

/-- A challenge that was processed: for whom, with what success, and the secrets of the account. -/
structure Challenge where
  kind : Kind
  login : List UInt8
  success : Bool
  /-- The salt and the verifier of the account, for a logon. -/
  s : ℕ
  v : ℕ
  /-- The session key of the account, if it has one, for a reconnect. -/
  key : Option ℕ

/-- A proof that was accepted: after how many challenges, and against which values. -/
structure Proof where
  kind : Kind
  challenges : ℕ
  login : List UInt8
  s : ℕ
  v : ℕ
  K : ℕ

/-- A socket with the record of its last challenge and of its last accepted proof. -/
structure Session where
  sock : AuthSocket
  challenges : ℕ
  last : Option Challenge
  proof : Option Proof

/-- A packet that is dispatched to its handler, and what comes from outside. -/
structure Packet where
  cmd : AuthCmd
  pkt : List UInt8
  env : Env

variable (sha : Sha1)

/-- The record of a logon challenge. It is answered with success if the address is not banned, and
there is an account that is neither locked nor banned, and the client is of an accepted build. -/
def logonRecord (env : Env) (pkt : List UInt8) : Challenge :=
  match env.account (challengeLogin pkt) with
  | none => ⟨.logon, challengeLogin pkt, false, 0, 0, none⟩
  | some row =>
    { kind := .logon
      login := challengeLogin pkt
      success := !env.ipBanned && (lockError env row).isNone && (env.accountBanned row.id).isNone &&
        isAcceptedClientBuild (challengeBuild pkt) && (challengeOs pkt).length ≤ 4
      s := (saltVerifier sha env row).1
      v := (saltVerifier sha env row).2
      key := none }

/-- The record of a reconnect challenge. It is answered with success if there is an account. -/
def reconnectRecord (env : Env) (pkt : List UInt8) : Challenge :=
  match env.sessionKey (challengeLogin pkt) with
  | none => ⟨.reconnect, challengeLogin pkt, false, 0, 0, none⟩
  | some (key, _) =>
    { kind := .reconnect
      login := challengeLogin pkt
      success := (challengeOs pkt).length ≤ 4
      s := 0
      v := 0
      key := if key = [] then none else some (setHexStr 0 key) }

/-- The proof that a socket accepts. -/
def proofRecord (kind : Kind) (challenges : ℕ) (st : AuthSocket) : Proof :=
  ⟨kind, challenges, st.login, st.s, st.v, st.K⟩

/-- One packet. -/
def sessionStep (ss : Session) (p : Packet) : Session :=
  let sock := (handlePacket sha p.env ss.sock p.cmd p.pkt).sock
  match p.cmd with
  | .logonChallenge => ⟨sock, ss.challenges + 1, some (logonRecord sha p.env p.pkt), ss.proof⟩
  | .reconnectChallenge => ⟨sock, ss.challenges + 1, some (reconnectRecord p.env p.pkt), ss.proof⟩
  | .logonProof =>
    if acceptsLogonProof sha p.env ss.sock p.pkt then
      ⟨sock, ss.challenges, ss.last, some (proofRecord .logon ss.challenges ss.sock)⟩
    else { ss with sock := sock }
  | .reconnectProof =>
    if acceptsReconnectProof sha ss.sock p.pkt then
      ⟨sock, ss.challenges, ss.last, some (proofRecord .reconnect ss.challenges ss.sock)⟩
    else { ss with sock := sock }
  | _ => { ss with sock := sock }

/-- A connection that was just accepted. -/
def Session.new (build : ℕ) (expversion : UInt8) : Session :=
  ⟨AuthSocket.new build expversion, 0, none, none⟩

/-- The proof `p` belongs to the challenge `c`: the login and the secrets it was checked against are
those of the account of the challenge. -/
structure ProofFor (c : Challenge) (p : Proof) : Prop where
  kind : p.kind = c.kind
  login : p.login = c.login
  secrets : c.kind = .logon → p.s = c.s ∧ p.v = c.v
  key : c.kind = .reconnect → c.key = some p.K

/-- A socket that is logged on was so by a proof for its last challenge, which was for its login and
successful. -/
def Authentic (ss : Session) : Prop :=
  ss.sock.authed = true → ∃ c p, ss.last = some c ∧ ss.proof = some p ∧ c.success = true ∧
    c.login = ss.sock.login ∧ p.challenges = ss.challenges ∧ ProofFor c p

/-- The packets of a client that keeps to the protocol: no challenge once it is logged on; an
accepted logon proof comes after a successful logon challenge and no later challenge; an accepted
reconnect proof comes after a successful reconnect challenge and no later one, for an account that
has a session key, and the key that it is checked against is still that one. -/
def Orderly (ss : Session) (p : Packet) : Prop :=
  match p.cmd with
  | .logonChallenge => ss.sock.authed = false
  | .reconnectChallenge => ss.sock.authed = false
  | .logonProof => acceptsLogonProof sha p.env ss.sock p.pkt = true →
      ∃ c, ss.last = some c ∧ c.kind = .logon ∧ c.success = true
  | .reconnectProof => acceptsReconnectProof sha ss.sock p.pkt = true →
      ∃ c, ss.last = some c ∧ c.kind = .reconnect ∧ c.success = true ∧ c.key = some ss.sock.K
  | _ => True

/-! ### What the handlers change -/

section Handlers

variable {sha} {env : Env} {st : AuthSocket} {pkt : List UInt8}

theorem handleLogonChallenge_authed :
    (handleLogonChallenge sha env st pkt).sock.authed = st.authed := by
  unfold handleLogonChallenge acceptChallenge
  dsimp only
  repeat' split
  all_goals rfl

theorem handleLogonChallenge_login :
    (handleLogonChallenge sha env st pkt).sock.login = challengeLogin pkt := by
  unfold handleLogonChallenge acceptChallenge
  dsimp only
  repeat' split
  all_goals rfl

/-- A successful logon challenge reaches `acceptChallenge`. -/
theorem handleLogonChallenge_success (h : (logonRecord sha env pkt).success = true)
    {row : AccountRow} (hrow : env.account (challengeLogin pkt) = some row) :
    isAcceptedClientBuild (challengeBuild pkt) = true ∧
      handleLogonChallenge sha env st pkt = acceptChallenge sha env
        { st with
          login := challengeLogin pkt
          build := challengeBuild pkt
          expversion := expversionOf (challengeBuild pkt)
          os := (challengeOs pkt).reverse } pkt row := by
  unfold logonRecord at h
  simp only [hrow, Bool.and_eq_true, Bool.not_eq_true', Option.isNone_iff_eq_none,
    decide_eq_true_eq] at h
  obtain ⟨⟨⟨⟨hip, hlock⟩, hban⟩, hbuild⟩, hos⟩ := h
  have hos' : ¬(challengeOs pkt).length > 4 := by omega
  exact ⟨hbuild, by simp [handleLogonChallenge, hrow, hip, hlock, hban, hos']⟩

theorem handleLogonChallenge_secrets (h : (logonRecord sha env pkt).success = true) :
    (handleLogonChallenge sha env st pkt).sock.s = (logonRecord sha env pkt).s ∧
      (handleLogonChallenge sha env st pkt).sock.v = (logonRecord sha env pkt).v := by
  rcases hrow : env.account (challengeLogin pkt) with _ | row
  · simp [logonRecord, hrow] at h
  rw [(handleLogonChallenge_success h hrow).2]
  simp [logonRecord, hrow, acceptChallenge]

theorem handleReconnectChallenge_authed :
    (handleReconnectChallenge env st pkt).sock.authed = st.authed := by
  unfold handleReconnectChallenge
  dsimp only
  repeat' split
  all_goals rfl

theorem handleReconnectChallenge_login :
    (handleReconnectChallenge env st pkt).sock.login = challengeLogin pkt := by
  unfold handleReconnectChallenge
  dsimp only
  repeat' split
  all_goals rfl

/-- A logon proof changes the session key, and it logs the socket on exactly when it is accepted. -/
theorem handleLogonProof_sock :
    ∃ K, (handleLogonProof sha env st pkt).sock =
      { st with K := K, authed := st.authed || acceptsLogonProof sha env st pkt } := by
  unfold handleLogonProof acceptsLogonProof
  by_cases h0 : st.expversion = 0
  · exact ⟨st.K, by rw [if_pos h0]; simp [h0]; simp [← h0]⟩
  by_cases hA : safeguard (proofA pkt) = true
  · exact ⟨st.K, by simp [h0, hA]⟩
  refine ⟨logonK sha st (proofA pkt), ?_⟩
  simp only [if_neg h0, if_neg hA]
  split_ifs with hM <;> simp [h0, hA, hM]

theorem handleReconnectProof_sock :
    (handleReconnectProof sha st pkt).sock =
      { st with authed := st.authed || acceptsReconnectProof sha st pkt } := by
  unfold handleReconnectProof
  split_ifs with hc ha
  · rw [Bool.not_eq_true'] at hc
    simp [acceptsReconnectProof, hc]
  · simp [ha]
  · simp [ha]

theorem handleRealmList_sock : (handleRealmList env st).sock = st := by
  unfold handleRealmList
  split <;> rfl

end Handlers

/-! ### One packet -/

/-- What holds of every session, orderly or not: after a successful challenge the login, and for a
logon the salt and the verifier, are those of the challenge. -/
def Linked (ss : Session) : Prop :=
  ∀ c, ss.last = some c → c.success = true → c.login = ss.sock.login ∧
    (c.kind = .logon → ss.sock.s = c.s ∧ ss.sock.v = c.v)

variable {sha} {ss : Session} {p : Packet}

theorem logonRecord_login (env : Env) (pkt : List UInt8) :
    (logonRecord sha env pkt).login = challengeLogin pkt := by
  unfold logonRecord
  split <;> rfl

theorem reconnectRecord_kind (env : Env) (pkt : List UInt8) :
    (reconnectRecord env pkt).kind = .reconnect ∧
      (reconnectRecord env pkt).login = challengeLogin pkt := by
  unfold reconnectRecord
  split <;> exact ⟨rfl, rfl⟩

/-- The step lemma of the commands that are neither a challenge nor an accepted proof: they leave
what the records speak of. -/
theorem linked_of_eq {sock : AuthSocket} (h : Linked ss) (hl : sock.login = ss.sock.login)
    (hs : sock.s = ss.sock.s) (hv : sock.v = ss.sock.v) : Linked { ss with sock := sock } := by
  intro c hc hsucc
  obtain ⟨hlogin, hsec⟩ := h c hc hsucc
  exact ⟨hlogin.trans hl.symm, fun hk => ⟨hs.trans (hsec hk).1, hv.trans (hsec hk).2⟩⟩

theorem authentic_of_eq {sock : AuthSocket} (h : Authentic ss) (hl : sock.login = ss.sock.login)
    (ha : sock.authed = ss.sock.authed) : Authentic { ss with sock := sock } := by
  intro hauth
  obtain ⟨c, p, hc, hp, hsucc, hlogin, hn, hfor⟩ := h (ha ▸ hauth)
  exact ⟨c, p, hc, hp, hsucc, hlogin.trans hl.symm, hn, hfor⟩

theorem linked_sessionStep (h : Linked ss) (p : Packet) : Linked (sessionStep sha ss p) := by
  obtain ⟨cmd, pkt, env⟩ := p
  cases cmd with
  | logonChallenge =>
    intro c hc hsucc
    obtain rfl : logonRecord sha env pkt = c := Option.some.inj hc
    refine ⟨(logonRecord_login env pkt).trans handleLogonChallenge_login.symm, fun _ => ?_⟩
    exact handleLogonChallenge_secrets hsucc
  | reconnectChallenge =>
    intro c hc hsucc
    obtain rfl : reconnectRecord env pkt = c := Option.some.inj hc
    obtain ⟨hkind, hlogin⟩ := reconnectRecord_kind env pkt
    refine ⟨hlogin.trans handleReconnectChallenge_login.symm, fun hk => ?_⟩
    rw [hkind] at hk
    cases hk
  | logonProof =>
    obtain ⟨K, hsock⟩ := @handleLogonProof_sock sha env ss.sock pkt
    have := @linked_of_eq ss (handleLogonProof sha env ss.sock pkt).sock h (by rw [hsock])
      (by rw [hsock]) (by rw [hsock])
    simp only [sessionStep]
    split_ifs
    · exact this
    · exact this
  | reconnectProof =>
    have hsock := @handleReconnectProof_sock sha ss.sock pkt
    have := @linked_of_eq ss (handleReconnectProof sha ss.sock pkt).sock h (by rw [hsock])
      (by rw [hsock]) (by rw [hsock])
    simp only [sessionStep]
    split_ifs
    · exact this
    · exact this
  | realmList =>
    have hsock := @handleRealmList_sock env ss.sock
    exact linked_of_eq h (congrArg _ hsock) (congrArg _ hsock) (congrArg _ hsock)
  | xferAccept => exact h
  | xferResume => exact h
  | xferCancel => exact h

/-- A challenge leaves the session authentic exactly when it is not logged on: the proof that
logged it on came before the challenge. -/
theorem authentic_challenge_iff (h : Authentic ss) {sock : AuthSocket} {c : Challenge}
    (ha : sock.authed = ss.sock.authed) :
    Authentic ⟨sock, ss.challenges + 1, some c, ss.proof⟩ ↔ ss.sock.authed = false := by
  constructor
  · intro hnew
    by_contra hauth
    rw [Bool.not_eq_false] at hauth
    obtain ⟨-, p, -, hp, -, -, hn, -⟩ := hnew (ha.trans hauth)
    obtain ⟨-, p', -, hp', -, -, hn', -⟩ := h hauth
    obtain rfl : p = p' := Option.some.inj (hp.symm.trans hp')
    dsimp only at hn
    omega
  · intro hauth htrue
    rw [← ha, show sock.authed = true from htrue] at hauth
    cases hauth

theorem authentic_accepted_iff {sock : AuthSocket} {kind : Kind} (ha : sock.authed = true)
    (hl : sock.login = ss.sock.login) :
    Authentic ⟨sock, ss.challenges, ss.last, some (proofRecord kind ss.challenges ss.sock)⟩ ↔
      ∃ c, ss.last = some c ∧ c.success = true ∧ c.login = ss.sock.login ∧
        ProofFor c (proofRecord kind ss.challenges ss.sock) := by
  constructor
  · intro h
    obtain ⟨c, p, hc, hp, hsucc, hlogin, -, hfor⟩ := h ha
    obtain rfl := Option.some.inj hp
    exact ⟨c, hc, hsucc, hlogin.trans hl, hfor⟩
  · rintro ⟨c, hc, hsucc, hlogin, hfor⟩ -
    exact ⟨c, _, hc, rfl, hsucc, hlogin.trans hl.symm, rfl, hfor⟩

/-- The proof of a socket is one for a logon challenge that was successful. -/
theorem proofFor_logon_iff (h : Linked ss) {c : Challenge} (hc : ss.last = some c)
    (hsucc : c.success = true) :
    ProofFor c (proofRecord .logon ss.challenges ss.sock) ↔ c.kind = .logon := by
  obtain ⟨hlogin, hsec⟩ := h c hc hsucc
  constructor
  · intro hfor
    exact hfor.kind.symm
  · intro hk
    exact ⟨hk.symm, hlogin.symm, hsec, fun hk' => absurd (hk.symm.trans hk') (by decide)⟩

theorem proofFor_reconnect_iff (h : Linked ss) {c : Challenge} (hc : ss.last = some c)
    (hsucc : c.success = true) :
    ProofFor c (proofRecord .reconnect ss.challenges ss.sock) ↔
      c.kind = .reconnect ∧ c.key = some ss.sock.K := by
  obtain ⟨hlogin, -⟩ := h c hc hsucc
  constructor
  · intro hfor
    exact ⟨hfor.kind.symm, hfor.key hfor.kind.symm⟩
  · rintro ⟨hk, hkey⟩
    exact ⟨hk.symm, hlogin.symm, fun hk' => absurd (hk.symm.trans hk') (by decide), fun _ => hkey⟩

theorem authentic_sessionStep_iff (hlink : Linked ss) (h : Authentic ss) (p : Packet) :
    Authentic (sessionStep sha ss p) ↔ Orderly sha ss p := by
  obtain ⟨cmd, pkt, env⟩ := p
  cases cmd with
  | logonChallenge => exact authentic_challenge_iff h handleLogonChallenge_authed
  | reconnectChallenge => exact authentic_challenge_iff h handleReconnectChallenge_authed
  | logonProof =>
    obtain ⟨K, hsock⟩ := @handleLogonProof_sock sha env ss.sock pkt
    simp only [sessionStep, Orderly, handlePacket]
    split_ifs with hacc
    · rw [authentic_accepted_iff (by rw [hsock, hacc, Bool.or_true]) (by rw [hsock])]
      constructor
      · rintro ⟨c, hc, hsucc, -, hfor⟩ -
        exact ⟨c, hc, (proofFor_logon_iff hlink hc hsucc).1 hfor, hsucc⟩
      · intro hord
        obtain ⟨c, hc, hk, hsucc⟩ := hord hacc
        exact ⟨c, hc, hsucc, (hlink c hc hsucc).1, (proofFor_logon_iff hlink hc hsucc).2 hk⟩
    · refine iff_of_true (authentic_of_eq h (by rw [hsock]) ?_) fun hacc' => absurd hacc' hacc
      rw [Bool.not_eq_true] at hacc
      rw [hsock, hacc, Bool.or_false]
  | reconnectProof =>
    have hsock := @handleReconnectProof_sock sha ss.sock pkt
    simp only [sessionStep, Orderly, handlePacket]
    split_ifs with hacc
    · rw [authentic_accepted_iff (by rw [hsock, hacc, Bool.or_true]) (by rw [hsock])]
      constructor
      · rintro ⟨c, hc, hsucc, -, hfor⟩ -
        obtain ⟨hk, hkey⟩ := (proofFor_reconnect_iff hlink hc hsucc).1 hfor
        exact ⟨c, hc, hk, hsucc, hkey⟩
      · intro hord
        obtain ⟨c, hc, hk, hsucc, hkey⟩ := hord hacc
        exact ⟨c, hc, hsucc, (hlink c hc hsucc).1,
          (proofFor_reconnect_iff hlink hc hsucc).2 ⟨hk, hkey⟩⟩
    · refine iff_of_true (authentic_of_eq h (by rw [hsock]) ?_) fun hacc' => absurd hacc' hacc
      rw [Bool.not_eq_true] at hacc
      rw [hsock, hacc, Bool.or_false]
  | realmList =>
    have hsock := @handleRealmList_sock env ss.sock
    exact iff_of_true (authentic_of_eq h (congrArg _ hsock) (congrArg _ hsock)) trivial
  | xferAccept => exact iff_of_true h trivial
  | xferResume => exact iff_of_true h trivial
  | xferCancel => exact iff_of_true h trivial

/-! ### Runs -/

/-- **Main result.** On a new connection, along every sequence of packets, the session is authentic
in every state exactly when every packet is orderly. -/
theorem authentic_iff_orderly (sha : Sha1) (build : ℕ) (expversion : UInt8) (ps : List Packet) :
    Runs.Along (sessionStep sha) Authentic (Session.new build expversion) ps ↔
      Runs.EachStep (sessionStep sha) (Orderly sha) (Session.new build expversion) ps := by
  refine Runs.along_iff_eachStep (I := Linked) ?_ ?_
    (fun ss p hlink _ _ => linked_sessionStep hlink p)
    fun ss p hlink h => authentic_sessionStep_iff hlink h p
  · intro c hc
    cases hc
  · intro hauth
    cases hauth

/-- A hash function with one digest. -/
def sampleSha : Sha1 := ⟨fun _ => List.replicate 20 1, fun _ => List.length_replicate⟩

/-- A database with the one account `A`. -/
def sampleEnv : Env where
  ipAddress := "127.0.0.1"
  ipBanned := false
  account login :=
    if login = [65] then some ⟨[], 1, false, "", "127.0.0.1", 0, [], []⟩ else none
  ipCountry := none
  accountBanned _ := none
  sessionKey _ := none
  accountId _ := none
  randS := ⟨2 ^ 255 + 1, by decide, by decide, by decide⟩
  randB := ⟨2 ^ 151 + 1, by decide, by decide, by decide⟩
  randUnk3 := ⟨2 ^ 127 + 1, by decide, by decide, by decide⟩
  randReconnect := ⟨2 ^ 127 + 1, by decide, by decide, by decide⟩
  memory _ := 0

/-- A logon challenge of the build 12340 for a login of one letter. -/
def sampleChallenge (letter : UInt8) : Packet where
  cmd := .logonChallenge
  pkt := List.replicate 11 0 ++ [0x34, 0x30] ++ List.replicate 21 0 ++ [letter]
  env := sampleEnv

/-- A logon proof with the client value 1. -/
def sampleProof : Packet where
  cmd := .logonProof
  pkt := [0x01, 1] ++ List.replicate 31 0 ++ List.replicate 20 1 ++ List.replicate 22 0
  env := sampleEnv

/-- Logged on as `A`, the client asks for a challenge for `B`, which does not exist: the challenge
fails, and the session is logged on as `B`. -/
theorem authentic_fails_after_second_challenge :
    ¬Runs.Along (sessionStep sampleSha) Authentic (Session.new 0 0)
      [sampleChallenge 65, sampleProof, sampleChallenge 66] := by
  intro h
  have hend := h _ (List.prefix_refl _)
  have hauth : ([sampleChallenge 65, sampleProof, sampleChallenge 66].foldl (sessionStep sampleSha)
      (Session.new 0 0)).sock.authed = true := by decide +kernel
  obtain ⟨c, -, hc, -, hsucc, -⟩ := hend hauth
  have hlast : ([sampleChallenge 65, sampleProof, sampleChallenge 66].foldl (sessionStep sampleSha)
      (Session.new 0 0)).last.map Challenge.success = some false := by decide +kernel
  rw [hc, Option.map_some, hsucc] at hlast
  exact absurd hlast (by decide)

end FaceCore.AuthSession
