import FaceCore.Auth.Srp6

/-!
# The packets of the authentication server

The handlers of `AuthSocket`, on packets that have arrived completely: the member variables of the
socket before and after, the returned flag, whether the connection is shut down, and what is sent.
The answers of the login database and the random numbers that a handler may ask for come with the
packet, in `Env`.

* `handleLogonChallenge`, `handleLogonProof`, `handleReconnectChallenge`, `handleReconnectProof`,
  `handleRealmList`: the handlers of the table;
* `handlePacket`: the entry of the table for a command.
-/

namespace FaceCore

open BigNumber Srp6

/-- `eAuthCmd`, the commands in the table of the handlers. -/
inductive AuthCmd
  | logonChallenge
  | logonProof
  | reconnectChallenge
  | reconnectProof
  | realmList
  | xferAccept
  | xferResume
  | xferCancel
  deriving DecidableEq

/-- The command byte. -/
def AuthCmd.toByte : AuthCmd → UInt8
  | .logonChallenge => 0x00
  | .logonProof => 0x01
  | .reconnectChallenge => 0x02
  | .reconnectProof => 0x03
  | .realmList => 0x10
  | .xferAccept => 0x32
  | .xferResume => 0x33
  | .xferCancel => 0x34

/-- The commands in the order of the table. -/
def authTable : List AuthCmd :=
  [.logonChallenge, .logonProof, .reconnectChallenge, .reconnectProof, .realmList, .xferAccept,
    .xferResume, .xferCancel]

/-- `AuthResult`, the codes that the handlers send. -/
def wowSuccess : UInt8 := 0x00
def wowFailBanned : UInt8 := 0x03
def wowFailUnknownAccount : UInt8 := 0x04
def wowFailVersionInvalid : UInt8 := 0x09
def wowFailSuspended : UInt8 := 0x0C
def wowFailLockedEnforced : UInt8 := 0x10
def wowFailUnlockableLock : UInt8 := 0x19

/-- `PostBcAcceptedClientBuilds` and `PreBcAcceptedClientBuilds`. -/
def postBcAcceptedClientBuilds : List ℕ :=
  [15595, 14545, 13623, 12340, 11723, 11403, 11159, 10505, 9947, 8606]
def preBcAcceptedClientBuilds : List ℕ := [6141, 6005, 5875]

/-- `AuthHelper::IsAcceptedClientBuild`. -/
def isAcceptedClientBuild (build : ℕ) : Bool :=
  postBcAcceptedClientBuilds.contains build || preBcAcceptedClientBuilds.contains build

/-- `_expversion` of a build: `POST_BC_EXP_FLAG`, `PRE_BC_EXP_FLAG` or `NO_VALID_EXP_FLAG`. -/
def expversionOf (build : ℕ) : UInt8 :=
  if postBcAcceptedClientBuilds.contains build then 2
  else if preBcAcceptedClientBuilds.contains build then 1
  else 0

/-- The member variables of `AuthSocket`. -/
structure AuthSocket where
  s : ℕ
  v : ℕ
  b : ℕ
  B : ℕ
  K : ℕ
  reconnectProof : ℕ
  authed : Bool
  login : List UInt8
  localizationName : List UInt8
  os : List UInt8
  build : ℕ
  expversion : UInt8
  accountSecurityLevel : UInt8

/-- `AuthSocket::AuthSocket`. The constructor leaves `_build` and `_expversion` as they are in
memory. -/
def AuthSocket.new (build : ℕ) (expversion : UInt8) : AuthSocket where
  s := 0
  v := 0
  b := 0
  B := 0
  K := 0
  reconnectProof := 0
  authed := false
  login := []
  localizationName := []
  os := []
  build := build
  expversion := expversion
  accountSecurityLevel := 0

/-- A row of `LOGIN_SEL_LOGONCHALLENGE`. -/
structure AccountRow where
  shaPassHash : HexStr
  id : ℕ
  /-- The account is locked to its last address. -/
  locked : Bool
  lockCountry : String
  lastIp : String
  gmlevel : UInt8
  v : HexStr
  s : HexStr

/-- What a handler gets from outside while it works on one packet. -/
structure Env where
  /-- `socket().getRemoteAddress()`. -/
  ipAddress : String
  /-- `LOGIN_SEL_IP_BANNED` has a row. -/
  ipBanned : Bool
  /-- `LOGIN_SEL_LOGONCHALLENGE`, by the login. -/
  account : List UInt8 → Option AccountRow
  /-- `LOGIN_SEL_LOGON_COUNTRY` for the address. -/
  ipCountry : Option String
  /-- `LOGIN_SEL_ACCOUNT_BANNED`, by the account; whether the ban is permanent. -/
  accountBanned : ℕ → Option Bool
  /-- `LOGIN_SEL_SESSIONKEY`, by the login: the session key and the security level. -/
  sessionKey : List UInt8 → Option (HexStr × UInt8)
  /-- `LOGIN_SEL_ACCOUNT_ID_BY_NAME`. -/
  accountId : List UInt8 → Option ℕ
  /-- The random numbers of the challenges. -/
  randS : RandBits (8 * sByteSize)
  randB : RandBits (8 * 19)
  randUnk3 : RandBits (8 * 16)
  randReconnect : RandBits (8 * 16)
  /-- The memory behind an array that `memcmp` reads past its end. -/
  memory : ℕ → UInt8

/-- What is sent to the client; the list of the realms is that of an account. -/
inductive Reply
  | bytes (l : List UInt8)
  | realmList (accountId : ℕ)

/-- How a handler ends. -/
structure Outcome where
  sock : AuthSocket
  /-- The returned flag. -/
  ret : Bool
  /-- `socket().shutdown()` was called. -/
  shutdown : Bool
  sent : Option Reply

/-! ### Fields of a packet -/

/-- `len` bytes at an offset. -/
def field (pkt : List UInt8) (off len : ℕ) : List UInt8 := (pkt.drop off).take len

/-- The string at an offset, up to its first zero; a zero is put behind the packet. -/
def cString (pkt : List UInt8) (off : ℕ) : List UInt8 := (pkt.drop off).takeWhile (· ≠ 0)

/-- `ch->I`, `ch->os` and `ch->build` of `sAuthLogonChallenge_C`. -/
def challengeLogin (pkt : List UInt8) : List UInt8 := cString pkt 34
def challengeOs (pkt : List UInt8) : List UInt8 := cString pkt 17
def challengeBuild (pkt : List UInt8) : ℕ := setBinary (field pkt 11 2)

/-! ### The handlers -/

variable (sha : Sha1)

/-- The lock of an account to its last address or to a country. -/
def lockError (env : Env) (row : AccountRow) : Option UInt8 :=
  if row.locked then
    if row.lastIp ≠ env.ipAddress then some wowFailLockedEnforced else none
  else if row.lockCountry = "" || row.lockCountry = "00" then none
  else
    match env.ipCountry with
    | some country => if country ≠ row.lockCountry then some wowFailUnlockableLock else none
    | none => none

/-- A logon challenge that is not answered with success sends its code only. -/
def challengeError (code : UInt8) : Option Reply := some (.bytes [0x00, 0x00, code])

/-- The salt and the verifier: fresh ones (`_SetVSFields`) unless both are in the database. -/
def saltVerifier (env : Env) (row : AccountRow) : ℕ × ℕ :=
  if row.v.length ≠ sByteSize * 2 || row.s.length ≠ sByteSize * 2 then
    (env.randS.val, verifier (privateX sha env.randS.val (setHexStr 0 row.shaPassHash)))
  else (setHexStr 0 row.s, setHexStr 0 row.v)

/-- The reply to a logon challenge, from the salt and the public value. -/
def challengeReply (env : Env) (build s B : ℕ) : List UInt8 :=
  [0x00, 0x00, if isAcceptedClientBuild build then wowSuccess else wowFailVersionInvalid] ++
    asByteArray B 32 ++ [1] ++ field (asByteArray g 0) 0 1 ++ [32] ++ asByteArray N 32 ++
    asByteArray s 0 ++ asByteArray env.randUnk3.val 16 ++ [0]

/-- The end of `_HandleLogonChallenge` for an account that may log on. -/
def acceptChallenge (env : Env) (st : AuthSocket) (pkt : List UInt8) (row : AccountRow) : Outcome :=
  let sv := saltVerifier sha env row
  let B := publicB sv.2 env.randB.val
  ⟨{ st with
      s := sv.1
      v := sv.2
      b := env.randB.val
      B := B
      accountSecurityLevel := if row.gmlevel ≤ 3 then row.gmlevel else 3
      localizationName := (field pkt 21 4).reverse },
    true, false, some (.bytes (challengeReply env st.build sv.1 B))⟩

/-- `AuthSocket::_HandleLogonChallenge`. -/
def handleLogonChallenge (env : Env) (st : AuthSocket) (pkt : List UInt8) : Outcome :=
  let st := { st with
    login := challengeLogin pkt
    build := challengeBuild pkt
    expversion := expversionOf (challengeBuild pkt)
    os := challengeOs pkt }
  if st.os.length > 4 then ⟨st, false, false, none⟩
  else
    let st := { st with os := st.os.reverse }
    if env.ipBanned then ⟨st, true, false, challengeError wowFailBanned⟩
    else
      match env.account st.login with
      | none => ⟨st, true, false, challengeError wowFailUnknownAccount⟩
      | some row =>
        match lockError env row with
        | some code => ⟨st, true, false, challengeError code⟩
        | none =>
          match env.accountBanned row.id with
          | some permanent =>
            ⟨st, true, false,
              challengeError (if permanent then wowFailBanned else wowFailSuspended)⟩
          | none => acceptChallenge sha env st pkt row

/-- `memcmp` of the array of a number with `bytes`, which are compared to their end. -/
def memcmpBigNumber (memory : ℕ → UInt8) (n : ℕ) (bytes : List UInt8) : Bool :=
  (asByteArray n 0 ++ (List.range bytes.length).map memory).take bytes.length == bytes

/-- `lp.A` and `lp.M1` of `sAuthLogonProof_C`. -/
def proofA (pkt : List UInt8) : ℕ := setBinary (field pkt 1 32)
def proofM1 (pkt : List UInt8) : List UInt8 := field pkt 33 20

/-- The session key that `_HandleLogonProof` computes. -/
def logonK (st : AuthSocket) (A : ℕ) : ℕ :=
  sessionK sha (sharedS A st.v (scramble sha A st.B) st.b)

/-- The check of `_HandleLogonProof`. -/
def acceptsLogonProof (env : Env) (st : AuthSocket) (pkt : List UInt8) : Bool :=
  st.expversion ≠ 0 && !safeguard (proofA pkt) &&
    memcmpBigNumber env.memory
      (proofM sha st.login st.s (proofA pkt) st.B (logonK sha st (proofA pkt))) (proofM1 pkt)

/-- `AuthSocket::_HandleLogonProof`. -/
def handleLogonProof (env : Env) (st : AuthSocket) (pkt : List UInt8) : Outcome :=
  if st.expversion = 0 then ⟨st, true, true, none⟩
  else if safeguard (proofA pkt) then ⟨st, true, true, none⟩
  else
    let A := proofA pkt
    let st := { st with K := logonK sha st A }
    let M := proofM sha st.login st.s A st.B st.K
    if memcmpBigNumber env.memory M (proofM1 pkt) then
      let M2 := sha.digest (bigNumbers [A, M, st.K])
      let tail :=
        if st.expversion &&& 2 ≠ 0 then [0, 0, 0x80, 0, 0, 0, 0, 0, 0, 0] else [0, 0, 0, 0]
      ⟨{ st with authed := true }, true, false, some (.bytes ([0x01, 0x00] ++ M2 ++ tail))⟩
    else ⟨st, true, false, some (.bytes [0x01, wowFailUnknownAccount, 3, 0])⟩

/-- `AuthSocket::_HandleReconnectChallenge`. -/
def handleReconnectChallenge (env : Env) (st : AuthSocket) (pkt : List UInt8) : Outcome :=
  let st := { st with login := challengeLogin pkt }
  match env.sessionKey st.login with
  | none => ⟨st, false, true, none⟩
  | some (key, gmlevel) =>
    let st := { st with
      build := challengeBuild pkt
      expversion := expversionOf (challengeBuild pkt)
      os := challengeOs pkt }
    if st.os.length > 4 then ⟨st, false, false, none⟩
    else
      ⟨{ st with
          os := st.os.reverse
          accountSecurityLevel := if gmlevel ≤ 3 then gmlevel else 3
          K := setHexStr st.K key
          reconnectProof := env.randReconnect.val },
        true, false,
        some (.bytes ([0x02, 0x00] ++ asByteArray env.randReconnect.val 16 ++
          List.replicate 16 0))⟩

/-- A reconnect proof needs a login, a challenge and a session key. -/
def canReconnect (st : AuthSocket) : Bool :=
  st.login ≠ [] && getNumBytes st.reconnectProof ≠ 0 && getNumBytes st.K ≠ 0

/-- The check of `_HandleReconnectProof`. -/
def acceptsReconnectProof (st : AuthSocket) (pkt : List UInt8) : Bool :=
  canReconnect st &&
    sha.digest (st.login ++ bigNumbers [setBinary (field pkt 1 16), st.reconnectProof, st.K]) ==
      field pkt 17 20

/-- `AuthSocket::_HandleReconnectProof`. -/
def handleReconnectProof (st : AuthSocket) (pkt : List UInt8) : Outcome :=
  if !canReconnect st then ⟨st, false, false, none⟩
  else if acceptsReconnectProof sha st pkt then
    ⟨{ st with authed := true }, true, false, some (.bytes [0x03, 0, 0, 0])⟩
  else ⟨st, false, true, none⟩

/-- `AuthSocket::_HandleRealmList`. -/
def handleRealmList (env : Env) (st : AuthSocket) : Outcome :=
  match env.accountId st.login with
  | none => ⟨st, false, true, none⟩
  | some id => ⟨st, true, false, some (.realmList id)⟩

/-- The handler of a command. There is never a patch to transfer, so two of the transfer commands
fail; the third one closes the connection. -/
def handlePacket (env : Env) (st : AuthSocket) (cmd : AuthCmd) (pkt : List UInt8) : Outcome :=
  match cmd with
  | .logonChallenge => handleLogonChallenge sha env st pkt
  | .logonProof => handleLogonProof sha env st pkt
  | .reconnectChallenge => handleReconnectChallenge env st pkt
  | .reconnectProof => handleReconnectProof sha st pkt
  | .realmList => handleRealmList env st
  | .xferAccept => ⟨st, false, false, none⟩
  | .xferResume => ⟨st, false, false, none⟩
  | .xferCancel => ⟨st, true, true, none⟩

end FaceCore
