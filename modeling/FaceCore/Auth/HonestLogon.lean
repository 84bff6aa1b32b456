import FaceCore.Auth.Session
import Mathlib.Data.Set.Function

/-!
# The logon of an honest client

A client that knows its password, reads the salt and the public value of the server from the reply
to its challenge, and follows SRP6 with every number in its full width: 32 bytes for `A`, `B`, the
salt and the shared value, 40 for the session key, 20 for the digests. The server hashes the minimal
strings of its numbers and fills `AsByteArray` up at the wrong end, so the two agree as long as no
number starts with a zero byte.

* `Transcript`: the numbers of the protocol, for a salt, the secrets and a password;
* `NoShortNumber`: none of them starts with a zero byte;
* `honestLogon_succeeds`: then the logon succeeds;
* `honestLogon_iff`: and it succeeds only then, unless the hash function collides on the strings
  of the very logon.
-/

namespace FaceCore.HonestLogon

open BigNumber LittleEndian Srp6

variable (sha : Sha1)

/-! ### The protocol -/

/-- What a logon starts from: the login, the password hash, the salt and the two secrets. -/
structure Secrets where
  login : List UInt8
  /-- The hash of the password, of twenty bytes. -/
  pw : List UInt8
  length_pw : pw.length = shaDigestLength
  s : RandBits (8 * sByteSize)
  b : RandBits (8 * 19)
  a : ℕ

namespace Transcript

variable (t : Secrets)

/-- The private key and the verifier. -/
def x : ℕ := setBinary (sha.digest (toBytesLen 32 t.s.val ++ t.pw))
def v : ℕ := modExp g (x sha t) N

/-- The public values. -/
def A : ℕ := modExp g t.a N
def B : ℕ := (3 * v sha t + modExp g t.b.val N) % N

/-- The scrambling value and the shared value. -/
def u : ℕ := setBinary (sha.digest (toBytesLen 32 (A t) ++ toBytesLen 32 (B sha t)))
def S : ℕ := modExp g (t.b.val * (t.a + u sha t * x sha t)) N

/-- The session key, in forty bytes. -/
def K : List UInt8 := interleavedHash sha (toBytesLen 32 (S sha t))

/-- The hash of the group, in twenty bytes. -/
def hashNg : List UInt8 :=
  List.zipWith (· ^^^ ·) (sha.digest (toBytesLen 32 N)) (sha.digest (toBytesLen 1 g))

/-- The proof of the client. -/
def M1 : List UInt8 :=
  sha.digest (hashNg sha ++ sha.digest t.login ++ toBytesLen 32 t.s.val ++ toBytesLen 32 (A t) ++
    toBytesLen 32 (B sha t) ++ K sha t)

end Transcript

/-- No number of the protocol starts with a zero byte. -/
structure NoShortNumber (t : Secrets) : Prop where
  A : 256 ^ 31 ≤ Transcript.A t
  B : 256 ^ 31 ≤ Transcript.B sha t
  S : 256 ^ 31 ≤ Transcript.S sha t
  K : 256 ^ 39 ≤ ofBytes (Transcript.K sha t)
  hashNg : 256 ^ 19 ≤ ofBytes (Transcript.hashNg sha)
  M1 : 256 ^ 19 ≤ ofBytes (Transcript.M1 sha t)

/-! ### The client -/

/-- `B` and the salt, as the client reads them from the reply to its challenge. -/
def replyB (reply : List UInt8) : ℕ := ofBytes (field reply 3 32)
def replyS (reply : List UInt8) : ℕ := ofBytes (field reply 70 32)

/-- The shared value of the client, `(B - 3 g^x)^(a + u x)`. -/
def clientS (a B x u : ℕ) : ℕ :=
  modExp (((B : ℤ) - 3 * (modExp g x N : ℕ)) % (N : ℤ)).toNat (a + u * x) N

/-- The shared value and the session key of the client, from the reply to its challenge. -/
def clientShared (t : Secrets) (reply : List UInt8) : ℕ :=
  let x := setBinary (sha.digest (toBytesLen 32 (replyS reply) ++ t.pw))
  let A := modExp g t.a N
  let u := setBinary (sha.digest (toBytesLen 32 A ++ toBytesLen 32 (replyB reply)))
  clientS t.a (replyB reply) x u

def clientK (t : Secrets) (reply : List UInt8) : List UInt8 :=
  interleavedHash sha (toBytesLen 32 (clientShared sha t reply))

/-- What the client hashes for its proof. -/
def clientInput (t : Secrets) (reply : List UInt8) : List UInt8 :=
  Transcript.hashNg sha ++ sha.digest t.login ++ toBytesLen 32 (replyS reply) ++
    toBytesLen 32 (modExp g t.a N) ++ toBytesLen 32 (replyB reply) ++ clientK sha t reply

/-- The logon proof of the client: `sAuthLogonProof_C` without checksum, keys and flags. -/
def clientProof (t : Secrets) (reply : List UInt8) : List UInt8 :=
  [0x01] ++ toBytesLen 32 (modExp g t.a N) ++ sha.digest (clientInput sha t reply) ++
    List.replicate 22 0

/-! ### The server -/

/-- The hexadecimal digits of a string of bytes. -/
def hexStr (bytes : List UInt8) : HexStr :=
  bytes.flatMap fun b =>
    [⟨b.toNat / 16, by have := b.toNat_lt; omega⟩, ⟨b.toNat % 16, by omega⟩]

/-- A logon challenge that is answered with success, for the account and the random numbers of `t`.
The salt is drawn now, or it was drawn before and is in the database with its verifier. -/
structure HonestChallenge (env : Env) (pkt : List UInt8) (row : AccountRow) (t : Secrets) :
    Prop where
  success : (AuthSession.logonRecord sha env pkt).success = true
  account : env.account (challengeLogin pkt) = some row
  salt :
    ((row.v.length ≠ sByteSize * 2 ∨ row.s.length ≠ sByteSize * 2) ∧
      row.shaPassHash = hexStr t.pw ∧ t.s = env.randS) ∨
    ((row.v.length = sByteSize * 2 ∧ row.s.length = sByteSize * 2) ∧
      setHexStr 0 row.s = t.s.val ∧ setHexStr 0 row.v = Transcript.v sha t)
  login : t.login = challengeLogin pkt
  randB : t.b = env.randB

/-- The socket after the challenge, and the reply to it. -/
def afterChallenge (env : Env) (st : AuthSocket) (pkt : List UInt8) : AuthSocket :=
  (handleLogonChallenge sha env st pkt).sock

def challengeAnswer (env : Env) (st : AuthSocket) (pkt : List UInt8) : List UInt8 :=
  match (handleLogonChallenge sha env st pkt).sent with
  | some (.bytes l) => l
  | _ => []

/-- The logon succeeds: the proof of the client is accepted, whatever lies in memory, and the two
sides have the same session key. -/
def Succeeds (env : Env) (st : AuthSocket) (pkt : List UInt8) (t : Secrets) : Prop :=
  ∀ env' : Env,
    let st' := afterChallenge sha env st pkt
    let proof := clientProof sha t (challengeAnswer sha env st pkt)
    acceptsLogonProof sha env' st' proof = true ∧
      (handleLogonProof sha env' st' proof).sock.authed = true ∧
      (handleLogonProof sha env' st' proof).sock.K =
        ofBytes (clientK sha t (challengeAnswer sha env st pkt))

/-! ### Strings of full width -/

theorem numBytes_eq_iff {k n : ℕ} (h : n < 256 ^ (k + 1)) : numBytes n = k + 1 ↔ 256 ^ k ≤ n := by
  rw [numBytes_eq_succ_iff, and_iff_left h]

theorem numBytes_ofBytes_eq_iff {k : ℕ} {l : List UInt8} (h : l.length = k + 1) :
    numBytes (ofBytes l) = l.length ↔ 256 ^ k ≤ ofBytes l := by
  have hlt := ofBytes_lt l
  rw [h] at hlt ⊢
  exact numBytes_eq_iff hlt

theorem toBytes_append_zeros {k n : ℕ} (h : n < 256 ^ k) :
    toBytes n ++ List.replicate (k - numBytes n) 0 = toBytesLen k n := by
  have hle := numBytes_le_iff.2 h
  refine ofBytes_inj ?_ ?_
  · rw [List.length_append, length_toBytes, List.length_replicate, length_toBytesLen]
    omega
  · rw [ofBytes_append, ofBytes_toBytes, ofBytes_replicate_zero, ofBytes_toBytesLen h]
    omega

/-- Zeros in front of the string of a number count, unless the number is zero. -/
theorem asByteArray_eq_toBytesLen_iff {k n : ℕ} (hn : n ≠ 0) (h : n < 256 ^ k) :
    asByteArray n k = toBytesLen k n ↔ numBytes n = k := by
  constructor
  · intro heq
    have hle := numBytes_le_iff.2 h
    have hnum := congrArg ofBytes heq
    rw [asByteArray_eq, ofBytes_append, ofBytes_replicate_zero, ofBytes_toBytes,
      ofBytes_toBytesLen h, List.length_replicate, Nat.zero_add] at hnum
    have hone : 256 ^ (k - numBytes n) = 1 :=
      Nat.eq_of_mul_eq_mul_right (Nat.pos_of_ne_zero hn) (hnum.trans (Nat.one_mul n).symm)
    have := (Nat.pow_eq_one.1 hone).resolve_left (by norm_num)
    omega
  · exact asByteArray_of_full

/-! ### The password hash -/

theorem foldl_hexStr (bytes : List UInt8) (n : ℕ) :
    (hexStr bytes).foldl (fun n d => 16 * n + d.val) n =
      ofBytes bytes.reverse + 256 ^ bytes.length * n := by
  induction bytes generalizing n with
  | nil => simp [hexStr, ofBytes]
  | cons b bytes ih =>
    rw [show hexStr (b :: bytes) = ⟨b.toNat / 16, by have := b.toNat_lt; omega⟩ ::
      ⟨b.toNat % 16, by omega⟩ :: hexStr bytes from rfl, List.foldl_cons, List.foldl_cons, ih,
      List.reverse_cons, ofBytes_append, List.length_reverse, List.length_cons]
    dsimp only
    rw [show 16 * (16 * n + b.toNat / 16) + b.toNat % 16 = 256 * n + b.toNat by omega,
      show ofBytes [b] = b.toNat from rfl]
    ring

/-- `_SetVSFields` gets the hash of the password back from its digits, leading zeros included. -/
theorem mDigest_hexStr {pw : List UInt8} (h : pw.length = shaDigestLength) :
    mDigest (setHexStr 0 (hexStr pw)) = pw := by
  have hne : hexStr pw ≠ [] := by
    cases pw with
    | nil => simp [shaDigestLength] at h
    | cons b pw => simp [hexStr]
  have hI : setHexStr 0 (hexStr pw) = ofBytes pw.reverse := by
    rw [setHexStr, if_neg hne, foldl_hexStr, Nat.mul_zero, Nat.add_zero]
  have hlt : ofBytes pw.reverse < 256 ^ shaDigestLength := by
    rw [← h, ← List.length_reverse]
    exact ofBytes_lt _
  unfold mDigest getNumBytes
  rw [hI, if_pos (numBytes_le_iff.2 hlt), asByteArray_zero, toBytes_append_zeros hlt]
  conv_lhs => rw [← h, ← List.length_reverse]
  rw [toBytesLen_ofBytes, List.reverse_reverse]

/-! ### The two shared values -/

theorem sharedS_of_powers (a x u b : ℕ) :
    sharedS (modExp g a N) (modExp g x N) u b = modExp g (b * (a + u * x)) N := by
  rw [sharedS_eq, modExp_eq, modExp_eq, modExp_eq]
  have h : (g ^ a % N * (g ^ x % N) ^ u) ^ b ≡ (g ^ a * (g ^ x) ^ u) ^ b [MOD N] :=
    (((Nat.mod_modEq _ _).mul ((Nat.mod_modEq _ _).pow u))).pow b
  rw [show b * (a + u * x) = (a + x * u) * b by ring, pow_mul, pow_add, pow_mul]
  exact h

theorem clientS_of_publicB (a x u b : ℕ) :
    clientS a ((3 * modExp g x N + modExp g b N) % N) x u = modExp g (b * (a + u * x)) N := by
  have hlt : modExp g b N < N := by
    rw [modExp_eq]
    exact Nat.mod_lt _ N_prime.pos
  have hbase : ((((3 * modExp g x N + modExp g b N) % N : ℕ) : ℤ) - 3 * (modExp g x N : ℕ)) %
      (N : ℤ) = (modExp g b N : ℕ) := by
    rw [Int.natCast_mod, Int.emod_sub_emod, Nat.cast_add, Nat.cast_mul, Nat.cast_ofNat,
      add_sub_cancel_left, Int.emod_eq_of_lt (Int.natCast_nonneg _) (by exact_mod_cast hlt)]
  rw [clientS, hbase, Int.toNat_natCast, modExp_eq, modExp_eq, modExp_eq, ← Nat.pow_mod, ← pow_mul]

/-! ### The server -/

section Server

variable {sha} {env : Env} {st : AuthSocket} {pkt : List UInt8} {row : AccountRow} {t : Secrets}

theorem numBytes_salt (r : RandBits (8 * sByteSize)) : numBytes r.val = 32 := by
  have h := r.top
  have h' := r.lt
  unfold sByteSize at h h'
  rw [numBytes_eq_iff (by omega)]
  omega

/-- The numbers of the challenge handler are those of the protocol. -/
theorem afterChallenge_eq (h : HonestChallenge sha env pkt row t) :
    (afterChallenge sha env st pkt).s = t.s.val ∧
      (afterChallenge sha env st pkt).v = Transcript.v sha t ∧
      (afterChallenge sha env st pkt).b = t.b.val ∧
      (afterChallenge sha env st pkt).B = Transcript.B sha t ∧
      (afterChallenge sha env st pkt).login = t.login ∧
      (afterChallenge sha env st pkt).expversion ≠ 0 := by
  obtain ⟨hbuild, heq⟩ := @AuthSession.handleLogonChallenge_success sha env st pkt h.success row
    h.account
  have hsv : saltVerifier sha env row = (t.s.val, Transcript.v sha t) := by
    unfold saltVerifier
    obtain ⟨hfresh, hhash, hrand⟩ | ⟨⟨hv, hs⟩, hsalt, hverifier⟩ := h.salt
    · rw [if_pos (by simpa using hfresh), hhash, ← hrand, privateX, mDigest_hexStr t.length_pw,
        asByteArray_zero, toBytes, numBytes_salt]
      rfl
    · rw [if_neg (by simp [hv, hs]), hsalt, hverifier]
  have hexp : expversionOf (challengeBuild pkt) ≠ 0 := by
    unfold isAcceptedClientBuild at hbuild
    unfold expversionOf
    split_ifs with h1 h2
    · decide
    · decide
    · rw [Bool.not_eq_true] at h1 h2
      rw [h1, h2] at hbuild
      cases hbuild
  unfold afterChallenge
  rw [heq]
  simp only [acceptChallenge, hsv, ← h.randB, publicB]
  exact ⟨trivial, trivial, trivial, by rw [Nat.mul_comm]; rfl, h.login.symm, hexp⟩

theorem field_append {p f r : List UInt8} {off len : ℕ} (hp : p.length = off)
    (hf : f.length = len) : field (p ++ (f ++ r)) off len = f := by
  rw [field, ← hp, ← hf, List.drop_left, List.take_left]

theorem B_lt (t : Secrets) : Transcript.B sha t < 256 ^ 32 :=
  (Nat.mod_lt _ N_prime.pos).trans N_bounds.2

/-- What the client reads from the reply: the salt, and the array of the public value. -/
theorem challengeAnswer_eq (h : HonestChallenge sha env pkt row t) :
    replyS (challengeAnswer sha env st pkt) = t.s.val ∧
      replyB (challengeAnswer sha env st pkt) = ofBytes (asByteArray (Transcript.B sha t) 32) := by
  obtain ⟨hs, -, -, hB, -, -⟩ := @afterChallenge_eq sha env st pkt row t h
  obtain ⟨-, heq⟩ := @AuthSession.handleLogonChallenge_success sha env st pkt h.success row
    h.account
  unfold afterChallenge at hs hB
  rw [heq] at hs hB
  simp only [acceptChallenge] at hs hB
  have hlenB := length_asByteArray (@B_lt sha t)
  have hlenN := length_asByteArray N_bounds.2
  have hlenS : (asByteArray t.s.val 0).length = 32 := by
    rw [asByteArray_zero, length_toBytes, numBytes_salt]
  have hlenG : (field (asByteArray g 0) 0 1).length = 1 := by decide
  unfold challengeAnswer
  rw [heq]
  simp only [acceptChallenge, hs, hB, challengeReply]
  constructor
  · rw [replyS, List.append_assoc _ (asByteArray env.randUnk3.val 16), List.append_assoc,
      field_append (by simp only [List.length_append, List.length_cons, List.length_nil, hlenB,
        hlenN, hlenG]) hlenS, asByteArray_zero, ofBytes_toBytes]
  · rw [replyB]
    simp only [List.append_assoc]
    exact congrArg ofBytes (field_append rfl hlenB)

/-- The shared value and the session key of the server, and what it hashes for the proof. -/
def serverShared (sha : Sha1) (t : Secrets) : ℕ :=
  sharedS (Transcript.A t) (Transcript.v sha t)
    (scramble sha (Transcript.A t) (Transcript.B sha t)) t.b.val

def serverK (sha : Sha1) (t : Secrets) : ℕ := sessionK sha (serverShared sha t)

def serverInput (sha : Sha1) (t : Secrets) : List UInt8 :=
  proofInput sha t.login t.s.val (Transcript.A t) (Transcript.B sha t) (serverK sha t)

theorem A_lt (t : Secrets) : Transcript.A t < 256 ^ 32 := by
  rw [Transcript.A, modExp_eq]
  exact (Nat.mod_lt _ N_prime.pos).trans N_bounds.2

/-- No power of the generator is a multiple of `N`. -/
theorem modExp_g_ne_zero (e : ℕ) : modExp g e N ≠ 0 := by
  rw [modExp_eq]
  intro h
  have hdvd : N ∣ 7 := N_prime.dvd_of_dvd_pow (Nat.dvd_of_mod_eq_zero h)
  have hle := Nat.le_of_dvd (by norm_num) hdvd
  have hN := N_bounds.1
  omega

theorem proofA_clientProof (t : Secrets) (reply : List UInt8) :
    proofA (clientProof sha t reply) = Transcript.A t := by
  have hfield : field (clientProof sha t reply) 1 32 = toBytesLen 32 (Transcript.A t) := by
    rw [clientProof]
    simp only [List.append_assoc]
    exact field_append rfl (length_toBytesLen _ _)
  rw [proofA, hfield, setBinary, ofBytes_toBytesLen (A_lt t)]

theorem proofM1_clientProof (t : Secrets) (reply : List UInt8) :
    proofM1 (clientProof sha t reply) = sha.digest (clientInput sha t reply) := by
  rw [proofM1, clientProof, List.append_assoc _ _ (List.replicate 22 0)]
  exact field_append (by simp) (sha.length_digest _)

theorem safeguard_A (t : Secrets) : safeguard (Transcript.A t) = false := by
  simpa [safeguard, Transcript.A] using modExp_g_ne_zero t.a

theorem acceptsLogonProof_eq (h : HonestChallenge sha env pkt row t) (env' : Env)
    (reply : List UInt8) :
    acceptsLogonProof sha env' (afterChallenge sha env st pkt) (clientProof sha t reply) =
      memcmpBigNumber env'.memory (ofBytes (sha.digest (serverInput sha t)))
        (sha.digest (clientInput sha t reply)) := by
  obtain ⟨hs, hv, hb, hB, hlogin, hexp⟩ := @afterChallenge_eq sha env st pkt row t h
  simp only [acceptsLogonProof, proofA_clientProof, proofM1_clientProof, safeguard_A, logonK, hs,
    hv, hb, hB, hlogin]
  simp [hexp, serverInput, serverK, serverShared, proofM, setBinary]

/-- The proof handler sets the session key, whether it accepts the proof or not. -/
theorem handleLogonProof_K (h : HonestChallenge sha env pkt row t) (env' : Env)
    (reply : List UInt8) :
    (handleLogonProof sha env' (afterChallenge sha env st pkt) (clientProof sha t reply)).sock.K =
      serverK sha t := by
  obtain ⟨-, hv, hb, hB, -, hexp⟩ := @afterChallenge_eq sha env st pkt row t h
  unfold handleLogonProof
  rw [if_neg hexp, proofA_clientProof, safeguard_A]
  dsimp only
  rw [if_neg (by decide), logonK, hv, hb, hB]
  split_ifs <;> rfl

/-- `memcmp` finds two digests equal, whatever lies in memory, exactly when they are equal and the
number of the digest keeps all its bytes. -/
theorem memcmp_iff {d d' : List UInt8} (hlen : d.length = d'.length) :
    (∀ memory, memcmpBigNumber memory (ofBytes d) d' = true) ↔
      d = d' ∧ numBytes (ofBytes d) = d.length := by
  simp only [memcmpBigNumber, asByteArray_zero, beq_iff_eq]
  have hle := numBytes_ofBytes_le d
  constructor
  · intro h
    have hnum : numBytes (ofBytes d) = d.length := by
      by_contra hne
      -- the first byte behind the array decides, and it can be any byte
      have hlt : numBytes (ofBytes d) < d'.length := by omega
      have hget := congrArg (·[numBytes (ofBytes d)]?)
        (h fun _ => d'.get ⟨numBytes (ofBytes d), hlt⟩ + 1)
      simp only [List.getElem?_take_of_lt hlt] at hget
      rw [List.getElem?_append_right (by rw [length_toBytes]), length_toBytes, Nat.sub_self,
        List.getElem?_map, List.getElem?_range (by omega), Option.map_some,
        List.getElem?_eq_getElem hlt] at hget
      have hbyte := congrArg UInt8.toNat (Option.some.inj hget)
      have hb := (d'.get ⟨numBytes (ofBytes d), hlt⟩).toNat_lt
      rw [UInt8.toNat_add, List.get_eq_getElem] at hbyte
      rw [List.get_eq_getElem] at hb
      simp only [UInt8.reduceToNat] at hbyte
      omega
    refine ⟨?_, hnum⟩
    have h0 := h fun _ => 0
    rwa [toBytes_ofBytes hnum, ← hlen, List.take_left] at h0
  · rintro ⟨rfl, hnum⟩ memory
    rw [toBytes_ofBytes hnum, List.take_left]

/-- The logon succeeds exactly when the two sides compute one digest, of full width, and one
session key. -/
theorem succeeds_iff (h : HonestChallenge sha env pkt row t) :
    Succeeds sha env st pkt t ↔
      sha.digest (serverInput sha t) =
          sha.digest (clientInput sha t (challengeAnswer sha env st pkt)) ∧
        numBytes (ofBytes (sha.digest (serverInput sha t))) = shaDigestLength ∧
        serverK sha t = ofBytes (clientK sha t (challengeAnswer sha env st pkt)) := by
  have hlen : (sha.digest (serverInput sha t)).length =
      (sha.digest (clientInput sha t (challengeAnswer sha env st pkt))).length := by
    rw [sha.length_digest, sha.length_digest]
  have hmem := memcmp_iff hlen
  rw [sha.length_digest] at hmem
  rw [← and_assoc, ← hmem]
  constructor
  · intro hs
    refine ⟨fun memory => ?_, ?_⟩
    · rw [← @acceptsLogonProof_eq sha env st pkt row t h { env with memory := memory }]
      exact (hs { env with memory := memory }).1
    · rw [← @handleLogonProof_K sha env st pkt row t h env]
      exact (hs env).2.2
  · rintro ⟨hacc, hK⟩ env'
    have haccept := (@acceptsLogonProof_eq sha env st pkt row t h env' _).trans (hacc env'.memory)
    refine ⟨haccept, ?_, ?_⟩
    · obtain ⟨K, hsock⟩ := @AuthSession.handleLogonProof_sock sha env'
        (afterChallenge sha env st pkt) (clientProof sha t (challengeAnswer sha env st pkt))
      rw [hsock, haccept, Bool.or_true]
    · rw [handleLogonProof_K h, hK]

end Server

/-! ### The strings of the hash -/

theorem length_interleave {as bs : List UInt8} (h : as.length = bs.length) :
    (interleave as bs).length = as.length + bs.length := by
  induction as generalizing bs with
  | nil => cases bs <;> simp_all [interleave]
  | cons a as ih =>
    cases bs with
    | nil => simp at h
    | cons b bs =>
      rw [interleave, List.length_cons, List.length_cons, ih (by simpa using h), List.length_cons,
        List.length_cons]
      omega

theorem interleave_inj {as bs as' bs' : List UInt8} (h : as.length = bs.length)
    (h' : as'.length = bs'.length) (heq : interleave as bs = interleave as' bs') :
    as = as' ∧ bs = bs' := by
  induction as generalizing bs as' bs' with
  | nil =>
    obtain rfl := List.length_eq_zero_iff.1 h.symm
    have hlen := congrArg List.length heq
    rw [length_interleave h, length_interleave h'] at hlen
    simp only [List.length_nil] at hlen
    obtain rfl := List.length_eq_zero_iff.1 (show as'.length = 0 by omega)
    obtain rfl := List.length_eq_zero_iff.1 (show bs'.length = 0 by omega)
    exact ⟨rfl, rfl⟩
  | cons a as ih =>
    cases bs with
    | nil => simp at h
    | cons b bs =>
      cases as' with
      | nil =>
        obtain rfl := List.length_eq_zero_iff.1 h'.symm
        simp [interleave] at heq
      | cons a' as' =>
        cases bs' with
        | nil => simp at h'
        | cons b' bs' =>
          simp only [interleave, List.cons.injEq] at heq
          obtain ⟨rfl, rfl, heq⟩ := heq
          obtain ⟨rfl, rfl⟩ := ih (by simpa using h) (by simpa using h') heq
          exact ⟨rfl, rfl⟩

/-- The bytes of even and of odd index make up the string. -/
theorem eq_of_evens_odds {l l' : List UInt8} (he : evens l = evens l') (ho : odds l = odds l') :
    l = l' := by
  induction l using evens.induct generalizing l' with
  | case1 =>
    rcases l' with _ | ⟨a, _ | ⟨b, l'⟩⟩
    · rfl
    · simp [evens] at he
    · simp [evens] at he
  | case2 a =>
    rcases l' with _ | ⟨a', _ | ⟨b, l'⟩⟩
    · simp [evens] at he
    · simpa [evens] using he
    · simp [odds] at ho
  | case3 a b l ih =>
    rcases l' with _ | ⟨a', _ | ⟨b', l'⟩⟩
    · simp [evens] at he
    · simp [odds] at ho
    · simp only [evens, odds, List.cons.injEq] at he ho
      rw [he.1, ho.1, ih he.2 ho.2]

theorem length_interleavedHash (l : List UInt8) : (interleavedHash sha l).length = 40 := by
  rw [interleavedHash, length_interleave (by rw [sha.length_digest, sha.length_digest]),
    sha.length_digest, sha.length_digest]
  rfl

theorem length_hashNg : (Transcript.hashNg sha).length = 20 := by
  rw [Transcript.hashNg, List.length_zipWith, sha.length_digest, sha.length_digest]
  rfl

theorem hashNg_eq : Srp6.hashNg sha = ofBytes (Transcript.hashNg sha) := by
  have hN : numBytes N = 32 := by
    rw [numBytes_eq_iff N_bounds.2]
    exact le_trans (by norm_num) N_bounds.1.le
  have hg : numBytes g = 1 := by decide
  simp only [Srp6.hashNg, bigNumbers, List.flatMap_cons, List.flatMap_nil, List.append_nil,
    asByteArray_zero, toBytes, hN, hg]
  rfl

/-! ### Numbers of full width -/

section Full

variable {sha} {env : Env} {st : AuthSocket} {pkt : List UInt8} {row : AccountRow} {t : Secrets}

theorem serverInput_eq (t : Secrets) :
    serverInput sha t = toBytes (ofBytes (Transcript.hashNg sha)) ++ sha.digest t.login ++
      toBytesLen 32 t.s.val ++ toBytes (Transcript.A t) ++ toBytes (Transcript.B sha t) ++
      toBytes (serverK sha t) := by
  have hs : toBytes t.s.val = toBytesLen 32 t.s.val := by rw [toBytes, numBytes_salt]
  simp only [serverInput, proofInput, bigNumbers, List.flatMap_cons, List.flatMap_nil,
    List.append_nil, asByteArray_zero, hashNg_eq, hs, List.append_assoc]

theorem serverK_eq (t : Secrets) :
    serverK sha t = ofBytes (interleavedHash sha (asByteArray (serverShared sha t) 32)) := rfl

/-- Both sides have the shared value of the protocol if the public values have full width. -/
theorem shared_of_full (h : HonestChallenge sha env pkt row t)
    (hA : numBytes (Transcript.A t) = 32) (hB : numBytes (Transcript.B sha t) = 32) :
    serverShared sha t = Transcript.S sha t ∧
      clientShared sha t (challengeAnswer sha env st pkt) = Transcript.S sha t ∧
      replyB (challengeAnswer sha env st pkt) = Transcript.B sha t := by
  obtain ⟨hreplyS, hreplyB⟩ := @challengeAnswer_eq sha env st pkt row t h
  rw [asByteArray_of_full hB, ofBytes_toBytesLen (B_lt t)] at hreplyB
  refine ⟨?_, ?_, hreplyB⟩
  · have hu : scramble sha (Transcript.A t) (Transcript.B sha t) = Transcript.u sha t := by
      simp only [scramble, bigNumbers, List.flatMap_cons, List.flatMap_nil, List.append_nil,
        asByteArray_zero, toBytes, hA, hB]
      rfl
    rw [serverShared, hu]
    exact sharedS_of_powers _ _ _ _
  · rw [clientShared, hreplyS, hreplyB]
    exact clientS_of_publicB _ _ _ _

theorem client_of_full (h : HonestChallenge sha env pkt row t)
    (hA : numBytes (Transcript.A t) = 32) (hB : numBytes (Transcript.B sha t) = 32) :
    clientK sha t (challengeAnswer sha env st pkt) = Transcript.K sha t ∧
      sha.digest (clientInput sha t (challengeAnswer sha env st pkt)) = Transcript.M1 sha t := by
  obtain ⟨hreplyS, -⟩ := @challengeAnswer_eq sha env st pkt row t h
  obtain ⟨-, hS, hreplyB⟩ := @shared_of_full sha env st pkt row t h hA hB
  have hK : clientK sha t (challengeAnswer sha env st pkt) = Transcript.K sha t := by
    rw [clientK, hS, Transcript.K]
  refine ⟨hK, ?_⟩
  rw [clientInput, hK, hreplyS, hreplyB]
  rfl

theorem S_lt (t : Secrets) : Transcript.S sha t < 256 ^ 32 := by
  rw [Transcript.S, modExp_eq]
  exact (Nat.mod_lt _ N_prime.pos).trans N_bounds.2

theorem S_ne_zero (t : Secrets) : Transcript.S sha t ≠ 0 := modExp_g_ne_zero _

theorem length_K (t : Secrets) : (Transcript.K sha t).length = 39 + 1 :=
  length_interleavedHash sha _

theorem length_M1 (t : Secrets) : (Transcript.M1 sha t).length = 19 + 1 := sha.length_digest _

/-- An honest logon succeeds if no number of the protocol starts with a zero byte. -/
theorem honestLogon_succeeds (h : HonestChallenge sha env pkt row t) (hfull : NoShortNumber sha t) :
    Succeeds sha env st pkt t := by
  have hA := (numBytes_eq_iff (A_lt t)).2 hfull.A
  have hB := (numBytes_eq_iff (B_lt t)).2 hfull.B
  have hS := (numBytes_eq_iff (S_lt t)).2 hfull.S
  have hK := (numBytes_ofBytes_eq_iff (length_K t)).2 hfull.K
  have hNg := (numBytes_ofBytes_eq_iff (length_hashNg sha)).2 hfull.hashNg
  have hM1 := (numBytes_ofBytes_eq_iff (length_M1 t)).2 hfull.M1
  have hserverK : serverK sha t = ofBytes (Transcript.K sha t) := by
    rw [serverK_eq, (@shared_of_full sha env st pkt row t h hA hB).1, asByteArray_of_full hS]
    rfl
  have hserver : sha.digest (serverInput sha t) = Transcript.M1 sha t := by
    rw [serverInput_eq, hserverK, toBytes_ofBytes hK, toBytes_ofBytes hNg, toBytes, hA, toBytes, hB]
    rfl
  obtain ⟨hclientK, hclient⟩ := @client_of_full sha env st pkt row t h hA hB
  rw [succeeds_iff h]
  exact ⟨by rw [hserver, hclient], by rw [hserver, hM1, length_M1]; rfl, by rw [hserverK, hclientK]⟩

/-- The strings that the two sides hash on the way to the session key and to the proof. -/
def hashedStrings (sha : Sha1) (t : Secrets) (reply : List UInt8) : Set (List UInt8) :=
  {serverInput sha t, clientInput sha t reply,
    evens (asByteArray (serverShared sha t) 32), odds (asByteArray (serverShared sha t) 32),
    evens (toBytesLen 32 (clientShared sha t reply)),
    odds (toBytesLen 32 (clientShared sha t reply))}

/-- Two inputs of the proof are one string only if every number has its full width. -/
theorem full_of_input_eq {reply : List UInt8} (heq : serverInput sha t = clientInput sha t reply) :
    numBytes (ofBytes (Transcript.hashNg sha)) = 20 ∧ numBytes (Transcript.A t) = 32 ∧
      numBytes (Transcript.B sha t) = 32 ∧ numBytes (serverK sha t) = 40 := by
  have hlen := congrArg List.length heq
  simp only [serverInput_eq, clientInput, List.length_append, length_toBytes, length_toBytesLen,
    sha.length_digest, length_hashNg, clientK, length_interleavedHash] at hlen
  have hNg := numBytes_ofBytes_le (Transcript.hashNg sha)
  have hK := numBytes_ofBytes_le (interleavedHash sha (asByteArray (serverShared sha t) 32))
  rw [← serverK_eq] at hK
  rw [length_hashNg] at hNg
  rw [length_interleavedHash] at hK
  have hA := numBytes_le_iff.2 (A_lt t)
  have hB := numBytes_le_iff.2 (@B_lt sha t)
  omega

/-- Two equal session keys come from one string of the shared value, if nothing collides. -/
theorem shared_string_of_key_eq {l l' : List UInt8} {strings : Set (List UInt8)}
    (hinj : Set.InjOn sha.digest strings) (he : evens l ∈ strings) (ho : odds l ∈ strings)
    (he' : evens l' ∈ strings) (ho' : odds l' ∈ strings)
    (heq : ofBytes (interleavedHash sha l) = ofBytes (interleavedHash sha l')) : l = l' := by
  have hkey : interleavedHash sha l = interleavedHash sha l' :=
    ofBytes_inj (by rw [length_interleavedHash, length_interleavedHash]) heq
  obtain ⟨heven, hodd⟩ := interleave_inj (by rw [sha.length_digest, sha.length_digest])
    (by rw [sha.length_digest, sha.length_digest]) hkey
  exact eq_of_evens_odds (hinj he he' heven) (hinj ho ho' hodd)

/-- An honest logon succeeds only if no number of the protocol starts with a zero byte, or the hash
function collides on its strings. -/
theorem noShortNumber_of_succeeds (h : HonestChallenge sha env pkt row t)
    (hinj : Set.InjOn sha.digest (hashedStrings sha t (challengeAnswer sha env st pkt)))
    (hs : Succeeds sha env st pkt t) : NoShortNumber sha t := by
  obtain ⟨hdigest, hnum, hkey⟩ := (succeeds_iff h).1 hs
  have hinput := hinj (by simp [hashedStrings]) (by simp [hashedStrings]) hdigest
  obtain ⟨hNg, hA, hB, hK⟩ := full_of_input_eq hinput
  obtain ⟨hserverS, hclientS, -⟩ := @shared_of_full sha env st pkt row t h hA hB
  obtain ⟨hclientK, hclient⟩ := @client_of_full sha env st pkt row t h hA hB
  have hstring := shared_string_of_key_eq hinj (by simp [hashedStrings]) (by simp [hashedStrings])
    (by simp [hashedStrings]) (by simp [hashedStrings]) hkey
  rw [hserverS, hclientS, asByteArray_eq_toBytesLen_iff (S_ne_zero t) (S_lt t)] at hstring
  rw [hkey, hclientK] at hK
  rw [hdigest, hclient] at hnum
  exact ⟨(numBytes_eq_iff (A_lt t)).1 hA, (numBytes_eq_iff (B_lt t)).1 hB,
    (numBytes_eq_iff (S_lt t)).1 hstring,
    (numBytes_ofBytes_eq_iff (length_K t)).1 (hK.trans (length_K t).symm),
    (numBytes_ofBytes_eq_iff (length_hashNg sha)).1 (hNg.trans (length_hashNg sha).symm),
    (numBytes_ofBytes_eq_iff (length_M1 t)).1 (hnum.trans (length_M1 t).symm)⟩

/-- **Main result.** An honest logon succeeds if no number of the protocol starts with a zero byte,
and only then, unless the hash function collides on the strings of this logon. -/
theorem honestLogon_iff (h : HonestChallenge sha env pkt row t) (st : AuthSocket) :
    (NoShortNumber sha t → Succeeds sha env st pkt t) ∧
      (Set.InjOn sha.digest (hashedStrings sha t (challengeAnswer sha env st pkt)) →
        Succeeds sha env st pkt t → NoShortNumber sha t) :=
  ⟨honestLogon_succeeds h, noShortNumber_of_succeeds h⟩

end Full

/-- A hash function that keeps the length and the first bytes of a string. -/
def sampleSha : Sha1 where
  digest l := (UInt8.ofNat l.length :: (l ++ List.replicate 19 1)).take 20
  length_digest l := by
    rw [List.length_take, List.length_cons, List.length_append, List.length_replicate]
    exact Nat.min_eq_left (by omega)

/-- The logon of the account `A`, for a secret of the client. -/
def sampleSecrets (a : ℕ) : Secrets where
  login := [65]
  pw := List.replicate 20 7
  length_pw := List.length_replicate
  s := AuthSession.sampleEnv.randS
  b := AuthSession.sampleEnv.randB
  a := a

def sampleRow : AccountRow :=
  ⟨hexStr (List.replicate 20 7), 1, false, "", "127.0.0.1", 0, [], []⟩

def sampleEnv : Env :=
  { AuthSession.sampleEnv with
    account := fun login => if login = [65] then some sampleRow else none }

theorem honestChallenge_sample (a : ℕ) :
    HonestChallenge sampleSha sampleEnv (AuthSession.sampleChallenge 65).pkt sampleRow
      (sampleSecrets a) where
  success := by decide
  account := by rfl
  salt := .inl ⟨.inl (by decide), rfl, rfl⟩
  login := show [65] = challengeLogin (AuthSession.sampleChallenge 65).pkt by decide
  randB := rfl

theorem injOn_sample :
    Set.InjOn sampleSha.digest (hashedStrings sampleSha (sampleSecrets (2 ^ 151))
      (challengeAnswer sampleSha sampleEnv (AuthSocket.new 0 0)
        (AuthSession.sampleChallenge 65).pkt)) := by
  let t := sampleSecrets (2 ^ 151)
  let reply := challengeAnswer sampleSha sampleEnv (AuthSocket.new 0 0)
    (AuthSession.sampleChallenge 65).pkt
  let strings := [serverInput sampleSha t, clientInput sampleSha t reply,
    evens (asByteArray (serverShared sampleSha t) 32),
    odds (asByteArray (serverShared sampleSha t) 32),
    evens (toBytesLen 32 (clientShared sampleSha t reply)),
    odds (toBytesLen 32 (clientShared sampleSha t reply))]
  have hinj : ∀ l ∈ strings, ∀ l' ∈ strings, sampleSha.digest l = sampleSha.digest l' → l = l' := by
    decide +kernel
  have hmem : ∀ l ∈ hashedStrings sampleSha t reply, l ∈ strings := fun l hl => by
    simpa [hashedStrings, strings] using hl
  exact fun l hl l' hl' => hinj l (hmem l hl) l' (hmem l' hl')

theorem honestLogon_iff_sample :
    Succeeds sampleSha sampleEnv (AuthSocket.new 0 0) (AuthSession.sampleChallenge 65).pkt
        (sampleSecrets (2 ^ 151)) ∧
      NoShortNumber sampleSha (sampleSecrets (2 ^ 151)) := by
  obtain ⟨hif, honly⟩ := honestLogon_iff (honestChallenge_sample (2 ^ 151)) (AuthSocket.new 0 0)
  have hsucc := hif ⟨by decide +kernel, by decide +kernel, by decide +kernel, by decide +kernel,
    by decide +kernel, by decide +kernel⟩
  exact ⟨hsucc, honly injOn_sample hsucc⟩

/-- With the secret `2 ^ 151 + 1` the public value of the client has 31 bytes, and the honest proof
is refused. -/
theorem honestLogon_fails_for_short_A :
    HonestChallenge sampleSha sampleEnv (AuthSession.sampleChallenge 65).pkt sampleRow
        (sampleSecrets (2 ^ 151 + 1)) ∧
      Transcript.A (sampleSecrets (2 ^ 151 + 1)) ≠ 0 ∧
      ¬Succeeds sampleSha sampleEnv (AuthSocket.new 0 0) (AuthSession.sampleChallenge 65).pkt
        (sampleSecrets (2 ^ 151 + 1)) := by
  refine ⟨honestChallenge_sample _, modExp_g_ne_zero _, fun h => ?_⟩
  exact absurd (h sampleEnv).1 (by decide +kernel)

end FaceCore.HonestLogon
