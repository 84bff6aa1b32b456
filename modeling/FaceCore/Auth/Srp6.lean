import FaceCore.Auth.BigNumber
import Mathlib.Tactic.NormNum.Prime

/-!
# The SRP6 computations of the authentication server

The group of the constructor `AuthSocket::AuthSocket` and the numbers that the logon handlers
compute in it. SHA-1 is a parameter: a function into strings of twenty bytes.

* `N_prime`: the modulus is a prime;
* `sharedS_ne_zero`: the shared value of a client value that is not a multiple of `N`;
* `safeguard_suffices_iff`: the safeguard of `_HandleLogonProof` against degenerate client values
  does what it is for exactly when the client value is not `N` itself.
-/

namespace FaceCore.Srp6

open BigNumber LittleEndian

/-- `N.SetHexStr("894B645E...")`. -/
def N : ℕ := 0x894B645E89E1535BBDAD5B8B290650530801B18EBFBF5E8FAB3C82872A3E9BB7

/-- `g.SetDword(7)`. -/
def g : ℕ := 7

/-- `SHA_DIGEST_LENGTH`. -/
def shaDigestLength : ℕ := 20

/-- `s_BYTE_SIZE`. -/
def sByteSize : ℕ := 32

/-- A hash function with digests of twenty bytes. -/
structure Sha1 where
  digest : List UInt8 → List UInt8
  length_digest : ∀ l, (digest l).length = shaDigestLength

/-- What `SHA1Hash::UpdateBigNumbers` feeds to the hash. -/
def bigNumbers (ns : List ℕ) : List UInt8 := ns.flatMap (asByteArray · 0)

variable (sha : Sha1)

/-- `mDigest` of `_SetVSFields`: the stored password hash, with its leading zeros. -/
def mDigest (I : ℕ) : List UInt8 :=
  let digest :=
    if getNumBytes I ≤ shaDigestLength then
      asByteArray I 0 ++ List.replicate (shaDigestLength - getNumBytes I) 0
    else List.replicate shaDigestLength 0
  digest.reverse

/-- The private key `x` of `_SetVSFields`. -/
def privateX (s I : ℕ) : ℕ := setBinary (sha.digest (asByteArray s 0 ++ mDigest I))

/-- The verifier. -/
def verifier (x : ℕ) : ℕ := modExp g x N

/-- The public value of the server. -/
def publicB (v b : ℕ) : ℕ := (v * 3 + modExp g b N) % N

/-- The scrambling value. -/
def scramble (A B : ℕ) : ℕ := setBinary (sha.digest (bigNumbers [A, B]))

/-- The shared value. -/
def sharedS (A v u b : ℕ) : ℕ := modExp (A * modExp v u N) b N

/-- `A.isZero()`, the safeguard of `_HandleLogonProof`. -/
def safeguard (A : ℕ) : Bool := A == 0

/-- The bytes of even index, and those of odd index. -/
def evens : List UInt8 → List UInt8
  | [] => []
  | [a] => [a]
  | a :: _ :: l => a :: evens l

def odds : List UInt8 → List UInt8
  | [] => []
  | [_] => []
  | _ :: b :: l => b :: odds l

/-- Two strings, byte by byte in turn. -/
def interleave : List UInt8 → List UInt8 → List UInt8
  | a :: as, b :: bs => a :: b :: interleave as bs
  | _, _ => []

/-- `vK`, from the 32 bytes `t` of the shared value. -/
def interleavedHash (t : List UInt8) : List UInt8 :=
  interleave (sha.digest (evens t)) (sha.digest (odds t))

/-- The session key. -/
def sessionK (S : ℕ) : ℕ := setBinary (interleavedHash sha (asByteArray S 32))

/-- `t3`, from the hashes of `N` and `g`. -/
def hashNg : ℕ :=
  setBinary (List.zipWith (· ^^^ ·) (sha.digest (bigNumbers [N])) (sha.digest (bigNumbers [g])))

/-- What is hashed for the proof `M` of the client. -/
def proofInput (login : List UInt8) (s A B K : ℕ) : List UInt8 :=
  bigNumbers [hashNg sha] ++ sha.digest login ++ bigNumbers [s, A, B, K]

/-- The proof `M` that the server expects. -/
def proofM (login : List UInt8) (s A B K : ℕ) : ℕ :=
  setBinary (sha.digest (proofInput sha login s A B K))

/-! ### The modulus -/

/-- Certificates up to the modulus: `(N - 1) / 2` is a prime too, and the large factor of
`(N - 1) / 2 - 1` is the one before it. -/
def certificates : List (ℕ × ℕ × List ℕ) :=
  [(2194081313, 2, [6079, 11279]),
    (6099546050141, 2, [2194081313]),
    (1573682880936379, 2, [6099546050141]),
    (3345116454683, 2, [6993499]),
    (2279079126837977412406933585396045119937459, 2, [1573682880936379, 3345116454683]),
    (31050033254578008671034748070451474931624879168000398464283220585146864324059, 2,
      [2279079126837977412406933585396045119937459]),
    (N, 2, [31050033254578008671034748070451474931624879168000398464283220585146864324059])]

/-- The modulus is a prime. -/
theorem N_prime : N.Prime := by
  have hknown : ∀ p ∈ [6079, 11279, 6993499], p.Prime := by
    simp only [List.forall_mem_cons, List.not_mem_nil, false_imp_iff, implies_true, and_true]
    norm_num
  have hchain : Pocklington.certifyChain [6079, 11279, 6993499] certificates = true := by
    decide +kernel
  have hne : certificates ≠ [] := by simp [certificates]
  exact Pocklington.prime_of_certifyChain hknown hchain _ (List.getLast_mem hne)

theorem N_bounds : 2 ^ 255 < N ∧ N < 256 ^ 32 := by norm_num [N]

/-! ### The shared value -/

theorem sharedS_eq (A v u b : ℕ) : sharedS A v u b = (A * v ^ u) ^ b % N := by
  rw [sharedS, modExp_eq, modExp_eq, Nat.pow_mod, Nat.mul_mod_mod, ← Nat.pow_mod]

/-- A client value that is a multiple of `N` makes the shared value zero. -/
theorem sharedS_eq_zero {A : ℕ} (hA : N ∣ A) (v u : ℕ) {b : ℕ} (hb : 0 < b) :
    sharedS A v u b = 0 := by
  rw [sharedS_eq]
  exact Nat.mod_eq_zero_of_dvd (dvd_pow (hA.mul_right _) hb.ne')

theorem sharedS_ne_zero {A v : ℕ} (hA : ¬N ∣ A) (hv : ¬N ∣ v) (u b : ℕ) :
    sharedS A v u b ≠ 0 := by
  rw [sharedS_eq]
  intro h
  rcases N_prime.dvd_mul.1 (N_prime.dvd_of_dvd_pow (Nat.dvd_of_mod_eq_zero h)) with h | h
  · exact hA h
  · exact hv (N_prime.dvd_of_dvd_pow h)

theorem sharedS_one_ne_two {A : ℕ} (hA : ¬N ∣ A) : sharedS A 1 1 1 ≠ sharedS A 2 1 1 := by
  rw [sharedS_eq, sharedS_eq, pow_one, pow_one, pow_one, pow_one]
  intro h
  have hmod : A * 1 ≡ A * 2 [MOD N] := h
  have hcop : Nat.gcd N A = 1 := (N_prime.coprime_iff_not_dvd).2 hA
  have h12 : 1 ≡ 2 [MOD N] := Nat.ModEq.cancel_left_of_coprime hcop hmod
  have hN := N_bounds.1
  have := h12.eq_of_lt_of_lt (by omega) (by omega)
  omega

/-- Of the strings of 32 bytes, those of zero and of `N` stand for the multiples of `N`. -/
theorem dvd_iff_of_lt {A : ℕ} (hlt : A < 256 ^ 32) (h0 : A ≠ 0) : N ∣ A ↔ A = N := by
  constructor
  · rintro ⟨k, rfl⟩
    have hN := N_bounds.1
    have hk : k < 2 := by
      by_contra hk
      have : N * 2 ≤ N * k := Nat.mul_le_mul_left N (by omega)
      omega
    interval_cases k
    · simp at h0
    · exact Nat.mul_one N
  · rintro rfl
    exact dvd_rfl

/-- The shared value can be foretold: it is the same for all verifiers, scrambling values and
secrets of the server. -/
def Foretold (A : ℕ) : Prop :=
  ∃ c, ∀ v u b, 0 < v → v < N → 0 < u → 0 < b → sharedS A v u b = c

/-- The shared value is never zero. -/
def NeverZero (A : ℕ) : Prop :=
  ∀ v u b, 0 < v → v < N → 0 < u → 0 < b → sharedS A v u b ≠ 0

/-- **Main result.** Let a client value of 32 bytes pass the safeguard. Then its shared value cannot
be foretold and is never zero exactly when the client value is not `N`. -/
theorem safeguard_suffices_iff (A : List UInt8) (hlen : A.length = 32)
    (hpass : safeguard (setBinary A) = false) :
    (¬Foretold (setBinary A) ∧ NeverZero (setBinary A)) ↔ setBinary A ≠ N := by
  have hlt : setBinary A < 256 ^ 32 := hlen ▸ ofBytes_lt A
  have h0 : setBinary A ≠ 0 := by simpa [safeguard] using hpass
  rw [Ne, ← dvd_iff_of_lt hlt h0]
  have hN : 2 < N := by
    have := N_bounds.1
    omega
  constructor
  · rintro ⟨-, hne⟩ hdvd
    exact hne 1 1 1 one_pos (by omega) one_pos one_pos (sharedS_eq_zero hdvd 1 1 one_pos)
  · intro hdvd
    refine ⟨fun ⟨c, hc⟩ => ?_, fun v u b hv hvN _ _ => ?_⟩
    · refine sharedS_one_ne_two hdvd ?_
      rw [hc 1 1 1 one_pos (by omega) one_pos one_pos, hc 2 1 1 two_pos (by omega) one_pos one_pos]
    · exact sharedS_ne_zero hdvd (Nat.not_dvd_of_pos_of_lt hv hvN) u b

/-- The client value 2 is safe. -/
theorem safeguard_suffices_two :
    ¬Foretold (setBinary (toBytesLen 32 2)) ∧ NeverZero (setBinary (toBytesLen 32 2)) := by
  have htwo : setBinary (toBytesLen 32 2) = 2 := ofBytes_toBytesLen (by norm_num)
  refine (safeguard_suffices_iff (toBytesLen 32 2) (length_toBytesLen 32 2) ?_).2 ?_
  · rw [htwo]
    rfl
  · rw [htwo]
    norm_num [N]

/-- The client value `N` passes the safeguard, and its shared value is zero whatever the verifier
and the secret are. -/
theorem safeguard_misses_N :
    safeguard (setBinary (toBytesLen 32 N)) = false ∧ Foretold (setBinary (toBytesLen 32 N)) ∧
      ¬NeverZero (setBinary (toBytesLen 32 N)) := by
  have hN : setBinary (toBytesLen 32 N) = N := ofBytes_toBytesLen N_bounds.2
  have hone : 1 < N := N_prime.one_lt
  rw [hN]
  refine ⟨?_, ⟨0, fun v u b _ _ _ hb => sharedS_eq_zero dvd_rfl v u hb⟩, fun h => ?_⟩
  · simp [safeguard, N_prime.ne_zero]
  · exact h 1 1 1 one_pos hone one_pos one_pos (sharedS_eq_zero dvd_rfl 1 1 one_pos)

end FaceCore.Srp6
