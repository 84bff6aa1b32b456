import Mathlib.FieldTheory.Finite.Basic
import Mathlib.Data.ZMod.Basic
import Mathlib.Algebra.BigOperators.Associated
import Mathlib.Data.Nat.Prime.Int

/-!
# Modular powers and certificates of primality

`powMod` computes `b ^ e % m` by repeated squaring. `prime_of_certify` is Pocklington's criterion:
a number whose predecessor has enough known prime factors is prime if one base passes the test for
all of them, and `prime_of_certifyChain` goes up from small primes. The checks evaluate in the
kernel for numbers of some hundred bits.
-/

namespace Pocklington

/-- Repeated squaring over the `k` low bits of the exponent. -/
def powModBits (m : ℕ) : ℕ → ℕ → ℕ → ℕ
  | 0, _, _ => 1 % m
  | k + 1, b, e =>
    if e % 2 = 1 then b * powModBits m k (b * b % m) (e / 2) % m
    else powModBits m k (b * b % m) (e / 2)

/-- The modular power. -/
def powMod (b e m : ℕ) : ℕ := powModBits m (e.log2 + 1) b e

theorem powModBits_eq {m k b e : ℕ} (h : e < 2 ^ k) : powModBits m k b e = b ^ e % m := by
  induction k generalizing b e with
  | zero =>
    obtain rfl : e = 0 := by simpa using h
    rfl
  | succ k ih =>
    have hhalf : e / 2 < 2 ^ k := by
      rw [pow_succ] at h
      omega
    have hsq : powModBits m k (b * b % m) (e / 2) = b ^ (2 * (e / 2)) % m := by
      rw [ih hhalf, ← Nat.pow_mod, ← pow_two, ← pow_mul]
    rw [powModBits, hsq]
    split_ifs with hodd
    · rw [Nat.mul_mod_mod, ← pow_succ', show 2 * (e / 2) + 1 = e by omega]
    · rw [show 2 * (e / 2) = e by omega]

theorem powMod_eq (b e m : ℕ) : powMod b e m = b ^ e % m := powModBits_eq Nat.lt_log2_self

/-- The numerical part of a certificate: the base `a` and prime factors `ps` of `n - 1`. -/
def certify (n a : ℕ) (ps : List ℕ) : Bool :=
  1 < n && ps.Nodup && ps.all (· ∣ n - 1) && n < ps.prod ^ 2 && powMod a (n - 1) n == 1 &&
    ps.all fun p => Nat.gcd (powMod a ((n - 1) / p) n + (n - 1)) n == 1

/-- A prime factor of an exponent that kills `x` divides the order of `x`, unless the exponent
without this factor kills it too. -/
theorem dvd_orderOf {G : Type*} [Monoid G] {x : G} {m p : ℕ} (hp : p.Prime) (hpm : p ∣ m)
    (hone : x ^ m = 1) (hne : x ^ (m / p) ≠ 1) : p ∣ orderOf x := by
  by_contra hpo
  have hcop : Nat.Coprime (orderOf x) p := (hp.coprime_iff_not_dvd.2 hpo).symm
  have hord : orderOf x ∣ p * (m / p) := by
    rw [Nat.mul_div_cancel' hpm]
    exact orderOf_dvd_of_pow_eq_one hone
  exact hne (orderOf_dvd_iff_pow_eq_one.1 (hcop.dvd_of_dvd_mul_left hord))

/-- Pocklington's criterion. -/
theorem prime_of_certify {n : ℕ} (a : ℕ) (ps : List ℕ) (hps : ∀ p ∈ ps, p.Prime)
    (h : certify n a ps = true) : n.Prime := by
  simp only [certify, Bool.and_eq_true, decide_eq_true_eq, List.all_eq_true, beq_iff_eq,
    powMod_eq] at h
  obtain ⟨⟨⟨⟨⟨hn, hnodup⟩, hdvd⟩, hbig⟩, hone⟩, hgcd⟩ := h
  by_contra hnot
  -- a prime factor `s` of `n` with `s ^ 2 ≤ n`
  obtain ⟨s, hs, hsn, hsq⟩ : ∃ s, s.Prime ∧ s ∣ n ∧ s ^ 2 ≤ n :=
    ⟨n.minFac, Nat.minFac_prime (by omega), n.minFac_dvd, Nat.minFac_sq_le_self (by omega) hnot⟩
  have := Fact.mk hs
  have hcast : ∀ e, ((a ^ e % n : ℕ) : ZMod s) = (a : ZMod s) ^ e := by
    intro e
    rw [← Nat.cast_pow, ZMod.natCast_eq_natCast_iff]
    exact (Nat.mod_modEq _ _).of_dvd hsn
  have hpow : (a : ZMod s) ^ (n - 1) = 1 := by
    rw [← hcast, hone, Nat.cast_one]
  have hne : (a : ZMod s) ≠ 0 := by
    intro h0
    rw [h0, zero_pow (by omega)] at hpow
    exact zero_ne_one hpow
  -- every `p` divides the order of `a` modulo `s`, hence `s - 1`
  have hpd : ∀ p ∈ ps, p ∣ s - 1 := by
    intro p hp
    refine dvd_trans (dvd_orderOf (hps p hp) (hdvd p hp) hpow fun hone' => ?_)
      (ZMod.orderOf_dvd_card_sub_one hne)
    have hsdvd : s ∣ a ^ ((n - 1) / p) % n + (n - 1) := by
      rw [← ZMod.natCast_eq_zero_iff, Nat.cast_add, hcast, hone', Nat.cast_sub (by omega),
        (ZMod.natCast_eq_zero_iff n s).2 hsn, Nat.cast_one]
      ring
    have := Nat.dvd_gcd hsdvd hsn
    rw [hgcd p hp] at this
    exact hs.one_lt.ne' (Nat.dvd_one.1 this)
  have hprod : ps.prod ∣ s - 1 := by
    have hfin : ∏ p ∈ ps.toFinset, p ∣ s - 1 :=
      Finset.prod_primes_dvd _ (fun p hp => (hps p (List.mem_toFinset.1 hp)).prime)
        fun p hp => hpd p (List.mem_toFinset.1 hp)
    rwa [List.prod_toFinset _ hnodup, List.map_id'] at hfin
  have hlt : ps.prod < s := by
    have := Nat.le_of_dvd (by have := hs.two_le; omega) hprod
    have := hs.two_le
    omega
  have := Nat.pow_lt_pow_left hlt two_ne_zero
  omega

/-- Certificates `(n, a, ps)` in a row: the factors of each are known primes or were certified
before. -/
def certifyChain : List ℕ → List (ℕ × ℕ × List ℕ) → Bool
  | _, [] => true
  | known, (n, a, ps) :: cs =>
    ps.all (known.contains ·) && certify n a ps && certifyChain (n :: known) cs

theorem prime_of_certifyChain {known : List ℕ} {cs : List (ℕ × ℕ × List ℕ)}
    (hknown : ∀ p ∈ known, p.Prime) (h : certifyChain known cs = true) :
    ∀ c ∈ cs, c.1.Prime := by
  induction cs generalizing known with
  | nil => simp
  | cons c cs ih =>
    obtain ⟨n, a, ps⟩ := c
    simp only [certifyChain, Bool.and_eq_true, List.all_eq_true, List.contains_iff_mem] at h
    obtain ⟨⟨hps, hn⟩, hcs⟩ := h
    have hprime : n.Prime := prime_of_certify a ps (fun p hp => hknown p (hps p hp)) hn
    intro c hc
    obtain rfl | hc := List.mem_cons.1 hc
    · exact hprime
    · refine ih (fun p hp => ?_) hcs c hc
      obtain rfl | hp := List.mem_cons.1 hp
      · exact hprime
      · exact hknown p hp

end Pocklington
