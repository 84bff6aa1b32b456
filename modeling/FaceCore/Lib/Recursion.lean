import Mathlib.Data.Fintype.Card
import Mathlib.Data.Set.Finite.Lattice
import Mathlib.Logic.Relation

/-!
# Recursion along a finite graph

A function that calls itself along the edges of a graph `r` is computed with a depth of recursion:
`halts n a` says that depth `n` is enough at the node `a`. When edges lead into a finite set, some
depth is enough everywhere if and only if there is no cycle.

* `wellFounded_of_no_cycle`: without a cycle the edges cannot be followed for ever;
* `exists_halts`: then some depth is enough;
* `exists_rank`: and the nodes can be numbered so that edges lead to smaller numbers;
* `not_halts_of_cycle`: on a cycle no depth is.
-/

namespace Recursion

variable {α : Type*} {r : α → α → Prop} {halts : ℕ → α → Prop}

/-- A graph whose edges lead into a finite set, without a cycle. -/
theorem wellFounded_of_no_cycle {s : Set α} (hs : s.Finite) (hr : ∀ a b, r a b → b ∈ s)
    (h : ∀ a, ¬ Relation.TransGen r a a) : WellFounded (flip r) := by
  have : Finite s := hs
  let closure : s → s → Prop := fun a b => Relation.TransGen r b.1 a.1
  have : IsTrans s closure := ⟨fun _ _ _ hab hbc => hbc.trans hab⟩
  have : Std.Irrefl closure := ⟨fun a => h a.1⟩
  have hwf : WellFounded closure := Finite.wellFounded_of_trans_of_irrefl closure
  have hacc : ∀ b : s, Acc (flip r) b.1 := by
    intro b
    induction b using hwf.induction with
    | _ b ih =>
      exact Acc.intro _ fun c hc => ih ⟨c, hr b.1 c hc⟩ (Relation.TransGen.single hc)
  exact ⟨fun a => Acc.intro a fun b hb => hacc ⟨b, hr a b hb⟩⟩

theorem halts_mono (hmono : ∀ n a, halts n a → halts (n + 1) a) {m n : ℕ} {a : α} (hle : m ≤ n)
    (h : halts m a) : halts n a := by
  induction n, hle using Nat.le_induction with
  | base => exact h
  | succ n _ ih => exact hmono n a ih

/-- A node halts one level above a depth that is enough for all nodes it calls. -/
theorem exists_halts {s : Set α} (hs : s.Finite) (hr : ∀ a b, r a b → b ∈ s)
    (hmono : ∀ n a, halts n a → halts (n + 1) a)
    (hstep : ∀ n a, (∀ b, r a b → halts n b) → halts (n + 1) a)
    (h : ∀ a, ¬ Relation.TransGen r a a) (a : α) : ∃ n, halts n a := by
  induction a using (wellFounded_of_no_cycle hs hr h).induction with
  | _ a ih =>
  have hdepth : ∀ b, ∃ n, r a b → halts n b := by
    intro b
    by_cases hab : r a b
    · exact (ih b hab).imp fun n hn _ => hn
    · exact ⟨0, fun hab' => absurd hab' hab⟩
  choose depth hdepth using hdepth
  obtain ⟨n, hn⟩ := (hs.image depth).bddAbove
  refine ⟨n + 1, hstep n a fun b hab => halts_mono hmono ?_ (hdepth b hab)⟩
  exact hn (Set.mem_image_of_mem depth (hr a b hab))

/-- No path from `a` has `n` edges. -/
def Within (r : α → α → Prop) : ℕ → α → Prop
  | 0, _ => False
  | n + 1, a => ∀ b, r a b → Within r n b

theorem Within.succ {n : ℕ} {a : α} (h : Within r n a) : Within r (n + 1) a := by
  induction n generalizing a with
  | zero => exact h.elim
  | succ n ih => exact fun b hab => ih (h b hab)

/-- Without a cycle the nodes have ranks that go down along the edges. -/
theorem exists_rank {s : Set α} (hs : s.Finite) (hr : ∀ a b, r a b → b ∈ s)
    (h : ∀ a, ¬ Relation.TransGen r a a) : ∃ rank : α → ℕ, ∀ a b, r a b → rank b < rank a := by
  classical
  have hex : ∀ a, ∃ n, Within r n a :=
    exists_halts hs hr (fun _ _ h => h.succ) (fun _ _ h => h) h
  refine ⟨fun a => Nat.find (hex a), fun a b hab => ?_⟩
  have ha := Nat.find_spec (hex a)
  cases hn : Nat.find (hex a) with
  | zero =>
    rw [hn] at ha
    exact ha.elim
  | succ n =>
    rw [hn] at ha
    have hle : Nat.find (hex b) ≤ n := Nat.find_min' (hex b) (ha b hab)
    show Nat.find (hex b) < Nat.find (hex a)
    omega

/-- The first edge of a cycle leads to a node that is on it, too. -/
theorem exists_next_of_cycle {a : α} (h : Relation.TransGen r a a) :
    ∃ b, r a b ∧ Relation.TransGen r b b := by
  obtain ⟨b, hab, hba⟩ := Relation.TransGen.head'_iff.1 h
  exact ⟨b, hab, Relation.TransGen.tail' hba hab⟩

/-- On a cycle a node that halts would need another one that halts with less depth. -/
theorem not_halts_of_cycle (hzero : ∀ a, ¬ halts 0 a)
    (hstep : ∀ n a b, r a b → halts (n + 1) a → halts n b) {a : α} (h : Relation.TransGen r a a)
    (n : ℕ) : ¬ halts n a := by
  induction n generalizing a with
  | zero => exact hzero a
  | succ n ih =>
    obtain ⟨b, hab, hb⟩ := exists_next_of_cycle h
    exact fun hhalts => ih hb (hstep n a b hab hhalts)

end Recursion
