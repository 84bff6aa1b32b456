import Mathlib.Logic.Relation
import Mathlib.Algebra.Order.Monoid.Unbundled.Basic
import Mathlib.Algebra.Ring.Nat

/-!
# Forests

Nodes with at most one mother each, and no cycles: the level of a node is below that of its mother.

* `Below a b`: `a` is `b`, or a descendant of it;
* `not_below_child`, `not_below_sibling`: what a recursion into one child leaves alone.
-/

/-- A forest on the nodes `κ`. -/
structure Forest (κ : Type*) where
  mother : κ → Option κ
  level : κ → ℕ
  level_lt : ∀ {a b}, mother a = some b → level a < level b

namespace Forest

variable {κ : Type*} {F : Forest κ} {a b c m t : κ}

/-- `a` is in the tree under `b`. -/
def Below (F : Forest κ) (a b : κ) : Prop :=
  Relation.ReflTransGen (fun a b => F.mother a = some b) a b

theorem below_refl (F : Forest κ) (a : κ) : F.Below a a := Relation.ReflTransGen.refl

theorem Below.to_mother (h : F.Below a c) (hc : F.mother c = some m) : F.Below a m :=
  Relation.ReflTransGen.tail h hc

theorem Below.level_le (h : F.Below a b) : F.level a ≤ F.level b := by
  induction h with
  | refl => exact le_rfl
  | tail _ hstep ih => exact ih.trans (F.level_lt hstep).le

/-- A mother is not in the tree under her child. -/
theorem not_below_child (hc : F.mother c = some m) : ¬ F.Below m c := by
  intro h
  have hle := h.level_le
  have hlt := F.level_lt hc
  omega

/-- Two children of one mother are not in the trees of each other. -/
theorem not_below_sibling (hc : F.mother c = some m) (ht : F.mother t = some m) (hne : t ≠ c) :
    ¬ F.Below t c := by
  intro h
  rcases Relation.ReflTransGen.cases_head h with rfl | ⟨m', hm', hbelow⟩
  · exact hne rfl
  · obtain rfl := Option.some.inj (ht.symm.trans hm')
    exact not_below_child hc hbelow

end Forest
