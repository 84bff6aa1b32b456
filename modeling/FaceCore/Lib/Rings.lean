import Mathlib.Data.Finset.Card
import Mathlib.Data.List.Infix
import Mathlib.Logic.Relation

/-!
# Rings of a partial map

A partial map `next : α → Option α` is followed from a node until it ends, or until it comes back to
a node that was visited. The last node before that closes a ring, and its link can be cut.

* `Leads`, `OnRing`: following the map, and coming back;
* `Turn`, `Closes`: a walk that remembers what it visited, and the node at which it closes a ring;
* `closing`: the walk as a program, with `closing_eq_some_iff`;
* `cut`, `Chosen`: the map without some links, and the links that close a ring for the first time
  when the walk is started from the nodes of a list, one after the other;
* `Cut.closes_iff`: the walk after the links chosen so far are cut;
* `exists_chosen`: every ring has a chosen link if one of its nodes is in the list.
-/

namespace Rings

variable {α : Type*} {next g : α → Option α} {a b c i x y : α}

/-- `next` leads from one node to the other. -/
abbrev Link (next : α → Option α) (a b : α) : Prop := next a = some b

abbrev Leads (next : α → Option α) : α → α → Prop := Relation.ReflTransGen (Link next)

abbrev OnRing (next : α → Option α) (a : α) : Prop := Relation.TransGen (Link next) a a

theorem rightUnique (next : α → Option α) : Relator.RightUnique (Link next) :=
  fun _ _ _ hb hc => Option.some.inj (hb.symm.trans hc)

theorem OnRing.exists_next (h : OnRing next a) : ∃ b, next a = some b ∧ Leads next b a :=
  Relation.TransGen.head'_iff.1 h

/-- Where a ring leads, it comes back from. -/
theorem OnRing.leads_back (h : OnRing next a) (hx : Leads next a x) : Leads next x a := by
  induction hx with
  | refl => exact .refl
  | @tail y x _ hyx ih =>
    rcases Relation.ReflTransGen.cases_head ih with rfl | ⟨z, hyz, hz⟩
    · obtain ⟨z, hyz, hz⟩ := h.exists_next
      exact rightUnique next hyz hyx ▸ hz
    · exact rightUnique next hyz hyx ▸ hz

theorem OnRing.of_leads (h : OnRing next a) (hx : Leads next a x) : OnRing next x :=
  (h.trans_left hx).trans_right (h.leads_back hx)

theorem OnRing.leads_of_leads (hb : OnRing next b) (hia : Leads next i a)
    (hib : Leads next i b) : Leads next a b := by
  rcases Relation.ReflTransGen.total_of_right_unique (rightUnique next) hia hib with h | h
  · exact h
  · exact hb.leads_back h

/-- The way from a node that leads to a ring does not end. -/
theorem ne_none_of_leads (ha : OnRing next a) (hia : Leads next i a) (hx : Leads next i x) :
    next x ≠ none := by
  have hgo : ∀ y, OnRing next y → next y ≠ none := by
    intro y hy hnone
    obtain ⟨z, hyz, -⟩ := hy.exists_next
    rw [hnone] at hyz
    cases hyz
  rcases Relation.ReflTransGen.total_of_right_unique (rightUnique next) hia hx with h | h
  · exact hgo x (ha.of_leads h)
  · rcases Relation.ReflTransGen.cases_head h with rfl | ⟨y, hxy, -⟩
    · exact hgo x ha
    · intro hnone
      rw [Link, hnone] at hxy
      cases hxy

/-! ### The walk -/

/-- A turn of the walk, with the nodes that were visited before: the next node is a new one. -/
def Turn (next : α → Option α) (p q : List α × α) : Prop :=
  next p.2 = some q.2 ∧ q.2 ∉ p.2 :: p.1 ∧ q.1 = p.2 :: p.1

abbrev Walks (next : α → Option α) : List α × α → List α × α → Prop :=
  Relation.ReflTransGen (Turn next)

/-- The walk from `p` comes to `c`, whose link leads back to a node that was visited. -/
def ClosesFrom (next : α → Option α) (p : List α × α) (c : α) : Prop :=
  ∃ seen m, Walks next p (seen, c) ∧ next c = some m ∧ m ∈ c :: seen

/-- The walk from `i` closes a ring at `c`. -/
def Closes (next : α → Option α) (i c : α) : Prop := ClosesFrom next ([], i) c

/-- What the walk from `i` visits leads to where it is, and `i` leads to it. -/
theorem Walks.leads {q : List α × α} (h : Walks next ([], i) q) :
    ∀ x ∈ q.2 :: q.1, Leads next i x ∧ Leads next x q.2 := by
  induction h with
  | refl =>
    intro x hx
    obtain rfl := List.mem_singleton.1 hx
    exact ⟨.refl, .refl⟩
  | @tail p q _ hpq ih =>
    obtain ⟨hnext, -, hseen⟩ := hpq
    intro x hx
    rcases List.mem_cons.1 hx with rfl | hx
    · exact ⟨(ih p.2 List.mem_cons_self).1.tail hnext, .refl⟩
    · rw [hseen] at hx
      exact ⟨(ih x hx).1, (ih x hx).2.tail hnext⟩

theorem Walks.congr {q : List α × α} (h : Walks next ([], i) q) (heq : ∀ x ∈ q.1, g x = next x) :
    Walks g ([], i) q := by
  induction h with
  | refl => exact .refl
  | @tail p q _ hpq ih =>
    obtain ⟨hnext, hnew, hseen⟩ := hpq
    rw [hseen] at heq
    refine (ih fun x hx => heq x (List.mem_cons_of_mem _ hx)).tail ⟨?_, hnew, hseen⟩
    exact (heq p.2 List.mem_cons_self).trans hnext

theorem Walks.mono (hle : ∀ x y, g x = some y → next x = some y) {q : List α × α}
    (h : Walks g ([], i) q) : Walks next ([], i) q :=
  Relation.ReflTransGen.mono (fun p q hpq => ⟨hle p.2 q.2 hpq.1, hpq.2⟩) _ _ h

theorem Closes.leads (h : Closes next i c) : Leads next i c := by
  obtain ⟨seen, m, hwalk, -, -⟩ := h
  exact (hwalk.leads c List.mem_cons_self).1

theorem Closes.onRing (h : Closes next i c) : OnRing next c := by
  obtain ⟨seen, m, hwalk, hnext, hm⟩ := h
  exact Relation.TransGen.head' hnext (hwalk.leads m hm).2

/-- A turn later: the walk closes here, or it goes on. -/
theorem closesFrom_iff {seen : List α} :
    ClosesFrom next (seen, a) c ↔
      ∃ b, next a = some b ∧
        ((b ∈ a :: seen ∧ c = a) ∨ (b ∉ a :: seen ∧ ClosesFrom next (a :: seen, b) c)) := by
  constructor
  · rintro ⟨seen', m, hwalk, hnext, hm⟩
    rcases Relation.ReflTransGen.cases_head hwalk with heq | ⟨⟨_, b⟩, ⟨hab, hnew, rfl⟩, hwalk⟩
    · obtain ⟨rfl, rfl⟩ := Prod.mk.inj heq
      exact ⟨m, hnext, .inl ⟨hm, rfl⟩⟩
    · exact ⟨b, hab, .inr ⟨hnew, seen', m, hwalk, hnext, hm⟩⟩
  · rintro ⟨b, hab, ⟨hb, rfl⟩ | ⟨hnew, seen', m, hwalk, hnext, hm⟩⟩
    · exact ⟨seen, b, .refl, hab, hb⟩
    · exact ⟨seen', m, .head ⟨hab, hnew, rfl⟩ hwalk, hnext, hm⟩

/-- The walk: the node at which it closes a ring. The number bounds its turns. -/
def closing [DecidableEq α] (next : α → Option α) : ℕ → List α → α → Option α
  | 0, _, _ => none
  | n + 1, seen, a =>
    match next a with
    | none => none
    | some b => if b ∈ a :: seen then some a else closing next n (a :: seen) b

section Finite

variable {s : Finset α}

/-- A walk that remembers different nodes of a finite set, and has turns enough for the rest. -/
structure Fits (s : Finset α) (n : ℕ) (seen : List α) (a : α) : Prop where
  nodup : (a :: seen).Nodup
  subset : ∀ x ∈ seen, x ∈ s
  turns : s.card < n + seen.length

theorem Fits.not_zero [DecidableEq α] {seen : List α} (h : Fits s 0 seen a) : False := by
  have hle : seen.toFinset.card ≤ s.card :=
    Finset.card_le_card fun x hx => h.subset x (List.mem_toFinset.1 hx)
  rw [List.toFinset_card_of_nodup (List.nodup_cons.1 h.nodup).2] at hle
  have hturns := h.turns
  omega

theorem Fits.turn {n : ℕ} {seen : List α} (h : Fits s (n + 1) seen a) (ha : a ∈ s)
    (hb : b ∉ a :: seen) : Fits s n (a :: seen) b where
  nodup := List.nodup_cons.2 ⟨hb, h.nodup⟩
  subset := List.forall_mem_cons.2 ⟨ha, h.subset⟩
  turns := by
    have hturns := h.turns
    rw [List.length_cons]
    omega

/-- The program finds the node at which the walk closes a ring. -/
theorem closing_eq_some_iff [DecidableEq α] (hs : ∀ x y, next x = some y → x ∈ s) {n : ℕ} {seen : List α}
    (h : Fits s n seen a) : closing next n seen a = some c ↔ ClosesFrom next (seen, a) c := by
  induction n generalizing seen a with
  | zero => exact h.not_zero.elim
  | succ n ih =>
    rw [closesFrom_iff, closing]
    cases hab : next a with
    | none => simp
    | some b =>
      simp only [Option.some.injEq, exists_eq_left']
      split_ifs with hb
      · simp [hb, eq_comm]
      · rw [ih (h.turn (hs a b hab) hb)]
        simp [hb]

/-- A walk whose way does not end closes a ring. -/
theorem exists_closesFrom [DecidableEq α] (hs : ∀ x y, next x = some y → x ∈ s) {n : ℕ} {seen : List α}
    (h : Fits s n seen a) (hgo : ∀ x, Leads next a x → next x ≠ none) :
    ∃ c, ClosesFrom next (seen, a) c := by
  induction n generalizing seen a with
  | zero => exact h.not_zero.elim
  | succ n ih =>
    obtain ⟨b, hab⟩ := Option.ne_none_iff_exists'.1 (hgo a .refl)
    by_cases hb : b ∈ a :: seen
    · exact ⟨a, closesFrom_iff.2 ⟨b, hab, .inl ⟨hb, rfl⟩⟩⟩
    · obtain ⟨c, hc⟩ := ih (h.turn (hs a b hab) hb) fun x hx => hgo x (.head hab hx)
      exact ⟨c, closesFrom_iff.2 ⟨b, hab, .inr ⟨hb, hc⟩⟩⟩

theorem fits_start (s : Finset α) (a : α) {n : ℕ} (hn : s.card < n) : Fits s n [] a :=
  ⟨List.nodup_singleton a, fun _ hx => absurd hx List.not_mem_nil, hn⟩

/-- A node that leads to a ring has a walk that closes this ring. -/
theorem exists_closes [DecidableEq α] (hs : ∀ x y, next x = some y → x ∈ s) (ha : OnRing next a)
    (hia : Leads next i a) : ∃ c, Closes next i c :=
  exists_closesFrom hs (fits_start s i (Nat.lt_succ_self _)) fun _ => ne_none_of_leads ha hia

end Finite

/-! ### Cutting links -/

/-- `g` is the map without the links of the nodes in `K`. -/
structure Cut (next : α → Option α) (K : α → Prop) (g : α → Option α) : Prop where
  gone : ∀ a, K a → g a = none
  kept : ∀ a, ¬ K a → g a = next a

/-- The links that are cut when a walk is started from each node of a list: the walk from `i` closes
a ring at `c`, and no node before `i` leads to this ring. -/
def Chosen (next : α → Option α) (starts : List α) (c : α) : Prop :=
  ∃ pre i, pre ++ [i] <+: starts ∧ Closes next i c ∧ ∀ j ∈ pre, ¬ Leads next j c

theorem Cut.mono {K : α → Prop} (h : Cut next K g) (hab : g a = some b) : next a = some b := by
  by_cases hK : K a
  · rw [h.gone a hK] at hab
    cases hab
  · rw [← h.kept a hK]
    exact hab

theorem Cut.update [DecidableEq α] {K : α → Prop} (h : Cut next K g) (c : α) :
    Cut next (fun a => K a ∨ a = c) (Function.update g c none) where
  gone := by
    rintro a (hK | rfl)
    · rw [Function.update_apply, h.gone a hK, ite_self]
    · exact Function.update_self ..
  kept := by
    intro a hK
    rw [not_or] at hK
    rw [Function.update_of_ne hK.2, h.kept a hK.1]

theorem Cut.congr {K K' : α → Prop} (h : Cut next K g) (hK : ∀ a, K a ↔ K' a) : Cut next K' g :=
  (funext fun a => propext (hK a) : K = K') ▸ h

theorem chosen_concat {starts : List α} : Chosen next (starts ++ [i]) c ↔
    Chosen next starts c ∨ (Closes next i c ∧ ∀ j ∈ starts, ¬ Leads next j c) := by
  constructor
  · rintro ⟨pre, k, hpre, hclose, hfirst⟩
    rcases List.prefix_concat_iff.1 hpre with heq | hpre
    · obtain ⟨rfl, hk⟩ := List.append_inj' heq rfl
      obtain rfl := (List.cons.inj hk).1
      exact .inr ⟨hclose, hfirst⟩
    · exact .inl ⟨pre, k, hpre, hclose, hfirst⟩
  · rintro (⟨pre, k, hpre, h⟩ | h)
    · exact ⟨pre, k, hpre.trans (List.prefix_append _ _), h⟩
    · exact ⟨starts, i, List.prefix_rfl, h⟩

/-- A ring of the map after a cut is a ring that was there, whole. -/
theorem Cut.onRing {K : α → Prop} (h : Cut next K g) (hc : OnRing g c) (hx : Leads next c x) :
    ¬ K x := by
  have key : OnRing g x := by
    induction hx with
    | refl => exact hc
    | @tail y x _ hyx ih =>
      obtain ⟨z, hyz, hz⟩ := ih.exists_next
      obtain rfl : z = x := rightUnique next (h.mono hyz) hyx
      exact ih.of_leads (.single hyz)
  intro hK
  obtain ⟨z, hxz, -⟩ := key.exists_next
  rw [h.gone x hK] at hxz
  cases hxz

/-- The first of the nodes of a list with a property. -/
theorem exists_first {p : α → Prop} {l : List α} (h : ∃ x ∈ l, p x) :
    ∃ pre x, pre ++ [x] <+: l ∧ p x ∧ ∀ y ∈ pre, ¬ p y := by
  classical
  obtain ⟨y, hy, hpy⟩ := h
  have hsome : (l.find? fun x => decide (p x)).isSome :=
    List.find?_isSome.2 ⟨y, hy, decide_eq_true hpy⟩
  obtain ⟨x, hx⟩ := Option.isSome_iff_exists.1 hsome
  obtain ⟨hpx, pre, suf, rfl, hpre⟩ := List.find?_eq_some_iff_append.1 hx
  refine ⟨pre, x, ⟨suf, by simp⟩, of_decide_eq_true hpx, fun y hy => ?_⟩
  simpa using hpre y hy

variable {s : Finset α} {starts : List α}

/-- Every ring to which a node of the list leads has a chosen link. -/
theorem exists_chosen [DecidableEq α] (hs : ∀ x y, next x = some y → x ∈ s) (ha : OnRing next a)
    (hstart : ∃ j ∈ starts, Leads next j a) : ∃ c, Chosen next starts c ∧ Leads next a c := by
  obtain ⟨pre, j, hpre, hja, hfirst⟩ := exists_first hstart
  obtain ⟨c, hc⟩ := exists_closes hs ha hja
  have hac : Leads next a c := hc.onRing.leads_of_leads hja hc.leads
  refine ⟨c, ⟨pre, j, hpre, hc, fun k hk hkc => hfirst k hk ?_⟩, hac⟩
  exact hkc.trans (ha.leads_back hac)

/-- The walk after the links chosen so far are cut closes the rings to which none of the earlier
nodes leads. -/
theorem Cut.closes_iff [DecidableEq α] (hs : ∀ x y, next x = some y → x ∈ s)
    (h : Cut next (Chosen next starts) g) :
    Closes g i c ↔ Closes next i c ∧ ∀ j ∈ starts, ¬ Leads next j c := by
  constructor
  · intro hc
    obtain ⟨seen, m, hwalk, hnext, hm⟩ := hc
    have hring : OnRing g c := Closes.onRing ⟨seen, m, hwalk, hnext, hm⟩
    have hclose : Closes next i c :=
      ⟨seen, m, Walks.mono (fun _ _ => h.mono) hwalk, h.mono hnext, hm⟩
    refine ⟨hclose, fun j hj hjc => ?_⟩
    -- the ring would have a chosen link, but all its links are there
    obtain ⟨d, hd, hcd⟩ := exists_chosen hs hclose.onRing ⟨j, hj, hjc⟩
    exact h.onRing hring hcd hd
  · rintro ⟨⟨seen, m, hwalk, hnext, hm⟩, hfree⟩
    have hkept : ∀ x ∈ c :: seen, g x = next x := by
      intro x hx
      refine h.kept x ?_
      rintro ⟨pre, j, hpre, hclose, -⟩
      have hj : j ∈ starts := hpre.subset (by simp)
      exact hfree j hj (hclose.leads.trans (hwalk.leads x hx).2)
    refine ⟨seen, m, hwalk.congr fun x hx => hkept x (List.mem_cons_of_mem c hx), ?_, hm⟩
    rw [hkept c List.mem_cons_self]
    exact hnext

end Rings
