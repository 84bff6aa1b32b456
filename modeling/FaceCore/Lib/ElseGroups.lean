import FaceCore.Lib.SortedMap

/-!
# Lists of conditions in else-groups

A list of items, each in a group: an item is a condition of its own or a reference to another list.
The list is read as a disjunction over the groups of the conjunction of their items.

* `Reading`: how a program reads such a list in some algebra of answers, with a table of the groups
  that it fills while it goes through the list; `Reading.eval` is the reader, with fuel for the
  references;
* `Holds`: the list as a formula;
* `Reading.eval_obs`: an observation that turns the operations of a reading into the connectives
  turns its answer into the formula;
* `Reading.eval_isSome`: without cycles of references the reader answers.
-/

namespace ElseGroups

variable {ι α : Type*}

/-- Where the items stand: the group of an item, the list it refers to, and the lists. -/
structure Shape (ι : Type*) where
  group : ι → ℕ
  ref : ι → Option ℕ
  lists : ℕ → Option (List ι)

/-- How a list is read: the answer to an empty list, that of a fresh group and of no group at all,
when a group is not looked at any more, the two operations, the answer of a condition, and the
answer of a reference to a list that is missing. -/
structure Reading (ι α : Type*) where
  empty : α
  top : α
  bot : α
  stop : α → Bool
  meet : α → α → α
  join : α → α → α
  atom : ι → Option α
  missing : Option α

namespace Reading

variable (R : Reading ι α) (S : Shape ι)

/-- The pass over the list that fills the table of the groups. -/
def loop (item : ι → Option α) : List ι → SortedMap ℕ α → Option (SortedMap ℕ α)
  | [], table => some table
  | i :: is, table =>
    match table.find (S.group i) with
    | some a =>
      if R.stop a then loop item is table
      else (item i).bind fun b => loop item is (table.insert (S.group i) (R.meet a b))
    | none => (item i).bind fun b => loop item is (table.insert (S.group i) (R.meet R.top b))

/-- The answer of an item, `answer` being that of a list. -/
def item (answer : List ι → Option α) (i : ι) : Option α :=
  match S.ref i with
  | none => R.atom i
  | some r =>
    match S.lists r with
    | some js => answer js
    | none => R.missing

/-- The answer of a list; `none` when the fuel runs out or the program stops. -/
def eval : ℕ → List ι → Option α
  | 0, _ => none
  | fuel + 1, is =>
    if is.isEmpty then some R.empty
    else
      (R.loop S (R.item S (eval fuel)) is SortedMap.empty).map fun table =>
        table.entries.foldl (fun a e => R.join a e.2) R.bot

end Reading

/-- The formula of a list: `val` says what a condition means, and `e` what the empty list does. -/
inductive Holds (S : Shape ι) (val : ι → Prop) (e : Prop) : List ι → Prop
  | nil (he : e) : Holds S val e []
  | group {is : List ι} {k : ι} (hk : k ∈ is)
      (hatom : ∀ i ∈ is, S.group i = S.group k → S.ref i = none → val i)
      (href : ∀ i ∈ is, S.group i = S.group k → ∀ r js, S.ref i = some r → S.lists r = some js →
        Holds S val e js) : Holds S val e is

/-- The items that a list leads to through its references. -/
inductive Reach (S : Shape ι) (is : List ι) : ι → Prop
  | here {i : ι} (hi : i ∈ is) : Reach S is i
  | ref {i j : ι} {r : ℕ} {js : List ι} (hi : Reach S is i) (hr : S.ref i = some r)
      (hjs : S.lists r = some js) (hj : j ∈ js) : Reach S is j

variable {S : Shape ι} {val val' : ι → Prop} {e e' : Prop} {is : List ι}

theorem Reach.trans {i j : ι} {r : ℕ} {js : List ι} (hi : Reach S is i) (hr : S.ref i = some r)
    (hjs : S.lists r = some js) (hj : Reach S js j) : Reach S is j := by
  induction hj with
  | here hj => exact .ref hi hr hjs hj
  | ref _ hr' hjs' hj ih => exact .ref ih hr' hjs' hj

theorem Holds.mono (h : Holds S val e is) (he : e → e')
    (hval : ∀ i, Reach S is i → S.ref i = none → val i → val' i) : Holds S val' e' is := by
  induction h with
  | nil h => exact .nil (he h)
  | group hk hatom _ ih =>
    refine .group hk (fun i hi hg hr => hval i (.here hi) hr (hatom i hi hg hr)) ?_
    intro i hi hg r js hr hjs
    exact ih i hi hg r js hr hjs fun j hj => hval j ((Reach.here hi).trans hr hjs hj)

/-- What an item of the list asks for. -/
def Item (S : Shape ι) (val : ι → Prop) (e : Prop) (i : ι) : Prop :=
  (S.ref i = none → val i) ∧
    ∀ r js, S.ref i = some r → S.lists r = some js → Holds S val e js

theorem item_of_ref_none {i : ι} (h : S.ref i = none) : Item S val e i ↔ val i := by
  simp [Item, h]

theorem item_of_lists_some {i : ι} {r : ℕ} {js : List ι} (h : S.ref i = some r)
    (hjs : S.lists r = some js) : Item S val e i ↔ Holds S val e js := by
  simp only [Item, h, reduceCtorEq, false_implies, true_and, Option.some.injEq]
  constructor
  · exact fun hh => hh r js rfl hjs
  · rintro hh _ js' rfl hjs'
    obtain rfl := Option.some.inj (hjs.symm.trans hjs')
    exact hh

theorem item_of_lists_none {i : ι} {r : ℕ} (h : S.ref i = some r) (hjs : S.lists r = none) :
    Item S val e i := by
  refine ⟨fun hn => ?_, fun r' js hr hjs' => ?_⟩
  · cases h.symm.trans hn
  · obtain rfl := Option.some.inj (h.symm.trans hr)
    cases hjs.symm.trans hjs'

theorem holds_iff (hne : is ≠ []) :
    Holds S val e is ↔
      ∃ g, (∃ k ∈ is, S.group k = g) ∧ ∀ i ∈ is, S.group i = g → Item S val e i := by
  constructor
  · intro h
    cases h with
    | nil => exact absurd rfl hne
    | group hk hatom href =>
      exact ⟨_, ⟨_, hk, rfl⟩, fun i hi hg => ⟨hatom i hi hg, href i hi hg⟩⟩
  · rintro ⟨_, ⟨k, hk, rfl⟩, h⟩
    exact .group hk (fun i hi hg => (h i hi hg).1) fun i hi hg => (h i hi hg).2

namespace Reading

variable {R : Reading ι α} {obs : α → Prop}

/-- An observation under which a reading is the reading of a formula. -/
structure Observes (R : Reading ι α) (S : Shape ι) (obs : α → Prop) (val : ι → Prop) : Prop where
  top : obs R.top
  bot : ¬ obs R.bot
  stop : ∀ a, R.stop a → ¬ obs a
  meet : ∀ a b, obs (R.meet a b) ↔ obs a ∧ obs b
  join : ∀ a b, obs (R.join a b) ↔ obs a ∨ obs b
  atom : ∀ i a, S.ref i = none → R.atom i = some a → (obs a ↔ val i)
  missing : ∀ a, R.missing = some a → obs a

/-- A group of the table is observed when it was before, or is a new one, and its items hold. -/
theorem loop_obs (h : R.Observes S obs val) (holds : ι → Prop) {item : ι → Option α}
    (hitem : ∀ i b, item i = some b → (obs b ↔ holds i)) {table table' : SortedMap ℕ α}
    (hloop : R.loop S item is table = some table') (g : ℕ) :
    (∃ a, table'.find g = some a ∧ obs a) ↔
      ((∃ a, table.find g = some a ∧ obs a) ∨
        (table.find g = none ∧ ∃ i ∈ is, S.group i = g)) ∧
      ∀ i ∈ is, S.group i = g → holds i := by
  induction is generalizing table with
  | nil =>
    obtain rfl := Option.some.inj hloop
    simp
  | cons i is ih =>
    rw [loop] at hloop
    cases hfind : table.find (S.group i) with
    | some a =>
      rw [hfind] at hloop
      dsimp only at hloop
      split_ifs at hloop with hstop
      · rw [ih hloop]
        by_cases hg : S.group i = g
        · have hobs := h.stop a hstop
          subst hg
          simp [hfind, hobs]
        · simp [hg]
      · obtain ⟨b, hb, hloop⟩ := Option.bind_eq_some_iff.1 hloop
        rw [ih hloop]
        by_cases hg : S.group i = g
        · subst hg
          simp [SortedMap.find_insert, hfind, h.meet, hitem i b hb, and_assoc]
        · simp [SortedMap.find_insert, Ne.symm hg, hg]
    | none =>
      rw [hfind] at hloop
      obtain ⟨b, hb, hloop⟩ := Option.bind_eq_some_iff.1 hloop
      rw [ih hloop]
      by_cases hg : S.group i = g
      · subst hg
        simp [SortedMap.find_insert, hfind, h.meet, h.top, hitem i b hb]
      · simp [SortedMap.find_insert, Ne.symm hg, hg]

theorem foldl_join_obs (h : R.Observes S obs val) (es : List (ℕ × α)) (a : α) :
    obs (es.foldl (fun a e => R.join a e.2) a) ↔ obs a ∨ ∃ e ∈ es, obs e.2 := by
  induction es generalizing a with
  | nil => simp
  | cons e es ih => rw [List.foldl_cons, ih, h.join, List.exists_mem_cons_iff, or_assoc]

theorem item_obs (h : R.Observes S obs val) {answer : List ι → Option α}
    (hanswer : ∀ js b, answer js = some b → (obs b ↔ Holds S val e js)) {i : ι} {b : α}
    (hb : R.item S answer i = some b) : obs b ↔ Item S val e i := by
  unfold item at hb
  cases href : S.ref i with
  | none =>
    rw [href] at hb
    rw [item_of_ref_none href, h.atom i b href hb]
  | some r =>
    rw [href] at hb
    dsimp only at hb
    cases hlist : S.lists r with
    | none =>
      rw [hlist] at hb
      exact iff_of_true (h.missing b hb) (item_of_lists_none href hlist)
    | some js =>
      rw [hlist] at hb
      rw [item_of_lists_some href hlist, hanswer js b hb]

/-- The answer of a list is observed exactly when its formula holds. -/
theorem eval_obs (h : R.Observes S obs val) {fuel : ℕ} {a : α}
    (heval : R.eval S fuel is = some a) : obs a ↔ Holds S val (obs R.empty) is := by
  induction fuel generalizing is a with
  | zero => cases heval
  | succ fuel ih =>
    rw [eval] at heval
    by_cases hnil : is = []
    · subst hnil
      obtain rfl := Option.some.inj heval
      constructor
      · exact .nil
      · intro hh
        cases hh with
        | nil he => exact he
        | group hk => cases hk
    · rw [if_neg (by simpa using hnil)] at heval
      obtain ⟨table, hloop, rfl⟩ := Option.map_eq_some_iff.1 heval
      rw [foldl_join_obs h, holds_iff hnil]
      have hgroup := loop_obs h (Item S val (obs R.empty)) (fun i b hb => ?_) hloop
      · have htable : (∃ e ∈ table.entries, obs e.2) ↔ ∃ g a, table.find g = some a ∧ obs a :=
          ⟨fun ⟨e, he, ho⟩ => ⟨e.1, e.2, SortedMap.find_of_mem he, ho⟩,
            fun ⟨g, a, ha, ho⟩ => ⟨(g, a), SortedMap.find_eq_some_mem ha, ho⟩⟩
        rw [htable, or_iff_right h.bot]
        refine exists_congr fun g => ?_
        rw [hgroup g]
        simp [SortedMap.find_empty]
      · exact item_obs h (fun js b hb => ih hb) hb

/-! ### Termination -/

theorem loop_isSome {item : ι → Option α} (hitem : ∀ i ∈ is, (item i).isSome)
    (table : SortedMap ℕ α) : (R.loop S item is table).isSome := by
  induction is generalizing table with
  | nil => rfl
  | cons i is ih =>
    obtain ⟨b, hb⟩ := Option.isSome_iff_exists.1 (hitem i List.mem_cons_self)
    have his := fun table => ih (fun j hj => hitem j (List.mem_cons_of_mem i hj)) table
    rw [loop]
    cases table.find (S.group i) with
    | some a =>
      dsimp only
      split_ifs
      · exact his table
      · rw [hb]
        exact his _
    | none =>
      rw [hb]
      exact his _

theorem eval_succ_isSome {fuel : ℕ} (h : ∀ i ∈ is, (R.item S (R.eval S fuel) i).isSome) :
    (R.eval S (fuel + 1) is).isSome := by
  rw [eval]
  split_ifs
  · rfl
  · rw [Option.isSome_map]
    exact loop_isSome h SortedMap.empty

/-- When every reference leads to a list, and that of a smaller rank, the reader answers. -/
theorem eval_isSome {rank : ℕ → ℕ}
    (hatom : ∀ i, S.ref i = none → (R.atom i).isSome)
    (hlists : ∀ i, Reach S is i → ∀ r, S.ref i = some r → (S.lists r).isSome)
    (hrank : ∀ r js, S.lists r = some js → ∀ i ∈ js, ∀ r', S.ref i = some r' → rank r' < rank r)
    {fuel : ℕ} (hfuel : ∀ i ∈ is, ∀ r, S.ref i = some r → rank r < fuel) :
    (R.eval S (fuel + 1) is).isSome := by
  induction fuel generalizing is with
  | zero =>
    refine eval_succ_isSome fun i hi => ?_
    cases href : S.ref i with
    | none => simpa [item, href] using hatom i href
    | some r => exact absurd (hfuel i hi r href) (by omega)
  | succ fuel ih =>
    refine eval_succ_isSome fun i hi => ?_
    cases href : S.ref i with
    | none => simpa [item, href] using hatom i href
    | some r =>
      obtain ⟨js, hjs⟩ := Option.isSome_iff_exists.1 (hlists i (.here hi) r href)
      have hanswer : (R.eval S (fuel + 1) js).isSome := by
        refine ih (fun j hj => hlists j ((Reach.here hi).trans href hjs hj)) fun j hj r' hr' => ?_
        have := hrank r js hjs j hj r' hr'
        have := hfuel i hi r href
        omega
      simpa [item, href, hjs] using hanswer

end Reading

end ElseGroups
