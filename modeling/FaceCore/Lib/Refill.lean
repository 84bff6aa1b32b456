import FaceCore.Lib.Stock

/-!
# Going on with a plan

A plan in which some places are used already, and a search that goes on with it: places that are
used are passed over, and so is a place that the search sees again.

* `Plan.refill`: reserve units at the places that are seen, until all have one;
* `Plan.unused`: the space at the places that are seen and not used yet;
* `count_refill`, `mem_refill`, `sum_refill`: the units left, the places used and the units reserved
  afterwards;
* `goOn`: several searches for the same units with one plan, until one finds places for all of them;
* `goOn_exact_iff`: no more is reserved than these units exactly if that one comes after searches
  that saw nothing.
-/

namespace Plan

variable {P : Type*} [DecidableEq P] {plan : Plan P} {sp sp' : List (P × ℕ)} {used used' : List P}
  {p : P} {q : P × ℕ}

/-- Reserve units at places one after another, where none are reserved yet. -/
def refill : List (P × ℕ) → Plan P → Plan P
  | [], plan => plan
  | q :: sp, plan => if plan.count = 0 then plan else refill sp (plan.reserve q.1 q.2)

/-- The space at places that are not used; a place that is seen twice counts once. -/
def unused : List P → List (P × ℕ) → ℕ
  | _, [] => 0
  | used, q :: sp => if q.1 ∈ used then unused used sp else q.2 + unused (q.1 :: used) sp

theorem refill_of_count (h : plan.count = 0) (sp : List (P × ℕ)) : refill sp plan = plan := by
  cases sp with
  | nil => rfl
  | cons q sp => rw [refill, if_pos h]

theorem refill_append (sp sp' : List (P × ℕ)) (plan : Plan P) :
    refill (sp ++ sp') plan = refill sp' (refill sp plan) := by
  induction sp generalizing plan with
  | nil => rfl
  | cons q sp ih =>
    rw [List.cons_append, refill, refill]
    split_ifs with h
    · exact (refill_of_count h sp').symm
    · exact ih _

/-- Only which places are used matters. -/
theorem unused_congr (h : ∀ p, p ∈ used ↔ p ∈ used') : unused used sp = unused used' sp := by
  induction sp generalizing used used' with
  | nil => rfl
  | cons q sp ih =>
    rw [unused, unused]
    by_cases hq : q.1 ∈ used
    · rw [if_pos hq, if_pos ((h q.1).1 hq)]
      exact ih h
    · rw [if_neg hq, if_neg fun hq' => hq ((h q.1).2 hq'), ih fun p => ?_]
      rw [List.mem_cons, List.mem_cons, h p]

theorem reserve_of_mem {need : ℕ} (h : p ∈ plan.dest.map Prod.fst) : plan.reserve p need = plan :=
  if_pos h

theorem reserve_of_notMem {need : ℕ} (h : p ∉ plan.dest.map Prod.fst) :
    plan.reserve p need = plan.push p need := if_neg h

omit [DecidableEq P] in
theorem mem_push {p' : P} {need : ℕ} :
    p ∈ (plan.push p' need).dest.map Prod.fst ↔ p = p' ∨ p ∈ plan.dest.map Prod.fst := by
  rw [Plan.push, List.map_append, List.mem_append, List.map_singleton, List.mem_singleton, or_comm]

/-- The units that have no place afterwards are those for which there is no unused space. -/
theorem count_refill (sp : List (P × ℕ)) (plan : Plan P) :
    (refill sp plan).count = plan.count - unused (plan.dest.map Prod.fst) sp := by
  induction sp generalizing plan with
  | nil => rfl
  | cons q sp ih =>
    rw [refill, unused]
    split_ifs with hcount hmem hmem
    · omega
    · omega
    · rw [reserve_of_mem hmem]
      exact ih plan
    · have hused : unused ((plan.push q.1 q.2).dest.map Prod.fst) sp =
          unused (q.1 :: plan.dest.map Prod.fst) sp :=
        unused_congr fun p => by rw [mem_push, List.mem_cons]
      rw [reserve_of_notMem hmem, ih, hused]
      simp only [Plan.push]
      omega

/-- While units are without a place, all places that are seen are used. -/
theorem mem_refill (h : 0 < (refill sp plan).count) :
    p ∈ (refill sp plan).dest.map Prod.fst ↔
      p ∈ plan.dest.map Prod.fst ∨ p ∈ sp.map Prod.fst := by
  induction sp generalizing plan with
  | nil => simp [refill]
  | cons q sp ih =>
    rw [refill] at h ⊢
    by_cases hcount : plan.count = 0
    · rw [if_pos hcount, hcount] at h
      exact absurd h (lt_irrefl 0)
    · rw [if_neg hcount] at h ⊢
      rw [ih h, List.map_cons, List.mem_cons]
      by_cases hmem : q.1 ∈ plan.dest.map Prod.fst
      · rw [reserve_of_mem hmem]
        constructor
        · exact Or.imp_right Or.inr
        · rintro (hp | rfl | hp)
          exacts [.inl hp, .inl hmem, .inr hp]
      · rw [reserve_of_notMem hmem, mem_push, or_assoc, or_left_comm]

theorem sum_reserve (plan : Plan P) (p : P) (need : ℕ) :
    ((plan.reserve p need).dest.map Prod.snd).sum + (plan.reserve p need).count =
      (plan.dest.map Prod.snd).sum + plan.count := by
  by_cases hmem : p ∈ plan.dest.map Prod.fst
  · rw [reserve_of_mem hmem]
  · rw [reserve_of_notMem hmem]
    simp only [Plan.push, List.map_append, List.map_singleton, List.sum_append, List.sum_singleton]
    omega

theorem sum_refill (sp : List (P × ℕ)) (plan : Plan P) :
    ((refill sp plan).dest.map Prod.snd).sum + (refill sp plan).count =
      (plan.dest.map Prod.snd).sum + plan.count := by
  induction sp generalizing plan with
  | nil => rfl
  | cons q sp ih =>
    rw [refill]
    split_ifs
    · rfl
    · rw [ih, sum_reserve]

omit [DecidableEq P] in
theorem Within.restart {room : P → ℕ → Prop} {n : ℕ} (h : plan.Within room n) (k : ℕ) :
    Within room ((plan.dest.map Prod.snd).sum + k) ⟨plan.dest, k⟩ :=
  ⟨h.nodup, h.room, rfl⟩

/-- What is seen has room. -/
def Roomy (room : P → ℕ → Prop) (sp : List (P × ℕ)) : Prop :=
  ∀ q ∈ sp, 0 < q.2 ∧ ∀ k, 0 < k → k ≤ q.2 → room q.1 k

theorem Within.refill {room : P → ℕ → Prop} {n : ℕ} (h : plan.Within room n)
    (hsp : Roomy room sp) : (refill sp plan).Within room n := by
  induction sp generalizing plan with
  | nil => exact h
  | cons q sp ih =>
    rw [Plan.refill]
    split_ifs with hcount
    · exact h
    · obtain ⟨hpos, hroom⟩ := hsp q List.mem_cons_self
      refine ih (h.reserve (hroom _ ?_ (Nat.min_le_left _ _))) fun r hr =>
        hsp r (List.mem_cons_of_mem q hr)
      omega

/-! ### Several searches -/

/-- Search for places for `k` units, again and again with what is reserved already, until a search
finds places for all of them. -/
def goOn (k : ℕ) : List (P × ℕ) → List (List (P × ℕ)) → Option (List (P × ℕ))
  | _, [] => none
  | dest, sp :: sps =>
    let plan := refill sp ⟨dest, k⟩
    if plan.count = 0 then some plan.dest else goOn k plan.dest sps

/-- The first search that can find places for `k` units next to those that were `seen` before comes
after searches that saw nothing. -/
def FirstFit (k : ℕ) : List (P × ℕ) → List (List (P × ℕ)) → Prop
  | _, [] => True
  | seen, sp :: sps =>
    if k ≤ unused (seen.map Prod.fst) sp then seen = [] else FirstFit k (seen ++ sp) sps

/-- Whether it does is computed search by search. -/
def decidableFirstFit (k : ℕ) :
    (seen : List (P × ℕ)) → (sps : List (List (P × ℕ))) → Decidable (FirstFit k seen sps)
  | _, [] => .isTrue trivial
  | seen, sp :: sps =>
    have := decidableFirstFit k (seen ++ sp) sps
    inferInstanceAs (Decidable
      (if k ≤ unused (seen.map Prod.fst) sp then seen = [] else FirstFit k (seen ++ sp) sps))

instance (k : ℕ) (seen : List (P × ℕ)) (sps : List (List (P × ℕ))) :
    Decidable (FirstFit k seen sps) := decidableFirstFit k seen sps

theorem unused_nil_eq_zero (hpos : ∀ q ∈ sp, 0 < q.2) : unused [] sp = 0 ↔ sp = [] := by
  cases sp with
  | nil => simp [unused]
  | cons q sp =>
    have hq := hpos q List.mem_cons_self
    simp only [unused, List.not_mem_nil, if_false, reduceCtorEq, iff_false]
    omega

/-- The searches after the first: `dest` is what those before reserved, and `seen` what they saw. -/
theorem goOn_exact_iff_of_seen {k : ℕ} {dest seen : List (P × ℕ)} {sps : List (List (P × ℕ))}
    (hpos : ∀ sp ∈ sps, ∀ q ∈ sp, 0 < q.2)
    (hmem : ∀ p, p ∈ dest.map Prod.fst ↔ p ∈ seen.map Prod.fst)
    (hzero : (dest.map Prod.snd).sum = 0 ↔ seen = []) :
    (∀ dest', goOn k dest sps = some dest' → (dest'.map Prod.snd).sum = k) ↔
      FirstFit k seen sps := by
  induction sps generalizing dest seen with
  | nil => exact iff_of_true nofun trivial
  | cons sp sps ih =>
    have hcount := count_refill sp ⟨dest, k⟩
    have hsum := sum_refill sp ⟨dest, k⟩
    dsimp only at hcount hsum
    rw [unused_congr hmem] at hcount
    rw [goOn, FirstFit]
    by_cases hle : k ≤ unused (seen.map Prod.fst) sp
    · -- this search finds places for all units, and adds them to what was reserved before
      rw [Nat.sub_eq_zero_of_le hle] at hcount
      rw [if_pos hle, if_pos hcount, ← hzero]
      constructor
      · intro h
        have htotal := h _ rfl
        omega
      · rintro h dest' hdest'
        obtain rfl := Option.some.inj hdest'
        omega
    · have hleft : 0 < (refill sp ⟨dest, k⟩).count := by omega
      rw [if_neg hle, if_neg (Nat.ne_of_gt hleft)]
      refine ih (fun sp' hsp' => hpos sp' (List.mem_cons_of_mem sp hsp')) (fun p => ?_) ?_
      · rw [mem_refill hleft, hmem, List.map_append, List.mem_append]
      · have hfirst := unused_nil_eq_zero (hpos sp List.mem_cons_self)
        rw [List.append_eq_nil_iff, ← hzero]
        constructor
        · intro h
          have hseen : seen = [] := hzero.1 (by omega)
          rw [hseen, List.map_nil] at hcount hle
          exact ⟨by omega, hfirst.1 (by omega)⟩
        · rintro ⟨hdest, rfl⟩
          simp only [unused] at hcount
          omega

/-- **Main result.** The searches together reserve `k` units exactly if the one that finds places for
all of them comes after searches that saw nothing. -/
theorem goOn_exact_iff {k : ℕ} {sps : List (List (P × ℕ))} (hpos : ∀ sp ∈ sps, ∀ q ∈ sp, 0 < q.2) :
    (∀ dest, goOn k [] sps = some dest → (dest.map Prod.snd).sum = k) ↔ FirstFit k [] sps :=
  goOn_exact_iff_of_seen hpos (fun _ => Iff.rfl) (iff_of_true rfl rfl)

/-- The search that finds places for all units reserves them next to those of before. -/
theorem le_sum_goOn {k : ℕ} {dest dest' : List (P × ℕ)} {sps : List (List (P × ℕ))}
    (hgo : goOn k dest sps = some dest') :
    (dest.map Prod.snd).sum + k ≤ (dest'.map Prod.snd).sum := by
  induction sps generalizing dest with
  | nil => cases hgo
  | cons sp sps ih =>
    have hsum := sum_refill sp ⟨dest, k⟩
    have hcount := count_refill sp ⟨dest, k⟩
    rw [goOn] at hgo
    dsimp only at hgo hsum hcount
    split_ifs at hgo with hzero
    · obtain rfl := Option.some.inj hgo
      omega
    · have hle := ih hgo
      omega

/-- What the searches reserve has room, and is at most `k` units for each search. -/
theorem within_goOn {room : P → ℕ → Prop} {k n c : ℕ} {dest dest' : List (P × ℕ)}
    {sps : List (List (P × ℕ))} (hsps : ∀ sp ∈ sps, Roomy room sp)
    (h : Within room n ⟨dest, c⟩) (hgo : goOn k dest sps = some dest') :
    Within room (dest'.map Prod.snd).sum ⟨dest', 0⟩ ∧
      (dest'.map Prod.snd).sum ≤ (dest.map Prod.snd).sum + k * sps.length := by
  induction sps generalizing dest n c with
  | nil => cases hgo
  | cons sp sps ih =>
    have hnext := (h.restart k).refill (hsps sp List.mem_cons_self)
    have hsum := sum_refill sp ⟨dest, k⟩
    rw [goOn] at hgo
    dsimp only at hgo hsum hnext
    rw [List.length_cons, Nat.mul_succ]
    split_ifs at hgo with hcount
    · obtain rfl := Option.some.inj hgo
      exact ⟨⟨hnext.nodup, hnext.room, rfl⟩, by omega⟩
    · obtain ⟨hwithin, hle⟩ := ih (fun sp' hsp' => hsps sp' (List.mem_cons_of_mem sp hsp'))
        (c := (refill sp ⟨dest, k⟩).count) hnext hgo
      exact ⟨hwithin, by omega⟩

end Plan
