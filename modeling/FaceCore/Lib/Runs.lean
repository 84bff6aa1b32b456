import Mathlib.Data.List.Infix

/-!
# Runs of a step function

A component that answers one request at a time is a function `step : σ → ι → σ`; a run is a
list of inputs, and the state after it is the left fold of `step`.

* `Along step P s is`: `P` holds in every state the run goes through, the first one included;
* `EachStep step T s is`: `T` relates every input of the run to the state it meets;
* `foldl_eq`: what no step changes.

The rules below turn a fact about one step into a fact about every run: `EachStep.mono_inv` and
`along_of_inv` when the step conditions are enough, `eachStep_iff` and `along_iff_eachStep` when
they are also forced. `along_option_iff` is the last one for a system that can end.
-/

namespace Runs

variable {σ ι : Type*} {step : σ → ι → σ} {P I : σ → Prop} {T C : σ → ι → Prop}

theorem foldl_eq {β : Type*} (π : σ → β) (h : ∀ s i, π (step s i) = π s) (s : σ) (is : List ι) :
    π (is.foldl step s) = π s := by
  induction is generalizing s with
  | nil => rfl
  | cons i is ih => rw [List.foldl_cons, ih, h]

/-- `P` holds in every state that the run `is` from `s` goes through. -/
def Along (step : σ → ι → σ) (P : σ → Prop) (s : σ) (is : List ι) : Prop :=
  ∀ pre, pre <+: is → P (pre.foldl step s)

/-- `T` holds between every input of the run `is` from `s` and the state it meets. -/
def EachStep (step : σ → ι → σ) (T : σ → ι → Prop) (s : σ) (is : List ι) : Prop :=
  ∀ pre i, pre ++ [i] <+: is → T (pre.foldl step s) i

theorem EachStep.nil (s : σ) : EachStep step T s [] := by
  intro pre i h
  simp at h

theorem eachStep_cons {s : σ} {i : ι} {is : List ι} :
    EachStep step T s (i :: is) ↔ T s i ∧ EachStep step T (step s i) is := by
  constructor
  · intro h
    refine ⟨h [] i (by simp), fun pre j hj => ?_⟩
    exact h (i :: pre) j (by simpa using hj)
  · rintro ⟨h0, h⟩ pre j hj
    cases pre with
    | nil =>
      obtain rfl : j = i := by simpa using hj
      exact h0
    | cons k pre =>
      rw [List.cons_append, List.cons_prefix_cons] at hj
      obtain ⟨rfl, hj⟩ := hj
      exact h pre j hj

theorem along_cons {s : σ} {i : ι} {is : List ι} :
    Along step P s (i :: is) ↔ P s ∧ Along step P (step s i) is := by
  constructor
  · intro h
    refine ⟨h [] (by simp), fun pre hpre => ?_⟩
    exact h (i :: pre) (by simpa using hpre)
  · rintro ⟨h0, h⟩ pre hpre
    cases pre with
    | nil => exact h0
    | cons k pre =>
      rw [List.cons_prefix_cons] at hpre
      obtain ⟨rfl, hpre⟩ := hpre
      exact h pre hpre

theorem along_nil {s : σ} : Along step P s [] ↔ P s := by
  constructor
  · intro h
    exact h [] (by simp)
  · intro h pre hpre
    rw [List.prefix_nil] at hpre
    subst hpre
    exact h

theorem eachStep_append {s : σ} {is js : List ι} :
    EachStep step T s (is ++ js) ↔ EachStep step T s is ∧ EachStep step T (is.foldl step s) js := by
  induction is generalizing s with
  | nil => simp [EachStep.nil s]
  | cons i is ih => rw [List.cons_append, eachStep_cons, eachStep_cons, ih, and_assoc]; rfl

theorem along_append {s : σ} {is js : List ι} :
    Along step P s (is ++ js) ↔ Along step P s is ∧ Along step P (is.foldl step s) js := by
  induction is generalizing s with
  | nil =>
    rw [List.nil_append, List.foldl_nil, along_nil, iff_and_self]
    exact fun h => h [] (by simp)
  | cons i is ih => rw [List.cons_append, along_cons, along_cons, ih, and_assoc]; rfl

theorem eachStep_map {κ : Type*} {f : κ → ι} {s : σ} {js : List κ} :
    EachStep step T s (js.map f) ↔
      EachStep (fun s j => step s (f j)) (fun s j => T s (f j)) s js := by
  induction js generalizing s with
  | nil => exact iff_of_true (EachStep.nil s) (EachStep.nil s)
  | cons j js ih => rw [List.map_cons, eachStep_cons, eachStep_cons, ih]

theorem along_map {κ : Type*} {f : κ → ι} {s : σ} {js : List κ} :
    Along step P s (js.map f) ↔ Along (fun s j => step s (f j)) P s js := by
  induction js generalizing s with
  | nil => rw [List.map_nil, along_nil, along_nil]
  | cons j js ih => rw [List.map_cons, along_cons, along_cons, ih]

/-- What each step that meets its condition does, holds along a run whose steps all meet it;
the invariant `I` is what the conditions keep. -/
theorem EachStep.mono_inv {s : σ} {is : List ι} (h : EachStep step C s is) (h0 : I s)
    (hI : ∀ s i, I s → C s i → I (step s i)) (hT : ∀ s i, I s → C s i → T s i) :
    EachStep step T s is := by
  induction is generalizing s with
  | nil => exact EachStep.nil s
  | cons i is ih =>
    obtain ⟨hi, his⟩ := eachStep_cons.1 h
    exact eachStep_cons.2 ⟨hT s i h0 hi, ih his (hI s i h0 hi)⟩

/-- An invariant of the steps that meet their condition holds along a run of such steps. -/
theorem along_of_inv {s : σ} {is : List ι} (h : EachStep step C s is) (h0 : I s)
    (hI : ∀ s i, I s → C s i → I (step s i)) : Along step I s is := by
  induction is generalizing s with
  | nil => exact along_nil.2 h0
  | cons i is ih =>
    obtain ⟨hi, his⟩ := eachStep_cons.1 h
    exact along_cons.2 ⟨h0, ih his (hI s i h0 hi)⟩

/-- When, as long as the invariant lasts, `T` holds of a step exactly if `C` does, a run has
`T` at every step exactly if it has `C` at every step. -/
theorem eachStep_iff {s : σ} {is : List ι} (h0 : I s)
    (hI : ∀ s i, I s → C s i → I (step s i)) (hT : ∀ s i, I s → (T s i ↔ C s i)) :
    EachStep step T s is ↔ EachStep step C s is := by
  induction is generalizing s with
  | nil => exact iff_of_true (EachStep.nil s) (EachStep.nil s)
  | cons i is ih =>
    rw [eachStep_cons, eachStep_cons, hT s i h0]
    exact and_congr_right fun hi => ih (hI s i h0 hi)

/-- When, as long as the invariant lasts, a step of the kind `Q` from a state with `P` leads to one
with `P` exactly if it meets `C`, a run of such steps stays in `P` exactly if it meets `C` at every
step. -/
theorem along_iff_eachStep_of_mem {Q : ι → Prop} {s : σ} {is : List ι} (hQ : ∀ i ∈ is, Q i)
    (h0 : I s) (hP : P s) (hI : ∀ s i, Q i → I s → P s → C s i → I (step s i))
    (hstep : ∀ s i, Q i → I s → P s → (P (step s i) ↔ C s i)) :
    Along step P s is ↔ EachStep step C s is := by
  induction is generalizing s with
  | nil => exact iff_of_true (along_nil.2 hP) (EachStep.nil s)
  | cons i is ih =>
    have hi := hQ i List.mem_cons_self
    have his := fun j hj => hQ j (List.mem_cons_of_mem i hj)
    rw [along_cons, eachStep_cons, ← hstep s i hi h0 hP]
    constructor
    · rintro ⟨-, h⟩
      have hnext : P (step s i) := h [] (by simp)
      exact ⟨hnext, (ih his (hI s i hi h0 hP ((hstep s i hi h0 hP).1 hnext)) hnext).1 h⟩
    · rintro ⟨hnext, h⟩
      exact ⟨hP, (ih his (hI s i hi h0 hP ((hstep s i hi h0 hP).1 hnext)) hnext).2 h⟩

/-- The same for steps of every kind. -/
theorem along_iff_eachStep {s : σ} {is : List ι} (h0 : I s) (hP : P s)
    (hI : ∀ s i, I s → P s → C s i → I (step s i))
    (hstep : ∀ s i, I s → P s → (P (step s i) ↔ C s i)) :
    Along step P s is ↔ EachStep step C s is :=
  along_iff_eachStep_of_mem (Q := fun _ => True) (fun _ _ => trivial) h0 hP (fun s i _ => hI s i)
    fun s i _ => hstep s i

/-! ### Systems that can end -/

/-- The step function of a system that can end: nothing happens after that. -/
def stepOption (exec : σ → ι → Option σ) (s : Option σ) (i : ι) : Option σ := s.bind (exec · i)

/-- When, as long as the system and the invariant last, a step from a state with `P` leads to one
with `P` exactly if it meets `C`, a run stays in `P` exactly if it starts there and meets `C` at
every step. -/
theorem along_option_iff {exec : σ → ι → Option σ} {s : Option σ} {is : List ι}
    (h0 : ∀ a, s = some a → I a) (hI : ∀ a i b, exec a i = some b → I a → I b)
    (hstep : ∀ a i b, exec a i = some b → I a → P a → (P b ↔ C a i))
    (hend : ∀ a i, exec a i = none → C a i) :
    Along (stepOption exec) (fun s => ∀ a, s = some a → P a) s is ↔
      (∀ a, s = some a → P a) ∧
        EachStep (stepOption exec) (fun s i => ∀ a, s = some a → C a i) s is := by
  have key : (∀ a, s = some a → P a) →
      (Along (stepOption exec) (fun s => ∀ a, s = some a → P a) s is ↔
        EachStep (stepOption exec) (fun s i => ∀ a, s = some a → C a i) s is) := by
    intro hP
    refine along_iff_eachStep (I := fun s => ∀ a, s = some a → I a) h0 hP ?_ ?_
    · intro s i hs _ _ b hb
      obtain ⟨a, rfl, hab⟩ := Option.bind_eq_some_iff.1 hb
      exact hI a i b hab (hs a rfl)
    · intro s i hs hPs
      cases s with
      | none => exact iff_of_true nofun nofun
      | some a =>
        simp only [stepOption, Option.bind_some, Option.some.injEq, forall_eq']
        cases hab : exec a i with
        | none => exact iff_of_true nofun (hend a i hab)
        | some b => simpa using hstep a i b hab (hs a rfl) (hPs a rfl)
  constructor
  · intro h
    have hP : ∀ a, s = some a → P a := h [] (by simp)
    exact ⟨hP, (key hP).1 h⟩
  · rintro ⟨hP, h⟩
    exact (key hP).2 h

end Runs
