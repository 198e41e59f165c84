import Mathlib.Logic.Basic

/-! # Runs of a partial step function

A machine is a function `step : σ → ι → Option σ`: the state after one input, or
`none` when the input is not possible in that state. Interleavings of several
parties are lists of inputs, so a property of every interleaving is a property of
every list. `Along` speaks about the steps of a run and `Throughout` about its
states; the rules below move between the two.
-/

namespace Foundation

variable {σ ι : Type}

/-- The state reached by a list of inputs, when every one of them was possible. -/
def run (step : σ → ι → Option σ) : σ → List ι → Option σ
  | s, [] => some s
  | s, i :: rest => (step s i).bind fun s' => run step s' rest

/-- Every step of the run meets `cond` in the state in which it is taken. -/
def Along (step : σ → ι → Option σ) (cond : σ → ι → Prop) : σ → List ι → Prop
  | _, [] => True
  | s, i :: rest => cond s i ∧ ∀ s', step s i = some s' → Along step cond s' rest

/-- Every state of the run, the first and the last included, meets `inv`. -/
def Throughout (step : σ → ι → Option σ) (inv : σ → Prop) : σ → List ι → Prop
  | s, [] => inv s
  | s, i :: rest => inv s ∧ ∀ s', step s i = some s' → Throughout step inv s' rest

variable {step : σ → ι → Option σ} {cond goal : σ → ι → Prop} {inv : σ → Prop}

theorem run_cons {s t : σ} {i : ι} {rest : List ι} (h : run step s (i :: rest) = some t) :
    ∃ s', step s i = some s' ∧ run step s' rest = some t := by
  simpa only [run, Option.bind_eq_some_iff] using h

theorem run_append (s : σ) (is js : List ι) :
    run step s (is ++ js) = (run step s is).bind fun s' => run step s' js := by
  induction is generalizing s with
  | nil => rfl
  | cons i rest ih =>
      rw [List.cons_append, run, run]
      cases step s i with
      | none => rfl
      | some s' => exact ih s'

/-- Where the inputs so far tell which input is possible next, a run is possible when each
    of its inputs is possible behind those before it. -/
theorem run_isSome_iff {after : List ι → σ → Prop} {fits : List ι → ι → Prop}
    (exact : ∀ before s i, after before s → ((step s i).isSome ↔ fits before i))
    (keeps : ∀ before s i s', after before s → step s i = some s' → after (before ++ [i]) s')
    {before : List ι} {s : σ} {is : List ι} (start : after before s) :
    (run step s is).isSome ↔ ∀ mid i rest, is = mid ++ i :: rest → fits (before ++ mid) i := by
  induction is generalizing before s with
  | nil => simp [run]
  | cons i rest ih =>
      cases taken : step s i with
      | none =>
          have stuck : ¬ fits before i := by
            rw [← exact before s i start, taken]
            simp
          rw [run, taken]
          constructor
          · intro some
            cases some
          · intro all
            have first := all [] i rest rfl
            rw [List.append_nil] at first
            exact absurd first stuck
      | some s' =>
          have first : fits before i := by
            rw [← exact before s i start, taken]
            rfl
          rw [run, taken, Option.bind_some, ih (keeps before s i s' start taken)]
          constructor
          · intro later mid j rest' split
            cases mid with
            | nil =>
                obtain ⟨rfl, rfl⟩ := List.cons.inj split
                rwa [List.append_nil]
            | cons k mid =>
                obtain ⟨rfl, tail⟩ := List.cons.inj split
                simpa using later mid j rest' tail
          · intro all mid j rest' split
            have whole : i :: rest = (i :: mid) ++ j :: rest' := by rw [split, List.cons_append]
            simpa using all (i :: mid) j rest' whole

theorem run_after {after : List ι → σ → Prop}
    (keeps : ∀ before s i s', after before s → step s i = some s' → after (before ++ [i]) s')
    {before : List ι} {s t : σ} {is : List ι} (start : after before s)
    (reached : run step s is = some t) : after (before ++ is) t := by
  induction is generalizing before s with
  | nil =>
      obtain rfl : s = t := by simpa only [run, Option.some.injEq] using reached
      rwa [List.append_nil]
  | cons i rest ih =>
      obtain ⟨s', taken, later⟩ := run_cons reached
      simpa using ih (keeps before s i s' start taken) later

theorem Throughout.first {s : σ} {is : List ι} (h : Throughout step inv s is) : inv s := by
  cases is with
  | nil => exact h
  | cons i rest => exact h.1

theorem Throughout.last {s t : σ} {is : List ι} (h : Throughout step inv s is)
    (reached : run step s is = some t) : inv t := by
  induction is generalizing s with
  | nil =>
      obtain rfl : s = t := by simpa only [run, Option.some.injEq] using reached
      exact h
  | cons i rest ih =>
      obtain ⟨s', taken, later⟩ := run_cons reached
      exact ih (h.2 s' taken) later

theorem Throughout.mono {inv' : σ → Prop} {s : σ} {is : List ι} (h : Throughout step inv s is)
    (weaker : ∀ s, inv s → inv' s) : Throughout step inv' s is := by
  induction is generalizing s with
  | nil => exact weaker s h
  | cons i rest ih => exact ⟨weaker s h.1, fun s' taken => ih (h.2 s' taken)⟩

theorem throughout_and {inv inv' : σ → Prop} {s : σ} {is : List ι} :
    Throughout step (fun s => inv s ∧ inv' s) s is ↔
      Throughout step inv s is ∧ Throughout step inv' s is := by
  induction is generalizing s with
  | nil => rfl
  | cons i rest ih =>
      simp only [Throughout, ih]
      constructor
      · intro both
        exact ⟨⟨both.1.1, fun s' taken => (both.2 s' taken).1⟩,
          both.1.2, fun s' taken => (both.2 s' taken).2⟩
      · intro both
        exact ⟨⟨both.1.1, both.2.1⟩,
          fun s' taken => ⟨both.1.2 s' taken, both.2.2 s' taken⟩⟩

/-- The invariant rule, for runs whose steps all meet a condition. -/
theorem throughout_of_along
    (keeps : ∀ s i s', inv s → cond s i → step s i = some s' → inv s')
    {s : σ} {is : List ι} (start : inv s) (along : Along step cond s is) :
    Throughout step inv s is := by
  induction is generalizing s with
  | nil => exact start
  | cons i rest ih =>
      refine ⟨start, ?_⟩
      intro s' taken
      exact ih (keeps s i s' start along.1 taken) (along.2 s' taken)

/-- When one step keeps the invariant and does what is asked of it exactly if it
    meets a condition, so does a whole run. -/
theorem kept_iff_along {s t : σ} {is : List ι}
    (exact : ∀ i ∈ is, ∀ s s', inv s → step s i = some s' → (inv s' ∧ goal s i ↔ cond s i))
    (reached : run step s is = some t) (start : inv s) :
    Throughout step inv s is ∧ Along step goal s is ↔ Along step cond s is := by
  induction is generalizing s with
  | nil => exact ⟨fun _ => trivial, fun _ => ⟨start, trivial⟩⟩
  | cons i rest ih =>
      obtain ⟨s₁, taken, later⟩ := run_cons reached
      have only : ∀ s', step s i = some s' → s' = s₁ := by
        intro s' other
        exact Option.some.inj (other.symm.trans taken)
      have head := exact i List.mem_cons_self s s₁ start taken
      have tail : inv s₁ → _ := ih (fun j member => exact j (List.mem_cons_of_mem i member)) later
      constructor
      · intro kept
        have next : inv s₁ := (kept.1.2 s₁ taken).first
        refine ⟨head.mp ⟨next, kept.2.1⟩, ?_⟩
        intro s' other
        obtain rfl := only s' other
        exact (tail next).mp ⟨kept.1.2 s' other, kept.2.2 s' other⟩
      · intro along
        obtain ⟨next, done⟩ := head.mpr along.1
        have kept := (tail next).mpr (along.2 s₁ taken)
        refine ⟨⟨start, ?_⟩, done, ?_⟩
        · intro s' other
          exact only s' other ▸ kept.1
        · intro s' other
          exact only s' other ▸ kept.2

/-- What every state of a run meets says of every step of it. -/
theorem along_of_throughout (each : ∀ s i, inv s → cond s i) {s : σ} {is : List ι}
    (kept : Throughout step inv s is) : Along step cond s is := by
  induction is generalizing s with
  | nil => trivial
  | cons i rest ih => exact ⟨each s i kept.1, fun s' taken => ih (kept.2 s' taken)⟩

theorem along_true (s : σ) (is : List ι) : Along step (fun _ _ => True) s is := by
  induction is generalizing s with
  | nil => trivial
  | cons i rest ih => exact ⟨trivial, fun s' _ => ih s'⟩

/-- When one step keeps the invariant exactly if it meets a condition, so does a whole run. -/
theorem throughout_iff_along_mem {s t : σ} {is : List ι}
    (exact : ∀ i ∈ is, ∀ s s', inv s → step s i = some s' → (inv s' ↔ cond s i))
    (reached : run step s is = some t) (start : inv s) :
    Throughout step inv s is ↔ Along step cond s is := by
  have one : ∀ i ∈ is, ∀ s s', inv s → step s i = some s' →
      (inv s' ∧ (fun _ _ => True : σ → ι → Prop) s i ↔ cond s i) := by
    intro i member s s' before taken
    simpa only [and_true] using exact i member s s' before taken
  rw [← kept_iff_along one reached start]
  exact (and_iff_left (along_true s is)).symm

theorem throughout_iff_along
    (exact : ∀ s i s', inv s → step s i = some s' → (inv s' ↔ cond s i))
    {s t : σ} {is : List ι} (reached : run step s is = some t) (start : inv s) :
    Throughout step inv s is ↔ Along step cond s is :=
  throughout_iff_along_mem (fun i _ s s' => exact s i s') reached start

theorem along_congr (same : ∀ s i, cond s i ↔ goal s i) (s : σ) (is : List ι) :
    Along step cond s is ↔ Along step goal s is := by
  induction is generalizing s with
  | nil => rfl
  | cons i rest ih => simp only [Along, same, ih]

/-- Conditions that can be checked on a step can be checked along a run. -/
instance decidableAlong [∀ s i, Decidable (cond s i)] :
    (s : σ) → (is : List ι) → Decidable (Along step cond s is)
  | _, [] => .isTrue trivial
  | s, i :: rest =>
      match taken : step s i with
      | none => decidable_of_iff (cond s i)
          ⟨fun met => ⟨met, fun _ other => nomatch taken.symm.trans other⟩, fun along => along.1⟩
      | some s₁ =>
          have : Decidable (Along step cond s₁ rest) := decidableAlong s₁ rest
          decidable_of_iff (cond s i ∧ Along step cond s₁ rest)
            ⟨fun both => ⟨both.1, fun _ other => Option.some.inj (taken.symm.trans other) ▸ both.2⟩,
              fun along => ⟨along.1, along.2 s₁ taken⟩⟩

end Foundation
