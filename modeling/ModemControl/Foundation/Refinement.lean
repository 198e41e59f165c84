import ModemControl.Foundation.Runs

/-! # Machines that stand for other machines

A machine is matched by a coarser one when each of its steps is a run of the coarser one,
which may be empty: a step that is not seen there. Then each of its runs is a run of the
coarser one, and what is known of the runs of that one carries over.
-/

namespace Foundation

variable {σ ι τ κ : Type} {step : σ → ι → Option σ} {cond : σ → ι → Prop}
  {coarse : τ → κ → Option τ} {coarseCond : τ → κ → Prop} {R : σ → τ → Prop}

/-- From `t` on there is a coarse run, of steps that meet `coarseCond`, to a state that `R`
    relates to `s`. -/
def Catches (coarse : τ → κ → Option τ) (coarseCond : τ → κ → Prop) (R : σ → τ → Prop) (s : σ)
    (t : τ) : Prop :=
  ∃ ks t', run coarse t ks = some t' ∧ Along coarse coarseCond t ks ∧ R s t'

/-- Each step that meets `cond` is matched, from wherever the coarse machine has come to since
    `t₀`. -/
def Matched (step : σ → ι → Option σ) (cond : σ → ι → Prop) (coarse : τ → κ → Option τ)
    (coarseCond : τ → κ → Prop) (R : σ → τ → Prop) (t₀ : τ) : Prop :=
  ∀ s i s' t js, R s t → run coarse t₀ js = some t → cond s i → step s i = some s' →
    Catches coarse coarseCond R s' t

section

variable {s : σ} {t t₁ t₂ : τ} {k k' : κ}

/-- For a step that is not seen. -/
theorem catches_unseen (still : R s t) : Catches coarse coarseCond R s t :=
  ⟨[], t, rfl, trivial, still⟩

theorem catches_later (taken : coarse t k = some t₁) (met : coarseCond t k)
    (later : Catches coarse coarseCond R s t₁) : Catches coarse coarseCond R s t := by
  obtain ⟨ks, t', reached, along, related⟩ := later
  refine ⟨k :: ks, t', ?_, ⟨met, ?_⟩, related⟩
  · rw [run, taken, Option.bind_some, reached]
  · intro u other
    obtain rfl := Option.some.inj (taken.symm.trans other)
    exact along

theorem catches_one (taken : coarse t k = some t₁) (met : coarseCond t k) (related : R s t₁) :
    Catches coarse coarseCond R s t :=
  catches_later taken met (catches_unseen related)

theorem Catches.mono {R' : σ → τ → Prop} (catches : Catches coarse coarseCond R s t)
    (weaker : ∀ t', R s t' → R' s t') : Catches coarse coarseCond R' s t := by
  obtain ⟨ks, t', reached, along, related⟩ := catches
  exact ⟨ks, t', reached, along, weaker t' related⟩

end

theorem along_append {t t' : τ} {js ks : List κ} (reached : run coarse t js = some t')
    (first : Along coarse coarseCond t js) (rest : Along coarse coarseCond t' ks) :
    Along coarse coarseCond t (js ++ ks) := by
  induction js generalizing t with
  | nil =>
      obtain rfl := Option.some.inj reached
      exact rest
  | cons j js ih =>
      obtain ⟨t₁, taken, later⟩ := run_cons reached
      refine ⟨first.1, ?_⟩
      intro u other
      obtain rfl := Option.some.inj (taken.symm.trans other)
      exact ih later (first.2 t₁ taken)

theorem along_of_forall {P : ι → Prop} {is : List ι} (all : ∀ i ∈ is, P i) (s : σ) :
    Along step (fun _ i => P i) s is := by
  induction is generalizing s with
  | nil => trivial
  | cons i rest ih =>
      rw [List.forall_mem_cons] at all
      exact ⟨all.1, fun s' _ => ih all.2 s'⟩

/-- The rule: a run of the machine goes on with a run of the coarse one. -/
theorem run_matched {t₀ t : τ} {js : List κ} (matched : Matched step cond coarse coarseCond R t₀)
    (before : run coarse t₀ js = some t) (met : Along coarse coarseCond t₀ js) {s s' : σ}
    {is : List ι} (related : R s t) (reached : run step s is = some s')
    (along : Along step cond s is) : Catches coarse coarseCond R s' t₀ := by
  induction is generalizing s t js with
  | nil =>
      obtain rfl := Option.some.inj reached
      exact ⟨js, t, before, met, related⟩
  | cons i rest ih =>
      obtain ⟨s₁, taken, later⟩ := run_cons reached
      obtain ⟨ks, t₁, behind, met', related'⟩ := matched s i s₁ t js related before along.1 taken
      have gone : run coarse t₀ (js ++ ks) = some t₁ := by
        rw [run_append, before, Option.bind_some, behind]
      exact ih gone (along_append before met met') related' later (along.2 s₁ taken)

end Foundation
