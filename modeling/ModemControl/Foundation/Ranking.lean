import Mathlib.Data.List.Count
import ModemControl.Foundation.Runs

/-! # Bounded response

What a run does at last is shown with a rank: the steps of the party that is to act lower
it, and no other step raises it. Then that party takes no more steps than the rank before it
has acted.
-/

namespace Foundation

variable {σ ι : Type} {step : σ → ι → Option σ} {cond : σ → ι → Prop}

theorem countP_le_of_rank {acts : ι → Bool} {within : σ → Nat → Prop}
    (lowers : ∀ s i s' n, within s n → cond s i → step s i = some s' →
      acts i → ∃ m, m + 1 ≤ n ∧ within s' m)
    (keeps : ∀ s i s' n, within s n → cond s i → step s i = some s' → ¬ acts i → within s' n)
    {s t : σ} {is : List ι} {n : Nat} (start : within s n) (along : Along step cond s is)
    (reached : run step s is = some t) : is.countP acts ≤ n := by
  induction is generalizing s n with
  | nil => exact Nat.zero_le n
  | cons i rest ih =>
      obtain ⟨s', taken, later⟩ := run_cons reached
      rw [List.countP_cons]
      by_cases its : acts i
      · obtain ⟨m, lower, left⟩ := lowers s i s' n start along.1 taken its
        have tail := ih left (along.2 s' taken) later
        rw [if_pos its]
        omega
      · have tail := ih (keeps s i s' n start along.1 taken its) (along.2 s' taken) later
        rw [if_neg its]
        exact tail

/-- A step that is not ruled out along a run is taken somewhere in it. -/
theorem exists_of_not_along {done : σ → ι → Prop} {s : σ} {is : List ι}
    (other : ¬ Along step (fun s i => ¬ done s i) s is) :
    ∃ before i later s', is = before ++ i :: later ∧ run step s before = some s' ∧ done s' i := by
  induction is generalizing s with
  | nil => exact absurd trivial other
  | cons i rest ih =>
      by_cases now : done s i
      · exact ⟨[], i, rest, s, rfl, rfl, now⟩
      · have tail : ∃ s', step s i = some s' ∧ ¬ Along step (fun s i => ¬ done s i) s' rest := by
          by_contra none
          refine other ⟨now, ?_⟩
          intro s' taken
          by_contra not
          exact none ⟨s', taken, not⟩
        obtain ⟨s₁, taken, not⟩ := tail
        obtain ⟨before, j, later, s', split, reached, met⟩ := ih not
        refine ⟨i :: before, j, later, s', by rw [split, List.cons_append], ?_, met⟩
        rw [run, taken]
        exact reached

theorem along_and {goal : σ → ι → Prop} {s : σ} {is : List ι} :
    Along step (fun s i => cond s i ∧ goal s i) s is ↔
      Along step cond s is ∧ Along step goal s is := by
  induction is generalizing s with
  | nil => simp [Along]
  | cons i rest ih =>
      simp only [Along, ih]
      constructor
      · intro both
        exact ⟨⟨both.1.1, fun s' taken => (both.2 s' taken).1⟩,
          both.1.2, fun s' taken => (both.2 s' taken).2⟩
      · intro both
        exact ⟨⟨both.1.1, both.2.1⟩, fun s' taken => ⟨both.1.2 s' taken, both.2.2 s' taken⟩⟩

end Foundation
