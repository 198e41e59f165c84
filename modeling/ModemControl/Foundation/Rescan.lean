import Mathlib.Data.Set.Insert

/-! # A table that is scanned again when it has changed

One party goes through the cells of a table, remembers what they hold, and then waits.
The others fill cells without asking it, and call it afterwards. What a cell holds is not
overlooked as long as it is remembered, or its cell is still to come in the scan, or a call
is under way.
-/

namespace Foundation.Rescan

variable {ι α : Type} {holds holds' : ι → α → Prop} {seen seen' : Set α} {todo todo' : Set ι}
  {called called' : Prop}

def Covered (holds : ι → α → Prop) (seen : Set α) (todo : Set ι) (called : Prop) : Prop :=
  called ∨ ∀ i a, holds i a → a ∈ seen ∨ i ∈ todo

theorem covered_start (holds : ι → α → Prop) (called : Prop) : Covered holds ∅ Set.univ called :=
  Or.inr fun i _ _ => Or.inr (Set.mem_univ i)

theorem covered_called (now : called) : Covered holds seen todo called := Or.inl now

/-- Cells may be cleared, and what none of them holds may be forgotten. -/
theorem Covered.mono (covered : Covered holds seen todo called)
    (fewer : ∀ i a, holds' i a → holds i a) (kept : ∀ i a, holds' i a → a ∈ seen → a ∈ seen')
    (left : todo ⊆ todo') (still : called → called') : Covered holds' seen' todo' called' := by
  rcases covered with now | covered
  · exact Or.inl (still now)
  · right
    intro i a held
    rcases covered i a (fewer i a held) with known | ahead
    · exact Or.inl (kept i a held known)
    · exact Or.inr (left ahead)

/-- A cell is scanned. -/
theorem Covered.scan {i : ι} (covered : Covered holds seen todo called)
    (known : ∀ a, holds i a → a ∈ seen') (more : seen ⊆ seen') (left : todo ⊆ insert i todo') :
    Covered holds seen' todo' called := by
  refine covered.imp id ?_
  intro covered j a held
  rcases covered j a held with before | ahead
  · exact Or.inl (more before)
  · rcases left ahead with rfl | ahead
    · exact Or.inl (known a held)
    · exact Or.inr ahead

/-- When the scan is over and nobody calls, everything is remembered. -/
theorem Covered.mem (covered : Covered holds seen ∅ called) (quiet : ¬ called) {i : ι} {a : α}
    (held : holds i a) : a ∈ seen := by
  rcases covered with now | covered
  · exact absurd now quiet
  · exact (covered i a held).resolve_right (Set.notMem_empty i)

end Foundation.Rescan
