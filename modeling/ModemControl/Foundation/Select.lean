import Mathlib.Data.Finset.Insert

/-! # select

The set that is passed to `select` comes back as the subset that is ready, empty on a
timeout; an error leaves it as it was. A loop that passes the same variable again asks
only about what was ready the last time.
-/

namespace Foundation.Select

variable {ι : Type}

inductive Answer (ι : Type) where
  | error (eintr : Bool)
  /-- The descriptors that are ready; none of them on a timeout. -/
  | ready (set : Finset ι)
  deriving DecidableEq

namespace Answer

def Possible (passed : Finset ι) : Answer ι → Prop
  | error _ => True
  | ready set => set ⊆ passed

/-- What the variable holds after the call. -/
def leaves (passed : Finset ι) : Answer ι → Finset ι
  | error _ => passed
  | ready set => set

/-- The answer takes none of these descriptors out of the set. -/
def Spares (watched : Finset ι) : Answer ι → Prop
  | error _ => True
  | ready set => watched ⊆ set

instance [DecidableEq ι] (passed : Finset ι) (a : Answer ι) : Decidable (a.Possible passed) := by
  cases a <;> unfold Possible <;> infer_instance

instance [DecidableEq ι] (watched : Finset ι) (a : Answer ι) : Decidable (a.Spares watched) := by
  cases a <;> unfold Spares <;> infer_instance

theorem subset_leaves_iff {watched passed : Finset ι} (before : watched ⊆ passed) (a : Answer ι) :
    watched ⊆ a.leaves passed ↔ a.Spares watched := by
  cases a with
  | error eintr => exact iff_of_true before trivial
  | ready set => rfl

end Answer

end Foundation.Select
