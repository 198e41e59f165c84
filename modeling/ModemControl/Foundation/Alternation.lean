import Mathlib.Data.List.Nodup
import Mathlib.Data.List.Count

/-! # Locks that are taken and released in turn

The commands a program gives to several locks, each lock named by a key. For every key
taken alone they should go lock, unlock, lock, unlock, and so on, with an unlock last.
-/

namespace Foundation.Alternation

inductive Turn where
  | lock
  | unlock
  deriving Repr, DecidableEq

/-- Lock and unlock in strict alternation, a lock first and an unlock last. -/
def Alternates : List Turn → Prop
  | [] => True
  | .lock :: .unlock :: rest => Alternates rest
  | _ => False

/-- The last command was a lock. -/
def Held (turns : List Turn) : Prop := turns.getLast? = some .lock

theorem Alternates.eq_nil_or_pair {turns : List Turn} (alternates : Alternates turns) :
    turns = [] ∨ ∃ rest, turns = .lock :: .unlock :: rest := by
  unfold Alternates at alternates
  split at alternates
  · exact Or.inl rfl
  · exact Or.inr ⟨_, rfl⟩
  · exact alternates.elim

theorem Alternates.append_iff {xs : List Turn} (alternates : Alternates xs) (ys : List Turn) :
    Alternates (xs ++ ys) ↔ Alternates ys := by
  induction xs using Alternates.induct with
  | case1 => rfl
  | case2 rest ih => exact ih alternates
  | case3 xs notEmpty notPair =>
      rcases alternates.eq_nil_or_pair with empty | ⟨rest, pair⟩
      · exact absurd empty notEmpty
      · exact absurd pair (notPair rest)

theorem Alternates.not_held {turns : List Turn} (alternates : Alternates turns) : ¬ Held turns := by
  induction turns using Alternates.induct with
  | case1 => simp [Held]
  | case2 rest ih =>
      have tail := ih alternates
      cases rest with
      | nil => simp [Held]
      | cons next rest => simpa [Held] using tail
  | case3 turns notEmpty notPair =>
      rcases alternates.eq_nil_or_pair with empty | ⟨rest, pair⟩
      · exact absurd empty notEmpty
      · exact absurd pair (notPair rest)

theorem alternates_locks_iff (n : Nat) : Alternates (List.replicate n .lock) ↔ n = 0 := by
  cases n with
  | zero => simp [Alternates]
  | succ n => cases n <;> simp [Alternates, List.replicate_succ]

theorem alternates_locks_unlocks_iff (n : Nat) :
    Alternates (List.replicate n .lock ++ List.replicate n .unlock) ↔ n ≤ 1 := by
  cases n with
  | zero => simp [Alternates]
  | succ n => cases n <;> simp [Alternates, List.replicate_succ]

variable {κ : Type} [DecidableEq κ]

/-- The commands for one key. -/
def turns (k : κ) (cmds : List (κ × Turn)) : List Turn :=
  (cmds.filter fun cmd => cmd.1 = k).map Prod.snd

@[simp] theorem turns_append (k : κ) (xs ys : List (κ × Turn)) :
    turns k (xs ++ ys) = turns k xs ++ turns k ys := by
  simp [turns]

/-- The same command for several keys. -/
theorem turns_map (k : κ) (keys : List κ) (t : Turn) :
    turns k (keys.map fun key => (key, t)) = List.replicate (keys.count k) t := by
  induction keys with
  | nil => rfl
  | cons key keys ih =>
      simp only [turns] at ih ⊢
      by_cases same : key = k
      · simp [same, ih, List.replicate_succ]
      · simp [same, ih]

structure Balanced (cmds : List (κ × Turn)) : Prop where
  alternates : ∀ k, Alternates (turns k cmds)
  released : ∀ k, ¬ Held (turns k cmds)

theorem balanced_iff {cmds : List (κ × Turn)} :
    Balanced cmds ↔ ∀ k, Alternates (turns k cmds) :=
  ⟨fun balanced => balanced.alternates,
    fun alternates => ⟨alternates, fun k => (alternates k).not_held⟩⟩

theorem balanced_nil : Balanced ([] : List (κ × Turn)) :=
  balanced_iff.mpr fun _ => trivial

theorem Balanced.append_iff {xs : List (κ × Turn)} (balanced : Balanced xs)
    (ys : List (κ × Turn)) : Balanced (xs ++ ys) ↔ Balanced ys := by
  rw [balanced_iff, balanced_iff]
  apply forall_congr'
  intro k
  rw [turns_append]
  exact (balanced.alternates k).append_iff _

/-- What is locked and not unlocked again must be nothing. -/
theorem balanced_locks_iff (keys : List κ) :
    Balanced (keys.map fun key => (key, Turn.lock)) ↔ keys = [] := by
  rw [balanced_iff, List.eq_nil_iff_forall_not_mem]
  apply forall_congr'
  intro k
  rw [turns_map, alternates_locks_iff, List.count_eq_zero]

/-- Keys that are all locked first and all unlocked later must be different. -/
theorem balanced_locks_unlocks_iff (keys : List κ) :
    Balanced ((keys.map fun key => (key, Turn.lock)) ++ keys.map fun key => (key, Turn.unlock)) ↔
      keys.Nodup := by
  rw [balanced_iff, List.nodup_iff_count_le_one]
  apply forall_congr'
  intro k
  rw [turns_append, turns_map, turns_map, alternates_locks_unlocks_iff]

end Foundation.Alternation
