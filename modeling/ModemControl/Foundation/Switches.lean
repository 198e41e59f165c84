import Mathlib.Logic.Function.Basic
import ModemControl.Foundation.Monitor

/-! # Switches

Some calls of a program set a switch on or off, each switch named by a key. A program
that borrows them should leave every one it set off on again. A switch belongs to a
device that may be missing: the first time it cannot be opened the device is given up
for good.
-/

namespace Foundation.Switches

variable {κ Op : Type} {Res : Op → Type}

/-- Every setting to off is followed by one of the same switch to on. -/
def Restored (settings : List (κ × Bool)) : Prop :=
  ∀ before k after, settings = before ++ (k, false) :: after → (k, true) ∈ after

/-- The settings of a trace, by what each call sets. A call that was cut off sets nothing. -/
def settings (sets : Op → Option (κ × Bool)) (trace : List (Event Op Res)) : List (κ × Bool) :=
  trace.filterMap fun e => if e.res.isSome then sets e.op else none

theorem Restored.append {xs ys : List (κ × Bool)} (first : Restored xs) (second : Restored ys) :
    Restored (xs ++ ys) := by
  intro before k after split
  rcases List.append_eq_append_iff.mp split with ⟨_, _, inSecond⟩ | ⟨rest, inFirst, tail⟩
  · exact second _ k after inSecond
  · cases rest with
    | nil => exact second [] k after tail.symm
    | cons setting rest =>
        obtain ⟨rfl, rfl⟩ := List.cons.inj tail
        exact List.mem_append_left ys (first before k rest inFirst)

theorem restored_flatten {lists : List (List (κ × Bool))} (all : ∀ l ∈ lists, Restored l) :
    Restored lists.flatten := by
  induction lists with
  | nil =>
      intro before k after split
      simp at split
  | cons l rest ih =>
      rw [List.forall_mem_cons] at all
      exact all.1.append (ih all.2)

theorem Restored.tail {setting : κ × Bool} {rest : List (κ × Bool)}
    (restored : Restored (setting :: rest)) : Restored rest := by
  intro before k after split
  exact restored (setting :: before) k after (congrArg (setting :: ·) split)

section

variable [DecidableEq κ]

def set (on : κ → Bool) (setting : κ × Bool) : κ → Bool :=
  Function.update on setting.1 setting.2

def settle (on : κ → Bool) (settings : List (κ × Bool)) : κ → Bool := settings.foldl set on

theorem settle_mem {on : κ → Bool} {settings : List (κ × Bool)} {k : κ}
    (ends : settle on settings k = true) : on k = true ∨ (k, true) ∈ settings := by
  induction settings generalizing on with
  | nil => exact Or.inl ends
  | cons setting rest ih =>
      have later : settle (set on setting) rest k = true := ends
      cases ih later with
      | inr later => exact Or.inr (List.mem_cons_of_mem _ later)
      | inl first =>
          obtain ⟨k', b⟩ := setting
          by_cases same : k = k'
          · subst same
            obtain rfl : b = true := by simpa only [set, Function.update_self] using first
            exact Or.inr List.mem_cons_self
          · left
            simpa only [set, Function.update_of_ne same] using first

theorem restored_of_settle {settings : List (κ × Bool)} {on : κ → Bool}
    (ends : ∀ k, settle on settings k = true) : Restored settings := by
  intro before k after split
  have last := ends k
  rw [split, settle, List.foldl_append, List.foldl_cons, ← settle] at last
  cases settle_mem last with
  | inr later => exact later
  | inl off => simp only [set, Function.update_self, Bool.false_eq_true] at off

/-- The monitor that follows the switches and lets every call come. -/
def watch (sets : Op → Option (κ × Bool)) : Monitor Op Res (κ → Bool) where
  next := fun on op _ =>
    match sets op with
    | some setting => set on setting
    | none => on
  ok := fun _ _ => True

theorem watch_after (sets : Op → Option (κ × Bool)) (on : κ → Bool) (trace : List (Event Op Res)) :
    (watch sets).after on trace = settle on (settings sets trace) := by
  induction trace generalizing on with
  | nil => rfl
  | cons e rest ih =>
      obtain ⟨op, res⟩ := e
      rw [Monitor.after_cons, ih]
      cases res with
      | none => rfl
      | some r =>
          simp only [Monitor.step, watch, settings, List.filterMap_cons, Option.isSome_some, if_true]
          cases sets op <;> rfl

section Programs

variable {α β : Type} {sets : Op → Option (κ × Bool)} {on : κ → Bool}

/-- Whatever the answers, the program leaves every switch on. -/
def Restores (sets : Op → Option (κ × Bool)) (p : Prog Op Res α) (on : κ → Bool) : Prop :=
  p.Meets (watch sets) (fun _ on => ∀ k, on k = true) on

/-- Calls that set nothing. -/
abbrev Quiet (sets : Op → Option (κ × Bool)) (p : Prog Op Res α) : Prop :=
  p.Calls fun op => sets op = none

theorem Quiet.restores {p : Prog Op Res α} (quiet : Quiet sets p) (start : ∀ k, on k = true) :
    Restores sets p on := by
  apply Prog.Calls.meets quiet
  · intro on op _ _
    trivial
  · intro on op r unset before
    simpa only [watch, unset] using before
  · exact start

theorem Quiet.restores_bind {p : Prog Op Res α} {f : α → Prog Op Res β} (quiet : Quiet sets p)
    (start : ∀ k, on k = true) (rest : ∀ a on, (∀ k, on k = true) → Restores sets (f a) on) :
    Restores sets (p >>= f) on :=
  Prog.Meets.bind (quiet.restores start) rest

/-- When the end of a program switches everything on, what comes before may leave the
    switches as it likes. -/
theorem restores_bind {p : Prog Op Res α} {f : α → Prog Op Res β}
    (rest : ∀ a on, Restores sets (f a) on) : Restores sets (p >>= f) on := by
  induction p generalizing on with
  | ret a => exact rest a on
  | call op next ih => exact ⟨trivial, fun r => ih r⟩

theorem Restores.restored [DecidableEq Op] {p : Prog Op Res α} {path : List (Event Op Res)} {a : α}
    (restores : Restores sets p fun _ => true) (taken : p.follow path = some a) :
    Restored (settings sets path) := by
  have ends := (Prog.Meets.follow restores taken).2
  rw [watch_after] at ends
  exact restored_of_settle ends

end Programs

end

/-- A device that carries one switch, with the latch of the code that gave it up. -/
structure Device where
  bFailed : Bool := false
  enabled : Bool := true
  deriving Repr, DecidableEq

/-- One setting: open the device, unless it was given up, and set the switch. -/
def Device.enable (opens bEnable : Bool) (d : Device) : Device :=
  if d.bFailed then d
  else if opens then { d with enabled := bEnable }
  else { d with bFailed := true }

/-- A device that answers settings. -/
def Device.Answers (opens : Bool) (d : Device) : Prop := d.bFailed = false ∧ opens = true

theorem Device.enable_answers {opens b : Bool} {d : Device} (answers : d.Answers opens) :
    (d.enable opens b).Answers opens ∧ (d.enable opens b).enabled = b := by
  obtain ⟨failed, rfl⟩ := answers
  simp only [enable, Answers, failed, Bool.false_eq_true, if_false, if_true, and_self]

theorem Device.enable_silent {opens b : Bool} {d : Device} (silent : ¬ d.Answers opens) :
    (d.enable opens b).enabled = d.enabled := by
  unfold enable
  split
  · rfl
  · rename_i working
    split
    · rename_i opened
      exact absurd ⟨by simpa using working, opened⟩ silent
    · rfl

section

variable [DecidableEq κ]

/-- One setting among the devices of all switches. -/
def apply (opens : κ → Bool) (devices : κ → Device) (setting : κ × Bool) : κ → Device :=
  Function.update devices setting.1 ((devices setting.1).enable (opens setting.1) setting.2)

def applyAll (opens : κ → Bool) (devices : κ → Device) (settings : List (κ × Bool)) : κ → Device :=
  settings.foldl (apply opens) devices

/-- What is on before settings that restore everything is on after them: a device that is
    off in between answers, and is still to be set on. -/
theorem Restored.enabled {opens : κ → Bool} {devices : κ → Device} {settings : List (κ × Bool)}
    (restored : Restored settings) {k : κ}
    (start : (devices k).enabled = true ∨ (devices k).Answers (opens k) ∧ (k, true) ∈ settings) :
    (applyAll opens devices settings k).enabled = true := by
  induction settings generalizing devices with
  | nil => simpa only [applyAll, List.foldl_nil, List.not_mem_nil, and_false, or_false] using start
  | cons setting rest ih =>
      rw [applyAll, List.foldl_cons, ← applyAll]
      apply ih restored.tail
      obtain ⟨k', b⟩ := setting
      by_cases same : k = k'
      · subst same
        rw [apply, Function.update_self]
        by_cases answers : (devices k).Answers (opens k)
        · obtain ⟨still, now⟩ := Device.enable_answers (b := b) answers
          cases b with
          | true => exact Or.inl now
          | false => exact Or.inr ⟨still, restored [] k rest rfl⟩
        · rw [Device.enable_silent answers]
          cases start with
          | inl enabled => exact Or.inl enabled
          | inr answering => exact absurd answering.1 answers
      · rw [apply, Function.update_of_ne same]
        have other : (k, true) ≠ (k', b) := fun equal => same (congrArg Prod.fst equal)
        simpa only [List.mem_cons, other, false_or] using start

end

end Foundation.Switches
