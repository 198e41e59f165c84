import Mathlib.Data.Finset.Basic
import ModemControl.Foundation.Monitor

/-! # What a program holds

A ledger says what calls take and give back: descriptors, blocks of memory, locks. A program
keeps what it has taken in variables. It takes nothing into a variable that still holds
something, and gives nothing back that it does not hold; what its variables hold when it comes
to its end is lost.
-/

namespace Foundation

/-- `drops` is for calls that give back what is there, if anything is. -/
structure Ledger (Op : Type) (Res : Op → Type) (κ : Type) where
  takes : Op → Option κ
  succeeds : (op : Op) → Res op → Bool
  gives : Op → Option κ
  drops : Op → Option κ

namespace Ledger

variable {Op : Type} {Res : Op → Type} {κ α β : Type} {L : Ledger Op Res κ}

/-- Whether the call may come. -/
def Lets (L : Ledger Op Res κ) (held : Finset κ) (op : Op) : Prop :=
  (∀ k, L.takes op = some k → k ∉ held) ∧ ∀ k, L.gives op = some k → k ∈ held

/-- Nothing is taken or given back. -/
structure Quiet (L : Ledger Op Res κ) (op : Op) : Prop where
  takes : L.takes op = none
  gives : L.gives op = none
  drops : L.drops op = none

theorem lets_take {held : Finset κ} {op : Op} {k : κ} (takes : L.takes op = some k)
    (gives : L.gives op = none) (free : k ∉ held) : L.Lets held op := by
  constructor
  · intro k' same
    obtain rfl := Option.some.inj (takes.symm.trans same)
    exact free
  · intro k' none
    cases gives.symm.trans none

theorem lets_give {held : Finset κ} {op : Op} {k : κ} (takes : L.takes op = none)
    (gives : L.gives op = some k) (there : k ∈ held) : L.Lets held op := by
  constructor
  · intro k' none
    cases takes.symm.trans none
  · intro k' same
    obtain rfl := Option.some.inj (gives.symm.trans same)
    exact there

theorem lets_free {held : Finset κ} {op : Op} (takes : L.takes op = none)
    (gives : L.gives op = none) : L.Lets held op := by
  constructor
  · intro k none
    cases takes.symm.trans none
  · intro k none
    cases gives.symm.trans none

variable [DecidableEq κ]

def next (L : Ledger Op Res κ) (held : Finset κ) (op : Op) (r : Res op) : Finset κ :=
  match L.takes op, L.gives op, L.drops op with
  | some k, _, _ => if L.succeeds op r then insert k held else held
  | none, some k, _ => held.erase k
  | none, none, some k => held.erase k
  | none, none, none => held

def monitor (L : Ledger Op Res κ) : Monitor Op Res (Finset κ) where
  next := L.next
  ok := L.Lets

/-- What a path leaves in the variables, which are empty before it. -/
def left (L : Ledger Op Res κ) (path : List (Event Op Res)) : Finset κ := L.monitor.after ∅ path

/-- However it goes, the program leaves what was held before. -/
def Keeps (L : Ledger Op Res κ) (p : Prog Op Res α) (held : Finset κ) : Prop :=
  p.Meets L.monitor (fun _ after => after = held) held

section

variable {op : Op} {f : Res op → Prog Op Res β} {post : β → Finset κ → Prop} {held : Finset κ} {k : κ}

theorem Quiet.next (quiet : L.Quiet op) (r : Res op) : L.next held op r = held := by
  simp only [Ledger.next, quiet.takes, quiet.gives, quiet.drops]

theorem meets_quiet (quiet : L.Quiet op) (rest : ∀ r, (f r).Meets L.monitor post held) :
    (Prog.call op .ret >>= f).Meets L.monitor post held := by
  refine ⟨lets_free quiet.takes quiet.gives, ?_⟩
  intro r
  have same : L.monitor.next held op r = held := quiet.next r
  rw [same]
  exact rest r

theorem meets_take (takes : L.takes op = some k) (gives : L.gives op = none) (free : k ∉ held)
    (got : ∀ r, L.succeeds op r = true → (f r).Meets L.monitor post (insert k held))
    (failed : ∀ r, L.succeeds op r = false → (f r).Meets L.monitor post held) :
    (Prog.call op .ret >>= f).Meets L.monitor post held := by
  refine ⟨lets_take takes gives free, ?_⟩
  intro r
  have after : L.monitor.next held op r = if L.succeeds op r then insert k held else held := by
    simp only [monitor, Ledger.next, takes]
  rw [after]
  cases done : L.succeeds op r with
  | true => exact got r done
  | false => exact failed r done

theorem meets_give (takes : L.takes op = none) (gives : L.gives op = some k) (there : k ∈ held)
    (rest : ∀ r, (f r).Meets L.monitor post (held.erase k)) :
    (Prog.call op .ret >>= f).Meets L.monitor post held := by
  refine ⟨lets_give takes gives there, ?_⟩
  intro r
  have after : L.monitor.next held op r = held.erase k := by
    simp only [monitor, Ledger.next, takes, gives]
  rw [after]
  exact rest r

theorem meets_drop (takes : L.takes op = none) (gives : L.gives op = none)
    (drops : L.drops op = some k) (rest : ∀ r, (f r).Meets L.monitor post (held.erase k)) :
    (Prog.call op .ret >>= f).Meets L.monitor post held := by
  refine ⟨lets_free takes gives, ?_⟩
  intro r
  have after : L.monitor.next held op r = held.erase k := by
    simp only [monitor, Ledger.next, takes, gives, drops]
  rw [after]
  exact rest r

end

theorem keeps_quiet {p : Prog Op Res α} (quiet : p.Calls L.Quiet) (held : Finset κ) :
    L.Keeps p held := by
  apply Prog.Calls.meets_same
  apply quiet.mono
  intro op quiet
  exact ⟨lets_free quiet.takes quiet.gives, quiet.next⟩

theorem Keeps.bind {p : Prog Op Res α} {f : α → Prog Op Res β} {held : Finset κ}
    {post : β → Finset κ → Prop} (first : L.Keeps p held)
    (rest : ∀ a, (f a).Meets L.monitor post held) : (p >>= f).Meets L.monitor post held := by
  apply Prog.Meets.bind first
  intro a after same
  subst same
  exact rest a

/-- A path of a program that keeps nothing leaves nothing. -/
theorem Keeps.left_eq [DecidableEq Op] {p : Prog Op Res α} (keeps : L.Keeps p ∅)
    {path : List (Event Op Res)} {a : α} (taken : p.follow path = some a) :
    L.monitor.Accepts ∅ path ∧ L.left path = ∅ :=
  Prog.Meets.follow keeps taken

end Ledger

namespace Monitor

variable {Op : Type} {Res : Op → Type} {α μ ν : Type} {M : Monitor Op Res μ}
  {note : ν → (op : Op) → Res op → ν}

/-- A monitor that takes notes as well. -/
def noting (M : Monitor Op Res μ) (note : ν → (op : Op) → Res op → ν) : Monitor Op Res (μ × ν) where
  next m op r := (M.next m.1 op r, note m.2 op r)
  ok m op := M.ok m.1 op

/-- The notes on a path. -/
def noted (note : ν → (op : Op) → Res op → ν) (n : ν) : List (Event Op Res) → ν
  | [] => n
  | ⟨op, some r⟩ :: rest => noted note (note n op r) rest
  | ⟨_, none⟩ :: rest => noted note n rest

theorem after_noting (m : μ) (n : ν) (path : List (Event Op Res)) :
    (M.noting note).after (m, n) path = (M.after m path, noted note n path) := by
  induction path generalizing m n with
  | nil => rfl
  | cons e rest ih =>
      obtain ⟨op, res⟩ := e
      cases res with
      | none => exact ih m n
      | some r => exact ih (M.next m op r) (note n op r)

theorem accepts_noting {m : μ} {n : ν} {path : List (Event Op Res)}
    (accepts : (M.noting note).Accepts (m, n) path) : M.Accepts m path := by
  induction path generalizing m n with
  | nil => trivial
  | cons e rest ih =>
      obtain ⟨op, res⟩ := e
      cases res with
      | none => exact ⟨accepts.1, ih accepts.2⟩
      | some r => exact ⟨accepts.1, ih accepts.2⟩

end Monitor

/-- A program none of whose calls is noted. -/
theorem Prog.Meets.noting {Op : Type} {Res : Op → Type} {α μ ν : Type} {M : Monitor Op Res μ}
    {note : ν → (op : Op) → Res op → ν} {p : Prog Op Res α} {post : α → μ → Prop} {m : μ}
    (meets : p.Meets M post m) (n : ν) (unnoted : p.Calls fun op => ∀ r, note n op r = n) :
    p.Meets (M.noting note) (fun a m => post a m.1 ∧ m.2 = n) (m, n) := by
  induction p generalizing m with
  | ret a => exact ⟨meets, rfl⟩
  | call op next ih =>
      refine ⟨meets.1, ?_⟩
      intro r
      have same : (M.noting note).next (m, n) op r = (M.next m op r, n) :=
        congrArg (Prod.mk _) (unnoted.1 r)
      rw [same]
      exact ih r (meets.2 r) (unnoted.2 r)

end Foundation
