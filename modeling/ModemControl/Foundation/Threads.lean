import Mathlib.Data.List.Basic
import ModemControl.Foundation.Monitor
import ModemControl.Foundation.Runs

/-! # Threads that start threads

Each kind of thread has calls of its own, and a program that it runs round after round until
one of them is its last. A call is a step when it begins and a step when it comes back, so
the calls of different threads overlap; some calls start another thread.

What only one thread may do at a time needs no lock where the right to do it is handed from
thread to thread: the thread that has it may use it, or start another thread with it and
never use it again.
-/

namespace Foundation

structure Fleet (κ : Type) where
  Op : κ → Type
  Res : (k : κ) → Op k → Type
  /-- What a thread is started with, and keeps from one round to the next. -/
  Local : κ → Type
  /-- One round, and nothing if it was the last. -/
  round : (k : κ) → Local k → Prog (Op k) (Res k) (Option (Local k))
  /-- The thread that a call may have started when it comes back. -/
  starts : (k : κ) → (op : Op k) → Res k op → Option ((k' : κ) × Local k')

namespace Fleet

variable {κ : Type} (F : Fleet κ)

structure Thread where
  kind : κ
  rest : Prog (F.Op kind) (F.Res kind) (Option (F.Local kind))
  /-- It is in the first call of what is left. -/
  calling : Bool := false

variable {F}

def start (k : (k : κ) × F.Local k) : F.Thread := ⟨k.1, F.round k.1 k.2, false⟩

variable (F) in
/-- The thread that makes a step, what its call comes back with if it does, and whether the
    thread that the call may start comes to be. -/
structure Input where
  i : Nat
  answer : (k : κ) → (op : F.Op k) → Option (F.Res k op)
  created : Bool

/-- A step of a thread, with the thread that it starts. -/
def Thread.step (input : F.Input) : F.Thread → Option (F.Thread × Option F.Thread)
  | ⟨_, .ret none, _⟩ => none
  | ⟨k, .ret (some l), _⟩ => some (start ⟨k, l⟩, none)
  | ⟨k, .call op next, false⟩ => some (⟨k, .call op next, true⟩, none)
  | ⟨k, .call op next, true⟩ =>
      (input.answer k op).map fun r =>
        (⟨k, next r, false⟩, if input.created then (F.starts k op r).map start else none)

/-- The threads by the order in which they were started. -/
def step (threads : List F.Thread) (input : F.Input) : Option (List F.Thread) :=
  threads[input.i]?.bind fun t =>
    (t.step input).map fun (t', started) => threads.set input.i t' ++ started.toList

variable (F) in
/-- What the right is needed for, which calls may start a thread with it, and which threads
    have it at the beginning of a round. -/
structure Right where
  needed : (k : κ) → F.Op k → Bool
  hands : (k : κ) → F.Op k → Bool
  has : (k : κ) × F.Local k → Bool
  hands_of_starts : ∀ k op r k', F.starts k op r = some k' → has k' = true → hands k op = true

namespace Right

variable (R : F.Right)

/-- Follows whether a thread still has the right. -/
def monitor (k : κ) : Monitor (F.Op k) (F.Res k) Bool where
  next has op _ := has && !R.hands k op
  ok has op := (R.needed k op || R.hands k op) = true → has = true

/-- Calls that hand nothing on, and use the right only where it is there. -/
theorem meets_keeping {R : F.Right} {k : κ} {α : Type} {p : Prog (F.Op k) (F.Res k) α} {has : Bool}
    (calls : p.Calls fun op => R.hands k op = false ∧ (R.needed k op = true → has = true)) :
    p.Meets (R.monitor k) (fun _ has' => has' = has) has := by
  apply Prog.Calls.meets_same
  refine calls.mono ?_
  rintro op ⟨keeps, allowed⟩
  simp only [monitor, keeps, Bool.or_false, Bool.not_false, Bool.and_true]
  exact ⟨allowed, fun _ => trivial⟩

/-- A kind of thread none of whose calls hands on the right, or needs it without having it. -/
theorem meets_of_all {R : F.Right} {k : κ} {α : Type} (p : Prog (F.Op k) (F.Res k) α) {has : Bool}
    (all : ∀ op, R.hands k op = false ∧ (R.needed k op = true → has = true)) :
    p.Meets (R.monitor k) (fun _ has' => has' = has) has := by
  apply meets_keeping
  induction p with
  | ret a => trivial
  | call op next ih => exact ⟨all op, ih⟩

/-- No round uses or hands on the right without having it. -/
def Kept : Prop :=
  ∀ k l, (F.round k l).Meets (R.monitor k)
    (fun l' has => ∀ l₁, l' = some l₁ → R.has ⟨k, l₁⟩ = true → has = true) (R.has ⟨k, l⟩)

/-- The thread is in a call that the right is needed for. -/
def Uses (t : F.Thread) : Prop :=
  t.calling = true ∧ ∃ op next, t.rest = .call op next ∧ R.needed t.kind op = true

variable {R}

/-- The rest of a thread that has the right, or has it no more. -/
def Follows (R : F.Right) (t : F.Thread) (has : Bool) : Prop :=
  t.rest.Meets (R.monitor t.kind)
    (fun l' has => ∀ l₁, l' = some l₁ → R.has ⟨t.kind, l₁⟩ = true → has = true) has

theorem has_of_uses {t : F.Thread} {has : Bool} (follows : Follows R t has) (uses : R.Uses t) :
    has = true := by
  obtain ⟨_, op, next, rest, needed⟩ := uses
  rw [Follows, rest] at follows
  exact follows.1 (by rw [needed, Bool.true_or])

/-- What a step of a thread makes of the right: it keeps it or loses it, and a thread that
    starts with it has it from this one. -/
theorem step_right (kept : R.Kept) {t t' : F.Thread} {started : Option F.Thread} {input : F.Input}
    {has : Bool} (follows : Follows R t has) (taken : t.step input = some (t', started)) :
    ∃ has', Follows R t' has' ∧ (has' = true → has = true) ∧
      ∀ u, started = some u → ∃ given, Follows R u given ∧
        (given = true → has = true ∧ has' = false) := by
  obtain ⟨k, rest, calling⟩ := t
  cases rest with
  | ret l =>
      cases l with
      | none => cases taken
      | some l =>
          obtain ⟨rfl, rfl⟩ := Prod.mk.inj (Option.some.inj taken)
          exact ⟨_, kept k l, follows l rfl, nofun⟩
  | call op next =>
      cases calling with
      | false =>
          obtain ⟨rfl, rfl⟩ := Prod.mk.inj (Option.some.inj taken)
          exact ⟨has, follows, id, nofun⟩
      | true =>
          obtain ⟨r, answered, same⟩ := Option.map_eq_some_iff.mp taken
          obtain ⟨rfl, rfl⟩ := Prod.mk.inj same
          refine ⟨_, follows.2 r, ?_, ?_⟩
          · intro still
            simp only [monitor, Bool.and_eq_true] at still
            exact still.1
          · intro u begun
            split at begun
            · obtain ⟨k', starts, rfl⟩ := Option.map_eq_some_iff.mp begun
              refine ⟨_, kept k'.1 k'.2, ?_⟩
              intro given
              have hands := R.hands_of_starts k op r k' starts given
              refine ⟨follows.1 (by rw [hands, Bool.or_true]), ?_⟩
              simp only [monitor, hands, Bool.not_true, Bool.and_false]
            · cases begun

/-- Which thread has the right; at most one does. -/
def Held (R : F.Right) (threads : List F.Thread) : Prop :=
  ∃ has : Nat → Bool, (∀ i j, has i = true → has j = true → i = j) ∧
    ∀ i t, threads[i]? = some t → Follows R t (has i)

theorem held_start (kept : R.Kept) (k : (k : κ) × F.Local k) : Held R [start k] := by
  refine ⟨fun i => i == 0 && R.has k, ?_, ?_⟩
  · intro i j first second
    simp only [Bool.and_eq_true, beq_iff_eq] at first second
    rw [first.1, second.1]
  · intro i t found
    cases i with
    | zero =>
        obtain rfl := Option.some.inj found
        exact kept k.1 k.2
    | succ i => cases found

theorem held_step (kept : R.Kept) {threads threads' : List F.Thread} {input : F.Input}
    (held : Held R threads) (taken : step threads input = some threads') : Held R threads' := by
  obtain ⟨has, one, each⟩ := held
  obtain ⟨t, found, taken⟩ := Option.bind_eq_some_iff.mp taken
  obtain ⟨⟨t', started⟩, stepped, rfl⟩ := Option.map_eq_some_iff.mp taken
  obtain ⟨has', follows', keeps, begun⟩ := step_right kept (each input.i t found) stepped
  have inside : input.i < threads.length := (List.getElem?_eq_some_iff.mp found).1
  have stay (given : Bool) (only : given = true → has input.i = true ∧ has' = false) :
      ∀ i j, (if i = threads.length then given else if i = input.i then has' else has i) = true →
        (if j = threads.length then given else if j = input.i then has' else has j) = true →
        i = j := by
    intro i j first second
    grind
  have threads_at (i : Nat) (u : F.Thread) (earlier : i ≠ threads.length)
      (there : (threads.set input.i t' ++ started.toList)[i]? = some u) :
      Follows R u (if i = input.i then has' else has i) := by
    by_cases same : i = input.i
    · subst same
      rw [List.getElem?_append_left (by simpa using inside), List.getElem?_set_self inside] at there
      obtain rfl := Option.some.inj there
      rwa [if_pos rfl]
    · rw [if_neg same]
      apply each i u
      have before : i < threads.length := by
        have bound := (List.getElem?_eq_some_iff.mp there).1
        have few : started.toList.length ≤ 1 := by cases started <;> simp
        rw [List.length_append, List.length_set] at bound
        omega
      rwa [List.getElem?_append_left (by simpa using before),
        List.getElem?_set_ne (Ne.symm same)] at there
  cases started with
  | none =>
      refine ⟨_, stay false nofun, ?_⟩
      intro i u there
      have earlier : i ≠ threads.length := by
        rintro rfl
        simp at there
      rw [if_neg earlier]
      exact threads_at i u earlier there
  | some v =>
      obtain ⟨given, follows, only⟩ := begun v rfl
      refine ⟨_, stay given only, ?_⟩
      intro i u there
      by_cases last : i = threads.length
      · subst last
        simp at there
        obtain rfl := there
        rwa [if_pos rfl]
      · rw [if_neg last]
        exact threads_at i u last there

/-- No two threads are at the same time in calls that the right is needed for. -/
def Alone (R : F.Right) (threads : List F.Thread) : Prop :=
  ∀ (i j : Nat) (t u : F.Thread), threads[i]? = some t → threads[j]? = some u →
    R.Uses t → R.Uses u → i = j

theorem alone_of_held {threads : List F.Thread} (held : Held R threads) : Alone R threads := by
  obtain ⟨has, one, each⟩ := held
  intro i j t u first second uses uses'
  exact one i j (has_of_uses (each i t first) uses) (has_of_uses (each j u second) uses')

/-- The rule: where no round uses the right without having it, no two threads ever use it at
    the same time, however the threads are interleaved. -/
theorem alone_throughout (kept : R.Kept) (k : (k : κ) × F.Local k) (inputs : List F.Input) :
    Throughout step (Alone R) [start k] inputs := by
  have held : Throughout step (Held R) [start k] inputs := by
    refine throughout_of_along ?_ (held_start kept k) (along_true _ inputs)
    intro threads input threads' held _ taken
    exact held_step kept held taken
  exact held.mono fun _ => alone_of_held

end Right

end Fleet

end Foundation
