import Mathlib.Logic.Basic

/-! # Programs that call the outside world

A program is a tree of calls: each node asks one thing of the environment and goes
on with any answer it may get. What the environment may answer, and what a call does
to the state, is a relation `env`; what is left behind when a run is cut off in the
middle of a call is a relation `torn`. A run keeps the trace of the calls it made.
-/

namespace Foundation

inductive Prog (Op : Type) (Res : Op → Type) (α : Type) where
  | ret (a : α)
  | call (op : Op) (next : Res op → Prog Op Res α)

/-- A call with its answer, or without one when the run was cut off in it. -/
structure Event (Op : Type) (Res : Op → Type) where
  op : Op
  res : Option (Res op)

namespace Prog

variable {Op : Type} {Res : Op → Type} {α β σ : Type}

def bind : Prog Op Res α → (α → Prog Op Res β) → Prog Op Res β
  | ret a, f => f a
  | call op next, f => call op fun r => (next r).bind f

instance : Monad (Prog Op Res) where
  pure := ret
  bind := bind

@[simp] theorem pure_eq (a : α) : (pure a : Prog Op Res α) = ret a := rfl

@[simp] theorem ret_bind (a : α) (f : α → Prog Op Res β) : (ret a >>= f) = f a := rfl

@[simp] theorem call_bind (op : Op) (next : Res op → Prog Op Res α) (f : α → Prog Op Res β) :
    (call op next >>= f) = call op fun r => next r >>= f := rfl

/-- `if` without an else. -/
def when (c : Bool) (p : Prog Op Res Unit) : Prog Op Res Unit := if c then p else ret ()

/-- The runs of a program, the unfinished ones included: those end with no value,
    between two calls or in the middle of one. -/
inductive Runs (env : σ → (op : Op) → Res op → σ → Prop) (torn : σ → Op → σ → Prop) :
    Prog Op Res α → σ → List (Event Op Res) → σ → Option α → Prop
  | done {a : α} {s : σ} : Runs env torn (.ret a) s [] s (some a)
  | stopped {op : Op} {next : Res op → Prog Op Res α} {s : σ} :
      Runs env torn (.call op next) s [] s none
  | cutOff {op : Op} {next : Res op → Prog Op Res α} {s s' : σ} (left : torn s op s') :
      Runs env torn (.call op next) s [⟨op, none⟩] s' none
  | step {op : Op} {next : Res op → Prog Op Res α} {s s₁ s' : σ} {r : Res op}
      {trace : List (Event Op Res)} {out : Option α} (answered : env s op r s₁)
      (later : Runs env torn (next r) s₁ trace s' out) :
      Runs env torn (.call op next) s (⟨op, some r⟩ :: trace) s' out

variable {env : σ → (op : Op) → Res op → σ → Prop} {torn : σ → Op → σ → Prop}

theorem Runs.ret_inv {a : α} {s s' : σ} {trace : List (Event Op Res)} {out : Option α}
    (runs : Runs env torn (ret a) s trace s' out) : trace = [] ∧ s' = s ∧ out = some a := by
  cases runs
  exact ⟨rfl, rfl, rfl⟩

theorem Runs.call_inv {op : Op} {next : Res op → Prog Op Res α} {s s' : σ}
    {trace : List (Event Op Res)} {a : α} (runs : Runs env torn (call op next) s trace s' (some a)) :
    ∃ r s₁ rest, env s op r s₁ ∧ Runs env torn (next r) s₁ rest s' (some a) ∧
      trace = ⟨op, some r⟩ :: rest := by
  cases runs with
  | step answered later => exact ⟨_, _, _, answered, later, rfl⟩

/-- A run of a sequence stays in the first part, or finishes it and runs the second. -/
theorem Runs.bind_inv {p : Prog Op Res α} {f : α → Prog Op Res β} {s s' : σ}
    {trace : List (Event Op Res)} {out : Option β} (runs : Runs env torn (p >>= f) s trace s' out) :
    (Runs env torn p s trace s' none ∧ out = none) ∨
    ∃ a s₁ first rest, Runs env torn p s first s₁ (some a) ∧
      Runs env torn (f a) s₁ rest s' out ∧ trace = first ++ rest := by
  induction p generalizing s trace with
  | ret a => exact Or.inr ⟨a, s, [], trace, .done, runs, rfl⟩
  | call op next ih =>
      cases runs with
      | stopped => exact Or.inl ⟨.stopped, rfl⟩
      | cutOff left => exact Or.inl ⟨.cutOff left, rfl⟩
      | step answered later =>
          cases ih _ later with
          | inl inside => exact Or.inl ⟨.step answered inside.1, inside.2⟩
          | inr split =>
              obtain ⟨a, s₁, first, rest, head, tail, rfl⟩ := split
              exact Or.inr ⟨a, s₁, _, rest, .step answered head, tail, rfl⟩

/-- Every call the program can come to is allowed, whatever the answers. -/
def Calls (ok : Op → Prop) : Prog Op Res α → Prop
  | ret _ => True
  | call op next => ok op ∧ ∀ r, Calls ok (next r)

theorem Calls.bind {ok : Op → Prop} {p : Prog Op Res α} {f : α → Prog Op Res β}
    (first : Calls ok p) (rest : ∀ a, Calls ok (f a)) : Calls ok (p >>= f) := by
  induction p with
  | ret a => exact rest a
  | call op next ih => exact ⟨first.1, fun r => ih r (first.2 r)⟩

theorem Calls.call {ok : Op → Prop} {op : Op} {f : Res op → Prog Op Res β} (first : ok op)
    (rest : ∀ r, Calls ok (f r)) : Calls ok (call op ret >>= f) :=
  ⟨first, rest⟩

theorem Calls.when {ok : Op → Prop} {p : Prog Op Res Unit} (c : Bool) (calls : Calls ok p) :
    Calls ok (Prog.when c p) := by
  cases c with
  | false => trivial
  | true => exact calls

theorem Calls.mono {ok more : Op → Prop} (weaker : ∀ op, ok op → more op) {p : Prog Op Res α}
    (calls : Calls ok p) : Calls more p := by
  induction p with
  | ret a => trivial
  | call op next ih => exact ⟨weaker op calls.1, fun r => ih r (calls.2 r)⟩

/-- A value that some run of the program comes back with. -/
def Returns : Prog Op Res α → α → Prop
  | ret b, a => b = a
  | call _ next, a => ∃ r, Returns (next r) a

/-- Where every call has an answer, some run comes to an end. -/
theorem exists_returns [∀ op, Nonempty (Res op)] (p : Prog Op Res α) : ∃ a, Returns p a := by
  induction p with
  | ret a => exact ⟨a, rfl⟩
  | call op next ih =>
      obtain ⟨r⟩ := (inferInstance : Nonempty (Res op))
      obtain ⟨a, later⟩ := ih r
      exact ⟨a, r, later⟩

theorem returns_unit [∀ op, Nonempty (Res op)] (p : Prog Op Res Unit) : Returns p () := by
  obtain ⟨_, returned⟩ := exists_returns p
  exact returned

theorem returns_bind {p : Prog Op Res α} {f : α → Prog Op Res β} {a : α} {b : β}
    (first : Returns p a) (rest : Returns (f a) b) : Returns (p >>= f) b := by
  induction p with
  | ret a' =>
      obtain rfl : a' = a := first
      exact rest
  | call op next ih =>
      obtain ⟨r, later⟩ := first
      exact ⟨r, ih r later⟩

theorem Returns.bind_inv {p : Prog Op Res α} {f : α → Prog Op Res β} {b : β}
    (returned : Returns (p >>= f) b) : ∃ a, Returns p a ∧ Returns (f a) b := by
  induction p with
  | ret a => exact ⟨a, rfl, returned⟩
  | call op next ih =>
      obtain ⟨r, later⟩ := returned
      obtain ⟨a, first, rest⟩ := ih r later
      exact ⟨a, ⟨r, first⟩, rest⟩

theorem Runs.returns {p : Prog Op Res α} {s s' : σ} {trace : List (Event Op Res)} {a : α}
    (runs : Runs env torn p s trace s' (some a)) : Returns p a := by
  induction p generalizing s trace with
  | ret b =>
      obtain ⟨_, _, same⟩ := runs.ret_inv
      exact (Option.some.inj same).symm
  | call op next ih =>
      obtain ⟨r, _, _, _, later, _⟩ := runs.call_inv
      exact ⟨r, ih r later⟩

/-- What is allowed of a sequence is allowed of its first part, and of the second one behind
    every value that the first may come back with. -/
theorem calls_bind_iff {ok : Op → Prop} {p : Prog Op Res α} {f : α → Prog Op Res β} :
    Calls ok (p >>= f) ↔ Calls ok p ∧ ∀ a, Returns p a → Calls ok (f a) := by
  induction p with
  | ret a =>
      constructor
      · rintro calls
        refine ⟨trivial, ?_⟩
        rintro a' rfl
        exact calls
      · intro both
        exact both.2 a rfl
  | call op next ih =>
      constructor
      · intro calls
        refine ⟨⟨calls.1, fun r => ((ih r).mp (calls.2 r)).1⟩, ?_⟩
        intro a returned
        obtain ⟨r, later⟩ := returned
        exact ((ih r).mp (calls.2 r)).2 a later
      · intro both
        refine ⟨both.1.1, ?_⟩
        intro r
        exact (ih r).mpr ⟨both.1.2 r, fun a later => both.2 a ⟨r, later⟩⟩

theorem Calls.first {ok : Op → Prop} {p : Prog Op Res α} {f : α → Prog Op Res β}
    (calls : Calls ok (p >>= f)) : Calls ok p :=
  (calls_bind_iff.mp calls).1

theorem Calls.behind {ok : Op → Prop} {p : Prog Op Res α} {f : α → Prog Op Res β} {a : α}
    (calls : Calls ok (p >>= f)) (returned : Returns p a) : Calls ok (f a) :=
  (calls_bind_iff.mp calls).2 a returned

/-- Behind a part without a value. -/
theorem Calls.rest [∀ op, Nonempty (Res op)] {ok : Op → Prop} {p : Prog Op Res Unit}
    {f : Unit → Prog Op Res β} (calls : Calls ok (p >>= f)) : Calls ok (f ()) :=
  calls.behind (returns_unit p)

theorem Runs.allowed {ok : Op → Prop} {p : Prog Op Res α} {s s' : σ}
    {trace : List (Event Op Res)} {out : Option α} (runs : Runs env torn p s trace s' out)
    (calls : Calls ok p) : ∀ e ∈ trace, ok e.op := by
  induction runs with
  | done => simp
  | stopped => simp
  | cutOff left => simpa using calls.1
  | step answered later ih =>
      intro e member
      cases List.mem_cons.mp member with
      | inl head => exact head ▸ calls.1
      | inr tail => exact ih (calls.2 _) e tail

/-- What the environment only answers holds of the answers in a trace. -/
theorem Runs.answered {answers : (op : Op) → Res op → Prop} {p : Prog Op Res α} {s s' : σ}
    {trace : List (Event Op Res)} {out : Option α} (runs : Runs env torn p s trace s' out)
    (only : ∀ s op r s', env s op r s' → answers op r) :
    ∀ e ∈ trace, ∀ r, e.res = some r → answers e.op r := by
  induction runs with
  | done => simp
  | stopped => simp
  | cutOff left => simp
  | step answered later ih =>
      intro e member
      rcases List.mem_cons.mp member with rfl | tail
      · rintro r ⟨⟩
        exact only _ _ _ _ answered
      · exact ih e tail

/-- What every allowed call keeps, finished or cut off, a run of allowed calls keeps. -/
theorem Runs.keeps {ok : Op → Prop} {inv : σ → Prop}
    (step : ∀ s op r s', ok op → inv s → env s op r s' → inv s')
    (tear : ∀ s op s', ok op → inv s → torn s op s' → inv s')
    {p : Prog Op Res α} {s s' : σ} {trace : List (Event Op Res)} {out : Option α}
    (runs : Runs env torn p s trace s' out) (allowed : ∀ e ∈ trace, ok e.op) (start : inv s) :
    inv s' := by
  induction runs with
  | done => exact start
  | stopped => exact start
  | cutOff left => exact tear _ _ _ (allowed _ List.mem_cons_self) start left
  | step answered later ih =>
      have next := step _ _ _ _ (allowed _ List.mem_cons_self) start answered
      exact ih (fun e member => allowed e (List.mem_cons_of_mem _ member)) next

def run (answer : σ → (op : Op) → Res op × σ) :
    Prog Op Res α → σ → List (Event Op Res) × σ × α
  | ret a, s => ([], s, a)
  | call op next, s =>
      let (r, s₁) := answer s op
      let (trace, s', a) := (next r).run answer s₁
      (⟨op, some r⟩ :: trace, s', a)

variable {answer : σ → (op : Op) → Res op × σ}

@[simp] theorem run_ret (a : α) (s : σ) : (ret a : Prog Op Res α).run answer s = ([], s, a) := rfl

@[simp] theorem run_call (op : Op) (next : Res op → Prog Op Res α) (s : σ) :
    (call op next).run answer s =
      (⟨op, some (answer s op).1⟩ :: ((next (answer s op).1).run answer (answer s op).2).1,
        ((next (answer s op).1).run answer (answer s op).2).2) := rfl

theorem run_bind (p : Prog Op Res α) (f : α → Prog Op Res β) (s : σ) :
    (p >>= f).run answer s =
      ((p.run answer s).1 ++ ((f (p.run answer s).2.2).run answer (p.run answer s).2.1).1,
        ((f (p.run answer s).2.2).run answer (p.run answer s).2.1).2) := by
  induction p generalizing s with
  | ret a => rfl
  | call op next ih => simp only [call_bind, run_call, ih, List.cons_append]

/-- A run makes only calls its program can come to. -/
theorem run_allowed {ok : Op → Prop} {p : Prog Op Res α} (calls : Calls ok p) (s : σ) :
    ∀ e ∈ (p.run answer s).1, ok e.op := by
  induction p generalizing s with
  | ret a => simp
  | call op next ih =>
      intro e member
      cases List.mem_cons.mp member with
      | inl head => exact head ▸ calls.1
      | inr tail => exact ih _ (calls.2 _) _ e tail

/-- An environment that may answer as `answer` does may take its run. -/
theorem runs_run (agrees : ∀ s op, env s op (answer s op).1 (answer s op).2)
    (p : Prog Op Res α) (s : σ) :
    Runs env torn p s (p.run answer s).1 (p.run answer s).2.1 (some (p.run answer s).2.2) := by
  induction p generalizing s with
  | ret a => exact .done
  | call op next ih => exact .step (agrees s op) (ih _ _)

/-- All of a run when every call has one answer, or never comes back. -/
def attempt (answer : (op : Op) → Option (Res op)) :
    Prog Op Res α → List (Event Op Res) × Option α
  | ret a => ([], some a)
  | call op next =>
      match answer op with
      | none => ([⟨op, none⟩], none)
      | some r =>
          let (trace, out) := (next r).attempt answer
          (⟨op, some r⟩ :: trace, out)

section

variable {answer : (op : Op) → Option (Res op)}

theorem attempt_some {op : Op} {r : Res op} (next : Res op → Prog Op Res α)
    (comes : answer op = some r) : (call op next).attempt answer =
      (⟨op, some r⟩ :: ((next r).attempt answer).1, ((next r).attempt answer).2) := by
  simp only [attempt, comes]

theorem attempt_none {op : Op} (next : Res op → Prog Op Res α) (stays : answer op = none) :
    (call op next).attempt answer = ([⟨op, none⟩], none) := by
  simp only [attempt, stays]

end

end Prog

end Foundation
