import ModemControl.Foundation.Monitor

/-! # Programs in layers

A call of one program may itself be a program over calls of a lower layer. A run of the
lower layer then falls into the calls of the upper one, each with its own piece of the
lower trace.
-/

namespace Foundation

variable {Op Low : Type} {Res : Op → Type} {LowRes : Low → Type} {α β σ : Type}

/-- A finished call, with the calls of the lower layer it was made of. -/
structure Layer (Op : Type) (Res : Op → Type) (Low : Type) (LowRes : Low → Type) where
  op : Op
  res : Res op
  inner : List (Event Low LowRes)

namespace Layer

def event (c : Layer Op Res Low LowRes) : Event Op Res := ⟨c.op, some c.res⟩

end Layer

namespace Prog

variable (handler : (op : Op) → Prog Low LowRes (Res op))
  (answer : σ → (op : Low) → LowRes op × σ)

def interp : Prog Op Res α → Prog Low LowRes α
  | ret a => ret a
  | call op next => handler op >>= fun r => (next r).interp

/-- The answers the lower layer gives to the calls of the upper one. -/
def through (s : σ) (op : Op) : Res op × σ :=
  let out := (handler op).run answer s
  (out.2.2, out.2.1)

/-- The calls of a run, each with its piece of the lower trace. -/
def layers : Prog Op Res α → σ → List (Layer Op Res Low LowRes)
  | ret _, _ => []
  | call op next, s =>
      let out := (handler op).run answer s
      ⟨op, out.2.2, out.1⟩ :: (next out.2.2).layers out.2.1

variable {handler answer}

@[simp] theorem interp_ret (a : α) : (ret a : Prog Op Res α).interp handler = ret a := rfl

@[simp] theorem interp_call (op : Op) (next : Res op → Prog Op Res α) :
    (call op next).interp handler = handler op >>= fun r => (next r).interp handler := rfl

theorem bind_assoc (p : Prog Op Res α) {γ : Type} (f : α → Prog Op Res β) (g : β → Prog Op Res γ) :
    p >>= f >>= g = p >>= fun a => f a >>= g := by
  induction p with
  | ret a => rfl
  | call op next ih => simp only [call_bind, ih]

theorem bind_ret (p : Prog Op Res α) : p >>= ret = p := by
  induction p with
  | ret a => rfl
  | call op next ih => simp only [call_bind, ih]

@[simp] theorem interp_bind (p : Prog Op Res α) (f : α → Prog Op Res β) :
    (p >>= f).interp handler = p.interp handler >>= fun a => (f a).interp handler := by
  induction p with
  | ret a => rfl
  | call op next ih => simp only [call_bind, interp_call, ih, bind_assoc]

@[simp] theorem interp_when (c : Bool) (p : Prog Op Res Unit) :
    (when c p).interp handler = when c (p.interp handler) := by
  cases c <;> rfl

@[simp] theorem interp_ite (c : Prop) [Decidable c] (p q : Prog Op Res α) :
    (if c then p else q).interp handler = if c then p.interp handler else q.interp handler := by
  split <;> rfl

theorem interp_run (p : Prog Op Res α) (s : σ) :
    ((p.interp handler).run answer s).2 = (p.run (through handler answer) s).2 := by
  induction p generalizing s with
  | ret a => rfl
  | call op next ih =>
      rw [interp_call, run_bind]
      exact ih _ _

/-- The pieces make up the whole lower trace. -/
theorem interp_trace (p : Prog Op Res α) (s : σ) :
    ((p.interp handler).run answer s).1 = (p.layers handler answer s).flatMap Layer.inner := by
  induction p generalizing s with
  | ret a => rfl
  | call op next ih =>
      rw [interp_call, run_bind]
      exact congrArg (((handler op).run answer s).1 ++ ·) (ih _ _)

theorem layers_events (p : Prog Op Res α) (s : σ) :
    (p.layers handler answer s).map Layer.event = (p.run (through handler answer) s).1 := by
  induction p generalizing s with
  | ret a => rfl
  | call op next ih => exact congrArg (_ :: ·) (ih _ _)

theorem layers_bind (p : Prog Op Res α) (f : α → Prog Op Res β) (s : σ) :
    (p >>= f).layers handler answer s = p.layers handler answer s ++
      (f (p.run (through handler answer) s).2.2).layers handler answer
        (p.run (through handler answer) s).2.1 := by
  induction p generalizing s with
  | ret a => rfl
  | call op next ih => exact congrArg (_ :: ·) (ih _ _)

/-- Each piece is a run of what its call is made of. -/
theorem mem_layers {p : Prog Op Res α} {s : σ} {c : Layer Op Res Low LowRes}
    (member : c ∈ p.layers handler answer s) : ∃ s', c.inner = ((handler c.op).run answer s').1 := by
  induction p generalizing s with
  | ret a => cases member
  | call op next ih =>
      rcases List.mem_cons.mp member with rfl | later
      · exact ⟨s, rfl⟩
      · exact ih _ later

/-- Two monitors that go together: what the calls of the upper layer are to the one, the programs
    they are made of are to the other. -/
theorem Meets.interp {μ ν : Type} {U : Monitor Op Res μ} {M : Monitor Low LowRes ν}
    {R : μ → ν → Prop} {p : Prog Op Res α} {post : α → μ → Prop} {post' : α → ν → Prop} {m : μ}
    {n : ν} (meets : p.Meets U post m) (related : R m n)
    (handles : ∀ m n op, R m n → U.ok m op →
      (handler op).Meets M (fun r after => R (U.next m op r) after) n)
    (ends : ∀ a m n, R m n → post a m → post' a n) : (p.interp handler).Meets M post' n := by
  induction p generalizing m n with
  | ret a => exact ends a m n related meets
  | call op next ih =>
      apply (handles m n op related meets.1).bind
      intro r after behind
      exact ih r (meets.2 r) behind

@[simp] theorem layers_ret (a : α) (s : σ) : (ret a : Prog Op Res α).layers handler answer s = [] :=
  rfl

end Prog

end Foundation
