import ModemControl.Foundation.Prog

/-! # Total correctness

`Ends` goes through a program once, along with the states it may be in: every call that is
made has an answer, and every way it may be answered leads on to a value and a state that
meet the postcondition. So no run gets stuck, and every finished run meets it.
-/

namespace Foundation

namespace Prog

variable {Op : Type} {Res : Op → Type} {α β σ : Type}
  {env : σ → (op : Op) → Res op → σ → Prop} {torn : σ → Op → σ → Prop}

def Ends (env : σ → (op : Op) → Res op → σ → Prop) : Prog Op Res α → (α → σ → Prop) → σ → Prop
  | ret a, post, s => post a s
  | call op next, post, s =>
      (∃ r s', env s op r s') ∧ ∀ r s', env s op r s' → Ends env (next r) post s'

theorem ends_call {op : Op} {post : Res op → σ → Prop} {s : σ} (answered : ∃ r s', env s op r s')
    (every : ∀ r s', env s op r s' → post r s') : Ends env (call op ret) post s :=
  ⟨answered, every⟩

theorem Ends.answer {op : Op} {next : Res op → Prog Op Res α} {post : α → σ → Prop} {s s' : σ}
    (ends : Ends env (call op next) post s) (r : Res op) (answered : env s op r s') :
    Ends env (next r) post s' :=
  ends.2 r s' answered

theorem Ends.mono {p : Prog Op Res α} {post post' : α → σ → Prop} {s : σ} (ends : Ends env p post s)
    (weaker : ∀ a s', post a s' → post' a s') : Ends env p post' s := by
  induction p generalizing s with
  | ret a => exact weaker a s ends
  | call op next ih => exact ⟨ends.1, fun r s' answered => ih r (ends.2 r s' answered)⟩

theorem Ends.bind {p : Prog Op Res α} {f : α → Prog Op Res β} {post : α → σ → Prop}
    {post' : β → σ → Prop} {s : σ} (first : Ends env p post s)
    (rest : ∀ a s', post a s' → Ends env (f a) post' s') : Ends env (p >>= f) post' s := by
  induction p generalizing s with
  | ret a => exact rest a s first
  | call op next ih => exact ⟨first.1, fun r s' answered => ih r (first.2 r s' answered)⟩

theorem Ends.when {c : Bool} {p : Prog Op Res Unit} {post : Unit → σ → Prop} {s : σ}
    (taken : c = true → Ends env p post s) (skipped : c = false → post () s) :
    Ends env (Prog.when c p) post s := by
  cases c with
  | false => exact skipped rfl
  | true => exact taken rfl

/-- What every step keeps holds at the end as well. -/
theorem Ends.keeps {inv : σ → Prop} (step : ∀ s op r s', inv s → env s op r s' → inv s')
    {p : Prog Op Res α} {post : α → σ → Prop} {s : σ} (ends : Ends env p post s) (start : inv s) :
    Ends env p (fun a s' => post a s' ∧ inv s') s := by
  induction p generalizing s with
  | ret a => exact ⟨ends, start⟩
  | call op next ih =>
      refine ⟨ends.1, ?_⟩
      intro r s' answered
      exact ih r (ends.2 r s' answered) (step s op r s' start answered)

/-- Every finished run meets the postcondition. -/
theorem Ends.runs {p : Prog Op Res α} {post : α → σ → Prop} {s s' : σ}
    {trace : List (Event Op Res)} {a : α} (ends : Ends env p post s)
    (runs : Runs env torn p s trace s' (some a)) : post a s' := by
  induction p generalizing s trace with
  | ret b =>
      obtain ⟨_, rfl, same⟩ := runs.ret_inv
      obtain rfl := Option.some.inj same
      exact ends
  | call op next ih =>
      obtain ⟨r, s₁, rest, answered, later, _⟩ := runs.call_inv
      exact ih r (ends.2 r s₁ answered) later

/-- Some run comes to an end, and meets this. -/
def Can (env : σ → (op : Op) → Res op → σ → Prop) (torn : σ → Op → σ → Prop) (p : Prog Op Res α)
    (post : α → σ → Prop) (s : σ) : Prop :=
  ∃ trace s' a, Runs env torn p s trace s' (some a) ∧ post a s'

theorem can_ret {post : α → σ → Prop} {a : α} {s : σ} (holds : post a s) :
    Can env torn (ret a) post s :=
  ⟨[], s, a, .done, holds⟩

/-- A call is answered, and the rest can come to an end from there. -/
theorem can_call {op : Op} {next : Res op → Prog Op Res α} {post : α → σ → Prop} {s s₁ : σ}
    (r : Res op) (answered : env s op r s₁) (later : Can env torn (next r) post s₁) :
    Can env torn (call op next) post s := by
  obtain ⟨trace, s', a, runs, holds⟩ := later
  exact ⟨_, s', a, .step answered runs, holds⟩

end Prog

end Foundation
