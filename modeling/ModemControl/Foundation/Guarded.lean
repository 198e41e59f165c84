import ModemControl.Foundation.Prog

/-! # Assertions at calls

`Guarded` goes through a program once, along with the states it may be in: every call that it
can come to is made in a state of which something is asked, and where the program comes to its
end, the value and the state meet the postcondition.
-/

namespace Foundation

namespace Prog

variable {Op : Type} {Res : Op → Type} {α β σ : Type}
  {env : σ → (op : Op) → Res op → σ → Prop} {torn : σ → Op → σ → Prop} {asks : σ → Op → Prop}

def Guarded (env : σ → (op : Op) → Res op → σ → Prop) (asks : σ → Op → Prop) :
    Prog Op Res α → (α → σ → Prop) → σ → Prop
  | ret a, post, s => post a s
  | call op next, post, s =>
      asks s op ∧ ∀ r s', env s op r s' → Guarded env asks (next r) post s'

theorem Guarded.bind {p : Prog Op Res α} {f : α → Prog Op Res β} {post : α → σ → Prop}
    {post' : β → σ → Prop} {s : σ} (first : Guarded env asks p post s)
    (rest : ∀ a s', post a s' → Guarded env asks (f a) post' s') :
    Guarded env asks (p >>= f) post' s := by
  induction p generalizing s with
  | ret a => exact rest a s first
  | call op next ih => exact ⟨first.1, fun r s' answered => ih r (first.2 r s' answered)⟩

theorem Guarded.call {op : Op} {f : Res op → Prog Op Res β} {post : β → σ → Prop} {s : σ}
    (asked : asks s op) (rest : ∀ r s', env s op r s' → Guarded env asks (f r) post s') :
    Guarded env asks (Prog.call op ret >>= f) post s :=
  ⟨asked, rest⟩

theorem Guarded.when {c : Bool} {p : Prog Op Res Unit} {post : Unit → σ → Prop} {s : σ}
    (taken : c = true → Guarded env asks p post s) (skipped : c = false → post () s) :
    Guarded env asks (Prog.when c p) post s := by
  cases c with
  | false => exact skipped rfl
  | true => exact taken rfl

/-- Calls of which nothing is asked. -/
theorem Calls.guarded {free : Op → Prop} (lets : ∀ s op, free op → asks s op) {p : Prog Op Res α}
    (calls : Calls free p) (s : σ) : Guarded env asks p (fun _ _ => True) s := by
  induction p generalizing s with
  | ret a => trivial
  | call op next ih => exact ⟨lets s op calls.1, fun r s' _ => ih r (calls.2 r) s'⟩

/-- A run that is looked at in the state in which it comes to its last call. -/
def comesTo (s : σ) (_ : Op) (s' : σ) : Prop := s' = s

/-- What is asked holds wherever a run comes to a call. -/
theorem Guarded.asked {p : Prog Op Res α} {post : α → σ → Prop} {s s' : σ}
    {before : List (Event Op Res)} {op : Op} (guarded : Guarded env asks p post s)
    (runs : Runs env comesTo p s (before ++ [⟨op, none⟩]) s' none) : asks s' op := by
  generalize whole : before ++ [⟨op, none⟩] = trace at runs
  induction p generalizing s before trace with
  | ret a => cases runs
  | call first next ih =>
      cases runs with
      | stopped => exact absurd whole (List.append_ne_nil_of_right_ne_nil _ (List.cons_ne_nil _ _))
      | cutOff here =>
          obtain rfl := here
          cases before with
          | nil =>
              cases whole
              exact guarded.1
          | cons e rest =>
              have none := (List.cons.inj whole).2
              exact absurd none (List.append_ne_nil_of_right_ne_nil _ (List.cons_ne_nil _ _))
      | step answered later =>
          cases before with
          | nil => cases whole
          | cons e rest => exact ih _ (guarded.2 _ _ answered) _ (List.cons.inj whole).2 later

/-- Some run comes to this call. -/
def Comes (env : σ → (op : Op) → Res op → σ → Prop) (p : Prog Op Res α) (op : Op)
    (holds : σ → Prop) (s : σ) : Prop :=
  ∃ before s', Runs env comesTo p s (before ++ [⟨op, none⟩]) s' none ∧ holds s'

theorem comes_here {op : Op} {next : Res op → Prog Op Res α} {holds : σ → Prop} {s : σ}
    (there : holds s) : Comes env (call op next) op holds s :=
  ⟨[], s, .cutOff rfl, there⟩

theorem comes_later {op last : Op} {next : Res op → Prog Op Res α} {holds : σ → Prop} {s : σ}
    (s₁ : σ) (r : Res op) (answered : env s op r s₁) (later : Comes env (next r) last holds s₁) :
    Comes env (call op next) last holds s := by
  obtain ⟨before, s', runs, there⟩ := later
  exact ⟨⟨op, some r⟩ :: before, s', .step answered runs, there⟩

end Prog

end Foundation
