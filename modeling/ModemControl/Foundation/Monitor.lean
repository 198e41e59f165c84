import ModemControl.Foundation.Prog

/-! # Monitors

A monitor remembers something of the calls made so far and says which call may come
next. `Meets` goes through a program once, over all the answers it may get, and then
speaks about every run: about the runs of one program on its own, about complete paths
given by their answers, and about a program that is resumed one call at a time between
the steps of others.
-/

namespace Foundation

structure Monitor (Op : Type) (Res : Op → Type) (μ : Type) where
  next : μ → (op : Op) → Res op → μ
  ok : μ → Op → Prop

variable {Op : Type} {Res : Op → Type} {α β μ σ : Type}

namespace Monitor

/-- A call that was cut off is not remembered. -/
def step (M : Monitor Op Res μ) (m : μ) (e : Event Op Res) : μ :=
  match e.res with
  | some r => M.next m e.op r
  | none => m

def after (M : Monitor Op Res μ) (m : μ) (trace : List (Event Op Res)) : μ := trace.foldl M.step m

def Accepts (M : Monitor Op Res μ) : μ → List (Event Op Res) → Prop
  | _, [] => True
  | m, e :: rest => M.ok m e.op ∧ M.Accepts (M.step m e) rest

variable {M : Monitor Op Res μ}

@[simp] theorem after_nil (m : μ) : M.after m [] = m := rfl

@[simp] theorem after_cons (m : μ) (e : Event Op Res) (rest : List (Event Op Res)) :
    M.after m (e :: rest) = M.after (M.step m e) rest := rfl

theorem Accepts.at {m : μ} {before rest : List (Event Op Res)} {e : Event Op Res}
    (accepts : M.Accepts m (before ++ e :: rest)) : M.ok (M.after m before) e.op := by
  induction before generalizing m with
  | nil => exact accepts.1
  | cons first before ih => exact ih accepts.2

theorem Accepts.all {m : μ} {trace : List (Event Op Res)} {allowed : Op → Prop}
    (accepts : M.Accepts m trace) (only : ∀ m op, M.ok m op → allowed op) :
    ∀ e ∈ trace, allowed e.op := by
  induction trace generalizing m with
  | nil => simp
  | cons e rest ih =>
      rw [List.forall_mem_cons]
      exact ⟨only m e.op accepts.1, ih accepts.2⟩

/-- The monitor that remembers everything. -/
def history (ok : List (Event Op Res) → Op → Prop) : Monitor Op Res (List (Event Op Res)) where
  next := fun before op r => before ++ [⟨op, some r⟩]
  ok := ok

end Monitor

namespace Prog

/-- Whatever the answers, every call is one the monitor lets come next, and the value
    and what is remembered in the end satisfy `post`. -/
def Meets (M : Monitor Op Res μ) : Prog Op Res α → (α → μ → Prop) → μ → Prop
  | ret a, post, m => post a m
  | call op next, post, m => M.ok m op ∧ ∀ r, (next r).Meets M post (M.next m op r)

variable {M : Monitor Op Res μ} {post post' : α → μ → Prop} {m : μ}

theorem meets_bind {p : Prog Op Res α} {f : α → Prog Op Res β} {post : β → μ → Prop} :
    (p >>= f).Meets M post m ↔ p.Meets M (fun a m => (f a).Meets M post m) m := by
  induction p generalizing m with
  | ret a => rfl
  | call op next ih => simp only [call_bind, Meets, ih]

theorem Meets.mono {p : Prog Op Res α} (meets : p.Meets M post m)
    (weaker : ∀ a m, post a m → post' a m) : p.Meets M post' m := by
  induction p generalizing m with
  | ret a => exact weaker a m meets
  | call op next ih => exact ⟨meets.1, fun r => ih r (meets.2 r)⟩

theorem Meets.bind {p : Prog Op Res α} {f : α → Prog Op Res β} {post' : β → μ → Prop}
    (first : p.Meets M post m) (rest : ∀ a m, post a m → (f a).Meets M post' m) :
    (p >>= f).Meets M post' m :=
  meets_bind.mpr (first.mono rest)

theorem Meets.call {op : Op} {f : Res op → Prog Op Res β} {post : β → μ → Prop} (lets : M.ok m op)
    (rest : ∀ r, (f r).Meets M post (M.next m op r)) : (call op ret >>= f).Meets M post m :=
  ⟨lets, rest⟩

theorem Meets.when {p : Prog Op Res Unit} {post : Unit → μ → Prop} {c : Bool}
    (taken : c = true → p.Meets M post m) (skipped : c = false → post () m) :
    (Prog.when c p).Meets M post m := by
  cases c with
  | true => exact taken rfl
  | false => exact skipped rfl

/-- What every allowed call keeps, a program of allowed calls keeps. -/
theorem Calls.meets {allowed : Op → Prop} {inv : μ → Prop} {p : Prog Op Res α}
    (calls : p.Calls allowed)
    (lets : ∀ m op, allowed op → inv m → M.ok m op)
    (keeps : ∀ m op r, allowed op → inv m → inv (M.next m op r)) (start : inv m) :
    p.Meets M (fun _ => inv) m := by
  induction p generalizing m with
  | ret a => exact start
  | call op next ih =>
      refine ⟨lets m op calls.1 start, ?_⟩
      intro r
      exact ih r (calls.2 r) (keeps m op r calls.1 start)

/-- Calls that may come and change nothing of what is remembered. -/
theorem Calls.meets_same {p : Prog Op Res α}
    (quiet : p.Calls fun op => M.ok m op ∧ ∀ r, M.next m op r = m) :
    p.Meets M (fun _ m' => m' = m) m := by
  induction p with
  | ret a => rfl
  | call op next ih =>
      refine ⟨quiet.1.1, ?_⟩
      intro r
      rw [quiet.1.2 r]
      exact ih r (quiet.2 r)

theorem Meets.runs {env : σ → (op : Op) → Res op → σ → Prop} {torn : σ → Op → σ → Prop}
    {p : Prog Op Res α} {s s' : σ} {trace : List (Event Op Res)} {out : Option α}
    (meets : p.Meets M post m) (runs : Runs env torn p s trace s' out) :
    M.Accepts m trace ∧ ∀ a, out = some a → post a (M.after m trace) := by
  induction runs generalizing m with
  | done =>
      refine ⟨trivial, ?_⟩
      intro a same
      exact Option.some.inj same ▸ meets
  | stopped => exact ⟨trivial, nofun⟩
  | cutOff left => exact ⟨⟨meets.1, trivial⟩, nofun⟩
  | step answered later ih =>
      obtain ⟨accepts, ends⟩ := ih (meets.2 _)
      exact ⟨⟨meets.1, accepts⟩, ends⟩

theorem Meets.run {answer : σ → (op : Op) → Res op × σ} {p : Prog Op Res α}
    (meets : p.Meets M post m) (s : σ) :
    M.Accepts m (p.run answer s).1 ∧ post (p.run answer s).2.2 (M.after m (p.run answer s).1) := by
  induction p generalizing m s with
  | ret a => exact ⟨trivial, meets⟩
  | call op next ih =>
      obtain ⟨accepts, ends⟩ := ih _ (meets.2 (answer s op).1) (answer s op).2
      exact ⟨⟨meets.1, accepts⟩, ends⟩

/-- The value at the end of a path, if the program can take it. -/
def follow [DecidableEq Op] : Prog Op Res α → List (Event Op Res) → Option α
  | ret a, [] => some a
  | call op next, ⟨op', some r⟩ :: rest =>
      if same : op' = op then (next (same ▸ r)).follow rest else none
  | _, _ => none

theorem follow_call [DecidableEq Op] {op : Op} (r : Res op) (f : Res op → Prog Op Res α)
    (rest : List (Event Op Res)) : (call op ret >>= f).follow (⟨op, some r⟩ :: rest) = (f r).follow rest := by
  rw [call_bind, follow, dif_pos rfl]
  rfl

/-- A path of a sequence: one of its first part, and from there on one of the second. -/
theorem follow_bind [DecidableEq Op] {p : Prog Op Res α} {f : α → Prog Op Res β} {a : α}
    {path rest : List (Event Op Res)} (first : p.follow path = some a) :
    (p >>= f).follow (path ++ rest) = (f a).follow rest := by
  induction p generalizing path with
  | ret b =>
      cases path with
      | nil =>
          obtain rfl := Option.some.inj first
          rfl
      | cons e later => cases first
  | call op next ih =>
      match path, first with
      | ⟨op', some r⟩ :: later, first =>
          simp only [follow] at first
          split at first
          · rename_i same
            subst same
            exact (follow_call r _ _).trans (ih r first)
          · cases first

theorem Meets.follow [DecidableEq Op] {p : Prog Op Res α} {path : List (Event Op Res)} {a : α}
    (meets : p.Meets M post m) (taken : p.follow path = some a) :
    M.Accepts m path ∧ post a (M.after m path) := by
  induction p generalizing m path with
  | ret b =>
      cases path with
      | nil =>
          obtain rfl := Option.some.inj taken
          exact ⟨trivial, meets⟩
      | cons e rest => cases taken
  | call op next ih =>
      match path, taken with
      | ⟨op', some r⟩ :: rest, taken =>
          simp only [Prog.follow] at taken
          split at taken
          · rename_i same
            subst same
            obtain ⟨accepts, ends⟩ := ih r (meets.2 r) taken
            exact ⟨⟨meets.1, accepts⟩, ends⟩
          · cases taken

/-- What is left of a program after its next call, and the state this call leaves. -/
def resume (answer : (op : Op) → Option (Res op × σ)) : Prog Op Res α → Option (Prog Op Res α × σ)
  | ret _ => none
  | call op next => (answer op).map fun (r, s) => (next r, s)

theorem resume_cases {answer : (op : Op) → Option (Res op × σ)} {p p' : Prog Op Res α} {s : σ}
    (resumed : p.resume answer = some (p', s)) :
    ∃ op next r, p = call op next ∧ answer op = some (r, s) ∧ p' = next r := by
  cases p with
  | ret a => cases resumed
  | call op next =>
      obtain ⟨⟨r, s'⟩, answered, same⟩ := Option.map_eq_some_iff.mp resumed
      obtain ⟨rfl, rfl⟩ := Prod.mk.inj same
      exact ⟨op, next, r, rfl, answered, rfl⟩

end Prog

end Foundation
