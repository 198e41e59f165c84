import ModemControl.AliveTimeout
import ModemControl.Connect
import ModemControl.Foundation.Layers

/-! # The mutex of the clients

Every broadcast holds `s_writeMutex`, the one of `modem_ctrl_alive_timeout` too, and this
handler of SIGALRM may run on top of any thread. The interrupted thread goes on when the
handler returns; if it holds the mutex, the handler must not ask for it.
-/

namespace ModemControl.WriteMutex

open Foundation

inductive Op where
  | lock
  | unlock
  | modemCtrlProcessMessage (buf : Bytes)
  /-- The message is written to every client. -/
  | writeClients (buf : Bytes)
  /-- `s_modemState` is read. -/
  | sModemState
  | setModemState (state : Connect.ConState)
  | writeCtrl (msg : CtrlMsg)
  | wakeLock (on : Bool)
  /-- The loop device is opened, written and read. -/
  | probeLoop
  | modemSaveDumpProp
  | modemResetProp
  | controlNvitemd (isStart : Bool)
  /-- What the handler of SIGALRM calls itself. -/
  | alarm (op : AliveTimeout.Op)
  deriving Repr, DecidableEq

abbrev Op.Res : Op → Type
  | .sModemState => Connect.ConState
  | .modemSaveDumpProp | .modemResetProp => Bytes
  | .alarm op => op.Res
  | .lock | .unlock | .modemCtrlProcessMessage _ | .writeClients _ | .setModemState _ |
    .writeCtrl _ | .wakeLock _ | .probeLoop | .controlNvitemd _ => Unit

abbrev MutexProg (α : Type) : Type := Prog Op Op.Res α

def call (op : Op) : MutexProg op.Res := .call op .ret

def modemWriteDataToClients (buf : Bytes) : MutexProg Unit := do
  call .lock
  call (.modemCtrlProcessMessage buf)
  call (.writeClients buf)
  call .unlock

/-- After the mutex was released; the result is `isWait`. -/
def tellBlocked : MutexProg Bool := do
  call (.wakeLock true)
  call .probeLoop
  let isDump ← call .modemSaveDumpProp
  modemWriteDataToClients (frame MODEM_BLOCK)
  let isReset ← call .modemResetProp
  call (.controlNvitemd false)
  Prog.when (atoi isReset != 0 && atoi isDump == 0) (call (.writeCtrl .modemReset))
  call (.wakeLock false)
  pure (atoi isReset != 0 && atoi isDump != 0)

def dispatchModemBlocked : MutexProg Bool := do
  call (.writeCtrl .modemBlocked)
  call .lock
  let state ← call .sModemState
  if state != .alive then
    call .unlock
    pure false
  else
    call (.setModemState .assert)
    call .unlock
    tellBlocked

/-- The handler broadcasts as every other thread does. -/
def expand : (op : AliveTimeout.Op) → MutexProg op.Res
  | .modemWriteDataToClients buf => modemWriteDataToClients buf
  | op => .call (.alarm op) .ret

def modemCtrlAliveTimeout : MutexProg Unit := AliveTimeout.modemCtrlAliveTimeout.interp expand

/-- What a thread calls, wherever it is. -/
inductive Work where
  | modemWriteDataToClients (buf : Bytes)
  | dispatchModemBlocked

def Work.prog : Work → MutexProg Unit
  | .modemWriteDataToClients buf => WriteMutex.modemWriteDataToClients buf
  | .dispatchModemBlocked => do
      let _ ← WriteMutex.dispatchModemBlocked

/-- What is known of a frame from the calls it has made. -/
structure Vars where
  /-- It has taken the mutex. -/
  held : Bool := false
  /-- The variable of the handler. -/
  isDumpOrca : Bool := false
  /-- Whether it may broadcast; the handler does not know before it has read the
      properties. -/
  tells : Option Bool := some true
  deriving Repr, DecidableEq

/-- The test of the handler, which then reboots the system. -/
def Vars.reboots (vars : Vars) (modemReset : Bytes) : Bool :=
  atoi modemReset != 0 && !vars.isDumpOrca

def Vars.next (vars : Vars) : (op : Op) → op.Res → Vars
  | .lock, _ => { vars with held := true }
  | .unlock, _ => { vars with held := false }
  | .alarm .modemSysdumpProp, sysdump =>
      { vars with isDumpOrca := strstr sysdump (bytes "on") }
  | .alarm .modemResetProp, modemReset =>
      { vars with tells := some (!vars.reboots modemReset) }
  | _, _ => vars

structure Frame where
  rest : MutexProg Unit := .ret ()
  vars : Vars := {}

structure Thread where
  base : Frame := {}
  /-- The handler that has interrupted it. -/
  handler : Option Frame := none

/-- The frame that runs. -/
def Thread.top (th : Thread) : Frame := th.handler.getD th.base

def Thread.setTop (th : Thread) (f : Frame) : Thread :=
  match th.handler with
  | some _ => { th with handler := some f }
  | none => { th with base := f }

structure State where
  /-- The thread that holds the mutex. -/
  owner : Option Nat := none
  threads : Nat → Thread := fun _ => {}

def State.setThread (s : State) (t : Nat) (th : Thread) : State :=
  { s with threads := Function.update s.threads t th }

inductive Input where
  /-- A thread begins a call. -/
  | begin (t : Nat) (work : Work)
  /-- SIGALRM interrupts the thread. -/
  | alarm (t : Nat)
  /-- The thread makes its next call. -/
  | step (t : Nat) (answer : (op : Op) → Option op.Res)
  /-- The handler returns. -/
  | leave (t : Nat)

/-- The answer to a call of this thread, and the owner of the mutex after it. -/
def answered (owner : Option Nat) (t : Nat) (answer : (op : Op) → Option op.Res) :
    (op : Op) → Option (op.Res × Option Nat)
  | .lock => if owner = none then some ((), some t) else none
  | .unlock => some ((), none)
  | op => (answer op).map fun r => (r, owner)

def Frame.step (f : Frame) (answered : (op : Op) → Option (op.Res × Option Nat)) :
    Option (Frame × Option Nat) :=
  (f.rest.resume fun op => (answered op).map fun (r, owner) => (r, f.vars.next op r, owner)).map
    fun (rest, vars, owner) => (⟨rest, vars⟩, owner)

def step (s : State) : Input → Option State
  | .begin t work =>
      match (s.threads t).handler, (s.threads t).base.rest with
      | none, .ret _ => some (s.setThread t { base := { rest := work.prog } })
      | _, _ => none
  | .alarm t =>
      match (s.threads t).handler with
      | none => some (s.setThread t { s.threads t with
          handler := some { rest := modemCtrlAliveTimeout, vars := { tells := none } } })
      | some _ => none
  | .step t answer =>
      ((s.threads t).top.step (answered s.owner t answer)).map fun (f, owner) =>
        { s.setThread t ((s.threads t).setTop f) with owner := owner }
  | .leave t =>
      match (s.threads t).handler with
      | some ⟨.ret _, _⟩ => some (s.setThread t { s.threads t with handler := none })
      | _ => none

/-- It waits for the mutex. -/
def Frame.WantsLock (f : Frame) : Prop := ∃ next, f.rest = .call .lock next

/-- No thread waits for the mutex that it holds, or that the code it has interrupted holds. -/
def NoSelfDeadlock (s : State) : Prop := ∀ t, s.owner = some t → ¬ (s.threads t).top.WantsLock

/-- A handler that has interrupted the owner of the mutex, and has come to read the
    properties, reboots the system. -/
def Reboots (s : State) : Input → Prop
  | .step t answer =>
      match (s.threads t).handler with
      | some ⟨.call (.alarm .modemResetProp) _, vars⟩ =>
          s.owner = some t → (answer (.alarm .modemResetProp)).all vars.reboots = true
      | _ => True
  | _ => True

instance (s : State) (i : Input) : Decidable (Reboots s i) := by
  unfold Reboots
  split
  · split <;> infer_instance
  · infer_instance

/-- The mutex is taken by a frame that does not have it and may broadcast, and given back
    by one that has it. -/
def mutex : Monitor Op Op.Res Vars where
  next := Vars.next
  ok := fun vars op =>
    (op = .lock → vars.held = false ∧ vars.tells = some true) ∧ (op = .unlock → vars.held = true)

/-- A call that asks nothing of the mutex. -/
def Op.works : Op → Bool
  | .lock | .unlock => false
  | _ => true

theorem mutex_works {vars : Vars} {op : Op} (works : op.works = true) : mutex.ok vars op := by
  constructor
  · rintro rfl
    cases works
  · rintro rfl
    cases works

theorem modemWriteDataToClients_meets (buf : Bytes) {vars : Vars} (out : vars.held = false)
    (tells : vars.tells = some true) :
    (modemWriteDataToClients buf).Meets mutex (fun _ vars' => vars' = vars) vars := by
  refine Prog.Meets.call ⟨fun _ => ⟨out, tells⟩, nofun⟩ fun _ => ?_
  refine Prog.Meets.call (mutex_works rfl) fun _ => Prog.Meets.call (mutex_works rfl) fun _ => ?_
  refine ⟨⟨nofun, fun _ => rfl⟩, ?_⟩
  intro _
  change ({ vars with held := false } : Vars) = vars
  rw [← out]

theorem dispatchModemBlocked_meets :
    dispatchModemBlocked.Meets mutex (fun _ vars => vars = {}) {} := by
  have told : tellBlocked.Meets mutex (fun _ vars => vars = {}) {} := by
    refine Prog.Meets.call (mutex_works rfl) fun _ => Prog.Meets.call (mutex_works rfl) fun _ => ?_
    refine Prog.Meets.call (mutex_works rfl) fun isDump => ?_
    apply (modemWriteDataToClients_meets _ rfl rfl).bind
    rintro _ _ rfl
    refine Prog.Meets.call (mutex_works rfl) fun isReset => Prog.Meets.call (mutex_works rfl) fun _ => ?_
    have reset : (Prog.when (atoi isReset != 0 && atoi isDump == 0)
        (call (.writeCtrl .modemReset))).Meets mutex (fun _ vars => vars = {}) {} := by
      apply Prog.Meets.when
      · intro _
        exact ⟨mutex_works rfl, fun _ => rfl⟩
      · intro _
        rfl
    apply reset.bind
    rintro _ _ rfl
    exact ⟨mutex_works rfl, fun _ => rfl⟩
  refine Prog.Meets.call (mutex_works rfl) fun _ => ?_
  refine Prog.Meets.call ⟨fun _ => ⟨rfl, rfl⟩, nofun⟩ fun _ => ?_
  refine Prog.Meets.call (mutex_works rfl) fun state => ?_
  split
  · exact ⟨⟨nofun, fun _ => rfl⟩, fun _ => rfl⟩
  · refine Prog.Meets.call (mutex_works rfl) fun _ => ?_
    exact Prog.Meets.call ⟨nofun, fun _ => rfl⟩ fun _ => told

theorem prog_meets (work : Work) : work.prog.Meets mutex (fun _ vars => vars = {}) {} := by
  cases work with
  | modemWriteDataToClients buf => exact modemWriteDataToClients_meets buf rfl rfl
  | dispatchModemBlocked =>
      apply dispatchModemBlocked_meets.bind
      intro _ vars same
      exact same

theorem condemn_meets : (AliveTimeout.condemn.interp expand).Meets mutex
    (fun _ vars => vars.held = false) { tells := none } := by
  refine Prog.Meets.call (mutex_works rfl) fun sysdump => ?_
  refine Prog.Meets.call (mutex_works rfl) fun modemReset => ?_
  change Prog.Meets mutex (Prog.interp expand (if _ then _ else _)) _ _
  rw [Prog.interp_ite]
  split
  · exact ⟨mutex_works rfl, nofun⟩
  · rename_i stays
    refine Prog.Meets.call (mutex_works rfl) fun _ => ?_
    have tells : some (!(atoi modemReset != 0 && !strstr sysdump (bytes "on"))) = some true := by
      rw [Bool.eq_false_of_not_eq_true stays]
      rfl
    apply (modemWriteDataToClients_meets AliveTimeout.MODEM_NOT_ALIVE rfl tells).bind
    rintro _ _ rfl
    rfl

theorem modemCtrlAliveTimeout_meets :
    modemCtrlAliveTimeout.Meets mutex (fun _ vars => vars.held = false) { tells := none } := by
  refine Prog.Meets.call (mutex_works rfl) fun state => ?_
  change Prog.Meets mutex (Prog.interp expand (if _ then _ else _)) _ _
  rw [Prog.interp_ite]
  split
  · rfl
  · refine Prog.Meets.call (mutex_works rfl) fun running => ?_
    cases running with
    | false => rfl
    | true => exact Prog.Meets.call (mutex_works rfl) fun _ => condemn_meets

/-- What a call of a frame of thread `t` does to the owner of the mutex. -/
inductive Moved (owner : Option Nat) (t : Nat) (answer : (op : Op) → Option op.Res) (f f' : Frame) :
    Option Nat → Prop
  | locks (free : owner = none) (may : f.vars.held = false ∧ f.vars.tells = some true)
      (taken : f'.vars = { f.vars with held := true }) : Moved owner t answer f f' (some t)
  | unlocks (had : f.vars.held = true) (given : f'.vars = { f.vars with held := false }) :
      Moved owner t answer f f' none
  | decides (modemReset : Bytes) (next : Bytes → MutexProg Unit)
      (here : f.rest = .call (.alarm .modemResetProp) next)
      (read : answer (.alarm .modemResetProp) = some modemReset)
      (decided : f'.vars = { f.vars with tells := some (!f.vars.reboots modemReset) }) :
      Moved owner t answer f f' owner
  | works (held : f'.vars.held = f.vars.held) (tells : f'.vars.tells = f.vars.tells) :
      Moved owner t answer f f' owner

/-- A frame keeps to the mutex. -/
def Frame.Keeps (f : Frame) : Prop := f.rest.Meets mutex (fun _ vars => vars.held = false) f.vars

theorem step_moved {owner owner' : Option Nat} {t : Nat} {answer : (op : Op) → Option op.Res}
    {f f' : Frame} (keeps : f.Keeps) (taken : f.step (answered owner t answer) = some (f', owner')) :
    f'.Keeps ∧ Moved owner t answer f f' owner' := by
  obtain ⟨⟨rest, vars, owner₁⟩, resumed, same⟩ := Option.map_eq_some_iff.mp taken
  obtain ⟨rfl, rfl⟩ := Prod.mk.inj same
  obtain ⟨op, next, r, here, answers, rfl⟩ := Prog.resume_cases resumed
  obtain ⟨⟨r', owner₂⟩, given, pair⟩ := Option.map_eq_some_iff.mp answers
  obtain ⟨rfl, rfl, rfl⟩ : r' = r ∧ f.vars.next op r' = vars ∧ owner₂ = owner₁ := by simpa using pair
  rw [Frame.Keeps, here] at keeps
  refine ⟨keeps.2 r', ?_⟩
  cases op with
  | lock =>
      simp only [answered] at given
      split at given
      · rename_i free
        obtain ⟨-, rfl⟩ := Prod.mk.inj (Option.some.inj given)
        exact .locks free (keeps.1.1 rfl) rfl
      · cases given
  | unlock =>
      obtain ⟨-, rfl⟩ := Prod.mk.inj (Option.some.inj given)
      exact .unlocks (keeps.1.2 rfl) rfl
  | alarm op =>
      obtain ⟨r, read, pair⟩ := Option.map_eq_some_iff.mp given
      obtain ⟨rfl, rfl⟩ := Prod.mk.inj pair
      cases op with
      | modemResetProp => exact .decides r next here read rfl
      | _ => exact .works rfl rfl
  | _ =>
      obtain ⟨r, read, pair⟩ := Option.map_eq_some_iff.mp given
      obtain ⟨rfl, rfl⟩ := Prod.mk.inj pair
      exact .works rfl rfl

def Frame.holds (f : Frame) : Prop := f.vars.held = true

/-- A thread that was interrupted with the mutex has a handler that will not broadcast. -/
structure ThreadInv (th : Thread) : Prop where
  base : th.base.Keeps
  handler : ∀ h, th.handler = some h → h.Keeps
  interrupted : th.base.holds → ∀ h, th.handler = some h → ¬ h.holds ∧ h.vars.tells ≠ some true

def Thread.holds (th : Thread) : Prop := th.base.holds ∨ ∃ h, th.handler = some h ∧ h.holds

structure Inv (s : State) : Prop where
  threads : ∀ t, ThreadInv (s.threads t)
  owner : ∀ t, s.owner = some t ↔ (s.threads t).holds

theorem Inv.noSelfDeadlock {s : State} (inv : Inv s) : NoSelfDeadlock s := by
  intro t owner
  rintro ⟨next, here⟩
  have th := inv.threads t
  have holds := (inv.owner t).mp owner
  cases handler : (s.threads t).handler with
  | none =>
      rw [Thread.top, handler] at here
      have keeps := th.base
      rw [Frame.Keeps, show (s.threads t).base.rest = _ from here] at keeps
      rcases holds with base | ⟨h, same, _⟩
      · rw [Frame.holds, (keeps.1.1 rfl).1] at base
        cases base
      · rw [handler] at same
        cases same
  | some h =>
      rw [Thread.top, handler] at here
      have keeps := th.handler h handler
      rw [Frame.Keeps, show h.rest = _ from here] at keeps
      obtain ⟨notHeld, tells⟩ := keeps.1.1 rfl
      rcases holds with base | ⟨h', same, held⟩
      · exact (th.interrupted base h handler).2 tells
      · obtain rfl : h = h' := Option.some.inj (handler.symm.trans same)
        rw [Frame.holds, notHeld] at held
        cases held

/-- One thread changes, and its hold on the mutex with the owner. -/
theorem Inv.update {s : State} (inv : Inv s) {t : Nat} {th : Thread} {owner : Option Nat}
    (thread : ThreadInv th) (own : owner = some t ↔ th.holds)
    (others : ∀ t', t' ≠ t → (owner = some t' ↔ s.owner = some t')) :
    Inv { s.setThread t th with owner := owner } := by
  constructor
  · intro t'
    by_cases same : t' = t
    · subst same
      simpa [State.setThread] using thread
    · simpa [State.setThread, Function.update_of_ne same] using inv.threads t'
  · intro t'
    by_cases same : t' = t
    · subst same
      simpa [State.setThread] using own
    · simpa [State.setThread, Function.update_of_ne same] using
        (others t' same).trans (inv.owner t')

/-- A thread that changes without its hold on the mutex. -/
theorem Inv.updateSame {s : State} (inv : Inv s) {t : Nat} {th : Thread} (thread : ThreadInv th)
    (same : th.holds ↔ (s.threads t).holds) : Inv (s.setThread t th) :=
  inv.update thread ((inv.owner t).trans same.symm) fun _ _ => Iff.rfl

/-- The owner follows the frame that runs; `rest` says whether the other frame of the
    thread has the mutex. -/
theorem Moved.owner {owner owner' : Option Nat} {t : Nat} {answer : (op : Op) → Option op.Res}
    {f f' : Frame} {rest : Prop} (moved : Moved owner t answer f f' owner')
    (own : owner = some t ↔ f.holds ∨ rest) (apart : f.holds ∨ f.vars.tells = some true → ¬ rest) :
    (owner' = some t ↔ f'.holds ∨ rest) ∧ ∀ t', t' ≠ t → (owner' = some t' ↔ owner = some t') := by
  have kept (held : f'.vars.held = f.vars.held) : owner = some t ↔ f'.holds ∨ rest := by
    rw [own, Frame.holds, Frame.holds, held]
  cases moved with
  | locks free may taken =>
      have holds : f'.holds := by rw [Frame.holds, taken]
      refine ⟨iff_of_true rfl (Or.inl holds), ?_⟩
      intro t' other
      rw [free]
      exact iff_of_false (fun same => other (Option.some.inj same).symm) nofun
  | unlocks had given =>
      have notHeld : ¬ f'.holds := by simp [Frame.holds, given]
      have mine : owner = some t := own.mpr (Or.inl had)
      constructor
      · exact iff_of_false nofun fun holds => holds.elim notHeld (apart (Or.inl had))
      · intro t' other
        rw [mine]
        exact iff_of_false nofun fun same => other (Option.some.inj same).symm
  | decides modemReset next here read decided =>
      exact ⟨kept (by rw [decided]), fun _ _ => Iff.rfl⟩
  | works held tells => exact ⟨kept held, fun _ _ => Iff.rfl⟩

/-- The interrupted code keeps the mutex, and the handler stays away from it. -/
theorem Moved.interrupted {owner owner' : Option Nat} {t : Nat}
    {answer : (op : Op) → Option op.Res} {f f' : Frame} (moved : Moved owner t answer f f' owner')
    (before : ¬ f.holds ∧ f.vars.tells ≠ some true)
    (reboots : ∀ next, f.rest = .call (.alarm .modemResetProp) next →
      (answer (.alarm .modemResetProp)).all f.vars.reboots = true) :
    ¬ f'.holds ∧ f'.vars.tells ≠ some true := by
  cases moved with
  | locks free may taken => exact absurd may.2 before.2
  | unlocks had given => exact absurd had before.1
  | decides modemReset next here read decided =>
      have reboot := reboots next here
      rw [read] at reboot
      have notTells : f.vars.reboots modemReset = true := reboot
      rw [Frame.holds, decided, notTells]
      exact ⟨before.1, nofun⟩
  | works held tells =>
      rw [Frame.holds, held, tells]
      exact before

theorem inv_call {s s' : State} {t : Nat} {answer : (op : Op) → Option op.Res} (inv : Inv s)
    (reboots : Reboots s (.step t answer)) (taken : step s (.step t answer) = some s') : Inv s' := by
  obtain ⟨⟨f, owner⟩, moved, rfl⟩ := Option.map_eq_some_iff.mp taken
  have th := inv.threads t
  have own := inv.owner t
  rw [Thread.holds] at own
  cases handler : (s.threads t).handler with
  | none =>
      simp only [Thread.top, handler, Option.getD_none] at moved
      obtain ⟨keeps, moved⟩ := step_moved th.base moved
      simp only [handler, reduceCtorEq, false_and, exists_false] at own
      obtain ⟨mine, others⟩ := moved.owner own fun _ => id
      have thread : ThreadInv ((s.threads t).setTop f) := by
        simp only [Thread.setTop, handler]
        exact ⟨keeps, nofun, nofun⟩
      apply inv.update thread _ others
      rw [mine]
      simp [Thread.holds, Thread.setTop, handler]
  | some h =>
      simp only [Thread.top, handler, Option.getD_some] at moved
      obtain ⟨keeps, moved⟩ := step_moved (th.handler h handler) moved
      have own : s.owner = some t ↔ h.holds ∨ (s.threads t).base.holds := by
        rw [own, handler, or_comm]
        simp
      have apart : h.holds ∨ h.vars.tells = some true → ¬ (s.threads t).base.holds := by
        intro active base
        obtain ⟨notHeld, notTells⟩ := th.interrupted base h handler
        exact active.elim notHeld notTells
      obtain ⟨mine, others⟩ := moved.owner own apart
      have thread : ThreadInv ((s.threads t).setTop f) := by
        simp only [Thread.setTop, handler]
        refine ⟨th.base, ?_, ?_⟩
        · rintro _ ⟨⟩
          exact keeps
        · rintro base _ ⟨⟩
          apply moved.interrupted (th.interrupted base h handler)
          intro next here
          obtain ⟨rest, vars⟩ := h
          obtain rfl : rest = _ := here
          rw [Reboots, handler] at reboots
          exact reboots ((inv.owner t).mpr (Or.inl base))
      apply inv.update thread _ others
      rw [mine, or_comm]
      simp [Thread.holds, Thread.setTop, handler]

theorem inv_step (s : State) (i : Input) (s' : State) (inv : Inv s) (reboots : Reboots s i)
    (taken : step s i = some s') : Inv s' := by
  cases i with
  | begin t work =>
      simp only [step] at taken
      split at taken
      · rename_i idle done
        obtain rfl := Option.some.inj taken
        have keeps := (inv.threads t).base
        rw [Frame.Keeps, done] at keeps
        have out : (s.threads t).base.vars.held = false := keeps
        apply inv.updateSame
        · refine ⟨?_, nofun, nofun⟩
          apply (prog_meets work).mono
          rintro _ _ rfl
          rfl
        · simp [Thread.holds, Frame.holds, idle, out]
      · cases taken
  | alarm t =>
      simp only [step] at taken
      split at taken
      · rename_i idle
        obtain rfl := Option.some.inj taken
        apply inv.updateSame
        · refine ⟨(inv.threads t).base, ?_, ?_⟩
          · rintro _ ⟨⟩
            exact modemCtrlAliveTimeout_meets
          · rintro _ _ ⟨⟩
            exact ⟨nofun, nofun⟩
        · simp [Thread.holds, idle, Frame.holds]
      · cases taken
  | step t answer => exact inv_call inv reboots taken
  | leave t =>
      simp only [step] at taken
      split at taken
      · rename_i _ vars done
        obtain rfl := Option.some.inj taken
        have out : vars.held = false := (inv.threads t).handler _ done
        apply inv.updateSame
        · exact ⟨(inv.threads t).base, nofun, nofun⟩
        · simp [Thread.holds, Frame.holds, done, out]
      · cases taken

/-- When every handler that has interrupted the owner of the mutex, and has come to read
    the properties, reboots the system, no thread waits for itself. -/
theorem no_self_deadlock (inputs : List Input) (along : Along step Reboots {} inputs) :
    Throughout step NoSelfDeadlock {} inputs := by
  have start : Inv {} := by
    constructor
    · intro t
      exact ⟨rfl, nofun, nofun⟩
    · intro t
      simp [Thread.holds, Frame.holds]
  exact (throughout_of_along inv_step start along).mono fun _ => Inv.noSelfDeadlock

/-- The modem boots, the timer runs, and nothing is dumped. -/
def booting (modemReset : Bytes) : (op : Op) → Option op.Res
  | .sModemState => some .offline
  | .modemSaveDumpProp => some (bytes "0")
  | .modemResetProp => some modemReset
  | .alarm .modemCtrlGetModemState => some .booting
  | .alarm .sWaitAliveTimer => some true
  | .alarm .modemSysdumpProp => some (bytes "off")
  | .alarm .modemResetProp => some modemReset
  | .alarm .modemCtrlRebootAllSystem => none
  | .alarm .clearWaitAliveTimer | .alarm (.modemCtrlSetModemState _) |
    .alarm (.modemWriteDataToClients _) | .lock | .unlock | .modemCtrlProcessMessage _ |
    .writeClients _ | .setModemState _ | .writeCtrl _ | .wakeLock _ | .probeLoop |
    .controlNvitemd _ => some ()

/-- SIGALRM interrupts a thread that has taken the mutex for a broadcast. -/
def alarmInBroadcast (modemReset : Bytes) (n : Nat) : List Input :=
  [.begin 0 (.modemWriteDataToClients MODEM_ALIVE), .step 0 (booting modemReset), .alarm 0] ++
    List.replicate n (.step 0 (booting modemReset))

/-- The handler reboots the system. -/
theorem alarm_reboots : Throughout step NoSelfDeadlock {} (alarmInBroadcast (bytes "1") 5) :=
  no_self_deadlock (alarmInBroadcast (bytes "1") 5) (by decide)

/-- The handler broadcasts too. -/
theorem alarm_deadlocks : ¬ Throughout step NoSelfDeadlock {} (alarmInBroadcast (bytes "0") 6) := by
  intro free
  exact free.last rfl 0 rfl ⟨_, rfl⟩

end ModemControl.WriteMutex
