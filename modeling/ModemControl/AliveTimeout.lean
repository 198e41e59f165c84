import ModemControl.Foundation.Monitor
import ModemControl.Foundation.Runs
import ModemControl.ListenModem

/-! # The alive timer runs out

`modem_ctrl_alive_timeout` as a program over the shared variables it tests and what it
does then, beside the threads that hear 'Modem Alive': the listener, and the thread that
has started the timer. Only the external variant has the handler.
-/

namespace ModemControl.AliveTimeout

open Foundation ListenModem

inductive Op where
  | modemCtrlGetModemState
  /-- `s_wait_alive_timer.it_value.tv_sec` is read; whether it is not 0. -/
  | sWaitAliveTimer
  /-- `s_wait_alive_timer.it_value.tv_sec = 0` -/
  | clearWaitAliveTimer
  /-- `MODEM_SYSDUMP_PROP`, "off" when it is not set. -/
  | modemSysdumpProp
  /-- `MODEM_RESET_PROP`, "0" when it is not set. -/
  | modemResetProp
  | modemCtrlRebootAllSystem
  | modemCtrlSetModemState (state : ModemState)
  | modemWriteDataToClients (buf : Bytes)
  deriving Repr, DecidableEq

/-- The reboot of the system never comes back. -/
abbrev Op.Res : Op → Type
  | .modemCtrlGetModemState => ModemState
  | .sWaitAliveTimer => Bool
  | .modemSysdumpProp | .modemResetProp => Bytes
  | .modemCtrlRebootAllSystem => Empty
  | .clearWaitAliveTimer | .modemCtrlSetModemState _ | .modemWriteDataToClients _ => Unit

abbrev HandlerProg (α : Type) : Type := Prog Op Op.Res α

def call (op : Op) : HandlerProg op.Res := .call op .ret

def MODEM_NOT_ALIVE : Bytes := bytes "Modem Assert: modem not alive!"

/-- After the wait of 6 s. -/
def condemn : HandlerProg Unit := do
  let sysdump ← call .modemSysdumpProp
  let isDumpOrca := strstr sysdump (bytes "on")
  let prop ← call .modemResetProp
  if atoi prop != 0 && !isDumpOrca then
    let never ← call .modemCtrlRebootAllSystem
    nomatch never
  else
    call (.modemCtrlSetModemState .assert)
    call (.modemWriteDataToClients MODEM_NOT_ALIVE)

def modemCtrlAliveTimeout : HandlerProg Unit := do
  let state ← call .modemCtrlGetModemState
  if state == .alive then pure ()
  else
    let running ← call .sWaitAliveTimer
    -- has been stopped
    if !running then pure ()
    else
      call .clearWaitAliveTimer
      condemn

/-- The threads that read the modem's messages: `modem_ctrl_listen_modem`, and
    `modem_ctrl_try_read_modem_alive` after the timer is started. -/
inductive Reader where
  | listenModem
  | tryReadModemAlive
  deriving Repr, DecidableEq

/-- A handler that runs, on whatever thread. -/
structure Handler where
  rest : HandlerProg Unit := modemCtrlAliveTimeout
  /-- It has found the timer running. -/
  past : Bool := false

/-- It is still to act on that. -/
def Handler.pending (h : Handler) : Bool :=
  match h.rest with
  | .ret _ => false
  | .call _ _ => h.past

structure State where
  gModemState : ModemState
  /-- `s_wait_alive_timer.it_value.tv_sec` is not 0. -/
  timer : Bool := false
  handlers : List Handler := []
  /-- What each reader has still to do for the message it has read. -/
  todo : Reader → List Act := fun _ => []
  /-- A 'Modem Alive' was handled since the timer was last started. -/
  aliveHandled : Bool := false

/-- The properties as the handler reads them. -/
structure Props where
  sysdump : Bytes := bytes "off"
  modemReset : Bytes := bytes "0"

inductive Input where
  /-- SIGALRM. -/
  | alarm
  /-- The handler at this place makes its next call. -/
  | handler (k : Nat) (p : Props)
  /-- `modem_ctrl_listen_modem` reads a message. -/
  | message (v : Variant) (data : Bytes) (isReset : Bool)
  /-- `modem_ctrl_try_read_modem_alive` goes once through its loop. -/
  | aliveRound (r : AliveRound)
  /-- A reader takes its next step. -/
  | reader (r : Reader)
  | startWaitAliveTimer
  /-- The timer is stopped before a reload. -/
  | stopWaitAliveTimer
  /-- The state is set by another thread. -/
  | setModemState (state : ModemState)

/-- What a call of a handler finds and leaves. -/
def answer (s : State) (p : Props) : (op : Op) → Option (op.Res × State)
  | .modemCtrlGetModemState => some (s.gModemState, s)
  | .sWaitAliveTimer => some (s.timer, s)
  | .clearWaitAliveTimer => some ((), { s with timer := false })
  | .modemSysdumpProp => some (p.sysdump, s)
  | .modemResetProp => some (p.modemReset, s)
  | .modemCtrlRebootAllSystem => none
  | .modemCtrlSetModemState state => some ((), { s with gModemState := state })
  | .modemWriteDataToClients _ => some ((), s)

/-- Both steps a reader takes for 'Modem Alive' count, from the first on. -/
def readerAct (s : State) : Act → State
  | .stopWaitAliveTimer => { s with timer := false, aliveHandled := true }
  | .setModemState .alive => { s with gModemState := .alive, aliveHandled := true }
  | .setModemState g => { s with gModemState := g }
  | _ => s

def State.read (s : State) (r : Reader) (acts : List Act) : Option State :=
  if s.todo r = [] then some { s with todo := Function.update s.todo r acts } else none

/-- Whether the timer was found running, after this call. -/
def passed (past : Bool) : (op : Op) → op.Res → Bool
  | .sWaitAliveTimer, running => running
  | _, _ => past

def step (s : State) : Input → Option State
  | .alarm => some { s with handlers := s.handlers ++ [{}] }
  | .handler k p =>
      match s.handlers[k]? with
      | none => none
      | some h =>
          (h.rest.resume fun op =>
              (answer s p op).map fun (r, s') => (r, passed h.past op r, s')).map
            fun (rest, past, s') => { s' with handlers := s'.handlers.set k ⟨rest, past⟩ }
  | .message v data isReset => s.read .listenModem (message v isReset data)
  | .aliveRound r => s.read .tryReadModemAlive (aliveActs r)
  | .reader r =>
      match s.todo r with
      | [] => none
      | act :: rest => some (readerAct { s with todo := Function.update s.todo r rest } act)
  | .startWaitAliveTimer => some { s with timer := true, aliveHandled := false }
  | .stopWaitAliveTimer => some { s with timer := false }
  | .setModemState state => some { s with gModemState := state }

/-- What is done to a modem that does not answer. -/
def Op.condemns : Op → Bool
  | .modemCtrlRebootAllSystem | .modemCtrlSetModemState _ | .modemWriteDataToClients _ => true
  | _ => false

/-- No handler comes to reboot the system, to set ASSERT or to broadcast it when the modem
    has answered. -/
def Spared (s : State) : Prop :=
  ∀ h ∈ s.handlers, ∀ op next, h.rest = .call op next → op.condemns = true →
    s.aliveHandled = false

/-- When a 'Modem Alive' is handled, no handler is still to act on the timer that it has
    found running; and when ALIVE is set, the timer was not started again since it was
    stopped. -/
def InTime (s : State) : Input → Prop
  | .reader r =>
      match s.todo r with
      | .stopWaitAliveTimer :: _ => ∀ h ∈ s.handlers, h.pending = false
      | .setModemState .alive :: _ => s.timer = false ∧ ∀ h ∈ s.handlers, h.pending = false
      | _ => True
  | _ => True

instance (s : State) (i : Input) : Decidable (InTime s i) := by
  unfold InTime
  split
  · split <;> infer_instance
  · infer_instance

/-- A handler does something only when it has found the timer running. -/
def guards : Monitor Op Op.Res Bool where
  next := passed
  ok := fun past op => op.condemns = true → past = true

theorem condemn_meets : condemn.Meets guards (fun _ _ => True) true := by
  refine Prog.Meets.call (fun _ => rfl) fun sysdump => Prog.Meets.call (fun _ => rfl) fun prop => ?_
  split
  · exact ⟨fun _ => rfl, nofun⟩
  · exact ⟨fun _ => rfl, fun _ => ⟨fun _ => rfl, fun _ => trivial⟩⟩

theorem modemCtrlAliveTimeout_meets :
    modemCtrlAliveTimeout.Meets guards (fun _ _ => True) false := by
  refine Prog.Meets.call nofun fun state => ?_
  split
  · trivial
  · refine Prog.Meets.call nofun fun running => ?_
    cases running with
    | false => trivial
    | true => exact ⟨nofun, fun _ => condemn_meets⟩

/-- Once 'Modem Alive' is handled the timer is off, and no handler is to act on it. -/
structure Inv (s : State) : Prop where
  handlers : ∀ h ∈ s.handlers, h.rest.Meets guards (fun _ _ => True) h.past
  alive : s.aliveHandled = true → s.timer = false ∧ ∀ h ∈ s.handlers, h.pending = false

theorem Handler.pending_call {h : Handler} {op : Op} {next : op.Res → HandlerProg Unit}
    (same : h.rest = .call op next) : h.pending = h.past := by
  rw [Handler.pending, same]

theorem Handler.not_pending {h : Handler} (notPast : h.past = false) : h.pending = false := by
  rw [Handler.pending]
  split
  · rfl
  · exact notPast

theorem Inv.spared {s : State} (inv : Inv s) : Spared s := by
  intro h member op next same condemns
  have meets := inv.handlers h member
  rw [same] at meets
  have past : h.past = true := meets.1 condemns
  cases handled : s.aliveHandled with
  | false => rfl
  | true =>
      rw [← Handler.pending_call same, (inv.alive handled).2 h member] at past
      cases past

/-- A call of a handler does not start the timer. -/
theorem answer_frame {s s' : State} {p : Props} {op : Op} {r : op.Res}
    (answered : answer s p op = some (r, s')) :
    s'.handlers = s.handlers ∧ s'.aliveHandled = s.aliveHandled ∧
      (s.timer = false → s'.timer = false) := by
  cases op with
  | modemCtrlRebootAllSystem => cases answered
  | clearWaitAliveTimer =>
      obtain ⟨-, rfl⟩ := Prod.mk.inj (Option.some.inj answered)
      exact ⟨rfl, rfl, fun _ => rfl⟩
  | _ =>
      obtain ⟨-, rfl⟩ := Prod.mk.inj (Option.some.inj answered)
      exact ⟨rfl, rfl, id⟩

/-- With the timer off, a handler that was not past it does not get past it. -/
theorem passed_off {s s' : State} {p : Props} {op : Op} {r : op.Res}
    (answered : answer s p op = some (r, s')) (off : s.timer = false) : passed false op r = false := by
  cases op with
  | sWaitAliveTimer =>
      obtain ⟨rfl, -⟩ := Prod.mk.inj (Option.some.inj answered)
      exact off
  | _ => rfl

theorem inv_handler {s s' : State} {k : Nat} {p : Props} (inv : Inv s)
    (taken : step s (.handler k p) = some s') : Inv s' := by
  simp only [step] at taken
  split at taken
  · cases taken
  · rename_i h here
    obtain ⟨⟨rest, past, s₁⟩, resumed, rfl⟩ := Option.map_eq_some_iff.mp taken
    obtain ⟨op, next, r, same, answers, rfl⟩ := Prog.resume_cases resumed
    obtain ⟨⟨r', s₂⟩, answered, pair⟩ := Option.map_eq_some_iff.mp answers
    obtain ⟨rfl, rfl, rfl⟩ : r' = r ∧ passed h.past op r' = past ∧ s₂ = s₁ := by simpa using pair
    obtain ⟨handlers, aliveHandled, timer⟩ := answer_frame answered
    have member : h ∈ s.handlers := List.mem_of_getElem? here
    have meets := inv.handlers h member
    rw [same] at meets
    constructor
    · intro h' member'
      rcases List.mem_or_eq_of_mem_set member' with before | rfl
      · exact inv.handlers h' (handlers ▸ before)
      · exact meets.2 r'
    · intro handled
      obtain ⟨off, none⟩ := inv.alive (aliveHandled ▸ handled)
      refine ⟨timer off, ?_⟩
      intro h' member'
      rcases List.mem_or_eq_of_mem_set member' with before | rfl
      · exact none h' (handlers ▸ before)
      · apply Handler.not_pending
        change passed h.past op r' = false
        rw [← Handler.pending_call same, none h member]
        exact passed_off answered off

theorem inv_reader {s : State} {r : Reader} {act : Act} {rest : List Act} (inv : Inv s)
    (head : s.todo r = act :: rest) (inTime : InTime s (.reader r)) :
    Inv (readerAct { s with todo := Function.update s.todo r rest } act) := by
  rw [InTime, head] at inTime
  cases act with
  | stopWaitAliveTimer => exact ⟨inv.handlers, fun _ => ⟨rfl, inTime⟩⟩
  | setModemState g =>
      cases g with
      | alive => exact ⟨inv.handlers, fun _ => inTime⟩
      | _ => exact ⟨inv.handlers, inv.alive⟩
  | _ => exact ⟨inv.handlers, inv.alive⟩

theorem inv_step (s : State) (i : Input) (s' : State) (inv : Inv s) (inTime : InTime s i)
    (taken : step s i = some s') : Inv s' := by
  have read {r : Reader} {acts : List Act} (taken : s.read r acts = some s') : Inv s' := by
    rw [State.read] at taken
    split at taken
    · obtain rfl := Option.some.inj taken
      exact ⟨inv.handlers, inv.alive⟩
    · cases taken
  cases i with
  | alarm =>
      obtain rfl := Option.some.inj taken
      have every {p : Handler → Prop} {new : Handler} (before : ∀ h ∈ s.handlers, p h)
          (holds : p new) : ∀ h ∈ s.handlers ++ [new], p h :=
        List.forall_mem_append.mpr ⟨before, List.forall_mem_singleton.mpr holds⟩
      constructor
      · exact every inv.handlers modemCtrlAliveTimeout_meets
      · intro handled
        obtain ⟨off, none⟩ := inv.alive handled
        exact ⟨off, every none rfl⟩
  | handler k p => exact inv_handler inv taken
  | message v data isReset => exact read taken
  | aliveRound r => exact read taken
  | reader r =>
      cases head : s.todo r with
      | nil => simp [step, head] at taken
      | cons act rest =>
          simp only [step, head, Option.some.injEq] at taken
          subst taken
          exact inv_reader inv head inTime
  | startWaitAliveTimer =>
      obtain rfl := Option.some.inj taken
      exact ⟨inv.handlers, nofun⟩
  | stopWaitAliveTimer =>
      obtain rfl := Option.some.inj taken
      exact ⟨inv.handlers, fun handled => ⟨rfl, (inv.alive handled).2⟩⟩
  | setModemState state =>
      obtain rfl := Option.some.inj taken
      exact ⟨inv.handlers, inv.alive⟩

/-- No message is read and no handler runs. -/
def quiet (g : ModemState) : State := { gModemState := g }

/-- When no 'Modem Alive' is handled behind the back of a handler, no handler condemns a
    modem that has answered. -/
theorem live_modem_spared (g : ModemState) (inputs : List Input)
    (along : Along step InTime (quiet g) inputs) : Throughout step Spared (quiet g) inputs := by
  have start : Inv (quiet g) := ⟨nofun, nofun⟩
  exact (throughout_of_along inv_step start along).mono fun _ => Inv.spared

/-- The timer is started and runs out; the handler makes `n` calls before the listener
    has handled 'Modem Alive', and `more` after that. -/
def aliveAfter (n more : Nat) : List Input :=
  [.startWaitAliveTimer, .alarm] ++ List.replicate n (.handler 0 {}) ++
    [.message .external MODEM_ALIVE false, .reader .listenModem, .reader .listenModem] ++
    List.replicate more (.handler 0 {})

/-- The modem answers before the handler has looked at the timer. -/
theorem early_answer_spared : Throughout step Spared (quiet .booting) (aliveAfter 1 1) :=
  live_modem_spared .booting (aliveAfter 1 1) (by decide)

/-- The modem answers while the handler sleeps. -/
theorem late_answer_condemned : ¬ Throughout step Spared (quiet .booting) (aliveAfter 3 2) := by
  intro spared
  have condemned := spared.last rfl _ List.mem_cons_self _ _ rfl rfl
  cases condemned

end ModemControl.AliveTimeout
