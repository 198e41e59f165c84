import ModemControl.Foundation.Refinement
import ModemControl.PrepareReset
import ModemControl.ResetCalls

/-! # The 'Prepare Reset' branch, call by call beside the listener

In `PrepareReset` the branch is a machine of a few steps. Here it makes one call after the
other, with the reads that empty the devices, and the listener comes in between any two of
them. Every run of it is a run of that machine.
-/

namespace ModemControl.ResetCalls

open Foundation ListenModem
open PrepareReset (Pc Acked Acknowledged)

/-- What the two threads share, with what is left of the branch and of the listener's steps.
    `ack`, `commandSent` and `reloaded` are those of `PrepareReset.State`. -/
structure State where
  rest : ResetProg Unit
  waitModemReset : Bool
  gModemState : ModemState
  miniapPanic : Bool
  shared : Connect.Shared
  todo : List ListenModem.Act := []
  ack : Bool := false
  commandSent : Bool := false
  pipe : List (CtrlMsg × Bool) := []
  reloaded : Bool := false

/-- The state a call leaves. What a load itself does to the state is not followed. -/
def State.called (c : State) : (op : Op) → op.Res → State
  | .loop .clearMiniapPanic, _ => { c with miniapPanic := false }
  | .loop .modemCtrlRebootExternalModem, _ =>
      { c with gModemState := .rebootExtModem, reloaded := true }
  | .loop (.loadModemImg _), _ => { c with reloaded := true }
  | .setWaitResetFlag set, _ => { c with waitModemReset := set }
  | .write _ _, wCnt => { c with commandSent := 0 < wCnt }
  | _, _ => c

/-- The variables are read as they are, the rest is answered from outside, if it is. -/
def State.answered (c : State) (answer : (op : Op) → Option op.Res) : (op : Op) → Option op.Res
  | .loop .bMiniapPanic => some c.miniapPanic
  | .loop .waitModemReset => some c.waitModemReset
  | op => answer op

def State.listenerAct (p : Connect.Props) (c : State) : ListenModem.Act → State
  | .setModemState g => { c with gModemState := g }
  | .setWaitResetFlag set => { c with waitModemReset := set }
  | .toClients msg =>
      let (shared, acts) := Connect.modemWriteDataToClients p c.shared msg
      { c with shared := shared, pipe := c.pipe ++ (PrepareReset.controls acts).map fun m => (m, c.ack) }
  | _ => c

inductive Input where
  | client (answer : (op : Op) → Option op.Res)
  | modem (data : Bytes) (isReset ack : Bool)
  | listener (p : Connect.Props)

def step (v : Variant) (c : State) : Input → Option State
  | .client answer =>
      (c.rest.resume fun op => (c.answered answer op).map fun r => (r, c.called op r)).map
        fun (rest, c') => { c' with rest := rest }
  | .modem data isReset ack =>
      if c.todo = [] ∧ (ack = true → c.commandSent = true) then
        some { c with todo := message v isReset data, ack := ack }
      else none
  | .listener p =>
      match c.todo with
      | [] => none
      | act :: rest => some (State.listenerAct p { c with todo := rest } act)

def start (v : Variant) (rounds : Nat) (flag : Bool) (g : ModemState) (panic : Bool)
    (shared : Connect.Shared) : State where
  rest := branch v rounds
  waitModemReset := flag
  gModemState := g
  miniapPanic := panic
  shared := shared

/-- Behind the test of `wait_modem_reset`: the tests of the loop, or the one after it, which
    also comes when the count is used up. -/
def afterTest : Pc → Bool → Pc
  | .wait (cnt + 2), true => .wait (cnt + 1)
  | .wait (_ + 2), false => .lastTest
  | _, waiting => if waiting then .reload else .done

/-- Where `PrepareReset` is behind a call of the loop, and the panic flag as it was read. -/
def loopNext (m : Pc × Bool) : (op : ListenClients.Op) → op.Res → Pc × Bool
  | .bMiniapPanic, panic => (m.1, panic)
  | .clearMiniapPanic, _ => (m.1, false)
  | .propertyGet _, prop => (if atoi prop == 0 then .reload else .openDiag, m.2)
  | .prepareResetModem, _ => (.wait 50, m.2)
  | .waitModemReset, waiting => (afterTest m.1 waiting, m.2)
  | .modemCtrlRebootExternalModem, _ | .loadModemImg _, _ => (.done, m.2)
  | _, _ => m

def loopOk (v : Variant) (m : Pc × Bool) : ListenClients.Op → Prop
  | .bMiniapPanic | .clearMiniapPanic => m.1 = .branch
  | .propertyGet _ => v = .external ∧ m = (.branch, false)
  | .prepareResetModem => m.1 = .openDiag
  | .waitModemReset => (∃ cnt, m.1 = .wait (cnt + 1)) ∨ m.1 = .lastTest
  | .modemCtrlRebootExternalModem => v = .external ∧ m.1 = .reload
  | .loadModemImg _ => v = .internal ∧ m.1 = .reload
  | .modemCtrlStopWaitAliveTimer | .modemCtrlStartWaitAliveTimer => True
  | _ => False

def loopMonitor (v : Variant) :
    Monitor ListenClients.Op ListenClients.Op.Res (Pc × Bool) where
  next := loopNext
  ok := loopOk v

def callMonitor (v : Variant) : Monitor Op Op.Res (Pc × Bool) where
  next m
    | .loop op, r => loopNext m op r
    | .open_ .diagFd _, opened => (if opened then .setFlag else .wait 50, m.2)
    | .setWaitResetFlag _, _ => (.writeDiag, m.2)
    | .write _ _, _ => (.wait 50, m.2)
    | _, _ => m
  ok m
    | .loop op => op ≠ .prepareResetModem ∧ loopOk v m op
    | .open_ .diagFd _ => m.1 = .openDiag
    | .setWaitResetFlag set => set = true ∧ m.1 = .setFlag
    | .write _ _ => m.1 = .writeDiag
    | _ => True

/-- The internal variant begins at the request. -/
def begins : Variant → Pc
  | .external => .branch
  | .internal => .openDiag

section

variable {v : Variant} {panic : Bool}

theorem waitReset_at (cnt : Nat) :
    (ListenClients.waitReset cnt).Meets (loopMonitor v)
      (fun _ m => (m.1 = .wait 1 ∨ m.1 = .lastTest) ∧ m.2 = panic) (.wait (cnt + 1), panic) := by
  induction cnt with
  | zero => exact ⟨Or.inl rfl, rfl⟩
  | succ cnt ih =>
      apply Prog.Meets.call
      · exact Or.inl ⟨_, rfl⟩
      · intro waiting
        cases waiting with
        | true => exact ih
        | false => exact ⟨Or.inr rfl, rfl⟩

theorem rebootModem_at :
    (ListenClients.reloadModem .modemCtrlRebootExternalModem).Meets (loopMonitor .external)
      (fun _ m => m.1 = .done) (.reload, panic) :=
  ⟨trivial, fun _ => ⟨⟨rfl, rfl⟩, fun _ => ⟨trivial, fun _ => rfl⟩⟩⟩

theorem loadModem_at :
    (ListenClients.reloadModem (.loadModemImg Load.LOAD_MODEM_IMG)).Meets (loopMonitor .internal)
      (fun _ m => m.1 = .done) (.reload, panic) :=
  ⟨trivial, fun _ => ⟨⟨rfl, rfl⟩, fun _ => ⟨trivial, fun _ => rfl⟩⟩⟩

theorem requestReset_at :
    (ListenClients.requestReset v).Meets (loopMonitor v) (fun _ m => m.1 = .done)
      (.openDiag, panic) := by
  apply Prog.Meets.call
  · rfl
  · intro _
    apply (waitReset_at 49).bind
    rintro _ ⟨pc, _⟩ ⟨waited, rfl⟩
    apply Prog.Meets.call
    · exact waited.imp_left fun here => ⟨0, here⟩
    · intro waiting
      have behind : afterTest pc waiting = if waiting then .reload else .done := by
        rcases waited with rfl | rfl <;> rfl
      change Prog.Meets _ _ _ (afterTest pc waiting, _)
      rw [behind]
      apply Prog.Meets.when
      · rintro rfl
        cases v with
        | external => exact rebootModem_at
        | internal => exact loadModem_at
      · rintro rfl
        rfl

theorem prepareReset_at :
    (ListenClients.prepareReset v).Meets (loopMonitor v) (fun _ m => m.1 = .done)
      (begins v, panic) := by
  cases v with
  | internal => exact requestReset_at
  | external =>
      apply Prog.Meets.call
      · rfl
      · intro read
        have cleared : (Prog.when read (ListenClients.call .clearMiniapPanic)).Meets
            (loopMonitor .external) (fun _ m => m = (.branch, false)) (.branch, read) := by
          cases read with
          | true => exact ⟨rfl, fun _ => rfl⟩
          | false => rfl
        apply cleared.bind
        rintro _ _ rfl
        apply Prog.Meets.call
        · exact ⟨rfl, rfl⟩
        · intro prop
          change Prog.Meets _ _ _ (if atoi prop == 0 then Pc.reload else Pc.openDiag, false)
          split
          · exact rebootModem_at
          · exact requestReset_at

/-- A call that `PrepareReset` does not see. -/
def Unseen (op : Op) : Prop :=
  ∀ v m, (callMonitor v).ok m op ∧ ∀ r, (callMonitor v).next m op r = m

theorem unseen_meets {α β : Type} {p : ResetProg α} {f : α → ResetProg β}
    {post : β → Pc × Bool → Prop} {m : Pc × Bool} (unseen : p.Calls Unseen)
    (rest : ∀ a, (f a).Meets (callMonitor v) post m) : (p >>= f).Meets (callMonitor v) post m := by
  have same : p.Meets (callMonitor v) (fun _ after => after = m) m := by
    apply Prog.Calls.meets_same
    apply unseen.mono
    intro op unseen
    exact unseen v m
  apply same.bind
  rintro a _ rfl
  exact rest a

theorem more_unseen {α : Type} : (more : ResetProg α).Calls Unseen :=
  ⟨fun _ _ => ⟨trivial, fun never => never.elim⟩, fun never => never.elim⟩

theorem unseen_select : Unseen .select := fun _ _ => ⟨trivial, fun _ => rfl⟩

theorem unseen_read (f : Fd) : Unseen (.read f) := fun _ _ => ⟨trivial, fun _ => rfl⟩

theorem selectLog_unseen (rounds : Nat) : (selectLog rounds).Calls Unseen := by
  induction rounds with
  | zero => exact more_unseen
  | succ rounds ih =>
      apply Prog.Calls.call unseen_select
      intro answer
      split
      · exact ih
      · trivial

theorem readEmpty_unseen (f : Fd) (rounds : Nat) : (readEmpty f rounds).Calls Unseen := by
  induction rounds with
  | zero => exact more_unseen
  | succ rounds ih =>
      apply Prog.Calls.call (unseen_read f)
      intro count
      split
      · exact ih
      · trivial

theorem modemCtrlReadEmptyLog_unseen (rounds : Nat) :
    (modemCtrlReadEmptyLog rounds).Calls Unseen := by
  induction rounds with
  | zero => exact more_unseen
  | succ rounds ih =>
      apply (selectLog_unseen rounds).bind
      intro answer
      cases answer with
      | error eintr => trivial
      | ready set =>
          dsimp only
          split
          · trivial
          · apply (readEmpty_unseen .logFd rounds).bind
            intro count
            split
            · trivial
            · exact ih

theorem openLog_unseen (logChan diagChan : Bytes) : (openLog logChan diagChan).Calls Unseen := by
  refine ⟨fun _ _ => ⟨trivial, fun _ => rfl⟩, fun opened => ?_⟩
  cases opened with
  | true => trivial
  | false => exact ⟨fun _ _ => ⟨trivial, fun _ => rfl⟩, fun _ => trivial⟩

theorem emptyLog_unseen (rounds : Nat) : (emptyLog rounds).Calls Unseen := by
  apply (modemCtrlReadEmptyLog_unseen rounds).bind
  intro _
  exact ⟨fun _ _ => ⟨trivial, fun _ => rfl⟩, fun _ => trivial⟩

theorem askReset_at (rounds : Nat) :
    (askReset rounds).Meets (callMonitor v) (fun _ m => m = (.wait 50, panic)) (.setFlag, panic) := by
  apply unseen_meets (readEmpty_unseen .diagFd rounds)
  intro _
  refine ⟨⟨rfl, rfl⟩, fun _ => ⟨rfl, fun _ => ⟨trivial, fun _ => rfl⟩⟩⟩

theorem prepareResetModem_at (rounds : Nat) :
    (prepareResetModem rounds).Meets (callMonitor v) (fun _ m => m = (.wait 50, panic))
      (.openDiag, panic) := by
  refine ⟨trivial, fun diagChan => ⟨trivial, fun logChan => ?_⟩⟩
  apply unseen_meets (openLog_unseen logChan diagChan)
  intro opened
  apply unseen_meets (Prog.Calls.when opened (emptyLog_unseen rounds))
  intro _
  apply Prog.Meets.call
  · rfl
  · intro opened
    cases opened with
    | true => exact askReset_at rounds
    | false => rfl

theorem expand_at {rounds : Nat} {m : Pc × Bool} {op : ListenClients.Op} (lets : loopOk v m op) :
    (expand rounds op).Meets (callMonitor v) (fun r after => after = loopNext m op r) m := by
  cases op with
  | prepareResetModem =>
      obtain ⟨pc, panic⟩ := m
      obtain rfl : pc = .openDiag := lets
      exact prepareResetModem_at rounds
  | _ => exact ⟨⟨nofun, lets⟩, fun _ => rfl⟩

theorem branch_at (rounds : Nat) :
    (branch v rounds).Meets (callMonitor v) (fun _ m => m.1 = .done) (begins v, panic) := by
  apply prepareReset_at.interp (R := Eq) rfl
  · rintro m _ op rfl lets
    exact (expand_at lets).mono fun _ _ same => same.symm
  · rintro _ m _ rfl ended
    exact ended

end

/-- The state of `PrepareReset`, for where the branch is there and the panic flag there. -/
def State.at (c : State) (pc : Pc) (panic : Bool) : PrepareReset.State where
  pc := pc
  waitModemReset := c.waitModemReset
  gModemState := c.gModemState
  miniapPanic := panic
  shared := c.shared
  todo := c.todo
  ack := c.ack
  commandSent := c.commandSent
  pipe := c.pipe
  reloaded := c.reloaded

/-- In the external variant the panic flag is cleared here before it is there. -/
structure Stands (v : Variant) (c : State) (s : PrepareReset.State) : Prop where
  same : s = c.at s.pc s.miniapPanic
  meets : c.rest.Meets (callMonitor v) (fun _ m => m.1 = .done) (s.pc, c.miniapPanic)
  panic : s.pc ≠ .branch → s.miniapPanic = c.miniapPanic

/-- The diag device can be opened, and the modem says 'Modem Reset' only as an answer. -/
def Fair : Input → Prop
  | .client answer => ∀ path, answer (.open_ .diagFd path) ≠ some false
  | .modem data _ ack => strstr (cstr data) MODEM_RESET = true → ack = true
  | .listener _ => True

/-- There are steps of `PrepareReset` to a state that stands for this one; if they are `asked`
    for it, they are acknowledged. -/
abbrev Goes (v : Variant) (asked : Prop) (c : State) (s : PrepareReset.State) : Prop :=
  Catches (PrepareReset.step v) (fun s i => asked → Acknowledged s i) (Stands v) c s

section

variable {v : Variant} {asked : Prop} {c c' : State} {s s' s'' : PrepareReset.State} {pc : Pc}
  {panic : Bool}

/-- Only where the diag device is opened something is asked of the thread. -/
theorem client_goes {a : PrepareReset.Answers}
    (taken : PrepareReset.step v s (.client a) = some s') (elsewhere : s.pc ≠ .openDiag)
    (later : Goes v asked c s') : Goes v asked c s :=
  catches_later taken (fun _ there => absurd there elsewhere) later

theorem lastTest_goes {rest : ResetProg Unit}
    (behind : rest.Meets (callMonitor v) (fun _ m => m.1 = .done)
      (if c.waitModemReset then .reload else .done, c.miniapPanic)) (same : panic = c.miniapPanic) :
    Goes v asked { c with rest := rest } (c.at .lastTest panic) := by
  have taken : PrepareReset.step v (c.at .lastTest panic) (.client {}) =
      some (c.at (if c.waitModemReset then .reload else .done) panic) := rfl
  apply client_goes taken Pc.noConfusion
  exact catches_unseen ⟨rfl, behind, fun _ => same⟩

/-- The tests of `wait_modem_reset`. -/
theorem waitModemReset_goes {rest : ResetProg Unit}
    (here : (∃ cnt, pc = .wait (cnt + 1)) ∨ pc = .lastTest)
    (behind : rest.Meets (callMonitor v) (fun _ m => m.1 = .done)
      (afterTest pc c.waitModemReset, c.miniapPanic)) (same : panic = c.miniapPanic) :
    Goes v asked { c with rest := rest } (c.at pc panic) := by
  rcases here with ⟨cnt, rfl⟩ | rfl
  · cases cnt with
    | zero =>
        -- the count is used up without a test
        have taken : PrepareReset.step v (c.at (.wait 1) panic) (.client {}) =
            some (c.at .lastTest panic) := rfl
        apply client_goes taken Pc.noConfusion
        exact lastTest_goes behind same
    | succ cnt =>
        have taken : PrepareReset.step v (c.at (.wait (cnt + 2)) panic) (.client {}) =
            some (c.at (afterTest (.wait (cnt + 2)) c.waitModemReset) panic) := by
          cases flag : c.waitModemReset <;>
            simp [PrepareReset.step, PrepareReset.clientStep, State.at, afterTest, flag]
        apply client_goes taken Pc.noConfusion
        exact catches_unseen ⟨rfl, behind, fun _ => same⟩
  · exact lastTest_goes behind same

/-- A call of the loop. -/
theorem loop_goes {op : ListenClients.Op} {rest : op.Res → ResetProg Unit} {r : op.Res}
    {answer : (op : Op) → Option op.Res} (panicSame : pc ≠ .branch → panic = c.miniapPanic)
    (lets : loopOk v (pc, c.miniapPanic) op)
    (behind : ∀ r, (rest r).Meets (callMonitor v) (fun _ m => m.1 = .done)
      (loopNext (pc, c.miniapPanic) op r))
    (answers : c.answered answer (.loop op) = some r) (asks : op ≠ .prepareResetModem) :
    Goes v asked { c.called (.loop op) r with rest := rest r } (c.at pc panic) := by
  cases op with
  | bMiniapPanic =>
      obtain rfl : c.miniapPanic = r := Option.some.inj answers
      exact catches_unseen ⟨rfl, behind _, panicSame⟩
  | clearMiniapPanic =>
      obtain rfl : pc = .branch := lets
      exact catches_unseen ⟨rfl, behind r, fun other => absurd rfl other⟩
  | propertyGet prop =>
      obtain ⟨rfl, here⟩ := lets
      obtain ⟨rfl, cleared⟩ := Prod.mk.inj here
      have taken : PrepareReset.step .external (c.at .branch panic)
          (.client { rebootModemOnly := r }) =
          some (c.at (if atoi r == 0 then .reload else .openDiag) false) := by
        cases whole : atoi r == 0 <;>
          simp [PrepareReset.step, PrepareReset.clientStep, State.at, bne, whole]
      apply client_goes taken Pc.noConfusion
      exact catches_unseen ⟨rfl, behind r, fun _ => cleared.symm⟩
  | prepareResetModem => exact absurd rfl asks
  | waitModemReset =>
      obtain rfl : c.waitModemReset = r := Option.some.inj answers
      have same : panic = c.miniapPanic := by
        apply panicSame
        rcases lets with ⟨cnt, rfl⟩ | rfl
        · exact Pc.noConfusion
        · exact Pc.noConfusion
      exact waitModemReset_goes lets (behind _) same
  | modemCtrlRebootExternalModem =>
      obtain ⟨rfl, rfl⟩ := lets
      have taken : PrepareReset.step .external (c.at .reload panic) (.client {}) =
          some ((c.called (.loop .modemCtrlRebootExternalModem) ()).at .done panic) := rfl
      apply client_goes taken Pc.noConfusion
      exact catches_unseen ⟨rfl, behind r, fun _ => panicSame Pc.noConfusion⟩
  | loadModemImg loadType =>
      obtain ⟨rfl, rfl⟩ := lets
      have taken : PrepareReset.step .internal (c.at .reload panic) (.client {}) =
          some ((c.called (.loop (.loadModemImg loadType)) ()).at .done panic) := rfl
      apply client_goes taken Pc.noConfusion
      exact catches_unseen ⟨rfl, behind r, fun _ => panicSame Pc.noConfusion⟩
  | modemCtrlStopWaitAliveTimer => exact catches_unseen ⟨rfl, behind r, panicSame⟩
  | modemCtrlStartWaitAliveTimer => exact catches_unseen ⟨rfl, behind r, panicSame⟩
  | _ => exact lets.elim

/-- Any call of the branch. -/
theorem call_goes {op : Op} {rest : op.Res → ResetProg Unit} {r : op.Res}
    {answer : (op : Op) → Option op.Res} (panicSame : pc ≠ .branch → panic = c.miniapPanic)
    (meets : (Prog.call op rest).Meets (callMonitor v) (fun _ m => m.1 = .done) (pc, c.miniapPanic))
    (answers : c.answered answer op = some r) (fair : asked → Fair (.client answer)) :
    Goes v asked { c.called op r with rest := rest r } (c.at pc panic) := by
  obtain ⟨lets, behind⟩ := meets
  cases op with
  | loop op => exact loop_goes panicSame lets.2 behind answers lets.1
  | open_ f path =>
      cases f with
      | logFd => exact catches_unseen ⟨rfl, behind r, panicSame⟩
      | diagFd =>
          obtain rfl : pc = .openDiag := lets
          have taken : PrepareReset.step v (c.at .openDiag panic) (.client { diagOpens := r }) =
              some (c.at (if r then .setFlag else .wait 50) panic) := rfl
          apply catches_one taken
          · intro really _ refused
            obtain rfl : r = false := refused
            exact absurd answers (fair really path)
          · exact ⟨rfl, behind r, fun _ => panicSame Pc.noConfusion⟩
  | setWaitResetFlag set =>
      obtain ⟨rfl, rfl⟩ := lets
      have taken : PrepareReset.step v (c.at .setFlag panic) (.client {}) =
          some ((c.called (.setWaitResetFlag true) ()).at .writeDiag panic) := rfl
      apply client_goes taken Pc.noConfusion
      exact catches_unseen ⟨rfl, behind r, fun _ => panicSame Pc.noConfusion⟩
  | write f data =>
      obtain rfl : pc = .writeDiag := lets
      have taken : PrepareReset.step v (c.at .writeDiag panic) (.client { wCnt := r }) =
          some ((c.called (.write f data) r).at (.wait 50) panic) := rfl
      apply client_goes taken Pc.noConfusion
      exact catches_unseen ⟨rfl, behind r, fun _ => panicSame Pc.noConfusion⟩
  | more => exact r.elim
  | _ => exact catches_unseen ⟨rfl, behind r, panicSame⟩

end

/-- What the listener has still to do clears the flag only as an answer. -/
def Answered (c : State) : Prop := ∀ set, .setWaitResetFlag set ∈ c.todo → c.ack = true

theorem called_frame (c : State) (op : Op) (r : op.Res) :
    (c.called op r).todo = c.todo ∧ (c.called op r).ack = c.ack := by
  unfold State.called
  split <;> exact ⟨rfl, rfl⟩

theorem listenerAct_frame (p : Connect.Props) (c : State) (act : ListenModem.Act) :
    (State.listenerAct p c act).rest = c.rest ∧
      (State.listenerAct p c act).miniapPanic = c.miniapPanic ∧
      (State.listenerAct p c act).todo = c.todo ∧ (State.listenerAct p c act).ack = c.ack := by
  cases act <;> exact ⟨rfl, rfl, rfl, rfl⟩

theorem listenerAct_at (p : Connect.Props) (c : State) (act : ListenModem.Act) (pc : Pc) (panic : Bool) :
    PrepareReset.listenerAct p (c.at pc panic) act = (State.listenerAct p c act).at pc panic := by
  cases act <;> rfl

/-- The external listener clears the flag only for a 'Modem Reset'. -/
theorem clears_of_externalMessage {set : Bool} {data : Bytes}
    (clears : .setWaitResetFlag set ∈ externalMessage data) : strstr (cstr data) MODEM_RESET = true := by
  simp only [externalMessage, List.mem_append] at clears
  rcases clears with (alive | reset) | assert
  · split at alive <;> simp at alive
  · split at reset
    · assumption
    · simp at reset
  · split at assert <;> simp at assert

/-- The listener's side of the relation. -/
def Related (v : Variant) (asked : Prop) (c : State) (s : PrepareReset.State) : Prop :=
  Stands v c s ∧ (asked → Answered c)

section

variable {v : Variant} {asked : Prop} {c c' : State} {s : PrepareReset.State}

theorem client_matched {answer : (op : Op) → Option op.Res} (related : Related v asked c s)
    (fair : asked → Fair (.client answer)) (taken : step v c (.client answer) = some c') :
    Catches (PrepareReset.step v) (fun s i => asked → Acknowledged s i) (Related v asked) c' s := by
  obtain ⟨⟨rest, c₁⟩, resumed, rfl⟩ := Option.map_eq_some_iff.mp taken
  obtain ⟨op, next, r, same, answers, rfl⟩ := Prog.resume_cases resumed
  obtain ⟨r, answered, both⟩ := Option.map_eq_some_iff.mp answers
  obtain ⟨rfl, rfl⟩ := Prod.mk.inj both
  obtain ⟨stands, answeredOnly⟩ := related
  have meets := stands.meets
  rw [same] at meets
  have goes : Goes v asked { c.called op r with rest := next r } (c.at s.pc s.miniapPanic) :=
    call_goes stands.panic meets answered fair
  rw [← stands.same] at goes
  apply goes.mono
  intro s' stands'
  refine ⟨stands', fun really set clears => ?_⟩
  obtain ⟨todo, ack⟩ := called_frame c op r
  change (c.called op r).ack = true
  rw [ack]
  apply answeredOnly really set
  rwa [← todo]

theorem modem_matched {data : Bytes} {isReset ack : Bool} (external : asked → v = .external)
    (related : Related v asked c s) (fair : asked → Fair (.modem data isReset ack))
    (taken : step v c (.modem data isReset ack) = some c') :
    Catches (PrepareReset.step v) (fun s i => asked → Acknowledged s i) (Related v asked) c' s := by
  obtain ⟨⟨same, meets, panic⟩, _⟩ := related
  rw [same]
  simp only [step] at taken
  split at taken
  · rename_i possible
    obtain rfl := Option.some.inj taken
    have coarse : PrepareReset.step v (c.at s.pc s.miniapPanic) (.modem data isReset ack) =
        some (State.at { c with todo := message v isReset data, ack := ack } s.pc s.miniapPanic) :=
      if_pos possible
    apply catches_one coarse
    · exact fun _ => trivial
    · refine ⟨⟨rfl, meets, panic⟩, fun really set clears => ?_⟩
      obtain rfl := external really
      exact fair really (clears_of_externalMessage clears)
  · cases taken

theorem listener_matched {p : Connect.Props} (related : Related v asked c s)
    (acked : asked → s.ack = true → s.todo.head? = some (.setWaitResetFlag false) → Acked s)
    (taken : step v c (.listener p) = some c') :
    Catches (PrepareReset.step v) (fun s i => asked → Acknowledged s i) (Related v asked) c' s := by
  obtain ⟨⟨same, meets, panic⟩, answeredOnly⟩ := related
  simp only [step] at taken
  split at taken
  · cases taken
  · rename_i act rest todo
    obtain rfl := Option.some.inj taken
    obtain ⟨rest', panic', todo', ack'⟩ := listenerAct_frame p { c with todo := rest } act
    have there : s.todo = act :: rest := by rw [same, ← todo]; rfl
    have coarse : PrepareReset.step v s (.listener p) =
        some ((State.listenerAct p { c with todo := rest } act).at s.pc s.miniapPanic) := by
      rw [← listenerAct_at]
      simp only [PrepareReset.step, there]
      rw [same]
      rfl
    apply catches_one coarse
    · intro really _ clears
      apply acked really _ clears
      rw [same]
      apply answeredOnly really false
      rw [todo]
      rw [there] at clears
      obtain rfl := Option.some.inj clears
      exact List.mem_cons_self
    · refine ⟨⟨rfl, ?_, ?_⟩, fun really set clears => ?_⟩
      · rw [rest', panic']
        exact meets
      · rw [panic']
        exact panic
      · rw [ack']
        apply answeredOnly really set
        rw [todo]
        rw [todo'] at clears
        exact List.mem_cons_of_mem act clears

/-- The rules put together. -/
theorem matched (external : asked → v = .external) (flag panic : Bool) (g : ModemState)
    (shared : Connect.Shared) :
    Matched (step v) (fun _ i => asked → Fair i) (PrepareReset.step v)
      (fun s i => asked → Acknowledged s i) (Related v asked)
      (PrepareReset.start flag g panic shared) := by
  intro c i c' s js related reached fair taken
  cases i with
  | client answer => exact client_matched related fair taken
  | modem data isReset ack => exact modem_matched external related fair taken
  | listener p =>
      apply listener_matched related _ taken
      intro really
      obtain rfl := external really
      exact (PrepareReset.external_answer_acked flag panic g shared js).last reached

/-- The internal branch begins one step later. -/
theorem begun (v : Variant) (asked : Prop) (rounds : Nat) (flag panic : Bool) (g : ModemState)
    (shared : Connect.Shared) :
    Catches (PrepareReset.step v) (fun s i => asked → Acknowledged s i) (Related v asked)
      (start v rounds flag g panic shared) (PrepareReset.start flag g panic shared) := by
  have related : Related v asked (start v rounds flag g panic shared)
      ((start v rounds flag g panic shared).at (begins v) panic) := by
    refine ⟨⟨rfl, branch_at rounds, fun _ => rfl⟩, fun _ _ clears => ?_⟩
    exact absurd clears List.not_mem_nil
  cases v with
  | external => exact catches_unseen related
  | internal =>
      have taken : PrepareReset.step .internal (PrepareReset.start flag g panic shared) (.client {}) =
          some ((start .internal rounds flag g panic shared).at .openDiag panic) := rfl
      apply catches_one taken _ related
      intro _ there
      cases there

theorem run_related (external : asked → v = .external) {rounds : Nat} {flag panic : Bool}
    {g : ModemState} {shared : Connect.Shared} {inputs : List Input}
    (reached : run (step v) (start v rounds flag g panic shared) inputs = some c)
    (fair : asked → ∀ i ∈ inputs, Fair i) :
    Catches (PrepareReset.step v) (fun s i => asked → Acknowledged s i) (Related v asked) c
      (PrepareReset.start flag g panic shared) := by
  obtain ⟨js, s, before, met, related⟩ := begun v asked rounds flag panic g shared
  apply run_matched (matched external flag panic g shared) before met related reached
  apply along_of_forall
  intro i member really
  exact fair really i member

end

/-- Every interleaving of the calls with the listener is one of `PrepareReset`, with the same
    variables in the end. -/
theorem branch_refines {v : Variant} {rounds : Nat} {flag panic : Bool} {g : ModemState}
    {shared : Connect.Shared} {inputs : List Input} {c : State}
    (reached : run (step v) (start v rounds flag g panic shared) inputs = some c) :
    ∃ js pc seen,
      run (PrepareReset.step v) (PrepareReset.start flag g panic shared) js = some (c.at pc seen) ∧
      ∀ u, c.rest = .ret u → pc = .done ∧ seen = c.miniapPanic := by
  have related : Catches (PrepareReset.step v) _ (Related v False) c _ :=
    run_related False.elim reached False.elim
  obtain ⟨js, s, reached', _, stands, _⟩ := related
  refine ⟨js, s.pc, s.miniapPanic, ?_, ?_⟩
  · rw [← stands.same]
    exact reached'
  · intro u ended
    have meets := stands.meets
    rw [ended] at meets
    have atEnd : s.pc = .done := meets
    refine ⟨atEnd, stands.panic ?_⟩
    rw [atEnd]
    exact Pc.noConfusion

/-- What is asked of the steps there keeps the reset on its way. -/
theorem pending_last {v : Variant} {flag panic : Bool} {g : ModemState} {shared : Connect.Shared}
    {js : List PrepareReset.Input} {s : PrepareReset.State}
    (reached : run (PrepareReset.step v) (PrepareReset.start flag g panic shared) js = some s)
    (along : Along (PrepareReset.step v) Acknowledged (PrepareReset.start flag g panic shared) js) :
    PrepareReset.Pending s := by
  have kept : Throughout (PrepareReset.step v)
      (fun s => PrepareReset.Pending s ∧ PrepareReset.Unsent s)
      (PrepareReset.start flag g panic shared) js := by
    apply throughout_of_along _ _ along
    · intro s i s' before acknowledged taken
      have pending := PrepareReset.pending_step before.1 before.2 taken
      exact ⟨pending.mpr acknowledged, PrepareReset.unsent_step before.2 taken⟩
    · constructor
      · exact ⟨fun waits => absurd waits Bool.false_ne_true, Pc.noConfusion⟩
      · exact ⟨fun _ => rfl, fun _ => ⟨rfl, List.not_mem_nil⟩⟩
  exact (kept.last reached).1

/-- In the external variant, if the diag device can be opened and the modem says 'Modem Reset'
    only as an answer: when the branch is over the modem was loaded again, or its answer is a
    control message. -/
theorem reset_made_or_requested {rounds : Nat} {flag panic : Bool} {g : ModemState}
    {shared : Connect.Shared} {inputs : List Input} {c : State}
    (reached : run (step .external) (start .external rounds flag g panic shared) inputs = some c)
    (fair : ∀ i ∈ inputs, Fair i) (ended : c.rest = .ret ()) :
    c.reloaded = true ∨ (.modemReset, true) ∈ c.pipe := by
  have related : Catches (PrepareReset.step .external) _ (Related .external True) c _ :=
    run_related (fun _ => rfl) reached fun _ => fair
  obtain ⟨js, s, reached', along, stands, _⟩ := related
  have acknowledged := (along_congr (fun _ _ => true_imp_iff) _ _).mp along
  have meets := stands.meets
  rw [ended] at meets
  have reset := (pending_last reached' acknowledged).atEnd meets
  rw [stands.same] at reset
  exact reset

/-- The modem alone is to be reset; both devices are there, and empty. -/
def answers : (op : Op) → Option op.Res
  | .loop (.propertyGet _) => some (bytes "1")
  | .diagDevProp => some (bytes "/dev/sdiag_nr")
  | .logDevProp => some (bytes "/dev/slog_nr")
  | .open_ _ _ => some true
  | .select => some (.ready ∅)
  | .read _ => some 0
  | .setWaitResetFlag _ => some ()
  | .write _ data => some data.length
  | .close _ => some ()
  | _ => none

/-- It answers as soon as it has got the command, and the branch need not wait. -/
def answeredRun : List Input :=
  List.replicate 12 (.client answers) ++ .modem MODEM_RESET false true ::
    List.replicate 3 (.listener {}) ++ List.replicate 2 (.client answers)

theorem answeredRun_fair : ∀ i ∈ answeredRun, Fair i := by
  intro i member
  simp only [answeredRun, List.mem_append, List.mem_cons, List.mem_replicate] at member
  rcases member with (⟨_, rfl⟩ | rfl | ⟨_, rfl⟩) | ⟨_, rfl⟩
  · exact fun path refused => Bool.noConfusion (Option.some.inj refused)
  · exact fun _ => rfl
  · trivial
  · exact fun path refused => Bool.noConfusion (Option.some.inj refused)

theorem answeredRun_reaches : ∃ c,
    run (step .external) (start .external 2 false .assert false {}) answeredRun = some c ∧
    c.rest = .ret () ∧ c.reloaded = false :=
  ⟨_, rfl, rfl, rfl⟩

theorem branch_refines_answered : ∃ c js pc seen,
    run (step .external) (start .external 2 false .assert false {}) answeredRun = some c ∧
    run (PrepareReset.step .external) (PrepareReset.start false .assert false {}) js =
      some (c.at pc seen) ∧ pc = .done ∧ seen = c.miniapPanic := by
  obtain ⟨c, reached, ended, _⟩ := answeredRun_reaches
  obtain ⟨js, pc, seen, reached', ends⟩ := branch_refines reached
  exact ⟨c, js, pc, seen, reached, reached', ends () ended⟩

theorem reset_made_or_requested_answered : ∃ c,
    run (step .external) (start .external 2 false .assert false {}) answeredRun = some c ∧
    c.reloaded = false ∧ (.modemReset, true) ∈ c.pipe := by
  obtain ⟨c, reached, ended, unmade⟩ := answeredRun_reaches
  refine ⟨c, reached, unmade, ?_⟩
  apply (reset_made_or_requested reached answeredRun_fair ended).resolve_left
  rw [unmade]
  exact Bool.false_ne_true

end ModemControl.ResetCalls
