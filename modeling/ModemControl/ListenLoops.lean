import ModemControl.Connect
import ModemControl.Foundation.Monitor
import ModemControl.ListenModem
import ModemControl.Load

/-! # The loops that wait for the clients and for the sp

The bodies of `modem_ctrl_listen_clients` and `modem_ctrl_listen_sp` as programs over the
functions they call and the shared variables they read. A path through a body is one
iteration of its loop.
-/

namespace ModemControl

open Foundation ListenModem

namespace ListenClients

/-- `MODEM_SAVE_DUMP_PROP` and `MODEM_REBOOT_MODEMONLY`, both "0" when they are not set. -/
inductive Property where
  | modemSaveDump
  | modemRebootModemonly
  deriving Repr, DecidableEq

inductive Op where
  /-- Nothing when the count is not positive. -/
  | modemReadDataFromClients
  | modemCtrlEnableWakeLock (bEnable : Bool)
  | modemCtrlSetModemState (state : ModemState)
  /-- `g_modem_state` is read and compared. -/
  | gModemStateIs (state : ModemState)
  | propertyGet (prop : Property)
  | modemLoadAssertModem
  | modemCtrlStopWaitAliveTimer
  | modemCtrlStartWaitAliveTimer
  | modemCtrlRebootExternalModem
  | loadModemImg (loadType : BitVec 32)
  /-- `b_miniap_panic` is read. -/
  | bMiniapPanic
  | clearMiniapPanic
  | prepareResetModem
  /-- `wait_modem_reset` is read. -/
  | waitModemReset
  deriving Repr, DecidableEq

abbrev Op.Res : Op → Type
  | .modemReadDataFromClients => Option Bytes
  | .propertyGet _ => Bytes
  | .gModemStateIs _ | .bMiniapPanic | .waitModemReset => Bool
  | .modemCtrlEnableWakeLock _ | .modemCtrlSetModemState _ | .modemLoadAssertModem |
    .modemCtrlStopWaitAliveTimer | .modemCtrlStartWaitAliveTimer | .modemCtrlRebootExternalModem |
    .loadModemImg _ | .clearMiniapPanic | .prepareResetModem => Unit

abbrev ClientProg (α : Type) : Type := Prog Op Op.Res α

/-- A path through the loop body. -/
abbrev Path : Type := List (Event Op Op.Res)

def call (op : Op) : ClientProg op.Res := .call op .ret

/-- Whether the state is none of these; each is compared with a read of its own. -/
def neither : List ModemState → ClientProg Bool
  | [] => pure true
  | state :: rest => do
      let same ← call (.gModemStateIs state)
      if same then pure false else neither rest

/-- The end of the wait for the modem's reset, with this count left. -/
def waitReset : Nat → ClientProg Unit
  | 0 => pure ()
  | cnt + 1 => do
      let waiting ← call .waitModemReset
      Prog.when waiting (waitReset cnt)

/-- The alive timer is stopped while the modem is loaded again, and then started. -/
def reloadModem (reload : Op) : ClientProg Unit := do
  call .modemCtrlStopWaitAliveTimer
  let _ ← call reload
  call .modemCtrlStartWaitAliveTimer

def modemReset : Variant → ClientProg Unit
  | .external => do
      call .modemCtrlStopWaitAliveTimer
      let prop ← call (.propertyGet .modemRebootModemonly)
      if atoi prop == 0 then call .modemCtrlRebootExternalModem
      else call (.loadModemImg Load.LOAD_MODEM_IMG)
      call .modemCtrlStartWaitAliveTimer
  | .internal => reloadModem (.loadModemImg Load.LOAD_MODEM_IMG)

/-- The modem is asked to reset, and forced to if it does not in 5 s. -/
def requestReset (v : Variant) : ClientProg Unit := do
  call .prepareResetModem
  waitReset 49
  let waiting ← call .waitModemReset
  Prog.when waiting do
    match v with
    | .external => reloadModem .modemCtrlRebootExternalModem
    | .internal => reloadModem (.loadModemImg Load.LOAD_MODEM_IMG)

def prepareReset : Variant → ClientProg Unit
  | .external => do
      let panic ← call .bMiniapPanic
      -- `reboot_modem_only = false` is set here too, and lost with the next assignment
      Prog.when panic (call .clearMiniapPanic)
      let prop ← call (.propertyGet .modemRebootModemonly)
      if atoi prop == 0 then reloadModem .modemCtrlRebootExternalModem
      else requestReset .external
  | .internal => requestReset .internal

def resetMessage (v : Variant) (text : Bytes) : ClientProg Unit :=
  if strstr text MODEM_RESET then modemReset v
  else Prog.when (strstr text PREPARE_RESET) (prepareReset v)

/-- A message, up to the release of the wake lock. -/
def handleMessage (v : Variant) (text : Bytes) : ClientProg Unit := do
  Prog.when (strstr text MODEM_BLOCK) do
    call (.modemCtrlSetModemState .block)
    let prop ← call (.propertyGet .modemSaveDump)
    Prog.when (atoi prop != 0) (call .modemLoadAssertModem)
  let skip ← neither [.block, .assert, .reset]
  -- `continue`, without the release
  if skip then pure ()
  else do
    resetMessage v text
    call (.modemCtrlEnableWakeLock false)

/-- The body of the loop. The buffer keeps what the read does not overwrite. -/
def body (v : Variant) (buf : Bytes) : ClientProg Bytes := do
  let read ← call .modemReadDataFromClients
  match read with
  | none => pure buf
  | some data =>
      let buf := data ++ buf.drop data.length
      call (.modemCtrlEnableWakeLock true)
      handleMessage v (cstr buf)
      pure buf

/-- The calls that a reset of the modem is made of. -/
def resets : List Op :=
  [.prepareResetModem, .waitModemReset, .modemCtrlStopWaitAliveTimer, .modemCtrlStartWaitAliveTimer,
    .modemCtrlRebootExternalModem, .loadModemImg Load.LOAD_MODEM_IMG,
    .propertyGet .modemRebootModemonly]

theorem waitReset_calls (cnt : Nat) : (waitReset cnt).Calls (· ∈ resets) := by
  induction cnt with
  | zero => trivial
  | succ cnt ih =>
      refine Prog.Calls.call (by simp [resets]) fun waiting => ?_
      exact ih.when waiting

theorem reloadModem_calls {reload : Op} (member : reload ∈ resets) :
    (reloadModem reload).Calls (· ∈ resets) :=
  ⟨by simp [resets], fun _ => ⟨member, fun _ => ⟨by simp [resets], fun _ => trivial⟩⟩⟩

theorem modemReset_calls (v : Variant) : (modemReset v).Calls (· ∈ resets) := by
  cases v with
  | external =>
      refine Prog.Calls.call (by simp [resets]) fun _ => ?_
      refine Prog.Calls.call (by simp [resets]) fun prop => ?_
      split
      · exact ⟨by simp [resets], fun _ => ⟨by simp [resets], fun _ => trivial⟩⟩
      · exact ⟨by simp [resets], fun _ => ⟨by simp [resets], fun _ => trivial⟩⟩
  | internal => exact reloadModem_calls (by simp [resets])

theorem requestReset_calls (v : Variant) : (requestReset v).Calls (· ∈ resets) := by
  refine Prog.Calls.call (by simp [resets]) fun _ => ?_
  apply (waitReset_calls 49).bind
  intro _
  refine Prog.Calls.call (by simp [resets]) fun waiting => ?_
  apply Prog.Calls.when
  cases v with
  | external => exact reloadModem_calls (by simp [resets])
  | internal => exact reloadModem_calls (by simp [resets])

end ListenClients

namespace ListenSp

/-- What `select` returns; an error is a transient one if it is EINTR or EAGAIN. -/
inductive Selected where
  | error (transient : Bool)
  | timeout
  | ready
  deriving Repr, DecidableEq

inductive Op where
  | select
  | modemCtrlEnableWakeLock (bEnable : Bool)
  /-- Nothing when the count is not positive. -/
  | read
  /-- `MODEM_RESET_PROP`, "0" when it is not set. -/
  | modemResetProp
  | modemCtrlRebootAllSystem
  /-- `modem_ctrl_get_boot_mode() != BOOT_MODE_CALIBRATION`. -/
  | notCalibration
  | modemWriteDataToClients (buf : Bytes)
  | close
  deriving Repr, DecidableEq

/-- The reboot of the system never comes back. -/
abbrev Op.Res : Op → Type
  | .select => Selected
  | .read => Option Bytes
  | .modemResetProp => Bytes
  | .modemCtrlRebootAllSystem => Empty
  | .notCalibration => Bool
  | .modemCtrlEnableWakeLock _ | .modemWriteDataToClients _ | .close => Unit

abbrev SpProg (α : Type) : Type := Prog Op Op.Res α

abbrev Path : Type := List (Event Op Op.Res)

def call (op : Op) : SpProg op.Res := .call op .ret

/-- What was read, up to the release of the wake lock; there is always another iteration. -/
def readMessage (data : Bytes) : SpProg Bool := do
  -- `continue`, without the release
  if !strstr (cstr data) Connect.P_ARM_MODEM_ASSERT then pure true
  else do
    let prop ← call .modemResetProp
    Prog.when (atoi prop != 0) do
      let never ← call .modemCtrlRebootAllSystem
      nomatch never
    let tell ← call .notCalibration
    Prog.when tell (call (.modemWriteDataToClients data))
    call (.modemCtrlEnableWakeLock false)
    pure true

/-- The body of the loop; whether there is another iteration. -/
def body : SpProg Bool := do
  match ← call .select with
  | .error true => pure true
  | .error false => do
      call .close
      pure false
  | .timeout => pure true
  | .ready => do
      call (.modemCtrlEnableWakeLock true)
      match ← call .read with
      | none => pure true
      | some data => readMessage data

end ListenSp

end ModemControl
