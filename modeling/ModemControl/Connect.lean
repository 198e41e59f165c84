import Mathlib.Tactic.SplitIfs
import ModemControl.Control

/-! # The client side: modem_connect.c

What modem_control does with a message before it reaches the clients, and what the
reader thread does with a message that comes from them. Each function is given as
the new state with the list of what it does to the outside, in order.
-/

namespace ModemControl.Connect

open Foundation

/-- `MODEMCON_STATE_*`, the modem state that new clients are told. -/
inductive ConState where
  | offline
  | alive
  | assert
  | reset
  deriving Repr, DecidableEq

inductive DumpState where
  /-- The initial -1. -/
  | unknown
  | begin
  | going
  | complete
  deriving Repr, DecidableEq

def DUMP_BEGIN_TEXT : Bytes := bytes "SLOGMODEM DUMP BEGIN"
def DUMP_ONGOING_TEXT : Bytes := bytes "SLOGMODEM DUMP ONGOING"
def DUMP_COMPLETE_TEXT : Bytes := bytes "SLOGMODEM DUMP COMPLETE"
def AGDSP_ASSERT : Bytes := bytes "AGDSP Assert"
def P_ARM_MODEM_ASSERT : Bytes := bytes "P-ARM Modem Assert"

def BUFFER_SIZE : Nat := 128

/-- The functions that write to `s_fdModemCtrlWrite`. -/
inductive Writer where
  | dispatchModemBlocked
  | modemCtrlProcessMessage
  | writeResetToModemCtrl
  | modemCtrlReadThread
  deriving Repr, DecidableEq

def Writer.writes : Writer → List CtrlMsg
  | .dispatchModemBlocked => [.modemBlocked, .modemReset]
  | .modemCtrlProcessMessage => [.prepareReset, .modemReset]
  | .writeResetToModemCtrl => [.prepareReset]
  | .modemCtrlReadThread => [.modemReset]

inductive Act where
  | controlNvitemd (isStart : Bool)
  | readIMEI
  /-- A detached thread runs `write_reset_to_modem_ctrl`. -/
  | startResetThread
  | writeCtrl (w : Writer) (m : CtrlMsg)
  | toClients (msg : Bytes)
  /-- "load_modem_img" is echoed to wake_lock or wake_unlock. -/
  | wakeLock (on : Bool)
  | signalDumpCond
  deriving Repr, DecidableEq

/-- The properties the functions below read, as the texts `property_get` gives. -/
structure Props where
  modemReset : Bytes := bytes "0"
  saveDump : Bytes := bytes "0"
  wifionly : Bytes := bytes "false"
  deriving Repr, DecidableEq

def Props.isReset (p : Props) : Bool := atoi p.modemReset != 0
def Props.isDump (p : Props) : Bool := atoi p.saveDump != 0

structure Shared where
  modemState : ConState := .offline
  needResetModem : Bool := true
  deriving Repr, DecidableEq

def modemCtrlProcessMessage (p : Props) (s : Shared) (buf : Bytes) : Shared × List Act :=
  let message := cstr buf
  if strstr message MODEM_ALIVE then
    ({ s with modemState := .alive },
      .controlNvitemd true :: if p.wifionly = bytes "true" then [.readIMEI] else [])
  else if strstr message MODEM_ASSERT then
    let needResetModem := if strstr message P_ARM_MODEM_ASSERT then false else s.needResetModem
    if needResetModem then
      ({ s with modemState := .assert },
        .controlNvitemd false ::
          -- if it need save dump, it will reset when the dump is complete or on timeout
          if p.isReset then
            if p.isDump then [.startResetThread]
            else [.writeCtrl .modemCtrlProcessMessage .prepareReset]
          else [])
    else
      ({ s with needResetModem := true }, [])
  else if strstr message MODEM_RESET then
    (s, [.controlNvitemd false, .writeCtrl .modemCtrlProcessMessage .modemReset])
  else
    (s, [])

def modemWriteDataToClients (p : Props) (s : Shared) (buf : Bytes) : Shared × List Act :=
  let (s', acts) := modemCtrlProcessMessage p s buf
  (s', acts ++ [.toClients buf])

/-- The result is `isWait`. The probe of the loop device changes nothing here. -/
def dispatchModemBlocked (p : Props) (s : Shared) : Shared × List Act × Bool :=
  let first : List Act := [.writeCtrl .dispatchModemBlocked .modemBlocked]
  if s.modemState ≠ .alive then
    (s, first, false)
  else
    let (s', told) := modemWriteDataToClients p { s with modemState := .assert } (frame MODEM_BLOCK)
    let isWait := p.isReset && p.isDump
    let now : List Act :=
      if p.isReset && !p.isDump then [.writeCtrl .dispatchModemBlocked .modemReset] else []
    (s', first ++ .wakeLock true :: told ++ .controlNvitemd false :: now ++ [.wakeLock false],
      isWait)

/-- The reader thread's own variables beside the shared ones. -/
structure Reader where
  shared : Shared := {}
  state : DumpState := .unknown
  laterReset : Bool := false
  deriving Repr, DecidableEq

/-- `controlinfo` after `memset` and the read of `data`. -/
def controlinfo (data : Bytes) : Bytes :=
  data ++ List.replicate (BUFFER_SIZE - data.length) 0

def messageText (data : Bytes) : Bytes := cstr (controlinfo data)

def dumpState (old : DumpState) (text : Bytes) : DumpState :=
  if strstr text DUMP_BEGIN_TEXT then .begin
  else if strstr text DUMP_ONGOING_TEXT then .going
  else if strstr text DUMP_COMPLETE_TEXT then .complete
  else old

/-- One message that `modem_ctrl_read_thread` has read from a client. -/
def readThreadMessage (p : Props) (r : Reader) (data : Bytes) : Reader × List Act :=
  let text := messageText data
  let r := { r with state := dumpState r.state text }
  if strstr text MODEM_BLOCK then
    let (shared, acts, isWait) := dispatchModemBlocked p r.shared
    ({ r with shared := shared, laterReset := isWait }, acts)
  else if strstr text AGDSP_ASSERT then
    let (shared, acts) := modemWriteDataToClients p r.shared data
    ({ r with shared := shared }, acts)
  else if r.state = .complete then
    ({ r with laterReset := false },
      .signalDumpCond ::
        -- modem block, after dump complete, reset modem.
        if r.laterReset then [.writeCtrl .modemCtrlReadThread .modemReset] else [])
  else
    (r, [])

/-- What a call may do when only `writers` run in it. -/
def Act.Allowed (writers : List Writer) : Act → Prop
  | .writeCtrl w m => w ∈ writers ∧ m ∈ w.writes
  | .signalDumpCond => .modemCtrlReadThread ∈ writers
  | _ => True

theorem Act.Allowed.mono {few many : List Writer} (more : few ⊆ many) {a : Act}
    (h : a.Allowed few) : a.Allowed many := by
  cases a with
  | writeCtrl w m => exact ⟨more h.1, h.2⟩
  | signalDumpCond => exact more h
  | _ => trivial

theorem processMessage_allowed (p : Props) (s : Shared) (buf : Bytes) :
    ∀ a ∈ (modemCtrlProcessMessage p s buf).2,
      a.Allowed [.modemCtrlProcessMessage] := by
  unfold modemCtrlProcessMessage
  dsimp only
  split_ifs <;> simp [Act.Allowed, Writer.writes]

theorem writeDataToClients_allowed (p : Props) (s : Shared) (buf : Bytes) :
    ∀ a ∈ (modemWriteDataToClients p s buf).2, a.Allowed [.modemCtrlProcessMessage] := by
  intro a member
  simp only [modemWriteDataToClients, List.mem_append, List.mem_singleton] at member
  cases member with
  | inl processed => exact processMessage_allowed p s buf a processed
  | inr told => subst told; trivial

theorem dispatch_allowed (p : Props) (s : Shared) :
    ∀ a ∈ (dispatchModemBlocked p s).2.1,
      a.Allowed [.dispatchModemBlocked, .modemCtrlProcessMessage] := by
  unfold dispatchModemBlocked
  split
  · simp [Act.Allowed, Writer.writes]
  · intro a member
    simp only [List.mem_append, List.mem_cons, List.not_mem_nil, or_false] at member
    rcases member with ((rfl | rfl | told) | rfl | now) | rfl
    · simp [Act.Allowed, Writer.writes]
    · trivial
    · exact (writeDataToClients_allowed p _ _ a told).mono (by simp)
    · trivial
    · split at now
      · obtain rfl := List.mem_singleton.mp now
        simp [Act.Allowed, Writer.writes]
      · simp at now
    · trivial

end ModemControl.Connect
