import Mathlib.Data.Finset.Card
import Mathlib.Data.List.FinRange
import ModemControl.Boot
import ModemControl.ClientState
import ModemControl.Foundation.Layers
import ModemControl.Foundation.Threads
import ModemControl.ListenLoops
import ModemControl.Uevent

/-! # The threads of modem_control

What each thread does, from the function that it is started with: the calls that leave the
function or touch what is shared, in their order. The main thread starts four threads; the
thread that waits for the modem starts the one that handles the control messages, the one
that accepts clients starts the one that reads them, and every uevent has its own.
-/

namespace ModemControl.Daemon

open Foundation Select ListenModem
open Load (Build)
open Uevent (BaseUEventInfo UEVENT_MSG_LEN parseEvent)
open Connect (ConState DumpState)

/-- The functions that threads are started with. -/
inductive Kind where
  | main
  | ueventMonitorThread
  | ueventHandleThread
  | modemSetupClientsConnect
  | modemCtrlReadThread
  | writeResetToModemCtrl
  | modemCtrlListenSp
  | modemCtrlListenModem
  | modemCtrlListenClients
  deriving Repr, DecidableEq

namespace UeventMonitor

inductive Op where
  /-- Whether there is a socket. -/
  | ueventOpenSocket
  /-- Whether `poll` reports POLLIN alone. -/
  | poll
  /-- The message, if its length is positive. -/
  | ueventKernelMulticastRecv
  | malloc
  /-- Whether there is a thread for the event. -/
  | modemEventProcess (info : BaseUEventInfo)
  deriving Repr, DecidableEq

abbrev Op.Res : Op → Type
  | .ueventKernelMulticastRecv => Option Bytes
  | .ueventOpenSocket | .poll | .malloc | .modemEventProcess _ => Bool

/-- Where the thread is between two rounds. -/
inductive Local where
  | start
  | polling
  /-- In the loop of `modem_event_device_fd`. -/
  | receiving
  deriving Repr, DecidableEq

abbrev MonitorProg (α : Type) : Type := Prog Op Op.Res α

def call (op : Op) : MonitorProg op.Res := .call op .ret

def round : Local → MonitorProg (Option Local)
  | .start => do
      let opened ← call .ueventOpenSocket
      pure (if opened then some .polling else none)
  | .polling => do
      let pollin ← call .poll
      pure (some (if pollin then .receiving else .polling))
  | .receiving => do
      match ← call .ueventKernelMulticastRecv with
      | none => pure (some .polling)
      | some msg =>
          -- overflow -- discard
          if UEVENT_MSG_LEN ≤ msg.length then pure (some .receiving)
          else do
            let info ← call .malloc
            Prog.when info do
              let _ ← call (.modemEventProcess (parseEvent (msg ++ [0, 0])))
            pure (some .receiving)

end UeventMonitor

namespace UeventHandle

/-- The handlers that are registered. -/
inductive Handler where
  | modemEventTriger
  | modemPcieEvent
  deriving Repr, DecidableEq

inductive Op where
  /-- The handler in this slot of `g_event_client`. -/
  | handler (handleIndex : Nat)
  /-- The text a pointer of the info points to. -/
  | text (pointer : Option Nat)
  | modemPcieEvent (info : BaseUEventInfo)
  | loadSplImg
  | modemCtrlSetMiniapPanic
  | modemCtrlGetModemState
  | modemCtrlSetModemState (state : ModemState)
  | modemWriteDataToClients (buf : Bytes)
  | modemRescanEpDevice
  deriving Repr, DecidableEq

abbrev Op.Res : Op → Type
  | .handler _ => Handler
  | .text _ => Bytes
  | .modemCtrlGetModemState => ModemState
  | .modemPcieEvent _ | .loadSplImg | .modemCtrlSetMiniapPanic | .modemCtrlSetModemState _ |
    .modemWriteDataToClients _ | .modemRescanEpDevice => Unit

abbrev HandleProg (α : Type) : Type := Prog Op Op.Res α

def call (op : Op) : HandleProg op.Res := .call op .ret

def MDM_WARM_RESET : Int := 2
def MDM_CP_CRASH : Int := 5

def MINIAP_PANIC : Bytes := bytes "Miniap Panic"

def modemEventPanicProcess (b : Build) : HandleProg Unit := do
  call .modemCtrlSetMiniapPanic
  -- modem block will cause minipa panic, so skip it
  let preState ← call .modemCtrlGetModemState
  call (.modemCtrlSetModemState .assert)
  Prog.when (preState != .block) do
    call (.modemWriteDataToClients ((MODEM_ASSERT ++ bytes ": " ++ MINIAP_PANIC).take 39))
  Prog.when b.pcieRescan (call .modemRescanEpDevice)

def modemEventTriger (b : Build) (info : BaseUEventInfo) : HandleProg Unit := do
  let action ← call (.text info.action)
  Prog.when (action == bytes "change") do
    if info.modemStat = MDM_WARM_RESET then call .loadSplImg
    else Prog.when (info.modemStat == MDM_CP_CRASH) (modemEventPanicProcess b)

def round (b : Build) (info : BaseUEventInfo) : HandleProg (Option BaseUEventInfo) := do
  match ← call (.handler info.handleIndex) with
  | .modemEventTriger => modemEventTriger b info
  | .modemPcieEvent => call (.modemPcieEvent info)
  pure none

end UeventHandle

namespace ClientConnect

open ClientState (Slot MAX_CLIENT_NUM)

inductive Op where
  /-- All slots are set to -1, and the two pipes are made. -/
  | initClients
  | socketLocalServer
  /-- `modem_ctrl_read_thread` is started. -/
  | createReadThread
  | accept
  | clientFd (index : Slot)
  | setClientFd (index : Slot) (n : Int)
  | notify
  /-- `s_modemState` is read and compared. -/
  | sModemStateIs (state : ConState)
  | writeClient (index : Slot) (text : Bytes)
  | closeClient (index : Slot)
  deriving DecidableEq

abbrev Op.Res : Op → Type
  | .accept => Option Int
  | .clientFd _ => Int
  | .socketLocalServer | .createReadThread | .sModemStateIs _ => Bool
  | .initClients | .setClientFd _ _ | .notify | .writeClient _ _ | .closeClient _ => Unit

inductive Local where
  | start
  | accepting
  deriving Repr, DecidableEq

abbrev ConnectProg (α : Type) : Type := Prog Op Op.Res α

def call (op : Op) : ConnectProg op.Res := .call op .ret

def stateTexts : List (ConState × Bytes) :=
  [(.offline, bytes "Modem State: Offline"), (.alive, bytes "Modem State: Alive"),
    (.assert, bytes "Modem State: Assert"), (.reset, bytes "Modem State: Reset")]

/-- The comparisons of `s_modemState`, one after the other. -/
def stateText : List (ConState × Bytes) → ConnectProg Bytes
  | [] => pure (bytes "Modem State: Unknown")
  | (state, text) :: rest => do
      let same ← call (.sModemStateIs state)
      if same then pure text else stateText rest

/-- The loop over the slots from one on. -/
def fill (n : Int) : List Slot → ConnectProg Unit
  | [] => pure ()
  | index :: rest => do
      let fd ← call (.clientFd index)
      if fd = -1 then
        call (.setClientFd index n)
        call .notify
        let text ← stateText stateTexts
        call (.writeClient index (frame text))
      else if index.val = MAX_CLIENT_NUM - 1 then
        -- the array is full
        call (.closeClient index)
        call (.setClientFd index n)
        call .notify
      else fill n rest

def round : Local → ConnectProg (Option Local)
  | .start => do
      call .initClients
      let opened ← call .socketLocalServer
      if !opened then pure none
      else do
        let _ ← call .createReadThread
        pure (some .accepting)
  | .accepting => do
      match ← call .accept with
      | none => pure (some .accepting)
      | some n =>
          fill n (List.finRange MAX_CLIENT_NUM)
          pure (some .accepting)

end ClientConnect

namespace ClientReader

open ClientState (Slot MAX_CLIENT_NUM)

inductive Op where
  | clientFd (i : Slot)
  /-- The notify pipe and these clients are waited for. -/
  | select (fds : List Int)
  | readNotifypipe
  | read (fd : Int)
  | closeClient (i : Slot)
  | dispatchModemBlocked
  | modemWriteDataToClients (buf : Bytes)
  | signalDumpCond
  /-- "Modem Reset" is written to the control pipe, if there is one. -/
  | writeModemReset
  deriving DecidableEq

/-- What `select` finds when its result is positive: whether it is the notify pipe, and which
    clients. -/
abbrev Op.Res : Op → Type
  | .clientFd _ => Int
  | .select _ => Option (Bool × Finset Int)
  | .read _ => Option Bytes
  | .dispatchModemBlocked => Bool
  | .readNotifypipe | .closeClient _ | .modemWriteDataToClients _ | .signalDumpCond |
    .writeModemReset => Unit

structure Local where
  state : DumpState := .unknown
  laterReset : Bool := false
  deriving Repr, DecidableEq

abbrev ReaderProg (α : Type) : Type := Prog Op Op.Res α

def call (op : Op) : ReaderProg op.Res := .call op .ret

def watched : List Slot → ReaderProg (List Int)
  | [] => pure []
  | i :: rest => do
      let fd ← call (.clientFd i)
      let fds ← watched rest
      pure (if fd ≠ -1 then fd :: fds else fds)

def message (l : Local) (data : Bytes) : ReaderProg Local := do
  let text := Connect.messageText data
  let state := Connect.dumpState l.state text
  if strstr text MODEM_BLOCK then
    let isWait ← call .dispatchModemBlocked
    pure ⟨state, isWait⟩
  else if strstr text Connect.AGDSP_ASSERT then
    call (.modemWriteDataToClients data)
    pure ⟨state, l.laterReset⟩
  else if state = .complete then
    call .signalDumpCond
    Prog.when l.laterReset (call .writeModemReset)
    pure ⟨state, false⟩
  else pure ⟨state, l.laterReset⟩

/-- The loop over the slots, with this many descriptors of the set still to be found. -/
def readClients (ready : Finset Int) : List Slot → Nat → Local → ReaderProg Local
  | [], _, l => pure l
  | i :: rest, num, l =>
      if num = 0 then pure l
      else do
        let nfd ← call (.clientFd i)
        if nfd ≠ -1 ∧ nfd ∈ ready then
          match ← call (.read nfd) with
          | none =>
              call (.closeClient i)
              readClients ready rest (num - 1) l
          | some data =>
              let l ← message l data
              readClients ready rest (num - 1) l
        else readClients ready rest num l

def round (l : Local) : ReaderProg (Option Local) := do
  let fds ← watched (List.finRange MAX_CLIENT_NUM)
  match ← call (.select fds) with
  | none => pure (some l)
  | some (notified, ready) =>
      let num := ready.card + if notified then 1 else 0
      Prog.when notified (call .readNotifypipe)
      if notified ∧ num = 1 then pure (some l)
      else do
        let l ← readClients ready (List.finRange MAX_CLIENT_NUM) num l
        pure (some l)

end ClientReader

namespace ResetWriter

inductive Op where
  /-- Until `s_dumpCond` is signalled, or for 5 minutes. -/
  | waitDumpCond
  /-- "Prepare Reset" is written to the control pipe. -/
  | writePrepareReset
  deriving Repr, DecidableEq

abbrev Op.Res : Op → Type := fun _ => Unit

def round : Prog Op Op.Res (Option Unit) := do
  .call .waitDumpCond .ret
  .call .writePrepareReset .ret
  pure none

end ResetWriter

namespace SpListener

/-- How the open of `PMIC_MONITOR_PATH` ends. -/
inductive Opened where
  | opened
  | noent
  | failed
  deriving Repr, DecidableEq

/-- "ro.debuggable" and "persist.vendor.modem.spwdt", which is "on" when it is not set. -/
inductive Property where
  | debuggable
  | spwdt
  deriving Repr, DecidableEq

inductive Op where
  | openPmicMonitor
  | propertyGet (prop : Property)
  | writeWatchdogOn
  | loop (op : ListenSp.Op)
  deriving DecidableEq

abbrev Op.Res : Op → Type
  | .openPmicMonitor => Opened
  | .propertyGet _ => Bytes
  | .writeWatchdogOn => Unit
  | .loop op => op.Res

inductive Local where
  | opening (tryCnt : Nat)
  | listening
  deriving Repr, DecidableEq

abbrev SpProg (α : Type) : Type := Prog Op Op.Res α

def call (op : Op) : SpProg op.Res := .call op .ret

def inLoop (op : ListenSp.Op) : SpProg (ListenSp.Op.Res op) := .call (.loop op) .ret

/-- In user mode, sp is told to open its watchdog. -/
def watchdogOn : SpProg Unit := do
  let debuggable ← call (.propertyGet .debuggable)
  Prog.when (atoi debuggable == 0) do
    let spwdt ← call (.propertyGet .spwdt)
    Prog.when (spwdt != bytes "off") (call .writeWatchdogOn)

def round : Local → SpProg (Option Local)
  | .opening tryCnt => do
      match ← call .openPmicMonitor with
      | .opened => do
          watchdogOn
          pure (some .listening)
      | .noent => pure none
      | .failed => pure (if 0 < tryCnt - 1 then some (.opening (tryCnt - 1)) else none)
  | .listening => do
      let again ← ListenSp.body.interp inLoop
      pure (if again then some .listening else none)

end SpListener

namespace ModemListener

/-- `ASSERT_DEV_PROP` and `PROC_DEV_PROP`. -/
inductive Property where
  | assertDev
  | procDev
  deriving Repr, DecidableEq

inductive Op where
  | propertyGet (prop : Property)
  /-- Whether the alive device has its own property, and the device. -/
  | modemCtrlGetAliveDev
  /-- `modem_ctrl_listen_clients` is started. -/
  | createListenClients
  | openDevice (path : Bytes)
  | select (rfds : Finset Device)
  /-- Nothing when the count is not positive. -/
  | read (fd : Device)
  /-- `MODEM_RESET_PROP` is set. -/
  | isReset
  | act (a : Act)
  deriving DecidableEq

abbrev Op.Res : Op → Type
  | .propertyGet _ => Bytes
  | .modemCtrlGetAliveDev => Bool × Bytes
  | .createListenClients | .openDevice _ | .isReset => Bool
  | .select _ => Answer Device
  | .read _ => Option Bytes
  | .act _ => Unit

inductive Local where
  | start
  /-- The assert device is opened until it is there. -/
  | opening (assertDev watchdogDev : Bytes) (aliveDev : Option Bytes)
  | listening (opened rfds : Finset Device)
  deriving DecidableEq

abbrev ListenerProg (α : Type) : Type := Prog Op Op.Res α

def call (op : Op) : ListenerProg op.Res := .call op .ret

def PROPERTY_VALUE_MAX : Nat := 92

def WDOG_BANK : Bytes := bytes "wdtirq"

def perform : List Act → ListenerProg Unit
  | [] => pure ()
  | a :: rest => do
      call (.act a)
      perform rest

/-- What is done with a descriptor that is ready. The property is asked for here whatever
    the message is; it only matters for one that tells of a hang. -/
def readDevice (v : Variant) (fd : Device) : ListenerProg Unit := do
  call (.act (.wakeLock true))
  match ← call (.read fd) with
  | none => call (.act (.wakeLock false))
  | some data =>
      let isReset ← call .isReset
      perform (message v isReset data)
      call (.act (.wakeLock false))

/-- The control messages are listened to before any device is opened. -/
def listenClients (assertDev procDev : Bytes) : ListenerProg (Option Local) := do
  let (hasAliveProp, aliveDev) ← call .modemCtrlGetAliveDev
  let _ ← call .createListenClients
  let watchdogDev := (procDev ++ WDOG_BANK).take (PROPERTY_VALUE_MAX - 1)
  pure (some (.opening assertDev watchdogDev
    (if hasAliveProp && aliveDev != assertDev then some aliveDev else none)))

def openAlive (v : Variant) (watchdog : Bool) : Option Bytes → ListenerProg (Option Local)
  | none => pure (some (.listening (openedFds v watchdog false) (openedFds v watchdog false)))
  | some aliveDev => do
      let alive ← call (.openDevice aliveDev)
      pure (some (.listening (openedFds v watchdog alive) (openedFds v watchdog alive)))

/-- The descriptor that is picked of those that are ready, if there is one. -/
def readPicked (v : Variant) (opened rfds : Finset Device) :
    Option Device → ListenerProg (Option Local)
  | none => pure (some (.listening opened rfds))
  | some fd => do
      readDevice v fd
      pure (some (.listening opened rfds))

def round (v : Variant) : Local → ListenerProg (Option Local)
  | .start => do
      let assertDev ← call (.propertyGet .assertDev)
      match v with
      | .external => listenClients assertDev []
      | .internal => do
          let procDev ← call (.propertyGet .procDev)
          listenClients assertDev procDev
  | .opening assertDev watchdogDev aliveDev => do
      let opened ← call (.openDevice assertDev)
      if !opened then pure (some (.opening assertDev watchdogDev aliveDev))
      else
        match v with
        | .external => openAlive .external false aliveDev
        | .internal => do
            let watchdog ← call (.openDevice watchdogDev)
            openAlive .internal watchdog aliveDev
  | .listening opened rfds => do
      let answer ← call (.select rfds)
      let rfds := answer.leaves rfds
      match answer with
      | .error _ => pure (some (.listening opened rfds))
      | .ready set => readPicked v opened rfds (if set = ∅ then none else pick opened rfds)

end ModemListener

abbrev Op : Kind → Type
  | .main => Boot.Op
  | .ueventMonitorThread => UeventMonitor.Op
  | .ueventHandleThread => UeventHandle.Op
  | .modemSetupClientsConnect => ClientConnect.Op
  | .modemCtrlReadThread => ClientReader.Op
  | .writeResetToModemCtrl => ResetWriter.Op
  | .modemCtrlListenSp => SpListener.Op
  | .modemCtrlListenModem => ModemListener.Op
  | .modemCtrlListenClients => ListenClients.Op

abbrev Res : (k : Kind) → Op k → Type
  | .main => Boot.Op.Res
  | .ueventMonitorThread => UeventMonitor.Op.Res
  | .ueventHandleThread => UeventHandle.Op.Res
  | .modemSetupClientsConnect => ClientConnect.Op.Res
  | .modemCtrlReadThread => ClientReader.Op.Res
  | .writeResetToModemCtrl => ResetWriter.Op.Res
  | .modemCtrlListenSp => SpListener.Op.Res
  | .modemCtrlListenModem => ModemListener.Op.Res
  | .modemCtrlListenClients => ListenClients.Op.Res

abbrev Local : Kind → Type
  | .main => Unit
  | .ueventMonitorThread => UeventMonitor.Local
  | .ueventHandleThread => BaseUEventInfo
  | .modemSetupClientsConnect => ClientConnect.Local
  | .modemCtrlReadThread => ClientReader.Local
  | .writeResetToModemCtrl => Unit
  | .modemCtrlListenSp => SpListener.Local
  | .modemCtrlListenModem => ModemListener.Local
  -- the buffer
  | .modemCtrlListenClients => Bytes

def round (v : Variant) (b : Build) : (k : Kind) → Local k → Prog (Op k) (Res k) (Option (Local k))
  | .main, _ => do
      Boot.main v b
      pure none
  | .ueventMonitorThread, l => UeventMonitor.round l
  | .ueventHandleThread, info => UeventHandle.round b info
  | .modemSetupClientsConnect, l => ClientConnect.round l
  | .modemCtrlReadThread, l => ClientReader.round l
  | .writeResetToModemCtrl, _ => ResetWriter.round
  | .modemCtrlListenSp, l => SpListener.round l
  | .modemCtrlListenModem, l => ModemListener.round v l
  | .modemCtrlListenClients, buf => do
      let buf ← ListenClients.body v buf
      pure (some buf)

/-- A thread with what it is started with. -/
abbrev Task : Type := (k : Kind) × Local k

def started : Boot.Started → Task
  | .ueventMonitorThread => ⟨.ueventMonitorThread, .start⟩
  | .modemSetupClientsConnect => ⟨.modemSetupClientsConnect, .start⟩
  | .modemCtrlListenSp => ⟨.modemCtrlListenSp, .opening 60⟩
  | .modemCtrlListenModem => ⟨.modemCtrlListenModem, .start⟩

/-- A broadcast of "Modem Assert" may start one. -/
def resetWriter : Task := ⟨.writeResetToModemCtrl, ()⟩

def starts : (k : Kind) → (op : Op k) → Res k op → Option Task
  | .main, .pthreadCreate thread, true => some (started thread)
  | .ueventMonitorThread, .modemEventProcess info, true => some ⟨.ueventHandleThread, info⟩
  | .ueventHandleThread, .modemWriteDataToClients _, _ => some resetWriter
  | .modemSetupClientsConnect, .createReadThread, true => some ⟨.modemCtrlReadThread, {}⟩
  | .modemCtrlReadThread, .modemWriteDataToClients _, _ => some resetWriter
  | .modemCtrlListenSp, .loop (.modemWriteDataToClients _), _ => some resetWriter
  | .modemCtrlListenModem, .createListenClients, true =>
      some ⟨.modemCtrlListenClients, .replicate MAX_ASSERT_INFO_LEN 0⟩
  | .modemCtrlListenModem, .act (.toClients _), _ => some resetWriter
  | _, _, _ => none

def fleet (v : Variant) (b : Build) : Fleet Kind where
  Op := Op
  Res := Res
  Local := Local
  round := round v b
  starts := starts

end ModemControl.Daemon
