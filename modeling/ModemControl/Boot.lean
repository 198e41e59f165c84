import ModemControl.ListenModem
import ModemControl.Load
import ModemControl.ParseCmdline

/-! # The main thread: main.c

The main thread finds out in which mode the phone is started and whether there is a modem,
starts the threads that wait for uevents and for clients, and boots the modem. It loads the
images only when the kernel command line says that the modem was shut down, and neither the
sp nor the modem runs already.
-/

namespace ModemControl.Boot

open Foundation ListenModem ParseCmdline
open Load (Build)

inductive BootMode where
  | normal
  | calibration
  | factory
  | recovery
  deriving Repr, DecidableEq

inductive ModemType where
  | noModem
  | td
  | w
  | lte
  | nr
  deriving Repr, DecidableEq

/-- `MODEM_RADIO_TYPE` and `TTY_DEV_PROP`; both are "not_find" when they are not set. -/
inductive Property where
  | modemRadioType
  | ttyDev
  deriving Repr, DecidableEq

/-- The threads that the main thread starts. -/
inductive Started where
  | ueventMonitorThread
  | modemSetupClientsConnect
  | modemCtrlListenSp
  | modemCtrlListenModem
  deriving Repr, DecidableEq

inductive Op where
  /-- /proc/cmdline is opened and read. -/
  | readCmdline
  /-- `g_boot_mode` -/
  | setBootMode (mode : BootMode)
  | switchUserToSystem
  | propertyGet (prop : Property)
  /-- `g_modem_type` -/
  | setModemType (type : ModemType)
  | modemEventInit
  | modemPcieInit
  /-- Whether `pthread_create` returns 0. -/
  | pthreadCreate (thread : Started)
  | initModemImgInfo
  /-- Whether a device can be opened; it is closed at once. -/
  | openDevice (path : Bytes)
  | loadModemImg (loadType : BitVec 32)
  /-- `modem_ctrl_alive_timeout` becomes the handler of SIGALRM. -/
  | signalAlarm
  | modemCtrlStartWaitAliveTimer
  deriving Repr, DecidableEq

abbrev Op.Res : Op → Type
  | .readCmdline => Cmdline
  | .propertyGet _ => Bytes
  | .pthreadCreate _ | .openDevice _ => Bool
  | .initModemImgInfo => Int
  | .setBootMode _ | .switchUserToSystem | .setModemType _ | .modemEventInit | .modemPcieInit |
    .loadModemImg _ | .signalAlarm | .modemCtrlStartWaitAliveTimer => Unit

abbrev BootProg (α : Type) : Type := Prog Op Op.Res α

def readCmdline : BootProg Cmdline := .call .readCmdline .ret

def setBootMode (mode : BootMode) : BootProg Unit := .call (.setBootMode mode) .ret

def switchUserToSystem : BootProg Unit := .call .switchUserToSystem .ret

def propertyGet (prop : Property) : BootProg Bytes := .call (.propertyGet prop) .ret

def setModemType (type : ModemType) : BootProg Unit := .call (.setModemType type) .ret

def modemEventInit : BootProg Unit := .call .modemEventInit .ret

def modemPcieInit : BootProg Unit := .call .modemPcieInit .ret

def pthreadCreate (thread : Started) : BootProg Bool := .call (.pthreadCreate thread) .ret

def initModemImgInfo : BootProg Int := .call .initModemImgInfo .ret

def openDevice (path : Bytes) : BootProg Bool := .call (.openDevice path) .ret

def loadModemImg (loadType : BitVec 32) : BootProg Unit := .call (.loadModemImg loadType) .ret

def signalAlarm : BootProg Unit := .call .signalAlarm .ret

def modemCtrlStartWaitAliveTimer : BootProg Unit := .call .modemCtrlStartWaitAliveTimer .ret

def NOT_FIND : Bytes := bytes "not_find"

def PMIC_MONITOR_PATH : Bytes := bytes "/dev/sctl_pm"

def LOAD_ALL_IMG : BitVec 32 := 0x1F

/-- The tests of `modem_ctrl_init_boot_mode`; a later one overrules those before it. -/
def modeOf (cmdline : Bytes) : BootMode :=
  let mode := .normal
  let mode := if strstr cmdline (bytes "calibration=") ||
    strstr cmdline (bytes "androidboot.mode=cali") then .calibration else mode
  let mode := if strstr cmdline (bytes "=factorytest") then .factory else mode
  if strstr cmdline (bytes "androidboot.mode=recovery") then .recovery else mode

def initialMode (file : Cmdline) : BootMode :=
  if file.opens then modeOf (cstr ((file.content.getD []).take (CPCMDLINE_SIZE - 1)))
  else .normal

def modemCtrlInitBootMode : BootProg BootMode := do
  let file ← readCmdline
  let mode := initialMode file
  setBootMode mode
  pure mode

def typeOf (modemType : Bytes) : ModemType :=
  if modemType = bytes "t" then .td
  else if modemType = bytes "w" then .w
  else if modemType = bytes "l" then .lte
  else if modemType = bytes "nr" then .nr
  else .noModem

def modemCtrlIntModemType : BootProg Int := do
  let modemType ← propertyGet .modemRadioType
  if modemType = NOT_FIND then pure (-1)
  else
    setModemType (typeOf modemType)
    pure 0

/-- `tty_dev` holds 255 characters. -/
def ttyDevice (prop : Bytes) : Bytes := (prop ++ bytes "0").take 255

def modemHasBeenBoot : BootProg Bool := do
  -- first check dev/sctl_pm
  let pm ← openDevice PMIC_MONITOR_PATH
  if pm then pure true
  else
    -- some platforms are without dev/sctl_pm
    let prop ← propertyGet .ttyDev
    openDevice (ttyDevice prop)

def modemCtrlBootModem (b : Build) : BootProg Int := do
  let failed ← initModemImgInfo
  if failed ≠ 0 then pure (-1)
  else do
    let modemIsAlive ← modemHasBeenBoot
    let file ← readCmdline
    Prog.when (modemCtrlParseCmdline file (some (bytes "shutdown")) != 0 && !modemIsAlive) do
      loadModemImg LOAD_ALL_IMG
    let _ ← pthreadCreate .modemCtrlListenSp
    Prog.when (!b.removeSprdModem) do
      let _ ← pthreadCreate .modemCtrlListenModem
      signalAlarm
      Prog.when (!modemIsAlive) modemCtrlStartWaitAliveTimer
    pure 0

/-- The uevents of an external modem; whether the main thread goes on. -/
def watchUevents (v : Variant) (b : Build) : BootProg Bool :=
  match v with
  | .internal => pure true
  | .external => do
      modemEventInit
      Prog.when b.pcieRescan modemPcieInit
      pthreadCreate .ueventMonitorThread

/-- Up to `dead_loop`. -/
def main (v : Variant) (b : Build) : BootProg Unit := do
  let mode ← modemCtrlInitBootMode
  if mode = .recovery then pure ()
  else do
    Prog.when (mode == .normal) switchUserToSystem
    let failed ← modemCtrlIntModemType
    if failed ≠ 0 then pure ()
    else do
      let watched ← watchUevents v b
      if !watched then pure ()
      else do
        let _ ← pthreadCreate .modemSetupClientsConnect
        let _ ← modemCtrlBootModem b
        pure ()

structure World where
  /-- What each read of /proc/cmdline gives. -/
  cmdline : Nat → Cmdline
  property : Property → Bytes
  opens : Bytes → Bool
  created : Started → Bool
  imgInfo : Int

/-- The state counts the reads of /proc/cmdline. -/
def World.answer (w : World) (reads : Nat) : (op : Op) → op.Res × Nat
  | .readCmdline => (w.cmdline reads, reads + 1)
  | .propertyGet prop => (w.property prop, reads)
  | .pthreadCreate thread => (w.created thread, reads)
  | .openDevice path => (w.opens path, reads)
  | .initModemImgInfo => (w.imgInfo, reads)
  | .setBootMode _ => ((), reads)
  | .switchUserToSystem => ((), reads)
  | .setModemType _ => ((), reads)
  | .modemEventInit => ((), reads)
  | .modemPcieInit => ((), reads)
  | .loadModemImg _ => ((), reads)
  | .signalAlarm => ((), reads)
  | .modemCtrlStartWaitAliveTimer => ((), reads)

/-- The calls of the main thread, up to its endless sleep. -/
def calls (v : Variant) (b : Build) (w : World) : List Op :=
  ((main v b).run w.answer 0).1.map Event.op

/-- It loads, starts a thread, or waits for the modem. -/
def deed : Op → Bool
  | .loadModemImg _ | .pthreadCreate _ | .signalAlarm | .modemCtrlStartWaitAliveTimer => true
  | _ => false

/-- The sp or the modem runs already. -/
def World.alive (w : World) : Bool :=
  w.opens PMIC_MONITOR_PATH || w.opens (ttyDevice (w.property .ttyDev))

def World.watched (w : World) (v : Variant) : Bool :=
  v == .internal || w.created .ueventMonitorThread

def World.shutDown (w : World) : Bool :=
  modemCtrlParseCmdline (w.cmdline 1) (some (bytes "shutdown")) != 0

/-- What it does once the images are known, with the modem shut down or not. -/
def World.bootDeeds (w : World) (b : Build) (shutDown : Bool) : List Op :=
  (if shutDown && !w.alive then [.loadModemImg LOAD_ALL_IMG] else []) ++
  [.pthreadCreate .modemCtrlListenSp] ++
  (if b.removeSprdModem then []
    else [.pthreadCreate .modemCtrlListenModem, .signalAlarm] ++
      if w.alive then [] else [.modemCtrlStartWaitAliveTimer])

/-- All that the main thread does. -/
def World.deeds (w : World) (v : Variant) (b : Build) (shutDown : Bool) : List Op :=
  if initialMode (w.cmdline 0) = .recovery ∨ w.property .modemRadioType = NOT_FIND then []
  else (if v = .external then [.pthreadCreate .ueventMonitorThread] else []) ++
    if w.watched v then
      .pthreadCreate .modemSetupClientsConnect :: if w.imgInfo = 0 then w.bootDeeds b shutDown else []
    else []

/-- The deeds of a part, the reads of /proc/cmdline behind it, and its value. -/
def part {α : Type} (w : World) (reads : Nat) (p : BootProg α) : List Op × Nat × α :=
  let out := p.run w.answer reads
  ((out.1.map Event.op).filter deed, out.2)

section Parts

variable {α β : Type} {w : World} {reads : Nat}

theorem part_bind (p : BootProg α) (f : α → BootProg β) :
    part w reads (p >>= f) =
      ((part w reads p).1 ++ (part w (part w reads p).2.1 (f (part w reads p).2.2)).1,
        (part w (part w reads p).2.1 (f (part w reads p).2.2)).2) := by
  simp only [part, Prog.run_bind, List.map_append, List.filter_append]

@[simp] theorem part_ret (a : α) : part w reads (.ret a : BootProg α) = ([], reads, a) := rfl

@[simp] theorem part_readCmdline : part w reads readCmdline = ([], reads + 1, w.cmdline reads) := rfl

@[simp] theorem part_setBootMode (mode : BootMode) :
    part w reads (setBootMode mode) = ([], reads, ()) := rfl

@[simp] theorem part_switchUserToSystem : part w reads switchUserToSystem = ([], reads, ()) := rfl

@[simp] theorem part_propertyGet (prop : Property) :
    part w reads (propertyGet prop) = ([], reads, w.property prop) := rfl

@[simp] theorem part_setModemType (type : ModemType) :
    part w reads (setModemType type) = ([], reads, ()) := rfl

@[simp] theorem part_modemEventInit : part w reads modemEventInit = ([], reads, ()) := rfl

@[simp] theorem part_modemPcieInit : part w reads modemPcieInit = ([], reads, ()) := rfl

@[simp] theorem part_pthreadCreate (thread : Started) :
    part w reads (pthreadCreate thread) = ([.pthreadCreate thread], reads, w.created thread) := rfl

@[simp] theorem part_initModemImgInfo :
    part w reads initModemImgInfo = ([], reads, w.imgInfo) := rfl

@[simp] theorem part_openDevice (path : Bytes) :
    part w reads (openDevice path) = ([], reads, w.opens path) := rfl

@[simp] theorem part_loadModemImg (loadType : BitVec 32) :
    part w reads (loadModemImg loadType) = ([.loadModemImg loadType], reads, ()) := rfl

@[simp] theorem part_signalAlarm : part w reads signalAlarm = ([.signalAlarm], reads, ()) := rfl

@[simp] theorem part_startWaitAliveTimer :
    part w reads modemCtrlStartWaitAliveTimer = ([.modemCtrlStartWaitAliveTimer], reads, ()) := rfl

@[simp] theorem part_when (c : Bool) (p : BootProg Unit) :
    part w reads (Prog.when c p) = if c then part w reads p else ([], reads, ()) := by
  cases c <;> rfl

theorem part_mode : part w 0 modemCtrlInitBootMode = ([], 1, initialMode (w.cmdline 0)) := by
  simp [modemCtrlInitBootMode, part_bind]

theorem part_type : part w reads modemCtrlIntModemType =
    ([], reads, if w.property .modemRadioType = NOT_FIND then -1 else 0) := by
  by_cases unset : w.property .modemRadioType = NOT_FIND
  · simp [modemCtrlIntModemType, part_bind, unset]
  · simp [modemCtrlIntModemType, part_bind, unset]

theorem part_alive : part w reads modemHasBeenBoot = ([], reads, w.alive) := by
  cases pm : w.opens PMIC_MONITOR_PATH with
  | true => simp [modemHasBeenBoot, part_bind, World.alive, pm]
  | false => simp [modemHasBeenBoot, part_bind, World.alive, pm]

theorem part_bootModem (b : Build) (ready : w.imgInfo = 0) :
    (part w 1 (modemCtrlBootModem b)).1 = w.bootDeeds b w.shutDown := by
  have shut : (modemCtrlParseCmdline (w.cmdline 1) (some (bytes "shutdown")) != 0) = w.shutDown :=
    rfl
  cases shutDown : w.shutDown with
  | false =>
      cases alive : w.alive <;> cases removed : b.removeSprdModem <;>
        simp [modemCtrlBootModem, part_bind, part_alive, World.bootDeeds, ready, shut, shutDown, alive, removed]
  | true =>
      cases alive : w.alive <;> cases removed : b.removeSprdModem <;>
        simp [modemCtrlBootModem, part_bind, part_alive, World.bootDeeds, ready, shut, shutDown, alive, removed]

theorem part_watchUevents (v : Variant) (b : Build) : part w reads (watchUevents v b) =
    (if v = .external then [.pthreadCreate .ueventMonitorThread] else [], reads, w.watched v) := by
  cases v with
  | internal => rfl
  | external => simp [watchUevents, part_bind, World.watched]

theorem part_bootModem_failed (b : Build) (failed : w.imgInfo ≠ 0) :
    (part w 1 (modemCtrlBootModem b)).1 = [] := by
  simp [modemCtrlBootModem, part_bind, failed]

theorem part_main (v : Variant) (b : Build) : (part w 0 (main v b)).1 = w.deeds v b w.shutDown := by
  simp only [main, part_bind, part_mode, List.nil_append]
  by_cases recovery : initialMode (w.cmdline 0) = .recovery
  · simp [recovery, World.deeds]
  · have switch : (part w 1 (Prog.when (initialMode (w.cmdline 0) == .normal) switchUserToSystem)) =
        ([], 1, ()) := by
      rw [part_when, part_switchUserToSystem]
      split <;> rfl
    simp only [if_neg recovery, part_bind, switch, part_type, List.nil_append]
    by_cases unset : w.property .modemRadioType = NOT_FIND
    · simp [unset, World.deeds]
    · cases watched : w.watched v with
      | false => simp [unset, part_bind, part_watchUevents, watched, World.deeds, recovery]
      | true =>
          by_cases ready : w.imgInfo = 0
          · simp [unset, part_bind, part_watchUevents, watched, ready, part_bootModem, World.deeds,
              recovery]
          · simp [unset, part_bind, part_watchUevents, watched, ready, part_bootModem_failed,
              World.deeds, recovery]

end Parts

/-- The last parameter has the newline of the line behind it. -/
theorem shutDown_eq {w : World} {line value : Bytes} {before after : List Bytes}
    (has : HasModem line before value after) (given : w.cmdline 1 = { content := some line }) :
    w.shutDown = (value == bytes "shutdown" && after != []) := by
  have ended : 10 ∉ bytes "shutdown" := by decide
  rw [World.shutDown, given, has.result]
  by_cases last : after = []
  · have longer : bytes "shutdown" ≠ value ++ [10] := by
      intro same
      exact ended (by simp [same])
    simp [last, longer]
  · by_cases same : bytes "shutdown" = value
    · simp [last, same]
    · simp [last, same, Ne.symm same]

/-- With a command line that has one modem parameter, the boot is this sequence: the images
    are loaded, once and before anything waits for the modem, only if the parameter is
    "shutdown", another one follows it, and neither the sp nor the modem runs; the alive timer
    is started only if the modem does not run, behind its handler. -/
theorem boot_sequence {line value : Bytes} {before after : List Bytes}
    (has : HasModem line before value after) (v : Variant) (b : Build) (w : World)
    (given : w.cmdline 1 = { content := some line }) :
    (calls v b w).filter deed = w.deeds v b (value == bytes "shutdown" && after != []) := by
  rw [← shutDown_eq has given]
  exact part_main v b

/-- A phone that is started with its modem shut down. -/
def phone : World where
  cmdline _ := { content := some middle }
  property _ := bytes "l"
  opens _ := false
  created _ := true
  imgInfo := 0

theorem boot_sequence_phone : (calls .external {} phone).filter deed =
    [.pthreadCreate .ueventMonitorThread, .pthreadCreate .modemSetupClientsConnect,
      .loadModemImg LOAD_ALL_IMG, .pthreadCreate .modemCtrlListenSp,
      .pthreadCreate .modemCtrlListenModem, .signalAlarm, .modemCtrlStartWaitAliveTimer] :=
  (boot_sequence middle_hasModem .external {} phone rfl).trans (by decide +kernel)

end ModemControl.Boot
