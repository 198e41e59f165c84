import ModemControl.Control
import ModemControl.Foundation.Prog

/-! # modem_load.c, external variant, over modem_io_control.c

`load_modem_img` and `load_spl_img` as programs over the calls that leave modem_load.c
or touch a device. The result of every such call is left to the environment; none of
them fails to come back, so the endless loops in which secure_boot_load.c ends after a
failed check are no runs here. Logs and sleeps are left out.
-/

namespace ModemControl.Load

open Foundation

def MAX_PATH_LEN : Nat := 128

/-- `IMAGE_LOAD_S`. -/
structure ImageLoad where
  pathW : Bytes
  pathR : Bytes
  name : Bytes
  addr : BitVec 64
  size : BitVec 32
  flag : BitVec 32
  deriving Repr, DecidableEq

/-- `LOAD_VALUE_S`, as far as loading reads it. -/
structure LoadValue where
  loadTable : List ImageLoad := []
  drvIsOk : Bool := false
  ioctrlIsOk : Bool := false
  ioCtrl : Bytes := []
  start : Bytes := []
  stop : Bytes := []
  deriving Repr, DecidableEq

/-- All of `LOAD_VALUE_S` that is set before loading: the memory of the subsystem too, and
    where the table comes from. -/
structure LoadValueS extends LoadValue where
  modemBase : BitVec 64 := 0
  modemSize : BitVec 64 := 0
  allBase : BitVec 64 := 0
  allSize : BitVec 64 := 0
  xmlIsOk : Bool := false
  name : Bytes := []
  deriving Repr, DecidableEq

/-- `cp_load_info`, `sp_load_info` and `dp_load_info`. -/
structure LoadInfo where
  cp : LoadValue
  sp : LoadValue
  dp : LoadValue
  deriving Repr, DecidableEq

/-- The options modem_load.c is compiled with. -/
structure Build where
  removeSprdModem : Bool := false
  pcieRescan : Bool := false
  secureBootEnable : Bool := false
  sprdSecboot : Bool := false
  vbootV2 : Bool := false
  deriving Repr, DecidableEq

namespace Build

def secure (b : Build) : Bool := b.secureBootEnable || b.sprdSecboot || b.vbootV2

end Build

/-- `a & b` as a condition. -/
def anyBit (a b : BitVec 32) : Bool := a &&& b != 0

def getFlag (flag : BitVec 32) (bit : Nat) : Bool := anyBit flag (1 <<< bit)

def SECURE_FLAG : Nat := 0
def NV_FLAG : Nat := 1
def BOOT_CODE : Nat := 2
def CMDLINE_FLAG : Nat := 3

def SPL_IMG_FLAG : BitVec 32 := 1 <<< 4
def SML_IMG_FLAG : BitVec 32 := 1 <<< 5
def UBOOT_IMG_FLAG : BitVec 32 := 1 <<< 6
def BOOT_IMG_FLAG : BitVec 32 := 1 <<< 7
def MODEM_HEAD_IMG_FLAG : BitVec 32 := 1 <<< 8
def MODEM_IMG_FLAG : BitVec 32 := 0x00000F00
def SP_IMG_FLAG : BitVec 32 := 0x0000F000
def AUDIO_IMG_FLAG : BitVec 32 := 0x000F0000
def NONE_IMAG_FLAG : BitVec 32 := 0x00000000

def LOAD_SP_IMG : BitVec 32 := 0x1
def LOAD_MODEM_IMG : BitVec 32 := 0x2
def LOAD_DP_IMG : BitVec 32 := 0x4
def LOAD_MINIAP_IMG : BitVec 32 := 0x8
def LOAD_AGDSP_IMG : BitVec 32 := 0x10
def LOADL_ALL_EXTERNAL_IMG : BitVec 32 := 0x1E

def REMOTE_CLEAR_FLAG : BitVec 32 := 0x0
def REMOTE_DDR_READY_FLAG : BitVec 32 := 1 <<< 0
def EP_SET_BAR_DONE_FLAG : BitVec 32 := 1 <<< 0
def EP_RESCAN_DONE_FLAG : BitVec 32 := 1 <<< 0
def MODEM_IMAGE_DONE_FLAG : BitVec 32 := 1 <<< 1
def MODEM_WARM_RESET_FLAG : BitVec 32 := 1 <<< 1
def UBOOT_IMAGE_DONE_FLAG : BitVec 32 := 1 <<< 2
def BOOT_IMAGE_DONE_FLAG : BitVec 32 := 1 <<< 3
def MODEM_HEAD_DONE_FLAG : BitVec 32 := 1 <<< 4
def SPL_IMAGE_DONE_FLAG : BitVec 32 := 1 <<< 5

/-- The `MODEM_..._CMD` ioctls of modem_io_control.c that the loader uses. -/
inductive ModemCmd where
  | readLock
  | readUnlock
  | writeLock
  | writeUnlock
  | setWriteRegion (region : Nat)
  | getRemoteFlag
  | setRemoteFlag (flag : BitVec 32)
  | clrRemoteFlag (flag : BitVec 32)
  | stop
  | start
  deriving Repr, DecidableEq

/-- The result of `modem_iocmd`; of the get command the flag word instead, and nothing
    when the device could not be opened or the ioctl failed. -/
abbrev ModemCmd.Res : ModemCmd → Type
  | .getRemoteFlag => Option (BitVec 32)
  | _ => Int

inductive LoadOp where
  | iocmd (cmd : ModemCmd) (path : Bytes)
  | writeProcFile (file : Bytes) (offset : Nat) (string : Bytes)
  | getPatitonInfo (img : ImageLoad)
  | modemLoadImage (img : ImageLoad) (offsetin offsetout size : BitVec 32)
  | secureBootLoadImg (img : ImageLoad)
  | loadCpCmdline (fin fout : Bytes)
  | loadCpBootCode (fout : Bytes)
  | readNvPartition (path bakPath pathOut : Bytes)
  | secureBootSetFlag (loadType : BitVec 32)
  | secureBootUnlockDdr
  | secureBootVerifyAll
  | rescanEpDevice
  | setModemState (state : ModemState)
  | enableWakeLock (bEnable : Bool) (position : Bytes)
  deriving Repr, DecidableEq

/-- `getPatitonInfo` answers the offset and the size it found. -/
abbrev LoadOp.Res : LoadOp → Type
  | .iocmd cmd _ => cmd.Res
  | .getPatitonInfo _ => BitVec 32 × BitVec 64
  | .writeProcFile _ _ _ | .modemLoadImage _ _ _ _ | .secureBootLoadImg _ | .loadCpCmdline _ _ |
    .loadCpBootCode _ | .readNvPartition _ _ _ | .rescanEpDevice => Int
  | .secureBootSetFlag _ | .secureBootUnlockDdr | .secureBootVerifyAll | .setModemState _ |
    .enableWakeLock _ _ => Unit

abbrev LoadProg (α : Type) : Type := Prog LoadOp LoadOp.Res α

def modemIocmd (cmd : ModemCmd) (path : Bytes) : LoadProg cmd.Res := .call (.iocmd cmd path) .ret

def modemLockRead (path : Bytes) : LoadProg Int := modemIocmd .readLock path
def modemUnlockRead (path : Bytes) : LoadProg Int := modemIocmd .readUnlock path
def modemLockWrite (path : Bytes) : LoadProg Int := modemIocmd .writeLock path
def modemUnlockWrite (path : Bytes) : LoadProg Int := modemIocmd .writeUnlock path
def modemIoctrlStop (path : Bytes) : LoadProg Int := modemIocmd .stop path
def modemIoctrlStart (path : Bytes) : LoadProg Int := modemIocmd .start path

def modemSetWriteRegion (path : Bytes) (region : Nat) : LoadProg Int :=
  modemIocmd (.setWriteRegion region) path

/-- What `param` holds after the call: it starts as -1. -/
def remoteFlag (answer : Option (BitVec 32)) : BitVec 32 := answer.getD (-1)

def modemGetRemoteFlag (path : Bytes) : LoadProg (BitVec 32) := do
  let answer ← modemIocmd .getRemoteFlag path
  pure (remoteFlag answer)

def modemSetRemoteFlag (path : Bytes) (flag : BitVec 32) : LoadProg Int :=
  modemIocmd (.setRemoteFlag flag) path

def modemClearRemoteFlag (path : Bytes) (flag : BitVec 32) : LoadProg (BitVec 32) := do
  let _ ← modemIocmd (.clrRemoteFlag flag) path
  pure flag

def writeProcFile (file : Bytes) (offset : Nat) (string : Bytes) : LoadProg Int :=
  .call (.writeProcFile file offset string) .ret

def modemGetPatitonInfo (img : ImageLoad) : LoadProg (BitVec 32 × BitVec 64) :=
  .call (.getPatitonInfo img) .ret

def modemLoadImage (img : ImageLoad) (offsetin offsetout size : BitVec 32) : LoadProg Int :=
  .call (.modemLoadImage img offsetin offsetout size) .ret

def secureBootLoadImg (img : ImageLoad) : LoadProg Int := .call (.secureBootLoadImg img) .ret

def modemLoadCpCmdline (fin fout : Bytes) : LoadProg Int := .call (.loadCpCmdline fin fout) .ret

def modemLoadCpBootCode (fout : Bytes) : LoadProg Int := .call (.loadCpBootCode fout) .ret

def readNvPartition (path bakPath pathOut : Bytes) : LoadProg Int :=
  .call (.readNvPartition path bakPath pathOut) .ret

def secureBootSetFlag (loadType : BitVec 32) : LoadProg Unit :=
  .call (.secureBootSetFlag loadType) .ret

def secureBootUnlockDdr : LoadProg Unit := .call .secureBootUnlockDdr .ret

def secureBootVerifyAll : LoadProg Unit := .call .secureBootVerifyAll .ret

def modemRescanEpDevice : LoadProg Int := .call .rescanEpDevice .ret

def modemCtrlSetModemState (state : ModemState) : LoadProg Unit := .call (.setModemState state) .ret

def modemCtrlEnableWakeLock (bEnable : Bool) (position : Bytes) : LoadProg Unit :=
  .call (.enableWakeLock bEnable position) .ret

def modemLoadCpNv (read write : Bytes) : LoadProg Unit := do
  let path := (read ++ bytes "1").take MAX_PATH_LEN
  let bak := (read ++ bytes "2").take MAX_PATH_LEN
  let _ ← readNvPartition path bak write
  pure ()

/-- The test at the head of the loop of `load_img_from_table`. -/
def selected (loadFlag skipFlag : BitVec 32) (img : ImageLoad) : Bool :=
  img.size != 0 && !anyBit img.flag skipFlag && anyBit img.flag loadFlag

/-- The kinds of entries whose result the loop drops. -/
def special (img : ImageLoad) : Bool :=
  getFlag img.flag CMDLINE_FLAG || getFlag img.flag NV_FLAG || getFlag img.flag BOOT_CODE

/-- The body of the loop of `load_img_from_table` for a selected entry, with what it
    adds to `ret`. -/
def loadEntry (b : Build) (load : LoadValue) (i : Nat) (img : ImageLoad) : LoadProg Int := do
  Prog.when load.ioctrlIsOk do
    let _ ← modemSetWriteRegion load.ioCtrl i
  if getFlag img.flag CMDLINE_FLAG then
    let _ ← modemLoadCpCmdline (bytes "/proc/cmdline") img.pathW
    pure 0
  else if getFlag img.flag NV_FLAG then
    modemLoadCpNv img.pathR img.pathW
    pure 0
  else if getFlag img.flag BOOT_CODE then
    let _ ← modemLoadCpBootCode img.pathW
    pure 0
  else if b.secure && getFlag img.flag SECURE_FLAG then
    secureBootLoadImg img
  else
    let (loadOffset, loadSize) ← modemGetPatitonInfo img
    modemLoadImage img loadOffset 0 (loadSize.setWidth 32)

def loadEntries (b : Build) (load : LoadValue) (loadFlag skipFlag : BitVec 32) :
    List ImageLoad → Nat → Int → LoadProg Int
  | [], _, ret => pure ret
  | img :: rest, i, ret =>
      if selected loadFlag skipFlag img then do
        let r ← loadEntry b load i img
        loadEntries b load loadFlag skipFlag rest (i + 1) (ret + r)
      else loadEntries b load loadFlag skipFlag rest (i + 1) ret

def loadImgFromTable (b : Build) (load : LoadValue) (loadFlag skipFlag : BitVec 32) : LoadProg Int :=
  loadEntries b load loadFlag skipFlag load.loadTable 0 0

def modemLoadRun (bRun : Bool) (load : LoadValue) : LoadProg Unit := do
  let path := if bRun then load.start else load.stop
  if load.ioctrlIsOk then
    if bRun then
      let _ ← modemIoctrlStart load.ioCtrl
      let _ ← modemUnlockWrite load.ioCtrl
    else
      let _ ← modemLockWrite load.ioCtrl
      let _ ← modemIoctrlStop load.ioCtrl
  else
    Prog.when load.drvIsOk do
      let _ ← writeProcFile path 0 (bytes "1")

/-- `modem_load_stop` and `modem_load_start`, which differ in what they pass on. -/
def modemLoadRunAll (bRun : Bool) (m : LoadInfo) (loadType : BitVec 32) : LoadProg Unit := do
  Prog.when (anyBit loadType LOAD_SP_IMG) (modemLoadRun bRun m.sp)
  Prog.when (anyBit loadType LOAD_DP_IMG) (modemLoadRun bRun m.dp)
  Prog.when (anyBit loadType (LOAD_MODEM_IMG ||| LOAD_MINIAP_IMG)) (modemLoadRun bRun m.cp)

def modemLoadStop (m : LoadInfo) (loadType : BitVec 32) : LoadProg Unit :=
  modemLoadRunAll false m loadType

def modemLoadStart (m : LoadInfo) (loadType : BitVec 32) : LoadProg Unit :=
  modemLoadRunAll true m loadType

/-- The loop of `modem_load_wait_remote` with `cnt` polls left after this one. -/
def waitLoop (ioCtrl : Bytes) (waitBit : BitVec 32) (cnt : Nat) : LoadProg Bool := do
  let _ ← modemLockRead ioCtrl
  let flag ← modemGetRemoteFlag ioCtrl
  let _ ← modemUnlockRead ioCtrl
  if anyBit flag waitBit then pure true
  else
    match cnt with
    | 0 => pure false
    | cnt + 1 => waitLoop ioCtrl waitBit cnt

def modemLoadWaitRemote (load : LoadValue) (waitBit : BitVec 32) : LoadProg Bool :=
  if !load.ioctrlIsOk then pure true else waitLoop load.ioCtrl waitBit 100

def loadSplImg (b : Build) (m : LoadInfo) : LoadProg Int := do
  if m.cp.ioctrlIsOk then
    let _ ← modemLockWrite m.cp.ioCtrl
    let _ ← modemSetRemoteFlag m.cp.ioCtrl REMOTE_CLEAR_FLAG
    let ret ← loadImgFromTable b m.cp SPL_IMG_FLAG NONE_IMAG_FLAG
    if ret != 0 then
      let _ ← modemLockWrite m.cp.ioCtrl
      pure (-1)
    else
      let _ ← modemSetRemoteFlag m.cp.ioCtrl (SPL_IMAGE_DONE_FLAG ||| MODEM_WARM_RESET_FLAG)
      let _ ← modemUnlockWrite m.cp.ioCtrl
      pure 0
  else pure (-2)

/-- `load_type` and `start_img`, the two masks `load_modem_img` changes on its way. -/
structure Masks where
  loadType : BitVec 32
  startImg : BitVec 32
  deriving Repr, DecidableEq

/-- `start_img = load_type = 0`. -/
def Masks.none : Masks := ⟨0, 0⟩

def loadSp (b : Build) (m : LoadInfo) : LoadProg Unit := do
  Prog.when (b.sprdSecboot || b.vbootV2) do
    -- stop action will do in TA
    secureBootSetFlag LOAD_SP_IMG
    secureBootUnlockDdr
  modemLoadStop m LOAD_SP_IMG
  Prog.when (m.sp.drvIsOk || m.sp.ioctrlIsOk) do
    let _ ← loadImgFromTable b m.sp SP_IMG_FLAG NONE_IMAG_FLAG
  modemLoadStart m LOAD_SP_IMG
  Prog.when b.secure secureBootVerifyAll

def loadDp (b : Build) (m : LoadInfo) : LoadProg Unit :=
  Prog.when (m.dp.drvIsOk || m.dp.ioctrlIsOk) do
    let _ ← loadImgFromTable b m.dp SP_IMG_FLAG NONE_IMAG_FLAG

/-- Clear the remote flag, and for the miniap load spl and wait for its ddr. -/
def loadSpl (b : Build) (m : LoadInfo) (masks : Masks) : LoadProg Masks := do
  if m.cp.ioctrlIsOk && masks.loadType != 0 then
    let _ ← modemSetRemoteFlag m.cp.ioCtrl REMOTE_CLEAR_FLAG
    if anyBit masks.loadType LOAD_MINIAP_IMG then
      let ret ← loadImgFromTable b m.cp SPL_IMG_FLAG NONE_IMAG_FLAG
      if ret != 0 then pure Masks.none
      else
        let _ ← modemSetRemoteFlag m.cp.ioCtrl SPL_IMAGE_DONE_FLAG
        let ready ← modemLoadWaitRemote m.cp REMOTE_DDR_READY_FLAG
        -- if ep ddr not ready, can't load any image again
        if !ready then pure Masks.none else pure masks
    else pure masks
  else pure masks

/-- What follows the modem head: wait until the ep has reset its bar, and rescan it. -/
def rescanEp (m : LoadInfo) (masks : Masks) : LoadProg Masks := do
  let ready ← modemLoadWaitRemote m.cp EP_SET_BAR_DONE_FLAG
  if ready then
    let failed ← modemRescanEpDevice
    -- if rescan ep failed, can't load any image again
    if failed != 0 then pure Masks.none
    else
      let _ ← modemClearRemoteFlag m.cp.ioCtrl EP_RESCAN_DONE_FLAG
      pure masks
  else pure masks

/-- Load some images of the miniap and tell it when they are there. -/
def loadAndTell (b : Build) (m : LoadInfo) (loadFlag doneFlag : BitVec 32) : LoadProg Bool := do
  let ret ← loadImgFromTable b m.cp loadFlag NONE_IMAG_FLAG
  if ret == 0 then
    let _ ← modemSetRemoteFlag m.cp.ioCtrl doneFlag
    pure true
  else pure false

def loadMiniap (b : Build) (m : LoadInfo) (masks : Masks) : LoadProg Masks := do
  if anyBit masks.loadType LOAD_MINIAP_IMG && m.cp.ioctrlIsOk then
    let _ ← loadAndTell b m (SML_IMG_FLAG ||| UBOOT_IMG_FLAG) UBOOT_IMAGE_DONE_FLAG
    let _ ← loadAndTell b m BOOT_IMG_FLAG BOOT_IMAGE_DONE_FLAG
    Prog.when b.pcieRescan do
      let _ ← modemClearRemoteFlag m.cp.ioCtrl EP_SET_BAR_DONE_FLAG
    let head ← loadAndTell b m MODEM_HEAD_IMG_FLAG MODEM_HEAD_DONE_FLAG
    if head && b.pcieRescan then rescanEp m masks else pure masks
  else pure masks

def loadAgdsp (b : Build) (m : LoadInfo) (masks : Masks) : LoadProg Unit :=
  Prog.when (anyBit masks.loadType LOAD_AGDSP_IMG) do
    let _ ← loadImgFromTable b m.cp AUDIO_IMG_FLAG NONE_IMAG_FLAG

def loadModem (b : Build) (m : LoadInfo) (masks : Masks) : LoadProg Unit :=
  Prog.when (anyBit masks.loadType LOAD_MODEM_IMG) do
    let ret ← loadImgFromTable b m.cp MODEM_IMG_FLAG MODEM_HEAD_IMG_FLAG
    Prog.when (ret == 0 && m.cp.ioctrlIsOk) do
      let _ ← modemSetRemoteFlag m.cp.ioCtrl MODEM_IMAGE_DONE_FLAG

/-- `load_type` as the build leaves it. -/
def requested (b : Build) (loadType : BitVec 32) : BitVec 32 :=
  if b.removeSprdModem then LOAD_SP_IMG else loadType

/-- `start_img` once the sp has been dealt with. -/
def startMask (loadType : BitVec 32) : BitVec 32 :=
  if anyBit loadType LOAD_SP_IMG then loadType &&& ~~~LOAD_SP_IMG else loadType

def loadModemImg (b : Build) (m : LoadInfo) (loadType : BitVec 32) : LoadProg Int := do
  let loadType := requested b loadType
  modemCtrlEnableWakeLock true (bytes "load_modem_img")
  modemCtrlSetModemState .loading
  Prog.when (anyBit loadType LOAD_SP_IMG) (loadSp b m)
  modemLoadStop m (startMask loadType)
  Prog.when (anyBit loadType LOAD_DP_IMG) (loadDp b m)
  let masks ← loadSpl b m ⟨loadType, startMask loadType⟩
  loadAgdsp b m masks
  let masks ← loadMiniap b m masks
  loadModem b m masks
  modemLoadStart m masks.startImg
  modemCtrlSetModemState .booting
  modemCtrlEnableWakeLock false (bytes "load_modem_img")
  pure 0

end ModemControl.Load
