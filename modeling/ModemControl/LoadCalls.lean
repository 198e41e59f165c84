import ModemControl.Foundation.Layers
import ModemControl.Foundation.Monitor
import ModemControl.ListenModem
import ModemControl.LoadOutcomes

/-! # The calls of load_modem_img

Both variants of `load_modem_img`, over the functions of modem_load.c that they call.
Each of these functions is itself a program over the calls of the layer below, and with
them put in place the external variant is the one of `ModemControl.Load`.
-/

namespace ModemControl.LoadCalls

open Foundation Load ListenModem

/-- `IMAGE_SP`, `IMAGE_DP` and `IMAGE_CP`. -/
inductive ImgType where
  | sp
  | dp
  | cp
  deriving Repr, DecidableEq

/-- `modem_get_load_value`. -/
def loadValue (m : LoadInfo) : ImgType → LoadValue
  | .sp => m.sp
  | .dp => m.dp
  | .cp => m.cp

/-- What `modem_load_wait_remote` is called for; the two flags are the same bit. -/
inductive RemoteWait where
  | ddrReady
  | epSetBarDone
  deriving Repr, DecidableEq

def RemoteWait.bit : RemoteWait → BitVec 32
  | .ddrReady => REMOTE_DDR_READY_FLAG
  | .epSetBarDone => EP_SET_BAR_DONE_FLAG

inductive CallOp where
  | loadImgFromTable (img : ImgType) (loadFlag skipFlag : BitVec 32)
  | modemLoadStop (loadType : BitVec 32)
  | modemLoadStart (loadType : BitVec 32)
  | modemLoadWaitRemote (wait : RemoteWait)
  | modemSetRemoteFlag (flag : BitVec 32)
  | modemClearRemoteFlag (flag : BitVec 32)
  | modemRescanEpDevice
  | secureBootSetFlag (loadType : BitVec 32)
  | secureBootUnlockDdr
  | secureBootVerifyAll
  | modemCtrlSetModemState (state : ModemState)
  | modemCtrlEnableWakeLock (bEnable : Bool)
  deriving Repr, DecidableEq

abbrev CallOp.Res : CallOp → Type
  | .loadImgFromTable _ _ _ | .modemSetRemoteFlag _ | .modemRescanEpDevice => Int
  | .modemLoadWaitRemote _ => Bool
  | .modemClearRemoteFlag _ => BitVec 32
  | .modemLoadStop _ | .modemLoadStart _ | .secureBootSetFlag _ | .secureBootUnlockDdr |
    .secureBootVerifyAll | .modemCtrlSetModemState _ | .modemCtrlEnableWakeLock _ => Unit

abbrev CallProg (α : Type) : Type := Prog CallOp CallOp.Res α

def loadImgFromTable (img : ImgType) (loadFlag skipFlag : BitVec 32) : CallProg Int :=
  .call (.loadImgFromTable img loadFlag skipFlag) .ret

def modemLoadStop (loadType : BitVec 32) : CallProg Unit := .call (.modemLoadStop loadType) .ret

def modemLoadStart (loadType : BitVec 32) : CallProg Unit := .call (.modemLoadStart loadType) .ret

def modemLoadWaitRemote (wait : RemoteWait) : CallProg Bool := .call (.modemLoadWaitRemote wait) .ret

def modemSetRemoteFlag (flag : BitVec 32) : CallProg Int := .call (.modemSetRemoteFlag flag) .ret

def modemClearRemoteFlag (flag : BitVec 32) : CallProg (BitVec 32) :=
  .call (.modemClearRemoteFlag flag) .ret

def modemRescanEpDevice : CallProg Int := .call .modemRescanEpDevice .ret

def secureBootSetFlag (loadType : BitVec 32) : CallProg Unit :=
  .call (.secureBootSetFlag loadType) .ret

def secureBootUnlockDdr : CallProg Unit := .call .secureBootUnlockDdr .ret

def secureBootVerifyAll : CallProg Unit := .call .secureBootVerifyAll .ret

def modemCtrlSetModemState (state : ModemState) : CallProg Unit :=
  .call (.modemCtrlSetModemState state) .ret

def modemCtrlEnableWakeLock (bEnable : Bool) : CallProg Unit :=
  .call (.modemCtrlEnableWakeLock bEnable) .ret

/-- The driver or the ioctl device of a subsystem is there. -/
def present (load : LoadValue) : Bool := load.drvIsOk || load.ioctrlIsOk

namespace External

def loadSp (b : Build) (m : LoadInfo) : CallProg Unit := do
  Prog.when (b.sprdSecboot || b.vbootV2) do
    -- stop action will do in TA
    secureBootSetFlag LOAD_SP_IMG
    secureBootUnlockDdr
  modemLoadStop LOAD_SP_IMG
  Prog.when (present m.sp) do
    let _ ← loadImgFromTable .sp SP_IMG_FLAG NONE_IMAG_FLAG
  modemLoadStart LOAD_SP_IMG
  Prog.when b.secure secureBootVerifyAll

def loadDp (m : LoadInfo) : CallProg Unit :=
  Prog.when (present m.dp) do
    let _ ← loadImgFromTable .dp SP_IMG_FLAG NONE_IMAG_FLAG

def loadSpl (m : LoadInfo) (masks : Masks) : CallProg Masks := do
  if m.cp.ioctrlIsOk && masks.loadType != 0 then
    let _ ← modemSetRemoteFlag REMOTE_CLEAR_FLAG
    if anyBit masks.loadType LOAD_MINIAP_IMG then
      let ret ← loadImgFromTable .cp SPL_IMG_FLAG NONE_IMAG_FLAG
      if ret != 0 then pure Masks.none
      else
        let _ ← modemSetRemoteFlag SPL_IMAGE_DONE_FLAG
        let ready ← modemLoadWaitRemote .ddrReady
        -- if ep ddr not ready, can't load any image again
        if !ready then pure Masks.none else pure masks
    else pure masks
  else pure masks

def rescanEp (masks : Masks) : CallProg Masks := do
  let ready ← modemLoadWaitRemote .epSetBarDone
  if ready then
    let failed ← modemRescanEpDevice
    -- if rescan ep failed, can't load any image again
    if failed != 0 then pure Masks.none
    else
      let _ ← modemClearRemoteFlag EP_RESCAN_DONE_FLAG
      pure masks
  else pure masks

def loadAndTell (loadFlag doneFlag : BitVec 32) : CallProg Bool := do
  let ret ← loadImgFromTable .cp loadFlag NONE_IMAG_FLAG
  if ret == 0 then
    let _ ← modemSetRemoteFlag doneFlag
    pure true
  else pure false

def loadMiniap (b : Build) (m : LoadInfo) (masks : Masks) : CallProg Masks := do
  if anyBit masks.loadType LOAD_MINIAP_IMG && m.cp.ioctrlIsOk then
    let _ ← loadAndTell (SML_IMG_FLAG ||| UBOOT_IMG_FLAG) UBOOT_IMAGE_DONE_FLAG
    let _ ← loadAndTell BOOT_IMG_FLAG BOOT_IMAGE_DONE_FLAG
    Prog.when b.pcieRescan do
      let _ ← modemClearRemoteFlag EP_SET_BAR_DONE_FLAG
    let head ← loadAndTell MODEM_HEAD_IMG_FLAG MODEM_HEAD_DONE_FLAG
    if head && b.pcieRescan then rescanEp masks else pure masks
  else pure masks

def loadAgdsp (masks : Masks) : CallProg Unit :=
  Prog.when (anyBit masks.loadType LOAD_AGDSP_IMG) do
    let _ ← loadImgFromTable .cp AUDIO_IMG_FLAG NONE_IMAG_FLAG

def loadModem (m : LoadInfo) (masks : Masks) : CallProg Unit :=
  Prog.when (anyBit masks.loadType LOAD_MODEM_IMG) do
    let ret ← loadImgFromTable .cp MODEM_IMG_FLAG MODEM_HEAD_IMG_FLAG
    Prog.when (ret == 0 && m.cp.ioctrlIsOk) do
      let _ ← modemSetRemoteFlag MODEM_IMAGE_DONE_FLAG

def loadModemImg (b : Build) (m : LoadInfo) (loadType : BitVec 32) : CallProg Int := do
  let loadType := requested b loadType
  modemCtrlEnableWakeLock true
  modemCtrlSetModemState .loading
  Prog.when (anyBit loadType LOAD_SP_IMG) (loadSp b m)
  modemLoadStop (startMask loadType)
  Prog.when (anyBit loadType LOAD_DP_IMG) (loadDp m)
  let masks ← loadSpl m ⟨loadType, startMask loadType⟩
  loadAgdsp masks
  let masks ← loadMiniap b m masks
  loadModem m masks
  modemLoadStart masks.startImg
  modemCtrlSetModemState .booting
  modemCtrlEnableWakeLock false
  pure 0

end External

namespace Internal

def loadModemImg (b : Build) (m : LoadInfo) (loadType : BitVec 32) : CallProg Int := do
  modemCtrlEnableWakeLock true
  let loadType := requested b loadType
  Prog.when (b.sprdSecboot || b.vbootV2) do
    -- stop action will do in TA
    secureBootSetFlag loadType
    secureBootUnlockDdr
  modemLoadStop loadType
  modemCtrlSetModemState .loading
  Prog.when (anyBit loadType LOAD_SP_IMG) do
    Prog.when (present m.sp) do
      let _ ← loadImgFromTable .sp SP_IMG_FLAG NONE_IMAG_FLAG
  Prog.when (anyBit loadType LOAD_MODEM_IMG) do
    Prog.when (present m.cp) do
      let _ ← loadImgFromTable .cp MODEM_IMG_FLAG NONE_IMAG_FLAG
  Prog.when b.secure secureBootVerifyAll
  modemLoadStart loadType
  modemCtrlSetModemState .booting
  modemCtrlEnableWakeLock false
  pure 0

end Internal

def loadModemImg : Variant → Build → LoadInfo → BitVec 32 → CallProg Int
  | .external => External.loadModemImg
  | .internal => Internal.loadModemImg

/-- `modem_load_stop` and `modem_load_start` of the internal variant know no dp. -/
def modemLoadRunInternal (bRun : Bool) (m : LoadInfo) (loadType : BitVec 32) : LoadProg Unit := do
  Prog.when (anyBit loadType LOAD_SP_IMG) (modemLoadRun bRun m.sp)
  Prog.when (anyBit loadType (LOAD_MODEM_IMG ||| LOAD_MINIAP_IMG)) (modemLoadRun bRun m.cp)

def modemLoadRunOf : Variant → Bool → LoadInfo → BitVec 32 → LoadProg Unit
  | .external => modemLoadRunAll
  | .internal => modemLoadRunInternal

/-- The functions that `load_modem_img` calls. -/
def handler (v : Variant) (b : Build) (m : LoadInfo) : (op : CallOp) → LoadProg op.Res
  | .loadImgFromTable img loadFlag skipFlag =>
      Load.loadImgFromTable b (loadValue m img) loadFlag skipFlag
  | .modemLoadStop loadType => modemLoadRunOf v false m loadType
  | .modemLoadStart loadType => modemLoadRunOf v true m loadType
  | .modemLoadWaitRemote wait => Load.modemLoadWaitRemote m.cp wait.bit
  | .modemSetRemoteFlag flag => Load.modemSetRemoteFlag m.cp.ioCtrl flag
  | .modemClearRemoteFlag flag => Load.modemClearRemoteFlag m.cp.ioCtrl flag
  | .modemRescanEpDevice => Load.modemRescanEpDevice
  | .secureBootSetFlag loadType => Load.secureBootSetFlag loadType
  | .secureBootUnlockDdr => Load.secureBootUnlockDdr
  | .secureBootVerifyAll => Load.secureBootVerifyAll
  | .modemCtrlSetModemState state => Load.modemCtrlSetModemState state
  | .modemCtrlEnableWakeLock bEnable =>
      Load.modemCtrlEnableWakeLock bEnable (bytes "load_modem_img")

section Below

variable (v : Variant) (b : Build) (m : LoadInfo)

@[simp] theorem interp_loadImgFromTable (img : ImgType) (loadFlag skipFlag : BitVec 32) :
    (loadImgFromTable img loadFlag skipFlag).interp (handler v b m) =
      Load.loadImgFromTable b (loadValue m img) loadFlag skipFlag :=
  Prog.bind_ret _

@[simp] theorem interp_modemLoadStop (loadType : BitVec 32) :
    (modemLoadStop loadType).interp (handler .external b m) = Load.modemLoadStop m loadType :=
  Prog.bind_ret _

@[simp] theorem interp_modemLoadStart (loadType : BitVec 32) :
    (modemLoadStart loadType).interp (handler .external b m) = Load.modemLoadStart m loadType :=
  Prog.bind_ret _

@[simp] theorem interp_modemLoadWaitRemote (wait : RemoteWait) :
    (modemLoadWaitRemote wait).interp (handler v b m) = Load.modemLoadWaitRemote m.cp wait.bit :=
  Prog.bind_ret _

@[simp] theorem interp_modemSetRemoteFlag (flag : BitVec 32) :
    (modemSetRemoteFlag flag).interp (handler v b m) = Load.modemSetRemoteFlag m.cp.ioCtrl flag :=
  rfl

@[simp] theorem interp_modemClearRemoteFlag (flag : BitVec 32) :
    (modemClearRemoteFlag flag).interp (handler v b m) =
      Load.modemClearRemoteFlag m.cp.ioCtrl flag :=
  rfl

@[simp] theorem interp_modemRescanEpDevice :
    modemRescanEpDevice.interp (handler v b m) = Load.modemRescanEpDevice := rfl

@[simp] theorem interp_secureBootSetFlag (loadType : BitVec 32) :
    (secureBootSetFlag loadType).interp (handler v b m) = Load.secureBootSetFlag loadType := rfl

@[simp] theorem interp_secureBootUnlockDdr :
    secureBootUnlockDdr.interp (handler v b m) = Load.secureBootUnlockDdr := rfl

@[simp] theorem interp_secureBootVerifyAll :
    secureBootVerifyAll.interp (handler v b m) = Load.secureBootVerifyAll := rfl

@[simp] theorem interp_modemCtrlSetModemState (state : ModemState) :
    (modemCtrlSetModemState state).interp (handler v b m) = Load.modemCtrlSetModemState state :=
  rfl

@[simp] theorem interp_modemCtrlEnableWakeLock (bEnable : Bool) :
    (modemCtrlEnableWakeLock bEnable).interp (handler v b m) =
      Load.modemCtrlEnableWakeLock bEnable (bytes "load_modem_img") :=
  rfl

@[simp] theorem interp_loadAndTell (loadFlag doneFlag : BitVec 32) :
    (External.loadAndTell loadFlag doneFlag).interp (handler v b m) =
      Load.loadAndTell b m loadFlag doneFlag := by
  simp [External.loadAndTell, Load.loadAndTell, loadValue]

@[simp] theorem interp_rescanEp (masks : Masks) :
    (External.rescanEp masks).interp (handler v b m) = Load.rescanEp m masks := by
  simp [External.rescanEp, Load.rescanEp, RemoteWait.bit]

/-- With the functions it calls in place, this is the program of the layer below. -/
theorem interp_loadModemImg (loadType : BitVec 32) :
    (External.loadModemImg b m loadType).interp (handler .external b m) =
      Load.loadModemImg b m loadType := by
  simp [External.loadModemImg, Load.loadModemImg, External.loadSp, Load.loadSp, External.loadDp,
    Load.loadDp, External.loadSpl, Load.loadSpl, External.loadAgdsp, Load.loadAgdsp,
    External.loadMiniap, Load.loadMiniap, External.loadModem, Load.loadModem, loadValue, present,
    RemoteWait.bit]

end Below

abbrev Call : Type := Layer CallOp CallOp.Res LoadOp LoadOp.Res

abbrev CallTrace : Type := List (Event CallOp CallOp.Res)

/-- The calls of a run of `load_modem_img`, each with what it does in the layer below. -/
def calls (v : Variant) (b : Build) (m : LoadInfo) (loadType : BitVec 32) (o : Outcomes) :
    List Call :=
  (loadModemImg v b m loadType).layers (handler v b m) Outcomes.answer o

/-- What is true of the calls of the program is true of the calls of every run. -/
theorem calls_accepted {v : Variant} {b : Build} {m : LoadInfo} {loadType : BitVec 32} {μ : Type}
    {M : Monitor CallOp CallOp.Res μ} {post : Int → μ → Prop} {start : μ}
    (meets : (loadModemImg v b m loadType).Meets M post start) (o : Outcomes) :
    M.Accepts start ((calls v b m loadType o).map Layer.event) := by
  rw [calls, Prog.layers_events]
  exact (meets.run o).1

/-- The pieces of the calls make up the trace of the external variant. -/
theorem calls_trace (b : Build) (m : LoadInfo) (loadType : BitVec 32) (o : Outcomes) :
    (calls .external b m loadType o).flatMap Layer.inner = trace (Load.loadModemImg b m loadType) o := by
  rw [trace, ← interp_loadModemImg, Prog.interp_trace]
  rfl

end ModemControl.LoadCalls
