import ModemControl.Foundation.Switches
import ModemControl.LoadFiles

/-! # The bus monitor and the DMC MPU

Five functions switch both protections off while they touch modem memory. Whatever their
files answer, those that come back have switched them on again.
-/

namespace ModemControl.Protections

open Foundation Switches LoadFiles

inductive Protection where
  | busmonitor
  | dmcMpu
  deriving Repr, DecidableEq

/-- The protection a call sets. -/
def fileSets : FileOp → Option (Protection × Bool)
  | .enableBusmonitor bEnable => some (.busmonitor, bEnable)
  | .enableDmcMpu bEnable => some (.dmcMpu, bEnable)
  | _ => none

def nvSets : Nv.NvOp → Option (Protection × Bool)
  | .enableBusmonitor bEnable => some (.busmonitor, bEnable)
  | .enableDmcMpu bEnable => some (.dmcMpu, bEnable)
  | _ => none

/-- The settings of one call that has returned, whatever its files answered. -/
inductive Returned (h : ImgHeaders) : List (Protection × Bool) → Prop
  | modemLoadCpCmdline {simlock : Bool} {fin fout : Bytes}
      {path : List (Event FileOp FileOp.Res)} {res : Int}
      (taken : (modemLoadCpCmdline simlock fin fout).follow path = some res) :
      Returned h (settings fileSets path)
  | modemLoadImage {rounds : Nat} {img : Load.ImageLoad} {offsetin offsetout size : BitVec 32}
      {path : List (Event FileOp FileOp.Res)} {res : Int}
      (taken : (modemLoadImage rounds img offsetin offsetout size).follow path = some res) :
      Returned h (settings fileSets path)
  | readNvPartition {path : List (Event Nv.NvOp Nv.NvOp.Res)} {res : Int}
      (taken : Nv.readNvPartition.follow path = some res) :
      Returned h (settings nvSets path)
  | getVerifyImgInfo {fin : Option Bytes} {isPacked : Option (BitVec 32)}
      {path : List (Event FileOp FileOp.Res)} {res : BitVec 32 × Option (BitVec 32)}
      (taken : (getVerifyImgInfo h fin isPacked).follow path = some res) :
      Returned h (settings fileSets path)
  | getVerifyImgFooter {fin footer : Option Bytes}
      {path : List (Event FileOp FileOp.Res)} {res : Option Bytes}
      (taken : (getVerifyImgFooter h fin footer).follow path = some res) :
      Returned h (settings fileSets path)

/-- After both calls with true both protections are on, whatever they were before. -/
theorem both_on (on : Protection → Bool) (k : Protection) :
    set (set on (.busmonitor, true)) (.dmcMpu, true) k = true := by
  cases k <;> rfl

section

variable {α : Type} {on : Protection → Bool}

theorem restores_on {f : FileProg α} (quiet : Quiet fileSets f) :
    Restores fileSets (enableBusmonitor true >>= fun _ => enableDmcMpu true >>= fun _ => f) on :=
  ⟨trivial, fun _ => ⟨trivial, fun _ => quiet.restores (both_on on)⟩⟩

/-- Switching both off leaves it to what follows. -/
theorem restores_off {f : FileProg α} (rest : ∀ on, Restores fileSets f on) :
    Restores fileSets (enableBusmonitor false >>= fun _ => enableDmcMpu false >>= fun _ => f) on := by
  apply restores_bind
  intro _ on
  apply restores_bind
  intro _ on
  exact rest on

theorem nv_restores_on {f : Nv.NvProg α} (quiet : Quiet nvSets f) :
    Restores nvSets (Nv.enableBusmonitor true >>= fun _ => Nv.enableDmcMpu true >>= fun _ => f) on :=
  ⟨trivial, fun _ => ⟨trivial, fun _ => quiet.restores (both_on on)⟩⟩

end

theorem writeCmdline_restores (fout : Bytes) (str : Option Bytes) (on : Protection → Bool) :
    Restores fileSets (writeCmdline fout str) on := by
  unfold writeCmdline
  apply restores_bind
  intro opened on
  cases opened with
  | true =>
      cases str with
      | none => exact ⟨trivial, Empty.rec⟩
      | some str =>
          apply restores_bind
          intro wsize on
          exact restores_on ⟨rfl, fun _ => ⟨rfl, fun _ => trivial⟩⟩
  | false =>
      apply restores_bind
      intro _ on
      exact restores_on trivial

theorem modemLoadCpCmdline_restores (simlock : Bool) (fin fout : Bytes) (on : Protection → Bool) :
    Restores fileSets (modemLoadCpCmdline simlock fin fout) on := by
  unfold modemLoadCpCmdline
  apply restores_off
  intro on
  apply restores_bind
  intro opened on
  cases opened with
  | false => exact restores_on trivial
  | true =>
      apply restores_bind
      intro got on
      dsimp only
      apply restores_bind
      intro str on
      exact writeCmdline_restores fout str on

theorem modemLoadImage_restores (rounds : Nat) (img : Load.ImageLoad)
    (offsetin offsetout size : BitVec 32) (on : Protection → Bool) :
    Restores fileSets (modemLoadImage rounds img offsetin offsetout size) on := by
  unfold modemLoadImage
  apply restores_bind
  rintro ⟨bufSize, bufHeap⟩ on
  apply restores_off
  intro on
  apply restores_bind
  intro _ on
  apply restores_bind
  intro opened on
  cases opened with
  | false => exact restores_on trivial
  | true =>
      apply restores_bind
      intro opened on
      cases opened with
      | true =>
          apply restores_bind
          intro res on
          apply restores_on
          apply Prog.Calls.bind
          · exact Prog.Calls.when bufHeap ⟨rfl, fun _ => trivial⟩
          · intro _
            exact ⟨rfl, fun _ => ⟨rfl, fun _ => trivial⟩⟩
      | false =>
          apply restores_bind
          intro _ on
          exact restores_on trivial

theorem getVerifyImgInfo_restores (h : ImgHeaders) (fin : Option Bytes)
    (isPacked : Option (BitVec 32)) {on : Protection → Bool} (start : ∀ k, on k = true) :
    Restores fileSets (getVerifyImgInfo h fin isPacked) on := by
  cases fin with
  | none => exact start
  | some fin =>
      cases isPacked with
      | none => exact start
      | some isPacked =>
          unfold getVerifyImgInfo
          apply restores_off
          intro on
          apply restores_bind
          intro opened on
          cases opened with
          | false => exact restores_on trivial
          | true =>
              apply restores_bind
              rintro ⟨retSize, isPacked⟩ on
              exact restores_on ⟨rfl, fun _ => trivial⟩

theorem getVerifyImgFooter_restores (h : ImgHeaders) (fin footer : Option Bytes)
    {on : Protection → Bool} (start : ∀ k, on k = true) : Restores fileSets (getVerifyImgFooter h fin footer) on := by
  cases fin with
  | none => exact start
  | some fin =>
      cases footer with
      | none => exact start
      | some footer =>
          unfold getVerifyImgFooter
          apply restores_off
          intro on
          apply restores_bind
          intro opened on
          cases opened with
          | false => exact restores_on trivial
          | true =>
              apply restores_bind
              intro footer on
              exact restores_on ⟨rfl, fun _ => trivial⟩

theorem open_quiet (f : Nv.NvFile) : Quiet nvSets (Nv.open_ f) :=
  ⟨rfl, fun _ => trivial⟩

theorem lseek_quiet (f : Nv.NvFile) : Quiet nvSets (Nv.lseek f) :=
  ⟨rfl, fun _ => trivial⟩

theorem read_quiet (f : Nv.NvFile) (count : Nat) : Quiet nvSets (Nv.read f count) :=
  ⟨rfl, fun _ => trivial⟩

theorem malloc_quiet (size : Int) (f : Nv.NvFile) : Quiet nvSets (Nv.malloc size f) :=
  ⟨rfl, fun _ => trivial⟩

theorem readCopy_quiet (f : Nv.NvFile) : Quiet nvSets (Nv.readCopy f) := by
  unfold Nv.readCopy
  apply (open_quiet f).bind
  intro opened
  cases opened with
  | false => trivial
  | true =>
      apply (read_quiet f _).bind
      intro got
      split
      · unfold Nv.readPayload
        apply (malloc_quiet _ f).bind
        intro allocated
        cases allocated with
        | false => trivial
        | true => exact ⟨rfl, fun _ => trivial⟩
      · trivial

theorem quiet_close {α : Type} {f : Nv.NvFile} {p : Nv.NvProg α} (rest : Quiet nvSets p) :
    Quiet nvSets (do Nv.close f; p) :=
  ⟨rfl, fun _ => rest⟩

theorem quiet_free {α : Type} {f : Nv.NvFile} {p : Nv.NvProg α} (rest : Quiet nvSets p) :
    Quiet nvSets (do Nv.free f; p) :=
  ⟨rfl, fun _ => rest⟩

theorem finish_restores (org bak : Nv.Copy) {on : Protection → Bool} (start : ∀ k, on k = true) :
    Restores nvSets (Nv.finish org bak) on := by
  unfold Nv.finish
  apply (lseek_quiet .bakPath).restores_bind start
  intro _ on start
  apply (open_quiet .pathOut).restores_bind start
  intro opened on start
  cases opened with
  | false => exact Quiet.restores (quiet_close (quiet_close (quiet_free (quiet_free trivial)))) start
  | true =>
      apply restores_bind
      intro _ on
      apply restores_bind
      intro _ on
      apply restores_bind
      intro result on
      exact nv_restores_on
        (quiet_close (quiet_close (quiet_close (quiet_free (quiet_free trivial)))))

theorem readBackup_restores (org : Nv.Copy) {on : Protection → Bool} (start : ∀ k, on k = true) :
    Restores nvSets (Nv.readBackup org) on := by
  unfold Nv.readBackup
  apply (lseek_quiet .path).restores_bind start
  intro _ on start
  apply (readCopy_quiet .bakPath).restores_bind start
  intro bak on start
  cases bak with
  | notOpened => exact Quiet.restores (quiet_close (quiet_free trivial)) start
  | noBuffer => exact Quiet.restores (quiet_close (quiet_close (quiet_free trivial))) start
  | copy bak => exact finish_restores org bak start

theorem readNvPartition_restores {on : Protection → Bool} (start : ∀ k, on k = true) :
    Restores nvSets Nv.readNvPartition on := by
  unfold Nv.readNvPartition
  apply (readCopy_quiet .path).restores_bind start
  intro org on start
  cases org with
  | notOpened => exact start
  | noBuffer => exact Quiet.restores (quiet_close trivial) start
  | copy org => exact readBackup_restores org start

theorem Returned.restored {h : ImgHeaders} {l : List (Protection × Bool)}
    (returned : Returned h l) : Restored l := by
  cases returned with
  | modemLoadCpCmdline taken => exact (modemLoadCpCmdline_restores _ _ _ _).restored taken
  | modemLoadImage taken => exact (modemLoadImage_restores _ _ _ _ _ _).restored taken
  | readNvPartition taken => exact (readNvPartition_restores fun _ => rfl).restored taken
  | getVerifyImgInfo taken => exact (getVerifyImgInfo_restores h _ _ fun _ => rfl).restored taken
  | getVerifyImgFooter taken => exact (getVerifyImgFooter_restores h _ _ fun _ => rfl).restored taken

/-- Every function that comes back has set both protections on after it set them off; so
    with nodes that always open, or never do, any calls of them in turn leave enabled
    what was enabled. -/
theorem protections_restored (h : ImgHeaders) :
    (∀ l, Returned h l → Restored l) ∧
      ∀ (opens : Protection → Bool) (devices : Protection → Device)
        (calls : List (List (Protection × Bool))), (∀ l ∈ calls, Returned h l) →
        (∀ k, (devices k).enabled = true) →
          ∀ k, (applyAll opens devices calls.flatten k).enabled = true := by
  constructor
  · intro l returned
    exact returned.restored
  · intro opens devices calls returned start k
    have restored : Restored calls.flatten :=
      restored_flatten fun l member => (returned l member).restored
    exact restored.enabled (Or.inl (start k))

/-- A header that cannot be opened, on a device that has both nodes. -/
def notOpened : List (Event FileOp FileOp.Res) :=
  [⟨.enableBusmonitor false, some ()⟩, ⟨.enableDmcMpu false, some ()⟩,
    ⟨.open_ .fd (bytes "/dev/modem"), some false⟩, ⟨.enableBusmonitor true, some ()⟩,
    ⟨.enableDmcMpu true, some ()⟩]

def noHeaders : ImgHeaders := ⟨512, fun _ => ⟨0, 0, 0⟩, 64⟩

theorem notOpened_taken :
    (getVerifyImgInfo noHeaders (some (bytes "/dev/modem")) (some 0)).follow notOpened =
      some (0, some 0) := by
  rfl

theorem protections_restored_notOpened :
    Restored (settings fileSets notOpened) ∧
      (applyAll (fun _ => true) (fun _ => {}) [settings fileSets notOpened].flatten
        .busmonitor).enabled = true := by
  have returned : Returned noHeaders (settings fileSets notOpened) := .getVerifyImgInfo notOpened_taken
  obtain ⟨each, all⟩ := protections_restored noHeaders
  refine ⟨each _ returned, all _ _ _ ?_ (fun _ => rfl) .busmonitor⟩
  intro l member
  obtain rfl := List.mem_singleton.mp member
  exact returned

end ModemControl.Protections
