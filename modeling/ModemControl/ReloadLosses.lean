import Mathlib.Data.Finset.Card
import ModemControl.Foundation.Guarded
import ModemControl.LoadHandles

/-! # What is lost over reloads

The daemon loads the modem again and again. What a function has opened or allocated and not
given back when it returns is out of reach from then on.
-/

namespace ModemControl.LoadHandles

open Foundation Load LoadFiles ListenModem

/-- `descriptors` and `blocks` count what is out of reach, and `spoiled` the loads of images
    for which there was a buffer, but not both files. It is `sound` as long as nothing is
    opened or allocated into a variable that still holds something, and nothing closed or
    freed that is not held. -/
structure Process where
  descriptors : Nat := 0
  blocks : Nat := 0
  spoiled : Nat := 0
  sound : Prop := True

section

variable {Op : Type} {Res : Op → Type} {κ α : Type} [DecidableEq κ] [DecidableEq Op]

/-- Behind a function that has taken this path. -/
def Process.leave (s : Process) (L : Ledger Op Res κ) (isBlock : κ → Bool)
    (path : List (Event Op Res)) : Process where
  descriptors := s.descriptors + ((L.left path).filter fun k => isBlock k = false).card
  blocks := s.blocks + ((L.left path).filter fun k => isBlock k = true).card
  spoiled := s.spoiled
  sound := s.sound ∧ L.monitor.Accepts ∅ path

/-- A function returns, on some path. -/
def Does (L : Ledger Op Res κ) (isBlock : κ → Bool) (p : Prog Op Res α) (a : α) (s s' : Process) :
    Prop :=
  ∃ path, p.follow path = some a ∧ s' = s.leave L isBlock path

end

/-- What the loader is built with, and what it finds. -/
structure Setup where
  build : Build
  headers : ImgHeaders
  keys : SecureVerify.Keys
  verify : VerifyTable.Verify
  simlock : Bool
  modemImg : ModemHead.ModemImageInfo
  paths : PciePaths.Paths

def Spoils (path : List (Event FileOp FileOp.Res)) : Bool :=
  (Monitor.noted imageNote {} path).allocated && (Monitor.noted imageNote {} path).refused

def LoadsImage (img : ImageLoad) (offsetin offsetout size : BitVec 32) (ret : Int) (s s' : Process) :
    Prop :=
  ∃ rounds path,
    (LoadFiles.modemLoadImage rounds img offsetin offsetout size).follow path = some ret ∧
    s' = { s.leave files Var.isBlock path with spoiled := s.spoiled + (Spoils path).toNat }

/-- How `secure_boot_load_img` prepares the verification, by the build. -/
def Prepares (c : Setup) (img : ImageLoad) (size : BitVec 64) (s s' : Process) : Prop :=
  if c.build.secureBootEnable then
    ∃ ret, Does checks Var.isBlock
      (SecureVerify.modemVerifyImage c.keys img.pathR 0 (SecureVerify.int size.toNat)) ret s s'
  else if c.build.sprdSecboot then
    ∃ isPacked ret, Does files Var.isBlock
      (getVerifyImgInfo c.headers (some img.pathR) (some isPacked)) ret s s'
  else if (VerifyTable.slotOf c.verify img.pathW).isSome && (KbcTables.parseFileName img.pathR).isSome then
    ∃ footer ret, Does files Var.isBlock
      (getVerifyImgFooter c.headers (some img.pathR) (some footer)) ret s s'
  else s' = s

/-- The calls of the loader. What the libraries of the trusted application take is theirs. -/
def Step (c : Setup) (s : Process) : (op : LoadOp) → op.Res → Process → Prop
  | .iocmd cmd path, ret, s' => Does devices Var.isBlock (RemoteFlag.modemIocmd cmd path) ret s s'
  | .writeProcFile file offset string, ret, s' =>
      Does files Var.isBlock (writeProcFile file offset string) ret s s'
  | .getPatitonInfo img, ret, s' =>
      Does images Var.isBlock (ImgInfo.modemGetPatitonInfo img) ret s s'
  | .modemLoadImage img offsetin offsetout size, ret, s' =>
      LoadsImage img offsetin offsetout size ret s s'
  | .secureBootLoadImg img, ret, s' =>
      ∃ offset size s₁ s₂,
        Does images Var.isBlock (LoadSizes.secureBootGetPatitonInfo c.build c.headers img)
          (offset, size) s s₁ ∧
        Prepares c img size s₁ s₂ ∧
        LoadsImage img offset 0 (size.setWidth 32) ret s₂ s'
  | .loadCpCmdline fin fout, ret, s' =>
      Does files Var.isBlock (LoadFiles.modemLoadCpCmdline c.simlock fin fout) ret s s'
  | .loadCpBootCode fout, ret, s' =>
      Does files Var.isBlock (ModemHead.modemLoadCpBootCode c.modemImg fout) ret s s'
  | .readNvPartition _ _ _, ret, s' => Does copies NvVar.isBlock Nv.readNvPartition ret s s'
  | .rescanEpDevice, ret, s' => Does files Var.isBlock (modemRescanEpDevice c.paths) ret s s'
  | .enableWakeLock bEnable _, ret, s' =>
      Does files Var.isBlock (LoadHandles.modemCtrlEnableWakeLock bEnable) ret s s'
  | .secureBootVerifyAll, _, s' =>
      if c.build.sprdSecboot || c.build.vbootV2 then
        ∃ found, Does files Var.isBlock (modemCheckCmdline (bytes "calibration")) found s s'
      else s' = s
  | .secureBootSetFlag _, _, s' => s' = s
  | .secureBootUnlockDdr, _, s' => s' = s
  | .setModemState _, _, s' => s' = s

/-- The modem is loaded once for each of these types. -/
def reloads (v : Variant) (b : Build) (m : LoadInfo) : List (BitVec 32) → LoadProg Unit
  | [] => return ()
  | loadType :: rest => do
      let _ ← KbcTables.loadModemImg v b m loadType
      reloads v b m rest

/-- No descriptor is out of reach, and as many blocks as loads were spoiled. -/
structure Process.Accounted (s : Process) : Prop where
  descriptors : s.descriptors = 0
  blocks : s.blocks = s.spoiled
  sound : s.sound

section

variable {Op : Type} {Res : Op → Type} {κ α : Type} [DecidableEq κ] [DecidableEq Op]
  {L : Ledger Op Res κ} {isBlock : κ → Bool} {p : Prog Op Res α} {a : α} {s s' : Process}

theorem Process.Accounted.does (accounted : s.Accounted) (keeps : L.Keeps p ∅)
    (does : Does L isBlock p a s s') : s'.Accounted := by
  obtain ⟨path, taken, rfl⟩ := does
  obtain ⟨accepts, left⟩ := keeps.left_eq taken
  constructor
  · simp [leave, left, accounted.descriptors]
  · simp [leave, left, accounted.blocks]
  · exact ⟨accounted.sound, accepts⟩

end

variable {s s' : Process}

theorem lost_counts (n : ImageNotes) :
    (n.lost.filter fun k => k.isBlock = false).card = 0 ∧
      (n.lost.filter fun k => k.isBlock = true).card = (n.allocated && n.refused).toNat := by
  unfold ImageNotes.lost
  cases n.allocated && n.refused <;> decide

theorem Process.Accounted.loadsImage {img : ImageLoad} {offsetin offsetout size : BitVec 32} {ret : Int}
    (accounted : s.Accounted) (loads : LoadsImage img offsetin offsetout size ret s s') :
    s'.Accounted := by
  obtain ⟨rounds, path, taken, rfl⟩ := loads
  obtain ⟨accepts, left⟩ := modemLoadImage_left taken
  obtain ⟨descriptors, blocks⟩ := lost_counts (Monitor.noted imageNote {} path)
  constructor
  · dsimp only [leave]
    rw [left, descriptors, accounted.descriptors]
  · dsimp only [leave]
    rw [left, blocks, accounted.blocks]
    rfl
  · exact ⟨accounted.sound, accepts⟩

theorem Process.Accounted.prepares {c : Setup} {img : ImageLoad} {size : BitVec 64}
    (accounted : s.Accounted) (prepares : Prepares c img size s s') : s'.Accounted := by
  unfold Prepares at prepares
  split at prepares
  · obtain ⟨_, does⟩ := prepares
    exact accounted.does (modemVerifyImage_keeps _ _ _ _) does
  · split at prepares
    · obtain ⟨_, _, does⟩ := prepares
      exact accounted.does (getVerifyImgInfo_keeps _ _ _) does
    · split at prepares
      · obtain ⟨_, _, does⟩ := prepares
        exact accounted.does (getVerifyImgFooter_keeps _ _ _) does
      · rwa [prepares]

/-- Whatever is called. -/
theorem Process.Accounted.step {c : Setup} {op : LoadOp} {r : op.Res} (accounted : s.Accounted)
    (step : Step c s op r s') : s'.Accounted := by
  cases op with
  | iocmd cmd path => exact accounted.does (modemIocmd_keeps _ _) step
  | writeProcFile file offset string => exact accounted.does (writeProcFile_keeps _ _ _) step
  | getPatitonInfo img => exact accounted.does (modemGetPatitonInfo_keeps _) step
  | modemLoadImage img offsetin offsetout size => exact accounted.loadsImage step
  | secureBootLoadImg img =>
      obtain ⟨offset, size, s₁, s₂, info, prepares, loads⟩ := step
      have behind := accounted.does (secureBootGetPatitonInfo_keeps _ _ _) info
      exact (behind.prepares prepares).loadsImage loads
  | loadCpCmdline fin fout => exact accounted.does (modemLoadCpCmdline_keeps _ _ _) step
  | loadCpBootCode fout => exact accounted.does (modemLoadCpBootCode_keeps _ _) step
  | readNvPartition path bakPath pathOut => exact accounted.does readNvPartition_keeps step
  | rescanEpDevice => exact accounted.does (modemRescanEpDevice_keeps _) step
  | enableWakeLock bEnable position =>
      exact accounted.does (modemCtrlEnableWakeLock_keeps _) step
  | secureBootVerifyAll =>
      simp only [Step] at step
      split at step
      · obtain ⟨_, does⟩ := step
        exact accounted.does (modemCheckCmdline_keeps _) does
      · rwa [step]
  | secureBootSetFlag loadType => rwa [step]
  | secureBootUnlockDdr => rwa [step]
  | setModemState state => rwa [step]

end ModemControl.LoadHandles
