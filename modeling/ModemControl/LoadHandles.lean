import ModemControl.BootCode
import ModemControl.Foundation.Ledger
import ModemControl.KbcTables
import ModemControl.LoadSizes
import ModemControl.PciePaths
import ModemControl.RemoteFlag
import ModemControl.SecureVerify

/-! # What a load opens and allocates

The functions of a load open files, and three of them allocate buffers. They close what they
open, and free what they allocate: only `modem_load_image`, which frees its buffer where it
leaves by the label, does not where one of its two files cannot be opened.
-/

namespace ModemControl.LoadHandles

open Foundation Load LoadFiles

def openProcFile (file : Bytes) : Nat → FileProg Bool
  | 0 => return false
  | tries + 1 => do
      if ← open_ .fd file then return true else openProcFile file tries

/-- Behind the open, up to the label `leave`. -/
def writeAt (offset : Nat) (string : Bytes) : FileProg Int := do
  let moved ← lseek .fd offset .set
  if moved ≠ offset then return -1
  else
    let wrote ← write .fd string
    if wrote ≠ string.length then return -1 else return 0

def writeProcFile (file : Bytes) (offset : Nat) (string : Bytes) : FileProg Int := do
  if ← openProcFile file 6 then
    let res ← writeAt offset string
    close .fd
    return res
  else return -1

def modemCtrlEnableWakeLock (bEnable : Bool) : FileProg Unit := do
  if ← open_ .fd (bytes (if bEnable then "/sys/power/wake_lock" else "/sys/power/wake_unlock")) then
    let _ ← write .fd (frame (bytes "modem_control"))
    close .fd
  else return ()

def modemWriteFile (file str : Bytes) : FileProg Int := do
  if ← open_ .fd file then
    let size ← write .fd str
    close .fd
    if size ≠ str.length then return -2 else return 0
  else return -1

/-- The change of the owner in front takes nothing. -/
def modemRescanEpDevice (paths : PciePaths.Paths) : FileProg Int := do
  let ret ← modemWriteFile paths.deviceRemove (bytes "1")
  if ret ≠ 0 then return ret
  else
    let ret ← modemWriteFile paths.bridgeRemove (bytes "1")
    if ret ≠ 0 then return ret else modemWriteFile paths.rescan (bytes "1")

def modemCheckCmdline (value : Bytes) : FileProg Bool := do
  if ← open_ .fd (bytes "/proc/cmdline") then
    let got ← read .fd CPCMDLINE_SIZE
    close .fd
    return match got with
      | none => false
      | some cmdline => strstr (cstr cmdline) value
  else return false

/-- The variables for descriptors, and the one for a buffer. -/
inductive Var where
  | file (f : Fd)
  | heap
  deriving Repr, DecidableEq

def Var.isBlock : Var → Bool
  | .file _ => false
  | .heap => true

def files : Ledger FileOp FileOp.Res Var where
  takes
    | .open_ f _ => some (.file f)
    | .malloc _ => some .heap
    | _ => none
  succeeds
    | .open_ _ _, opened => opened
    | .malloc _, got => got
    | _, _ => false
  gives
    | .close f => some (.file f)
    | .free => some .heap
    | _ => none
  drops _ := none

def images : Ledger ImgInfo.ImgOp ImgInfo.ImgOp.Res Var where
  takes
    | .open_ _ => some (.file .fdin)
    | _ => none
  succeeds
    | .open_ _, opened => opened
    | _, _ => false
  gives
    | .close => some (.file .fdin)
    | _ => none
  drops _ := none

def devices : Ledger RemoteFlag.IoOp RemoteFlag.IoOp.Res Var where
  takes
    | .open_ _ => some (.file .fd)
    | _ => none
  succeeds
    | .open_ _, opened => opened
    | _, _ => false
  gives
    | .close => some (.file .fd)
    | _ => none
  drops _ := none

/-- `free` is called there with a pointer that may be NULL. -/
def checks : Ledger SecureVerify.SecureOp SecureVerify.SecureOp.Res Var where
  takes
    | .open_ _ => some (.file .fdin)
    | .malloc _ => some .heap
    | _ => none
  succeeds
    | .open_ _, opened => opened
    | .malloc _, got => got.isSome
    | _, _ => false
  gives
    | .close => some (.file .fdin)
    | _ => none
  drops
    | .free => some .heap
    | _ => none

/-- The descriptors and the buffers of `read_nv_partition`. -/
inductive NvVar where
  | file (f : Nv.NvFile)
  | buf (f : Nv.NvFile)
  deriving Repr, DecidableEq

def NvVar.isBlock : NvVar → Bool
  | .file _ => false
  | .buf _ => true

def copies : Ledger Nv.NvOp Nv.NvOp.Res NvVar where
  takes
    | .open_ f => some (.file f)
    | .malloc _ f => some (.buf f)
    | _ => none
  succeeds
    | .open_ _, opened => opened
    | .malloc _ _, got => got
    | _, _ => false
  gives
    | .close f => some (.file f)
    | .free f => some (.buf f)
    | _ => none
  drops _ := none

section

variable {α : Type} {p q : FileProg α} {post : α → Finset Var → Prop} {held : Finset Var} {f : Fd}

/-- An open with both of its outcomes. -/
theorem meets_open {path : Bytes} (free : Var.file f ∉ held)
    (opened : p.Meets files.monitor post (insert (Var.file f) held))
    (refused : q.Meets files.monitor post held) :
    (do if ← open_ f path then p else q).Meets files.monitor post held := by
  apply Ledger.meets_take rfl rfl free
  · intro done same
    obtain rfl : done = true := same
    exact opened
  · intro done same
    obtain rfl : done = false := same
    exact refused

theorem meets_close (free : Var.file f ∉ held) (rest : p.Meets files.monitor post held) :
    (do close f; p).Meets files.monitor post (insert (Var.file f) held) := by
  apply Ledger.meets_give rfl rfl (Finset.mem_insert_self _ _)
  intro _
  rw [Finset.erase_insert free]
  exact rest

theorem close_meets (free : Var.file f ∉ held) :
    (close f).Meets files.monitor (fun _ after => after = held) (insert (Var.file f) held) :=
  ⟨Ledger.lets_give rfl rfl (Finset.mem_insert_self _ _), fun _ => Finset.erase_insert free⟩

/-- Both protections are switched, which takes nothing. -/
theorem meets_switch {on : Bool} (rest : p.Meets files.monitor post held) :
    (do enableBusmonitor on; enableDmcMpu on; p).Meets files.monitor post held := by
  apply Ledger.meets_quiet ⟨rfl, rfl, rfl⟩
  intro _
  apply Ledger.meets_quiet ⟨rfl, rfl, rfl⟩
  intro _
  exact rest

end

theorem openProcFile_held {file : Bytes} {tries : Nat} :
    (openProcFile file tries).Meets files.monitor
      (fun opened held => held = if opened then {Var.file .fd} else ∅) ∅ := by
  induction tries with
  | zero => rfl
  | succ tries ih => exact meets_open (Finset.notMem_empty _) rfl ih

theorem writeAt_quiet (offset : Nat) (string : Bytes) :
    (writeAt offset string).Calls files.Quiet := by
  unfold writeAt
  apply Prog.Calls.call ⟨rfl, rfl, rfl⟩
  intro moved
  split
  · trivial
  · apply Prog.Calls.call ⟨rfl, rfl, rfl⟩
    intro wrote
    split <;> trivial

theorem writeProcFile_keeps (file : Bytes) (offset : Nat) (string : Bytes) :
    files.Keeps (writeProcFile file offset string) ∅ := by
  apply openProcFile_held.bind
  intro opened held same
  subst same
  cases opened with
  | false => rfl
  | true =>
      apply (Ledger.keeps_quiet (writeAt_quiet offset string) _).bind
      intro res
      apply meets_close (Finset.notMem_empty _)
      rfl

theorem modemCtrlEnableWakeLock_keeps (bEnable : Bool) :
    files.Keeps (modemCtrlEnableWakeLock bEnable) ∅ := by
  apply meets_open (Finset.notMem_empty _)
  · apply Ledger.meets_quiet ⟨rfl, rfl, rfl⟩
    intro wrote
    exact close_meets (Finset.notMem_empty _)
  · rfl

theorem modemWriteFile_keeps (file str : Bytes) : files.Keeps (modemWriteFile file str) ∅ := by
  apply meets_open (Finset.notMem_empty _)
  · apply Ledger.meets_quiet ⟨rfl, rfl, rfl⟩
    intro size
    apply meets_close (Finset.notMem_empty _)
    split <;> rfl
  · rfl

theorem modemRescanEpDevice_keeps (paths : PciePaths.Paths) :
    files.Keeps (modemRescanEpDevice paths) ∅ := by
  apply (modemWriteFile_keeps _ _).bind
  intro ret
  split
  · rfl
  · apply (modemWriteFile_keeps _ _).bind
    intro ret
    split
    · rfl
    · exact modemWriteFile_keeps _ _

theorem modemCheckCmdline_keeps (value : Bytes) : files.Keeps (modemCheckCmdline value) ∅ := by
  apply meets_open (Finset.notMem_empty _)
  · apply Ledger.meets_quiet ⟨rfl, rfl, rfl⟩
    intro got
    apply meets_close (Finset.notMem_empty _)
    rfl
  · rfl

theorem modemLoadCpBootCode_keeps (img : ModemHead.ModemImageInfo) (fout : Bytes) :
    files.Keeps (ModemHead.modemLoadCpBootCode img fout) ∅ := by
  unfold ModemHead.modemLoadCpBootCode
  split
  · exact ⟨Ledger.lets_free rfl rfl, Empty.rec⟩
  · apply meets_open (Finset.notMem_empty _)
    · apply Ledger.meets_quiet ⟨rfl, rfl, rfl⟩
      intro wsize
      apply meets_close (Finset.notMem_empty _)
      rfl
    · rfl

theorem fdin_fdout : Var.file .fdout ∉ ({.file .fdin} : Finset Var) := by
  decide

theorem writeCmdline_keeps (fout : Bytes) (str : Option Bytes) :
    (writeCmdline fout str).Meets files.monitor (fun _ held => held = ∅) {.file .fdin} := by
  apply meets_open fdin_fdout
  · cases str with
    | none => exact ⟨Ledger.lets_free rfl rfl, Empty.rec⟩
    | some str =>
        apply Ledger.meets_quiet ⟨rfl, rfl, rfl⟩
        intro wsize
        apply meets_switch
        rw [Finset.pair_comm]
        apply meets_close
        · decide
        · apply meets_close (Finset.notMem_empty _)
          rfl
  · apply meets_close (Finset.notMem_empty _)
    exact meets_switch rfl

theorem modemLoadCpCmdline_keeps (simlock : Bool) (fin fout : Bytes) :
    files.Keeps (modemLoadCpCmdline simlock fin fout) ∅ := by
  apply meets_switch
  apply meets_open (Finset.notMem_empty _)
  · apply Ledger.meets_quiet ⟨rfl, rfl, rfl⟩
    intro got
    dsimp only
    have added : (addSimlock simlock (cstr (got.getD [])) (afterModem (cstr (got.getD [])))).Calls
        files.Quiet := by
      unfold addSimlock
      split
      · split
        · exact ⟨⟨rfl, rfl, rfl⟩, Empty.rec⟩
        · exact ⟨⟨rfl, rfl, rfl⟩, fun _ => trivial⟩
      · trivial
    apply (Ledger.keeps_quiet added _).bind
    intro str
    exact writeCmdline_keeps fout str
  · exact meets_switch rfl

theorem getVerifyImgInfo_keeps (h : ImgHeaders) (fin : Option Bytes) (isPacked : Option (BitVec 32)) :
    files.Keeps (getVerifyImgInfo h fin isPacked) ∅ := by
  unfold getVerifyImgInfo
  split
  · rename_i fin isPacked
    have read : (readImgHeader h isPacked).Calls files.Quiet := by
      unfold readImgHeader
      apply Prog.Calls.call ⟨rfl, rfl, rfl⟩
      intro moved
      split
      · trivial
      · apply Prog.Calls.call ⟨rfl, rfl, rfl⟩
        intro got
        dsimp only
        split
        · trivial
        · split <;> trivial
    apply meets_switch
    apply meets_open (Finset.notMem_empty _)
    · apply (Ledger.keeps_quiet read _).bind
      intro answer
      apply meets_switch
      apply meets_close (Finset.notMem_empty _)
      rfl
    · exact meets_switch rfl
  · rfl

theorem getVerifyImgFooter_keeps (h : ImgHeaders) (fin footer : Option Bytes) :
    files.Keeps (getVerifyImgFooter h fin footer) ∅ := by
  unfold getVerifyImgFooter
  split
  · rename_i fin footer
    have read : (readFooter h footer).Calls files.Quiet := by
      unfold readFooter
      apply Prog.Calls.call ⟨rfl, rfl, rfl⟩
      intro ended
      dsimp only
      split
      · trivial
      · apply Prog.Calls.call ⟨rfl, rfl, rfl⟩
        intro moved
        split
        · trivial
        · exact ⟨⟨rfl, rfl, rfl⟩, fun _ => trivial⟩
    apply meets_switch
    apply meets_open (Finset.notMem_empty _)
    · apply (Ledger.keeps_quiet read _).bind
      intro answer
      apply meets_switch
      apply meets_close (Finset.notMem_empty _)
      rfl
    · exact meets_switch rfl
  · rfl

theorem getModemImgInfo_keeps (img : ImageLoad) (secureOffset : BitVec 32) :
    images.Keeps (ImgInfo.getModemImgInfo img secureOffset) ∅ := by
  unfold ImgInfo.getModemImgInfo
  split
  · apply Ledger.meets_take rfl rfl (Finset.notMem_empty _)
    · intro opened done
      obtain rfl : opened = true := done
      apply Ledger.meets_quiet ⟨rfl, rfl, rfl⟩
      intro moved
      split
      · apply Ledger.meets_give rfl rfl (Finset.mem_insert_self _ _)
        intro _
        rfl
      · apply Ledger.meets_quiet ⟨rfl, rfl, rfl⟩
        intro got
        apply Ledger.meets_give rfl rfl (Finset.mem_insert_self _ _)
        intro _
        rfl
    · intro opened done
      obtain rfl : opened = false := done
      rfl
  · rfl

theorem use_quiet (var : Option (BitVec 64)) : (ImgInfo.use var).Calls images.Quiet := by
  cases var with
  | some value => trivial
  | none => exact ⟨⟨rfl, rfl, rfl⟩, fun _ => trivial⟩

theorem modemGetPatitonInfo_keeps (img : ImageLoad) :
    images.Keeps (ImgInfo.modemGetPatitonInfo img) ∅ := by
  apply (getModemImgInfo_keeps img 0).bind
  intro info
  apply (Ledger.keeps_quiet (use_quiet _) _).bind
  intro size
  rfl

theorem secureBootGetPatitonInfo_keeps (b : Build) (h : ImgHeaders) (img : ImageLoad) :
    images.Keeps (LoadSizes.secureBootGetPatitonInfo b h img) ∅ := by
  apply (getModemImgInfo_keeps img _).bind
  intro info
  apply (Ledger.keeps_quiet (use_quiet _) _).bind
  intro size
  rfl

theorem modemIocmd_keeps (cmd : ModemCmd) (path : Bytes) :
    devices.Keeps (RemoteFlag.modemIocmd cmd path) ∅ := by
  apply Ledger.meets_take rfl rfl (Finset.notMem_empty _)
  · intro opened done
    obtain rfl : opened = true := done
    apply Ledger.meets_quiet ⟨rfl, rfl, rfl⟩
    intro ret
    apply Ledger.meets_give rfl rfl (Finset.mem_insert_self _ _)
    intro _
    rfl
  · intro opened done
    obtain rfl : opened = false := done
    rfl

theorem secureVerify_quiet (k : SecureVerify.Keys) (data : SecureVerify.Memory) :
    (SecureVerify.secureVerify k data).Calls checks.Quiet := by
  unfold SecureVerify.secureVerify
  split
  · split
    · exact ⟨⟨rfl, rfl, rfl⟩, Empty.rec⟩
    · exact ⟨⟨rfl, rfl, rfl⟩, fun _ => trivial⟩
  · trivial

/-- At the label `leave` the file is open, and there may be a buffer. -/
theorem readAndVerify_held (k : SecureVerify.Keys) (offsetin size : Int) :
    (SecureVerify.readAndVerify k offsetin size).Meets checks.monitor
      (fun _ held => held = {Var.file .fdin} ∨ held = {Var.heap, Var.file .fdin})
      {Var.file .fdin} := by
  apply Ledger.meets_quiet ⟨rfl, rfl, rfl⟩
  intro moved
  split
  · exact Or.inl rfl
  · apply @Ledger.meets_take _ _ _ _ checks _ _ _ _ _ Var.heap rfl rfl (by decide)
    · intro behind done
      cases behind with
      | none => cases done
      | some memory =>
          apply Ledger.meets_quiet ⟨rfl, rfl, rfl⟩
          intro got
          dsimp only
          split
          · exact Or.inr rfl
          · apply (Ledger.keeps_quiet (secureVerify_quiet k _) _).bind
            intro _
            exact Or.inr rfl
    · intro behind done
      cases behind with
      | none => exact Or.inl rfl
      | some memory => cases done

theorem modemVerifyImage_keeps (k : SecureVerify.Keys) (fin : Bytes) (offsetin size : Int) :
    checks.Keeps (SecureVerify.modemVerifyImage k fin offsetin size) ∅ := by
  apply Ledger.meets_take rfl rfl (Finset.notMem_empty _)
  · intro opened done
    obtain rfl : opened = true := done
    apply (readAndVerify_held k offsetin size).bind
    intro ret held verified
    apply @Ledger.meets_give _ _ _ _ checks _ _ _ _ _ (Var.file .fdin) rfl rfl
    · rcases verified with rfl | rfl <;> decide
    · intro _
      apply @Ledger.meets_drop _ _ _ _ checks _ _ _ _ _ Var.heap rfl rfl rfl
      intro _
      rcases verified with rfl | rfl <;> rfl
  · intro opened done
    obtain rfl : opened = false := done
    rfl

section

open Nv (NvFile)

variable {α : Type} {p q : Nv.NvProg α} {post : α → Finset NvVar → Prop} {held : Finset NvVar}
  {f : NvFile}

theorem nv_open (free : .file f ∉ held) (opened : p.Meets copies.monitor post (insert (.file f) held))
    (refused : q.Meets copies.monitor post held) :
    (do if ← Nv.open_ f then p else q).Meets copies.monitor post held := by
  apply Ledger.meets_take rfl rfl free
  · intro done same
    obtain rfl : done = true := same
    exact opened
  · intro done same
    obtain rfl : done = false := same
    exact refused

theorem nv_close (there : .file f ∈ held)
    (rest : p.Meets copies.monitor post (held.erase (.file f))) :
    (do Nv.close f; p).Meets copies.monitor post held := by
  apply Ledger.meets_give rfl rfl there
  intro _
  exact rest

theorem nv_free (there : .buf f ∈ held)
    (rest : p.Meets copies.monitor post (held.erase (.buf f))) :
    (do Nv.free f; p).Meets copies.monitor post held := by
  apply Ledger.meets_give rfl rfl there
  intro _
  exact rest

/-- What is held behind the reading of a copy. -/
def afterCopy (f : NvFile) (held : Finset NvVar) : Nv.CopyRead → Finset NvVar
  | .notOpened => held
  | .noBuffer => insert (.file f) held
  | .copy _ => insert (.buf f) (insert (.file f) held)

theorem readPayload_held (header : Bytes) (free : .buf f ∉ insert (.file f) held) :
    (Nv.readPayload f header).Meets copies.monitor (fun c after => after = afterCopy f held c)
      (insert (.file f) held) := by
  apply Ledger.meets_take rfl rfl free
  · intro allocated same
    obtain rfl : allocated = true := same
    apply Ledger.meets_quiet ⟨rfl, rfl, rfl⟩
    intro got
    rfl
  · intro allocated same
    obtain rfl : allocated = false := same
    rfl

theorem readCopy_held (free : .file f ∉ held) (free' : .buf f ∉ insert (.file f) held) :
    (Nv.readCopy f).Meets copies.monitor (fun c after => after = afterCopy f held c) held := by
  apply nv_open free
  · apply Ledger.meets_quiet ⟨rfl, rfl, rfl⟩
    intro got
    split
    · exact readPayload_held _ free'
    · rfl
  · rfl

theorem restore_quiet (src : Nv.Copy) (dst : NvFile) : (Nv.restore src dst).Calls copies.Quiet := by
  apply Prog.Calls.call ⟨rfl, rfl, rfl⟩
  intro ret
  split
  · exact ⟨⟨rfl, rfl, rfl⟩, fun _ => trivial⟩
  · trivial

theorem repair_quiet (org bak : Nv.Copy) : (Nv.repair org bak).Calls copies.Quiet := by
  have deliver (src : Nv.Copy) : (Nv.deliver src).Calls copies.Quiet :=
    ⟨⟨rfl, rfl, rfl⟩, fun _ => trivial⟩
  unfold Nv.repair
  split
  · exact ⟨⟨rfl, rfl, rfl⟩, fun _ => trivial⟩
  · exact (restore_quiet _ _).bind fun _ => deliver _
  · exact (restore_quiet _ _).bind fun _ => deliver _
  · exact deliver _
  · trivial

theorem finish_held (org bak : Nv.Copy) :
    (Nv.finish org bak).Meets copies.monitor (fun _ after => after = ∅)
      {.buf .bakPath, .file .bakPath, .buf .path, .file .path} := by
  apply Ledger.meets_quiet ⟨rfl, rfl, rfl⟩
  intro _
  apply nv_open (by decide)
  · apply Ledger.meets_quiet ⟨rfl, rfl, rfl⟩
    intro _
    apply Ledger.meets_quiet ⟨rfl, rfl, rfl⟩
    intro _
    apply (Ledger.keeps_quiet (repair_quiet org bak) _).bind
    intro result
    apply Ledger.meets_quiet ⟨rfl, rfl, rfl⟩
    intro _
    apply Ledger.meets_quiet ⟨rfl, rfl, rfl⟩
    intro _
    apply nv_close (by decide)
    apply nv_close (by decide)
    apply nv_close (by decide)
    apply nv_free (by decide)
    apply nv_free (by decide)
    rfl
  · apply nv_close (by decide)
    apply nv_close (by decide)
    apply nv_free (by decide)
    apply nv_free (by decide)
    rfl

theorem readBackup_held (org : Nv.Copy) :
    (Nv.readBackup org).Meets copies.monitor (fun _ after => after = ∅)
      {.buf .path, .file .path} := by
  apply Ledger.meets_quiet ⟨rfl, rfl, rfl⟩
  intro _
  apply (readCopy_held (by decide) (by decide)).bind
  intro c after same
  subst same
  cases c with
  | notOpened =>
      apply nv_close (by decide)
      apply nv_free (by decide)
      rfl
  | noBuffer =>
      apply nv_close
      · decide
      apply nv_close
      · decide
      apply nv_free
      · decide
      rfl
  | copy bak => exact finish_held org bak

theorem readNvPartition_keeps : copies.Keeps Nv.readNvPartition ∅ := by
  apply (readCopy_held (Finset.notMem_empty _) (by decide)).bind
  intro c after same
  subst same
  cases c with
  | notOpened => rfl
  | noBuffer =>
      apply nv_close (Finset.mem_insert_self _ _)
      rfl
  | copy org => exact readBackup_held org

end

/-- Whether there was a buffer to be had, and whether one of the two files could not be
    opened. -/
structure ImageNotes where
  allocated : Bool := false
  refused : Bool := false
  deriving Repr, DecidableEq

def imageNote (n : ImageNotes) : (op : FileOp) → op.Res → ImageNotes
  | .malloc _, got => { n with allocated := n.allocated || got }
  | .open_ .fdin _, opened => { n with refused := n.refused || !opened }
  | .open_ .fdout _, opened => { n with refused := n.refused || !opened }
  | _, _ => n

/-- What is lost of a load: its buffer, if a file was refused. -/
def ImageNotes.lost (n : ImageNotes) : Finset Var := if n.allocated && n.refused then {.heap} else ∅

abbrev imageMonitor : Monitor FileOp FileOp.Res (Finset Var × ImageNotes) := files.monitor.noting imageNote

/-- Nothing is taken, given back or noted. -/
def Silent (op : FileOp) : Prop := files.Quiet op ∧ ∀ n r, imageNote n op r = n

section

variable {α β : Type} {p q : FileProg α} {f : α → FileProg β} {held : Finset Var} {n : ImageNotes}

theorem silent_noted {post : β → Finset Var × ImageNotes → Prop} (silent : p.Calls Silent)
    (rest : ∀ a, (f a).Meets imageMonitor post (held, n)) : (p >>= f).Meets imageMonitor post (held, n) := by
  have keeps : files.Keeps p held := Ledger.keeps_quiet (silent.mono fun _ silent => silent.1) held
  apply (keeps.noting n (silent.mono fun _ silent => silent.2 n)).bind
  rintro a ⟨after, m⟩ ⟨rfl, rfl⟩
  exact rest a

theorem imageNote_open {v : Fd} (two : v ≠ .fd) (path : Bytes) (opened : Bool) :
    imageNote n (.open_ v path) opened = { n with refused := n.refused || !opened } := by
  cases v with
  | fd => exact absurd rfl two
  | fdin => rfl
  | fdout => rfl

theorem open_noted {post : α → Finset Var × ImageNotes → Prop} {v : Fd} {path : Bytes}
    (free : Var.file v ∉ held) (two : v ≠ .fd)
    (opened : p.Meets imageMonitor post (insert (Var.file v) held, n))
    (refused : q.Meets imageMonitor post (held, { n with refused := true })) :
    (do if ← open_ v path then p else q).Meets imageMonitor post (held, n) := by
  refine ⟨Ledger.lets_take rfl rfl free, ?_⟩
  intro done
  have after : imageMonitor.next (held, n) (.open_ v path) done =
      (if done then insert (Var.file v) held else held, { n with refused := n.refused || !done }) :=
    congrArg (Prod.mk _) (imageNote_open two path done)
  rw [after]
  cases done with
  | true =>
      rw [Bool.not_true, Bool.or_false]
      exact opened
  | false =>
      rw [Bool.not_false, Bool.or_true]
      exact refused

theorem close_noted {post : α → Finset Var × ImageNotes → Prop} {v : Fd}
    (free : Var.file v ∉ held) (rest : p.Meets imageMonitor post (held, n)) :
    (do close v; p).Meets imageMonitor post (insert (Var.file v) held, n) := by
  refine ⟨Ledger.lets_give rfl rfl (Finset.mem_insert_self _ _), ?_⟩
  intro _
  have after : imageMonitor.next (insert (Var.file v) held, n) (.close v) () = (held, n) :=
    congrArg (Prod.mk · n) (Finset.erase_insert free)
  rw [after]
  exact rest

theorem switch_noted {post : α → Finset Var × ImageNotes → Prop} {on : Bool}
    (rest : p.Meets imageMonitor post (held, n)) :
    (do enableBusmonitor on; enableDmcMpu on; p).Meets imageMonitor post (held, n) :=
  ⟨Ledger.lets_free rfl rfl, fun _ => ⟨Ledger.lets_free rfl rfl, fun _ => rest⟩⟩

end

theorem clearLoop_silent (rounds : Nat) (size : BitVec 32) : (clearLoop rounds size).Calls Silent := by
  induction rounds generalizing size with
  | zero => exact ⟨⟨⟨rfl, rfl, rfl⟩, fun _ never => never.elim⟩, Empty.rec⟩
  | succ rounds ih =>
      unfold clearLoop
      dsimp only
      generalize (if size < 8 * 1024 then size else 8 * 1024) = wsize
      apply Prog.Calls.call ⟨⟨rfl, rfl, rfl⟩, fun _ _ => rfl⟩
      intro rval
      split
      · trivial
      · split
        · exact ih _
        · trivial

theorem copyLoop_silent (bufSize : BitVec 32) (rounds : Nat) (size : BitVec 32) :
    (copyLoop bufSize rounds size).Calls Silent := by
  induction rounds generalizing size with
  | zero => exact ⟨⟨⟨rfl, rfl, rfl⟩, fun _ never => never.elim⟩, Empty.rec⟩
  | succ rounds ih =>
      apply Prog.Calls.call ⟨⟨rfl, rfl, rfl⟩, fun _ _ => rfl⟩
      intro got
      split
      · trivial
      · trivial
      · apply Prog.Calls.call ⟨⟨rfl, rfl, rfl⟩, fun _ _ => rfl⟩
        intro wsize
        split
        · trivial
        · split
          · exact ih _
          · trivial

theorem copyImage_silent (rounds : Nat) (offsetin offsetout bufSize size : BitVec 32) :
    (copyImage rounds offsetin offsetout bufSize size).Calls Silent := by
  apply Prog.Calls.call ⟨⟨rfl, rfl, rfl⟩, fun _ _ => rfl⟩
  intro moved
  split
  · trivial
  · apply Prog.Calls.call ⟨⟨rfl, rfl, rfl⟩, fun _ _ => rfl⟩
    intro moved
    split
    · trivial
    · exact copyLoop_silent _ _ _

/-- The region is cleared through a descriptor of its own. -/
theorem modemClearRegion_keeps (rounds : Nat) (fout : Bytes) (size : BitVec 32) {held : Finset Var}
    (free : Var.file .fd ∉ held) : files.Keeps (modemClearRegion rounds fout size) held := by
  apply meets_open free
  · apply (Ledger.keeps_quiet ((clearLoop_silent rounds size).mono fun _ silent => silent.1) _).bind
    intro _
    exact close_meets free
  · rfl

theorem modemClearRegion_unnoted (rounds : Nat) (fout : Bytes) (size : BitVec 32) (n : ImageNotes) :
    (modemClearRegion rounds fout size).Calls fun op => ∀ r, imageNote n op r = n := by
  apply Prog.Calls.call fun _ => rfl
  intro opened
  split
  · apply ((clearLoop_silent rounds size).mono fun _ silent => silent.2 n).bind
    intro _
    exact ⟨fun _ => rfl, fun _ => trivial⟩
  · trivial

/-- The buffer is the one of `malloc`, if there is one. -/
theorem imageBuffer_noted (size : BitVec 32) :
    (imageBuffer size).Meets imageMonitor
      (fun answer m => m = (if answer.2 then {Var.heap} else ∅, { allocated := answer.2 })) (∅, {}) := by
  unfold imageBuffer
  split
  · refine ⟨Ledger.lets_take rfl rfl (Finset.notMem_empty _), ?_⟩
    intro got
    cases got <;> rfl
  · rfl

/-- What is held while there is a buffer, and no file is open. -/
def buffered (bufHeap : Bool) : Finset Var := if bufHeap then {.heap} else ∅

theorem buffered_free (bufHeap : Bool) (v : Fd) : Var.file v ∉ buffered bufHeap := by
  cases bufHeap with
  | true => exact Finset.notMem_singleton.mpr nofun
  | false => exact Finset.notMem_empty _

/-- The way out by the label `leave`. -/
theorem leave_noted (bufHeap : Bool) (res : Int) :
    (do
      Prog.when bufHeap free
      close .fdin
      close .fdout
      return res : FileProg Int).Meets imageMonitor (fun _ m => m.1 = m.2.lost)
      (insert (Var.file .fdout) (insert (Var.file .fdin) (buffered bufHeap)),
        { allocated := bufHeap }) := by
  have closed : (do close .fdin; close .fdout; return res : FileProg Int).Meets imageMonitor
      (fun _ m => m.1 = m.2.lost)
      (insert (Var.file .fdout) (insert (Var.file .fdin) ∅), { allocated := bufHeap }) := by
    rw [Finset.insert_comm]
    apply close_noted
    · decide
    · apply close_noted (Finset.notMem_empty _)
      cases bufHeap <;> rfl
  cases bufHeap with
  | true => exact ⟨Ledger.lets_give rfl rfl (by decide), fun _ => closed⟩
  | false => exact closed

/-- The way out where a file is refused: the buffer stays. -/
theorem refused_noted (bufHeap : Bool) :
    (do
      enableBusmonitor true
      enableDmcMpu true
      return -1 : FileProg Int).Meets imageMonitor (fun _ m => m.1 = m.2.lost)
      (buffered bufHeap, { allocated := bufHeap, refused := true }) := by
  apply switch_noted
  cases bufHeap <;> rfl

theorem modemLoadImage_noted (rounds : Nat) (img : ImageLoad) (offsetin offsetout size : BitVec 32) :
    (LoadFiles.modemLoadImage rounds img offsetin offsetout size).Meets imageMonitor
      (fun _ m => m.1 = m.2.lost) (∅, {}) := by
  apply (imageBuffer_noted size).bind
  intro answer m same
  obtain ⟨bufSize, bufHeap⟩ := answer
  subst same
  have free := buffered_free bufHeap
  have cleared : (Prog.when (getFlag img.flag CLR_FLAG)
      (modemClearRegion rounds img.pathW size)).Meets imageMonitor
      (fun _ m => m = (buffered bufHeap, { allocated := bufHeap }))
      (buffered bufHeap, { allocated := bufHeap }) := by
    apply Prog.Meets.when
    · intro _
      apply ((modemClearRegion_keeps rounds img.pathW size (free .fd)).noting _
        (modemClearRegion_unnoted rounds img.pathW size _)).mono
      rintro _ ⟨after, n⟩ ⟨rfl, rfl⟩
      rfl
    · intro _
      rfl
  apply switch_noted
  apply cleared.bind
  intro _ m same
  subst same
  apply open_noted (free .fdin) nofun
  · apply open_noted
    · rw [Finset.mem_insert, not_or]
      exact ⟨nofun, free .fdout⟩
    · nofun
    · apply silent_noted (copyImage_silent _ _ _ _ _)
      intro res
      apply switch_noted
      exact leave_noted bufHeap res
    · apply close_noted (free .fdin)
      exact refused_noted bufHeap
  · exact refused_noted bufHeap

/-- What a path through it leaves: the buffer where a file was refused, and nothing else. -/
theorem modemLoadImage_left {rounds : Nat} {img : ImageLoad} {offsetin offsetout size : BitVec 32}
    {path : List (Event FileOp FileOp.Res)} {ret : Int}
    (taken : (LoadFiles.modemLoadImage rounds img offsetin offsetout size).follow path = some ret) :
    files.monitor.Accepts ∅ path ∧ files.left path = (Monitor.noted imageNote {} path).lost := by
  obtain ⟨accepts, left⟩ := (modemLoadImage_noted rounds img offsetin offsetout size).follow taken
  rw [Monitor.after_noting] at left
  exact ⟨Monitor.accepts_noting accepts, left⟩

end ModemControl.LoadHandles
