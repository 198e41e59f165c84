import ModemControl.Load
import ModemControl.NvRead

/-! # modem_load.c and secure_boot_load.c: the functions that read and write files

`modem_load_cp_cmdline`, `modem_clear_region`, `modem_load_image`, `get_verify_img_info`
and `get_verify_img_footer` as programs over their files. The outcome of every call is
left to the environment. A descriptor is named by the variable it is kept in; logs are
left out.
-/

namespace ModemControl.LoadFiles

open Foundation Load

inductive Fd where
  | fd
  | fdin
  | fdout
  deriving Repr, DecidableEq

inductive Whence where
  | set
  | end_
  deriving Repr, DecidableEq

/-- The calls. `fault` stands for the use of a pointer that points nowhere, and `more` for
    the rounds of a loop beyond those a run is looked at for: from neither the function
    comes back. -/
inductive FileOp where
  | open_ (f : Fd) (path : Bytes)
  | lseek (f : Fd) (offset : Int) (whence : Whence)
  | read (f : Fd) (count : Int)
  | write (f : Fd) (data : Bytes)
  | close (f : Fd)
  | malloc (size : BitVec 32)
  | free
  | enableBusmonitor (bEnable : Bool)
  | enableDmcMpu (bEnable : Bool)
  | addSpukCmdline (str : Bytes)
  | fault
  | more
  deriving Repr, DecidableEq

/-- `open` and `malloc` answer whether they succeed, `read` the bytes it got and nothing
    for -1, `lseek` and `write` their result, `add_spuk_cmdline` the string it leaves. -/
abbrev FileOp.Res : FileOp → Type
  | .open_ _ _ => Bool
  | .lseek _ _ _ => Int
  | .read _ _ => Option Bytes
  | .write _ _ => Int
  | .malloc _ => Bool
  | .addSpukCmdline _ => Bytes
  | .fault => Empty
  | .more => Empty
  | _ => Unit

abbrev FileProg (α : Type) : Type := Prog FileOp FileOp.Res α

def open_ (f : Fd) (path : Bytes) : FileProg Bool := .call (.open_ f path) .ret
def lseek (f : Fd) (offset : Int) (whence : Whence) : FileProg Int :=
  .call (.lseek f offset whence) .ret
def read (f : Fd) (count : Int) : FileProg (Option Bytes) := .call (.read f count) .ret
def write (f : Fd) (data : Bytes) : FileProg Int := .call (.write f data) .ret
def close (f : Fd) : FileProg Unit := .call (.close f) .ret
def malloc (size : BitVec 32) : FileProg Bool := .call (.malloc size) .ret
def free : FileProg Unit := .call .free .ret
def enableBusmonitor (bEnable : Bool) : FileProg Unit := .call (.enableBusmonitor bEnable) .ret
def enableDmcMpu (bEnable : Bool) : FileProg Unit := .call (.enableDmcMpu bEnable) .ret
def addSpukCmdline (str : Bytes) : FileProg Bytes := .call (.addSpukCmdline str) .ret
def fault {α : Type} : FileProg α := .call .fault Empty.elim
def more {α : Type} : FileProg α := .call .more Empty.elim

def CPCMDLINE_SIZE : Nat := 0x1000

/-- The text `str` points to: what is behind the `modem=` word, or all of it without such a
    word. When that word is the last one `strchr` finds no blank, and `str` is NULL plus one. -/
def afterModem (cmdline : Bytes) : Option Bytes :=
  match findStr cmdline (bytes "modem=") with
  | none => some cmdline
  | some str =>
      match str.dropWhile (· != 32) with
      | [] => none
      | _ :: rest => some rest

/-- The block under SIMLOCK_AP_READ_EFUSE, when the build has it. -/
def addSimlock (simlock : Bool) (cmdline : Bytes) (str : Option Bytes) : FileProg (Option Bytes) :=
  if simlock && !strstr cmdline (bytes "calibration=") then
    match str with
    | none => fault
    | some str => do
        let str ← addSpukCmdline str
        return some str
  else return str

/-- From the second open on. A pointer that is wrong is first used for the length of what is
    to be written. -/
def writeCmdline (fout : Bytes) (str : Option Bytes) : FileProg Int := do
  if ← open_ .fdout fout then
    match str with
    | none => fault
    | some str =>
        let wsize ← write .fdout (frame str)
        enableBusmonitor true
        enableDmcMpu true
        close .fdin
        close .fdout
        return wsize
  else
    close .fdin
    enableBusmonitor true
    enableDmcMpu true
    return -1

def modemLoadCpCmdline (simlock : Bool) (fin fout : Bytes) : FileProg Int := do
  enableBusmonitor false
  enableDmcMpu false
  if ← open_ .fdin fin then
    let got ← read .fdin (CPCMDLINE_SIZE - 1)
    -- a read that fails leaves the zeroed buffer, and so the empty text
    let cmdline := cstr (got.getD [])
    let str ← addSimlock simlock cmdline (afterModem cmdline)
    writeCmdline fout str
  else
    enableBusmonitor true
    enableDmcMpu true
    return -1

def CLR_FLAG : Nat := 31

/-- The loop of `modem_clear_region`, for at most this many rounds. -/
def clearLoop : Nat → BitVec 32 → FileProg Unit
  | 0, _ => more
  | rounds + 1, size => do
      let wsize : BitVec 32 := if size < 8 * 1024 then size else 8 * 1024
      let rval ← write .fd (List.replicate wsize.toNat 0)
      if rval ≤ 0 then return ()
      else if 0 < size - wsize then clearLoop rounds (size - wsize)
      else return ()

def modemClearRegion (rounds : Nat) (fout : Bytes) (size : BitVec 32) : FileProg Unit := do
  if ← open_ .fd fout then
    clearLoop rounds size
    close .fd
  else return ()

/-- The copy loop, for at most this many rounds. Its value is what `res` is then. -/
def copyLoop (bufSize : BitVec 32) : Nat → BitVec 32 → FileProg Int
  | 0, _ => more
  | rounds + 1, size => do
      let rsize := if size < bufSize then size else bufSize
      match ← read .fdin rsize.toInt with
      | none => return -1
      | some [] => return -1
      | some buf =>
          let wsize ← write .fdout buf
          if wsize ≤ 0 then return -1
          else if 0 < size - BitVec.ofNat 32 buf.length then
            copyLoop bufSize rounds (size - BitVec.ofNat 32 buf.length)
          else return 0

/-- From the second open on, up to the label `leave`. -/
def copyImage (rounds : Nat) (offsetin offsetout : BitVec 32) (bufSize size : BitVec 32) :
    FileProg Int := do
  let moved ← lseek .fdin offsetin.toInt .set
  if moved ≠ offsetin.toInt then return -1
  else
    let moved ← lseek .fdout offsetout.toInt .set
    if moved ≠ offsetout.toInt then return -1
    else copyLoop bufSize rounds size

/-- The local buffer, or one as large as the image. -/
def imageBuffer (size : BitVec 32) : FileProg (BitVec 32 × Bool) := do
  if 512 * 1024 < size then
    if ← malloc size then return (size, true) else return (512 * 1024, false)
  else return (512 * 1024, false)

def modemLoadImage (rounds : Nat) (img : ImageLoad) (offsetin offsetout size : BitVec 32) :
    FileProg Int := do
  let (bufSize, bufHeap) ← imageBuffer size
  enableBusmonitor false
  enableDmcMpu false
  Prog.when (getFlag img.flag CLR_FLAG) (modemClearRegion rounds img.pathW size)
  if ← open_ .fdin img.pathR then
    if ← open_ .fdout img.pathW then
      let res ← copyImage rounds offsetin offsetout bufSize size
      enableBusmonitor true
      enableDmcMpu true
      Prog.when bufHeap free
      close .fdin
      close .fdout
      return res
    else
      close .fdin
      enableBusmonitor true
      enableDmcMpu true
      return -1
  else
    enableBusmonitor true
    enableDmcMpu true
    return -1

structure SysImgHeader where
  mImgSize : BitVec 32
  isPacked : BitVec 32
  mFirmwareSize : BitVec 32
  deriving Repr, DecidableEq

/-- What secure_boot_load.c takes from headers that are not part of the repository: the
    layout of `sys_img_header` and the size of a footer. -/
structure ImgHeaders where
  sizeofSysImgHeader : Nat
  sysImgHeader : Bytes → SysImgHeader
  AVB_FOOTER_SIZE : Nat

/-- From the `lseek` on, up to the label `LEAVE`. `read_len` is unsigned, so that a read
    that fails is taken for a success. -/
def readImgHeader (h : ImgHeaders) (isPacked : BitVec 32) : FileProg (BitVec 32 × BitVec 32) := do
  let moved ← lseek .fd 0 .set
  if moved ≠ 0 then return (0, isPacked)
  else
    let got ← read .fd h.sizeofSysImgHeader
    let readLen := BitVec.ofInt 32 (Nv.readLength got)
    if readLen ≤ 0 then return (0, isPacked)
    else
      let header := h.sysImgHeader (Nv.filled h.sizeofSysImgHeader got)
      if header.isPacked = 1 then return (header.mFirmwareSize, header.isPacked)
      else return (header.mImgSize, isPacked)

/-- Its result and what it leaves in `is_packed`. -/
def getVerifyImgInfo (h : ImgHeaders) (fin : Option Bytes) (isPacked : Option (BitVec 32)) :
    FileProg (BitVec 32 × Option (BitVec 32)) := do
  match fin, isPacked with
  | some fin, some isPacked =>
      enableBusmonitor false
      enableDmcMpu false
      if ← open_ .fd fin then
        let (retSize, isPacked) ← readImgHeader h isPacked
        enableBusmonitor true
        enableDmcMpu true
        close .fd
        return (retSize, some isPacked)
      else
        enableBusmonitor true
        enableDmcMpu true
        return (0, some isPacked)
  | _, _ => return (0, isPacked)

/-- From the first `lseek` on, up to the label `LEAVE`. -/
def readFooter (h : ImgHeaders) (footer : Bytes) : FileProg Bytes := do
  let ended ← lseek .fd 0 .end_
  let size := (BitVec.ofInt 32 ended).toInt
  if size < 0 then return footer
  else
    let offset := size - h.AVB_FOOTER_SIZE
    let «where» ← lseek .fd offset .set
    if «where» = -1 || «where» ≠ offset then return footer
    else
      let got ← read .fd h.AVB_FOOTER_SIZE
      let data := got.getD []
      return data ++ footer.drop data.length

/-- What it leaves in `footer`. -/
def getVerifyImgFooter (h : ImgHeaders) (fin footer : Option Bytes) : FileProg (Option Bytes) := do
  match fin, footer with
  | some fin, some footer =>
      enableBusmonitor false
      enableDmcMpu false
      if ← open_ .fd fin then
        let footer ← readFooter h footer
        enableBusmonitor true
        enableDmcMpu true
        close .fd
        return some footer
      else
        enableBusmonitor true
        enableDmcMpu true
        return some footer
  | _, _ => return footer

end ModemControl.LoadFiles
