import Mathlib.Data.List.Basic
import ModemControl.Foundation.CString
import ModemControl.Foundation.Prog

/-! # nv_read.c: reading the NV partition and its backup

`read_nv_partition` as a program over the three files it opens. Every file is opened
once, so a handle is the file itself; what a call does to the files is left to the
environment. The two blocks of the source that read a copy differ only in what they
close before they give up, which stays with the caller here.
-/

namespace ModemControl.Nv

open Foundation

def RAMNV_SECT_SIZE : Nat := 512
def MAGIC : Nat := 0x4e56

/-- The loop of the two checksum functions, over an accumulator with this many values. -/
def wordSum (modulus : Nat) : Nat → Bytes → Nat
  | chkSum, lo :: hi :: rest =>
      wordSum modulus ((chkSum + (lo.toNat + 256 * hi.toNat)) % modulus) rest
  | chkSum, [last] => (chkSum + last.toNat) % modulus
  | chkSum, [] => chkSum

/-- The two folding steps, and the complement as an unsigned short. -/
def foldSum (modulus chkSum : Nat) : Nat :=
  let chkSum := (chkSum / 65536 + chkSum % 65536) % modulus
  let chkSum := (chkSum + chkSum / 65536) % modulus
  65535 - chkSum % 65536

def calcChecksum (dat : Bytes) : Nat := foldSum 0x100000000 (wordSum 0x100000000 0 dat)
def calcChecksum64 (dat : Bytes) : Nat :=
  foldSum 0x10000000000000000 (wordSum 0x10000000000000000 0 dat)

/-- The little-endian uint32 at an offset of the header sector. -/
def uint32At (header : Bytes) (i : Nat) : Nat :=
  (header.getD i 0).toNat + 256 * (header.getD (i + 1) 0).toNat +
    65536 * (header.getD (i + 2) 0).toNat + 16777216 * (header.getD (i + 3) 0).toNat

def int32 (n : Nat) : Int := if n < 0x80000000 then n else (n : Int) - 0x100000000

structure NvHeader where
  magic : Nat
  len : Nat
  checksum : Nat
  deriving Repr, DecidableEq

def nvHeader (header : Bytes) : NvHeader where
  magic := uint32At header 0
  len := uint32At header 4
  checksum := uint32At header 8

/-- The length as it is kept in an int32. -/
def NvHeader.size (h : NvHeader) : Int := int32 h.len

def checks (header buf : Bytes) : Bool :=
  (nvHeader header).magic == MAGIC &&
    (calcChecksum buf == (nvHeader header).checksum ||
      calcChecksum64 buf == (nvHeader header).checksum)

/-- What the two read blocks leave behind: `header`, `size` and `buf`, and whether
    they set their bit of `status`. -/
structure Copy where
  header : Bytes
  size : Int
  buf : Bytes
  verified : Bool
  deriving Repr, DecidableEq

inductive CopyRead where
  | notOpened
  | noBuffer
  | copy (c : Copy)
  deriving Repr, DecidableEq

def status (org bak : Copy) : Nat :=
  (if org.verified then 1 else 0) + if bak.verified then 1 <<< 1 else 0

inductive NvFile where
  | path
  | bakPath
  | pathOut
  deriving Repr, DecidableEq

namespace NvFile

/-- The other copy. -/
def other : NvFile → NvFile
  | .path => .bakPath
  | .bakPath => .path
  | .pathOut => .pathOut

def IsCopy (f : NvFile) : Prop := f ≠ .pathOut

instance (f : NvFile) : Decidable f.IsCopy := inferInstanceAs (Decidable (f ≠ .pathOut))

theorem IsCopy.other_ne {f : NvFile} (copy : f.IsCopy) : f.other ≠ f := by
  cases f with
  | path => decide
  | bakPath => decide
  | pathOut => exact absurd rfl copy

end NvFile

inductive NvOp where
  | open_ (f : NvFile)
  | read (f : NvFile) (count : Nat)
  | malloc (size : Int) (buf : NvFile)
  | free (buf : NvFile)
  | lseek (f : NvFile)
  | write (f : NvFile) (data : Bytes)
  | close (f : NvFile)
  | enableBusmonitor (on : Bool)
  | enableDmcMpu (on : Bool)
  deriving Repr, DecidableEq

/-- `open` and `malloc` answer whether they succeed, `read` the bytes it got and
    nothing for -1, `write` its result. -/
abbrev NvOp.Res : NvOp → Type
  | .open_ _ => Bool
  | .read _ _ => Option Bytes
  | .malloc _ _ => Bool
  | .write _ _ => Int
  | _ => Unit

abbrev NvProg (α : Type) : Type := Prog NvOp NvOp.Res α

def open_ (f : NvFile) : NvProg Bool := .call (.open_ f) .ret
def read (f : NvFile) (count : Nat) : NvProg (Option Bytes) := .call (.read f count) .ret
def malloc (size : Int) (buf : NvFile) : NvProg Bool := .call (.malloc size buf) .ret
def free (buf : NvFile) : NvProg Unit := .call (.free buf) .ret
def lseek (f : NvFile) : NvProg Unit := .call (.lseek f) .ret
def write (f : NvFile) (data : Bytes) : NvProg Int := .call (.write f data) .ret
def close (f : NvFile) : NvProg Unit := .call (.close f) .ret
def enableBusmonitor (on : Bool) : NvProg Unit := .call (.enableBusmonitor on) .ret
def enableDmcMpu (on : Bool) : NvProg Unit := .call (.enableDmcMpu on) .ret

/-- A buffer of `size` bytes, cleared and then filled by a read. -/
def filled (size : Int) (got : Option Bytes) : Bytes :=
  let data := got.getD []
  data ++ List.replicate (size.toNat - data.length) 0

def readLength (got : Option Bytes) : Int :=
  match got with
  | some data => data.length
  | none => -1

/-- The second half of a read block, once the header sector is read. -/
def readPayload (f : NvFile) (header : Bytes) : NvProg CopyRead := do
  let size := (nvHeader header).size
  if ← malloc size f then
    let got ← read f size.toNat
    let buf := filled size got
    return .copy ⟨header, size, buf, readLength got = size && checks header buf⟩
  else return .noBuffer

def readCopy (f : NvFile) : NvProg CopyRead := do
  if ← open_ f then
    let got ← read f RAMNV_SECT_SIZE
    if readLength got = RAMNV_SECT_SIZE then readPayload f (filled RAMNV_SECT_SIZE got)
    else return .noBuffer
  else return .notOpened

/-- The good copy `src` is written over the file `dst`. -/
def restore (src : Copy) (dst : NvFile) : NvProg Unit := do
  let ret ← write dst src.header
  if ret = RAMNV_SECT_SIZE then
    let _ ← write dst src.buf
    return ()
  else return ()

def deliver (src : Copy) : NvProg Int := do
  let ret ← write .pathOut src.buf
  return if ret = src.size then 1 else 0

/-- The switch on `status`. -/
def repair (org bak : Copy) : NvProg Int :=
  match status org bak with
  | 0 => do
      let _ ← write .pathOut (List.replicate (RAMNV_SECT_SIZE * 2) 0)
      return 0
  | 1 => do
      restore org .bakPath
      deliver org
  | 2 => do
      restore bak .path
      deliver bak
  | 3 => deliver org
  | _ => return 0

def finish (org bak : Copy) : NvProg Int := do
  lseek .bakPath
  if ← open_ .pathOut then
    enableBusmonitor false
    enableDmcMpu false
    let result ← repair org bak
    enableBusmonitor true
    enableDmcMpu true
    close .path
    close .bakPath
    close .pathOut
    free .path
    free .bakPath
    return result
  else
    close .path
    close .bakPath
    free .path
    free .bakPath
    return 0

def readBackup (org : Copy) : NvProg Int := do
  lseek .path
  match ← readCopy .bakPath with
  | .notOpened =>
      close .path
      free .path
      return 0
  | .noBuffer =>
      close .path
      close .bakPath
      free .path
      return 0
  | .copy bak => finish org bak

def readNvPartition : NvProg Int := do
  match ← readCopy .path with
  | .notOpened => return 0
  | .noBuffer =>
      close .path
      return 0
  | .copy org => readBackup org

def header (content : Bytes) : Bytes := content.take RAMNV_SECT_SIZE

abbrev headerOf (content : Bytes) : NvHeader := nvHeader (header content)

def payload (content : Bytes) : Bytes :=
  (content.drop RAMNV_SECT_SIZE).take (headerOf content).len

/-- The file holds a header sector and the whole payload it announces, and they check. -/
structure Valid (content : Bytes) : Prop where
  whole : RAMNV_SECT_SIZE + (headerOf content).len ≤ content.length
  checks : checks (header content) (payload content) = true

instance (content : Bytes) : Decidable (Valid content) :=
  decidable_of_iff
    (RAMNV_SECT_SIZE + (headerOf content).len ≤ content.length ∧
      checks (header content) (payload content) = true)
    ⟨fun h => ⟨h.1, h.2⟩, fun h => ⟨h.whole, h.checks⟩⟩

theorem header_append {head : Bytes} (sector : head.length = RAMNV_SECT_SIZE) (rest : Bytes) :
    header (head ++ rest) = head := by
  rw [header, ← sector, List.take_left]

theorem payload_append {head buf : Bytes} (sector : head.length = RAMNV_SECT_SIZE)
    (whole : buf.length = (nvHeader head).len) (rest : Bytes) :
    payload (head ++ buf ++ rest) = buf := by
  rw [payload, headerOf, List.append_assoc, header_append sector, ← sector, List.drop_left, ← whole,
    List.take_left]

/-- A header sector and the payload that goes with it make a file valid, whatever
    follows them. -/
theorem valid_append {head buf : Bytes} (sector : head.length = RAMNV_SECT_SIZE)
    (whole : buf.length = (nvHeader head).len) (check : Nv.checks head buf = true) (rest : Bytes) :
    Valid (head ++ buf ++ rest) := by
  have sameHeader : header (head ++ buf ++ rest) = head := by
    rw [List.append_assoc, header_append sector]
  constructor
  · rw [headerOf, sameHeader]
    simp only [List.length_append, sector, whole]
    omega
  · rw [sameHeader, payload_append sector whole]
    exact check

theorem int32_toNat {n : Nat} {size : Int} (same : int32 n = size) (allocated : 0 ≤ size)
    (bound : n < 0x100000000) : (n : Int) = size := by
  unfold int32 at same
  split at same <;> omega

theorem uint32At_lt (header : Bytes) (i : Nat) : uint32At header i < 0x100000000 := by
  unfold uint32At
  have b0 := (header.getD i 0).toNat_lt
  have b1 := (header.getD (i + 1) 0).toNat_lt
  have b2 := (header.getD (i + 2) 0).toNat_lt
  have b3 := (header.getD (i + 3) 0).toNat_lt
  omega

theorem filled_full {size : Int} {data : Bytes} (full : (data.length : Int) = size) :
    filled size (some data) = data := by
  have none : size.toNat - data.length = 0 := by omega
  simp only [filled, Option.getD_some, none, List.replicate_zero, List.append_nil]

theorem readLength_eq {got : Option Bytes} {n : Nat} (full : readLength got = n) :
    ∃ data, got = some data ∧ data.length = n := by
  cases got with
  | none => simp only [readLength] at full; omega
  | some data => exact ⟨data, rfl, by simpa only [readLength, Int.natCast_inj] using full⟩

theorem payload_size {content : Bytes} (allocated : 0 ≤ (headerOf content).size) :
    (content.drop RAMNV_SECT_SIZE).take ((headerOf content).size).toNat = payload content ∧
      (headerOf content).size = (headerOf content).len := by
  have size : ((headerOf content).len : Int) = (headerOf content).size :=
    int32_toNat rfl allocated (uint32At_lt _ _)
  have count : ((headerOf content).size).toNat = (headerOf content).len := by omega
  exact ⟨by rw [count, payload], size.symm⟩

theorem payload_length (content : Bytes) :
    (payload content).length = (headerOf content).len ↔
      (headerOf content).len ≤ content.length - RAMNV_SECT_SIZE := by
  simp only [payload, List.length_take, List.length_drop]
  omega

/-- On all that the file has behind its header, the code tests what `Valid` says. -/
theorem verified_iff_valid {content data : Bytes} (sector : RAMNV_SECT_SIZE ≤ content.length)
    (allocated : 0 ≤ (headerOf content).size)
    (got : data = (content.drop RAMNV_SECT_SIZE).take ((headerOf content).size).toNat) :
    (readLength (some data) = (headerOf content).size &&
      checks (header content) (filled ((headerOf content).size) (some data))) = true ↔ Valid content := by
  obtain ⟨same, size⟩ := payload_size allocated
  rw [same] at got
  subst got
  by_cases full : readLength (some (payload content)) = (headerOf content).size
  · rw [filled_full full]
    simp only [full, decide_true, Bool.true_and]
    rw [size] at full
    have whole := (payload_length content).mp (Int.natCast_inj.mp full)
    constructor
    · intro check
      exact ⟨by omega, check⟩
    · intro valid
      exact valid.checks
  · simp only [full, decide_false, Bool.false_and, Bool.false_eq_true, false_iff]
    intro valid
    have whole := valid.whole
    have length := (payload_length content).mpr (by omega)
    apply full
    rw [size]
    exact congrArg Int.ofNat length

end ModemControl.Nv
