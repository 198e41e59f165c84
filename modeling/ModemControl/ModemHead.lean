import Mathlib.Logic.Function.Basic
import ModemControl.Foundation.Buffer
import ModemControl.Load

/-! # The modem head: modem_head_parse.c

The head of the modem image is read into a buffer of fixed size, in one of two formats,
and the regions and the boot code in it are copied into `modem_img`. Whatever leads to an
access outside of the buffer or of an array of `modem_img` is nothing here. Offsets are
those of the structs of the source, with their padding; a size_t has 64 bits.
-/

namespace ModemControl.ModemHead

open Foundation Load

def OLD_HEAD_MAGIC_INFO : BitVec 32 := 0x5043454D
def NEW_HEAD_MAGIC_INFO : BitVec 32 := 0x44485043

def MAX_NAME_LEN : Nat := 0x14
def MAX_REGION_NUM : Nat := 0xC
def MAX_CODE_NUM : Nat := 0x32
def MAX_HEADER_SIZE : Nat := 0x600

/-- `modem_decouple_head`. -/
structure Head where
  bytes : Bytes
  sized : bytes.length = MAX_HEADER_SIZE

/-- `img_region_info`, as far as it is used: the name is the text up to its NUL. -/
structure ImgRegionInfo where
  name : Bytes := []
  base : BitVec 64 := 0
  size : BitVec 32 := 0
  deriving Repr, DecidableEq

/-- The bytes of `boot_code.code`. -/
abbrev CodeIndex : Type := Fin (4 * MAX_CODE_NUM)

/-- `modem_image_info`. -/
structure ModemImageInfo where
  regionNum : Nat := 0
  count : BitVec 32 := 0
  code : CodeIndex → UInt8 := fun _ => 0
  table : Fin MAX_REGION_NUM → ImgRegionInfo := fun _ => {}

namespace ModemImageInfo

/-- A region is written to the table. -/
def setRegion (img : ModemImageInfo) (i : Nat) (region : ImgRegionInfo) :
    Option ModemImageInfo :=
  if inside : i < MAX_REGION_NUM then
    some { img with table := Function.update img.table ⟨i, inside⟩ region }
  else none

/-- `memcpy` to `boot_code.code`, and its count. -/
def setCode (img : ModemImageInfo) (data : Bytes) (count : BitVec 32) : Option ModemImageInfo :=
  if data.length ≤ 4 * MAX_CODE_NUM then
    some { img with code := fun j => data.getD j (img.code j), count := count }
  else none

end ModemImageInfo

/-- The loop of both formats over at most so many regions, from region `i` on. An entry is
    what is read of one: nothing if it is the end marker. -/
def takeRegions (entry : Nat → Option (Option ImgRegionInfo)) :
    Nat → Nat → ModemImageInfo → Option ModemImageInfo
  | 0, i, img => some { img with regionNum := i }
  | left + 1, i, img => do
      match ← entry i with
      | none => return { img with regionNum := i }
      | some region => takeRegions entry left (i + 1) (← img.setRegion i region)

def oldRegion (i : Nat) : Nat := 416 + 48 * i

/-- One of `boot_info.regions`; an empty name ends them. -/
def oldEntry (head : Head) (i : Nat) : Option (Option ImgRegionInfo) := do
  let name ← textAt head.bytes (oldRegion i)
  if name = [] then return none
  else
    let base ← u64At head.bytes (oldRegion i + 24)
    let size ← u32At head.bytes (oldRegion i + 32)
    return some ⟨name.take (MAX_NAME_LEN - 1), base, size⟩

def modemHeadOldConstruct (head : Head) (img : ModemImageInfo) : Option ModemImageInfo := do
  let img ← takeRegions (oldEntry head) MAX_REGION_NUM 0 img
  let count ← u32At head.bytes 208
  let code ← slice head.bytes 212 (count.toNat * 4)
  img.setCode code count

def DECOUP_DESC : Bytes := bytes "decoup-desc"
def BOOT_CODE : Bytes := bytes "boot-code"

def newRegion (offs : BitVec 32) (i : Nat) : Nat := offs.toNat + 8 + 40 * i

/-- One region of a `new_coupling_info`; a size of zero ends them. -/
def newEntry (head : Head) (offs : BitVec 32) (i : Nat) : Option (Option ImgRegionInfo) := do
  let size ← u32At head.bytes (newRegion offs i + 32)
  if size = 0 then return none
  else
    let name ← textAt head.bytes (newRegion offs i)
    let base ← u64At head.bytes (newRegion offs i + 24)
    return some ⟨name.take (MAX_NAME_LEN - 1), base, size⟩

def newDesc (k : Nat) : Nat := 4 + 28 * k

/-- What is done for one descriptor. -/
def takeDesc (head : Head) (k : Nat) (size : BitVec 32) (img : ModemImageInfo) :
    Option ModemImageInfo := do
  let offs ← u32At head.bytes (newDesc k + 20)
  if ← strcmpAt head.bytes (newDesc k) DECOUP_DESC then
    takeRegions (newEntry head offs) MAX_REGION_NUM 0 img
  else if ← strcmpAt head.bytes (newDesc k) BOOT_CODE then
    let code ← slice head.bytes offs.toNat size.toNat
    img.setCode code size
  else return img

/-- The loop over the descriptors, from descriptor `k` on and for at most so many. -/
def takeDescs (head : Head) : Nat → Nat → ModemImageInfo → Option ModemImageInfo
  | 0, _, _ => none
  | left + 1, k, img => do
      let size ← u32At head.bytes (newDesc k + 24)
      if size = 0 then return img
      else takeDescs head left (k + 1) (← takeDesc head k size img)

/-- Descriptors that fit into the buffer. -/
def MAX_DESC_NUM : Nat := 54

/-- The loop has no bound of its own. It is given one round more than there are descriptors
    in the buffer, which it cannot use up. -/
def modemHeadNewConstruct (head : Head) (img : ModemImageInfo) : Option ModemImageInfo :=
  takeDescs head (MAX_DESC_NUM + 1) 0 img

def magic (head : Head) : BitVec 32 := u32 head.bytes 0

def modemHeadConstructImg (head : Head) (img : ModemImageInfo) : Option ModemImageInfo :=
  if magic head = OLD_HEAD_MAGIC_INFO then modemHeadOldConstruct head img
  else if magic head = NEW_HEAD_MAGIC_INFO then modemHeadNewConstruct head img
  else some img

def MODEM_IMG_EXCPT_HEAD_FLAG : BitVec 32 := 0x00000E00

/-- The regions that were found. -/
def ModemImageInfo.regions (img : ModemImageInfo) : List ImgRegionInfo :=
  (List.ofFn img.table).take img.regionNum

/-- What becomes of one entry of a load table. -/
def convertEntry (regions : List ImgRegionInfo) (xmlIsOk : Bool) (entry : ImageLoad) : ImageLoad :=
  match regions.find? fun region => entry.name == region.name with
  | some region => { entry with addr := region.base, size := region.size }
  | none =>
      -- not support xml, or a modem bin except the head: invalid it
      if !xmlIsOk || anyBit MODEM_IMG_EXCPT_HEAD_FLAG entry.flag then { entry with size := 0 }
      else entry

/-- The corrected load info. Its result is not looked at. -/
def modemHeadConvertImg (img : ModemImageInfo) (load : LoadValueS) : LoadValueS :=
  if img.regionNum = 0 then load
  else { load with loadTable := load.loadTable.map (convertEntry img.regions load.xmlIsOk) }

end ModemControl.ModemHead
