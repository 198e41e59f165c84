import ModemControl.Foundation.Buffer
import ModemControl.LoadFiles

/-! # The extent of an image: get_modem_img_info

A modem image may begin with the headers of a SCI image, which say where in it the
executable lies. `get_modem_img_info` is a program over the source file of an image; an
output that no branch assigns is nothing. Ints have 32 bits and wrap, a size_t and an
off_t have 64.
-/

namespace ModemControl.ImgInfo

open Foundation Load

def MODEM_BANK : Bytes := bytes "modem"
def MODEM_MAGIC : Bytes := bytes "SCI1"
def SCI_TYPE_MODEM_BIN : BitVec 32 := 1
def SCI_LAST_HDR : BitVec 32 := 0x100
def MODEM_SHA1_HDR : BitVec 32 := 0x400
def MODEM_SHA1_SIZE : Nat := 20

/-- `data_block_header_t`. -/
structure DataBlockHeader where
  typeFlags : BitVec 32
  offset : BitVec 32
  length : BitVec 32
  deriving Repr, DecidableEq

namespace DataBlockHeader

def isModemBin (h : DataBlockHeader) : Bool := h.typeFlags &&& 0xff == SCI_TYPE_MODEM_BIN

def isLast (h : DataBlockHeader) : Bool := anyBit h.typeFlags SCI_LAST_HDR

def hasSha1 (h : DataBlockHeader) : Bool := anyBit h.typeFlags MODEM_SHA1_HDR

/-- What becomes of `modem_offset` and of `*modem_exe_size`, behind the digest if there is
    one. -/
def modemOffset (h : DataBlockHeader) : BitVec 32 :=
  if h.hasSha1 then h.offset + BitVec.ofNat 32 MODEM_SHA1_SIZE else h.offset

def modemExeSize (h : DataBlockHeader) : BitVec 64 :=
  if h.hasSha1 then h.length.setWidth 64 - BitVec.ofNat 64 MODEM_SHA1_SIZE
  else h.length.setWidth 64

/-- What becomes of `image_len`. -/
def imageLen (h : DataBlockHeader) : BitVec 32 := h.offset + h.length

end DataBlockHeader

/-- Eleven headers, the first of which is not looked at. -/
def HDR_NUM : Nat := 11
def HDR_SIZE : Nat := 12

/-- `hdr_buf[i]`. -/
def header (hdrBuf : Bytes) (i : Nat) : DataBlockHeader where
  typeFlags := u32 hdrBuf (HDR_SIZE * i)
  offset := u32 hdrBuf (HDR_SIZE * i + 4)
  length := u32 hdrBuf (HDR_SIZE * i + 8)

/-- The variables of the loop over the headers. -/
structure Scan where
  modemOffset : BitVec 32 := -1
  imageLen : BitVec 32 := -1
  modemExeSize : Option (BitVec 64) := none
  deriving Repr, DecidableEq

def takeModemBin (h : DataBlockHeader) (s : Scan) : Scan :=
  if h.isModemBin then
    { s with modemOffset := h.modemOffset, modemExeSize := some h.modemExeSize }
  else s

/-- The loop over so many headers, from header `i` on. -/
def scanHeaders (hdrBuf : Bytes) : Nat → Nat → Scan → Scan
  | 0, _, s => s
  | left + 1, i, s =>
      let h := header hdrBuf i
      let s := takeModemBin h s
      if h.isLast then { s with imageLen := h.imageLen } else scanHeaders hdrBuf left (i + 1) s

/-- The offset it returns, and what it leaves in its three outputs. -/
structure Info where
  offset : BitVec 32
  isSci : Option Int
  totalLen : Option (BitVec 64)
  modemExeSize : Option (BitVec 64)
  deriving Repr, DecidableEq

def wholeImage (img : ImageLoad) : Info where
  offset := 0
  isSci := some 0
  totalLen := some (img.size.setWidth 64)
  modemExeSize := some (img.size.setWidth 64)

/-- From the headers of a SCI image on. -/
def sciInfo (hdrBuf : Bytes) : Info :=
  let s := scanHeaders hdrBuf (HDR_NUM - 1) 1 {}
  if s.modemOffset = -1 then ⟨0, some 1, none, s.modemExeSize⟩
  else if s.imageLen = -1 then ⟨0, some 1, none, s.modemExeSize⟩
  else ⟨s.modemOffset, some 1, some (s.imageLen.signExtend 64), s.modemExeSize⟩

/-- The calls for one image. `unassigned` stands for the use of a variable that has not
    been set, and `other` for the calls of the loader that are not made of these. -/
inductive ImgOp where
  | open_ (path : Bytes)
  | lseek (offset : Int)
  | read (count : Nat)
  | close
  | unassigned
  | other (op : LoadOp)
  deriving Repr, DecidableEq

/-- `read` answers the bytes it got and nothing for -1. -/
abbrev ImgOp.Res : ImgOp → Type
  | .open_ _ => Bool
  | .lseek _ => Int
  | .read _ => Option Bytes
  | .close => Unit
  | .unassigned => BitVec 64
  | .other op => op.Res

abbrev ImgProg (α : Type) : Type := Prog ImgOp ImgOp.Res α

def open_ (path : Bytes) : ImgProg Bool := .call (.open_ path) .ret
def lseek (offset : Int) : ImgProg Int := .call (.lseek offset) .ret
def read (count : Nat) : ImgProg (Option Bytes) := .call (.read count) .ret
def close : ImgProg Unit := .call .close .ret
def unassigned : ImgProg (BitVec 64) := .call .unassigned .ret

/-- What is made of the bytes that were read. -/
def decode (img : ImageLoad) (got : Option Bytes) : Info :=
  if Nv.readLength got = HDR_NUM * HDR_SIZE then
    let hdrBuf := got.getD []
    if hdrBuf.take MODEM_MAGIC.length = MODEM_MAGIC then sciInfo hdrBuf else wholeImage img
  else wholeImage img

def getModemImgInfo (img : ImageLoad) (secureOffset : BitVec 32) : ImgProg Info := do
  if strstr img.pathR MODEM_BANK then
    if ← open_ img.pathR then
      let moved ← lseek secureOffset.toNat
      if moved ≠ secureOffset.toNat then
        close
        return wholeImage img
      else
        let got ← read (HDR_NUM * HDR_SIZE)
        close
        return decode img got
    else return wholeImage img
  else return wholeImage img

/-- A variable is used: its value, or whatever it holds when it has not been set. -/
def use (var : Option (BitVec 64)) : ImgProg (BitVec 64) :=
  match var with
  | some value => return value
  | none => unassigned

def modemGetPatitonInfo (img : ImageLoad) : ImgProg (BitVec 32 × BitVec 64) := do
  let info ← getModemImgInfo img 0
  let size ← use info.modemExeSize
  return (info.offset, size)

end ModemControl.ImgInfo
