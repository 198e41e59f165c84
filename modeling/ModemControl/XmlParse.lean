import ModemControl.Load

/-! # From the XML description to a load table: xml_parse.c

`modem_xml_to_load_info` copies what the parser has found into a `LOAD_VALUE_S`. All
strings are given without their NUL; what is copied is cut at the size of the buffer.
-/

namespace ModemControl.XmlParse

open Foundation Load

def MAX_FILE_NAME_LEN : Nat := 30
def MODEM_START : Bytes := bytes "start"
def MODEM_STOP : Bytes := bytes "stop"

/-- `partion_item`. -/
structure PartionItem where
  addr : BitVec 64 := 0
  size : BitVec 32 := 0
  dstFile : Bytes := []
  srcFile : Bytes := []
  name : Bytes := []
  flag : BitVec 32 := 0
  deriving Repr, DecidableEq

/-- `modem_xml_info`, as far as loading reads it. -/
structure XmlInfo where
  srcPath : Bytes := []
  dstPath : Bytes := []
  ioCtrol : Bytes := []
  /-- The array of `partion_cnt` items, if it was allocated. -/
  itemArry : Option (List PartionItem) := none
  deriving Repr, DecidableEq

/-- `mstrncpy2` into a path. -/
def mstrncpy2 (str1 str2 : Bytes) : Bytes := (str1 ++ str2).take MAX_PATH_LEN

/-- The path an image is written to: `dst_file` in `dst_path`, or the ioctl device. -/
def pathW (xml : XmlInfo) (ioctrlIsOk : Bool) (item : PartionItem) : Bytes :=
  if ioctrlIsOk then xml.ioCtrol.take MAX_PATH_LEN else mstrncpy2 xml.dstPath item.dstFile

def pathR (xml : XmlInfo) (item : PartionItem) : Bytes :=
  -- if src_file include folder, it means is a full path
  if strstr item.srcFile (bytes "/") then item.srcFile.take MAX_PATH_LEN
  else mstrncpy2 xml.srcPath item.srcFile

def imageLoad (xml : XmlInfo) (ioctrlIsOk : Bool) (item : PartionItem) : ImageLoad where
  pathW := pathW xml ioctrlIsOk item
  pathR := pathR xml item
  name := item.name.take MAX_FILE_NAME_LEN
  addr := item.addr
  size := item.size
  flag := item.flag

/-- A device flag is set if its path is there, and never cleared. -/
def pathIsOk (before : Bool) (path : Bytes) (access : Bytes → Bool) : Bool :=
  before || (path != [] && access path)

/-- Nothing stands for -1: there are no items, or no memory for the table. -/
def modemXmlToLoadInfo (xml : XmlInfo) (load : LoadValue) (malloc : Bool)
    (access : Bytes → Bool) : Option LoadValue :=
  match xml.itemArry with
  | none => none
  | some items =>
      if malloc then
        let ioctrlIsOk := pathIsOk load.ioctrlIsOk xml.ioCtrol access
        some {
          loadTable := items.map (imageLoad xml ioctrlIsOk)
          drvIsOk := pathIsOk load.drvIsOk xml.dstPath access
          ioctrlIsOk := ioctrlIsOk
          ioCtrl := xml.ioCtrol.take MAX_PATH_LEN
          start := mstrncpy2 xml.dstPath MODEM_START
          stop := mstrncpy2 xml.dstPath MODEM_STOP }
      else none

/-- The table has one entry for each item, in the order of the document. -/
theorem loadTable_of_made {xml : XmlInfo} {load load' : LoadValue} {malloc : Bool}
    {access : Bytes → Bool} (made : modemXmlToLoadInfo xml load malloc access = some load') :
    ∃ items, xml.itemArry = some items ∧
      load'.loadTable = items.map (imageLoad xml (pathIsOk load.ioctrlIsOk xml.ioCtrol access)) := by
  rw [modemXmlToLoadInfo] at made
  split at made
  · cases made
  · rename_i items found
    split at made
    · obtain rfl := Option.some.inj made
      exact ⟨items, found, rfl⟩
    · cases made

end ModemControl.XmlParse
