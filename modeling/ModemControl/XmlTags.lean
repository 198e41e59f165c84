import ModemControl.Foundation.Runs
import ModemControl.Foundation.Strtoul
import ModemControl.XmlParse

/-! # The start tags of an XML description: xml_parse.c

expat hands the start tags of a document to `modem_xml_start_tag` one by one. They fill
`cur_xml_info`; where the next partition goes is counted in a variable that is static.
A store to an item behind the end of the array is nothing here.
-/

namespace ModemControl.XmlTags

open Foundation Load XmlParse

/-- All of `modem_xml_info`; `partion_cnt` is the length of the array. -/
structure ModemXmlInfo extends XmlInfo where
  name : Bytes := []
  modemBase : BitVec 64 := 0
  modemSize : BitVec 64 := 0
  allBase : BitVec 64 := 0
  allSize : BitVec 64 := 0
  deriving Repr, DecidableEq

structure XmlState where
  /-- The static variable. -/
  itemCnt : Nat := 0
  cur : ModemXmlInfo := {}
  deriving Repr, DecidableEq

/-- A start tag with its attributes, and what else decides its handling: whether `malloc`
    succeeds, and whether `errno` is ERANGE before it. -/
structure Tag where
  name : Bytes
  attrs : List (Bytes × Bytes) := []
  malloc : Bool := true
  erange : Bool := false
  deriving Repr, DecidableEq

/-- The value of an attribute, the last one of this name. -/
def Tag.attr (t : Tag) (name : Bytes) : Option Bytes :=
  (t.attrs.reverse.find? fun a => a.1 == name).map Prod.snd

def Tag.val (t : Tag) : Option Bytes := t.attr (bytes "val")
def Tag.base (t : Tag) : Option Bytes := t.attr (bytes "base")
def Tag.size (t : Tag) : Option Bytes := t.attr (bytes "size")
def Tag.itemName (t : Tag) : Option Bytes := t.attr (bytes "name")
def Tag.src (t : Tag) : Option Bytes := t.attr (bytes "src_file")
def Tag.dst (t : Tag) : Option Bytes := t.attr (bytes "dst_file")
def Tag.flag (t : Tag) : Option Bytes := t.attr (bytes "flag")

def MODEM_NAME : Bytes := bytes "modem_name"
def PARTION_CNT : Bytes := bytes "partion_cnt"
def IOCTL_PATH : Bytes := bytes "ioctl_path"
def SRC_PATH : Bytes := bytes "src_path"
def DST_PATH : Bytes := bytes "dst_path"
def MODEM_RANGE : Bytes := bytes "modem_range"
def ALL_RANGE : Bytes := bytes "all_range"
def PARTITION : Bytes := bytes "partition"

/-- `XML_STRTOUL`: the number to store, if it is one, and whether `errno` is ERANGE then.
    The error test looks at `errno`, which `strtoul` sets but never clears. -/
def xmlStrtoul (str : Option Bytes) (erange : Bool) : Option Nat × Bool :=
  match str with
  | none => (none, erange)
  | some str =>
      let r := strtoul str
      let erange := erange || r.overflow
      if (r.value == 0 && !r.moved) || (r.value == ULONG_MAX && erange) then (none, erange)
      else (some r.value, erange)

/-- A number goes to a field of 64 bits. -/
def store64 (value : Option Nat) (field : BitVec 64) : BitVec 64 :=
  (value.map (BitVec.ofNat 64)).getD field

def store32 (value : Option Nat) (field : BitVec 32) : BitVec 32 :=
  (value.map (BitVec.ofNat 32)).getD field

/-- `strncpy` of an attribute to a field of so many characters. -/
def storeText (value : Option Bytes) (length : Nat) (field : Bytes) : Bytes :=
  (value.map fun text => text.take length).getD field

def tagModemName (t : Tag) (xml : ModemXmlInfo) : ModemXmlInfo :=
  if t.name = MODEM_NAME then { xml with name := storeText t.val MAX_FILE_NAME_LEN xml.name } else xml

/-- The unsigned int that a partion_cnt tag says. -/
def Tag.cnt (t : Tag) : Option Nat :=
  if t.name = PARTION_CNT then t.val.map fun val => (strtoul val).value % 0x100000000 else none

def validCnt (cnt : Nat) : Bool := cnt != 0 && cnt ≤ 100

/-- The count of a tag that is not refused. -/
def Tag.accepted (t : Tag) : Option Nat := t.cnt.filter validCnt

def Tag.refused (t : Tag) : Bool := t.cnt.any fun cnt => !validCnt cnt

def tagPartionCnt (t : Tag) (s : XmlState) : XmlState :=
  match t.accepted with
  | none => s
  | some cnt =>
      match s.cur.itemArry with
      | none =>
          if t.malloc then
            { itemCnt := 0, cur := { s.cur with itemArry := some (List.replicate cnt {}) } }
          else { s with itemCnt := 0 }
      | some _ => { s with itemCnt := 0 }

def tagPaths (t : Tag) (xml : ModemXmlInfo) : ModemXmlInfo :=
  if t.name = IOCTL_PATH then { xml with ioCtrol := storeText t.val MAX_PATH_LEN xml.ioCtrol }
  else if t.name = SRC_PATH then { xml with srcPath := storeText t.val MAX_PATH_LEN xml.srcPath }
  else if t.name = DST_PATH then { xml with dstPath := storeText t.val MAX_PATH_LEN xml.dstPath }
  else xml

/-- What is to be stored of a base and a size, and `errno` behind them. -/
structure Range where
  base : Option Nat
  size : Option Nat
  erange : Bool
  deriving Repr, DecidableEq

def Tag.range (t : Tag) (erange : Bool) : Range :=
  let (base, erange) := xmlStrtoul t.base erange
  let (size, erange) := xmlStrtoul t.size erange
  ⟨base, size, erange⟩

/-- The range of a tag with this word in its name; other tags leave `errno` as it is. -/
def Tag.rangeIf (t : Tag) (word : Bytes) (erange : Bool) : Range :=
  if strstr t.name word then t.range erange else ⟨none, none, erange⟩

def Tag.modemRange (t : Tag) : Range := t.rangeIf MODEM_RANGE t.erange

def Tag.allRange (t : Tag) : Range := t.rangeIf ALL_RANGE t.modemRange.erange

def tagRanges (t : Tag) (xml : ModemXmlInfo) : ModemXmlInfo :=
  { xml with
    modemBase := store64 t.modemRange.base xml.modemBase
    modemSize := store64 t.modemRange.size xml.modemSize
    allBase := store64 t.allRange.base xml.allBase
    allSize := store64 t.allRange.size xml.allSize }

/-- What a partition tag stores into its item. -/
structure ItemStores where
  addr : Option Nat
  size : Option Nat
  name : Option Bytes
  src : Option Bytes
  dst : Option Bytes
  flag : Option Nat
  deriving Repr, DecidableEq

def Tag.stores (t : Tag) : ItemStores :=
  let ⟨base, size, erange⟩ := t.range t.allRange.erange
  let (flag, _) := xmlStrtoul t.flag erange
  ⟨base, size, t.itemName, t.src, t.dst, flag⟩

def Tag.isPartition (t : Tag) : Bool := strstr t.name PARTITION

def ItemStores.none (st : ItemStores) : Bool :=
  st.addr.isNone && st.size.isNone && st.name.isNone && st.src.isNone && st.dst.isNone &&
    st.flag.isNone

def ItemStores.apply (st : ItemStores) (item : PartionItem) : PartionItem where
  addr := store64 st.addr item.addr
  size := store32 st.size item.size
  dstFile := storeText st.dst MAX_FILE_NAME_LEN item.dstFile
  srcFile := storeText st.src MAX_PATH_LEN item.srcFile
  name := storeText st.name MAX_FILE_NAME_LEN item.name
  flag := store32 st.flag item.flag

/-- The stores into item `i`. Without a store nothing is accessed. -/
def storeItem (st : ItemStores) (i : Nat) (items : List PartionItem) : Option (List PartionItem) :=
  if st.none then some items
  else if i < items.length then some (items.modify i st.apply)
  else none

def tagPartition (t : Tag) (s : XmlState) : Option XmlState :=
  match s.cur.itemArry with
  | none => some s
  | some items =>
      if t.isPartition then
        (storeItem t.stores s.itemCnt items).map fun items =>
          { itemCnt := s.itemCnt + 1, cur := { s.cur with itemArry := some items } }
      else some s

/-- The fields of the description other than its items. -/
def tagFields (t : Tag) (s : XmlState) : XmlState :=
  { s with cur := tagRanges t (tagPaths t s.cur) }

def modemXmlStartTag (s : XmlState) (t : Tag) : Option XmlState :=
  let s := { s with cur := tagModemName t s.cur }
  if t.refused then some s else tagPartition t (tagFields t (tagPartionCnt t s))

/-- The last round of the parse loop: a buffer could not be had, the read failed, or the
    last tags came and the document was accepted or not. -/
inductive LastRound where
  | getBuffer
  | read
  | parseBuffer (tags : List Tag) (ok : Bool)
  deriving Repr, DecidableEq

/-- What becomes of a file: `access`, `fopen` or `XML_ParserCreate` fails, or it is parsed
    in rounds. -/
inductive Document where
  | absent
  | notOpened
  | noParser
  | parsed (rounds : List (List Tag)) (last : LastRound)
  deriving Repr, DecidableEq

def LastRound.tags : LastRound → List Tag
  | .parseBuffer tags _ => tags
  | _ => []

/-- The tags the handler is given. -/
def Document.tags : Document → List Tag
  | .parsed rounds last => rounds.flatten ++ last.tags
  | _ => []

def modemXmlStartParse (doc : Document) (s : XmlState) : Option XmlState :=
  run modemXmlStartTag s doc.tags

/-- `cur_xml_info` is cleared before each file; the static counter is not. -/
def modemXmlInit (doc : Document) (itemCnt : Nat) : Option XmlState :=
  modemXmlStartParse doc { itemCnt := itemCnt }

/-- The files one after the other: the counter, and what was found in each. -/
def modemXmlInitAll : List Document → Nat → Option (List ModemXmlInfo)
  | [], _ => some []
  | doc :: rest, itemCnt => do
      let s ← modemXmlInit doc itemCnt
      let infos ← modemXmlInitAll rest s.itemCnt
      return s.cur :: infos

end ModemControl.XmlTags
