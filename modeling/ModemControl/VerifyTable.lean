import Mathlib.Logic.Function.Basic
import ModemControl.LoadLocks
import ModemControl.LoadReports
import ModemControl.XmlParse

/-! # The verification slots of the secure images

Before `secure_boot_load_img` writes an image it notes its address and size in
`kbc_table`, in the slot that the path it is written to names. Which image is noted is
said by its name; the two agree as long as the paths do.
-/

namespace ModemControl.VerifyTable

open Foundation Load XmlParse

/-- The records of `KBC_LOAD_TABLE_S`. -/
inductive Slot where
  | pmSys
  | modem
  | tgdsp
  | ldsp
  | cdsp
  deriving Repr, DecidableEq

/-- `KBC_IMAGE_S`, as far as `fill_verify_table` writes it. -/
structure KbcImage where
  imgLen : BitVec 32 := 0
  imgAddr : BitVec 64 := 0
  mapLen : BitVec 32 := 0
  deriving Repr, DecidableEq

abbrev KbcTable : Type := Slot → KbcImage

def MODEM_BANK : Bytes := bytes "modem"
def TGDSP_BANK : Bytes := bytes "tgdsp"
def GDSP_BANK : Bytes := bytes "gdsp"
def LDSP_BANK : Bytes := bytes "ldsp"
def CDSP_BANK : Bytes := bytes "cdsp"

/-- The options of secure_boot_load.c about the slots. -/
structure Verify where
  notVerifyModem : Bool := false
  sharkl5Cdsp : Bool := false
  deriving Repr, DecidableEq

/-- The tests of `fill_verify_table`. -/
def slotOf (v : Verify) (name : Bytes) : Option Slot :=
  if strstr name (bytes "pm_sys") || strstr name (bytes "dev/pmsys") then some .pmSys
  else if !v.notVerifyModem && strstr name MODEM_BANK then some .modem
  else if !v.notVerifyModem && strstr name GDSP_BANK then some .tgdsp
  else if !v.notVerifyModem && strstr name LDSP_BANK then some .ldsp
  else if v.sharkl5Cdsp && strstr name CDSP_BANK then some .cdsp
  else none

def fillVerifyTable (v : Verify) (size : BitVec 32) (addr : BitVec 64) (name : Bytes)
    (maplen : BitVec 32) (table : KbcTable) : KbcTable :=
  match slotOf v name with
  | some slot => Function.update table slot ⟨size, addr, maplen⟩
  | none => table

/-- What `secure_boot_load_img` does to `kbc_table`; `mImgsize` is the size in the header
    of the file, or 0. -/
def secureBootLoadImg (b : Build) (v : Verify) (mImgsize : Bytes → BitVec 32) (table : KbcTable)
    (img : ImageLoad) : KbcTable :=
  if b.secureBootEnable then table
  else if b.sprdSecboot then
    if mImgsize img.pathR != 0 then
      fillVerifyTable v (mImgsize img.pathR) img.addr img.pathW img.size table
    else table
  else if b.vbootV2 then fillVerifyTable v img.size img.addr img.pathW img.size table
  else table

/-- `kbc_table` after the loads of a pass. -/
def kbcTable (b : Build) (v : Verify) (mImgsize : Bytes → BitVec 32) (table : KbcTable)
    (trace : List (Event LoadOp LoadOp.Res)) : KbcTable :=
  (secureImages trace).foldl (secureBootLoadImg b v mImgsize) table

/-- The slot of an image, by its name. -/
def named (name : Bytes) : Option Slot :=
  if name = MODEM_BANK then some .modem
  else if name = TGDSP_BANK ∨ name = GDSP_BANK then some .tgdsp
  else if name = LDSP_BANK then some .ldsp
  else none

def KbcImage.Of (image : KbcImage) (addr : BitVec 64) (size : BitVec 32) : Prop :=
  image.imgAddr = addr ∧ image.imgLen = size

/-- The slot of every named image that was loaded has its address and size. -/
def OwnSlots (table : KbcTable) (loaded : List ImageLoad) : Prop :=
  ∀ img ∈ loaded, ∀ slot, named img.name = some slot → (table slot).Of img.addr img.size

/-- The last of these that goes to a slot. -/
def lastIn {α : Type} (target : α → Option Slot) (slot : Slot) (items : List α) : Option α :=
  (items.filter fun item => target item = some slot).getLast?

theorem lastIn_append {α : Type} (target : α → Option Slot) (slot : Slot) (items : List α) (item : α) :
    lastIn target slot (items ++ [item]) =
      if target item = some slot then some item else lastIn target slot items := by
  by_cases hits : target item = some slot
  · simp [lastIn, List.filter_append, hits]
  · simp [lastIn, List.filter_append, hits]

theorem lastIn_map {α β : Type} (target : β → Option Slot) (slot : Slot) (f : α → β)
    (items : List α) :
    lastIn target slot (items.map f) = (lastIn (fun item => target (f item)) slot items).map f := by
  rw [lastIn, lastIn, List.filter_map, List.getLast?_map]
  rfl

/-- What is noted of an image. -/
def noted (img : ImageLoad) : KbcImage := ⟨img.size, img.addr, img.size⟩

/-- A slot holds the last image that goes to it, or what it held before. -/
theorem filled_slot (v : Verify) (table : KbcTable) (imgs : List ImageLoad) (slot : Slot) :
    imgs.foldl (fun table img => fillVerifyTable v img.size img.addr img.pathW img.size table) table
        slot =
      ((lastIn (fun img => slotOf v img.pathW) slot imgs).map noted).getD (table slot) := by
  induction imgs using List.reverseRecOn with
  | nil => rfl
  | append_singleton imgs img ih =>
      rw [List.foldl_append, List.foldl_cons, List.foldl_nil, lastIn_append, fillVerifyTable]
      cases target : slotOf v img.pathW with
      | none => exact ih
      | some slot' =>
          by_cases same : slot' = slot
          · subst same
            rw [if_pos rfl]
            exact Function.update_self ..
          · rw [if_neg (fun both => same (Option.some.inj both)), ← ih]
            exact Function.update_of_ne (Ne.symm same) ..

section Pass

variable (b : Build) (v : Verify) (xml : XmlInfo) (ioctrlIsOk : Bool) (loadFlag skipFlag : BitVec 32)

/-- The items of the document that a pass loads as secure images. -/
def secureItems : List PartionItem :=
  (xml.itemArry.getD []).filter fun item =>
    selected loadFlag skipFlag (imageLoad xml ioctrlIsOk item) &&
      secured b (imageLoad xml ioctrlIsOk item)

/-- In the slot that the name of an image says, the last image of the pass whose path
    says this slot is that image, or one with its address and size; and if there is none,
    they were there before. -/
def KeepsSlots (table : KbcTable) : Prop :=
  ∀ item ∈ secureItems b xml ioctrlIsOk loadFlag skipFlag, ∀ slot,
    named (item.name.take MAX_FILE_NAME_LEN) = some slot →
      match lastIn (fun other => slotOf v (pathW xml ioctrlIsOk other)) slot
        (secureItems b xml ioctrlIsOk loadFlag skipFlag) with
      | some last => last.addr = item.addr ∧ last.size = item.size
      | none => (table slot).Of item.addr item.size

variable {b v xml ioctrlIsOk loadFlag skipFlag}

theorem secureImages_items {load : LoadValue} {items : List PartionItem}
    (found : xml.itemArry = some items)
    (table : load.loadTable = items.map (imageLoad xml ioctrlIsOk)) {ret : Int}
    {trace : List (Event LoadOp LoadOp.Res)}
    (pass : Pass b (load.loadTable.filter (selected loadFlag skipFlag)) 0 ret (attempts trace)) :
    secureImages trace =
      (secureItems b xml ioctrlIsOk loadFlag skipFlag).map (imageLoad xml ioctrlIsOk) := by
  rw [secureImages, pass.secureImages, table, secureItems, found, List.filter_filter,
    List.filter_map]
  congr 1
  apply List.filter_congr
  intro item _
  exact Bool.and_comm _ _

theorem ownSlots_iff {table : KbcTable} :
    OwnSlots
        (((secureItems b xml ioctrlIsOk loadFlag skipFlag).map (imageLoad xml ioctrlIsOk)).foldl
          (fun table img => fillVerifyTable v img.size img.addr img.pathW img.size table) table)
        ((secureItems b xml ioctrlIsOk loadFlag skipFlag).map (imageLoad xml ioctrlIsOk)) ↔
      KeepsSlots b v xml ioctrlIsOk loadFlag skipFlag table := by
  rw [OwnSlots, List.forall_mem_map, KeepsSlots]
  apply forall_congr'
  intro item
  apply forall_congr'
  intro _
  apply forall_congr'
  intro slot
  rw [filled_slot, lastIn_map]
  apply imp_congr_right
  intro _
  have last : lastIn (fun other => slotOf v (imageLoad xml ioctrlIsOk other).pathW) slot
      (secureItems b xml ioctrlIsOk loadFlag skipFlag) =
        lastIn (fun other => slotOf v (pathW xml ioctrlIsOk other)) slot
          (secureItems b xml ioctrlIsOk loadFlag skipFlag) := rfl
  rw [last]
  split
  · rename_i found
    rw [found]
    exact Iff.rfl
  · rename_i none
    rw [none]
    exact Iff.rfl

end Pass

/-- After a pass over a table made from a document, the slot of every named secure image
    holds its address and size if and only if the paths that the images are written to
    lead the last of them there. -/
theorem secure_images_keep_slots_iff {σ : Type} {env : σ → (op : LoadOp) → op.Res → σ → Prop}
    {torn : σ → LoadOp → σ → Prop} {b : Build} (vboot : b.vbootV2 = true)
    (noSecureBoot : b.secureBootEnable = false) (noSecboot : b.sprdSecboot = false) (v : Verify)
    (mImgsize : Bytes → BitVec 32) {xml : XmlInfo} {before load : LoadValue} {malloc : Bool}
    {access : Bytes → Bool} (made : modemXmlToLoadInfo xml before malloc access = some load)
    {loadFlag skipFlag : BitVec 32} {s s' : σ} {trace : List (Event LoadOp LoadOp.Res)} {ret : Int}
    (runs : Prog.Runs env torn (loadImgFromTable b load loadFlag skipFlag) s trace s' (some ret))
    (table : KbcTable) :
    OwnSlots (kbcTable b v mImgsize table trace) (secureImages trace) ↔
      KeepsSlots b v xml (pathIsOk before.ioctrlIsOk xml.ioCtrol access) loadFlag skipFlag table := by
  obtain ⟨items, found, loadTable⟩ := loadTable_of_made made
  have images := secureImages_items found loadTable (loadImgFromTable_pass runs)
  have fills : secureBootLoadImg b v mImgsize =
      fun table img => fillVerifyTable v img.size img.addr img.pathW img.size table := by
    funext table img
    simp [secureBootLoadImg, vboot, noSecureBoot, noSecboot]
  rw [kbcTable, fills, images]
  exact ownSlots_iff

/-- A modem and its ldsp, which are written below `/proc/cptl`, or to `/dev/modem`. -/
def modemAndLdsp (ioCtrol : Bytes) : XmlInfo where
  dstPath := bytes "/proc/cptl/"
  ioCtrol := ioCtrol
  itemArry := some [
    { addr := 0x8000, size := 0x100, dstFile := MODEM_BANK, name := MODEM_BANK,
      flag := MODEM_IMG_FLAG ||| 1 <<< SECURE_FLAG },
    { addr := 0x9000, size := 0x200, dstFile := LDSP_BANK, name := LDSP_BANK,
      flag := MODEM_IMG_FLAG ||| 1 <<< SECURE_FLAG }]

/-- What is made of the document when everything it names is there. -/
def loadInfo (ioCtrol : Bytes) : LoadValue :=
  (modemXmlToLoadInfo (modemAndLdsp ioCtrol) {} true fun _ => true).getD {}

theorem loadInfo_made (ioCtrol : Bytes) :
    modemXmlToLoadInfo (modemAndLdsp ioCtrol) {} true (fun _ => true) = some (loadInfo ioCtrol) :=
  rfl

def vbootV2 : Build := { vbootV2 := true }

/-- One pass over it, whatever becomes of the images. -/
def pass (ioCtrol : Bytes) : List (Event LoadOp LoadOp.Res) :=
  trace (loadImgFromTable vbootV2 (loadInfo ioCtrol) MODEM_IMG_FLAG NONE_IMAG_FLAG) allFail

/-- Each image has a path of its own. -/
theorem own_paths_keep_slots :
    OwnSlots (kbcTable vbootV2 {} (fun _ => 0) (fun _ => {}) (pass [])) (secureImages (pass [])) := by
  have runs := @Prog.runs_run _ _ _ _ (fun o op r o' => Outcomes.answer o op = (r, o'))
    (fun _ _ _ => False) Outcomes.answer (fun _ _ => rfl)
    (loadImgFromTable vbootV2 (loadInfo []) MODEM_IMG_FLAG NONE_IMAG_FLAG) allFail
  apply (secure_images_keep_slots_iff rfl rfl rfl {} (fun _ => 0) (loadInfo_made []) runs
    (fun _ => {})).mpr
  intro item member slot isNamed
  have items : secureItems vbootV2 (modemAndLdsp []) false MODEM_IMG_FLAG NONE_IMAG_FLAG =
      (modemAndLdsp []).itemArry.getD [] := by decide
  have member : item ∈ (modemAndLdsp []).itemArry.getD [] := items ▸ member
  rcases List.mem_cons.mp member with rfl | member
  · obtain rfl := Option.some.inj (show some Slot.modem = some slot from isNamed)
    exact ⟨rfl, rfl⟩
  · obtain rfl := List.mem_singleton.mp member
    obtain rfl := Option.some.inj (show some Slot.ldsp = some slot from isNamed)
    exact ⟨rfl, rfl⟩

/-- Both images are written to the ioctl device, whose path says the slot of the modem. -/
theorem ioctl_path_mixes_slots :
    modemXmlToLoadInfo (modemAndLdsp (bytes "/dev/modem")) {} true (fun _ => true) =
        some (loadInfo (bytes "/dev/modem")) ∧
      ¬ OwnSlots (kbcTable vbootV2 {} (fun _ => 0) (fun _ => {}) (pass (bytes "/dev/modem")))
        (secureImages (pass (bytes "/dev/modem"))) := by
  refine ⟨loadInfo_made _, ?_⟩
  intro own
  have modem := own _ List.mem_cons_self .modem rfl
  exact absurd modem.1 (by decide)

end ModemControl.VerifyTable
