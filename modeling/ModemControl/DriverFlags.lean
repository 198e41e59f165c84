import ModemControl.NodeAddresses
import ModemControl.RegionInfo
import ModemControl.VerifyTable

/-! # Default load infos and the flags of their drivers: modem_load.c, xml_parse.c

Before any description is read, `modem_default_init_load_info` gives every image the paths
of a driver it knows, and notes whether that driver is there. A description replaces the
paths; the flags it can only set.
-/

namespace ModemControl.DriverFlags

open Foundation Load LoadCalls NodeAddresses XmlTags
open RegionInfo (LoadInfoS MODEM_BANK)
open VerifyTable (TGDSP_BANK GDSP_BANK LDSP_BANK CDSP_BANK)
open XmlParse (mstrncpy2 MODEM_START MODEM_STOP)

def MODEM_SIZE : BitVec 32 := 20 * 1024 * 1024
def DELTANV_SIZE : BitVec 32 := 1 * 1024 * 1024
def FIXNV_SIZE : BitVec 32 := 1 * 1024 * 1024
def RUNNV_SIZE : BitVec 32 := 2 * 1024 * 1024
def TGDSP_SIZE : BitVec 32 := 5 * 1024 * 1024 + 64 * 1024
def LDSP_SIZE : BitVec 32 := 12 * 1024 * 1024
def CDSP_SIZE : BitVec 32 := 1 * 1024 * 1024
def WARM_SIZE : BitVec 32 := 5 * 1024 * 1024
def CPCMDLINE_SIZE : BitVec 32 := 0x1000

def MODEM_FLAG : Nat := 9
def MODEM_DSP_FLAG : Nat := 10
def MODEM_OTHER_FLAG : Nat := 11

def DELTANV_BANK : Bytes := bytes "deltanv"
def DSP_BANK : Bytes := bytes "dsp"
def WARM_BANK : Bytes := bytes "warm"
def CMDLINE_BANK : Bytes := bytes "cpcmdline"
def FIXNV_BANK : Bytes := bytes "fixnv"
def RUNNV_BANK_RD : Bytes := bytes "runtimenv"
def RUNNV_BANK_WT : Bytes := bytes "runnv"

def PERSIST_MODEM_PROP : Bytes := bytes "persist.vendor.modem.nvp"
def PERSIST_MODEM_PATH : Bytes := bytes "ro.vendor.product.partitionpath"
def PROC_DEV_PROP : Bytes := bytes "ro.vendor.modem.dev"

def TD_MODEM : BitVec 32 := 0x3434
def W_MODEM : BitVec 32 := 0x5656
def LTE_MODEM : BitVec 32 := 0x7878

def IMAGE_LOAD_CP_NUM : Nat := 10
def IMAGE_LOAD_SP_NUM : Nat := 2

/-- What the default initialisation meets: the memory for the tables, the paths that are
    there, what `property_get` answers, the type of the modem and the load nodes. -/
structure DefaultInput where
  malloc : ImgType → Bool
  access : Bytes → Bool
  property : Bytes → Bytes
  modemType : BitVec 32
  nodes : List LoadNodeInfo

/-- `SET_2FLAG` of a flag that is zero. -/
def set2Flag (bit1 bit2 : Nat) : BitVec 32 := 1 <<< bit1 ||| 1 <<< bit2

def mstrncpy3 (str1 str2 str3 : Bytes) : Bytes := (str1 ++ str2 ++ str3).take MAX_PATH_LEN

/-- An entry that `memset` has cleared. -/
def cleared : ImageLoad := ⟨[], [], [], 0, 0, 0⟩

/-- Nothing stands for a table at NULL, which is cleared all the same. -/
def modemInitLoadInfo (malloc : Bool) (num : Nat) : Option LoadValueS :=
  if malloc then some { loadTable := List.replicate num cleared } else none

def modemInitSpLoadInfo (e : DefaultInput) : Option LoadValueS :=
  (modemInitLoadInfo (e.malloc .sp) IMAGE_LOAD_SP_NUM).map fun load =>
    if e.access (bytes "/proc/pmic") then spDefault (e.property PERSIST_MODEM_PATH)
    else { load with name := bytes "sp" }

/-- A bank that is read from a partition and written to a device. -/
def bank (e : DefaultInput) (name : Bytes) (size flag : BitVec 32) : ImageLoad where
  pathW := mstrncpy2 (e.property PROC_DEV_PROP) name
  pathR := mstrncpy3 (e.property PERSIST_MODEM_PATH) (e.property PERSIST_MODEM_PROP) name
  name := name
  addr := 0
  size := size
  flag := flag

/-- The gdsp has one of two names, on either side. -/
def gdspBank (e : DefaultInput) : ImageLoad :=
  let flag := set2Flag SECURE_FLAG MODEM_DSP_FLAG
  let tgdsp := bank e TGDSP_BANK TGDSP_SIZE flag
  let gdsp := bank e GDSP_BANK TGDSP_SIZE flag
  { (if e.access tgdsp.pathW then tgdsp else gdsp) with
    pathR := if e.access tgdsp.pathR then tgdsp.pathR else gdsp.pathR }

/-- The table of a cp whose driver is there. The banks of another type of modem have
    nothing but their flag. -/
def cpTable (e : DefaultInput) : List ImageLoad :=
  let secure := set2Flag SECURE_FLAG MODEM_FLAG
  let dsp := set2Flag SECURE_FLAG MODEM_DSP_FLAG
  let nv := set2Flag NV_FLAG MODEM_OTHER_FLAG
  let tdOrW := e.modemType = TD_MODEM ∨ e.modemType = W_MODEM
  let lte := e.modemType = LTE_MODEM
  let other : ImageLoad := { cleared with flag := dsp }
  [
    bank e MODEM_BANK (if tdOrW ∨ lte then MODEM_SIZE else 0) secure,
    bank e DELTANV_BANK (if lte then DELTANV_SIZE else 0) secure,
    if tdOrW then bank e DSP_BANK TGDSP_SIZE dsp else other,
    if lte then gdspBank e else other,
    if lte then bank e LDSP_BANK LDSP_SIZE dsp else other,
    if lte then bank e CDSP_BANK CDSP_SIZE dsp else other,
    if lte then bank e WARM_BANK WARM_SIZE dsp else other,
    { bank e CMDLINE_BANK CPCMDLINE_SIZE (set2Flag CMDLINE_FLAG MODEM_OTHER_FLAG) with
      pathR := bytes "/proc/cmdline" },
    bank e FIXNV_BANK FIXNV_SIZE nv,
    { bank e RUNNV_BANK_WT RUNNV_SIZE nv with
      pathR := (bank e RUNNV_BANK_RD RUNNV_SIZE nv).pathR }]

def modemInitCpLoadInfo (e : DefaultInput) : Option LoadValueS :=
  (modemInitLoadInfo (e.malloc .cp) IMAGE_LOAD_CP_NUM).map fun load =>
    if e.access (bytes "/proc/cptl") then
      { load with
        loadTable := cpTable e
        drvIsOk := true
        start := bytes "/proc/cptl/start"
        stop := bytes "/proc/cptl/stop"
        name := bytes "cp" }
    else { load with name := bytes "cp" }

/-- `modem_correct_image` with all of the load info. -/
def modemCorrectImageS (nodes : List LoadNodeInfo) (load : LoadValueS) : LoadValueS :=
  { load with toLoadValue := modemCorrectImage nodes load.toLoadValue }

/-- Nothing is done without nodes. -/
def modemCorrectModemInfo (nodes : List LoadNodeInfo) (m : LoadInfoS) : LoadInfoS :=
  if nodes.length = 0 then m
  else { m with cp := modemCorrectImageS nodes m.cp, sp := modemCorrectImageS nodes m.sp }

/-- The external variant; the internal one has no dp. -/
def modemDefaultInitLoadInfo (e : DefaultInput) : Option LoadInfoS := do
  let cp ← modemInitCpLoadInfo e
  let sp ← modemInitSpLoadInfo e
  let dp ← modemInitLoadInfo (e.malloc .dp) 1
  return modemCorrectModemInfo e.nodes ⟨cp, sp, dp⟩

/-- `modem_xml_to_load_info` for one image, with what it returns. -/
def modemXmlToLoadInfo (xml : ModemXmlInfo) (load : LoadValueS) (malloc : Bool)
    (access : Bytes → Bool) : Int × LoadValueS :=
  match XmlParse.modemXmlToLoadInfo xml.toXmlInfo load.toLoadValue malloc access with
  | none => (-1, load)
  | some _ => (0, modemXmlToLoadInfoS xml load malloc access)

/-- The path is set, and is there. -/
def Present (access : Bytes → Bool) (path : Bytes) : Prop := path ≠ [] ∧ access path = true

instance (access : Bytes → Bool) (path : Bytes) : Decidable (Present access path) :=
  inferInstanceAs (Decidable (_ ∧ _))

/-- The new paths are those of the description. -/
structure BuiltFrom (xml : ModemXmlInfo) (load : LoadValueS) : Prop where
  start : load.start = mstrncpy2 xml.dstPath MODEM_START
  stop : load.stop = mstrncpy2 xml.dstPath MODEM_STOP
  ioCtrl : load.ioCtrl = xml.ioCtrol.take MAX_PATH_LEN
  pathW : ∀ entry ∈ load.loadTable, ∃ item, entry.pathW =
    XmlParse.pathW xml.toXmlInfo load.ioctrlIsOk item

/-- A flag that is set when 0 is returned is right about the new path, and nothing is changed
    when -1 is. -/
structure FlagsMatch (xml : ModemXmlInfo) (access : Bytes → Bool) (load : LoadValueS)
    (res : Int × LoadValueS) : Prop where
  built : res.1 = 0 → BuiltFrom xml res.2
  drv : res.1 = 0 → res.2.drvIsOk = true → Present access xml.dstPath
  ioctrl : res.1 = 0 → res.2.ioctrlIsOk = true → Present access xml.ioCtrol
  kept : res.1 = -1 → res.2 = load

/-- The default driver of an image is there. -/
def DefaultInput.driver (e : DefaultInput) : ImgType → Bool
  | .cp => e.access (bytes "/proc/cptl")
  | .sp => e.access (bytes "/proc/pmic")
  | .dp => false

section

variable {e : DefaultInput} {loads : LoadInfoS}

theorem cp_flags {load : LoadValueS} (made : modemInitCpLoadInfo e = some load) :
    load.drvIsOk = e.driver .cp ∧ load.ioctrlIsOk = false := by
  obtain ⟨blank, new, rfl⟩ := Option.map_eq_some_iff.mp made
  unfold modemInitLoadInfo at new
  split at new
  · obtain rfl := Option.some.inj new
    cases there : e.access (bytes "/proc/cptl") <;> simp [DefaultInput.driver, there]
  · cases new

theorem sp_flags {load : LoadValueS} (made : modemInitSpLoadInfo e = some load) :
    load.drvIsOk = e.driver .sp ∧ load.ioctrlIsOk = false := by
  obtain ⟨blank, new, rfl⟩ := Option.map_eq_some_iff.mp made
  unfold modemInitLoadInfo at new
  split at new
  · obtain rfl := Option.some.inj new
    cases there : e.access (bytes "/proc/pmic") <;> simp [DefaultInput.driver, spDefault, there]
  · cases new

theorem dp_flags {load : LoadValueS} (made : modemInitLoadInfo (e.malloc .dp) 1 = some load) :
    load.drvIsOk = e.driver .dp ∧ load.ioctrlIsOk = false := by
  unfold modemInitLoadInfo at made
  split at made
  · obtain rfl := Option.some.inj made
    exact ⟨rfl, rfl⟩
  · cases made

/-- The nodes correct the tables only. -/
theorem corrected_flags (nodes : List LoadNodeInfo) (m : LoadInfoS) (img : ImgType) :
    ((modemCorrectModemInfo nodes m).value img).drvIsOk = (m.value img).drvIsOk ∧
      ((modemCorrectModemInfo nodes m).value img).ioctrlIsOk = (m.value img).ioctrlIsOk := by
  unfold modemCorrectModemInfo
  split
  · exact ⟨rfl, rfl⟩
  · cases img <;> exact ⟨rfl, rfl⟩

/-- What the default initialisation leaves of the flags. -/
theorem default_flags (made : modemDefaultInitLoadInfo e = some loads) (img : ImgType) :
    (loads.value img).drvIsOk = e.driver img ∧ (loads.value img).ioctrlIsOk = false := by
  simp only [modemDefaultInitLoadInfo, Option.bind_eq_bind, Option.bind_eq_some_iff] at made
  obtain ⟨cp, cpMade, sp, spMade, dp, dpMade, same⟩ := made
  obtain rfl := Option.some.inj same
  obtain ⟨drv, ioctrl⟩ := corrected_flags e.nodes ⟨cp, sp, dp⟩ img
  rw [drv, ioctrl]
  cases img with
  | cp => exact @cp_flags e cp cpMade
  | sp => exact @sp_flags e sp spMade
  | dp => exact dp_flags dpMade

end

section

variable {xml : ModemXmlInfo} {load : LoadValueS} {malloc : Bool} {access : Bytes → Bool}

theorem pathIsOk_iff {before : Bool} {path : Bytes} :
    XmlParse.pathIsOk before path access = true ↔ before = true ∨ Present access path := by
  simp [XmlParse.pathIsOk, Present]

/-- Without items or memory for the table. -/
theorem match_of_fail (fail : xml.itemArry = none ∨ malloc = false) :
    FlagsMatch xml access load (modemXmlToLoadInfo xml load malloc access) := by
  have failed : modemXmlToLoadInfo xml load malloc access = (-1, load) := by
    unfold modemXmlToLoadInfo XmlParse.modemXmlToLoadInfo
    rcases fail with noItems | noMemory
    · rw [noItems]
    · rw [noMemory]
      cases xml.itemArry <;> rfl
  rw [failed]
  exact ⟨nofun, nofun, nofun, fun _ => rfl⟩

/-- With both. -/
theorem made_of_items {items : List XmlParse.PartionItem} (found : xml.itemArry = some items) :
    ∃ load', modemXmlToLoadInfo xml load true access = (0, load') ∧ BuiltFrom xml load' ∧
      load'.drvIsOk = XmlParse.pathIsOk load.drvIsOk xml.dstPath access ∧
        load'.ioctrlIsOk = XmlParse.pathIsOk load.ioctrlIsOk xml.ioCtrol access := by
  refine ⟨modemXmlToLoadInfoS xml load true access, ?_, ?_, ?_⟩
  · unfold modemXmlToLoadInfo XmlParse.modemXmlToLoadInfo
    rw [found]
    rfl
  · unfold modemXmlToLoadInfoS XmlParse.modemXmlToLoadInfo
    rw [found]
    refine ⟨rfl, rfl, rfl, ?_⟩
    intro entry member
    obtain ⟨item, _, rfl⟩ := List.mem_map.mp member
    exact ⟨item, rfl⟩
  · unfold modemXmlToLoadInfoS XmlParse.modemXmlToLoadInfo
    rw [found]
    exact ⟨rfl, rfl⟩

/-- A flag that was set before stays set. -/
theorem match_iff (ioctrl : load.ioctrlIsOk = false) :
    FlagsMatch xml access load (modemXmlToLoadInfo xml load malloc access) ↔
      xml.itemArry = none ∨ malloc = false ∨ load.drvIsOk = false ∨ Present access xml.dstPath := by
  by_cases fail : xml.itemArry = none ∨ malloc = false
  · rw [← or_assoc]
    exact iff_of_true (match_of_fail fail) (.inl fail)
  rw [not_or, Bool.not_eq_false] at fail
  obtain ⟨items, found⟩ := Option.ne_none_iff_exists'.mp fail.1
  obtain ⟨load', result, built, drv, ioctrl'⟩ := @made_of_items xml load access items found
  rw [fail.2, result, found]
  simp only [reduceCtorEq, false_or]
  constructor
  · intro flags
    by_cases set : load.drvIsOk = true
    · right
      apply flags.drv rfl
      rw [drv]
      exact pathIsOk_iff.mpr (.inl set)
    · exact .inl (Bool.eq_false_iff.mpr set)
  · intro right
    refine ⟨fun _ => built, ?_, ?_, nofun⟩
    · intro _ set
      rw [drv] at set
      rcases pathIsOk_iff.mp set with before | present
      · exact right.resolve_left (by simp [before])
      · exact present
    · intro _ set
      rw [ioctrl'] at set
      exact (pathIsOk_iff.mp set).resolve_left (by simp [ioctrl])

end

/-- For every default initialisation, image, document and result of the access checks: the
    flags match the new paths exactly when no paths are made of the description, or there is
    no default driver, or the directory of the new one is there. -/
theorem flags_match_iff (e : DefaultInput) (loads : LoadInfoS) (img : ImgType) (doc : Document)
    (itemCnt : Nat) (s : XmlState) (malloc : Bool) (access : Bytes → Bool)
    (made : modemDefaultInitLoadInfo e = some loads) (parsed : modemXmlInit doc itemCnt = some s) :
    FlagsMatch s.cur access (loads.value img)
        (modemXmlToLoadInfo s.cur (loads.value img) malloc access) ↔
      allocated doc.tags = none ∨ malloc = false ∨ e.driver img = false ∨
        Present access s.cur.dstPath := by
  obtain ⟨drv, ioctrl⟩ := default_flags made img
  have after : After doc.tags s := run_after after_tag (after_start itemCnt) parsed
  rw [match_iff ioctrl, drv, ← after.length, Option.map_eq_none_iff]

/-- A cp with the old driver. -/
def cptl : DefaultInput where
  malloc := fun _ => true
  access := fun path => path == bytes "/proc/cptl"
  property := fun _ => bytes "not_find"
  modemType := LTE_MODEM
  nodes := []

/-- A description for a driver in this directory. -/
def described (dstPath : Bytes) : Document :=
  .parsed [[⟨DST_PATH, [(bytes "val", dstPath)], true, false⟩, partionCntTag (bytes "1")]]
    (.parseBuffer [] true)

/-- The directory of the new driver is there. -/
theorem flags_match_present : ∃ loads s, modemDefaultInitLoadInfo cptl = some loads ∧
    modemXmlInit (described (bytes "/dev/modem/")) 0 = some s ∧
      FlagsMatch s.cur (fun _ => true) (loads.value .cp)
        (modemXmlToLoadInfo s.cur (loads.value .cp) true fun _ => true) :=
  ⟨_, _, rfl, rfl, (flags_match_iff cptl _ .cp (described (bytes "/dev/modem/")) 0 _ true
    (fun _ => true) rfl rfl).mpr (.inr (.inr (.inr (by decide))))⟩

/-- It is not, and the flag is still set, from the driver that was there by default. -/
theorem missing_driver_flagged : ¬ ∀ (e : DefaultInput) (loads : LoadInfoS) (img : ImgType)
    (doc : Document) (itemCnt : Nat) (s : XmlState) (malloc : Bool) (access : Bytes → Bool),
    modemDefaultInitLoadInfo e = some loads → modemXmlInit doc itemCnt = some s →
      FlagsMatch s.cur access (loads.value img)
        (modemXmlToLoadInfo s.cur (loads.value img) malloc access) := by
  intro always
  have flags := always cptl _ .cp (described (bytes "/dev/modem/")) 0 _ true (fun _ => false) rfl rfl
  exact absurd (flags.drv rfl rfl) (by decide)

end ModemControl.DriverFlags
