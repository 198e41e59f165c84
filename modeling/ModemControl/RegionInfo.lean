import ModemControl.LoadPasses
import ModemControl.ModemHead
import ModemControl.XmlLoad

/-! # The regions a device is told of

`init_modem_img_info` hands the load table of each subsystem over to its device, and later
every pass over the table selects regions there by their number. The table of the device
has room for `MAX_REGION_CNT` regions; a longer one is not handed over at all.
-/

namespace ModemControl.RegionInfo

open Foundation Load LoadCalls ListenModem ModemHead XmlTags Prog

def MAX_REGION_NAME_LEN : Nat := 20
def MAX_REGION_CNT : Nat := 20

/-- `modem_region_info`. -/
structure ModemRegionInfo where
  address : BitVec 64
  size : BitVec 32
  name : Bytes
  deriving Repr, DecidableEq

/-- `modem_load_info`: the regions that are set, and that they fit the array. -/
structure ModemLoadInfo where
  modemBase : BitVec 64
  modemSize : BitVec 32
  allBase : BitVec 64
  allSize : BitVec 32
  regions : List ModemRegionInfo
  fits : regions.length ≤ MAX_REGION_CNT
  deriving Repr, DecidableEq

def ModemLoadInfo.regionCnt (info : ModemLoadInfo) : Nat := info.regions.length

/-- Where a region lies. -/
def ModemRegionInfo.place (r : ModemRegionInfo) : BitVec 64 × BitVec 32 := (r.address, r.size)

def place (entry : ImageLoad) : BitVec 64 × BitVec 32 := (entry.addr, entry.size)

def region (entry : ImageLoad) : ModemRegionInfo :=
  ⟨entry.addr, entry.size, entry.name.take MAX_REGION_NAME_LEN⟩

def modemConvertLoadinfo (value : LoadValueS) : Option ModemLoadInfo :=
  if valid : value.loadTable.length ≤ MAX_REGION_CNT ∧ value.loadTable.length ≠ 0 then
    some {
      modemBase := value.modemBase
      modemSize := value.modemSize.setWidth 32
      allBase := value.allBase
      allSize := value.allSize.setWidth 32
      regions := value.loadTable.map region
      fits := by rw [List.length_map]; exact valid.1 }
  else none

/-- The calls of the hand-over. Their results are not looked at. -/
inductive InfoCall where
  | lockWrite (path : Bytes)
  | setLoadInfo (path : Bytes) (info : ModemLoadInfo)
  | unlockWrite (path : Bytes)
  deriving Repr, DecidableEq

def modemLoadDoSetLoadInfo (load : LoadValueS) : List InfoCall :=
  if load.ioctrlIsOk then
    match modemConvertLoadinfo load with
    | none => []
    | some info => [.lockWrite load.ioCtrl, .setLoadInfo load.ioCtrl info, .unlockWrite load.ioCtrl]
  else []

/-- `cp_load_info`, `sp_load_info` and `dp_load_info` with all of their fields. -/
structure LoadInfoS where
  cp : LoadValueS
  sp : LoadValueS
  dp : LoadValueS
  deriving Repr, DecidableEq

def LoadInfoS.toLoadInfo (m : LoadInfoS) : LoadInfo :=
  ⟨m.cp.toLoadValue, m.sp.toLoadValue, m.dp.toLoadValue⟩

/-- The subsystems in the order of `modem_load_set_load_info`. -/
def handOver (v : Variant) (b : Build) (m : LoadInfoS) : List LoadValueS :=
  if b.removeSprdModem then [m.sp]
  else
    match v with
    | .external => [m.sp, m.cp, m.dp]
    | .internal => [m.sp, m.cp]

def modemLoadSetLoadInfo (v : Variant) (b : Build) (m : LoadInfoS) : List InfoCall :=
  (handOver v b m).flatMap modemLoadDoSetLoadInfo

/-- What the initialisation meets: the default values, the descriptions of the images, and
    the head that can be read of an image. -/
structure InitInput where
  default : LoadInfoS
  cp : XmlSource
  sp : XmlSource
  dp : XmlSource
  read : ImageLoad → Option Head

def modemXmlInitLoadInfo (v : Variant) (e : InitInput) (m : LoadInfoS) : Option LoadInfoS := do
  let (cp, itemCnt) ← initFromXml e.cp m.cp 0
  let (sp, itemCnt) ← initFromXml e.sp m.sp itemCnt
  match v with
  | .internal => return { m with cp := cp, sp := sp }
  | .external =>
      let (dp, _) ← initFromXml e.dp m.dp itemCnt
      return ⟨cp, sp, dp⟩

def MODEM_BANK : Bytes := bytes "modem"

def modemHeadGetHead (read : ImageLoad → Option Head) (load : LoadValueS) : Option Head :=
  (load.loadTable.find? fun img => img.name == MODEM_BANK).bind read

/-- `modem_img` is empty before. -/
def modemHeadCorrectLoadInfo (read : ImageLoad → Option Head) (load : LoadValueS) :
    Option LoadValueS :=
  match modemHeadGetHead read load with
  | none => some (modemHeadConvertImg {} load)
  | some head => (modemHeadConstructImg head {}).map fun img => modemHeadConvertImg img load

/-- The load infos, and the calls of the hand-over. -/
def initModemImgInfo (v : Variant) (b : Build) (e : InitInput) :
    Option (LoadInfoS × List InfoCall) := do
  let m ← modemXmlInitLoadInfo v e e.default
  let cp ← modemHeadCorrectLoadInfo e.read m.cp
  let m := { m with cp := cp }
  return (m, modemLoadSetLoadInfo v b m)

/-- The last load info that was handed to a device. -/
def lastInfo (calls : List InfoCall) (path : Bytes) : Option ModemLoadInfo :=
  calls.reverse.findSome? fun
    | .setLoadInfo p info => if p = path then some info else none
    | _ => none

/-- Region `i` of a device is known, and is entry `i` of this table. -/
def Known (calls : List InfoCall) (load : LoadValue) (i : Nat) (path : Bytes) : Prop :=
  ∃ info, lastInfo calls path = some info ∧ i < info.regionCnt ∧
    ∃ entry, load.loadTable[i]? = some entry ∧
      info.regions[i]?.map ModemRegionInfo.place = some (place entry)

/-- A region that is selected for writing meets what is asked of it. -/
def OnRegion (asked : Nat → Bytes → Prop) : LoadOp → Prop
  | .iocmd (.setWriteRegion i) path => asked i path
  | _ => True

/-- Every region that any load run selects for a subsystem with an ioctl device is known
    there. -/
structure RegionsKnown (calls : List InfoCall) (v : Variant) (b : Build) (m : LoadInfo) : Prop where
  loadModemImg : ∀ loadType, Calls
    (OnDevice m fun img pass => Calls (OnRegion (Known calls (loadValue m img)))
      (Load.loadImgFromTable b (loadValue m img) pass.loadFlag pass.skipFlag))
    (loadModemImg v b m loadType)
  loadSplImg : v = .external → Calls (OnRegion (Known calls m.cp)) (Load.loadSplImg b m)

/-- This subsystem hands its table over to this device. -/
def handsOver (path : Bytes) (load : LoadValueS) : Bool :=
  load.ioctrlIsOk && load.ioCtrl == path && load.loadTable.length ≤ MAX_REGION_CNT &&
    load.loadTable.length != 0

/-- The last subsystem that does. -/
def lastHanded (v : Variant) (b : Build) (m : LoadInfoS) (path : Bytes) : Option LoadValueS :=
  (handOver v b m).reverse.find? (handsOver path)

/-- Every entry that a pass may select stands with the same address and size in the table
    that its device was handed last. -/
def TablesHanded (v : Variant) (b : Build) (m : LoadInfoS) : Prop :=
  ∀ img, (loadValue m.toLoadInfo img).ioctrlIsOk → ∀ pass ∈ passes v b img,
    ∀ (i : Nat) (entry : ImageLoad),
    (loadValue m.toLoadInfo img).loadTable[i]? = some entry →
    selected pass.loadFlag pass.skipFlag entry →
    ∃ last, lastHanded v b m (loadValue m.toLoadInfo img).ioCtrl = some last ∧
      last.loadTable[i]?.map place = some (place entry)

/-- A table of a valid length is converted entry by entry. -/
theorem converted_of_valid {load : LoadValueS}
    (valid : load.loadTable.length ≤ MAX_REGION_CNT ∧ load.loadTable.length ≠ 0) :
    ∃ info, modemConvertLoadinfo load = some info ∧ info.regions = load.loadTable.map region := by
  refine ⟨_, dif_pos valid, rfl⟩

theorem handsOver_iff {path : Bytes} {load : LoadValueS} :
    handsOver path load = true ↔ load.ioctrlIsOk = true ∧ load.ioCtrl = path ∧
      load.loadTable.length ≤ MAX_REGION_CNT ∧ load.loadTable.length ≠ 0 := by
  simp [handsOver, and_assoc]

theorem converted_of_handsOver {path : Bytes} {load : LoadValueS} (hands : handsOver path load = true) :
    ∃ info, modemConvertLoadinfo load = some info ∧ info.regions = load.loadTable.map region :=
  converted_of_valid (handsOver_iff.mp hands).2.2

theorem lastInfo_append (first last : List InfoCall) (path : Bytes) :
    lastInfo (first ++ last) path = (lastInfo last path).or (lastInfo first path) := by
  simp only [lastInfo, List.reverse_append, List.findSome?_append]

theorem lastInfo_one (load : LoadValueS) (path : Bytes) :
    lastInfo (modemLoadDoSetLoadInfo load) path =
      if handsOver path load then modemConvertLoadinfo load else none := by
  unfold modemLoadDoSetLoadInfo
  by_cases device : load.ioctrlIsOk = true
  · by_cases valid : load.loadTable.length ≤ MAX_REGION_CNT ∧ load.loadTable.length ≠ 0
    · obtain ⟨info, converted, _⟩ := converted_of_valid valid
      rw [if_pos device, converted]
      by_cases here : load.ioCtrl = path <;>
        simp [lastInfo, handsOver_iff, device, valid.1, valid.2, here]
    · have none : modemConvertLoadinfo load = none := dif_neg valid
      rw [if_pos device, none, ite_self]
      rfl
  · have not : ¬ handsOver path load = true := fun hands => device (handsOver_iff.mp hands).1
    rw [if_neg device, if_neg not]
    rfl

/-- What a device was handed last is the table of the last subsystem that handed one over
    to it. -/
theorem lastInfo_handed (loads : List LoadValueS) (path : Bytes) :
    lastInfo (loads.flatMap modemLoadDoSetLoadInfo) path =
      (loads.reverse.find? (handsOver path)).bind modemConvertLoadinfo := by
  induction loads with
  | nil => rfl
  | cons load rest ih =>
      rw [List.flatMap_cons, lastInfo_append, ih, lastInfo_one, List.reverse_cons, List.find?_append]
      cases later : rest.reverse.find? (handsOver path) with
      | none => by_cases hands : handsOver path load = true <;> simp [hands]
      | some last =>
          obtain ⟨info, converted, _⟩ := converted_of_handsOver (List.find?_some later)
          simp [converted]

/-- A region is known exactly when the table handed over last has the entry there. -/
theorem known_iff (v : Variant) (b : Build) (m : LoadInfoS) (load : LoadValue) (i : Nat) (path : Bytes) :
    Known (modemLoadSetLoadInfo v b m) load i path ↔
      ∃ entry, load.loadTable[i]? = some entry ∧
        ∃ last, lastHanded v b m path = some last ∧
          last.loadTable[i]?.map place = some (place entry) := by
  unfold Known modemLoadSetLoadInfo
  rw [lastInfo_handed, ← lastHanded]
  cases handed : lastHanded v b m path with
  | none => simp
  | some last =>
      obtain ⟨info, converted, regions⟩ := converted_of_handsOver (List.find?_some handed)
      have places : info.regions[i]?.map ModemRegionInfo.place = last.loadTable[i]?.map place := by
        rw [regions, List.getElem?_map, Option.map_map]
        rfl
      simp only [Option.bind_some, converted, Option.some.injEq, exists_eq_left', places]
      constructor
      · intro known
        exact known.2
      · intro handedOver
        obtain ⟨entry, found, same⟩ := handedOver
        refine ⟨?_, entry, found, same⟩
        obtain ⟨r, there, _⟩ := Option.map_eq_some_iff.mp (places.trans same)
        exact (List.getElem?_eq_some_iff.mp there).1

section

variable {b : Build} {load : LoadValue} {asked : Nat → Bytes → Prop}

theorem loadEntry_calls_iff (i : Nat) (img : ImageLoad) :
    Calls (OnRegion asked) (loadEntry b load i img) ↔ (load.ioctrlIsOk → asked i load.ioCtrl) := by
  unfold loadEntry
  rw [calls_bind_iff]
  constructor
  · intro calls device
    have selects := calls.1
    rw [device] at selects
    exact selects.1
  · intro asks
    constructor
    · cases device : load.ioctrlIsOk with
      | true => exact ⟨asks device, fun _ => trivial⟩
      | false => trivial
    · intro _ _
      split
      · exact ⟨trivial, fun _ => trivial⟩
      · split
        · exact ⟨trivial, fun _ => trivial⟩
        · split
          · exact ⟨trivial, fun _ => trivial⟩
          · split
            · exact ⟨trivial, fun _ => trivial⟩
            · exact ⟨trivial, fun _ => ⟨trivial, fun _ => trivial⟩⟩

theorem loadEntries_calls_iff (loadFlag skipFlag : BitVec 32) (table : List ImageLoad) (i : Nat)
    (ret : Int) :
    Calls (OnRegion asked) (loadEntries b load loadFlag skipFlag table i ret) ↔
      ∀ (k : Nat) (entry : ImageLoad), table[k]? = some entry → selected loadFlag skipFlag entry →
        load.ioctrlIsOk → asked (i + k) load.ioCtrl := by
  induction table generalizing i ret with
  | nil => simp [loadEntries, Calls]
  | cons img rest ih =>
      have tail : (∀ (k : Nat) (entry : ImageLoad), (img :: rest)[k]? = some entry →
          selected loadFlag skipFlag entry → load.ioctrlIsOk → asked (i + k) load.ioCtrl) ↔
          (selected loadFlag skipFlag img → load.ioctrlIsOk → asked i load.ioCtrl) ∧
          ∀ (k : Nat) (entry : ImageLoad), rest[k]? = some entry →
            selected loadFlag skipFlag entry → load.ioctrlIsOk → asked (i + 1 + k) load.ioCtrl := by
        constructor
        · intro all
          refine ⟨all 0 img rfl, ?_⟩
          intro k entry found
          rw [Nat.add_right_comm]
          exact all (k + 1) entry found
        · intro both k entry found
          cases k with
          | zero =>
              obtain rfl := Option.some.inj found
              exact both.1
          | succ k =>
              rw [← Nat.add_assoc, Nat.add_right_comm]
              exact both.2 k entry found
      rw [tail, loadEntries]
      split
      · rename_i chosen
        rw [calls_bind_iff, loadEntry_calls_iff]
        obtain ⟨r, returned⟩ := exists_returns (loadEntry b load i img)
        constructor
        · intro both
          exact ⟨fun _ => both.1, (ih (i + 1) (ret + r)).mp (both.2 r returned)⟩
        · intro both
          exact ⟨both.1 chosen, fun r' _ => (ih (i + 1) (ret + r')).mpr both.2⟩
      · rename_i skipped
        rw [ih (i + 1) ret]
        constructor
        · intro later
          exact ⟨fun chosen => absurd chosen skipped, later⟩
        · intro both
          exact both.2

/-- The regions that a pass over a table selects. -/
theorem loadImgFromTable_calls_iff (loadFlag skipFlag : BitVec 32) :
    Calls (OnRegion asked) (Load.loadImgFromTable b load loadFlag skipFlag) ↔
      ∀ (i : Nat) (entry : ImageLoad), load.loadTable[i]? = some entry →
        selected loadFlag skipFlag entry → load.ioctrlIsOk → asked i load.ioCtrl := by
  simp only [Load.loadImgFromTable, loadEntries_calls_iff, Nat.zero_add]

end

/-- `load_spl_img` makes one pass, over the table of a cp with an ioctl device. -/
theorem loadSplImg_calls_iff (b : Build) (m : LoadInfo) (asked : Nat → Bytes → Prop) :
    Calls (OnRegion asked) (loadSplImg b m) ↔
      ((loadValue m .cp).ioctrlIsOk → Calls (OnRegion asked)
        (Load.loadImgFromTable b (loadValue m .cp) SPL_IMG_FLAG NONE_IMAG_FLAG)) := by
  unfold loadSplImg loadValue
  cases device : m.cp.ioctrlIsOk with
  | false => simp [Calls]
  | true =>
      rw [if_pos rfl]
      constructor
      · intro calls _
        obtain ⟨_, locked⟩ := exists_returns (modemLockWrite m.cp.ioCtrl)
        obtain ⟨_, cleared⟩ := exists_returns (Load.modemSetRemoteFlag m.cp.ioCtrl REMOTE_CLEAR_FLAG)
        exact ((calls.behind locked).behind cleared).first
      · intro asks
        refine ⟨trivial, fun _ => ⟨trivial, fun _ => ?_⟩⟩
        apply Calls.bind (asks rfl)
        intro ret
        split
        · exact ⟨trivial, fun _ => trivial⟩
        · exact ⟨trivial, fun _ => ⟨trivial, fun _ => trivial⟩⟩

theorem mem_passes {v : Variant} {b : Build} {img : ImgType} {pass : Pass} :
    pass ∈ passes v b img ↔ pass ∈ runPasses v b img ∨
      (v = .external ∧ img = .cp ∧ pass = ⟨SPL_IMG_FLAG, NONE_IMAG_FLAG⟩) := by
  unfold passes
  rw [List.mem_append]
  split
  · rename_i spl
    simp [spl.1, spl.2]
  · rename_i other
    simp only [List.not_mem_nil, or_false]
    constructor
    · exact Or.inl
    · intro member
      rcases member with made | spl
      · exact made
      · exact absurd ⟨spl.1, spl.2.1⟩ other

theorem handed_of_init {v : Variant} {b : Build} {e : InitInput} {m : LoadInfoS}
    {calls : List InfoCall} (init : initModemImgInfo v b e = some (m, calls)) :
    calls = modemLoadSetLoadInfo v b m := by
  unfold initModemImgInfo at init
  obtain ⟨m₁, _, init⟩ := Option.bind_eq_some_iff.mp init
  obtain ⟨cp, _, init⟩ := Option.bind_eq_some_iff.mp init
  obtain ⟨rfl, rfl⟩ := Prod.mk.inj (Option.some.inj init)
  rfl

theorem pass_known_iff (v : Variant) (b : Build) (m : LoadInfoS) {load : LoadValue}
    (device : load.ioctrlIsOk = true) (loadFlag skipFlag : BitVec 32) :
    Calls (OnRegion (Known (modemLoadSetLoadInfo v b m) load))
        (Load.loadImgFromTable b load loadFlag skipFlag) ↔
      ∀ (i : Nat) (entry : ImageLoad), load.loadTable[i]? = some entry →
        selected loadFlag skipFlag entry →
        ∃ last, lastHanded v b m load.ioCtrl = some last ∧
          last.loadTable[i]?.map place = some (place entry) := by
  rw [loadImgFromTable_calls_iff]
  constructor
  · intro known i entry found chosen
    obtain ⟨entry', found', same⟩ := (known_iff v b m load i load.ioCtrl).mp (known i entry found chosen device)
    obtain rfl := Option.some.inj (found.symm.trans found')
    exact same
  · intro handed i entry found chosen _
    exact (known_iff v b m load i load.ioCtrl).mpr ⟨entry, found, handed i entry found chosen⟩

/-- What the loads ask for is known to the devices exactly when the tables were handed over. -/
theorem known_iff_handed (v : Variant) (b : Build) (m : LoadInfoS) :
    RegionsKnown (modemLoadSetLoadInfo v b m) v b m.toLoadInfo ↔ TablesHanded v b m := by
  constructor
  · intro known img device pass member
    rcases mem_passes.mp member with made | spl
    · have runs := (loadModemImg_calls_iff v b m.toLoadInfo _).mp known.loadModemImg img device pass made
      exact (pass_known_iff v b m device pass.loadFlag pass.skipFlag).mp runs
    · obtain ⟨external, rfl, rfl⟩ := spl
      have runs := (loadSplImg_calls_iff b m.toLoadInfo _).mp (known.loadSplImg external) device
      exact (pass_known_iff v b m device SPL_IMG_FLAG NONE_IMAG_FLAG).mp runs
  · intro handed
    constructor
    · apply (loadModemImg_calls_iff v b m.toLoadInfo _).mpr
      intro img device pass made
      exact (pass_known_iff v b m device pass.loadFlag pass.skipFlag).mpr
        (handed img device pass (mem_passes.mpr (.inl made)))
    · intro external
      apply (loadSplImg_calls_iff b m.toLoadInfo _).mpr
      intro device
      exact (pass_known_iff v b m device SPL_IMG_FLAG NONE_IMAG_FLAG).mpr
        (handed .cp device ⟨SPL_IMG_FLAG, NONE_IMAG_FLAG⟩ (mem_passes.mpr (.inr ⟨external, rfl, rfl⟩)))

/-- In the loads after an initialisation the devices know every region they are asked for
    exactly when the tables were handed over. -/
theorem regions_known_iff (v : Variant) (b : Build) (e : InitInput) (m : LoadInfoS)
    (calls : List InfoCall) (init : initModemImgInfo v b e = some (m, calls)) :
    RegionsKnown calls v b m.toLoadInfo ↔ TablesHanded v b m := by
  obtain rfl := handed_of_init init
  exact known_iff_handed v b m

/-- The load info of an image, with all of its fields. -/
def LoadInfoS.value (m : LoadInfoS) : ImgType → LoadValueS
  | .cp => m.cp
  | .sp => m.sp
  | .dp => m.dp

theorem value_toLoadValue (m : LoadInfoS) (img : ImgType) :
    loadValue m.toLoadInfo img = (m.value img).toLoadValue := by
  cases img <;> rfl

theorem mem_handOver {v : Variant} {b : Build} {m : LoadInfoS} (kept : b.removeSprdModem = false)
    {img : ImgType} {pass : Pass} (made : pass ∈ passes v b img) : m.value img ∈ handOver v b m := by
  unfold handOver
  rw [kept]
  cases v <;> cases img <;> simp [LoadInfoS.value, passes, runPasses] at made ⊢

/-- Tables that fit, of subsystems that do not share a device, are all handed over. -/
theorem tablesHanded_of_small {v : Variant} {b : Build} {m : LoadInfoS}
    (kept : b.removeSprdModem = false)
    (small : ∀ load ∈ handOver v b m, load.loadTable.length ≤ MAX_REGION_CNT)
    (own : ∀ load ∈ handOver v b m, ∀ load' ∈ handOver v b m, load.ioctrlIsOk → load'.ioctrlIsOk →
      load.ioCtrl = load'.ioCtrl → load.loadTable = load'.loadTable) :
    TablesHanded v b m := by
  intro img device pass made i entry found _
  rw [value_toLoadValue] at device found ⊢
  have member : m.value img ∈ handOver v b m := mem_handOver kept made
  have some : (m.value img).loadTable.length ≠ 0 := by
    intro empty
    rw [List.length_eq_zero_iff.mp empty] at found
    cases found
  have hands : handsOver (m.value img).ioCtrl (m.value img) = true :=
    handsOver_iff.mpr ⟨device, rfl, small _ member, some⟩
  cases last : lastHanded v b m (m.value img).ioCtrl with
  | none =>
      have never := List.find?_eq_none.mp last (m.value img) (List.mem_reverse.mpr member)
      exact absurd hands never
  | some other =>
      have there : other ∈ handOver v b m :=
        List.mem_reverse.mp (List.mem_of_find?_eq_some last)
      obtain ⟨device', path, _⟩ := handsOver_iff.mp (List.find?_some last)
      have same := own other there (m.value img) member device' device path
      exact ⟨other, rfl, by rw [same, found]; rfl⟩

def ioctlPathTag : Tag where
  name := IOCTL_PATH
  attrs := [(bytes "val", bytes "/dev/modem")]

def modemTag : Tag where
  name := PARTITION
  attrs := [(bytes "base", bytes "0x8B000000"), (bytes "size", bytes "0x100"),
    (bytes "flag", bytes "0x200")]

/-- A description of the cp with one partition, which says that there are so many. -/
def cpInput (cnt : Bytes) : InitInput where
  default := ⟨{}, {}, {}⟩
  cp := {
    doc := .parsed [[ioctlPathTag, partionCntTag cnt, modemTag]] (.parseBuffer [] true)
    access := fun path => path == bytes "/dev/modem" }
  sp := { doc := .absent }
  dp := { doc := .absent }
  read := fun _ => none

def cpEntry (addr : BitVec 64) (size flag : BitVec 32) : ImageLoad where
  pathW := bytes "/dev/modem"
  pathR := []
  name := []
  addr := addr
  size := size
  flag := flag

/-- The load infos then, with the items that no partition has filled in. -/
def cpInfos (empty : Nat) : LoadInfoS where
  cp := {
    loadTable := cpEntry 0x8B000000 0x100 0x200 :: List.replicate empty (cpEntry 0 0 0)
    ioctrlIsOk := true
    ioCtrl := bytes "/dev/modem"
    start := bytes "start"
    stop := bytes "stop"
    xmlIsOk := true }
  sp := {}
  dp := {}

theorem cp_one_initialised : initModemImgInfo .external {} (cpInput (bytes "1")) =
    some (cpInfos 0, modemLoadSetLoadInfo .external {} (cpInfos 0)) := by
  rfl

theorem cp_many_initialised : initModemImgInfo .external {} (cpInput (bytes "21")) =
    some (cpInfos 20, modemLoadSetLoadInfo .external {} (cpInfos 20)) := by
  rfl

/-- With one item the modem can be loaded. -/
theorem cp_one_known :
    RegionsKnown (modemLoadSetLoadInfo .external {} (cpInfos 0)) .external {} (cpInfos 0).toLoadInfo := by
  apply (regions_known_iff .external {} (cpInput (bytes "1")) (cpInfos 0) _ cp_one_initialised).mpr
  apply tablesHanded_of_small rfl
  · decide
  · decide

/-- With 21 items nothing is handed over, and the modem is loaded all the same. -/
theorem cp_many_unknown :
    initModemImgInfo .external {} (cpInput (bytes "21")) =
        some (cpInfos 20, modemLoadSetLoadInfo .external {} (cpInfos 20)) ∧
      ¬ RegionsKnown (modemLoadSetLoadInfo .external {} (cpInfos 20)) .external {}
        (cpInfos 20).toLoadInfo := by
  refine ⟨cp_many_initialised, ?_⟩
  intro known
  have handed := (known_iff_handed .external {} (cpInfos 20)).mp known
  obtain ⟨last, found, _⟩ := handed .cp rfl ⟨MODEM_IMG_FLAG, MODEM_HEAD_IMG_FLAG⟩ (by decide) 0
    (cpEntry 0x8B000000 0x100 0x200) rfl (by decide)
  have none : lastHanded .external {} (cpInfos 20)
      (loadValue (cpInfos 20).toLoadInfo .cp).ioCtrl = none := by decide
  rw [none] at found
  cases found

end ModemControl.RegionInfo
