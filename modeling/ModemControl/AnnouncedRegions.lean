import ModemControl.DevicePasses
import ModemControl.HeadCorrect

/-! # The regions a device was told of

From the descriptions of the images to the memory of the devices: behind
`init_modem_img_info` a pass over the table of a subsystem with an ioctl device fills the
regions that this device was told of, and each of them with the image of its own entry.
-/

namespace ModemControl.DeviceMemory

open Foundation Load LoadFiles ListenModem LoadCalls RegionInfo ModemHead XmlTags

/-- All images are written through the ioctl device, where there is one. -/
def ThroughDevice (load : LoadValue) : Prop :=
  load.ioctrlIsOk = true → ∀ img ∈ load.loadTable, img.pathW = load.ioCtrl

theorem throughDevice_none {load : LoadValue} (none : load.ioctrlIsOk = false) : ThroughDevice load := by
  intro device
  rw [none] at device
  cases device

theorem throughDevice_xml {xml : XmlParse.XmlInfo} {load load' : LoadValue} {malloc : Bool}
    {access : Bytes → Bool}
    (made : XmlParse.modemXmlToLoadInfo xml load malloc access = some load') :
    ThroughDevice load' := by
  rw [XmlParse.modemXmlToLoadInfo] at made
  split at made
  · cases made
  · split at made
    · obtain rfl := Option.some.inj made
      intro device img member
      obtain ⟨item, _, rfl⟩ := List.mem_map.mp member
      exact if_pos device
    · cases made

theorem throughDevice_init {src : XmlSource} {load load' : LoadValueS} {itemCnt itemCnt' : Nat}
    (none : load.ioctrlIsOk = false) (init : initFromXml src load itemCnt = some (load', itemCnt')) :
    ThroughDevice load'.toLoadValue := by
  obtain ⟨parsed, _, same⟩ := Option.map_eq_some_iff.mp init
  obtain ⟨rfl, _⟩ := Prod.mk.inj same
  unfold modemXmlToLoadInfoS
  split
  · exact throughDevice_none none
  · rename_i made
    exact throughDevice_xml made

/-- The head of the modem changes addresses and sizes only. -/
theorem throughDevice_correct {read : ImageLoad → Option Head} {load load' : LoadValueS}
    (through : ThroughDevice load.toLoadValue)
    (corrected : modemHeadCorrectLoadInfo read load = some load') :
    ThroughDevice load'.toLoadValue := by
  rcases HeadCorrect.corrected_of_load corrected with rfl | ⟨regions, done⟩
  · exact through
  · intro device entry member
    obtain ⟨before, there, kept⟩ := done.entry member
    have ioctrlIsOk : load'.ioctrlIsOk = load.ioctrlIsOk := by rw [done.rest]
    have ioCtrl : load'.ioCtrl = load.ioCtrl := by rw [done.rest]
    rw [kept.rest, ioCtrl]
    exact through (ioctrlIsOk ▸ device) before there

section

variable {v : Variant} {b : Build} {e : InitInput} {m : LoadInfoS} {calls : List InfoCall}

theorem throughDevice_modemXmlInit
    (none : ∀ x, (e.default.value x).ioctrlIsOk = false)
    (init : modemXmlInitLoadInfo v e e.default = some m) (x : ImgType) :
    ThroughDevice (m.value x).toLoadValue := by
  obtain ⟨⟨cp, itemCnt⟩, cpInit, init⟩ := Option.bind_eq_some_iff.mp init
  obtain ⟨⟨sp, itemCnt'⟩, spInit, init⟩ := Option.bind_eq_some_iff.mp init
  have cpThrough := throughDevice_init (none .cp) cpInit
  have spThrough := throughDevice_init (none .sp) spInit
  cases v with
  | internal =>
      obtain rfl := Option.some.inj init
      cases x with
      | cp => exact cpThrough
      | sp => exact spThrough
      | dp => exact throughDevice_none (none .dp)
  | external =>
      obtain ⟨⟨dp, _⟩, dpInit, init⟩ := Option.bind_eq_some_iff.mp init
      obtain rfl := Option.some.inj init
      cases x with
      | cp => exact cpThrough
      | sp => exact spThrough
      | dp => exact throughDevice_init (none .dp) dpInit

/-- Without a device by default, the initialisation leaves none that its images bypass. -/
theorem throughDevice_initialised (none : ∀ x, (e.default.value x).ioctrlIsOk = false)
    (init : initModemImgInfo v b e = some (m, calls)) (x : ImgType) :
    ThroughDevice (m.value x).toLoadValue := by
  unfold initModemImgInfo at init
  obtain ⟨m₁, xml, init⟩ := Option.bind_eq_some_iff.mp init
  obtain ⟨cp, corrected, init⟩ := Option.bind_eq_some_iff.mp init
  obtain ⟨rfl, _⟩ := Prod.mk.inj (Option.some.inj init)
  have through := throughDevice_modemXmlInit none xml
  cases x with
  | cp => exact throughDevice_correct (through .cp) corrected
  | sp => exact through .sp
  | dp => exact through .dp

end

section

variable {c : Setup} {img : ImageLoad} {content : Option Bytes}

/-- Where an image begins that has no SCI headers. -/
def startOf (c : Setup) (img : ImageLoad) : BitVec 32 :=
  if secured c.build img then LoadSizes.secureOffset c.build c.headers img else 0

/-- The image is all that the load looks for in its file: there are no SCI headers at the start
    of it where they are looked for, and no certificate is added to its size. -/
structure Bare (c : Setup) (img : ImageLoad) (content : Option Bytes) : Prop where
  noHeaders : strstr img.pathR ImgInfo.MODEM_BANK = true →
    ¬ ImgInfo.MODEM_MAGIC <+: (content.getD []).drop (startOf c img).toNat
  noCert : secured c.build img = true → LoadSizes.certSize c.build img = 0

/-- Whatever is read at the place of the headers, they are not found where there are none. -/
theorem decode_bare {pos : Nat} {got : Option Bytes}
    (none : ¬ ImgInfo.MODEM_MAGIC <+: (content.getD []).drop pos)
    (read : got = Option.none ∨ ∃ data count, got = some data ∧
      data <+: ((content.getD []).drop pos).take count) :
    ImgInfo.decode img got = ImgInfo.wholeImage img := by
  unfold ImgInfo.decode
  split
  · rw [if_neg]
    intro magic
    rcases read with rfl | ⟨data, count, rfl, part⟩
    · exact absurd magic (by decide)
    · apply none
      rw [← magic]
      exact ((List.take_prefix _ _).trans part).trans (List.take_prefix _ _)
  · rfl

/-- `get_modem_img_info` looks at the files of modem images only. -/
theorem info_whole {offset : BitVec 32} {trace : List (Event ImgInfo.ImgOp ImgInfo.ImgOp.Res)}
    {pos : Nat} {info : ImgInfo.Info}
    (bare : strstr img.pathR ImgInfo.MODEM_BANK = true →
      ¬ ImgInfo.MODEM_MAGIC <+: (content.getD []).drop offset.toNat)
    (runs : Prog.Runs (ReadFile content) Uncut (ImgInfo.getModemImgInfo img offset) 0 trace pos
      (some info)) : info = ImgInfo.wholeImage img := by
  unfold ImgInfo.getModemImgInfo at runs
  split at runs
  · rename_i bank
    obtain ⟨opened, _, _, ⟨_, rfl⟩, runs, _⟩ := runs.call_inv
    cases opened with
    | false =>
        obtain ⟨_, _, same⟩ := runs.ret_inv
        exact Option.some.inj same
    | true =>
        obtain ⟨moved, _, _, sought, runs, _⟩ := runs.call_inv
        dsimp only [Prog.bind] at runs
        split at runs
        · obtain ⟨_, _, _, _, runs, _⟩ := runs.call_inv
          obtain ⟨_, _, same⟩ := runs.ret_inv
          exact Option.some.inj same
        · rename_i there
          have place : moved = (offset.toNat : Int) := not_not.mp there
          obtain ⟨got, _, _, read, runs, _⟩ := runs.call_inv
          obtain ⟨_, _, _, _, runs, _⟩ := runs.call_inv
          obtain ⟨_, _, same⟩ := runs.ret_inv
          rw [Option.some.inj same]
          rcases sought with ⟨_, rfl⟩ | ⟨failed, _⟩
          · apply decode_bare (bare bank)
            rcases read with ⟨none, _⟩ | ⟨data, some, part, _⟩
            · exact Or.inl none
            · exact Or.inr ⟨data, _, some, part⟩
          · have negative : (offset.toNat : Int) = -1 := place.symm.trans failed
            omega
  · obtain ⟨_, _, same⟩ := runs.ret_inv
    exact Option.some.inj same

/-- A bare image is loaded whole, with the size of its entry. -/
theorem extent_whole (bare : Bare c img content) {offset : BitVec 32} {size : BitVec 64}
    (extent : Extent c img content (offset, size)) :
    offset = startOf c img ∧ size.setWidth 32 = img.size := by
  have noHeaders := bare.noHeaders
  unfold Extent at extent
  unfold startOf at noHeaders ⊢
  split at extent
  · rename_i isSecured
    rw [if_pos isSecured] at noHeaders ⊢
    obtain ⟨_, _, runs⟩ := extent
    rcases runs.bind_inv with ⟨_, none⟩ | ⟨info, _, _, _, found, runs, _⟩
    · cases none
    · obtain rfl := info_whole noHeaders found
      obtain ⟨_, _, same⟩ := runs.ret_inv
      obtain ⟨rfl, rfl⟩ := Prod.mk.inj (Option.some.inj same)
      rw [bare.noCert isSecured]
      constructor
      · exact BitVec.zero_add _
      · simp
  · rename_i notSecured
    rw [if_neg notSecured] at noHeaders ⊢
    obtain ⟨_, _, runs⟩ := extent
    rcases runs.bind_inv with ⟨_, none⟩ | ⟨info, _, _, _, found, runs, _⟩
    · cases none
    · obtain rfl := info_whole (by exact noHeaders) found
      obtain ⟨_, _, same⟩ := runs.ret_inv
      obtain ⟨rfl, rfl⟩ := Prod.mk.inj (Option.some.inj same)
      exact ⟨rfl, by simp⟩

end

/-- What is to be said of a pass over the table of a device that was told of regions. -/
structure FillsRegions (c : Setup) (calls : List InfoCall) (load : LoadValue)
    (loadFlag skipFlag : BitVec 32) (ret : Int) (s s' : Devices) : Prop where
  filled : ret = 0 → ∀ i img, load.loadTable[i]? = some img →
    selected loadFlag skipFlag img = true → special img = false →
    Bare c img (s.file img.pathR) →
    ∃ info r, lastInfo calls load.ioCtrl = some info ∧ info.regions[i]? = some r ∧
      (Countable r.size → PutInto (s.file img.pathR) (startOf c img) r.size
        (s.memory (load.ioCtrl, i)) (s'.memory (load.ioCtrl, i)))
  others : ∀ path i, (path = load.ioCtrl → ∀ img, load.loadTable[i]? = some img →
    selected loadFlag skipFlag img = false) → s'.memory (path, i) = s.memory (path, i)

theorem target_device {load : LoadValue} (through : ThroughDevice load)
    (device : load.ioctrlIsOk = true) {i : Nat} {img : ImageLoad}
    (found : load.loadTable[i]? = some img) (s : Devices) :
    target load s i img = (load.ioCtrl, i) := by
  rw [target, device, through device img (List.mem_of_getElem? found)]
  rfl

/-- After an initialisation, a pass over the table of a subsystem with an ioctl device that
    returns 0 without a fault leaves in region `i`, as the device was told of it, the whole
    image of each bare entry `i`, and it writes to no region of another entry or device. -/
theorem announced_regions_filled {v : Variant} {c : Setup} {e : InitInput} {m : LoadInfoS}
    {calls : List InfoCall} (init : initModemImgInfo v c.build e = some (m, calls))
    (none : ∀ x, (e.default.value x).ioctrlIsOk = false) (kept : c.build.removeSprdModem = false)
    (small : ∀ load ∈ handOver v c.build m, load.loadTable.length ≤ MAX_REGION_CNT)
    (own : ∀ load ∈ handOver v c.build m, ∀ load' ∈ handOver v c.build m, load.ioctrlIsOk →
      load'.ioctrlIsOk → load.ioCtrl = load'.ioCtrl → load.loadTable = load'.loadTable)
    {x : ImgType} {pass : Pass} (made : pass ∈ passes v c.build x)
    (device : (m.value x).ioctrlIsOk = true)
    (sources : ∀ img ∈ (m.value x).loadTable, special img = false →
      ∀ nv ∈ (m.value x).loadTable, isNv nv = true → img.pathR ∉ nvPaths nv)
    {s s' : Devices} {trace : List (Event LoadOp LoadOp.Res)} {ret : Int}
    (runs : Prog.Runs (Step c) Uncut (Load.loadImgFromTable c.build (m.value x).toLoadValue
      pass.loadFlag pass.skipFlag) s trace s' (some ret)) (sound : s'.faults = false) :
    FillsRegions c calls (m.value x).toLoadValue pass.loadFlag pass.skipFlag ret s s' := by
  have through := throughDevice_initialised none init x
  have separate : Separate (m.value x).toLoadValue pass.loadFlag pass.skipFlag := by
    refine ⟨through, ?_, sources⟩
    intro noDevice
    rw [device] at noDevice
    cases noDevice
  have passed := pass_run separate runs sound
  have handed := tablesHanded_of_small kept small own x
  rw [value_toLoadValue] at handed
  obtain rfl := handed_of_init init
  constructor
  · intro zero i img found chosen plain bare
    obtain ⟨info, told, _, entry, found', place⟩ :=
      (known_iff v c.build m (m.value x).toLoadValue i (m.value x).ioCtrl).mpr
        ⟨img, found, handed device pass made i img found chosen⟩
    obtain rfl := Option.some.inj (found.symm.trans found')
    obtain ⟨r, there, same⟩ := Option.map_eq_some_iff.mp place
    have size : r.size = img.size := congrArg Prod.snd same
    subst zero
    obtain ⟨offset, size64, extent, put⟩ := passed.image separate found chosen plain
    obtain ⟨rfl, whole⟩ := extent_whole bare extent
    rw [target_device through device found, whole, ← size] at put
    exact ⟨info, r, told, there, put⟩
  · intro path i other
    apply passed.other
    intro j img found chosen same
    rw [target_device through device found] at same
    obtain ⟨rfl, rfl⟩ := Prod.mk.inj same
    have not := other rfl img found
    rw [chosen] at not
    cases not

/-- A description of the cp with one partition of four bytes. -/
def fourInput : InitInput :=
  { cpInput (bytes "1") with
    cp := {
      doc := .parsed [[ioctlPathTag, partionCntTag (bytes "1"), {
        name := PARTITION
        attrs := [(bytes "base", bytes "0x8B000000"), (bytes "size", bytes "0x4"),
          (bytes "flag", bytes "0x200")] }]] (.parseBuffer [] true)
      access := fun path => path == bytes "/dev/modem" } }

def fourInfos : LoadInfoS where
  cp := { toLoadValue := fourLoad, xmlIsOk := true }
  sp := {}
  dp := {}

theorem four_initialised : initModemImgInfo .external {} fourInput =
    some (fourInfos, modemLoadSetLoadInfo .external {} fourInfos) := by
  rfl

theorem announced_regions_filled_four : ∃ s',
    FillsRegions fourSetup (modemLoadSetLoadInfo .external {} fourInfos) fourLoad MODEM_IMG_FLAG
      MODEM_HEAD_IMG_FLAG 0 fourDevices s' := by
  obtain ⟨_, s', ret, runs, rfl, sound⟩ := four_passed
  refine ⟨s', ?_⟩
  apply @announced_regions_filled .external fourSetup fourInput fourInfos _ four_initialised _ rfl _ _
    .cp ⟨MODEM_IMG_FLAG, MODEM_HEAD_IMG_FLAG⟩ (by decide) rfl _ fourDevices s' _ 0 runs sound
  · intro x
    cases x <;> rfl
  · decide
  · decide
  · decide

end ModemControl.DeviceMemory
