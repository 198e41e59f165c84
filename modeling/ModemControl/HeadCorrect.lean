import ModemControl.HeadFormats
import ModemControl.RegionInfo

/-! # The correction of the load table: modem_head_parse.c

`modem_head_correct_load_info` with its return codes, and `modem_head_convert_img` with the
loops it is written with. What the file operations on the modem image give is left open.
-/

namespace ModemControl.HeadCorrect

open Foundation Load ModemHead

def MODEM_SUCC : Int := 0
def MODEM_ERR : Int := -1

/-- A load info whose `load_table` may be NULL; no entries are counted then. -/
structure LoadInfoPtr where
  load : LoadValueS
  null : Bool
  uncounted : null = true → load.loadTable = []
  deriving Repr, DecidableEq

/-- What open, lseek and read make of the image of an entry: nothing is read for -1. -/
structure HeadRead where
  opened : Bool
  sought : Bool
  data : Option Bytes
  deriving Repr, DecidableEq

/-- `modem_decouple_head`, when it is filled. -/
def HeadRead.head (answer : HeadRead) : Option Head :=
  if answer.opened && answer.sought then
    answer.data.bind fun data =>
      if sized : data.length = MAX_HEADER_SIZE then some ⟨data, sized⟩ else none
  else none

def modemHeadFindModem (load : LoadValueS) : Option ImageLoad :=
  load.loadTable.find? fun img => img.name == RegionInfo.MODEM_BANK

/-- The head is there when MODEM_SUCC is returned. -/
def modemHeadGetHead (answers : ImageLoad → HeadRead) (load : LoadValueS) : Option Head :=
  (modemHeadFindModem load).bind fun img => (answers img).head

/-- `region[j]`. -/
def regionAt (img : ModemImageInfo) (j : Nat) : Option ImgRegionInfo :=
  if inside : j < MAX_REGION_NUM then some (img.table ⟨j, inside⟩) else none

/-- The inner loop, for so many regions from `j` on: what it leaves in the entry, and `j`. -/
def searchRegions (img : ModemImageInfo) : (left : Nat) → (j : Nat) → ImageLoad →
    Option (ImageLoad × Nat)
  | 0, j, entry => some (entry, j)
  | left + 1, j, entry => do
      let region ← regionAt img j
      if entry.name == region.name then
        return ({ entry with addr := region.base, size := region.size }, j)
      else searchRegions img left (j + 1) entry

/-- The body of the outer loop. -/
def correctEntry (img : ModemImageInfo) (xmlIsOk : Bool) (entry : ImageLoad) : Option ImageLoad := do
  let (entry, j) ← searchRegions img img.regionNum 0 entry
  if j = img.regionNum then
    if !xmlIsOk then return { entry with size := 0 }
    else if anyBit MODEM_IMG_EXCPT_HEAD_FLAG entry.flag then return { entry with size := 0 }
    else return entry
  else return entry

def modemHeadConvertImg (img : ModemImageInfo) (p : LoadInfoPtr) : Option (Int × LoadInfoPtr) :=
  if img.regionNum = 0 then some (MODEM_ERR, p)
  else if null : p.null = true then some (MODEM_ERR, p)
  else do
    let table ← p.load.loadTable.mapM (correctEntry img p.load.xmlIsOk)
    return (MODEM_SUCC, ⟨{ p.load with loadTable := table }, p.null, fun isNull => absurd isNull null⟩)

/-- `modem_img` when the head is read and parsed, or not. It is zero before. -/
def modemImg (answers : ImageLoad → HeadRead) (load : LoadValueS) : Option ModemImageInfo :=
  match modemHeadGetHead answers load with
  | some head => modemHeadConstructImg head {}
  | none => some {}

/-- The result, the load info behind it, and `modem_img`. -/
def modemHeadCorrectLoadInfo (answers : ImageLoad → HeadRead) (p : LoadInfoPtr) :
    Option (Int × LoadInfoPtr × ModemImageInfo) := do
  let img ← modemImg answers p.load
  let (ret, p) ← modemHeadConvertImg img p
  return (ret, p, img)

/-- An entry is corrected by these regions. -/
structure EntryCorrected (regions : List ImgRegionInfo) (xmlIsOk : Bool) (before after : ImageLoad) :
    Prop where
  found : ∀ (i : Nat) (region : ImgRegionInfo), regions[i]? = some region →
    region.name = before.name →
    (∀ j < i, ∀ other : ImgRegionInfo, regions[j]? = some other → other.name ≠ before.name) →
    after.addr = region.base ∧ after.size = region.size
  invalid : (∀ region ∈ regions, region.name ≠ before.name) →
    (xmlIsOk = false ∨ anyBit MODEM_IMG_EXCPT_HEAD_FLAG before.flag = true) →
    after = { before with size := 0 }
  kept : (∀ region ∈ regions, region.name ≠ before.name) →
    ¬ (xmlIsOk = false ∨ anyBit MODEM_IMG_EXCPT_HEAD_FLAG before.flag = true) → after = before
  rest : after = { before with addr := after.addr, size := after.size }

/-- The entries are corrected where they stand, and there is no other change. -/
structure Corrected (regions : List ImgRegionInfo) (before after : LoadValueS) : Prop where
  entries : List.Forall₂ (EntryCorrected regions before.xmlIsOk) before.loadTable after.loadTable
  rest : after = { before with loadTable := after.loadTable }

theorem Corrected.entry {regions : List ImgRegionInfo} {before after : LoadValueS}
    (corrected : Corrected regions before after) {entry : ImageLoad} (member : entry ∈ after.loadTable) :
    ∃ entry' ∈ before.loadTable, EntryCorrected regions before.xmlIsOk entry' entry := by
  obtain ⟨length, each⟩ := List.forall₂_iff_get.mp corrected.entries
  obtain ⟨i, below, rfl⟩ := List.mem_iff_getElem.mp member
  have inside : i < before.loadTable.length := length ▸ below
  exact ⟨before.loadTable[i], List.getElem_mem inside, each i inside below⟩

/-- Why there is nothing to correct the table with. -/
inductive Unusable (answers : ImageLoad → HeadRead) (p : LoadInfoPtr) : Prop where
  | noTable (null : p.null = true)
  | noModem (absent : modemHeadFindModem p.load = none)
  | noHead (img : ImageLoad) (modem : modemHeadFindModem p.load = some img)
      (unread : (answers img).head = none)
  | unknownMagic (head : Head) (read : modemHeadGetHead answers p.load = some head)
      (notOld : magic head ≠ OLD_HEAD_MAGIC_INFO) (notNew : magic head ≠ NEW_HEAD_MAGIC_INFO)
  | noRegion (head : Head) (img : ModemImageInfo) (read : modemHeadGetHead answers p.load = some head)
      (parsed : modemHeadConstructImg head {} = some img) (none : img.regionNum = 0)

def hasName (entry : ImageLoad) (region : ImgRegionInfo) : Bool := entry.name == region.name

def moveTo (entry : ImageLoad) (region : ImgRegionInfo) : ImageLoad :=
  { entry with addr := region.base, size := region.size }

section

variable {img : ModemImageInfo}

theorem regions_getElem? {j : Nat} (below : j < img.regionNum) (few : img.regionNum ≤ MAX_REGION_NUM) :
    regionAt img j = img.regions[j]? := by
  have inside : j < MAX_REGION_NUM := by omega
  rw [regionAt, dif_pos inside, ModemImageInfo.regions, List.getElem?_take_of_lt below,
    List.getElem?_ofFn, dif_pos inside]

theorem length_regions (few : img.regionNum ≤ MAX_REGION_NUM) :
    img.regions.length = img.regionNum := by
  rw [ModemImageInfo.regions, List.length_take, List.length_ofFn]
  omega

/-- The loop stops at the first region with the name, or behind all of them. -/
theorem searchRegions_spec (few : img.regionNum ≤ MAX_REGION_NUM) (entry : ImageLoad) {left j : Nat}
    (room : left + j = img.regionNum) :
    ∃ k, searchRegions img left j entry = some
        (((img.regions.drop j).find? (hasName entry)).elim entry (moveTo entry), k) ∧
      (k = img.regionNum ↔ (img.regions.drop j).find? (hasName entry) = none) := by
  have sized := length_regions few
  induction left generalizing j with
  | zero =>
      rw [List.drop_of_length_le (by omega)]
      exact ⟨j, rfl, iff_of_true (by omega) rfl⟩
  | succ left ih =>
      have below : j < img.regions.length := by omega
      have here := regions_getElem? (show j < img.regionNum by omega) few
      rw [List.getElem?_eq_getElem below] at here
      rw [List.drop_eq_getElem_cons below, List.find?_cons]
      simp only [searchRegions, here, Option.bind_eq_bind, Option.bind_some]
      by_cases named : hasName entry img.regions[j] = true
      · have same : (entry.name == img.regions[j].name) = true := named
        rw [named, if_pos same]
        exact ⟨j, rfl, iff_of_false (by omega) (by simp)⟩
      · have other : ¬ (entry.name == img.regions[j].name) = true := named
        rw [Bool.not_eq_true] at named
        rw [named, if_neg other]
        exact ih (by omega)

theorem correctEntry_eq (few : img.regionNum ≤ MAX_REGION_NUM) (xmlIsOk : Bool) (entry : ImageLoad) :
    correctEntry img xmlIsOk entry = some (convertEntry img.regions xmlIsOk entry) := by
  obtain ⟨k, searched, behind⟩ := searchRegions_spec few entry (Nat.add_zero img.regionNum)
  rw [List.drop_zero] at searched behind
  simp only [correctEntry, searched, Option.bind_eq_bind, Option.bind_some, behind]
  have search : convertEntry img.regions xmlIsOk entry =
      ((img.regions.find? (hasName entry)).elim
        (if !xmlIsOk || anyBit MODEM_IMG_EXCPT_HEAD_FLAG entry.flag then { entry with size := 0 }
          else entry) (moveTo entry)) := by
    unfold convertEntry hasName
    cases img.regions.find? fun region => entry.name == region.name <;> rfl
  rw [search]
  cases img.regions.find? (hasName entry) with
  | none =>
      cases xmlIsOk <;> cases flagged : anyBit MODEM_IMG_EXCPT_HEAD_FLAG entry.flag <;>
        simp [flagged]
  | some region => simp

/-- With the regions that were found, the loops do what the conversion is to do. -/
theorem modemHeadConvertImg_eq (few : img.regionNum ≤ MAX_REGION_NUM) (p : LoadInfoPtr) :
    ∃ ret p', modemHeadConvertImg img p = some (ret, p') ∧
      (if img.regionNum = 0 ∨ p.null = true then ret = MODEM_ERR ∧ p' = p
        else ret = MODEM_SUCC ∧ p'.load = ModemHead.modemHeadConvertImg img p.load ∧
          p'.null = p.null) := by
  unfold modemHeadConvertImg ModemHead.modemHeadConvertImg
  by_cases none : img.regionNum = 0
  · rw [if_pos none]
    exact ⟨MODEM_ERR, p, rfl, by simp [none]⟩
  · rw [if_neg none]
    by_cases null : p.null = true
    · rw [dif_pos null]
      exact ⟨MODEM_ERR, p, rfl, by simp [null]⟩
    · have each : correctEntry img p.load.xmlIsOk =
          fun entry => pure (convertEntry img.regions p.load.xmlIsOk entry) :=
        funext fun entry => correctEntry_eq few p.load.xmlIsOk entry
      rw [dif_neg null, each, List.mapM_pure]
      refine ⟨_, _, rfl, ?_⟩
      simp [none, null]

theorem setCode_num {data : Bytes} {count : BitVec 32} {img' : ModemImageInfo}
    (copied : img.setCode data count = some img') : img'.regionNum = img.regionNum := by
  obtain ⟨_, same⟩ := Option.ite_none_right_eq_some.mp copied
  obtain rfl := Option.some.inj same
  rfl

theorem takeDesc_num {head : Head} {k : Nat} {size : BitVec 32} {img' : ModemImageInfo}
    (few : img.regionNum ≤ MAX_REGION_NUM) (taken : takeDesc head k size img = some img') :
    img'.regionNum ≤ MAX_REGION_NUM := by
  obtain ⟨offs, _, taken⟩ := Option.bind_eq_some_iff.mp taken
  obtain ⟨decoup, _, taken⟩ := Option.bind_eq_some_iff.mp taken
  split at taken
  · obtain ⟨_, _, fewer, rfl⟩ := takeRegions_only taken
    exact fewer
  · obtain ⟨boot, _, taken⟩ := Option.bind_eq_some_iff.mp taken
    split at taken
    · obtain ⟨code, _, copied⟩ := Option.bind_eq_some_iff.mp taken
      exact (setCode_num copied).symm ▸ few
    · obtain rfl := Option.some.inj taken
      exact few

theorem takeDescs_num {head : Head} {left k : Nat} {img' : ModemImageInfo}
    (few : img.regionNum ≤ MAX_REGION_NUM) (taken : takeDescs head left k img = some img') :
    img'.regionNum ≤ MAX_REGION_NUM := by
  induction left generalizing k img with
  | zero => cases taken
  | succ left ih =>
      obtain ⟨size, _, taken⟩ := Option.bind_eq_some_iff.mp taken
      split at taken
      · obtain rfl := Option.some.inj taken
        exact few
      · obtain ⟨next, one, rest⟩ := Option.bind_eq_some_iff.mp taken
        exact ih (takeDesc_num few one) rest

/-- No head makes more regions than there is room for. -/
theorem constructImg_num {head : Head} {img' : ModemImageInfo}
    (few : img.regionNum ≤ MAX_REGION_NUM) (parsed : modemHeadConstructImg head img = some img') :
    img'.regionNum ≤ MAX_REGION_NUM := by
  unfold modemHeadConstructImg at parsed
  split at parsed
  · obtain ⟨regions, taken, parsed⟩ := Option.bind_eq_some_iff.mp parsed
    obtain ⟨count, _, parsed⟩ := Option.bind_eq_some_iff.mp parsed
    obtain ⟨code, _, copied⟩ := Option.bind_eq_some_iff.mp parsed
    obtain ⟨_, _, fewer, rfl⟩ := takeRegions_only taken
    exact (setCode_num copied).symm ▸ fewer
  · split at parsed
    · exact takeDescs_num few parsed
    · obtain rfl := Option.some.inj parsed
      exact few

theorem constructImg_unknown {head : Head} (notOld : magic head ≠ OLD_HEAD_MAGIC_INFO)
    (notNew : magic head ≠ NEW_HEAD_MAGIC_INFO) : modemHeadConstructImg head img = some img := by
  rw [modemHeadConstructImg, if_neg notOld, if_neg notNew]

end

section

variable {regions : List ImgRegionInfo} {xmlIsOk : Bool}

theorem find_first {before : ImageLoad} {i : Nat} {region : ImgRegionInfo}
    (here : regions[i]? = some region) (named : region.name = before.name)
    (first : ∀ j < i, ∀ other : ImgRegionInfo, regions[j]? = some other → other.name ≠ before.name) :
    regions.find? (fun region => before.name == region.name) = some region := by
  obtain ⟨inside, same⟩ := List.getElem?_eq_some_iff.mp here
  rw [List.find?_eq_some_iff_getElem]
  refine ⟨by simp [named], i, inside, same, ?_⟩
  intro j earlier
  have other := first j earlier _ (List.getElem?_eq_getElem (Nat.lt_trans earlier inside))
  simpa using other.symm

theorem find_absent {before : ImageLoad} (absent : ∀ region ∈ regions, region.name ≠ before.name) :
    regions.find? (fun region => before.name == region.name) = none := by
  rw [List.find?_eq_none]
  intro region member
  simpa using (absent region member).symm

theorem entry_corrected (before : ImageLoad) :
    EntryCorrected regions xmlIsOk before (convertEntry regions xmlIsOk before) := by
  constructor
  · intro i region here named first
    rw [convertEntry, find_first here named first]
    exact ⟨rfl, rfl⟩
  · intro absent invalid
    rw [convertEntry, find_absent absent]
    rcases invalid with noXml | flagged <;> simp [*]
  · intro absent valid
    rw [not_or, Bool.not_eq_false, Bool.not_eq_true] at valid
    rw [convertEntry, find_absent absent]
    simp [valid]
  · unfold convertEntry
    split
    · rfl
    · split <;> rfl

theorem convertEntry_again (entry : ImageLoad) :
    convertEntry regions xmlIsOk (convertEntry regions xmlIsOk entry) =
      convertEntry regions xmlIsOk entry := by
  cases found : regions.find? fun region => entry.name == region.name with
  | some region =>
      have once : convertEntry regions xmlIsOk entry =
          { entry with addr := region.base, size := region.size } := by
        simp [convertEntry, found]
      rw [once]
      simp [convertEntry, found]
  | none =>
      by_cases bad : (!xmlIsOk || anyBit MODEM_IMG_EXCPT_HEAD_FLAG entry.flag) = true
      · have once : convertEntry regions xmlIsOk entry = { entry with size := 0 } := by
          simp only [convertEntry, found, bad, if_true]
        rw [once]
        simp only [convertEntry, found, bad, if_true]
      · have once : convertEntry regions xmlIsOk entry = entry := by
          simp only [convertEntry, found, bad]
          rfl
        rw [once, once]

end

theorem load_corrected (img : ModemImageInfo) (load : LoadValueS) (some_ : img.regionNum ≠ 0) :
    Corrected img.regions load (ModemHead.modemHeadConvertImg img load) := by
  rw [ModemHead.modemHeadConvertImg, if_neg some_]
  constructor
  · rw [List.forall₂_map_right_iff, List.forall₂_same]
    exact fun entry _ => entry_corrected entry
  · rfl

theorem convertImg_again (img : ModemImageInfo) (load : LoadValueS) :
    ModemHead.modemHeadConvertImg img (ModemHead.modemHeadConvertImg img load) =
      ModemHead.modemHeadConvertImg img load := by
  unfold ModemHead.modemHeadConvertImg
  by_cases none : img.regionNum = 0
  · rw [if_pos none, if_pos none]
  · simp only [if_neg none, List.map_map]
    congr 2
    apply List.map_congr_left
    exact fun entry _ => convertEntry_again entry

theorem LoadInfoPtr.same {p q : LoadInfoPtr} (load : p.load = q.load) (null : p.null = q.null) :
    p = q := by
  cases p
  cases q
  simp_all

section

variable {answers : ImageLoad → HeadRead} {p : LoadInfoPtr}

theorem getHead_none {img : ImageLoad} (modem : modemHeadFindModem p.load = some img)
    (unread : (answers img).head = none) : modemHeadGetHead answers p.load = none := by
  rw [modemHeadGetHead, modem, Option.bind_some, unread]

/-- Without a head `modem_img` stays zero. -/
theorem unusable_of_no_head (none : modemHeadGetHead answers p.load = none) :
    Unusable answers p := by
  rw [modemHeadGetHead, Option.bind_eq_none_iff] at none
  cases modem : modemHeadFindModem p.load with
  | none => exact .noModem modem
  | some img => exact .noHead img modem (none img modem)

/-- With one, it is what the parser makes of it. -/
theorem unusable_iff {head : Head} {img : ModemImageInfo}
    (read : modemHeadGetHead answers p.load = some head)
    (parsed : modemHeadConstructImg head {} = some img) :
    Unusable answers p ↔ img.regionNum = 0 ∨ p.null = true := by
  constructor
  · intro unusable
    cases unusable with
    | noTable null => exact Or.inr null
    | noModem absent =>
        rw [modemHeadGetHead, absent] at read
        cases read
    | noHead entry modem unread =>
        rw [getHead_none modem unread] at read
        cases read
    | unknownMagic other read' notOld notNew =>
        obtain rfl := Option.some.inj (read.symm.trans read')
        rw [constructImg_unknown notOld notNew] at parsed
        obtain rfl := Option.some.inj parsed
        exact Or.inl rfl
    | noRegion other img' read' parsed' none =>
        obtain rfl := Option.some.inj (read.symm.trans read')
        obtain rfl := Option.some.inj (parsed.symm.trans parsed')
        exact Or.inl none
  · intro either
    cases either with
    | inl none => exact .noRegion head img read parsed none
    | inr null => exact .noTable null

/-- Behind the conversion the table is as it was, or corrected, and stays so. -/
theorem convertImg_outcome {img : ModemImageInfo} (few : img.regionNum ≤ MAX_REGION_NUM)
    (p : LoadInfoPtr) :
    ∃ ret p', modemHeadConvertImg img p = some (ret, p') ∧
      (if img.regionNum = 0 ∨ p.null = true then ret = MODEM_ERR ∧ p' = p
        else ret = MODEM_SUCC ∧ Corrected img.regions p.load p'.load) ∧
      ∃ again, modemHeadConvertImg img p' = some (again, p') := by
  obtain ⟨ret, p', converted, outcome⟩ := modemHeadConvertImg_eq few p
  refine ⟨ret, p', converted, ?_⟩
  by_cases fails : img.regionNum = 0 ∨ p.null = true
  · rw [if_pos fails] at outcome ⊢
    obtain ⟨rfl, rfl⟩ := outcome
    exact ⟨⟨rfl, rfl⟩, _, converted⟩
  · rw [if_neg fails] at outcome ⊢
    obtain ⟨rfl, load, null⟩ := outcome
    have some_ : img.regionNum ≠ 0 := fun none => fails (Or.inl none)
    refine ⟨⟨rfl, load ▸ load_corrected img p.load some_⟩, ?_⟩
    -- the second time the entries have the same names and flags
    obtain ⟨again, p'', twice, outcome⟩ := modemHeadConvertImg_eq few p'
    rw [null, if_neg fails] at outcome
    obtain ⟨rfl, load', null'⟩ := outcome
    rw [load, convertImg_again] at load'
    have same : p'' = p' := LoadInfoPtr.same (load'.trans load.symm) (null'.trans null.symm)
    exact ⟨MODEM_SUCC, same ▸ twice⟩

theorem modemImg_num {img : ModemImageInfo} (parsed : modemImg answers p.load = some img) :
    img.regionNum ≤ MAX_REGION_NUM := by
  unfold modemImg at parsed
  split at parsed
  · exact constructImg_num (by decide) parsed
  · obtain rfl := Option.some.inj parsed
    decide

/-- The load info behind it is the one of the correction without its result. -/
theorem correctLoadInfo_load {ret : Int} {p' : LoadInfoPtr} {img : ModemImageInfo}
    (corrected : modemHeadCorrectLoadInfo answers p = some (ret, p', img)) :
    RegionInfo.modemHeadCorrectLoadInfo (fun img => (answers img).head) p.load = some p'.load := by
  obtain ⟨found, parsed, rest⟩ := Option.bind_eq_some_iff.mp corrected
  obtain ⟨⟨ret₁, q⟩, converted, same⟩ := Option.bind_eq_some_iff.mp rest
  obtain ⟨rfl, rfl, rfl⟩ : ret₁ = ret ∧ q = p' ∧ found = img := by simpa using same
  have load : q.load = ModemHead.modemHeadConvertImg found p.load := by
    obtain ⟨ret₂, q₂, converted₂, outcome⟩ := modemHeadConvertImg_eq (modemImg_num parsed) p
    obtain ⟨rfl, rfl⟩ := Prod.mk.inj (Option.some.inj (converted.symm.trans converted₂))
    unfold ModemHead.modemHeadConvertImg at outcome ⊢
    by_cases none : found.regionNum = 0
    · rw [if_pos (Or.inl none)] at outcome
      rw [if_pos none, outcome.2]
    · rw [if_neg none]
      by_cases null : p.null = true
      · rw [if_pos (Or.inr null)] at outcome
        rw [outcome.2, p.uncounted null, List.map_nil, ← p.uncounted null]
      · rw [if_neg (not_or.mpr ⟨none, null⟩), if_neg none] at outcome
        exact outcome.2.1
  have same : RegionInfo.modemHeadCorrectLoadInfo (fun img => (answers img).head) p.load =
      (modemImg answers p.load).map fun img => ModemHead.modemHeadConvertImg img p.load := by
    have getHead : RegionInfo.modemHeadGetHead (fun img => (answers img).head) p.load =
        modemHeadGetHead answers p.load := rfl
    rw [RegionInfo.modemHeadCorrectLoadInfo, getHead, modemImg]
    cases modemHeadGetHead answers p.load <;> rfl
  rw [same, parsed, load, Option.map_some]

end

/-- A read that gives this head, or none. -/
def HeadRead.giving (head : Option Head) : HeadRead := ⟨true, true, head.map Head.bytes⟩

theorem giving_head (head : Option Head) : (HeadRead.giving head).head = head := by
  cases head with
  | none => rfl
  | some head => exact dif_pos head.sized

/-- So the correction without its result leaves the table as it was, or corrected. -/
theorem corrected_of_load {read : ImageLoad → Option Head} {load load' : LoadValueS}
    (corrected : RegionInfo.modemHeadCorrectLoadInfo read load = some load') :
    load' = load ∨ ∃ regions, Corrected regions load load' := by
  obtain ⟨p, here⟩ : ∃ p : LoadInfoPtr, p.load = load := ⟨⟨load, false, Bool.noConfusion⟩, rfl⟩
  subst here
  let answers : ImageLoad → HeadRead := fun img => .giving (read img)
  have heads : (fun img => (answers img).head) = read := funext fun img => giving_head (read img)
  obtain ⟨img, parsed⟩ : ∃ img, modemImg answers p.load = some img := by
    have getHead : modemHeadGetHead answers p.load = RegionInfo.modemHeadGetHead read p.load := by
      rw [← heads]
      rfl
    rw [modemImg, getHead]
    rw [RegionInfo.modemHeadCorrectLoadInfo] at corrected
    cases found : RegionInfo.modemHeadGetHead read p.load with
    | none => exact ⟨{}, rfl⟩
    | some head =>
        rw [found] at corrected
        obtain ⟨img, made, _⟩ := Option.map_eq_some_iff.mp corrected
        exact ⟨img, made⟩
  obtain ⟨ret, p', converted, outcome, _⟩ := convertImg_outcome (modemImg_num parsed) p
  have both : modemHeadCorrectLoadInfo answers p = some (ret, p', img) := by
    simp only [modemHeadCorrectLoadInfo, parsed, converted, Option.bind_eq_bind, Option.bind_some]
    rfl
  have same := correctLoadInfo_load both
  rw [heads, corrected] at same
  obtain rfl := Option.some.inj same
  split at outcome
  · exact Or.inl (congrArg LoadInfoPtr.load outcome.2)
  · exact Or.inr ⟨img.regions, outcome.2⟩

/-- Whatever is found of the modem head, either there is a reason that it cannot be used and
    the load info is left as it was, or every entry of the table is corrected; and the same
    conversion once more changes nothing. -/
theorem load_info_corrected (answers : ImageLoad → HeadRead) (p : LoadInfoPtr)
    (inBounds : ∀ head, modemHeadGetHead answers p.load = some head → InBounds head) :
    ∃ ret p' img, modemHeadCorrectLoadInfo answers p = some (ret, p', img) ∧
      (ret = MODEM_ERR ∧ p' = p ∧ Unusable answers p ∨
        ret = MODEM_SUCC ∧ ¬ Unusable answers p ∧ Corrected img.regions p.load p'.load ∧
          ∃ head, modemHeadGetHead answers p.load = some head ∧
            modemHeadConstructImg head {} = some img) ∧
      ∃ again, modemHeadConvertImg img p' = some (again, p') := by
  cases read : modemHeadGetHead answers p.load with
  | none =>
      have few : ({} : ModemImageInfo).regionNum ≤ MAX_REGION_NUM := by decide
      obtain ⟨ret, p', converted, outcome, again⟩ := convertImg_outcome few p
      rw [if_pos (Or.inl rfl)] at outcome
      refine ⟨ret, p', {}, ?_, Or.inl ⟨outcome.1, outcome.2, unusable_of_no_head read⟩, again⟩
      simp only [modemHeadCorrectLoadInfo, modemImg, read, converted, Option.bind_eq_bind,
        Option.bind_some, Option.pure_def]
  | some head =>
      obtain ⟨img, parsed⟩ := Option.isSome_iff_exists.mp ((inBounds head read).constructs {})
      have few := constructImg_num (by decide) parsed
      obtain ⟨ret, p', converted, outcome, again⟩ := convertImg_outcome few p
      refine ⟨ret, p', img, ?_, ?_, again⟩
      · simp only [modemHeadCorrectLoadInfo, modemImg, read, parsed, converted,
          Option.bind_eq_bind, Option.bind_some, Option.pure_def]
      · by_cases unusable : Unusable answers p
        · rw [if_pos ((unusable_iff read parsed).mp unusable)] at outcome
          exact Or.inl ⟨outcome.1, outcome.2, unusable⟩
        · rw [if_neg fun fails => unusable ((unusable_iff read parsed).mpr fails)] at outcome
          exact Or.inr ⟨outcome.1, unusable, outcome.2, head, rfl, parsed⟩

def modemImage : ImageLoad := ⟨[], bytes "modem.img", bytes "modem", 0, 0, 1⟩

def modemTable : LoadInfoPtr := ⟨{ loadTable := [modemImage] }, false, by decide⟩

/-- The image has a head of the old format. -/
def readsModem (_ : ImageLoad) : HeadRead := ⟨true, true, some (oldModem 4).bytes⟩

theorem oldModem_inBounds : InBounds (oldModem 4) where
  old _ := (oldInBounds_iff modemRegion_valid (by decide) (oldModem_carries 4)).mpr (by decide)
  new magic := by
    rw [(oldModem_carries 4).magic] at magic
    exact absurd magic (by decide)

theorem readsModem_head (img : ImageLoad) : (readsModem img).head = some (oldModem 4) := by
  have sized := (oldModem 4).sized
  simp only [HeadRead.head, readsModem, Bool.and_self, if_true, Option.bind_some]
  rw [dif_pos sized]

theorem load_info_corrected_modem :
    ∃ ret p' img, modemHeadCorrectLoadInfo readsModem modemTable = some (ret, p', img) ∧
      ∃ again, modemHeadConvertImg img p' = some (again, p') := by
  have modem : modemHeadFindModem modemTable.load = some modemImage := rfl
  have read : modemHeadGetHead readsModem modemTable.load = some (oldModem 4) := by
    rw [modemHeadGetHead, modem, Option.bind_some, readsModem_head]
  obtain ⟨ret, p', img, corrected, _, again⟩ := load_info_corrected readsModem modemTable (by
    intro head found
    obtain rfl := Option.some.inj (read.symm.trans found)
    exact oldModem_inBounds)
  exact ⟨ret, p', img, corrected, again⟩

end ModemControl.HeadCorrect
