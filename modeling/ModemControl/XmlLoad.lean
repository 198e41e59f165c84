import ModemControl.XmlBounds

/-! # The load infos from their XML descriptions

`modem_xml_init_load_info` parses the description of one image after the other and
publishes what was found. Whether a document was parsed to its end is not asked, so a
rejected one changes the load info too, if the error comes behind its partion_cnt.
-/

namespace ModemControl.XmlTags

open Foundation Load XmlParse

/-- `modem_xml_to_load_info` with all of the load info. When it fails nothing is changed. -/
def modemXmlToLoadInfoS (xml : ModemXmlInfo) (load : LoadValueS) (malloc : Bool)
    (access : Bytes → Bool) : LoadValueS :=
  match modemXmlToLoadInfo xml.toXmlInfo load.toLoadValue malloc access with
  | none => load
  | some value => {
      toLoadValue := value
      modemBase := xml.modemBase
      modemSize := xml.modemSize
      allBase := xml.allBase
      allSize := xml.allSize
      xmlIsOk := true
      name := xml.name.take MAX_FILE_NAME_LEN }

/-- What an image finds: its document, whether there is memory for the table, and the paths
    that are there. -/
structure XmlSource where
  doc : Document
  malloc : Bool := true
  access : Bytes → Bool := fun _ => false

/-- Both calls for one image: the load info and the counter behind them. -/
def initFromXml (src : XmlSource) (load : LoadValueS) (itemCnt : Nat) :
    Option (LoadValueS × Nat) :=
  (modemXmlInit src.doc itemCnt).map fun s =>
    (modemXmlToLoadInfoS s.cur load src.malloc src.access, s.itemCnt)

/-- The files that expat is given, and that are not taken to their end: a read failed, or
    the parser found an error. -/
def Document.rejected : Document → Bool
  | .parsed _ .read => true
  | .parsed _ (.parseBuffer _ ok) => !ok
  | _ => false

/-- The load info is what it was before. -/
def Unchanged (src : XmlSource) (load : LoadValueS) (itemCnt : Nat) : Prop :=
  (initFromXml src load itemCnt).map Prod.fst = some load

theorem modemXmlToLoadInfoS_of_fail {xml : ModemXmlInfo} {load : LoadValueS} {malloc : Bool}
    {access : Bytes → Bool} (fail : xml.itemArry = none ∨ malloc = false) :
    modemXmlToLoadInfoS xml load malloc access = load := by
  unfold modemXmlToLoadInfoS modemXmlToLoadInfo
  rcases fail with noItems | noMemory
  · rw [noItems]
  · rw [noMemory]
    cases xml.itemArry <;> rfl

theorem modemXmlToLoadInfoS_of_items {xml : ModemXmlInfo} {load : LoadValueS}
    {access : Bytes → Bool} {items : List PartionItem} (found : xml.itemArry = some items) :
    (modemXmlToLoadInfoS xml load true access).xmlIsOk = true := by
  unfold modemXmlToLoadInfoS modemXmlToLoadInfo
  rw [found]
  rfl

theorem modemXmlToLoadInfoS_eq_iff {xml : ModemXmlInfo} {load : LoadValueS} {malloc : Bool}
    {access : Bytes → Bool} (default : load.xmlIsOk = false) :
    modemXmlToLoadInfoS xml load malloc access = load ↔ xml.itemArry = none ∨ malloc = false := by
  constructor
  · intro same
    by_contra published
    rw [not_or, Bool.not_eq_false] at published
    obtain ⟨items, found⟩ := Option.ne_none_iff_exists'.mp published.1
    rw [published.2] at same
    have set : (modemXmlToLoadInfoS xml load true access).xmlIsOk = true :=
      modemXmlToLoadInfoS_of_items found
    rw [same, default] at set
    cases set
  · exact modemXmlToLoadInfoS_of_fail

theorem unallocated_of_append {before after : List Tag} (never : allocated (before ++ after) = none) :
    allocated before = none := by
  unfold allocated at never ⊢
  rw [List.findSome?_append, Option.or_eq_none_iff] at never
  exact never.1

/-- Without an array there is nothing to access. -/
theorem fits_of_unallocated {tags : List Tag} (never : allocated tags = none) : Fits tags := by
  intro before t after cut _ cnt found
  rw [cut] at never
  rw [unallocated_of_append never] at found
  cases found

/-- For every document, rejected or not: a load info with default values is left as it is
    exactly when no array was allocated, or when its items fit and there is no memory for
    the table. -/
theorem unchanged_iff (src : XmlSource) (load : LoadValueS) (default : load.xmlIsOk = false)
    (itemCnt : Nat) :
    Unchanged src load itemCnt ↔
      allocated src.doc.tags = none ∨ (Fits src.doc.tags ∧ src.malloc = false) := by
  unfold Unchanged initFromXml
  cases parsed : modemXmlInit src.doc itemCnt with
  | none =>
      have overflow : ¬ Fits src.doc.tags := by
        rw [← document_inside_iff src.doc itemCnt, parsed]
        simp
      have allocates : allocated src.doc.tags ≠ none := fun never => overflow (fits_of_unallocated never)
      simp [overflow, allocates]
  | some s =>
      have fits : Fits src.doc.tags := by
        rw [← document_inside_iff src.doc itemCnt, parsed]
        rfl
      have after : After src.doc.tags s := run_after after_tag (after_start itemCnt) parsed
      rw [Option.map_some, Option.map_some, Option.some.injEq, modemXmlToLoadInfoS_eq_iff default,
        ← after.length, Option.map_eq_none_iff]
      simp [fits]

/-- A description of the sp that ends behind its partion_cnt. -/
def truncated : XmlSource where
  doc := .parsed [[partionCntTag (bytes "1")]] (.parseBuffer [] false)

/-- What `modem_init_sp_load_info` leaves, with images in this directory. -/
def spDefault (pathRead : Bytes) : LoadValueS where
  loadTable := [
    { pathW := bytes "/proc/pmic/pm_sys", pathR := mstrncpy2 pathRead (bytes "pm_sys"),
      name := bytes "cali_lib", addr := 0, size := 0x100000, flag := 0x1001 },
    { pathW := bytes "/proc/pmic/cali_lib",
      pathR := bytes "/vendor/firmware/EXEC_CALIBRATE_MAG_IMAGE", name := [], addr := 0,
      size := 0x10000, flag := 0x80002000 }]
  drvIsOk := true
  start := bytes "/proc/pmic/start"
  stop := bytes "/proc/pmic/stop"
  name := bytes "sp"

/-- Its default table is replaced by one entry without a size. -/
theorem truncated_changes :
    truncated.doc.rejected = true ∧
      ¬ Unchanged truncated (spDefault (bytes "/dev/block/by-name/")) 0 := by
  refine ⟨rfl, ?_⟩
  unfold Unchanged
  decide

/-- One that ends before its partion_cnt changes nothing. -/
theorem early_end_unchanged :
    Unchanged { doc := .parsed [] .read } (spDefault (bytes "/dev/block/by-name/")) 0 :=
  (unchanged_iff _ _ rfl 0).mpr (.inl rfl)

end ModemControl.XmlTags
