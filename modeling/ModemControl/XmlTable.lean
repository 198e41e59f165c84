import Mathlib.Algebra.Group.Nat.Defs
import ModemControl.XmlLoad
import ModemControl.XmlRun

/-! # From a well-formed document to the load table

What a document says can be told without the order in which the handler sees its tags: an
element is looked up by its name, the partitions are taken in turn. The table is that of the
document, except for numbers that the handler takes for an overflow: `errno` is compared
with ERANGE, but never cleared before `strtoul`.
-/

namespace ModemControl.XmlTags

open Foundation Load XmlParse

/-- A text, empty where it is absent. -/
def text (attr : Option Bytes) : Bytes := attr.getD []

/-- A plain number, 0 where it is absent. -/
def said (attr : Option Bytes) : Nat := (attr.bind numeral).getD 0

def element (tags : List Tag) (name : Bytes) : Option Tag := tags.find? fun t => t.name == name

/-- The val of an element. -/
def value (tags : List Tag) (name : Bytes) : Bytes := text ((element tags name).bind Tag.val)

/-- The entry of a partition. Numbers are read in the given way. -/
def entry (read : Tag → Option Bytes → Nat) (tags : List Tag) (ioctrlIsOk : Bool) (t : Tag) :
    ImageLoad where
  pathW := if ioctrlIsOk then value tags IOCTL_PATH else value tags DST_PATH ++ text t.dst
  pathR :=
    if strstr (text t.src) (bytes "/") then text t.src else value tags SRC_PATH ++ text t.src
  name := text t.itemName
  addr := BitVec.ofNat 64 (read t t.base)
  size := BitVec.ofNat 32 (read t t.size)
  flag := BitVec.ofNat 32 (read t t.flag)

/-- A number of an element. -/
def number (read : Tag → Option Bytes → Nat) (tags : List Tag) (name : Bytes)
    (attr : Tag → Option Bytes) : BitVec 64 :=
  BitVec.ofNat 64 (((element tags name).map fun t => read t (attr t)).getD 0)

/-- The load info of a document. -/
def described (read : Tag → Option Bytes → Nat) (tags : List Tag) (load : LoadValueS)
    (access : Bytes → Bool) : LoadValueS :=
  let ioctrlIsOk := pathIsOk false (value tags IOCTL_PATH) access
  { loadTable := (tags.filter Tag.isPartition).map (entry read tags ioctrlIsOk)
    drvIsOk := pathIsOk load.drvIsOk (value tags DST_PATH) access
    ioctrlIsOk := ioctrlIsOk
    ioCtrl := value tags IOCTL_PATH
    start := mstrncpy2 (value tags DST_PATH) MODEM_START
    stop := mstrncpy2 (value tags DST_PATH) MODEM_STOP
    modemBase := number read tags MODEM_RANGE Tag.base
    modemSize := number read tags MODEM_RANGE Tag.size
    allBase := number read tags ALL_RANGE Tag.base
    allSize := number read tags ALL_RANGE Tag.size
    xmlIsOk := true
    name := value tags MODEM_NAME }

/-- Absent, or a plain numeral of a number with so many bits. -/
def Number (bits : Nat) (attr : Option Bytes) : Prop :=
  attr.all fun str => (numeral str).any (· < 2 ^ bits)

/-- A text of at most so many characters. -/
def Short (length : Nat) (str : Bytes) : Prop := str.length ≤ length

instance (bits : Nat) (attr : Option Bytes) : Decidable (Number bits attr) :=
  inferInstanceAs (Decidable (_ = true))

instance (length : Nat) (str : Bytes) : Decidable (Short length str) :=
  inferInstanceAs (Decidable (_ ≤ _))

/-- The only partion_cnt, before as many partitions as it says. -/
structure Counted (before : List Tag) (t : Tag) (after : List Tag) (cnt : Nat) : Prop where
  name : t.name = PARTION_CNT
  val : t.val.bind numeral = some cnt
  positive : 1 ≤ cnt
  bound : cnt ≤ 100
  memory : t.malloc = true
  first : before.filter Tag.isPartition = []
  total : (after.filter Tag.isPartition).length = cnt
  single : ∀ t' ∈ before ++ after, t'.name ≠ PARTION_CNT

/-- Elements of which there is at most one each. -/
def elementNames : List Bytes := [SRC_PATH, DST_PATH, IOCTL_PATH, MODEM_NAME, MODEM_RANGE, ALL_RANGE]

structure WellFormed (tags : List Tag) : Prop where
  counted : ∃ before t after cnt, tags = before ++ t :: after ∧ Counted before t after cnt
  single : ∀ name ∈ elementNames, (tags.filter fun t => t.name == name).length ≤ 1
  modemRange : ∀ t ∈ tags, strstr t.name MODEM_RANGE → t.name = MODEM_RANGE
  allRange : ∀ t ∈ tags, strstr t.name ALL_RANGE → t.name = ALL_RANGE
  partition : ∀ t ∈ tags, t.isPartition → Number 64 t.base ∧ Number 32 t.size ∧ Number 32 t.flag
  range : ∀ t ∈ tags, t.name = MODEM_RANGE ∨ t.name = ALL_RANGE → Number 64 t.base ∧ Number 64 t.size
  texts : ∀ t ∈ tags, t.isPartition →
    Short MAX_FILE_NAME_LEN (text t.itemName) ∧ Short MAX_PATH_LEN (text t.src) ∧
      Short MAX_FILE_NAME_LEN (text t.dst)
  modemName : Short MAX_FILE_NAME_LEN (value tags MODEM_NAME)
  path : ∀ name ∈ [SRC_PATH, DST_PATH, IOCTL_PATH], Short MAX_PATH_LEN (value tags name)
  pathR : ∀ t ∈ tags, t.isPartition → strstr (text t.src) (bytes "/") = false →
    Short MAX_PATH_LEN (value tags SRC_PATH ++ text t.src)
  pathW : ∀ t ∈ tags, t.isPartition →
    Short MAX_PATH_LEN (value tags DST_PATH ++ text t.dst)

/-- Both documents have the same partitions in the same order and the same elements, each
    anywhere. -/
structure SameElements (tags tags' : List Tag) : Prop where
  partition : (tags.filter Tag.isPartition).map Tag.attrs = (tags'.filter Tag.isPartition).map Tag.attrs
  element : ∀ name ∈ elementNames, (element tags name).map Tag.attrs = (element tags' name).map Tag.attrs

/-- What is left in a field of a number: the largest one is dropped if `errno` is ERANGE. -/
def stored (t : Tag) (attr : Option Bytes) : Nat :=
  if t.erange ∧ said attr = ULONG_MAX then 0 else said attr

theorem Number.read {bits : Nat} {str : Bytes} (plain : Number bits (some str)) :
    ∃ n, numeral str = some n ∧ n < 2 ^ bits := by
  unfold Number at plain
  cases found : numeral str with
  | none => simp [found] at plain
  | some n => exact ⟨n, rfl, by simpa [found] using plain⟩

theorem Number.said_lt {bits : Nat} {attr : Option Bytes} (plain : Number bits attr) :
    said attr < 2 ^ bits := by
  unfold said
  cases attr with
  | none => exact Nat.two_pow_pos bits
  | some str =>
      obtain ⟨n, read, below⟩ := plain.read
      rw [Option.bind_some, read]
      exact below

theorem xmlStrtoul_number {bits : Nat} {attr : Option Bytes} (plain : Number bits attr)
    (small : bits ≤ 64) (erange : Bool) :
    (xmlStrtoul attr erange).1.getD 0 = (if erange ∧ said attr = ULONG_MAX then 0 else said attr) ∧
      (xmlStrtoul attr erange).2 = erange := by
  cases attr with
  | none => simp [xmlStrtoul, said, ULONG_MAX]
  | some str =>
      obtain ⟨n, read, below⟩ := plain.read
      have bound : 2 ^ bits ≤ ULONG_MAX + 1 := Nat.pow_le_pow_right (by decide) small
      have largest : n ≤ ULONG_MAX := by omega
      have value : said (some str) = n := by rw [said, Option.bind_some, read, Option.getD_some]
      simp only [xmlStrtoul, strtoul_numeral read largest, value]
      cases erange <;> by_cases largest : n = ULONG_MAX <;> simp [largest]

theorem store64_zero (number : Option Nat) : store64 number 0 = BitVec.ofNat 64 (number.getD 0) := by
  cases number <;> rfl

theorem store32_zero (number : Option Nat) : store32 number 0 = BitVec.ofNat 32 (number.getD 0) := by
  cases number <;> rfl

theorem storeText_short {attr : Option Bytes} {length : Nat} (short : Short length (text attr)) :
    storeText attr length [] = text attr := by
  cases attr with
  | none => rfl
  | some str => exact List.take_of_length_le short

theorem range_number {t : Tag} (base : Number 64 t.base) (size : Number 64 t.size) :
    store64 (t.range t.erange).base 0 = BitVec.ofNat 64 (stored t t.base) ∧
      store64 (t.range t.erange).size 0 = BitVec.ofNat 64 (stored t t.size) ∧
      (t.range t.erange).erange = t.erange := by
  obtain ⟨baseRead, behindBase⟩ := xmlStrtoul_number base (by decide) t.erange
  obtain ⟨sizeRead, behindSize⟩ := xmlStrtoul_number size (by decide) t.erange
  simp only [Tag.range, behindBase, store64_zero, baseRead, sizeRead, behindSize, stored, and_self]

theorem filter_eq_find {p : Tag → Bool} {tags : List Tag} (single : (tags.filter p).length ≤ 1) :
    tags.filter p = (tags.find? p).toList := by
  rw [← List.head?_filter]
  match tags.filter p, single with
  | [], _ => rfl
  | [t], _ => rfl

/-- A field that one element may set. -/
theorem field_element {β : Type} {field : ModemXmlInfo → β} {change : Tag → β → β}
    {relevant : Tag → Bool} {name : Bytes} {tags : List Tag}
    (next : ∀ xml t, field (nextFields xml t) = if relevant t then change t (field xml) else field xml)
    (named : ∀ t ∈ tags, relevant t = (t.name == name))
    (single : (tags.filter fun t => t.name == name).length ≤ 1) :
    field (tags.foldl nextFields {}) =
      ((element tags name).map fun t => change t (field {})).getD (field {}) := by
  rw [field_after next, List.filter_congr named, filter_eq_find single, element]
  cases tags.find? fun t => t.name == name <;> rfl

theorem text_field (field : ModemXmlInfo → Bytes) {length : Nat} {name : Bytes} {tags : List Tag}
    (next : ∀ xml t, field (nextFields xml t) =
      if t.name == name then storeText t.val length (field xml) else field xml)
    (empty : field {} = []) (single : (tags.filter fun t => t.name == name).length ≤ 1)
    (short : Short length (value tags name)) :
    field (tags.foldl nextFields {}) = value tags name := by
  rw [field_element next (fun _ _ => rfl) single, empty]
  unfold value at short ⊢
  cases found : element tags name with
  | none => rfl
  | some t =>
      rw [found] at short
      exact storeText_short short

theorem name_next (xml : ModemXmlInfo) (t : Tag) :
    (nextFields xml t).name =
      if t.name == MODEM_NAME then storeText t.val MAX_FILE_NAME_LEN xml.name else xml.name := by
  unfold nextFields tagPaths tagModemName tagRanges
  grind

theorem srcPath_next (xml : ModemXmlInfo) (t : Tag) :
    (nextFields xml t).srcPath =
      if t.name == SRC_PATH then storeText t.val MAX_PATH_LEN xml.srcPath else xml.srcPath := by
  have other : SRC_PATH ≠ IOCTL_PATH := by decide
  unfold nextFields tagPaths tagModemName tagRanges
  grind

theorem dstPath_next (xml : ModemXmlInfo) (t : Tag) :
    (nextFields xml t).dstPath =
      if t.name == DST_PATH then storeText t.val MAX_PATH_LEN xml.dstPath else xml.dstPath := by
  have other : DST_PATH ≠ IOCTL_PATH := by decide
  have other' : DST_PATH ≠ SRC_PATH := by decide
  unfold nextFields tagPaths tagModemName tagRanges
  grind

theorem ioCtrol_next (xml : ModemXmlInfo) (t : Tag) :
    (nextFields xml t).ioCtrol =
      if t.name == IOCTL_PATH then storeText t.val MAX_PATH_LEN xml.ioCtrol else xml.ioCtrol := by
  unfold nextFields tagPaths tagModemName tagRanges
  grind

theorem element_mem {tags : List Tag} {name : Bytes} {t : Tag} (found : element tags name = some t) :
    t ∈ tags ∧ t.name = name := by
  have named := List.find?_some found
  exact ⟨List.mem_of_find?_eq_some found, eq_of_beq named⟩

theorem number_field (field : ModemXmlInfo → BitVec 64) {read : Tag → Option Nat} {word : Bytes}
    {attr : Tag → Option Bytes} {tags : List Tag}
    (next : ∀ xml t, field (nextFields xml t) =
      if strstr t.name word then store64 (read t) (field xml) else field xml)
    (empty : field {} = 0) (self : strstr word word = true)
    (named : ∀ t ∈ tags, strstr t.name word → t.name = word)
    (single : (tags.filter fun t => t.name == word).length ≤ 1)
    (reads : ∀ t ∈ tags, t.name = word →
      store64 (read t) 0 = BitVec.ofNat 64 (stored t (attr t))) :
    field (tags.foldl nextFields {}) = number stored tags word attr := by
  have exact : ∀ t ∈ tags, strstr t.name word = (t.name == word) := by
    intro t member
    cases contains : strstr t.name word with
    | true => exact (beq_iff_eq.mpr (named t member contains)).symm
    | false =>
        symm
        rw [beq_eq_false_iff_ne]
        intro same
        rw [same, self] at contains
        cases contains
  rw [field_element next exact single, empty, number]
  cases found : element tags word with
  | none => rfl
  | some t =>
      obtain ⟨member, name⟩ := element_mem found
      exact reads t member name

theorem modemRange_next (xml : ModemXmlInfo) (t : Tag) :
    (nextFields xml t).modemBase =
        (if strstr t.name MODEM_RANGE then store64 (t.range t.erange).base xml.modemBase
          else xml.modemBase) ∧
      (nextFields xml t).modemSize =
        (if strstr t.name MODEM_RANGE then store64 (t.range t.erange).size xml.modemSize
          else xml.modemSize) := by
  unfold nextFields tagPaths tagModemName tagRanges Tag.modemRange Tag.rangeIf store64
  grind

theorem allRange_next (xml : ModemXmlInfo) (t : Tag) :
    (nextFields xml t).allBase =
        (if strstr t.name ALL_RANGE then store64 (t.range t.modemRange.erange).base xml.allBase
          else xml.allBase) ∧
      (nextFields xml t).allSize =
        (if strstr t.name ALL_RANGE then store64 (t.range t.modemRange.erange).size xml.allSize
          else xml.allSize) := by
  unfold nextFields tagPaths tagModemName tagRanges Tag.allRange Tag.rangeIf store64
  grind

section

variable {tags : List Tag} (wf : WellFormed tags)
include wf

theorem fields_described :
    (tags.foldl nextFields {}).name = value tags MODEM_NAME ∧
      (tags.foldl nextFields {}).srcPath = value tags SRC_PATH ∧
      (tags.foldl nextFields {}).dstPath = value tags DST_PATH ∧
      (tags.foldl nextFields {}).ioCtrol = value tags IOCTL_PATH := by
  have srcPath := wf.path SRC_PATH (by decide)
  have dstPath := wf.path DST_PATH (by decide)
  have ioCtrol := wf.path IOCTL_PATH (by decide)
  refine ⟨?_, ?_, ?_, ?_⟩
  · exact text_field (·.name) name_next rfl (wf.single MODEM_NAME (by decide)) wf.modemName
  · exact text_field (·.srcPath) srcPath_next rfl (wf.single SRC_PATH (by decide)) srcPath
  · exact text_field (·.dstPath) dstPath_next rfl (wf.single DST_PATH (by decide)) dstPath
  · exact text_field (·.ioCtrol) ioCtrol_next rfl (wf.single IOCTL_PATH (by decide)) ioCtrol

theorem modemRange_described :
    (tags.foldl nextFields {}).modemBase = number stored tags MODEM_RANGE Tag.base ∧
      (tags.foldl nextFields {}).modemSize = number stored tags MODEM_RANGE Tag.size := by
  have single := wf.single MODEM_RANGE (by decide)
  have reads : ∀ t ∈ tags, t.name = MODEM_RANGE → _ := fun t member named =>
    range_number (wf.range t member (.inl named)).1 (wf.range t member (.inl named)).2
  constructor
  · exact number_field (·.modemBase) (fun xml t => (modemRange_next xml t).1) rfl (by decide)
      wf.modemRange single fun t member named => (reads t member named).1
  · exact number_field (·.modemSize) (fun xml t => (modemRange_next xml t).2) rfl (by decide)
      wf.modemRange single fun t member named => (reads t member named).2.1

theorem allRange_described :
    (tags.foldl nextFields {}).allBase = number stored tags ALL_RANGE Tag.base ∧
      (tags.foldl nextFields {}).allSize = number stored tags ALL_RANGE Tag.size := by
  have single := wf.single ALL_RANGE (by decide)
  have reads : ∀ t ∈ tags, t.name = ALL_RANGE →
      store64 (t.range t.modemRange.erange).base 0 = BitVec.ofNat 64 (stored t t.base) ∧
        store64 (t.range t.modemRange.erange).size 0 = BitVec.ofNat 64 (stored t t.size) := by
    intro t member named
    have other : strstr t.name MODEM_RANGE = false := by
      rw [named]
      decide
    obtain ⟨base, size⟩ := wf.range t member (.inr named)
    obtain ⟨baseRead, sizeRead, _⟩ := range_number base size
    simp only [Tag.modemRange, Tag.rangeIf, other]
    exact ⟨baseRead, sizeRead⟩
  constructor
  · exact number_field (·.allBase) (fun xml t => (allRange_next xml t).1) rfl (by decide)
      wf.allRange single fun t member named => (reads t member named).1
  · exact number_field (·.allSize) (fun xml t => (allRange_next xml t).2) rfl (by decide)
      wf.allRange single fun t member named => (reads t member named).2

/-- The item of a partition holds what its attributes say. -/
theorem item_described {t : Tag} (member : t ∈ tags) (partition : t.isPartition = true) :
    t.item = {
      addr := BitVec.ofNat 64 (stored t t.base)
      size := BitVec.ofNat 32 (stored t t.size)
      dstFile := text t.dst
      srcFile := text t.src
      name := text t.itemName
      flag := BitVec.ofNat 32 (stored t t.flag) } := by
  obtain ⟨base, size, flag⟩ := wf.partition t member partition
  obtain ⟨itemName, src, dst⟩ := wf.texts t member partition
  have notModem : strstr t.name MODEM_RANGE = false := by
    by_contra contains
    rw [Tag.isPartition, wf.modemRange t member (by simpa using contains)] at partition
    exact absurd partition (by decide)
  have notAll : strstr t.name ALL_RANGE = false := by
    by_contra contains
    rw [Tag.isPartition, wf.allRange t member (by simpa using contains)] at partition
    exact absurd partition (by decide)
  have errno : t.allRange.erange = t.erange := by
    simp [Tag.allRange, Tag.modemRange, Tag.rangeIf, notModem, notAll]
  obtain ⟨baseRead, behindBase⟩ := xmlStrtoul_number base (by decide) t.erange
  obtain ⟨sizeRead, behindSize⟩ := xmlStrtoul_number size (by decide) t.erange
  obtain ⟨flagRead, _⟩ := xmlStrtoul_number flag (by decide) t.erange
  simp only [Tag.item, Tag.stores, errno, Tag.range, behindBase, behindSize, ItemStores.apply,
    emptyItem, store64_zero, store32_zero, baseRead, sizeRead, flagRead, storeText_short itemName,
    storeText_short src, storeText_short dst, stored]

end

theorem uncounted_of_name {t : Tag} (other : t.name ≠ PARTION_CNT) :
    t.accepted = none ∧ t.refused = false := by
  simp [Tag.accepted, Tag.refused, Tag.cnt, other]

theorem Counted.accepted {before after : List Tag} {t : Tag} {cnt : Nat}
    (counted : Counted before t after cnt) : t.accepted = some cnt := by
  obtain ⟨str, present, read⟩ := Option.bind_eq_some_iff.mp counted.val
  have positive := counted.positive
  have bound := counted.bound
  have small : cnt ≤ ULONG_MAX := Nat.le_trans bound (by decide)
  have fits : cnt % 0x100000000 = cnt := Nat.mod_eq_of_lt (by omega)
  have nonzero : cnt ≠ 0 := by omega
  simp [Tag.accepted, Tag.cnt, counted.name, present, strtoul_numeral read small, fits, validCnt,
    nonzero, bound]

/-- The run of a well-formed document: the fields are a fold, the items are those of the
    partitions. -/
theorem run_wellFormed {tags : List Tag} (wf : WellFormed tags) (itemCnt : Nat) :
    ∃ s, run modemXmlStartTag { itemCnt := itemCnt } tags = some s ∧
      s.cur = (tags.foldl nextFields {}).withItems
        (some ((tags.filter Tag.isPartition).map Tag.item)) := by
  obtain ⟨before, t, after, cnt, rfl, counted⟩ := wf.counted
  have accepted := counted.accepted
  have named : ∀ t' ∈ before ++ after, t'.accepted = none ∧ t'.refused = false :=
    fun t' member => uncounted_of_name (counted.single t' member)
  have first : ∀ t' ∈ before, t'.accepted = none :=
    fun t' member => (named t' (List.mem_append_left _ member)).1
  have last : ∀ t' ∈ after, t'.accepted = none :=
    fun t' member => (named t' (List.mem_append_right _ member)).1
  have allowed : ∀ t' ∈ before ++ t :: after, t'.refused = false := by
    intro t' member
    simp only [List.mem_append, List.mem_cons] at member
    rcases member with early | rfl | late
    · exact (named t' (List.mem_append_left _ early)).2
    · exact allowed_of_accepted accepted
    · exact (named t' (List.mem_append_right _ late)).2
  have partitions : (before ++ t :: after).filter Tag.isPartition = after.filter Tag.isPartition := by
    rw [List.filter_append, counted.first, List.nil_append, List.filter_cons_of_neg]
    simp [not_partition_of_accepted accepted]
  have absent : ({ itemCnt := itemCnt } : XmlState).cur.itemArry = none := rfl
  obtain ⟨s, parsed, items⟩ := run_items absent accepted counted.memory first last counted.total
  refine ⟨s, parsed, ?_⟩
  rw [run_fields allowed parsed, partitions, items]

theorem imageLoad_described {tags : List Tag} (wf : WellFormed tags) {xml : XmlInfo}
    (srcPath : xml.srcPath = value tags SRC_PATH) (dstPath : xml.dstPath = value tags DST_PATH)
    (ioCtrol : xml.ioCtrol = value tags IOCTL_PATH) (ioctrlIsOk : Bool) {t : Tag}
    (member : t ∈ tags) (partition : t.isPartition = true) :
    imageLoad xml ioctrlIsOk t.item = entry stored tags ioctrlIsOk t := by
  have ioctl := wf.path IOCTL_PATH (by decide)
  have dst := wf.pathW t member partition
  obtain ⟨itemName, full, _⟩ := wf.texts t member partition
  have src : pathR xml t.item = (entry stored tags ioctrlIsOk t).pathR := by
    rw [item_described wf member partition, XmlParse.pathR, entry, srcPath]
    cases folder : strstr (text t.src) (bytes "/") with
    | true => exact List.take_of_length_le full
    | false => exact List.take_of_length_le (wf.pathR t member partition folder)
  rw [imageLoad, src, item_described wf member partition, XmlParse.pathW, dstPath, ioCtrol,
    mstrncpy2, List.take_of_length_le ioctl, List.take_of_length_le dst,
    List.take_of_length_le itemName]
  rfl

/-- The description is what a well-formed document says, with the numbers that were
    stored. -/
structure Holds (tags : List Tag) (xml : ModemXmlInfo) : Prop where
  items : xml.itemArry = some ((tags.filter Tag.isPartition).map Tag.item)
  name : xml.name = value tags MODEM_NAME
  srcPath : xml.srcPath = value tags SRC_PATH
  dstPath : xml.dstPath = value tags DST_PATH
  ioCtrol : xml.ioCtrol = value tags IOCTL_PATH
  modemBase : xml.modemBase = number stored tags MODEM_RANGE Tag.base
  modemSize : xml.modemSize = number stored tags MODEM_RANGE Tag.size
  allBase : xml.allBase = number stored tags ALL_RANGE Tag.base
  allSize : xml.allSize = number stored tags ALL_RANGE Tag.size

theorem holds_fold {tags : List Tag} (wf : WellFormed tags) :
    Holds tags ((tags.foldl nextFields {}).withItems
      (some ((tags.filter Tag.isPartition).map Tag.item))) := by
  obtain ⟨name, srcPath, dstPath, ioCtrol⟩ := fields_described wf
  obtain ⟨modemBase, modemSize⟩ := modemRange_described wf
  obtain ⟨allBase, allSize⟩ := allRange_described wf
  exact ⟨rfl, name, srcPath, dstPath, ioCtrol, modemBase, modemSize, allBase, allSize⟩

theorem toLoadInfo_described {tags : List Tag} (wf : WellFormed tags) {xml : ModemXmlInfo}
    (holds : Holds tags xml) {load : LoadValueS} (fresh : load.ioctrlIsOk = false)
    (access : Bytes → Bool) :
    modemXmlToLoadInfoS xml load true access = described stored tags load access := by
  have ioctl := List.take_of_length_le (wf.path IOCTL_PATH (by decide))
  have named := List.take_of_length_le wf.modemName
  have table : ((tags.filter Tag.isPartition).map Tag.item).map
      (imageLoad xml.toXmlInfo (pathIsOk false (value tags IOCTL_PATH) access)) =
      (tags.filter Tag.isPartition).map
        (entry stored tags (pathIsOk false (value tags IOCTL_PATH) access)) := by
    rw [List.map_map]
    apply List.map_congr_left
    intro t member
    obtain ⟨member, partition⟩ := List.mem_filter.mp member
    exact imageLoad_described wf holds.srcPath holds.dstPath holds.ioCtrol _ member partition
  unfold modemXmlToLoadInfoS modemXmlToLoadInfo
  simp only [holds.items, holds.name, holds.dstPath, holds.ioCtrol, holds.modemBase,
    holds.modemSize, holds.allBase, holds.allSize, fresh, table, ioctl, named]
  rfl

/-- A well-formed document is published with the numbers that were stored. -/
theorem initFromXml_described {doc : Document} (wf : WellFormed doc.tags) (access : Bytes → Bool)
    {load : LoadValueS} (fresh : load.ioctrlIsOk = false) (itemCnt : Nat) :
    (initFromXml ⟨doc, true, access⟩ load itemCnt).map Prod.fst =
      some (described stored doc.tags load access) := by
  obtain ⟨s, parsed, cur⟩ := run_wellFormed wf itemCnt
  have holds := holds_fold wf
  rw [← cur] at holds
  rw [initFromXml, modemXmlInit, modemXmlStartParse, parsed, Option.map_some, Option.map_some,
    toLoadInfo_described wf holds fresh]

/-- The tags with a number that an ERANGE in `errno` may cost. -/
def Tag.hasNumbers (t : Tag) : Bool := t.isPartition || t.name == MODEM_RANGE || t.name == ALL_RANGE

/-- No number of this size is read while `errno` is ERANGE. -/
def ErrnoCleared (tags : List Tag) : Prop :=
  ∀ t ∈ tags, t.hasNumbers → t.erange → said t.base ≠ ULONG_MAX ∧ said t.size ≠ ULONG_MAX

theorem stored_eq {t : Tag} {attr : Option Bytes} (kept : t.erange → said attr ≠ ULONG_MAX) :
    stored t attr = said attr := by
  unfold stored
  rw [if_neg]
  intro lost
  exact kept lost.1 lost.2

theorem kept_of_stored {t : Tag} {attr : Option Bytes}
    (same : BitVec.ofNat 64 (stored t attr) = BitVec.ofNat 64 (said attr)) :
    t.erange → said attr ≠ ULONG_MAX := by
  intro erange largest
  rw [stored, if_pos ⟨erange, largest⟩, largest] at same
  exact absurd same (by decide)

theorem Number.said_ne {attr : Option Bytes} (plain : Number 32 attr) : said attr ≠ ULONG_MAX := by
  have below := plain.said_lt
  intro largest
  rw [largest] at below
  exact absurd below (by decide)

theorem element_of_mem {tags : List Tag} {t : Tag}
    (single : (tags.filter fun t' => t'.name == t.name).length ≤ 1) (member : t ∈ tags) :
    element tags t.name = some t := by
  have found : t ∈ tags.filter fun t' => t'.name == t.name := by
    simp [List.mem_filter, member]
  rw [filter_eq_find single] at found
  simpa [element] using found

theorem number_stored {tags : List Tag} {name : Bytes} (ranged : name = MODEM_RANGE ∨ name = ALL_RANGE)
    {attr : Tag → Option Bytes}
    (kept : ∀ t ∈ tags, t.hasNumbers → t.erange → said (attr t) ≠ ULONG_MAX) :
    number stored tags name attr = number (fun _ => said) tags name attr := by
  unfold number
  cases found : element tags name with
  | none => rfl
  | some t =>
      obtain ⟨member, named⟩ := element_mem found
      have numbers : t.hasNumbers := by
        rcases ranged with rfl | rfl <;> simp [Tag.hasNumbers, named]
      rw [Option.map_some, Option.map_some, stored_eq (kept t member numbers)]

theorem kept_of_number {tags : List Tag} {t : Tag} (member : t ∈ tags)
    (single : (tags.filter fun t' => t'.name == t.name).length ≤ 1) {attr : Tag → Option Bytes}
    (same : number stored tags t.name attr = number (fun _ => said) tags t.name attr) :
    t.erange → said (attr t) ≠ ULONG_MAX := by
  unfold number at same
  rw [element_of_mem single member] at same
  exact kept_of_stored same

theorem entry_stored {tags : List Tag} (wf : WellFormed tags) {t : Tag} (member : t ∈ tags)
    (partition : t.isPartition = true) (ioctrlIsOk : Bool)
    (kept : t.erange → said t.base ≠ ULONG_MAX) :
    entry stored tags ioctrlIsOk t = entry (fun _ => said) tags ioctrlIsOk t := by
  obtain ⟨_, size, flag⟩ := wf.partition t member partition
  simp only [entry, stored_eq kept, stored_eq fun _ => size.said_ne, stored_eq fun _ => flag.said_ne]

/-- The numbers that were stored are those of the document. -/
theorem described_stored_iff {tags : List Tag} (wf : WellFormed tags) (load : LoadValueS)
    (access : Bytes → Bool) :
    described stored tags load access = described (fun _ => said) tags load access ↔
      ErrnoCleared tags := by
  constructor
  · intro same t member numbers erange
    simp only [Tag.hasNumbers, Bool.or_eq_true, beq_iff_eq] at numbers
    rcases numbers with (partition | modemRange) | allRange
    · have tables := congrArg (fun load : LoadValueS => load.loadTable) same
      have entries := List.map_inj_left.mp tables t (List.mem_filter.mpr ⟨member, partition⟩)
      have plain := (wf.partition t member partition).2.1
      exact ⟨kept_of_stored (congrArg ImageLoad.addr entries) erange, plain.said_ne⟩
    · have single := wf.single t.name (by rw [modemRange]; decide)
      have base := congrArg LoadValueS.modemBase same
      have size := congrArg LoadValueS.modemSize same
      simp only [described, ← modemRange] at base size
      exact ⟨kept_of_number member single base erange, kept_of_number member single size erange⟩
    · have single := wf.single t.name (by rw [allRange]; decide)
      have base := congrArg LoadValueS.allBase same
      have size := congrArg LoadValueS.allSize same
      simp only [described, ← allRange] at base size
      exact ⟨kept_of_number member single base erange, kept_of_number member single size erange⟩
  · intro cleared
    have base : ∀ t ∈ tags, t.hasNumbers → t.erange → said t.base ≠ ULONG_MAX :=
      fun t member numbers erange => (cleared t member numbers erange).1
    have size : ∀ t ∈ tags, t.hasNumbers → t.erange → said t.size ≠ ULONG_MAX :=
      fun t member numbers erange => (cleared t member numbers erange).2
    have table : ∀ ioctrlIsOk, (tags.filter Tag.isPartition).map (entry stored tags ioctrlIsOk) =
        (tags.filter Tag.isPartition).map (entry (fun _ => said) tags ioctrlIsOk) := by
      intro ioctrlIsOk
      apply List.map_congr_left
      intro t member
      obtain ⟨member, partition⟩ := List.mem_filter.mp member
      exact entry_stored wf member partition ioctrlIsOk
        (base t member (by simp [Tag.hasNumbers, partition]))
    simp only [described, table, number_stored (.inl rfl) base, number_stored (.inl rfl) size,
      number_stored (.inr rfl) base, number_stored (.inr rfl) size]

/-- A tag of which only the attributes are known. -/
def ofAttrs (attrs : List (Bytes × Bytes)) : Tag := { name := [], attrs := attrs }

theorem map_of_attrs {β : Type} (f : Tag → β) (only : ∀ t, f t = f (ofAttrs t.attrs))
    {o o' : Option Tag} (same : o.map Tag.attrs = o'.map Tag.attrs) : o.map f = o'.map f := by
  have through : ∀ o : Option Tag, o.map f = (o.map Tag.attrs).map fun attrs => f (ofAttrs attrs) := by
    intro o
    cases o with
    | none => rfl
    | some t => exact congrArg some (only t)
  rw [through, through, same]

section

variable {tags tags' : List Tag} (same : SameElements tags tags')
include same

theorem value_same {name : Bytes} (member : name ∈ elementNames) : value tags name = value tags' name := by
  have vals := map_of_attrs Tag.val (fun _ => rfl) (same.element name member)
  have split : ∀ o : Option Tag, o.bind Tag.val = (o.map Tag.val).join := by
    intro o
    cases o <;> rfl
  rw [value, value, split, split, vals]

theorem number_same {name : Bytes} (member : name ∈ elementNames) {attr : Tag → Option Bytes}
    (only : ∀ t, attr t = attr (ofAttrs t.attrs)) :
    number (fun _ => said) tags name attr = number (fun _ => said) tags' name attr := by
  have numbers := map_of_attrs (fun t => said (attr t)) (fun t => congrArg said (only t))
    (same.element name member)
  rw [number, number, numbers]

theorem entries_same (ioctrlIsOk : Bool) :
    (tags.filter Tag.isPartition).map (entry (fun _ => said) tags ioctrlIsOk) =
      (tags'.filter Tag.isPartition).map (entry (fun _ => said) tags' ioctrlIsOk) := by
  have through : ∀ l : List Tag, l.map (entry (fun _ => said) tags' ioctrlIsOk) =
      (l.map Tag.attrs).map fun attrs => entry (fun _ => said) tags' ioctrlIsOk (ofAttrs attrs) := by
    intro l
    rw [List.map_map]
    rfl
  have paths : entry (fun _ => said) tags ioctrlIsOk = entry (fun _ => said) tags' ioctrlIsOk := by
    funext t
    have ioctl := value_same same (show IOCTL_PATH ∈ elementNames by decide)
    have dst := value_same same (show DST_PATH ∈ elementNames by decide)
    have src := value_same same (show SRC_PATH ∈ elementNames by decide)
    rw [entry, entry, ioctl, dst, src]
  rw [paths, through, through, same.partition]

theorem described_same (load : LoadValueS) (access : Bytes → Bool) :
    described (fun _ => said) tags load access = described (fun _ => said) tags' load access := by
  have name := value_same same (show MODEM_NAME ∈ elementNames by decide)
  have ioctl := value_same same (show IOCTL_PATH ∈ elementNames by decide)
  have dst := value_same same (show DST_PATH ∈ elementNames by decide)
  have modemRange : MODEM_RANGE ∈ elementNames := by decide
  have allRange : ALL_RANGE ∈ elementNames := by decide
  unfold described
  rw [name, ioctl, dst]
  dsimp only
  rw [entries_same same,
    number_same same modemRange fun t : Tag => (rfl : t.base = _),
    number_same same modemRange fun t : Tag => (rfl : t.size = _),
    number_same same allRange fun t : Tag => (rfl : t.base = _),
    number_same same allRange fun t : Tag => (rfl : t.size = _)]

end

/-- The load info of a document for which both allocations succeed. -/
def tableOf (doc : Document) (load : LoadValueS) (access : Bytes → Bool) (itemCnt : Nat) :
    Option LoadValueS :=
  (initFromXml ⟨doc, true, access⟩ load itemCnt).map Prod.fst

/-- The load info is the one the document describes. -/
def Right (doc : Document) (load : LoadValueS) (access : Bytes → Bool) (itemCnt : Nat) : Prop :=
  tableOf doc load access itemCnt = some (described (fun _ => said) doc.tags load access)

theorem right_iff {doc : Document} (wf : WellFormed doc.tags) {load : LoadValueS}
    (fresh : load.ioctrlIsOk = false) (access : Bytes → Bool) (itemCnt : Nat) :
    Right doc load access itemCnt ↔ ErrnoCleared doc.tags := by
  rw [Right, tableOf, initFromXml_described wf access fresh, Option.some.injEq,
    described_stored_iff wf]

/-- Of two well-formed documents with the same elements in any places: both lead to the
    load info that they describe, and so to the same, exactly when no number is lost. -/
theorem wellFormed_right_iff (doc doc' : Document) (wf : WellFormed doc.tags)
    (wf' : WellFormed doc'.tags) (same : SameElements doc.tags doc'.tags) (load : LoadValueS)
    (fresh : load.ioctrlIsOk = false) (access : Bytes → Bool) (itemCnt itemCnt' : Nat) :
    (Right doc load access itemCnt ∧ Right doc' load access itemCnt' ∧
        tableOf doc load access itemCnt = tableOf doc' load access itemCnt') ↔
      ErrnoCleared doc.tags ∧ ErrnoCleared doc'.tags := by
  rw [← right_iff wf fresh access itemCnt, ← right_iff wf' fresh access itemCnt']
  constructor
  · intro all
    exact ⟨all.1, all.2.1⟩
  · intro both
    refine ⟨both.1, both.2, ?_⟩
    rw [both.1, both.2, described_same same]

def srcPathTag : Tag where
  name := SRC_PATH
  attrs := [(bytes "val", bytes "/dev/")]

def largestTag (erange : Bool) : Tag where
  name := PARTITION
  attrs := [(bytes "base", bytes "18446744073709551615")]
  erange := erange

/-- One partition with the largest address there is, and a path in front or behind. -/
def largest (erange first : Bool) : Document :=
  .parsed [if first then [srcPathTag, partionCntTag (bytes "1"), largestTag erange]
    else [partionCntTag (bytes "1"), largestTag erange, srcPathTag]] (.parseBuffer [] true)

theorem largest_wellFormed (erange first : Bool) : WellFormed (largest erange first).tags where
  counted := by
    cases first with
    | true =>
        refine ⟨[srcPathTag], partionCntTag (bytes "1"), [largestTag erange], 1, rfl, ?_⟩
        constructor <;> cases erange <;> decide
    | false =>
        refine ⟨[], partionCntTag (bytes "1"), [largestTag erange, srcPathTag], 1, rfl, ?_⟩
        constructor <;> cases erange <;> decide
  single := by cases first <;> cases erange <;> decide
  modemRange := by cases first <;> cases erange <;> decide
  allRange := by cases first <;> cases erange <;> decide
  partition := by cases first <;> cases erange <;> decide
  range := by cases first <;> cases erange <;> decide
  texts := by cases first <;> cases erange <;> decide
  modemName := by cases first <;> cases erange <;> decide
  path := by cases first <;> cases erange <;> decide
  pathR := by cases first <;> cases erange <;> decide
  pathW := by cases first <;> cases erange <;> decide

theorem largest_sameElements (erange : Bool) :
    SameElements (largest erange true).tags (largest erange false).tags := by
  constructor <;> cases erange <;> decide

theorem largest_cleared (first : Bool) : ErrnoCleared (largest false first).tags := by
  intro t member _ erange
  have clear : ∀ t ∈ (largest false first).tags, t.erange = false := by
    cases first <;> decide
  rw [clear t member] at erange
  cases erange

/-- With `errno` clear the address is kept, wherever the path stands. -/
theorem largest_right :
    Right (largest false true) {} (fun _ => false) 0 ∧
      Right (largest false false) {} (fun _ => false) 7 ∧
      tableOf (largest false true) {} (fun _ => false) 0 =
        tableOf (largest false false) {} (fun _ => false) 7 :=
  (wellFormed_right_iff (largest false true) (largest false false) (largest_wellFormed false true)
    (largest_wellFormed false false) (largest_sameElements false) {} rfl (fun _ => false) 0 7).mpr
    ⟨largest_cleared true, largest_cleared false⟩

/-- After an overflow in an earlier document the address is lost. -/
theorem largest_lost :
    WellFormed (largest true true).tags ∧ ¬ Right (largest true true) {} (fun _ => false) 0 := by
  refine ⟨largest_wellFormed true true, ?_⟩
  intro right
  have cleared := (right_iff (largest_wellFormed true true) rfl (fun _ => false) 0).mp right
  have kept := cleared (largestTag true) (by decide) (by decide) rfl
  exact kept.1 (by decide)

end ModemControl.XmlTags
