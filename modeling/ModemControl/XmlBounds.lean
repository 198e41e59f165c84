import ModemControl.XmlTags

/-! # The items of an XML description stay inside their array

The first accepted partion_cnt whose `malloc` succeeds allocates the items; every accepted
one starts the numbering of the partitions again. What a partition tag accesses is decided
by the tags before it, and by nothing that an earlier document has left behind.
-/

namespace ModemControl.XmlTags

open Foundation Load XmlParse

/-- The number of items the array was allocated for. -/
def allocated (before : List Tag) : Option Nat :=
  before.findSome? fun t => if t.malloc then t.accepted else none

/-- The number of partitions behind the last accepted partion_cnt. -/
def numbered (before : List Tag) : Nat :=
  before.foldl
    (fun n t => if t.accepted.isSome then 0 else if t.isPartition then n + 1 else n) 0

/-- A tag that stores something into an item. -/
def Tag.accesses (t : Tag) : Bool := t.isPartition && !t.stores.none

/-- A tag behind these others accesses no item, or there is one with its number. -/
def FitsBehind (before : List Tag) (t : Tag) : Prop :=
  t.accesses → ∀ cnt, allocated before = some cnt → numbered before < cnt

/-- No more partitions with something to store follow a partion_cnt than the first one
    that allocates says. -/
def Fits (tags : List Tag) : Prop :=
  ∀ before t after, tags = before ++ t :: after → FitsBehind before t

theorem not_partition_of_cnt {t : Tag} {cnt : Nat} (said : t.cnt = some cnt) :
    t.isPartition = false := by
  obtain ⟨exact, _⟩ := Option.ite_none_right_eq_some.mp said
  rw [Tag.isPartition, exact]
  decide

theorem not_partition_of_accepted {t : Tag} {cnt : Nat} (accepted : t.accepted = some cnt) :
    t.isPartition = false :=
  not_partition_of_cnt (Option.filter_eq_some_iff.mp accepted).1

theorem not_partition_of_refused {t : Tag} (refused : t.refused = true) :
    t.isPartition = false := by
  unfold Tag.refused at refused
  cases said : t.cnt with
  | none => simp [said] at refused
  | some cnt => exact not_partition_of_cnt said

theorem accepted_of_refused {t : Tag} (refused : t.refused = true) : t.accepted = none := by
  unfold Tag.refused at refused
  unfold Tag.accepted
  cases said : t.cnt with
  | none => rfl
  | some cnt => simpa [said] using refused

theorem allowed_of_accepted {t : Tag} {cnt : Nat} (accepted : t.accepted = some cnt) :
    t.refused = false := by
  by_contra refused
  rw [accepted_of_refused (by simpa using refused)] at accepted
  cases accepted

theorem allowed_of_partition {t : Tag} (partition : t.isPartition = true) : t.refused = false := by
  by_contra refused
  rw [not_partition_of_refused (by simpa using refused)] at partition
  cases partition

theorem unaccepted_of_partition {t : Tag} (partition : t.isPartition = true) :
    t.accepted = none := by
  cases accepted : t.accepted with
  | none => rfl
  | some cnt =>
      rw [not_partition_of_accepted accepted] at partition
      cases partition

theorem allocated_snoc (before : List Tag) (t : Tag) :
    allocated (before ++ [t]) =
      (allocated before).or (if t.malloc then t.accepted else none) := by
  simp only [allocated, List.findSome?_append, List.findSome?_singleton]

theorem numbered_snoc (before : List Tag) (t : Tag) :
    numbered (before ++ [t]) =
      if t.accepted.isSome then 0
      else if t.isPartition then numbered before + 1 else numbered before := by
  simp only [numbered, List.foldl_append, List.foldl_cons, List.foldl_nil]

@[simp] theorem tagModemName_itemArry (t : Tag) (xml : ModemXmlInfo) :
    (tagModemName t xml).itemArry = xml.itemArry := by
  unfold tagModemName
  split <;> rfl

@[simp] theorem tagPaths_itemArry (t : Tag) (xml : ModemXmlInfo) :
    (tagPaths t xml).itemArry = xml.itemArry := by
  unfold tagPaths
  repeat' split
  all_goals rfl

@[simp] theorem tagFields_itemArry (t : Tag) (s : XmlState) :
    (tagFields t s).cur.itemArry = s.cur.itemArry :=
  tagPaths_itemArry t s.cur

@[simp] theorem tagFields_itemCnt (t : Tag) (s : XmlState) :
    (tagFields t s).itemCnt = s.itemCnt := rfl

theorem storeItem_isSome {st : ItemStores} {i : Nat} {items : List PartionItem} :
    (storeItem st i items).isSome ↔ (st.none = false → i < items.length) := by
  unfold storeItem
  cases st.none <;> simp

theorem storeItem_length {st : ItemStores} {i : Nat} {items items' : List PartionItem}
    (stored : storeItem st i items = some items') : items'.length = items.length := by
  unfold storeItem at stored
  split at stored
  · rw [← Option.some.inj stored]
  · split at stored
    · rw [← Option.some.inj stored, List.length_modify]
    · cases stored

/-- The array has the allocated length, and once there is one the static variable is the
    number of the next partition. -/
structure After (before : List Tag) (s : XmlState) : Prop where
  length : s.cur.itemArry.map List.length = allocated before
  next : s.cur.itemArry.isSome → s.itemCnt = numbered before

theorem After.same {before : List Tag} {s s' : XmlState} (after : After before s)
    (items : s'.cur.itemArry = s.cur.itemArry) (cnt : s'.itemCnt = s.itemCnt) :
    After before s' := by
  constructor
  · rw [items, after.length]
  · rw [items, cnt]
    exact after.next

/-- A tag that is no partition is always handled. -/
theorem modemXmlStartTag_other {s : XmlState} {t : Tag} (other : t.isPartition = false) :
    modemXmlStartTag s t =
      some (if t.refused then { s with cur := tagModemName t s.cur }
        else tagFields t (tagPartionCnt t { s with cur := tagModemName t s.cur })) := by
  unfold modemXmlStartTag tagPartition
  dsimp only
  split
  · rfl
  · rw [other]
    split <;> rfl

/-- A partition stores into the item with the number of the static variable. -/
theorem modemXmlStartTag_partition {s : XmlState} {t : Tag} (partition : t.isPartition = true) :
    modemXmlStartTag s t = tagPartition t (tagFields t { s with cur := tagModemName t s.cur }) := by
  unfold modemXmlStartTag tagPartionCnt
  rw [allowed_of_partition partition, unaccepted_of_partition partition]
  rfl

theorem handled_iff_fits {before : List Tag} {s : XmlState} {t : Tag} (after : After before s) :
    (modemXmlStartTag s t).isSome ↔ FitsBehind before t := by
  cases partition : t.isPartition with
  | false => simp [modemXmlStartTag_other partition, FitsBehind, Tag.accesses, partition]
  | true =>
      have length := after.length
      have next := after.next
      rw [modemXmlStartTag_partition partition, FitsBehind, Tag.accesses, partition, tagPartition,
        ← length]
      cases found : s.cur.itemArry with
      | none => simp [found]
      | some items =>
          rw [found] at next
          simp [found, partition, storeItem_isSome, next rfl]

theorem after_partition {before : List Tag} {s s' : XmlState} {t : Tag} (after : After before s)
    (partition : t.isPartition = true) (handled : modemXmlStartTag s t = some s') :
    After (before ++ [t]) s' := by
  have uncounted := unaccepted_of_partition partition
  have length : (if t.malloc then t.accepted else none : Option Nat) = none := by
    rw [uncounted, ite_self]
  rw [modemXmlStartTag_partition partition, tagPartition, partition] at handled
  split at handled
  · rename_i absent
    obtain rfl := Option.some.inj handled
    rw [tagFields_itemArry, tagModemName_itemArry] at absent
    constructor
    · rw [allocated_snoc, length, Option.or_none, ← after.length]
      simp
    · simp [absent]
  · rename_i items found
    rw [tagFields_itemArry, tagModemName_itemArry] at found
    rw [if_pos rfl, Option.map_eq_some_iff] at handled
    obtain ⟨items', stored, rfl⟩ := handled
    have next := after.next (by rw [found]; rfl)
    constructor
    · rw [allocated_snoc, length, Option.or_none, ← after.length, found]
      exact congrArg some (storeItem_length stored)
    · intro _
      rw [numbered_snoc, uncounted, partition, ← next]
      rfl

theorem after_uncounted {before : List Tag} {s : XmlState} {t : Tag} (after : After before s)
    (other : t.isPartition = false) (uncounted : t.accepted = none) : After (before ++ [t]) s := by
  obtain ⟨length, next⟩ := after
  constructor
  · rw [allocated_snoc, uncounted, ite_self, Option.or_none, length]
  · rw [numbered_snoc, uncounted, other]
    exact next

theorem after_counted {before : List Tag} {s : XmlState} {t : Tag} {cnt : Nat}
    (after : After before s) (counted : t.accepted = some cnt) :
    After (before ++ [t]) (tagPartionCnt t s) := by
  have length := after.length
  unfold tagPartionCnt
  rw [counted]
  cases found : s.cur.itemArry with
  | some items =>
      rw [found] at length
      constructor
      · simp only [allocated_snoc, found, ← length, Option.map_some, Option.some_or]
      · simp [numbered_snoc, counted]
  | none =>
      rw [found] at length
      cases gotten : t.malloc with
      | true =>
          constructor
          · simp [allocated_snoc, ← length, gotten, counted]
          · simp [numbered_snoc, counted]
      | false =>
          constructor
          · simp [allocated_snoc, ← length, gotten, found]
          · simp [found]

theorem after_other {before : List Tag} {s s' : XmlState} {t : Tag} (after : After before s)
    (other : t.isPartition = false) (handled : modemXmlStartTag s t = some s') :
    After (before ++ [t]) s' := by
  have named : After before { s with cur := tagModemName t s.cur } := after.same (by simp) rfl
  rw [modemXmlStartTag_other other] at handled
  obtain rfl := Option.some.inj handled
  split
  · rename_i refused
    exact after_uncounted named other (accepted_of_refused refused)
  · cases counted : t.accepted with
    | some cnt => exact (after_counted named counted).same (by simp) rfl
    | none =>
        rw [tagPartionCnt, counted]
        exact (after_uncounted named other counted).same (by simp) rfl

/-- The step lemma: the tags so far tell about the state behind every tag. -/
theorem after_tag (before : List Tag) (s : XmlState) (t : Tag) (s' : XmlState)
    (after : After before s) (handled : modemXmlStartTag s t = some s') :
    After (before ++ [t]) s' := by
  cases partition : t.isPartition with
  | true => exact after_partition after partition handled
  | false => exact after_other after partition handled

/-- Whatever an earlier document has left in the static variable. -/
theorem after_start (itemCnt : Nat) : After [] { itemCnt := itemCnt } := by
  constructor
  · rfl
  · simp

theorem document_inside_iff (doc : Document) (itemCnt : Nat) :
    (modemXmlInit doc itemCnt).isSome ↔ Fits doc.tags := by
  have handled : ∀ before s t, After before s →
      ((modemXmlStartTag s t).isSome ↔ FitsBehind before t) :=
    fun _ _ _ after => handled_iff_fits after
  unfold modemXmlInit modemXmlStartParse
  rw [run_isSome_iff handled after_tag (after_start itemCnt)]
  simp only [List.nil_append, Fits]

/-- Over all files, no partition tag goes beyond the array exactly when each of them fits. -/
theorem modemXmlInitAll_isSome_iff (docs : List Document) (itemCnt : Nat) :
    (modemXmlInitAll docs itemCnt).isSome ↔ ∀ doc ∈ docs, Fits doc.tags := by
  induction docs generalizing itemCnt with
  | nil => simp [modemXmlInitAll]
  | cons doc rest ih =>
      rw [List.forall_mem_cons, ← document_inside_iff doc itemCnt, modemXmlInitAll]
      cases parsed : modemXmlInit doc itemCnt with
      | none => simp
      | some s =>
          rw [← ih s.itemCnt]
          cases later : modemXmlInitAll rest s.itemCnt <;> simp [later]

def partionCntTag (cnt : Bytes) : Tag where
  name := PARTION_CNT
  attrs := [(bytes "val", cnt)]

def partitionTag (itemName : Bytes) : Tag where
  name := PARTITION
  attrs := [(bytes "name", itemName)]

/-- A description that says one partition and brings two. -/
def surplus : Document :=
  .parsed [[partionCntTag (bytes "1"), partitionTag (bytes "a"), partitionTag (bytes "b")]]
    (.parseBuffer [] true)

/-- The second partition of the cp is stored behind the end of an array of one item. -/
theorem surplus_not_inside : (modemXmlInitAll [surplus, .absent, .absent] 0).isSome = false := by
  decide

end ModemControl.XmlTags
