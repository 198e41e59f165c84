import ModemControl.XmlBounds

/-! # What the tags of a document leave

The fields of a description other than its items are a fold over the tags. The items are
those of the partition tags, one after the other, when one partion_cnt comes before them
all and says how many there are.
-/

namespace ModemControl.XmlTags

open Foundation Load XmlParse

/-- What one tag does to the fields other than the items. -/
def nextFields (xml : ModemXmlInfo) (t : Tag) : ModemXmlInfo :=
  tagRanges t (tagPaths t (tagModemName t xml))

/-- The description with these items. -/
def ModemXmlInfo.withItems (xml : ModemXmlInfo) (items : Option (List PartionItem)) : ModemXmlInfo :=
  { xml with itemArry := items }

theorem tagPaths_withItems (t : Tag) (xml : ModemXmlInfo) (items : Option (List PartionItem)) :
    tagPaths t (xml.withItems items) = (tagPaths t xml).withItems items := by
  unfold tagPaths
  repeat' split
  all_goals rfl

theorem nextFields_withItems (xml : ModemXmlInfo) (items : Option (List PartionItem)) (t : Tag) :
    nextFields (xml.withItems items) t = (nextFields xml t).withItems items := by
  have named : tagModemName t (xml.withItems items) = (tagModemName t xml).withItems items := by
    unfold tagModemName
    split <;> rfl
  rw [nextFields, named, tagPaths_withItems]
  rfl

theorem foldl_nextFields_withItems (tags : List Tag) (xml : ModemXmlInfo)
    (items : Option (List PartionItem)) :
    tags.foldl nextFields (xml.withItems items) = (tags.foldl nextFields xml).withItems items := by
  induction tags generalizing xml with
  | nil => rfl
  | cons t rest ih => rw [List.foldl_cons, List.foldl_cons, nextFields_withItems, ih]

theorem tagPartionCnt_fields (t : Tag) (s : XmlState) :
    ∃ items, (tagPartionCnt t s).cur = s.cur.withItems items := by
  unfold tagPartionCnt
  split
  · exact ⟨s.cur.itemArry, rfl⟩
  · split
    · split
      · exact ⟨_, rfl⟩
      · exact ⟨s.cur.itemArry, rfl⟩
    · exact ⟨s.cur.itemArry, rfl⟩

theorem tagPartition_fields {t : Tag} {s s' : XmlState} (handled : tagPartition t s = some s') :
    ∃ items, s'.cur = s.cur.withItems items := by
  unfold tagPartition at handled
  split at handled
  · obtain rfl := Option.some.inj handled
    exact ⟨s.cur.itemArry, rfl⟩
  · split at handled
    · obtain ⟨items, _, rfl⟩ := Option.map_eq_some_iff.mp handled
      exact ⟨_, rfl⟩
    · obtain rfl := Option.some.inj handled
      exact ⟨s.cur.itemArry, rfl⟩

theorem modemXmlStartTag_fields {s s' : XmlState} {t : Tag} (allowed : t.refused = false)
    (handled : modemXmlStartTag s t = some s') :
    ∃ items, s'.cur = (nextFields s.cur t).withItems items := by
  unfold modemXmlStartTag at handled
  dsimp only at handled
  rw [allowed] at handled
  obtain ⟨items, done⟩ := tagPartition_fields handled
  obtain ⟨items', counted⟩ := tagPartionCnt_fields t { s with cur := tagModemName t s.cur }
  refine ⟨items, ?_⟩
  rw [done, tagFields, counted, tagPaths_withItems]
  rfl

/-- The fields after a whole run in which no partion_cnt is refused. -/
theorem run_fields {s s' : XmlState} {tags : List Tag} (allowed : ∀ t ∈ tags, t.refused = false)
    (parsed : run modemXmlStartTag s tags = some s') :
    s'.cur = (tags.foldl nextFields s.cur).withItems s'.cur.itemArry := by
  induction tags generalizing s with
  | nil =>
      obtain rfl := Option.some.inj parsed
      rfl
  | cons t rest ih =>
      obtain ⟨s₁, handled, later⟩ := run_cons parsed
      obtain ⟨items, first⟩ := modemXmlStartTag_fields (allowed t List.mem_cons_self) handled
      have last := ih (fun t member => allowed t (List.mem_cons_of_mem _ member)) later
      rw [first, foldl_nextFields_withItems] at last
      rw [List.foldl_cons]
      exact last

/-- A field that only some tags change is a fold over these. -/
theorem field_after {β : Type} {field : ModemXmlInfo → β} {change : Tag → β → β}
    {relevant : Tag → Bool}
    (next : ∀ xml t, field (nextFields xml t) = if relevant t then change t (field xml) else field xml)
    (tags : List Tag) (xml : ModemXmlInfo) :
    field (tags.foldl nextFields xml) =
      (tags.filter relevant).foldl (fun value t => change t value) (field xml) := by
  induction tags generalizing xml with
  | nil => rfl
  | cons t rest ih =>
      rw [List.foldl_cons, ih, next]
      cases is : relevant t <;> simp [is]

/-- An item as `memset` leaves it. -/
def emptyItem : PartionItem := {}

/-- The item of a partition tag. -/
def Tag.item (t : Tag) : PartionItem := t.stores.apply emptyItem

/-- The items of these partitions are filled in, and the others are empty. -/
structure Filled (cnt : Nat) (done : List Tag) (s : XmlState) : Prop where
  itemCnt : s.itemCnt = done.length
  items : s.cur.itemArry = some (done.map Tag.item ++ List.replicate (cnt - done.length) emptyItem)

theorem Filled.same {cnt : Nat} {done : List Tag} {s s' : XmlState} (filled : Filled cnt done s)
    (items : s'.cur.itemArry = s.cur.itemArry) (itemCnt : s'.itemCnt = s.itemCnt) :
    Filled cnt done s' := by
  constructor
  · rw [itemCnt, filled.itemCnt]
  · rw [items, filled.items]

/-- Without a store an item stays as it is. -/
theorem apply_of_none {st : ItemStores} (without : st.none = true) (item : PartionItem) :
    st.apply item = item := by
  simp only [ItemStores.none, Bool.and_eq_true, Option.isNone_iff_eq_none] at without
  obtain ⟨⟨⟨⟨⟨addr, size⟩, name⟩, src⟩, dst⟩, flag⟩ := without
  simp only [ItemStores.apply, addr, size, name, src, dst, flag]
  rfl

theorem modify_behind (done rest : List PartionItem) (item : PartionItem)
    (f : PartionItem → PartionItem) :
    (done ++ item :: rest).modify done.length f = done ++ f item :: rest := by
  induction done with
  | nil => rfl
  | cons first done ih => simpa using ih

/-- The next partition goes to the first item that is still empty. -/
theorem storeItem_next (st : ItemStores) (done : List PartionItem) (left : Nat) :
    storeItem st done.length (done ++ List.replicate (left + 1) emptyItem) =
      some (done ++ st.apply emptyItem :: List.replicate left emptyItem) := by
  unfold storeItem
  rw [List.replicate_succ]
  split
  · rename_i without
    rw [apply_of_none without]
  · rw [if_pos (by simp), modify_behind]

theorem filled_partition {cnt : Nat} {done : List Tag} {s : XmlState} {t : Tag}
    (filled : Filled cnt done s) (partition : t.isPartition = true) (room : done.length < cnt) :
    ∃ s', modemXmlStartTag s t = some s' ∧ Filled cnt (done ++ [t]) s' := by
  obtain ⟨left, total⟩ := Nat.exists_eq_add_of_lt room
  have remaining : cnt - done.length = left + 1 := by omega
  have stored := storeItem_next t.stores (done.map Tag.item) left
  rw [List.length_map] at stored
  have items := filled.items
  rw [remaining] at items
  rw [modemXmlStartTag_partition partition, tagPartition, tagFields_itemArry, tagModemName_itemArry,
    items]
  dsimp only
  rw [if_pos partition, tagFields_itemCnt, filled.itemCnt, stored]
  refine ⟨_, rfl, ?_, ?_⟩
  · simp
  · have fewer : cnt - (done ++ [t]).length = left := by
      rw [List.length_append, List.length_singleton]
      omega
    rw [fewer, List.map_append, List.append_assoc]
    rfl

theorem filled_other {cnt : Nat} {done : List Tag} {s : XmlState} {t : Tag}
    (filled : Filled cnt done s) (other : t.isPartition = false) (uncounted : t.accepted = none) :
    ∃ s', modemXmlStartTag s t = some s' ∧ Filled cnt done s' := by
  rw [modemXmlStartTag_other other, tagPartionCnt, uncounted]
  refine ⟨_, rfl, ?_⟩
  apply filled.same
  · split <;> simp
  · split <;> rfl

/-- Behind the partion_cnt: as many partitions as there is room for, and anything else. -/
theorem run_filled {cnt : Nat} {done tags : List Tag} {s : XmlState} (filled : Filled cnt done s)
    (uncounted : ∀ t ∈ tags, t.accepted = none)
    (room : done.length + (tags.filter Tag.isPartition).length ≤ cnt) :
    ∃ s', run modemXmlStartTag s tags = some s' ∧
      Filled cnt (done ++ tags.filter Tag.isPartition) s' := by
  induction tags generalizing done s with
  | nil =>
      rw [List.filter_nil, List.append_nil]
      exact ⟨s, rfl, filled⟩
  | cons t rest ih =>
      have later : ∀ t' ∈ rest, t'.accepted = none :=
        fun t' member => uncounted t' (List.mem_cons_of_mem _ member)
      cases partition : t.isPartition with
      | true =>
          rw [List.filter_cons_of_pos partition] at room ⊢
          rw [List.length_cons] at room
          obtain ⟨s₁, handled, next⟩ := filled_partition filled partition (by omega)
          have fits : (done ++ [t]).length + (rest.filter Tag.isPartition).length ≤ cnt := by
            rw [List.length_append, List.length_singleton]
            omega
          obtain ⟨s', parsed, all⟩ := ih next later fits
          refine ⟨s', ?_, ?_⟩
          · rw [run, handled, Option.bind_some, parsed]
          · rwa [List.append_assoc] at all
      | false =>
          have not : ¬ t.isPartition = true := by simp [partition]
          rw [List.filter_cons_of_neg not] at room ⊢
          obtain ⟨s₁, handled, next⟩ := filled_other filled partition (uncounted t List.mem_cons_self)
          obtain ⟨s', parsed, all⟩ := ih next later room
          refine ⟨s', ?_, all⟩
          rw [run, handled, Option.bind_some, parsed]

/-- Before the partion_cnt there is no array. -/
theorem run_unallocated {tags : List Tag} {s : XmlState} (absent : s.cur.itemArry = none)
    (uncounted : ∀ t ∈ tags, t.accepted = none) :
    ∃ s', run modemXmlStartTag s tags = some s' ∧ s'.cur.itemArry = none := by
  induction tags generalizing s with
  | nil => exact ⟨s, rfl, absent⟩
  | cons t rest ih =>
      have later : ∀ t' ∈ rest, t'.accepted = none :=
        fun t' member => uncounted t' (List.mem_cons_of_mem _ member)
      have one : ∃ s₁, modemXmlStartTag s t = some s₁ ∧ s₁.cur.itemArry = none := by
        cases partition : t.isPartition with
        | true =>
            rw [modemXmlStartTag_partition partition, tagPartition, tagFields_itemArry,
              tagModemName_itemArry, absent]
            refine ⟨_, rfl, ?_⟩
            rw [tagFields_itemArry, tagModemName_itemArry, absent]
        | false =>
            rw [modemXmlStartTag_other partition, tagPartionCnt, uncounted t List.mem_cons_self]
            refine ⟨_, rfl, ?_⟩
            split <;> simp [absent]
      obtain ⟨s₁, handled, next⟩ := one
      obtain ⟨s', parsed, none⟩ := ih next later
      refine ⟨s', ?_, none⟩
      rw [run, handled, Option.bind_some, parsed]

theorem filled_counted {cnt : Nat} {s : XmlState} {t : Tag} (absent : s.cur.itemArry = none)
    (counted : t.accepted = some cnt) (memory : t.malloc = true) :
    ∃ s', modemXmlStartTag s t = some s' ∧ Filled cnt [] s' := by
  rw [modemXmlStartTag_other (not_partition_of_accepted counted), allowed_of_accepted counted,
    tagPartionCnt, counted]
  refine ⟨_, rfl, ?_, ?_⟩
  · simp [absent, memory]
  · simp [absent, memory, emptyItem]

/-- One partion_cnt, and behind it as many partitions as it says: the items are theirs. -/
theorem run_items {before after : List Tag} {t : Tag} {cnt : Nat} {s : XmlState}
    (absent : s.cur.itemArry = none) (counted : t.accepted = some cnt) (memory : t.malloc = true)
    (first : ∀ t' ∈ before, t'.accepted = none) (last : ∀ t' ∈ after, t'.accepted = none)
    (total : (after.filter Tag.isPartition).length = cnt) :
    ∃ s', run modemXmlStartTag s (before ++ t :: after) = some s' ∧
      s'.cur.itemArry = some ((after.filter Tag.isPartition).map Tag.item) := by
  obtain ⟨s₁, early, none⟩ := run_unallocated absent first
  obtain ⟨s₂, handled, start⟩ := filled_counted none counted memory
  have room : ([] : List Tag).length + (after.filter Tag.isPartition).length ≤ cnt := by
    rw [List.length_nil]
    omega
  obtain ⟨s', late, filled⟩ := run_filled start last room
  refine ⟨s', ?_, ?_⟩
  · rw [run_append, early, Option.bind_some, run, handled, Option.bind_some, late]
  · have items := filled.items
    rwa [List.nil_append, total, Nat.sub_self, List.replicate_zero, List.append_nil] at items

end ModemControl.XmlTags
