import Mathlib.Algebra.Group.Nat.Defs
import ModemControl.XmlRun

/-! # The numbers of a partition: xml_parse.c

`XML_STRTOUL` converts a text to an unsigned long, tests the result for errors, and stores
it into a field that may have fewer bits.
-/

namespace ModemControl.XmlNumbers

open Foundation XmlParse XmlTags

/-- A number goes to a field of so many bits. -/
def store {bits : Nat} (value : Option Nat) (field : BitVec bits) : BitVec bits :=
  (value.map (BitVec.ofNat bits)).getD field

/-- The number to be stored: what the whole text stands for, if it fits. -/
def toStore (bits : Nat) (text : Bytes) : Option Nat := (denotes text).filter (· < 2 ^ bits)

/-- The numbers of the tag are in the item, and its other fields of numbers are as before. -/
structure NumbersExact (t : Tag) (before after : PartionItem) : Prop where
  addr : after.addr = store (t.base.bind (toStore 64)) before.addr
  size : after.size = store (t.size.bind (toStore 32)) before.size
  flag : after.flag = store (t.flag.bind (toStore 32)) before.flag

/-- Whatever the item has had in its fields, the partition tag leaves the numbers there. -/
def StoresExactly (t : Tag) : Prop :=
  ∀ (s : XmlState) (items : List PartionItem) (item : PartionItem),
    s.cur.itemArry = some items → items[s.itemCnt]? = some item →
    ∃ s' items' item', modemXmlStartTag s t = some s' ∧ s'.cur.itemArry = some items' ∧
      items'[s.itemCnt]? = some item' ∧ NumbersExact t item item'

/-- There is a number at the front of the text that an unsigned long cannot hold. -/
def beyond (text : Bytes) : Bool := (leading text).any fun number => ULONG_MAX < number.2

/-- The number at the front is ULONG_MAX, or the -1 that becomes it. -/
def readsMax (text : Bytes) : Bool :=
  leading text == some (false, ULONG_MAX) || leading text == some (true, 1)

/-- With this `errno` before, the text is stored as it should be, or not as it should not. -/
def ReadRight (bits : Nat) (erange : Bool) (text : Bytes) : Prop :=
  match toStore bits text with
  | some n => ¬ (n = ULONG_MAX ∧ erange = true)
  | none => leading text = none ∨ beyond text = true ∨ readsMax text = true ∧ erange = true

instance (bits : Nat) (erange : Bool) (text : Bytes) : Decidable (ReadRight bits erange text) := by
  unfold ReadRight
  split <;> infer_instance

/-- `errno` is ERANGE behind the conversion. -/
def erangeBehind (attr : Option Bytes) (erange : Bool) : Bool := erange || attr.any beyond

/-- Each of the three attributes, where it is given, with the `errno` that it meets. -/
structure NumbersRight (t : Tag) (erange : Bool) : Prop where
  base : ∀ text, t.base = some text → ReadRight 64 erange text
  size : ∀ text, t.size = some text → ReadRight 32 (erangeBehind t.base erange) text
  flag : ∀ text, t.flag = some text →
    ReadRight 32 (erangeBehind t.size (erangeBehind t.base erange)) text

theorem xmlStrtoul_erange (attr : Option Bytes) (erange : Bool) :
    (xmlStrtoul attr erange).2 = erangeBehind attr erange := by
  cases attr with
  | none => simp [xmlStrtoul, erangeBehind]
  | some text =>
      have overflow : (strtoul text).overflow = beyond text := by
        rw [strtoul_leading, beyond]
        cases leading text with
        | none => rfl
        | some number =>
            by_cases big : ULONG_MAX < number.2 <;> simp [big]
      simp only [xmlStrtoul, erangeBehind, overflow, Option.any_some]
      split <;> rfl

/-- The value of a number that an unsigned long can hold. -/
def value (negative : Bool) (n : Nat) : Nat :=
  if negative then (ULONG_MAX + 1 - n) % (ULONG_MAX + 1) else n

theorem readsMax_iff {text : Bytes} {negative : Bool} {n : Nat}
    (front : leading text = some (negative, n)) (small : n ≤ ULONG_MAX) :
    readsMax text = true ↔ value negative n = ULONG_MAX := by
  unfold ULONG_MAX at small
  unfold readsMax value ULONG_MAX
  rw [front]
  cases negative with
  | true => simp; omega
  | false => simp

/-- What the macro takes a text for. -/
theorem xmlStrtoul_leading {text : Bytes} {negative : Bool} {n : Nat}
    (front : leading text = some (negative, n)) (erange : Bool) :
    (xmlStrtoul (some text) erange).1 =
      if beyond text = true ∨ readsMax text = true ∧ erange = true then none
      else some (value negative n) := by
  have above : beyond text = true ↔ ULONG_MAX < n := by simp [beyond, front]
  simp only [xmlStrtoul, strtoul_leading, front]
  by_cases big : ULONG_MAX < n
  · simp [big, above]
  · have max := readsMax_iff front (Nat.le_of_not_lt big)
    rw [value] at max
    simp [big, above, max, value, apply_ite Prod.fst]

theorem xmlStrtoul_none {text : Bytes} (noNumber : leading text = none) (erange : Bool) :
    (xmlStrtoul (some text) erange).1 = none := by
  simp [xmlStrtoul, strtoul_leading, noNumber]

theorem not_ne {bits : Nat} (some_ : 0 < bits) (field : BitVec bits) : ~~~field ≠ field := by
  intro same
  have bit := congrArg (fun x : BitVec bits => x.getLsbD 0) same
  simp [some_] at bit

/-- A field tells whether something is stored to it, and what. -/
theorem store_inj {bits : Nat} (some_ : 0 < bits) (v w : Option Nat) :
    (∀ field : BitVec bits, store v field = store w field) ↔
      v.map (BitVec.ofNat bits) = w.map (BitVec.ofNat bits) := by
  unfold store
  constructor
  · intro same
    cases stored : v.map (BitVec.ofNat bits) with
    | none =>
        cases other : w.map (BitVec.ofNat bits) with
        | none => rfl
        | some x =>
            have changed := same (~~~x)
            rw [stored, other] at changed
            exact absurd changed (not_ne some_ x)
    | some x =>
        cases other : w.map (BitVec.ofNat bits) with
        | none =>
            have changed := same (~~~x)
            rw [stored, other] at changed
            exact absurd changed.symm (not_ne some_ x)
        | some y =>
            have changed := same 0
            rw [stored, other] at changed
            exact congrArg some changed
  · intro same field
    rw [same]

/-- The number that is to be stored is the one at the front, and not negative. -/
theorem toStore_front {bits n : Nat} (few : bits ≤ 64) {text : Bytes}
    (fits : toStore bits text = some n) :
    ∃ negative, leading text = some (negative, n) ∧ value negative n = n ∧ n ≤ ULONG_MAX := by
  obtain ⟨whole, small⟩ := Option.filter_eq_some_iff.mp fits
  have power : 2 ^ bits ≤ 2 ^ 64 := Nat.pow_le_pow_right (by decide) few
  have below : n < 2 ^ bits := by simpa using small
  have bound : n ≤ ULONG_MAX := by
    unfold ULONG_MAX
    omega
  unfold denotes at whole
  split at whole
  · rename_i negative m front
    obtain ⟨plain, same⟩ := Option.ite_none_right_eq_some.mp whole
    obtain rfl := Option.some.inj same
    refine ⟨negative, front, ?_, bound⟩
    cases negative with
    | false => rfl
    | true =>
        have zero : m = 0 := by simpa using (Bool.and_eq_true_iff.mp plain).2
        subst zero
        rfl
  · cases whole

theorem read_iff {bits : Nat} (some_ : 0 < bits) (few : bits ≤ 64) (text : Bytes) (erange : Bool) :
    (∀ field : BitVec bits,
        store (xmlStrtoul (some text) erange).1 field = store (toStore bits text) field) ↔
      ReadRight bits erange text := by
  rw [store_inj some_]
  unfold ReadRight
  cases fits : toStore bits text with
  | some n =>
      obtain ⟨negative, front, same, bound⟩ := toStore_front few fits
      have max := readsMax_iff front bound
      have small : ¬ beyond text = true := by simpa [beyond, front] using bound
      rw [xmlStrtoul_leading front, same]
      rw [same] at max
      by_cases stale : n = ULONG_MAX ∧ erange = true
      · simp [max, stale]
      · simp [max, stale, small]
  | none =>
      cases front : leading text with
      | none => simp [xmlStrtoul_none front]
      | some number =>
          rw [xmlStrtoul_leading front]
          split <;> simp_all

/-- An attribute that is not given leaves the field. -/
theorem attr_iff {bits : Nat} (some_ : 0 < bits) (few : bits ≤ 64) (attr : Option Bytes)
    (erange : Bool) :
    (∀ field : BitVec bits,
        store (xmlStrtoul attr erange).1 field = store (attr.bind (toStore bits)) field) ↔
      ∀ text, attr = some text → ReadRight bits erange text := by
  cases attr with
  | none => simp [xmlStrtoul]
  | some text => simpa using read_iff some_ few text erange

theorem partition_stored {t : Tag} (partition : t.isPartition = true) {s : XmlState}
    {items : List PartionItem} {item : PartionItem} (array : s.cur.itemArry = some items)
    (here : items[s.itemCnt]? = some item) :
    ∃ s' items', modemXmlStartTag s t = some s' ∧ s'.cur.itemArry = some items' ∧
      items'[s.itemCnt]? = some (t.stores.apply item) := by
  rw [modemXmlStartTag_partition partition, tagPartition, tagFields_itemArry, tagModemName_itemArry,
    array]
  dsimp only
  rw [if_pos partition, tagFields_itemCnt, storeItem]
  dsimp only
  split
  · rename_i without
    rw [apply_of_none without]
    exact ⟨_, items, rfl, rfl, here⟩
  · have inside := (List.getElem?_eq_some_iff.mp here).1
    rw [if_pos inside]
    refine ⟨_, _, rfl, rfl, ?_⟩
    simp [here]

theorem storesExactly_iff {t : Tag} (partition : t.isPartition = true) :
    StoresExactly t ↔ ∀ item, NumbersExact t item (t.stores.apply item) := by
  constructor
  · intro exact item
    let s : XmlState := { cur := { itemArry := some [item] } }
    obtain ⟨s', items', item', handled, array, here, numbers⟩ := exact s [item] item rfl rfl
    obtain ⟨s₂, items₂, handled₂, array₂, here₂⟩ := @partition_stored t partition s [item] item rfl rfl
    obtain rfl := Option.some.inj (handled.symm.trans handled₂)
    obtain rfl := Option.some.inj (array.symm.trans array₂)
    obtain rfl := Option.some.inj (here.symm.trans here₂)
    exact numbers
  · intro exact s items item array here
    obtain ⟨s', items', handled, array', here'⟩ := partition_stored partition array here
    exact ⟨s', items', _, handled, array', here', exact item⟩

/-- The numbers of a partition are stored exactly, or their fields are left alone, just when
    each text is read right with the `errno` that it meets. -/
theorem storesExactly_iff_read (t : Tag) (partition : t.isPartition = true) :
    StoresExactly t ↔ NumbersRight t t.allRange.erange := by
  have base := @attr_iff 64 (by decide) (by decide) t.base t.allRange.erange
  have size := @attr_iff 32 (by decide) (by decide) t.size
    (erangeBehind t.base t.allRange.erange)
  have flag := @attr_iff 32 (by decide) (by decide) t.flag
    (erangeBehind t.size (erangeBehind t.base t.allRange.erange))
  rw [storesExactly_iff partition]
  simp only [← xmlStrtoul_erange] at size flag
  constructor
  · intro exact
    refine ⟨?_, ?_, ?_⟩
    · exact base.mp fun field => (exact { addr := field }).addr
    · rw [← xmlStrtoul_erange]
      exact size.mp fun field => (exact { size := field }).size
    · rw [← xmlStrtoul_erange, ← xmlStrtoul_erange]
      exact flag.mp fun field => (exact { flag := field }).flag
  · intro right item
    have size' := right.size
    have flag' := right.flag
    rw [← xmlStrtoul_erange] at size'
    rw [← xmlStrtoul_erange, ← xmlStrtoul_erange] at flag'
    exact ⟨base.mpr right.base item.addr, size.mpr size' item.size, flag.mpr flag' item.flag⟩

def plainPartition : Tag where
  name := PARTITION
  attrs := [(bytes "base", bytes "0x8B000000"), (bytes "size", bytes "0x800"), (bytes "flag", bytes "1")]

theorem plainPartition_exact : StoresExactly plainPartition := by
  apply (storesExactly_iff_read plainPartition (by decide)).mpr
  constructor
  · intro text given
    obtain rfl := Option.some.inj given
    decide
  · intro text given
    obtain rfl := Option.some.inj given
    decide
  · intro text given
    obtain rfl := Option.some.inj given
    decide

/-- A size that needs more than 32 bits. -/
def largePartition : Tag where
  name := PARTITION
  attrs := [(bytes "size", bytes "0x100000800")]

theorem largePartition_truncated : ¬ ∀ t : Tag, t.isPartition = true → StoresExactly t := by
  intro always
  have exact := (storesExactly_iff (by decide)).mp (always largePartition (by decide)) {}
  exact absurd exact.size (by decide)

end ModemControl.XmlNumbers
