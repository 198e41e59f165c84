import ModemControl.SecureVerify

/-! # The tags of a secure header: modem_verify.c

A header has room for three tags. How many are looked at, and where they point to, is told
by the image that is to be verified.
-/

namespace ModemControl.SecureVerify

open Foundation

/-- The entries of `header_info_t.tag`. -/
def TAG_NUM : Nat := 3

/-- The entries the loop reads, from entry `i` on with so many to go. -/
def tagsRead (header : Memory) (name : BitVec 32) : Nat → Nat → List Nat
  | 0, _ => []
  | left + 1, i => i :: if tagName header i = name then [] else tagsRead header name left (i + 1)

def getCodeAddrTags (header : Memory) : List Nat :=
  tagsRead header CODE_NAME (tagsNumber header).toNat 0

def getVlrAddrTags (header : Memory) : List Nat :=
  tagsRead header VLR_NAME (tagsNumber header).toNat 0

/-- Both lookups; an image without the magic is left alone. -/
def secureVerifyTags (data : Memory) : List Nat :=
  if secureHeaderParser data then getVlrAddrTags data ++ getCodeAddrTags data else []

/-- The check is given addresses that were found, in the first `n` bytes, and no NULL pointer
    is used. -/
def UsesInside (n : Nat) : SecureOp → Prop
  | .secureCheck codeAddr _ vlrAddr _ => vlrAddr < n ∧ ∃ addr, codeAddr = some addr ∧ addr < n
  | .fault => False
  | _ => True

structure Contained (k : Keys) (data : Memory) (n : Nat) : Prop where
  tags : ∀ i ∈ secureVerifyTags data, i < TAG_NUM
  calls : (secureVerify k data).Calls (UsesInside n)

/-- The first tag of this name is one of those the header has, and points into the first
    `n` bytes. -/
def TagInside (header : Memory) (name : BitVec 32) (n : Nat) : Prop :=
  ∃ i < TAG_NUM, i < (tagsNumber header).toNat ∧ tagName header i = name ∧
    (∀ j < i, tagName header j ≠ name) ∧ (tagOffset header i * MIN_UNIT).toNat < n

section

variable {header : Memory} {name : BitVec 32} {n : Nat}

/-- The loop stays inside the tags and finds an address exactly when one of those still to
    come has the name. -/
theorem lookup_inside_iff {left i : Nat} :
    ((∀ j ∈ tagsRead header name left i, j < TAG_NUM) ∧
        ∃ addr, findTag header name left i = some addr ∧ addr < n) ↔
      ∃ j < TAG_NUM, i ≤ j ∧ j < i + left ∧ tagName header j = name ∧
        (∀ q, i ≤ q → q < j → tagName header q ≠ name) ∧
        (tagOffset header j * MIN_UNIT).toNat < n := by
  induction left generalizing i with
  | zero =>
      apply iff_of_false
      · rintro ⟨_, addr, found, _⟩
        cases found
      · rintro ⟨j, _, behind, before, _⟩
        omega
  | succ left ih =>
      rw [tagsRead, findTag, List.forall_mem_cons]
      by_cases here : tagName header i = name
      · rw [if_pos here, if_pos here]
        constructor
        · rintro ⟨⟨inside, _⟩, addr, found, below⟩
          obtain rfl := Option.some.inj found
          exact ⟨i, inside, Nat.le_refl i, by omega, here, fun q _ _ => by omega, below⟩
        · rintro ⟨j, inside, behind, _, named, first, below⟩
          obtain rfl : j = i := by
            by_contra other
            exact first i (Nat.le_refl i) (by omega) here
          exact ⟨⟨inside, by simp⟩, _, rfl, below⟩
      · rw [if_neg here, if_neg here, and_assoc, ih]
        constructor
        · rintro ⟨_, j, inside, behind, before, named, first, below⟩
          refine ⟨j, inside, by omega, by omega, named, ?_, below⟩
          intro q from_ until_
          rcases Nat.eq_or_lt_of_le from_ with rfl | later
          · exact here
          · exact first q later until_
        · rintro ⟨j, inside, behind, before, named, first, below⟩
          have other : j ≠ i := by
            rintro rfl
            exact here named
          exact ⟨by omega, j, inside, by omega, by omega, named,
            fun q from_ until_ => first q (by omega) until_, below⟩

theorem tagInside_iff (header : Memory) (name : BitVec 32) (n : Nat) :
    ((∀ j ∈ tagsRead header name (tagsNumber header).toNat 0, j < TAG_NUM) ∧
        ∃ addr, findTag header name (tagsNumber header).toNat 0 = some addr ∧ addr < n) ↔
      TagInside header name n := by
  rw [lookup_inside_iff]
  simp only [Nat.zero_le, true_and, forall_const, Nat.zero_add, TagInside]

end

theorem calls_inside_iff {k : Keys} {data : Memory} {n : Nat}
    (magic : secureHeaderParser data = true) :
    (secureVerify k data).Calls (UsesInside n) ↔
      (∃ addr, getVlrAddr data = some addr ∧ addr < n) ∧
        ∃ addr, getCodeAddr data = some addr ∧ addr < n := by
  unfold secureVerify
  rw [if_pos magic]
  cases getVlrAddr data with
  | none => simp [fault, Prog.Calls, UsesInside]
  | some vlrAddr => simp [secureCheck, Prog.Calls, UsesInside]

/-- For every content of the memory, however much of it was read: an image with the magic
    is looked up inside its header and checked inside what was read exactly when both of
    its tags are there and point there. -/
theorem contained_iff (k : Keys) (data : Memory) (n : Nat) :
    Contained k data n ↔
      (secureHeaderParser data = true → TagInside data VLR_NAME n ∧ TagInside data CODE_NAME n) := by
  rw [← tagInside_iff, ← tagInside_iff]
  cases magic : secureHeaderParser data with
  | false =>
      refine iff_of_true ⟨?_, ?_⟩ (by simp)
      · simp [secureVerifyTags, magic]
      · simp [secureVerify, magic, Prog.Calls]
  | true =>
      have tags : (∀ i ∈ secureVerifyTags data, i < TAG_NUM) ↔
          (∀ i ∈ getVlrAddrTags data, i < TAG_NUM) ∧ ∀ i ∈ getCodeAddrTags data, i < TAG_NUM := by
        rw [secureVerifyTags, if_pos magic, List.forall_mem_append]
      have both : Contained k data n ↔
          (∀ i ∈ secureVerifyTags data, i < TAG_NUM) ∧
            (secureVerify k data).Calls (UsesInside n) :=
        ⟨fun contained => ⟨contained.tags, contained.calls⟩, fun h => ⟨h.1, h.2⟩⟩
      rw [both, tags, calls_inside_iff magic]
      simp only [true_imp_iff, getVlrAddrTags, getCodeAddrTags, getVlrAddr, getCodeAddr]
      tauto

/-- The magic, and nothing behind it. -/
def bareHeader : Bytes := HEADER_NAME ++ List.replicate 49 0

/-- A header without tags has no VLR, and its length is read through a NULL pointer. -/
theorem bareHeader_not_contained : ¬ ∀ (k : Keys) (size : Nat) (behind : Memory) (image : Bytes),
    image.length ≤ size → HEADER_NAME <+: image →
      Contained k (buffer size behind image) image.length := by
  intro always
  have contained := always ⟨512, fun _ _ => 0, []⟩ 64 (fun _ => 0) bareHeader (by decide)
    (List.prefix_append _ _)
  have calls := contained.calls
  rw [calls_inside_iff (by decide)] at calls
  obtain ⟨⟨addr, found, _⟩, _⟩ := calls
  have none : getVlrAddr (buffer 64 (fun _ => 0) bareHeader) = none := by decide
  rw [none] at found
  cases found

end ModemControl.SecureVerify
