import ModemControl.ModemHead

/-! # Which heads are parsed inside the bounds

Counts, offsets and sizes in the head come from the image. They are bounded by nothing
but what the image says, so the parser stays inside its buffer and its tables exactly on
the heads described here.
-/

namespace ModemControl.ModemHead

open Foundation

def oldCount (head : Head) : Nat := (u32 head.bytes 208).toNat
def descOffs (head : Head) (k : Nat) : BitVec 32 := u32 head.bytes (newDesc k + 20)
def descSize (head : Head) (k : Nat) : BitVec 32 := u32 head.bytes (newDesc k + 24)
def entrySize (head : Head) (offs : BitVec 32) (i : Nat) : BitVec 32 :=
  u32 head.bytes (newRegion offs i + 32)

/-- The descriptor has this name. -/
abbrev Named (head : Head) (k : Nat) (name : Bytes) : Prop :=
  isText head.bytes (newDesc k) name = true

/-- Behind a run of regions with names there is a NUL, and the code fits its table. -/
structure OldInBounds (head : Head) : Prop where
  names : ∀ j < MAX_REGION_NUM, (∀ i < j, text head.bytes (oldRegion i) ≠ []) →
    Terminated head.bytes (oldRegion j)
  code : oldCount head ≤ MAX_CODE_NUM

/-- The regions up to the end marker, or all there is room for, are in the buffer. -/
def EntriesInBounds (head : Head) (offs : BitVec 32) : Prop :=
  ∀ j < MAX_REGION_NUM, (∀ i < j, entrySize head offs i ≠ 0) →
    newRegion offs j + 36 ≤ MAX_HEADER_SIZE ∧
      (entrySize head offs j ≠ 0 → Terminated head.bytes (newRegion offs j))

/-- What a descriptor points to is in the buffer, and code fits its table. -/
structure DescInBounds (head : Head) (k : Nat) : Prop where
  regions : Named head k DECOUP_DESC → EntriesInBounds head (descOffs head k)
  code : ¬ Named head k DECOUP_DESC → Named head k BOOT_CODE →
    (descOffs head k).toNat + (descSize head k).toNat ≤ MAX_HEADER_SIZE ∧
      (descSize head k).toNat ≤ 4 * MAX_CODE_NUM

/-- Descriptors up to one of size zero, all in the buffer. -/
def DescsInBounds (head : Head) (k : Nat) : Prop :=
  ∃ n < MAX_DESC_NUM, k ≤ n ∧ descSize head n = 0 ∧
    ∀ j < n, k ≤ j → descSize head j ≠ 0 ∧ DescInBounds head j

structure InBounds (head : Head) : Prop where
  old : magic head = OLD_HEAD_MAGIC_INFO → OldInBounds head
  new : magic head = NEW_HEAD_MAGIC_INFO → DescsInBounds head 0

theorem setRegion_inside {i : Nat} (inside : i < MAX_REGION_NUM) (img : ModemImageInfo)
    (region : ImgRegionInfo) : img.setRegion i region =
      some { img with table := Function.update img.table ⟨i, inside⟩ region } :=
  dif_pos inside

section

variable {entry : Nat → Option (Option ImgRegionInfo)}

/-- The regions before this one are no end markers. -/
def Reached (entry : Nat → Option (Option ImgRegionInfo)) (j : Nat) : Prop :=
  ∀ i < j, ∃ region, entry i = some (some region)

theorem takeRegions_isSome {left i : Nat} (room : left + i = MAX_REGION_NUM)
    (reached : Reached entry i) (img : ModemImageInfo) :
    (takeRegions entry left i img).isSome ↔
      ∀ j < MAX_REGION_NUM, i ≤ j → Reached entry j → (entry j).isSome := by
  induction left generalizing i img with
  | zero =>
      refine iff_of_true rfl ?_
      intro j inside later
      omega
  | succ left ih =>
      have inside : i < MAX_REGION_NUM := by omega
      unfold takeRegions
      cases found : entry i with
      | none =>
          refine iff_of_false Bool.false_ne_true ?_
          intro all
          have some := all i inside (Nat.le_refl i) reached
          rw [found] at some
          cases some
      | some region =>
          cases region with
          | none =>
              refine iff_of_true rfl ?_
              intro j _ later reachedJ
              rcases Nat.eq_or_lt_of_le later with rfl | more
              · rw [found]
                rfl
              · obtain ⟨region, other⟩ := reachedJ i more
                rw [found] at other
                cases other
          | some region =>
              have next : Reached entry (i + 1) := by
                intro j before
                rcases Nat.lt_succ_iff_lt_or_eq.mp before with earlier | rfl
                · exact reached j earlier
                · exact ⟨region, found⟩
              simp only [setRegion_inside inside, Option.bind_eq_bind, Option.bind_some]
              rw [ih (by omega) next]
              constructor
              · intro all j inside later
                rcases Nat.eq_or_lt_of_le later with rfl | more
                · intro _
                  rw [found]
                  rfl
                · exact all j inside more
              · intro all j inside later
                exact all j inside (by omega)

/-- The loop stays inside when every entry it comes to does, and where it comes can be told
    from the entries themselves. -/
theorem reached_isSome_iff {goesOn fits : Nat → Prop}
    (isSome : ∀ i < MAX_REGION_NUM, (entry i).isSome ↔ fits i)
    (isRegion : ∀ i < MAX_REGION_NUM, fits i → ((∃ region, entry i = some (some region)) ↔ goesOn i)) :
    (∀ j < MAX_REGION_NUM, 0 ≤ j → Reached entry j → (entry j).isSome) ↔
      ∀ j < MAX_REGION_NUM, (∀ i < j, goesOn i) → fits j := by
  constructor
  · intro all j
    induction j using Nat.strong_induction_on with
    | _ j ih =>
        intro inside before
        refine (isSome j inside).mp (all j inside (Nat.zero_le j) ?_)
        intro i earlier
        have fit := ih i earlier (by omega) fun m more => before m (by omega)
        exact (isRegion i (by omega) fit).mpr (before i earlier)
  · intro all j inside _ reached
    refine (isSome j inside).mpr (all j inside ?_)
    intro i earlier
    have found := reached i earlier
    have fit : fits i := by
      obtain ⟨region, same⟩ := found
      rw [← isSome i (by omega), same]
      rfl
    exact (isRegion i (by omega) fit).mp found

end

/-- What the old format says of a region. -/
def oldInfo (head : Head) (i : Nat) : ImgRegionInfo where
  name := (text head.bytes (oldRegion i)).take (MAX_NAME_LEN - 1)
  base := u64 head.bytes (oldRegion i + 24)
  size := u32 head.bytes (oldRegion i + 32)

theorem oldEntry_terminated {head : Head} {i : Nat} (inside : i < MAX_REGION_NUM)
    (terminated : Terminated head.bytes (oldRegion i)) :
    oldEntry head i =
      some (if text head.bytes (oldRegion i) = [] then none else some (oldInfo head i)) := by
  have last : oldRegion i + 36 ≤ head.bytes.length := by
    rw [head.sized]
    simp only [oldRegion, MAX_HEADER_SIZE, MAX_REGION_NUM] at *
    omega
  unfold oldEntry
  rw [textAt_terminated terminated, u64At_inside (by omega), u32At_inside (by omega)]
  dsimp only [Option.bind_eq_bind, Option.bind_some]
  split <;> rfl

theorem oldEntry_unterminated {head : Head} {i : Nat}
    (unterminated : ¬ Terminated head.bytes (oldRegion i)) : oldEntry head i = none := by
  unfold oldEntry
  rw [textAt_unterminated unterminated]
  rfl

theorem oldRegions_isSome (head : Head) (img : ModemImageInfo) :
    (takeRegions (oldEntry head) MAX_REGION_NUM 0 img).isSome ↔
      ∀ j < MAX_REGION_NUM, (∀ i < j, text head.bytes (oldRegion i) ≠ []) →
        Terminated head.bytes (oldRegion j) := by
  rw [takeRegions_isSome (Nat.add_zero _) (fun i before => absurd before (Nat.not_lt_zero i)) img]
  apply reached_isSome_iff
  · intro i inside
    by_cases terminated : Terminated head.bytes (oldRegion i)
    · rw [oldEntry_terminated inside terminated]
      exact iff_of_true rfl terminated
    · rw [oldEntry_unterminated terminated]
      exact iff_of_false Bool.false_ne_true terminated
  · intro i inside terminated
    rw [oldEntry_terminated inside terminated]
    split
    · rename_i empty
      simp [empty]
    · rename_i named
      simp [named]

theorem setCode_isSome (img : ModemImageInfo) (data : Bytes) (count : BitVec 32) :
    (img.setCode data count).isSome ↔ data.length ≤ 4 * MAX_CODE_NUM := by
  unfold ModemImageInfo.setCode
  split
  · rename_i fits
    exact iff_of_true rfl fits
  · rename_i tooLong
    exact iff_of_false Bool.false_ne_true tooLong

theorem oldCount_read (head : Head) : u32At head.bytes 208 = some (u32 head.bytes 208) := by
  apply u32At_inside
  rw [head.sized]
  decide

/-- The code of an old head that has at most as much as the table is in the buffer. -/
theorem oldCode_read {head : Head} (fits : oldCount head ≤ MAX_CODE_NUM) :
    slice head.bytes 212 (oldCount head * 4) =
      some ((head.bytes.drop 212).take (oldCount head * 4)) := by
  apply slice_inside
  rw [head.sized]
  simp only [MAX_HEADER_SIZE, MAX_CODE_NUM] at *
  omega

theorem modemHeadOldConstruct_isSome (head : Head) (img : ModemImageInfo) :
    (modemHeadOldConstruct head img).isSome ↔ OldInBounds head := by
  have regions := oldRegions_isSome head img
  unfold modemHeadOldConstruct
  cases taken : takeRegions (oldEntry head) MAX_REGION_NUM 0 img with
  | none =>
      rw [taken] at regions
      refine iff_of_false Bool.false_ne_true ?_
      intro inBounds
      exact Bool.false_ne_true (regions.mpr inBounds.names)
  | some img' =>
      rw [taken] at regions
      have names := regions.mp rfl
      simp only [Option.bind_eq_bind, Option.bind_some, oldCount_read]
      by_cases fits : oldCount head ≤ MAX_CODE_NUM
      · have copied := oldCode_read fits
        unfold oldCount at copied
        rw [copied, Option.bind_some, setCode_isSome]
        refine iff_of_true ?_ ⟨names, fits⟩
        have long := slice_length copied
        unfold oldCount at fits
        omega
      · refine iff_of_false ?_ fun inBounds => fits inBounds.code
        cases copied : slice head.bytes 212 ((u32 head.bytes 208).toNat * 4) with
        | none => exact Bool.false_ne_true
        | some code =>
            have long := slice_length copied
            rw [Option.bind_some, setCode_isSome]
            unfold oldCount at fits
            omega

/-- What the new format says of a region. -/
def newInfo (head : Head) (offs : BitVec 32) (i : Nat) : ImgRegionInfo where
  name := (text head.bytes (newRegion offs i)).take (MAX_NAME_LEN - 1)
  base := u64 head.bytes (newRegion offs i + 24)
  size := entrySize head offs i

theorem entrySize_read {head : Head} {offs : BitVec 32} {i : Nat}
    (inside : newRegion offs i + 36 ≤ MAX_HEADER_SIZE) :
    u32At head.bytes (newRegion offs i + 32) = some (entrySize head offs i) :=
  u32At_inside (by rw [head.sized]; omega)

theorem newEntry_end {head : Head} {offs : BitVec 32} {i : Nat}
    (inside : newRegion offs i + 36 ≤ MAX_HEADER_SIZE) (ends : entrySize head offs i = 0) :
    newEntry head offs i = some none := by
  unfold newEntry
  rw [entrySize_read inside]
  exact if_pos ends

theorem newEntry_terminated {head : Head} {offs : BitVec 32} {i : Nat}
    (inside : newRegion offs i + 36 ≤ MAX_HEADER_SIZE) (goesOn : entrySize head offs i ≠ 0)
    (terminated : Terminated head.bytes (newRegion offs i)) :
    newEntry head offs i = some (some (newInfo head offs i)) := by
  have last := head.sized
  unfold newEntry
  rw [entrySize_read inside]
  dsimp only [Option.bind_eq_bind, Option.bind_some]
  rw [if_neg goesOn, textAt_terminated terminated, u64At_inside (by omega)]
  rfl

theorem newEntry_isSome (head : Head) (offs : BitVec 32) (i : Nat) :
    (newEntry head offs i).isSome ↔ newRegion offs i + 36 ≤ MAX_HEADER_SIZE ∧
      (entrySize head offs i ≠ 0 → Terminated head.bytes (newRegion offs i)) := by
  have last := head.sized
  by_cases inside : newRegion offs i + 36 ≤ MAX_HEADER_SIZE
  · by_cases ends : entrySize head offs i = 0
    · rw [newEntry_end inside ends]
      exact iff_of_true rfl ⟨inside, fun goesOn => absurd ends goesOn⟩
    · by_cases terminated : Terminated head.bytes (newRegion offs i)
      · rw [newEntry_terminated inside ends terminated]
        exact iff_of_true rfl ⟨inside, fun _ => terminated⟩
      · refine iff_of_false ?_ fun both => terminated (both.2 ends)
        unfold newEntry
        rw [entrySize_read inside]
        dsimp only [Option.bind_eq_bind, Option.bind_some]
        rw [if_neg ends, textAt_unterminated terminated]
        exact Bool.false_ne_true
  · refine iff_of_false ?_ fun both => inside both.1
    unfold newEntry
    rw [u32At_outside (by omega)]
    exact Bool.false_ne_true

theorem newRegions_isSome (head : Head) (offs : BitVec 32) (img : ModemImageInfo) :
    (takeRegions (newEntry head offs) MAX_REGION_NUM 0 img).isSome ↔ EntriesInBounds head offs := by
  rw [takeRegions_isSome (Nat.add_zero _) (fun i before => absurd before (Nat.not_lt_zero i)) img]
  apply reached_isSome_iff
  · intro i _
    exact newEntry_isSome head offs i
  · rintro i _ ⟨inside, terminated⟩
    by_cases ends : entrySize head offs i = 0
    · rw [newEntry_end inside ends]
      simp [ends]
    · rw [newEntry_terminated inside ends (terminated ends)]
      exact iff_of_true ⟨_, rfl⟩ ends

theorem desc_inside {head : Head} {k : Nat} (inside : k < MAX_DESC_NUM) :
    newDesc k + 28 ≤ head.bytes.length := by
  rw [head.sized]
  simp only [newDesc, MAX_DESC_NUM, MAX_HEADER_SIZE] at *
  omega

theorem descSize_read {head : Head} {k : Nat} (inside : k < MAX_DESC_NUM) :
    u32At head.bytes (newDesc k + 24) = some (descSize head k) := by
  have room : newDesc k + 28 ≤ head.bytes.length := desc_inside inside
  exact u32At_inside (by omega)

/-- The descriptor after the last one that fits has its size outside of the buffer. -/
theorem descSize_outside (head : Head) : u32At head.bytes (newDesc MAX_DESC_NUM + 24) = none := by
  apply u32At_outside
  rw [head.sized]
  decide

theorem named_read {head : Head} {k : Nat} (inside : k < MAX_DESC_NUM) {name : Bytes}
    (short : name.length < 28) :
    strcmpAt head.bytes (newDesc k) name = some (isText head.bytes (newDesc k) name) := by
  have room : newDesc k + 28 ≤ head.bytes.length := desc_inside inside
  exact strcmpAt_inside (by omega)

theorem takeDesc_eq {head : Head} {k : Nat} (inside : k < MAX_DESC_NUM) (size : BitVec 32)
    (img : ModemImageInfo) :
    takeDesc head k size img =
      if Named head k DECOUP_DESC then
        takeRegions (newEntry head (descOffs head k)) MAX_REGION_NUM 0 img
      else if Named head k BOOT_CODE then
        (slice head.bytes (descOffs head k).toNat size.toNat).bind fun code => img.setCode code size
      else some img := by
  have room : newDesc k + 28 ≤ head.bytes.length := desc_inside inside
  have offs : u32At head.bytes (newDesc k + 20) = some (descOffs head k) :=
    u32At_inside (by omega)
  unfold takeDesc
  rw [offs, named_read inside (by decide), named_read inside (by decide)]
  rfl

theorem takeDesc_isSome {head : Head} {k : Nat} (inside : k < MAX_DESC_NUM) (img : ModemImageInfo) :
    (takeDesc head k (descSize head k) img).isSome ↔ DescInBounds head k := by
  rw [takeDesc_eq inside]
  by_cases decoup : Named head k DECOUP_DESC
  · rw [if_pos decoup, newRegions_isSome]
    constructor
    · intro entries
      exact ⟨fun _ => entries, fun other => absurd decoup other⟩
    · intro inBounds
      exact inBounds.regions decoup
  · rw [if_neg decoup]
    by_cases code : Named head k BOOT_CODE
    · rw [if_pos code]
      have last := head.sized
      constructor
      · intro copied
        refine ⟨fun same => absurd same decoup, fun _ _ => ?_⟩
        unfold slice at copied
        split at copied
        · rename_i fits
          rw [Option.bind_some, setCode_isSome] at copied
          simp only [List.length_take, List.length_drop] at copied
          omega
        · cases copied
      · intro inBounds
        obtain ⟨fits, few⟩ := inBounds.code decoup code
        rw [slice_inside (by omega), Option.bind_some, setCode_isSome]
        simp only [List.length_take, List.length_drop]
        omega
    · rw [if_neg code]
      exact iff_of_true rfl ⟨fun same => absurd same decoup, fun _ same => absurd same code⟩

/-- The descriptors are in bounds when the first one ends them, or is in bounds itself and
    so are the next ones. -/
theorem descsInBounds_iff {head : Head} {k : Nat} (inside : k < MAX_DESC_NUM) :
    DescsInBounds head k ↔
      descSize head k = 0 ∨
        descSize head k ≠ 0 ∧ DescInBounds head k ∧ DescsInBounds head (k + 1) := by
  constructor
  · rintro ⟨n, bound, later, ends, before⟩
    rcases Nat.eq_or_lt_of_le later with rfl | more
    · exact Or.inl ends
    · obtain ⟨goesOn, inBounds⟩ := before k more (Nat.le_refl k)
      refine Or.inr ⟨goesOn, inBounds, n, bound, more, ends, ?_⟩
      intro j earlier from_
      exact before j earlier (by omega)
  · rintro (ends | ⟨goesOn, inBounds, n, bound, more, ends, before⟩)
    · exact ⟨k, inside, Nat.le_refl k, ends, fun j earlier later => by omega⟩
    · refine ⟨n, bound, by omega, ends, ?_⟩
      intro j earlier later
      rcases Nat.eq_or_lt_of_le later with rfl | next
      · exact ⟨goesOn, inBounds⟩
      · exact before j earlier next

theorem takeDescs_isSome {head : Head} {left k : Nat} (room : left + k = MAX_DESC_NUM + 1)
    (img : ModemImageInfo) : (takeDescs head left k img).isSome ↔ DescsInBounds head k := by
  induction left generalizing k img with
  | zero =>
      refine iff_of_false Bool.false_ne_true ?_
      rintro ⟨n, bound, later, _⟩
      omega
  | succ left ih =>
      unfold takeDescs
      by_cases inside : k < MAX_DESC_NUM
      · rw [descsInBounds_iff inside, descSize_read inside]
        dsimp only [Option.bind_eq_bind, Option.bind_some]
        by_cases ends : descSize head k = 0
        · rw [if_pos ends]
          exact iff_of_true rfl (Or.inl ends)
        · have one : (takeDesc head k (descSize head k) img).isSome ↔ DescInBounds head k :=
            takeDesc_isSome inside img
          rw [if_neg ends]
          cases taken : takeDesc head k (descSize head k) img with
          | none =>
              rw [taken] at one
              refine iff_of_false Bool.false_ne_true ?_
              rintro (here | ⟨_, inBounds, _⟩)
              · exact ends here
              · exact Bool.false_ne_true (one.mpr inBounds)
          | some img' =>
              rw [taken] at one
              rw [Option.bind_some, ih (by omega)]
              constructor
              · intro rest
                exact Or.inr ⟨ends, one.mp rfl, rest⟩
              · rintro (here | ⟨_, _, rest⟩)
                · exact absurd here ends
                · exact rest
      · obtain rfl : k = MAX_DESC_NUM := by omega
        rw [descSize_outside]
        refine iff_of_false Bool.false_ne_true ?_
        rintro ⟨n, bound, later, _⟩
        omega

theorem constructs_old {head : Head} (old : magic head = OLD_HEAD_MAGIC_INFO) (img : ModemImageInfo) :
    (modemHeadConstructImg head img).isSome ↔ OldInBounds head := by
  rw [modemHeadConstructImg, if_pos old, modemHeadOldConstruct_isSome]

theorem constructs_new {head : Head} (new : magic head = NEW_HEAD_MAGIC_INFO) (img : ModemImageInfo) :
    (modemHeadConstructImg head img).isSome ↔ DescsInBounds head 0 := by
  have notOld : magic head ≠ OLD_HEAD_MAGIC_INFO := by
    rw [new]
    decide
  rw [modemHeadConstructImg, if_neg notOld, if_pos new, modemHeadNewConstruct,
    takeDescs_isSome (Nat.add_zero _)]

theorem InBounds.constructs {head : Head} (inBounds : InBounds head) (img : ModemImageInfo) :
    (modemHeadConstructImg head img).isSome := by
  by_cases old : magic head = OLD_HEAD_MAGIC_INFO
  · exact (constructs_old old img).mpr (inBounds.old old)
  by_cases new : magic head = NEW_HEAD_MAGIC_INFO
  · exact (constructs_new new img).mpr (inBounds.new new)
  · rw [modemHeadConstructImg, if_neg old, if_neg new]
    rfl

/-- Parsing stays inside the buffer and the tables, and ends, exactly on the heads in
    bounds. -/
theorem modemHeadConstructImg_isSome (head : Head) (img : ModemImageInfo) :
    (modemHeadConstructImg head img).isSome ↔ InBounds head := by
  constructor
  · intro parsed
    constructor
    · intro old
      exact (constructs_old old img).mp parsed
    · intro new
      exact (constructs_new new img).mp parsed
  · intro inBounds
    exact inBounds.constructs img

/-- An old head without regions, and with so many instructions. -/
def oldHead (count : UInt8) : Head where
  bytes := [0x4D, 0x45, 0x43, 0x50] ++ (List.replicate 204 0 ++ count :: List.replicate 1327 0)
  sized := by
    simp only [List.length_append, List.length_cons, List.length_nil, List.length_replicate]
    rfl

/-- One instruction more than there is room for. -/
theorem modemHeadConstructImg_code_51 :
    ¬ ∀ (head : Head) (img : ModemImageInfo), (modemHeadConstructImg head img).isSome := by
  intro always
  have parsed : (modemHeadOldConstruct (oldHead 51) {}).isSome := always (oldHead 51) {}
  have few := ((modemHeadOldConstruct_isSome (oldHead 51) {}).mp parsed).code
  exact absurd few (by decide)

end ModemControl.ModemHead
