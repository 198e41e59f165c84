import ModemControl.HeadBounds

/-! # The two formats of the head

A list of regions can be carried by a head of either format. Both constructors then fill
`modem_img` with it, if the boot code that comes along fits.
-/

namespace ModemControl.ModemHead

open Foundation Load

structure ImgRegionInfo.Valid (region : ImgRegionInfo) : Prop where
  named : region.name ≠ []
  short : region.name.length ≤ MAX_NAME_LEN - 1
  clean : 0 ∉ region.name
  sized : region.size ≠ 0

/-- The fields of a region, at the same offsets in both formats. -/
structure RegionAt (head : Head) (address : Nat) (region : ImgRegionInfo) : Prop where
  name : isText head.bytes address region.name = true
  base : u64 head.bytes (address + 24) = region.base
  size : u32 head.bytes (address + 32) = region.size

structure OldCarries (head : Head) (regions : List ImgRegionInfo) : Prop where
  magic : magic head = OLD_HEAD_MAGIC_INFO
  region : ∀ i (inside : i < regions.length), RegionAt head (oldRegion i) regions[i]
  ends : regions.length < MAX_REGION_NUM →
    isText head.bytes (oldRegion regions.length) [] = true

/-- The payload of a decoup-desc descriptor: the regions, and an end marker if there is
    room for one. -/
structure Payload (head : Head) (offs : BitVec 32) (regions : List ImgRegionInfo) : Prop where
  inside : ∀ i < regions.length, newRegion offs i + 40 ≤ MAX_HEADER_SIZE
  region : ∀ i (inside : i < regions.length), RegionAt head (newRegion offs i) regions[i]
  ends : regions.length < MAX_REGION_NUM →
    newRegion offs regions.length + 36 ≤ MAX_HEADER_SIZE ∧ entrySize head offs regions.length = 0

/-- A descriptor with another name, whose payload is in the buffer. -/
structure OtherDesc (head : Head) (k : Nat) : Prop where
  other : ¬ Named head k DECOUP_DESC
  inside : (descOffs head k).toNat + (descSize head k).toNat ≤ MAX_HEADER_SIZE

/-- There are `n` descriptors, and descriptor `d` of them is the decoup-desc. -/
structure Descs (head : Head) (regions : List ImgRegionInfo) (n d : Nat) : Prop where
  bound : n < MAX_DESC_NUM
  ends : descSize head n = 0
  goesOn : ∀ k < n, descSize head k ≠ 0
  inside : d < n
  named : Named head d DECOUP_DESC
  payload : Payload head (descOffs head d) regions
  other : ∀ k < n, k ≠ d → OtherDesc head k

structure NewCarries (head : Head) (regions : List ImgRegionInfo) : Prop where
  magic : magic head = NEW_HEAD_MAGIC_INFO
  descs : ∃ n d, Descs head regions n d

/-- The boot code of every descriptor fits its table. -/
def BootCodeFits (head : Head) : Prop :=
  ∀ k < MAX_DESC_NUM, (∀ j ≤ k, descSize head j ≠ 0) → ¬ Named head k DECOUP_DESC →
    Named head k BOOT_CODE → (descSize head k).toNat ≤ 4 * MAX_CODE_NUM

/-- Both heads are parsed, to the same regions and so to the same corrections. -/
def Agree (old new : Head) (img : ModemImageInfo) : Prop :=
  ∃ a b, modemHeadConstructImg old img = some a ∧ modemHeadConstructImg new img = some b ∧
    a.regionNum = b.regionNum ∧ a.table = b.table ∧
    ∀ load, modemHeadConvertImg a load = modemHeadConvertImg b load

/-- Whatever the entries are, the loop writes to the table and counts what it took. -/
theorem takeRegions_only {entry : Nat → Option (Option ImgRegionInfo)} {left i : Nat}
    {img img' : ModemImageInfo} (taken : takeRegions entry left i img = some img') :
    ∃ table, ∃ num ≤ left + i, img' = { img with table := table, regionNum := num } := by
  induction left generalizing i img with
  | zero =>
      obtain rfl := Option.some.inj taken
      exact ⟨img.table, i, by omega, rfl⟩
  | succ left ih =>
      rw [takeRegions] at taken
      obtain ⟨found, _, taken⟩ := Option.bind_eq_some_iff.mp taken
      cases found with
      | none =>
          obtain rfl := Option.some.inj taken
          exact ⟨img.table, i, by omega, rfl⟩
      | some region =>
          obtain ⟨img₁, set, taken⟩ := Option.bind_eq_some_iff.mp taken
          obtain ⟨table, num, fewer, rfl⟩ := ih taken
          unfold ModemImageInfo.setRegion at set
          split at set
          · obtain rfl := Option.some.inj set
            exact ⟨table, num, by omega, rfl⟩
          · cases set

/-- A table whose first entries are these. -/
def overlay (regions : List ImgRegionInfo) (table : Fin MAX_REGION_NUM → ImgRegionInfo) :
    Fin MAX_REGION_NUM → ImgRegionInfo :=
  fun i => (regions[i.val]?).getD (table i)

theorem overlay_set {regions : List ImgRegionInfo} {i : Nat} (inside : i < MAX_REGION_NUM)
    (more : i < regions.length) (table : Fin MAX_REGION_NUM → ImgRegionInfo) :
    Function.update (overlay (regions.take i) table) ⟨i, inside⟩ regions[i] =
      overlay (regions.take (i + 1)) table := by
  funext j
  unfold overlay
  by_cases same : j = ⟨i, inside⟩
  · subst same
    simp [List.getElem?_take, more]
  · have other : j.val ≠ i := fun equal => same (Fin.ext equal)
    rw [Function.update_of_ne same, List.getElem?_take, List.getElem?_take]
    grind

theorem takeRegions_regions {entry : Nat → Option (Option ImgRegionInfo)}
    {regions : List ImgRegionInfo} (few : regions.length ≤ MAX_REGION_NUM)
    (entries : ∀ i < MAX_REGION_NUM, i ≤ regions.length → entry i = some regions[i]?)
    {left i : Nat} (room : left + i = MAX_REGION_NUM) (done : i ≤ regions.length)
    (img : ModemImageInfo) :
    takeRegions entry left i { img with table := overlay (regions.take i) img.table } =
      some { img with regionNum := regions.length, table := overlay regions img.table } := by
  induction left generalizing i with
  | zero =>
      obtain rfl : i = regions.length := by omega
      rw [takeRegions, List.take_length]
  | succ left ih =>
      have inside : i < MAX_REGION_NUM := by omega
      rw [takeRegions, entries i inside done]
      by_cases more : i < regions.length
      · rw [List.getElem?_eq_getElem more]
        dsimp only [Option.bind_eq_bind, Option.bind_some]
        rw [setRegion_inside inside]
        dsimp only [Option.bind_some]
        rw [overlay_set inside more]
        exact ih (by omega) more
      · obtain rfl : i = regions.length := by omega
        rw [List.getElem?_eq_none (Nat.le_refl _), List.take_length]
        rfl

/-- The whole loop, from the first region on. -/
theorem takeRegions_all {entry : Nat → Option (Option ImgRegionInfo)}
    {regions : List ImgRegionInfo} (few : regions.length ≤ MAX_REGION_NUM)
    (entries : ∀ i < MAX_REGION_NUM, i ≤ regions.length → entry i = some regions[i]?)
    (img : ModemImageInfo) :
    takeRegions entry MAX_REGION_NUM 0 img =
      some { img with regionNum := regions.length, table := overlay regions img.table } :=
  takeRegions_regions few entries (Nat.add_zero _) (Nat.zero_le _) img

section

variable {head : Head} {regions : List ImgRegionInfo} (valid : ∀ region ∈ regions, region.Valid)
include valid

theorem oldEntry_carried (carries : OldCarries head regions) {i : Nat} (inside : i < MAX_REGION_NUM)
    (done : i ≤ regions.length) : oldEntry head i = some regions[i]? := by
  by_cases more : i < regions.length
  · have region := carries.region i more
    have ok := valid _ (List.getElem_mem more)
    obtain ⟨named, terminated⟩ := text_of_isText ok.clean region.name
    rw [oldEntry_terminated inside terminated, named, if_neg ok.named,
      List.getElem?_eq_getElem more, oldInfo, named, region.base, region.size,
      List.take_of_length_le ok.short]
  · obtain rfl : i = regions.length := by omega
    obtain ⟨empty, terminated⟩ := text_of_isText List.not_mem_nil (carries.ends inside)
    rw [oldEntry_terminated inside terminated, if_pos empty, List.getElem?_eq_none (Nat.le_refl _)]

theorem newEntry_carried {offs : BitVec 32} (payload : Payload head offs regions) {i : Nat}
    (inside : i < MAX_REGION_NUM) (done : i ≤ regions.length) :
    newEntry head offs i = some regions[i]? := by
  by_cases more : i < regions.length
  · have region := payload.region i more
    have ok := valid _ (List.getElem_mem more)
    have room := payload.inside i more
    obtain ⟨named, terminated⟩ := text_of_isText ok.clean region.name
    have goesOn : entrySize head offs i ≠ 0 := fun zero => ok.sized (region.size.symm.trans zero)
    rw [newEntry_terminated (by omega) goesOn terminated, List.getElem?_eq_getElem more, newInfo,
      entrySize, named, region.base, region.size, List.take_of_length_le ok.short]
  · obtain rfl : i = regions.length := by omega
    obtain ⟨room, zero⟩ := payload.ends inside
    rw [newEntry_end room zero, List.getElem?_eq_none (Nat.le_refl _)]

end

/-- The regions of `img` are exactly these, over a table that was there before. -/
structure Holds (regions : List ImgRegionInfo) (before img : ModemImageInfo) : Prop where
  regionNum : img.regionNum = regions.length
  table : img.table = overlay regions before.table

theorem setCode_regions {img img' : ModemImageInfo} {data : Bytes} {count : BitVec 32}
    (copied : img.setCode data count = some img') :
    img'.regionNum = img.regionNum ∧ img'.table = img.table := by
  unfold ModemImageInfo.setCode at copied
  split at copied
  · obtain rfl := Option.some.inj copied
    exact ⟨rfl, rfl⟩
  · cases copied

/-- A descriptor that comes before or after the decoup-desc leaves the regions alone. -/
theorem takeDesc_other {head : Head} {k : Nat} (inside : k < MAX_DESC_NUM) (other : ¬ Named head k DECOUP_DESC)
    {size : BitVec 32} {img img' : ModemImageInfo} (taken : takeDesc head k size img = some img') :
    img'.regionNum = img.regionNum ∧ img'.table = img.table := by
  rw [takeDesc_eq inside, if_neg other] at taken
  split at taken
  · obtain ⟨code, _, copied⟩ := Option.bind_eq_some_iff.mp taken
    exact setCode_regions copied
  · obtain rfl := Option.some.inj taken
    exact ⟨rfl, rfl⟩

section

variable {head : Head} {regions : List ImgRegionInfo} (valid : ∀ region ∈ regions, region.Valid)
  (few : regions.length ≤ MAX_REGION_NUM)
include valid few

theorem oldConstruct_holds (carries : OldCarries head regions) {img img' : ModemImageInfo}
    (constructed : modemHeadOldConstruct head img = some img') : Holds regions img img' := by
  unfold modemHeadOldConstruct at constructed
  rw [takeRegions_all few fun i => oldEntry_carried valid carries] at constructed
  dsimp only [Option.bind_eq_bind, Option.bind_some] at constructed
  obtain ⟨count, _, copied⟩ := Option.bind_eq_some_iff.mp constructed
  obtain ⟨code, _, copied⟩ := Option.bind_eq_some_iff.mp copied
  obtain ⟨regionNum, table⟩ := setCode_regions copied
  exact ⟨regionNum, table⟩

/-- An old head that carries regions is in bounds when its code is. -/
theorem oldInBounds_iff (carries : OldCarries head regions) :
    OldInBounds head ↔ oldCount head ≤ MAX_CODE_NUM := by
  constructor
  · intro inBounds
    exact inBounds.code
  · intro fits
    refine ⟨(oldRegions_isSome head {}).mp ?_, fits⟩
    rw [takeRegions_all few fun i => oldEntry_carried valid carries]
    rfl

/-- The scan from descriptor `k` on sets the regions if the decoup-desc is still to come,
    and leaves them as they are if it is not. -/
theorem takeDescs_holds {n d : Nat} (descs : Descs head regions n d) {left k : Nat} (done : k ≤ n)
    {img img' : ModemImageInfo} (taken : takeDescs head left k img = some img') :
    (k ≤ d → Holds regions img img') ∧
      (d < k → img'.regionNum = img.regionNum ∧ img'.table = img.table) := by
  induction left generalizing k img with
  | zero => cases taken
  | succ left ih =>
      have bound := descs.bound
      have inside : k < MAX_DESC_NUM := by omega
      rw [takeDescs, descSize_read inside] at taken
      dsimp only [Option.bind_eq_bind, Option.bind_some] at taken
      rcases Nat.eq_or_lt_of_le done with rfl | before
      · rw [if_pos descs.ends] at taken
        obtain rfl := Option.some.inj taken
        exact ⟨fun later => absurd descs.inside (Nat.not_lt_of_le later), fun _ => ⟨rfl, rfl⟩⟩
      · rw [if_neg (descs.goesOn k before)] at taken
        obtain ⟨img₁, one, rest⟩ := Option.bind_eq_some_iff.mp taken
        obtain ⟨later, passed⟩ := ih before rest
        by_cases same : k = d
        · subst same
          obtain ⟨regionNum, table⟩ := passed (Nat.lt_succ_self k)
          rw [takeDesc_eq inside, if_pos descs.named,
            takeRegions_all few fun i => newEntry_carried valid descs.payload] at one
          obtain rfl := Option.some.inj one
          exact ⟨fun _ => ⟨regionNum, table⟩, fun past => absurd past (Nat.lt_irrefl k)⟩
        · obtain ⟨regionNum, table⟩ := takeDesc_other inside (descs.other k before same).other one
          constructor
          · intro ahead
            have holds := later (by omega)
            exact ⟨holds.regionNum, table ▸ holds.table⟩
          · intro past
            have kept := passed (by omega)
            exact ⟨kept.1.trans regionNum, kept.2.trans table⟩

theorem newConstruct_holds (carries : NewCarries head regions) {img img' : ModemImageInfo}
    (constructed : modemHeadNewConstruct head img = some img') : Holds regions img img' := by
  obtain ⟨n, d, descs⟩ := carries.descs
  exact (takeDescs_holds valid few descs (Nat.zero_le n) constructed).1 (Nat.zero_le d)

/-- A new head that carries regions is in bounds when its boot code is. -/
theorem newInBounds_iff (carries : NewCarries head regions) :
    DescsInBounds head 0 ↔ BootCodeFits head := by
  obtain ⟨n, d, descs⟩ := carries.descs
  constructor
  · rintro ⟨m, _, _, ends, before⟩ k _ goesOn other named
    have earlier : k < m := by
      by_contra late
      exact goesOn m (Nat.le_of_not_lt late) ends
    exact ((before k earlier (Nat.zero_le k)).2.code other named).2
  · intro fits
    refine ⟨n, descs.bound, Nat.zero_le n, descs.ends, ?_⟩
    intro k before _
    refine ⟨descs.goesOn k before, ?_⟩
    by_cases same : k = d
    · subst same
      refine ⟨fun _ => ?_, fun other => absurd descs.named other⟩
      rw [← newRegions_isSome head _ {},
        takeRegions_all few fun i => newEntry_carried valid descs.payload]
      rfl
    · have other := descs.other k before same
      refine ⟨fun named => absurd named other.other, fun _ code => ⟨other.inside, ?_⟩⟩
      have bound := descs.bound
      exact fits k (by omega) (fun j earlier => descs.goesOn j (by omega)) other.other code

end

theorem convertImg_congr {a b : ModemImageInfo} (regionNum : a.regionNum = b.regionNum)
    (table : a.table = b.table) (load : LoadValueS) :
    modemHeadConvertImg a load = modemHeadConvertImg b load := by
  simp only [modemHeadConvertImg, ModemImageInfo.regions, regionNum, table]

theorem oldConstruct_of_magic {head : Head} (old : magic head = OLD_HEAD_MAGIC_INFO)
    (img : ModemImageInfo) : modemHeadConstructImg head img = modemHeadOldConstruct head img :=
  if_pos old

theorem newConstruct_of_magic {head : Head} (new : magic head = NEW_HEAD_MAGIC_INFO)
    (img : ModemImageInfo) : modemHeadConstructImg head img = modemHeadNewConstruct head img := by
  have notOld : magic head ≠ OLD_HEAD_MAGIC_INFO := by
    rw [new]
    decide
  unfold modemHeadConstructImg
  rw [if_neg notOld, if_pos new]

/-- Two heads that carry the same regions in the two formats lead to the same table
    exactly when the boot code of both fits. -/
theorem heads_agree_iff (regions : List ImgRegionInfo) (valid : ∀ region ∈ regions, region.Valid)
    (few : regions.length ≤ MAX_REGION_NUM) (old new : Head) (oldCarries : OldCarries old regions)
    (newCarries : NewCarries new regions) (img : ModemImageInfo) :
    Agree old new img ↔ oldCount old ≤ MAX_CODE_NUM ∧ BootCodeFits new := by
  have oldOk := (modemHeadOldConstruct_isSome old img).trans (oldInBounds_iff valid few oldCarries)
  have newOk : (modemHeadNewConstruct new img).isSome ↔ BootCodeFits new :=
    (takeDescs_isSome (Nat.add_zero _) img).trans (newInBounds_iff valid few newCarries)
  unfold Agree
  rw [oldConstruct_of_magic oldCarries.magic, newConstruct_of_magic newCarries.magic, ← oldOk, ← newOk]
  constructor
  · rintro ⟨a, b, oldDone, newDone, _⟩
    rw [oldDone, newDone]
    exact ⟨rfl, rfl⟩
  · rintro ⟨oldDone, newDone⟩
    obtain ⟨a, constructed⟩ := Option.isSome_iff_exists.mp oldDone
    obtain ⟨b, constructed'⟩ := Option.isSome_iff_exists.mp newDone
    have holdsA := oldConstruct_holds valid few oldCarries constructed
    have holdsB := newConstruct_holds valid few newCarries constructed'
    have regionNum := holdsA.regionNum.trans holdsB.regionNum.symm
    have table := holdsA.table.trans holdsB.table.symm
    exact ⟨a, b, constructed, constructed', regionNum, table, convertImg_congr regionNum table⟩

def modemRegion : ImgRegionInfo := ⟨bytes "modem", 0x8B000000, 0x100⟩

/-- The name, the base and the size of the region, with the padding between them. -/
def modemRegionBytes : Bytes :=
  bytes "modem" ++ List.replicate 19 0 ++ [0, 0, 0, 0x8B, 0, 0, 0, 0] ++ [0, 1, 0, 0]

def oldModem (count : UInt8) : Head where
  bytes := ([0x4D, 0x45, 0x43, 0x50] ++ (List.replicate 204 0 ++ count :: List.replicate 207 0)) ++
    (modemRegionBytes ++ List.replicate 1084 0)
  sized := by
    simp only [List.length_append, List.length_cons, List.length_replicate]
    rfl

def newModem : Head where
  bytes := ([0x43, 0x50, 0x48, 0x44] ++ (bytes "decoup-desc" ++ List.replicate 9 0 ++
    [92, 0, 0, 0, 48, 0, 0, 0]) ++ List.replicate 68 0) ++ (modemRegionBytes ++ List.replicate 1400 0)
  sized := by
    simp only [List.length_append, List.length_replicate]
    rfl

theorem modemRegion_valid : ∀ region ∈ [modemRegion], region.Valid := by
  intro region member
  obtain rfl := List.mem_singleton.mp member
  exact ⟨by decide, by decide, by decide, by decide⟩

theorem modemRegion_at {head : Head} {address : Nat} {rest : Bytes}
    (here : head.bytes.drop address = modemRegionBytes ++ rest) :
    RegionAt head address modemRegion := by
  constructor
  · rw [isText, here]
    rfl
  · have base : ((modemRegionBytes ++ rest).drop 24).take 8 = [0, 0, 0, 0x8B, 0, 0, 0, 0] := rfl
    rw [u64, ← List.drop_drop, here, base]
    decide
  · have size : ((modemRegionBytes ++ rest).drop 32).take 4 = [0, 1, 0, 0] := rfl
    rw [u32, ← List.drop_drop, here, size]
    decide

theorem oldModem_carries (count : UInt8) : OldCarries (oldModem count) [modemRegion] := by
  have here : (oldModem count).bytes.drop (oldRegion 0) = modemRegionBytes ++ List.replicate 1084 0 := by
    apply List.drop_left'
    simp only [List.length_append, List.length_cons, List.length_replicate]
    rfl
  have first : ((oldModem count).bytes.drop 0).take 4 = [0x4D, 0x45, 0x43, 0x50] := rfl
  refine ⟨?_, ?_, ?_⟩
  · rw [ModemHead.magic, u32, first]
    decide
  · intro i inside
    obtain rfl : i = 0 := by simpa using inside
    exact modemRegion_at here
  · intro _
    have next : oldRegion 1 = oldRegion 0 + 48 := rfl
    rw [isText, List.length_singleton, next, ← List.drop_drop, here]
    rfl

theorem newModem_carries : NewCarries newModem [modemRegion] := by
  have offs : descOffs newModem 0 = 92 := rfl
  have here : newModem.bytes.drop (newRegion 92 0) = modemRegionBytes ++ List.replicate 1400 0 := by
    apply List.drop_left'
    simp only [List.length_append, List.length_replicate]
    rfl
  refine ⟨rfl, 1, 0, ?_⟩
  constructor
  · decide
  · rfl
  · intro k before
    obtain rfl : k = 0 := by omega
    decide
  · decide
  · rfl
  · rw [offs]
    constructor
    · intro i inside
      obtain rfl : i = 0 := by simpa using inside
      decide
    · intro i inside
      obtain rfl : i = 0 := by simpa using inside
      exact modemRegion_at here
    · intro _
      have next : newRegion 92 1 + 32 = newRegion 92 0 + 72 := rfl
      refine ⟨by decide, ?_⟩
      rw [List.length_singleton, entrySize, u32, next, ← List.drop_drop, here]
      rfl
  · intro k before other
    omega

/-- With little boot code the two heads agree. -/
theorem heads_agree_modem : Agree (oldModem 4) newModem {} := by
  refine (heads_agree_iff [modemRegion] modemRegion_valid (by decide) (oldModem 4) newModem
    (oldModem_carries 4) newModem_carries {}).mpr ⟨by decide, ?_⟩
  intro k _ goesOn other _
  cases k with
  | zero => exact absurd (by decide) other
  | succ k => exact absurd (by decide) (goesOn 1 (Nat.succ_le_succ (Nat.zero_le k)))

/-- With more boot code than there is room for, the old head does not lead to the table. -/
theorem heads_disagree_modem :
    ¬ ∀ (regions : List ImgRegionInfo), (∀ region ∈ regions, region.Valid) →
      regions.length ≤ MAX_REGION_NUM → ∀ old new, OldCarries old regions →
        NewCarries new regions → ∀ img, Agree old new img := by
  intro always
  obtain ⟨a, _, constructed, _⟩ := always [modemRegion] modemRegion_valid (by decide) (oldModem 51)
    newModem (oldModem_carries 51) newModem_carries {}
  have parsed : (modemHeadOldConstruct (oldModem 51) {}).isSome := by
    rw [← oldConstruct_of_magic (oldModem_carries 51).magic, constructed]
    rfl
  have few := ((modemHeadOldConstruct_isSome (oldModem 51) {}).mp parsed).code
  exact absurd few (by decide)

end ModemControl.ModemHead
