import ModemControl.HeadFormats
import ModemControl.LoadFiles

/-! # The boot code of the modem head

Both formats of the head carry boot code. The two constructors fill one count with it, the
one in words and the other in bytes, and `modem_head_get_boot_code` takes it for words.
-/

namespace ModemControl.ModemHead

open Foundation Load LoadFiles

/-- The bytes of `boot_code.code`. -/
def ModemImageInfo.codeBytes (img : ModemImageInfo) : Bytes := List.ofFn img.code

/-- Its result and what becomes of the buffer. -/
def modemHeadGetBootCode (img : ModemImageInfo) (buf : Bytes) (size : BitVec 32) :
    Option (BitVec 32 × Bytes) :=
  if 0 < img.count then
    -- size = instruction count * sizeof(int)
    let copy := img.count * 4
    let copy := if copy < size then copy else size
    if copy.toNat ≤ 4 * MAX_CODE_NUM then
      some (copy, img.codeBytes.take copy.toNat ++ buf.drop copy.toNat)
    else none
  else some (0, buf)

def BUF_SIZE : Nat := 512

def writeBootCode (fout data : Bytes) : FileProg Int := do
  if ← open_ .fdout fout then
    let wsize ← write .fdout data
    close .fdout
    return wsize
  else return -1

def modemLoadCpBootCode (img : ModemImageInfo) (fout : Bytes) : FileProg Int :=
  match modemHeadGetBootCode img (List.replicate BUF_SIZE 0) (BitVec.ofNat 32 BUF_SIZE) with
  | none => fault
  | some (wsize, buf) => writeBootCode fout (buf.take wsize.toNat)

structure OldCode (head : Head) (code : Bytes) : Prop where
  magic : magic head = OLD_HEAD_MAGIC_INFO
  words : code.length = 4 * oldCount head
  bytes : code = (head.bytes.drop 212).take (4 * oldCount head)

/-- A descriptor whose payload is taken for boot code. -/
def BootDesc (head : Head) (k : Nat) : Prop := ¬ Named head k DECOUP_DESC ∧ Named head k BOOT_CODE

/-- The last descriptor for boot code, of those before the one of size zero, has these bytes
    for its payload. -/
structure LastBoot (head : Head) (code : Bytes) (n k : Nat) : Prop where
  bound : n < MAX_DESC_NUM
  ends : descSize head n = 0
  goesOn : ∀ j < n, descSize head j ≠ 0
  before : k < n
  boot : BootDesc head k
  last : ∀ j < n, k < j → ¬ BootDesc head j
  size : (descSize head k).toNat = code.length
  inside : (descOffs head k).toNat + (descSize head k).toNat ≤ MAX_HEADER_SIZE
  bytes : code = (head.bytes.drop (descOffs head k).toNat).take (descSize head k).toNat

structure NewCode (head : Head) (code : Bytes) : Prop where
  magic : magic head = NEW_HEAD_MAGIC_INFO
  descs : ∃ n k, LastBoot head code n k

/-- What is got back is the boot code of the head. -/
def Survives (head : Head) (code : Bytes) (img : ModemImageInfo) (buf : Bytes) : Prop :=
  ∃ img' copy buf', modemHeadConstructImg head img = some img' ∧
    modemHeadGetBootCode img' buf (BitVec.ofNat 32 BUF_SIZE) = some (copy, buf') ∧
    copy.toNat = code.length ∧ buf'.length = buf.length ∧ code <+: buf'

/-- The same bytes are written for both heads. -/
def WrittenAlike (old new : Head) (img : ModemImageInfo) (fout : Bytes) : Prop :=
  ∃ a b data, modemHeadConstructImg old img = some a ∧ modemHeadConstructImg new img = some b ∧
    modemLoadCpBootCode a fout = writeBootCode fout data ∧
    modemLoadCpBootCode b fout = writeBootCode fout data

section

variable {head : Head} {code : Bytes} {img img' : ModemImageInfo}

theorem setCode_code {data : Bytes} {count : BitVec 32} (copied : img.setCode data count = some img') :
    img'.count = count ∧ img'.codeBytes.take data.length = data := by
  unfold ModemImageInfo.setCode at copied
  split at copied
  · rename_i fits
    obtain rfl := Option.some.inj copied
    refine ⟨rfl, ?_⟩
    apply List.ext_getElem
    · simp [ModemImageInfo.codeBytes]
      omega
    · intro i inside inData
      simp [ModemImageInfo.codeBytes, inData]
  · cases copied

/-- An old head leaves its count, and its code in front. -/
theorem oldConstruct_code (words : oldCount head ≤ MAX_CODE_NUM)
    (constructed : modemHeadOldConstruct head img = some img') :
    img'.count = u32 head.bytes 208 ∧
      img'.codeBytes.take (oldCount head * 4) = (head.bytes.drop 212).take (oldCount head * 4) := by
  unfold modemHeadOldConstruct at constructed
  obtain ⟨img₁, _, constructed⟩ := Option.bind_eq_some_iff.mp constructed
  rw [oldCount_read] at constructed
  dsimp only [Option.bind_eq_bind, Option.bind_some] at constructed
  have copied := oldCode_read words
  unfold oldCount at copied
  rw [copied, Option.bind_some] at constructed
  obtain ⟨count, front⟩ := setCode_code constructed
  refine ⟨count, ?_⟩
  have length := slice_length copied
  rw [length] at front
  exact front

theorem takeDesc_boot {k : Nat} (inside : k < MAX_DESC_NUM) (boot : BootDesc head k)
    (taken : takeDesc head k (descSize head k) img = some img') : img'.count = descSize head k := by
  rw [takeDesc_eq inside, if_neg boot.1, if_pos boot.2] at taken
  obtain ⟨data, _, copied⟩ := Option.bind_eq_some_iff.mp taken
  exact (setCode_code copied).1

theorem takeDesc_kept {k : Nat} (inside : k < MAX_DESC_NUM) (other : ¬ BootDesc head k)
    (taken : takeDesc head k (descSize head k) img = some img') : img'.count = img.count := by
  rw [takeDesc_eq inside] at taken
  by_cases decoup : Named head k DECOUP_DESC
  · rw [if_pos decoup] at taken
    obtain ⟨_, _, _, rfl⟩ := takeRegions_only taken
    rfl
  · rw [if_neg decoup, if_neg fun named => other ⟨decoup, named⟩] at taken
    obtain rfl := Option.some.inj taken
    rfl

/-- The scan from descriptor `j` on takes the count from the last descriptor for boot code if
    that is still to come, and keeps it if not. -/
theorem takeDescs_count {n k : Nat} (last : LastBoot head code n k) {left j : Nat} (done : j ≤ n)
    (taken : takeDescs head left j img = some img') :
    (j ≤ k → img'.count = descSize head k) ∧ (k < j → img'.count = img.count) := by
  induction left generalizing j img with
  | zero => cases taken
  | succ left ih =>
      have bound := last.bound
      have inside : j < MAX_DESC_NUM := by omega
      rw [takeDescs, descSize_read inside] at taken
      dsimp only [Option.bind_eq_bind, Option.bind_some] at taken
      rcases Nat.eq_or_lt_of_le done with rfl | before
      · rw [if_pos last.ends] at taken
        obtain rfl := Option.some.inj taken
        exact ⟨fun later => absurd last.before (Nat.not_lt_of_le later), fun _ => rfl⟩
      · rw [if_neg (last.goesOn j before)] at taken
        obtain ⟨img₁, one, rest⟩ := Option.bind_eq_some_iff.mp taken
        obtain ⟨later, passed⟩ := ih before rest
        rcases Nat.lt_trichotomy j k with earlier | rfl | past
        · exact ⟨fun _ => later earlier, fun past => absurd past (Nat.lt_asymm earlier)⟩
        · have kept := passed (Nat.lt_succ_self j)
          have count := takeDesc_boot inside last.boot one
          exact ⟨fun _ => kept.trans count, fun past => absurd past (Nat.lt_irrefl j)⟩
        · have kept := passed (Nat.lt_succ_of_lt past)
          have count := takeDesc_kept inside (last.last j before past) one
          exact ⟨fun early => absurd past (Nat.not_lt_of_le early), fun _ => kept.trans count⟩

/-- A new head leaves the bytes of its code for the count. -/
theorem newConstruct_count {n k : Nat} (last : LastBoot head code n k)
    (constructed : modemHeadNewConstruct head img = some img') : img'.count = descSize head k :=
  (takeDescs_count last (Nat.zero_le n) constructed).1 (Nat.zero_le k)

end

/-- So many words come back, for a count that is the number of words. -/
theorem getBootCode_words {img : ModemImageInfo} {n : Nat} (count : img.count.toNat = n)
    (some_ : 1 ≤ n) (few : n ≤ MAX_CODE_NUM) (buf : Bytes) :
    modemHeadGetBootCode img buf (BitVec.ofNat 32 BUF_SIZE) =
      some (BitVec.ofNat 32 (4 * n), img.codeBytes.take (4 * n) ++ buf.drop (4 * n)) := by
  simp only [MAX_CODE_NUM] at few
  have copy : img.count * 4 = BitVec.ofNat 32 (4 * n) := by bv_omega
  have below : BitVec.ofNat 32 (4 * n) < BitVec.ofNat 32 BUF_SIZE := by
    simp only [BUF_SIZE]
    bv_omega
  have words : (BitVec.ofNat 32 (4 * n)).toNat = 4 * n := by bv_omega
  unfold modemHeadGetBootCode
  rw [if_pos (by bv_omega), copy]
  dsimp only
  rw [if_pos below, words, if_pos (by simp only [MAX_CODE_NUM]; omega)]

/-- Too many come back, or bytes from behind the code, for a count that is the number of
    bytes. -/
theorem getBootCode_bytes {img : ModemImageInfo} {n : Nat} (count : img.count.toNat = 4 * n)
    (some_ : 1 ≤ n) (few : n ≤ MAX_CODE_NUM) {buf buf' : Bytes} {copy : BitVec 32}
    (got : modemHeadGetBootCode img buf (BitVec.ofNat 32 BUF_SIZE) = some (copy, buf')) :
    copy.toNat = 16 * n ∧ (buf'.take copy.toNat).length = 16 * n := by
  simp only [MAX_CODE_NUM] at few
  unfold modemHeadGetBootCode at got
  rw [if_pos (by bv_omega)] at got
  dsimp only at got
  split at got
  · obtain ⟨fits, same⟩ := Option.ite_none_right_eq_some.mp got
    obtain ⟨rfl, rfl⟩ := Prod.mk.inj (Option.some.inj same)
    have bytes : (img.count * 4).toNat = 16 * n := by bv_omega
    refine ⟨bytes, ?_⟩
    rw [bytes] at fits ⊢
    rw [List.length_take, List.length_append, List.length_take, ModemImageInfo.codeBytes,
      List.length_ofFn]
    omega
  · -- more than the buffer holds is more than the array has
    obtain ⟨fits, _⟩ := Option.ite_none_right_eq_some.mp got
    exact absurd fits (by decide)

/-- Behind a run of regions with names there is a NUL. -/
def NamesInBounds (head : Head) : Prop :=
  ∀ j < MAX_REGION_NUM, (∀ i < j, text head.bytes (oldRegion i) ≠ []) →
    Terminated head.bytes (oldRegion j)

section

variable {head : Head} {code : Bytes}

theorem OldCode.count {n : Nat} (old : OldCode head code) (words : code.length = 4 * n) :
    oldCount head = n := by
  have length := old.words
  omega

/-- The boot code of an old head comes back whole. -/
theorem old_getBootCode {n : Nat} (old : OldCode head code) (words : code.length = 4 * n)
    (some_ : 1 ≤ n) (few : n ≤ MAX_CODE_NUM) {img img' : ModemImageInfo}
    (constructed : modemHeadOldConstruct head img = some img') (buf : Bytes) :
    modemHeadGetBootCode img' buf (BitVec.ofNat 32 BUF_SIZE) =
      some (BitVec.ofNat 32 (4 * n), code ++ buf.drop (4 * n)) := by
  have count := old.count words
  obtain ⟨kept, front⟩ := oldConstruct_code (by omega) constructed
  have words' : img'.count.toNat = n := by
    rw [kept]
    exact count
  rw [count, Nat.mul_comm n 4] at front
  rw [getBootCode_words words' some_ few, front, ← count, ← old.bytes]

theorem old_survives {n : Nat} (old : OldCode head code) (words : code.length = 4 * n)
    (some_ : 1 ≤ n) (few : n ≤ MAX_CODE_NUM) (names : NamesInBounds head) (img : ModemImageInfo)
    {buf : Bytes} (sized : buf.length = BUF_SIZE) : Survives head code img buf := by
  have count := old.count words
  have constructs : (modemHeadOldConstruct head img).isSome :=
    (modemHeadOldConstruct_isSome head img).mpr ⟨names, by omega⟩
  obtain ⟨img', constructed⟩ := Option.isSome_iff_exists.mp constructs
  refine ⟨img', _, _, (oldConstruct_of_magic old.magic img).trans constructed,
    old_getBootCode old words some_ few constructed buf, ?_, ?_, ?_⟩
  · rw [words]
    simp only [MAX_CODE_NUM] at few
    bv_omega
  · simp only [MAX_CODE_NUM, BUF_SIZE] at few sized
    rw [List.length_append, List.length_drop, words, sized]
    omega
  · exact List.prefix_append code _

theorem new_not_survives {n : Nat} (new : NewCode head code) (words : code.length = 4 * n)
    (some_ : 1 ≤ n) (few : n ≤ MAX_CODE_NUM) (img : ModemImageInfo) (buf : Bytes) :
    ¬ Survives head code img buf := by
  intro survives
  obtain ⟨img', copy, buf', constructed, got, size, _⟩ := survives
  obtain ⟨_, k, last⟩ := new.descs
  rw [newConstruct_of_magic new.magic] at constructed
  have count : img'.count.toNat = 4 * n := by
    rw [newConstruct_count last constructed, last.size, words]
  have more := (getBootCode_bytes count some_ few got).1
  omega

theorem writeBootCode_inj {fout data data' : Bytes}
    (same : writeBootCode fout data = writeBootCode fout data') : data = data' := by
  have opened := congrFun (eq_of_heq (Prog.call.inj same).2) true
  have writes := (Prog.call.inj opened).1
  exact (FileOp.write.inj writes).2

theorem old_written {n : Nat} (old : OldCode head code) (words : code.length = 4 * n)
    (some_ : 1 ≤ n) (few : n ≤ MAX_CODE_NUM) {img img' : ModemImageInfo}
    (constructed : modemHeadConstructImg head img = some img') (fout : Bytes) :
    modemLoadCpBootCode img' fout = writeBootCode fout code := by
  rw [oldConstruct_of_magic old.magic] at constructed
  have length : (BitVec.ofNat 32 (4 * n)).toNat = code.length := by
    simp only [MAX_CODE_NUM] at few
    bv_omega
  unfold modemLoadCpBootCode
  rw [old_getBootCode old words some_ few constructed]
  dsimp only
  rw [length, List.take_left]

theorem new_written {n : Nat} (new : NewCode head code) (words : code.length = 4 * n)
    (some_ : 1 ≤ n) (few : n ≤ MAX_CODE_NUM) {img img' : ModemImageInfo}
    (constructed : modemHeadConstructImg head img = some img') {fout data : Bytes}
    (written : modemLoadCpBootCode img' fout = writeBootCode fout data) :
    data.length = 16 * n := by
  obtain ⟨_, k, last⟩ := new.descs
  rw [newConstruct_of_magic new.magic] at constructed
  have count : img'.count.toNat = 4 * n := by
    rw [newConstruct_count last constructed, last.size, words]
  unfold modemLoadCpBootCode at written
  split at written
  · cases (Prog.call.inj written).1
  · rename_i copy buf' got
    rw [← writeBootCode_inj written]
    exact (getBootCode_bytes count some_ few got).2

/-- The boot code of a head comes back as it is exactly for heads of the old format whose
    region names end in the buffer, and what is written for a head of the new format is never
    what is written for an old one with the same code. -/
theorem bootCode_survives_iff {n : Nat} (carries : OldCode head code ∨ NewCode head code)
    (words : code.length = 4 * n) (some_ : 1 ≤ n) (few : n ≤ MAX_CODE_NUM) (img : ModemImageInfo)
    (buf : Bytes) (sized : buf.length = BUF_SIZE) :
    (Survives head code img buf ↔ magic head = OLD_HEAD_MAGIC_INFO ∧ NamesInBounds head) ∧
      ∀ new fout, OldCode head code → NewCode new code → ¬ WrittenAlike head new img fout := by
  constructor
  · rcases carries with old | new
    · constructor
      · intro survives
        obtain ⟨img', _, _, constructed, _⟩ := survives
        rw [oldConstruct_of_magic old.magic] at constructed
        have inBounds := (modemHeadOldConstruct_isSome head img).mp
          (Option.isSome_iff_exists.mpr ⟨img', constructed⟩)
        exact ⟨old.magic, inBounds.names⟩
      · intro fine
        exact old_survives old words some_ few fine.2 img sized
    · refine iff_of_false (new_not_survives new words some_ few img buf) ?_
      intro fine
      exact absurd (new.magic.symm.trans fine.1) (by decide)
  · intro new fout old newCode alike
    obtain ⟨a, b, data, constructsOld, constructsNew, writesOld, writesNew⟩ := alike
    have same := writeBootCode_inj ((old_written old words some_ few constructsOld fout).symm.trans writesOld)
    have more := new_written newCode words some_ few constructsNew writesNew
    rw [← same] at more
    omega

end

def oldModemCode : Bytes := ((oldModem 4).bytes.drop 212).take 16

theorem oldModem_code : OldCode (oldModem 4) oldModemCode where
  magic := (oldModem_carries 4).magic
  words := rfl
  bytes := rfl

/-- With its four words the old head leaves its code. -/
theorem bootCode_survives_oldModem :
    Survives (oldModem 4) oldModemCode {} (List.replicate BUF_SIZE 0) := by
  have inBounds := (oldInBounds_iff modemRegion_valid (by decide) (oldModem_carries 4)).mpr (by decide)
  have words : oldModemCode.length = 4 * 4 := rfl
  have both := bootCode_survives_iff (Or.inl oldModem_code) words (by decide) (by decide) {}
    (List.replicate BUF_SIZE 0) List.length_replicate
  exact both.1.mpr ⟨oldModem_code.magic, inBounds.names⟩

/-- One descriptor, for one word of boot code. -/
def newBoot : Head where
  bytes := ([0x43, 0x50, 0x48, 0x44] ++ (bytes "boot-code" ++ List.replicate 11 0 ++
    [60, 0, 0, 0, 4, 0, 0, 0]) ++ List.replicate 28 0) ++ ([1, 2, 3, 4] ++ List.replicate 1472 0)
  sized := by
    simp only [List.length_append, List.length_replicate]
    rfl

theorem newBoot_code : NewCode newBoot [1, 2, 3, 4] where
  magic := rfl
  descs := by
    refine ⟨1, 0, ?_⟩
    constructor
    · decide
    · rfl
    · intro j before
      obtain rfl : j = 0 := by omega
      decide
    · decide
    · exact ⟨by decide, by decide⟩
    · intro j before behind
      omega
    · rfl
    · decide
    · rfl

/-- Sixteen bytes come back for the four. -/
theorem newBoot_lost :
    NewCode newBoot [1, 2, 3, 4] ∧
      ¬ Survives newBoot [1, 2, 3, 4] {} (List.replicate BUF_SIZE 0) :=
  ⟨newBoot_code, new_not_survives newBoot_code rfl (Nat.le_refl 1) (by decide) {} _⟩

end ModemControl.ModemHead
