import ModemControl.LoadOutcomes
import ModemControl.SciHeader

/-! # The extent of a modem image

What `get_modem_img_info` returns for a well-formed SCI image, and for which contents of
the file its outputs are assigned and lie in the image.
-/

namespace ModemControl.ImgInfo

open Foundation Load

/-- A file as the calls find it: whether it opens, and the results of the `lseek` and of the
    `read`. -/
structure Source where
  opens : Bool
  moved : Int
  got : Option Bytes

/-- The files, what a variable holds that was not assigned, and the other calls. -/
structure World where
  files : Bytes → Source
  garbage : BitVec 64
  others : (op : LoadOp) → op.Res

/-- The same files, with this in the variables that are not assigned. -/
def World.holding (w : World) (garbage : BitVec 64) : World := { w with garbage }

/-- The state is the file that was opened last. -/
def World.answer (w : World) : Source → (op : ImgOp) → op.Res × Source
  | _, .open_ path => ((w.files path).opens, w.files path)
  | file, .lseek _ => (file.moved, file)
  | file, .read _ => (file.got, file)
  | file, .close => ((), file)
  | file, .unassigned => (w.garbage, file)
  | file, .other op => (w.others op, file)

/-- What a program comes back with. -/
def World.value {α : Type} (w : World) (file : Source) (p : ImgProg α) : α :=
  (p.run w.answer file).2.2

/-- The file in which the calls leave off. -/
def World.after {α : Type} (w : World) (file : Source) (p : ImgProg α) : Source :=
  (p.run w.answer file).2.1

/-- The headers of a SCI image are read from the file. -/
structure Sci (file : Source) (img : ImageLoad) (secureOffset : BitVec 32) (hdrBuf : Bytes) :
    Prop where
  modem : strstr img.pathR MODEM_BANK = true
  opens : file.opens = true
  moved : file.moved = secureOffset.toNat
  got : file.got = some hdrBuf
  sized : hdrBuf.length = HDR_NUM * HDR_SIZE
  magic : hdrBuf.take MODEM_MAGIC.length = MODEM_MAGIC

section

variable {w : World} {file : Source} {img : ImageLoad} {secureOffset : BitVec 32}

theorem World.value_bind {α β : Type} (p : ImgProg α) (f : α → ImgProg β) :
    w.value file (p >>= f) = w.value (w.after file p) (f (w.value file p)) := by
  unfold World.value World.after
  rw [Prog.run_bind]

theorem World.value_ite {α : Type} (c : Prop) [Decidable c] (p q : ImgProg α) :
    w.value file (if c then p else q) = if c then w.value file p else w.value file q := by
  split <;> rfl

/-- The calls come out one after the other. -/
theorem value_getModemImgInfo (w : World) (file : Source) (img : ImageLoad)
    (secureOffset : BitVec 32) :
    w.value file (getModemImgInfo img secureOffset) =
      if strstr img.pathR MODEM_BANK = true ∧ (w.files img.pathR).opens = true ∧
          (w.files img.pathR).moved = secureOffset.toNat then
        decode img (w.files img.pathR).got
      else wholeImage img := by
  unfold getModemImgInfo
  rw [World.value_ite, World.value_bind, World.value_ite, World.value_bind, World.value_ite]
  have opened : w.value file (open_ img.pathR) = (w.files img.pathR).opens := rfl
  have current : w.after file (open_ img.pathR) = w.files img.pathR := rfl
  have moved : w.value (w.files img.pathR) (lseek secureOffset.toNat) =
    (w.files img.pathR).moved := rfl
  rw [opened, current, moved]
  by_cases modem : strstr img.pathR MODEM_BANK = true
  · by_cases opens : (w.files img.pathR).opens = true
    · by_cases there : (w.files img.pathR).moved = secureOffset.toNat
      · rw [if_pos modem, if_pos opens, if_neg (not_not.mpr there), if_pos ⟨modem, opens, there⟩]
        rfl
      · rw [if_pos modem, if_pos opens, if_pos there, if_neg (fun all => there all.2.2)]
        rfl
    · rw [if_pos modem, if_neg opens, if_neg (fun all => opens all.2.1)]
      rfl
  · rw [if_neg modem, if_neg (fun all => modem all.1)]
    rfl

theorem decode_sci {hdrBuf : Bytes} (sized : hdrBuf.length = HDR_NUM * HDR_SIZE)
    (magic : hdrBuf.take MODEM_MAGIC.length = MODEM_MAGIC) :
    decode img (some hdrBuf) = sciInfo hdrBuf := by
  have whole : Nv.readLength (some hdrBuf) = HDR_NUM * HDR_SIZE := congrArg Int.ofNat sized
  rw [decode, if_pos whole]
  exact if_pos magic

theorem value_sci {hdrBuf : Bytes} (sci : Sci (w.files img.pathR) img secureOffset hdrBuf) :
    w.value file (getModemImgInfo img secureOffset) = sciInfo hdrBuf := by
  rw [value_getModemImgInfo, if_pos ⟨sci.modem, sci.opens, sci.moved⟩, sci.got,
    decode_sci sci.sized sci.magic]

theorem value_whole (not : ∀ hdrBuf, ¬ Sci (w.files img.pathR) img secureOffset hdrBuf) :
    w.value file (getModemImgInfo img secureOffset) = wholeImage img := by
  rw [value_getModemImgInfo]
  split
  · rename_i reached
    obtain ⟨modem, opens, moved⟩ := reached
    unfold decode
    split
    · rename_i sized
      dsimp only
      split
      · rename_i magic
        have whole : Nv.readLength (w.files img.pathR).got = (HDR_NUM * HDR_SIZE : Nat) := sized
        obtain ⟨hdrBuf, got, length⟩ := Nv.readLength_eq whole
        rw [got] at magic
        exact absurd ⟨modem, opens, moved, got, length, magic⟩ (not hdrBuf)
      · rfl
    · rfl
  · rfl

theorem Sci.unique {hdrBuf hdrBuf' : Bytes} (sci : Sci file img secureOffset hdrBuf)
    (sci' : Sci file img secureOffset hdrBuf') : hdrBuf = hdrBuf' :=
  Option.some.inj (sci.got.symm.trans sci'.got)

end

/-- A block ends below 2^31, and is at least as long as the digest in front of it. -/
structure Bounded (h : DataBlockHeader) : Prop where
  end_ : h.offset.toNat + h.length.toNat < 0x80000000
  digest : h.hasSha1 = true → MODEM_SHA1_SIZE ≤ h.length.toNat

/-- What lies in front of the executable in its block. -/
def digestSize (h : DataBlockHeader) : Nat := if h.hasSha1 then MODEM_SHA1_SIZE else 0

/-- The outputs are those of modem header `m` and last header `l`. -/
structure Decoded (hdrBuf : Bytes) (m l : Nat) (info : Info) : Prop where
  isSci : info.isSci = some 1
  offset : info.offset.toNat = (header hdrBuf m).offset.toNat + digestSize (header hdrBuf m)
  modemExeSize : info.modemExeSize.map BitVec.toNat =
    some ((header hdrBuf m).length.toNat - digestSize (header hdrBuf m))
  totalLen : info.totalLen.map BitVec.toNat =
    some ((header hdrBuf l).offset.toNat + (header hdrBuf l).length.toNat)

namespace Bounded

variable {h : DataBlockHeader} (bounded : Bounded h)

include bounded

theorem modemOffset_toNat : h.modemOffset.toNat = h.offset.toNat + digestSize h := by
  have ends := bounded.end_
  unfold DataBlockHeader.modemOffset digestSize
  split
  · rename_i sha1
    have digest := bounded.digest sha1
    unfold MODEM_SHA1_SIZE at *
    bv_omega
  · rfl

theorem modemExeSize_toNat : h.modemExeSize.toNat = h.length.toNat - digestSize h := by
  unfold DataBlockHeader.modemExeSize digestSize
  split
  · rename_i sha1
    have digest := bounded.digest sha1
    unfold MODEM_SHA1_SIZE at *
    bv_omega
  · bv_omega

theorem imageLen_toNat : h.imageLen.toNat = h.offset.toNat + h.length.toNat := by
  have ends := bounded.end_
  unfold DataBlockHeader.imageLen
  bv_omega

theorem imageLen_signExtend :
    (h.imageLen.signExtend 64).toNat = h.offset.toNat + h.length.toNat := by
  have ends := bounded.end_
  have len := bounded.imageLen_toNat
  have positive : h.imageLen.msb = false := by
    rw [BitVec.msb_eq_decide, len]
    exact decide_eq_false (by omega)
  rw [BitVec.signExtend_eq_setWidth_of_msb_false positive, BitVec.toNat_setWidth, len]
  omega

theorem digestSize_le : digestSize h ≤ h.length.toNat := by
  unfold digestSize
  split
  · rename_i sha1
    exact bounded.digest sha1
  · exact Nat.zero_le _

/-- Neither value is the sentinel. -/
theorem modemOffset_ne : h.modemOffset ≠ -1 := by
  have ends := bounded.end_
  have offset := bounded.modemOffset_toNat
  have digest := bounded.digestSize_le
  intro same
  rw [same] at offset
  bv_omega

theorem imageLen_ne : h.imageLen ≠ -1 := by
  have ends := bounded.end_
  have len := bounded.imageLen_toNat
  intro same
  rw [same] at len
  bv_omega

end Bounded

theorem header_take (hdrBuf : Bytes) {n i : Nat} (inside : i < n) :
    header (hdrBuf.take (HDR_SIZE * n)) i = header hdrBuf i := by
  unfold header
  rw [u32_take (by simp only [HDR_SIZE]; omega), u32_take (by simp only [HDR_SIZE]; omega),
    u32_take (by simp only [HDR_SIZE]; omega)]

section

variable {hdrBuf hdrBuf' : Bytes} {m l : Nat}

theorem apart_of_bounded (modem : Bounded (header hdrBuf m)) (last : Bounded (header hdrBuf l)) :
    Apart hdrBuf m l :=
  ⟨modem.modemOffset_ne, last.imageLen_ne⟩

theorem sciInfo_decoded (layout : Layout hdrBuf m l) (modem : Bounded (header hdrBuf m))
    (last : Bounded (header hdrBuf l)) : Decoded hdrBuf m l (sciInfo hdrBuf) := by
  rw [sciInfo_apart layout (apart_of_bounded modem last)]
  exact ⟨rfl, modem.modemOffset_toNat, congrArg some modem.modemExeSize_toNat,
    congrArg some last.imageLen_signExtend⟩

section

variable (same : hdrBuf'.take (HDR_SIZE * (l + 1)) = hdrBuf.take (HDR_SIZE * (l + 1)))

include same

theorem header_same {j : Nat} (upTo : j ≤ l) : header hdrBuf' j = header hdrBuf j := by
  have inside : j < l + 1 := Nat.lt_succ_of_le upTo
  rw [← header_take hdrBuf' inside, same, header_take hdrBuf inside]

/-- The headers behind the last one play no part. -/
theorem layout_same (layout : Layout hdrBuf m l) : Layout hdrBuf' m l where
  inside := layout.inside
  isLast := by rw [header_same same (Nat.le_refl l)]; exact layout.isLast
  first := by
    intro j from_ before
    rw [header_same same (Nat.le_of_lt before)]
    exact layout.first j from_ before
  from_ := layout.from_
  upTo := layout.upTo
  isModemBin := by rw [header_same same layout.upTo]; exact layout.isModemBin
  none := by
    intro j behind upTo
    rw [header_same same upTo]
    exact layout.none j behind upTo

theorem sciInfo_same (layout : Layout hdrBuf m l) (apart : Apart hdrBuf m l) :
    sciInfo hdrBuf' = sciInfo hdrBuf := by
  have modem := header_same same layout.upTo
  have last := header_same same (Nat.le_refl l)
  have apart' : Apart hdrBuf' m l := ⟨by rw [modem]; exact apart.offset, by rw [last]; exact apart.len⟩
  rw [sciInfo_apart layout apart, sciInfo_apart (layout_same same layout) apart', modem, last]

end

/-- A well-formed SCI image gives the block of its last modem header up to the last header,
    and what is behind that header does not matter. -/
theorem sci_decoded {w w' : World} (file file' : Source) {img : ImageLoad}
    {secureOffset : BitVec 32} (sci : Sci (w.files img.pathR) img secureOffset hdrBuf)
    (layout : Layout hdrBuf m l) (modem : Bounded (header hdrBuf m))
    (last : Bounded (header hdrBuf l)) :
    Decoded hdrBuf m l (w.value file (getModemImgInfo img secureOffset)) ∧
      (Sci (w'.files img.pathR) img secureOffset hdrBuf' →
        hdrBuf'.take (HDR_SIZE * (l + 1)) = hdrBuf.take (HDR_SIZE * (l + 1)) →
        w'.value file' (getModemImgInfo img secureOffset) =
          w.value file (getModemImgInfo img secureOffset)) := by
  rw [value_sci sci]
  refine ⟨sciInfo_decoded layout modem last, ?_⟩
  intro sci' same
  rw [value_sci sci']
  exact sciInfo_same same layout (apart_of_bounded modem last)

/-- A modem image of one block, 1000 bytes from byte 132 on, with these bytes behind its
    header. -/
def oneBlock (behind : UInt8) : Bytes :=
  MODEM_MAGIC ++ List.replicate 8 0 ++ [1, 1, 0, 0, 0x84, 0, 0, 0, 0xE8, 3, 0, 0] ++
    List.replicate 108 behind

def modemImg : ImageLoad := ⟨bytes "/proc/cptl/modem", bytes "/dev/modem", bytes "modem", 0, 4096, 2⟩

/-- The other calls return zero. -/
def allZero : Outcomes where
  images := .const 0
  flags := .const (some 0)
  rescans := .const 0
  extent := fun _ => (0, 0)
  dropped := fun _ => 0

set_option maxRecDepth 2000 in
theorem header_oneBlock (behind : UInt8) : header (oneBlock behind) 1 = ⟨0x101, 132, 1000⟩ := rfl

theorem oneBlock_layout (behind : UInt8) : Layout (oneBlock behind) 1 1 where
  inside := by decide
  isLast := by
    rw [header_oneBlock]
    rfl
  first := by
    intro j from_ before
    omega
  from_ := Nat.le_refl 1
  upTo := Nat.le_refl 1
  isModemBin := by
    rw [header_oneBlock]
    rfl
  none := by
    intro j behind upTo
    omega

/-- Every path is a file with this beginning. -/
def reading (beginning : Bytes) : Source := ⟨true, 0, some beginning⟩

def World.reading (beginning : Bytes) : World where
  files := fun _ => ImgInfo.reading beginning
  garbage := 0
  others := fun op => (Outcomes.answer allZero op).1

theorem length_oneBlock (behind : UInt8) : (oneBlock behind).length = HDR_NUM * HDR_SIZE := by
  rw [oneBlock, List.length_append, List.length_append, List.length_append, List.length_replicate,
    List.length_replicate]
  rfl

theorem oneBlock_sci (behind : UInt8) :
    Sci (reading (oneBlock behind)) modemImg 0 (oneBlock behind) where
  modem := by decide
  opens := rfl
  moved := rfl
  got := rfl
  sized := length_oneBlock behind
  magic := rfl

theorem sci_decoded_oneBlock :
    Decoded (oneBlock 0) 1 1
        ((World.reading (oneBlock 0)).value (reading []) (getModemImgInfo modemImg 0)) ∧
      (World.reading (oneBlock 7)).value (reading []) (getModemImgInfo modemImg 0) =
        (World.reading (oneBlock 0)).value (reading []) (getModemImgInfo modemImg 0) := by
  have bounded : Bounded (header (oneBlock 0) 1) := by
    rw [header_oneBlock]
    exact ⟨by decide, by decide⟩
  have sci : Sci ((World.reading (oneBlock 0)).files modemImg.pathR) modemImg 0 (oneBlock 0) :=
    oneBlock_sci 0
  have sci' : Sci ((World.reading (oneBlock 7)).files modemImg.pathR) modemImg 0 (oneBlock 7) :=
    oneBlock_sci 7
  obtain ⟨decoded, unchanged⟩ :=
    sci_decoded (reading []) (reading []) sci (oneBlock_layout 0) bounded bounded
  have same : (oneBlock 7).take (HDR_SIZE * (1 + 1)) = (oneBlock 0).take (HDR_SIZE * (1 + 1)) := by
    decide
  exact ⟨decoded, unchanged sci' same⟩

end

/-- The extent lies in the block of a modem header, with nothing wrapped. -/
def InBlock (hdrBuf : Bytes) (offset : BitVec 32) (size : BitVec 64) : Prop :=
  ∃ i, 1 ≤ i ∧ i < HDR_NUM ∧ (header hdrBuf i).isModemBin = true ∧
    (header hdrBuf i).offset.toNat ≤ offset.toNat ∧
    offset.toNat + size.toNat ≤ (header hdrBuf i).offset.toNat + (header hdrBuf i).length.toNat

/-- All outputs are assigned, and they are those of the whole image or of an extent in a
    block. -/
def Defined (file : Source) (img : ImageLoad) (info : Info) : Prop :=
  ∃ sci total size, info = ⟨info.offset, some sci, some total, some size⟩ ∧
    (info.offset = 0 ∧ total = img.size.setWidth 64 ∧ size = img.size.setWidth 64 ∨
      InBlock (file.got.getD []) info.offset size)

/-- The block wraps, and what comes out happens to be the whole image, or to lie in the block
    of another header. -/
def Chance (hdrBuf : Bytes) (img : ImageLoad) (m l : Nat) : Prop :=
  (header hdrBuf m).offset.toNat + MODEM_SHA1_SIZE = 0x100000000 ∧
      (header hdrBuf m).length.toNat = img.size.toNat + MODEM_SHA1_SIZE ∧
      (header hdrBuf l).imageLen.signExtend 64 = img.size.setWidth 64 ∨
    ∃ i, 1 ≤ i ∧ i < HDR_NUM ∧ (header hdrBuf i).isModemBin = true ∧
      (header hdrBuf i).offset.toNat + 0x100000000 ≤
        (header hdrBuf m).offset.toNat + MODEM_SHA1_SIZE ∧
      (header hdrBuf m).offset.toNat + (header hdrBuf m).length.toNat ≤
        (header hdrBuf i).offset.toNat + (header hdrBuf i).length.toNat + 0x100000000

/-- The block has room for the digest in front, and does not wrap behind it, but by chance. -/
def Room (hdrBuf : Bytes) (img : ImageLoad) (m l : Nat) : Prop :=
  (header hdrBuf m).hasSha1 = true →
    MODEM_SHA1_SIZE ≤ (header hdrBuf m).length.toNat ∧
      ((header hdrBuf m).offset.toNat + MODEM_SHA1_SIZE < 0x100000000 ∨ Chance hdrBuf img m l)

section

variable {img : ImageLoad} {hdrBuf : Bytes} {m l : Nat}

theorem defined_whole (file : Source) (img : ImageLoad) : Defined file img (wholeImage img) :=
  ⟨0, _, _, rfl, Or.inl ⟨rfl, rfl, rfl⟩⟩

/-- Without a digest the extent is the block. -/
theorem inBlock_plain (layout : Layout hdrBuf m l) (plain : (header hdrBuf m).hasSha1 = false) :
    InBlock hdrBuf (header hdrBuf m).modemOffset (header hdrBuf m).modemExeSize := by
  have inside := layout.inside
  have upTo := layout.upTo
  refine ⟨m, layout.from_, by omega, layout.isModemBin, ?_⟩
  unfold DataBlockHeader.modemOffset DataBlockHeader.modemExeSize
  rw [plain]
  simp only [Bool.false_eq_true, if_false]
  bv_omega

theorem modemOffset_sha1 {h : DataBlockHeader} (sha1 : h.hasSha1 = true) :
    h.modemOffset.toNat = (h.offset.toNat + MODEM_SHA1_SIZE) % 0x100000000 := by
  unfold DataBlockHeader.modemOffset
  rw [if_pos sha1, BitVec.toNat_add]
  rfl

/-- A length below that of the digest wraps to a size beyond every block. -/
theorem modemExeSize_short {h : DataBlockHeader} (sha1 : h.hasSha1 = true)
    (short : h.length.toNat < MODEM_SHA1_SIZE) : 0x200000000 ≤ h.modemExeSize.toNat := by
  unfold DataBlockHeader.modemExeSize
  rw [if_pos sha1]
  unfold MODEM_SHA1_SIZE at *
  bv_omega

theorem modemExeSize_long {h : DataBlockHeader} (sha1 : h.hasSha1 = true)
    (long : MODEM_SHA1_SIZE ≤ h.length.toNat) :
    h.modemExeSize.toNat = h.length.toNat - MODEM_SHA1_SIZE := by
  unfold DataBlockHeader.modemExeSize
  rw [if_pos sha1]
  unfold MODEM_SHA1_SIZE at *
  bv_omega

/-- The outputs that are accepted, when all are assigned. -/
def Accepted (hdrBuf : Bytes) (img : ImageLoad) (m l : Nat) : Prop :=
  (header hdrBuf m).modemOffset = 0 ∧
      (header hdrBuf l).imageLen.signExtend 64 = img.size.setWidth 64 ∧
      (header hdrBuf m).modemExeSize = img.size.setWidth 64 ∨
    InBlock hdrBuf (header hdrBuf m).modemOffset (header hdrBuf m).modemExeSize

theorem accepted_short (sha1 : (header hdrBuf m).hasSha1 = true)
    (short : (header hdrBuf m).length.toNat < MODEM_SHA1_SIZE) : ¬ Accepted hdrBuf img m l := by
  have huge := modemExeSize_short sha1 short
  intro accepted
  rcases accepted with ⟨_, _, size⟩ | ⟨i, _, _, _, _, end_⟩
  · rw [size] at huge
    bv_omega
  · bv_omega

theorem accepted_fits (layout : Layout hdrBuf m l) (sha1 : (header hdrBuf m).hasSha1 = true)
    (long : MODEM_SHA1_SIZE ≤ (header hdrBuf m).length.toNat)
    (fits : (header hdrBuf m).offset.toNat + MODEM_SHA1_SIZE < 0x100000000) :
    Accepted hdrBuf img m l := by
  have inside := layout.inside
  have upTo := layout.upTo
  refine Or.inr ⟨m, layout.from_, by omega, layout.isModemBin, ?_⟩
  rw [modemOffset_sha1 sha1, modemExeSize_long sha1 long, Nat.mod_eq_of_lt fits]
  omega

theorem accepted_wraps_iff (sha1 : (header hdrBuf m).hasSha1 = true)
    (long : MODEM_SHA1_SIZE ≤ (header hdrBuf m).length.toNat)
    (wraps : 0x100000000 ≤ (header hdrBuf m).offset.toNat + MODEM_SHA1_SIZE) :
    Accepted hdrBuf img m l ↔ Chance hdrBuf img m l := by
  have size := modemExeSize_long sha1 long
  have offset : (header hdrBuf m).modemOffset.toNat =
      (header hdrBuf m).offset.toNat + MODEM_SHA1_SIZE - 0x100000000 := by
    have bound := (header hdrBuf m).offset.isLt
    rw [modemOffset_sha1 sha1]
    unfold MODEM_SHA1_SIZE at *
    omega
  refine or_congr ?_ ?_
  · constructor
    · intro whole
      obtain ⟨zero, total, same⟩ := whole
      rw [zero] at offset
      rw [same] at size
      refine ⟨?_, ?_, total⟩
      · bv_omega
      · bv_omega
    · intro whole
      obtain ⟨start, length, total⟩ := whole
      refine ⟨?_, total, ?_⟩
      · exact BitVec.eq_of_toNat_eq (by rw [offset, start]; rfl)
      · bv_omega
  · constructor
    · intro block
      obtain ⟨i, from_, inside, bin, start, end_⟩ := block
      exact ⟨i, from_, inside, bin, by omega, by omega⟩
    · intro block
      obtain ⟨i, from_, inside, bin, start, end_⟩ := block
      exact ⟨i, from_, inside, bin, by omega, by omega⟩

theorem accepted_iff (layout : Layout hdrBuf m l) :
    Accepted hdrBuf img m l ↔ Room hdrBuf img m l := by
  cases sha1 : (header hdrBuf m).hasSha1 with
  | false =>
      constructor
      · intro _ digest
        exact absurd (sha1.symm.trans digest) Bool.false_ne_true
      · intro _
        exact Or.inr (inBlock_plain layout sha1)
  | true =>
      constructor
      · intro accepted _
        rcases Nat.lt_or_ge (header hdrBuf m).length.toNat MODEM_SHA1_SIZE with short | long
        · exact absurd accepted (accepted_short sha1 short)
        · rcases Nat.lt_or_ge ((header hdrBuf m).offset.toNat + MODEM_SHA1_SIZE) 0x100000000 with
            fits | wraps
          · exact ⟨long, Or.inl fits⟩
          · exact ⟨long, Or.inr ((accepted_wraps_iff sha1 long wraps).mp accepted)⟩
      · intro room
        obtain ⟨long, fits | chance⟩ := room sha1
        · exact accepted_fits layout sha1 long fits
        · rcases Nat.lt_or_ge ((header hdrBuf m).offset.toNat + MODEM_SHA1_SIZE) 0x100000000 with
            fits | wraps
          · exact accepted_fits layout sha1 long fits
          · exact (accepted_wraps_iff sha1 long wraps).mpr chance

/-- The headers of a SCI image give outputs that are all assigned and accepted. -/
theorem defined_sci_iff {file : Source} (got : file.got = some hdrBuf) :
    Defined file img (sciInfo hdrBuf) ↔
      ∃ m l, Layout hdrBuf m l ∧ Apart hdrBuf m l ∧ Room hdrBuf img m l := by
  have read : file.got.getD [] = hdrBuf := by rw [got]; rfl
  constructor
  · intro defined
    obtain ⟨sci, total, size, assigned, accepted⟩ := defined
    by_cases found : ∃ m l, Layout hdrBuf m l ∧ Apart hdrBuf m l
    · obtain ⟨m, l, layout, apart⟩ := found
      refine ⟨m, l, layout, apart, (accepted_iff layout).mp ?_⟩
      rw [sciInfo_apart layout apart] at assigned accepted
      obtain ⟨_, _, rfl, rfl⟩ := assigned
      rw [read] at accepted
      exact accepted
    · have none := sciInfo_totalLen fun m l layout apart => found ⟨m, l, layout, apart⟩
      rw [assigned] at none
      exact absurd none (Option.some_ne_none total)
  · intro found
    obtain ⟨m, l, layout, apart, room⟩ := found
    rw [sciInfo_apart layout apart]
    refine ⟨1, _, _, rfl, ?_⟩
    rw [read]
    exact (accepted_iff layout).mpr room

/-- The extent of an image is defined and contained exactly when its headers, if it has any,
    name a modem block up to a last header, and the block has room for its digest. -/
theorem defined_iff (w : World) (file : Source) (img : ImageLoad) (secureOffset : BitVec 32) :
    Defined (w.files img.pathR) img (w.value file (getModemImgInfo img secureOffset)) ↔
      ∀ hdrBuf, Sci (w.files img.pathR) img secureOffset hdrBuf →
        ∃ m l, Layout hdrBuf m l ∧ Apart hdrBuf m l ∧ Room hdrBuf img m l := by
  by_cases some : ∃ hdrBuf, Sci (w.files img.pathR) img secureOffset hdrBuf
  · obtain ⟨hdrBuf, sci⟩ := some
    rw [value_sci sci, defined_sci_iff sci.got]
    constructor
    · intro found hdrBuf' sci'
      rw [sci'.unique sci]
      exact found
    · intro every
      exact every hdrBuf sci
  · have not : ∀ hdrBuf, ¬ Sci (w.files img.pathR) img secureOffset hdrBuf := not_exists.mp some
    rw [value_whole not]
    constructor
    · intro _ hdrBuf sci
      exact absurd sci (not hdrBuf)
    · intro _
      exact defined_whole _ img

/-- `modem_get_patiton_info` passes on a size that was assigned then. -/
theorem value_modemGetPatitonInfo (w : World) (file : Source) (img : ImageLoad) :
    w.value file (modemGetPatitonInfo img) =
      ((w.value file (getModemImgInfo img 0)).offset,
        (w.value file (getModemImgInfo img 0)).modemExeSize.getD w.garbage) := by
  unfold modemGetPatitonInfo
  rw [World.value_bind, World.value_bind]
  cases (w.value file (getModemImgInfo img 0)).modemExeSize <;> rfl

/-- A SCI image whose headers are all zero. -/
def noHeaders : Bytes := MODEM_MAGIC ++ List.replicate 128 0

set_option maxRecDepth 4000 in
theorem sciInfo_noHeaders : sciInfo noHeaders = ⟨0, some 1, none, none⟩ := by
  decide +kernel

theorem length_noHeaders : noHeaders.length = HDR_NUM * HDR_SIZE := by
  rw [noHeaders, List.length_append, List.length_replicate]
  rfl

theorem noHeaders_sci : Sci (reading noHeaders) modemImg 0 noHeaders where
  modem := by decide
  opens := rfl
  moved := rfl
  got := rfl
  sized := length_noHeaders
  magic := rfl

/-- Neither length is assigned then, and what the variable held is passed on. -/
theorem noHeaders_undefined :
    ¬ Defined (reading noHeaders) modemImg
        ((World.reading noHeaders).value (reading []) (getModemImgInfo modemImg 0)) ∧
      ((World.reading noHeaders).holding 0xDEADBEEF).value (reading [])
        (modemGetPatitonInfo modemImg) = (0, 0xDEADBEEF) := by
  constructor
  · have value : (World.reading noHeaders).value (reading []) (getModemImgInfo modemImg 0) =
        sciInfo noHeaders := value_sci noHeaders_sci
    rw [value, sciInfo_noHeaders]
    intro defined
    obtain ⟨_, _, _, assigned, _⟩ := defined
    cases assigned
  · have value : ((World.reading noHeaders).holding 0xDEADBEEF).value (reading [])
        (getModemImgInfo modemImg 0) = sciInfo noHeaders := value_sci noHeaders_sci
    rw [value_modemGetPatitonInfo, value, sciInfo_noHeaders]
    rfl

end

end ModemControl.ImgInfo
