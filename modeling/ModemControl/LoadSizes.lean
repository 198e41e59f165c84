import ModemControl.Foundation.Layers
import ModemControl.ImgExtent

/-! # The sizes a load passes on

`load_img_from_table` down to the files of its images: the size that comes out of the
headers of a file, or of the table, and is passed to `modem_load_image` with a certificate
added to it.
-/

namespace ModemControl.LoadSizes

open Foundation Load ImgInfo

def MAX_CERT_SIZE : BitVec 64 := 4096
def AVB_CERT_SIZE : BitVec 64 := 8192
def BOOT_INFO_SIZE : BitVec 32 := 512
def VLR_INFO_SIZ : BitVec 32 := 512

def secureOffset (b : Build) (h : LoadFiles.ImgHeaders) (img : ImageLoad) : BitVec 32 :=
  if getFlag img.flag SECURE_FLAG then
    if b.secureBootEnable then BOOT_INFO_SIZE + VLR_INFO_SIZ
    else if b.sprdSecboot then BitVec.ofNat 32 h.sizeofSysImgHeader
    else 0
  else 0

/-- What is added to `load_size`. -/
def certSize (b : Build) (img : ImageLoad) : BitVec 64 :=
  if strstr img.pathR MODEM_BANK then
    if getFlag img.flag SECURE_FLAG then
      if b.sprdSecboot then MAX_CERT_SIZE
      else if b.vbootV2 then AVB_CERT_SIZE
      else 0
    else 0
  else 0

def secureBootGetPatitonInfo (b : Build) (h : LoadFiles.ImgHeaders) (img : ImageLoad) :
    ImgProg (BitVec 32 × BitVec 64) := do
  let info ← getModemImgInfo img (secureOffset b h img)
  let loadSize ← use info.modemExeSize
  return (info.offset + secureOffset b h img, loadSize + certSize b img)

/-- The verification in front of the load is left out. -/
def secureBootLoadImg (b : Build) (h : LoadFiles.ImgHeaders) (img : ImageLoad) : ImgProg Int := do
  let (loadOffset, loadSize) ← secureBootGetPatitonInfo b h img
  .call (.other (.modemLoadImage img loadOffset 0 (loadSize.setWidth 32))) .ret

/-- The calls of the loader, those that look at the file of an image down to its calls. -/
def imageCalls (b : Build) (h : LoadFiles.ImgHeaders) : (op : LoadOp) → ImgProg op.Res
  | .getPatitonInfo img => ImgInfo.modemGetPatitonInfo img
  | .secureBootLoadImg img => secureBootLoadImg b h img
  | op => .call (.other op) .ret

/-- The size of an image that is loaded is at most that of its entry. -/
def Within : ImgOp → Prop
  | .other (.modemLoadImage img _ _ size) => size ≤ img.size
  | _ => True

/-- All loads of a run are within their regions. -/
def Contained {α : Type} (w : World) (file : Source) (p : ImgProg α) : Prop :=
  ∀ e ∈ (p.run w.answer file).1, Within e.op

section

variable {w : World} {file : Source} {b : Build} {h : LoadFiles.ImgHeaders} {img : ImageLoad}

theorem contained_bind {α β : Type} (p : ImgProg α) (f : α → ImgProg β) :
    Contained w file (p >>= f) ↔
      Contained w file p ∧ Contained w (w.after file p) (f (w.value file p)) := by
  unfold Contained World.value World.after
  rw [Prog.run_bind]
  exact List.forall_mem_append

theorem contained_call (op : ImgOp) : Contained w file (.call op .ret) ↔ Within op :=
  List.forall_mem_singleton

theorem contained_quiet {α : Type} {p : ImgProg α} (calls : Prog.Calls Within p) :
    Contained w file p :=
  Prog.run_allowed calls file

theorem getModemImgInfo_quiet (secureOffset : BitVec 32) :
    Prog.Calls Within (getModemImgInfo img secureOffset) := by
  unfold getModemImgInfo
  split
  · refine Prog.Calls.call trivial fun opened => ?_
    split
    · refine Prog.Calls.call trivial fun moved => ?_
      split
      · exact Prog.Calls.call trivial fun _ => trivial
      · exact Prog.Calls.call trivial fun got => Prog.Calls.call trivial fun _ => trivial
    · trivial
  · trivial

theorem use_quiet (var : Option (BitVec 64)) : Prog.Calls Within (use var) := by
  cases var with
  | none => exact ⟨trivial, fun _ => trivial⟩
  | some value => trivial

theorem modemGetPatitonInfo_quiet : Prog.Calls Within (ImgInfo.modemGetPatitonInfo img) :=
  (getModemImgInfo_quiet 0).bind fun info => (use_quiet info.modemExeSize).bind fun _ => trivial

theorem secureBootGetPatitonInfo_quiet : Prog.Calls Within (secureBootGetPatitonInfo b h img) :=
  (getModemImgInfo_quiet _).bind fun info => (use_quiet info.modemExeSize).bind fun _ => trivial

/-- Which file was open before does not matter. -/
theorem value_getModemImgInfo_file (file' : Source) (secureOffset : BitVec 32) :
    w.value file (getModemImgInfo img secureOffset) =
      w.value file' (getModemImgInfo img secureOffset) := by
  rw [value_getModemImgInfo, value_getModemImgInfo]

end

/-- The size that is passed on for an entry. -/
def passed (w : World) (b : Build) (img : ImageLoad) : BitVec 32 :=
  (((w.value (w.files img.pathR) (getModemImgInfo img 0)).modemExeSize.getD w.garbage) +
    certSize b img).setWidth 32

section

variable {w : World} {file : Source} {b : Build} {h : LoadFiles.ImgHeaders} {img : ImageLoad}

theorem value_modemGetPatitonInfo_size :
    (w.value file (ImgInfo.modemGetPatitonInfo img)).2 =
      (w.value (w.files img.pathR) (getModemImgInfo img 0)).modemExeSize.getD w.garbage := by
  rw [value_modemGetPatitonInfo, value_getModemImgInfo_file (w.files img.pathR)]

/-- Without a header that is verified in front of the image. -/
theorem secureOffset_zero (noSecureBoot : b.secureBootEnable = false)
    (noSecboot : b.sprdSecboot = false) : secureOffset b h img = 0 := by
  unfold secureOffset
  rw [noSecureBoot, noSecboot]
  exact ite_self _

theorem value_secureBootGetPatitonInfo_size (noSecureBoot : b.secureBootEnable = false)
    (noSecboot : b.sprdSecboot = false) :
    (w.value file (secureBootGetPatitonInfo b h img)).2.setWidth 32 = passed w b img := by
  unfold secureBootGetPatitonInfo passed
  rw [World.value_bind, World.value_bind, secureOffset_zero noSecureBoot noSecboot,
    value_getModemImgInfo_file (w.files img.pathR)]
  cases (w.value (w.files img.pathR) (getModemImgInfo img 0)).modemExeSize <;> rfl

/-- The load through `secure_boot_load_img`. -/
theorem contained_secureBootLoadImg (noSecureBoot : b.secureBootEnable = false)
    (noSecboot : b.sprdSecboot = false) :
    Contained w file (secureBootLoadImg b h img) ↔ passed w b img ≤ img.size := by
  unfold secureBootLoadImg
  rw [contained_bind, ← value_secureBootGetPatitonInfo_size noSecureBoot noSecboot]
  constructor
  · intro both
    exact (contained_call _).mp both.2
  · intro within
    exact ⟨contained_quiet secureBootGetPatitonInfo_quiet, (contained_call _).mpr within⟩

/-- The load without it. -/
theorem contained_plain (plain : certSize b img = 0) :
    Contained w file (ImgInfo.modemGetPatitonInfo img >>= fun extent =>
      Prog.call (.other (.modemLoadImage img extent.1 0 (extent.2.setWidth 32))) .ret) ↔
      passed w b img ≤ img.size := by
  have size : passed w b img = (w.value file (ImgInfo.modemGetPatitonInfo img)).2.setWidth 32 := by
    rw [value_modemGetPatitonInfo_size, passed, plain]
    exact congrArg (BitVec.setWidth 32) (BitVec.add_zero _)
  rw [contained_bind, size]
  constructor
  · intro both
    exact (contained_call _).mp both.2
  · intro within
    exact ⟨contained_quiet modemGetPatitonInfo_quiet, (contained_call _).mpr within⟩

theorem certSize_plain (noSecboot : b.sprdSecboot = false)
    (plain : (b.vbootV2 && getFlag img.flag SECURE_FLAG) = false) : certSize b img = 0 := by
  unfold certSize
  rw [noSecboot]
  cases vboot : b.vbootV2 with
  | false => simp
  | true =>
      rw [vboot, Bool.true_and] at plain
      simp [plain]

/-- The calls in front of the load of an entry. -/
theorem contained_setRegion (load : LoadValue) (i : Nat) :
    Contained w file ((Prog.when load.ioctrlIsOk do
      let _ ← modemSetWriteRegion load.ioCtrl i).interp (imageCalls b h)) := by
  rw [Prog.interp_when]
  exact contained_quiet (Prog.Calls.when _ ⟨trivial, fun _ => trivial⟩)

/-- An entry that is not loaded as an image. -/
theorem contained_special (load : LoadValue) (i : Nat) (skipped : special img = true) :
    Contained w file ((loadEntry b load i img).interp (imageCalls b h)) := by
  unfold loadEntry
  rw [Prog.interp_bind, contained_bind]
  refine ⟨contained_setRegion load i, ?_⟩
  simp only [Prog.interp_ite]
  unfold special at skipped
  split
  · exact contained_quiet ⟨trivial, fun _ => trivial⟩
  · split
    · exact contained_quiet ⟨trivial, fun _ => trivial⟩
    · split
      · exact contained_quiet ⟨trivial, fun _ => trivial⟩
      · rename_i cmdline nv bootCode
        rw [Bool.not_eq_true] at cmdline nv bootCode
        rw [cmdline, nv, bootCode] at skipped
        exact absurd skipped Bool.false_ne_true

/-- An entry that is. -/
theorem contained_image (noSecureBoot : b.secureBootEnable = false)
    (noSecboot : b.sprdSecboot = false) (load : LoadValue) (i : Nat) (image : special img = false) :
    Contained w file ((loadEntry b load i img).interp (imageCalls b h)) ↔
      passed w b img ≤ img.size := by
  have secure : b.secure = b.vbootV2 := by
    rw [Build.secure, noSecureBoot, noSecboot, Bool.false_or, Bool.false_or]
  unfold special at image
  rw [Bool.or_eq_false_iff, Bool.or_eq_false_iff] at image
  obtain ⟨⟨cmdline, nv⟩, bootCode⟩ := image
  unfold loadEntry
  rw [Prog.interp_bind, contained_bind, and_iff_right (contained_setRegion load i)]
  generalize w.after file _ = file
  simp only [Prog.interp_ite]
  rw [cmdline, nv, bootCode, secure]
  cases verified : b.vbootV2 && getFlag img.flag SECURE_FLAG with
  | true =>
      have direct : (secureBootLoadImg b h img >>= Prog.ret) = secureBootLoadImg b h img :=
        Prog.bind_ret _
      rw [← contained_secureBootLoadImg noSecureBoot noSecboot, ← direct]
      rfl
  | false => exact contained_plain (certSize_plain noSecboot verified)

/-- The whole table. -/
theorem contained_loadEntries (noSecureBoot : b.secureBootEnable = false)
    (noSecboot : b.sprdSecboot = false) (load : LoadValue) (loadFlag skipFlag : BitVec 32)
    (entries : List ImageLoad) (i : Nat) (ret : Int) :
    Contained w file
        ((loadEntries b load loadFlag skipFlag entries i ret).interp (imageCalls b h)) ↔
      ∀ img ∈ entries, counted loadFlag skipFlag img = true → passed w b img ≤ img.size := by
  induction entries generalizing file i ret with
  | nil => exact iff_of_true (contained_quiet trivial) (fun img member => absurd member List.not_mem_nil)
  | cons img rest ih =>
      rw [loadEntries, List.forall_mem_cons]
      cases chosen : selected loadFlag skipFlag img with
      | false =>
          have out : counted loadFlag skipFlag img = false := by rw [counted, chosen, Bool.false_and]
          rw [if_neg Bool.false_ne_true, ih, out, and_iff_right (fun never => absurd never Bool.false_ne_true)]
      | true =>
          have out : counted loadFlag skipFlag img = !special img := by
            rw [counted, chosen, Bool.true_and]
          rw [if_pos rfl, Prog.interp_bind, contained_bind, ih, out]
          refine and_congr_left fun _ => ?_
          cases skipped : special img with
          | false =>
              rw [contained_image noSecureBoot noSecboot load i skipped]
              exact ⟨fun within _ => within, fun within => within rfl⟩
          | true =>
              exact iff_of_true (contained_special load i skipped)
                fun never => absurd never Bool.false_ne_true

end

/-- The certificate that is added, in the width of what is passed on. -/
def certificate (b : Build) (img : ImageLoad) : BitVec 32 := (certSize b img).setWidth 32

/-- The length of the last modem header behind its digest, with the certificate. -/
def blockSize (b : Build) (img : ImageLoad) (h : DataBlockHeader) : BitVec 32 :=
  h.length - BitVec.ofNat 32 (digestSize h) + certificate b img

/-- A SCI image names a block that fits with its certificate, or no block of a region that
    takes up all there is. Of any other image it is the certificate alone that goes beyond
    the region, unless the sum wraps. -/
structure Fits (b : Build) (file : Source) (img : ImageLoad) : Prop where
  block : ∀ hdrBuf m, Sci file img 0 hdrBuf → LastBin hdrBuf m →
    blockSize b img (header hdrBuf m) ≤ img.size
  noBlock : ∀ hdrBuf, Sci file img 0 hdrBuf → (∀ m, ¬ LastBin hdrBuf m) → img.size = -1
  whole : (∀ hdrBuf, ¬ Sci file img 0 hdrBuf) →
    certSize b img = 0 ∨ 0x100000000 ≤ img.size.toNat + (certSize b img).toNat

section

variable {b : Build} {img : ImageLoad} {hdrBuf : Bytes} {m : Nat}

theorem certSize_cases (noSecboot : b.sprdSecboot = false) :
    certSize b img = 0 ∨ certSize b img = AVB_CERT_SIZE := by
  unfold certSize
  rw [noSecboot]
  cases strstr img.pathR MODEM_BANK <;> cases getFlag img.flag SECURE_FLAG <;>
    cases b.vbootV2 <;> simp

theorem passed_sci (w : World) (sci : Sci (w.files img.pathR) img 0 hdrBuf) :
    passed w b img =
      ((scanned hdrBuf).modemExeSize.getD w.garbage).setWidth 32 + certificate b img := by
  rw [passed, value_sci sci, sciInfo_modemExeSize, BitVec.setWidth_add _ _ (by decide)]
  rfl

theorem modemExeSize_setWidth (h : DataBlockHeader) :
    h.modemExeSize.setWidth 32 = h.length - BitVec.ofNat 32 (digestSize h) := by
  unfold DataBlockHeader.modemExeSize digestSize
  split
  · unfold MODEM_SHA1_SIZE
    bv_omega
  · bv_omega

theorem passed_block (w : World) (sci : Sci (w.files img.pathR) img 0 hdrBuf) (last : LastBin hdrBuf m) :
    passed w b img = blockSize b img (header hdrBuf m) := by
  rw [passed_sci w sci]
  rcases scanned_modemExeSize hdrBuf with ⟨m', last', size⟩ | ⟨none, _⟩
  · rw [size, lastBin_unique last' last, Option.getD_some, modemExeSize_setWidth]
    rfl
  · exact absurd last (none m)

theorem passed_noBlock (w : World) (garbage : BitVec 64)
    (sci : Sci (w.files img.pathR) img 0 hdrBuf) (not : ∀ m, ¬ LastBin hdrBuf m) :
    passed (w.holding garbage) b img = garbage.setWidth 32 + certificate b img := by
  rw [passed_sci (w.holding garbage) sci]
  rcases scanned_modemExeSize hdrBuf with ⟨m, last, _⟩ | ⟨_, size⟩
  · exact absurd last (not m)
  · rw [size, Option.getD_none]
    rfl

theorem passed_whole (w : World) (not : ∀ hdrBuf, ¬ Sci (w.files img.pathR) img 0 hdrBuf) :
    passed w b img = img.size + certificate b img := by
  rw [passed, value_whole not, wholeImage, Option.getD_some, BitVec.setWidth_add _ _ (by decide)]
  have same : (img.size.setWidth 64).setWidth 32 = img.size := by bv_omega
  rw [same]
  rfl

theorem whole_le_iff (noSecboot : b.sprdSecboot = false) :
    img.size + certificate b img ≤ img.size ↔
      certSize b img = 0 ∨ 0x100000000 ≤ img.size.toNat + (certSize b img).toNat := by
  unfold certificate
  have either : certSize b img = 0 ∨ certSize b img = AVB_CERT_SIZE := certSize_cases noSecboot
  rcases either with zero | avb
  · rw [zero]
    exact iff_of_true (by bv_omega) (Or.inl rfl)
  · rw [avb]
    simp only [AVB_CERT_SIZE]
    bv_omega

theorem eq_of_largest_le {c size : BitVec 32}
    (within : ((-1 - c).setWidth 64).setWidth 32 + c ≤ size) : size = -1 := by
  have same : ((-1 - c).setWidth 64).setWidth 32 = -1 - c := by bv_omega
  rw [same] at within
  bv_omega

/-- Whatever an unassigned variable holds, the size passed on is in the region. -/
theorem passed_le_iff (noSecboot : b.sprdSecboot = false) (w : World) (img : ImageLoad) :
    (∀ garbage, passed (w.holding garbage) b img ≤ img.size) ↔ Fits b (w.files img.pathR) img := by
  constructor
  · intro every
    constructor
    · intro hdrBuf m sci last
      have within := every 0
      rw [passed_block (w.holding 0) sci last] at within
      exact within
    · intro hdrBuf sci not
      -- the value that makes the sum as large as it can be
      have within := every ((-1 - certificate b img).setWidth 64)
      rw [passed_noBlock w _ sci not] at within
      exact eq_of_largest_le within
    · intro not
      have within := every 0
      rw [passed_whole (w.holding 0) not] at within
      exact (whole_le_iff noSecboot).mp within
  · intro fits garbage
    by_cases some : ∃ hdrBuf, Sci (w.files img.pathR) img 0 hdrBuf
    · obtain ⟨hdrBuf, sci⟩ := some
      by_cases found : ∃ m, LastBin hdrBuf m
      · obtain ⟨m, last⟩ := found
        rw [passed_block (w.holding garbage) sci last]
        exact fits.block hdrBuf m sci last
      · rw [fits.noBlock hdrBuf sci (not_exists.mp found)]
        bv_omega
    · have not := not_exists.mp some
      rw [passed_whole (w.holding garbage) not]
      exact (whole_le_iff noSecboot).mpr (fits.whole not)

/-- The loads of a plain build, and of one with CONFIG_VBOOT_V2, stay within their regions
    exactly when what the files say fits. -/
theorem loads_contained_iff (noSecureBoot : b.secureBootEnable = false)
    (noSecboot : b.sprdSecboot = false) (h : LoadFiles.ImgHeaders) (load : LoadValue)
    (loadFlag skipFlag : BitVec 32) (w : World) (file : Source) :
    (∀ garbage, Contained (w.holding garbage) file
        ((loadImgFromTable b load loadFlag skipFlag).interp (imageCalls b h))) ↔
      ∀ img ∈ load.loadTable, counted loadFlag skipFlag img = true →
        Fits b (w.files img.pathR) img := by
  unfold loadImgFromTable
  constructor
  · intro every img member loaded
    refine (passed_le_iff noSecboot w img).mp ?_
    intro garbage
    exact (contained_loadEntries noSecureBoot noSecboot load loadFlag skipFlag _ 0 0).mp
      (every garbage) img member loaded
  · intro fits garbage
    refine (contained_loadEntries noSecureBoot noSecboot load loadFlag skipFlag _ 0 0).mpr ?_
    intro img member loaded
    exact (passed_le_iff noSecboot w img).mpr (fits img member loaded) garbage

end

def vbootBuild : Build := { vbootV2 := true }

def noImgHeaders : LoadFiles.ImgHeaders := ⟨0, fun _ => ⟨0, 0, 0⟩, 0⟩

/-- One image of a modem, verified where the build does so. -/
def securedImg (size : BitVec 32) : ImageLoad :=
  ⟨bytes "/proc/cptl/modem", bytes "/dev/modem", bytes "modem", 0, size, 1⟩

def securedLoad (size : BitVec 32) : LoadValue := { loadTable := [securedImg size] }

theorem oneBlock_fits : Fits vbootBuild (reading (oneBlock 0)) (securedImg 0x10000) := by
  have sci : Sci (reading (oneBlock 0)) (securedImg 0x10000) 0 (oneBlock 0) :=
    ⟨by decide, rfl, rfl, rfl, length_oneBlock 0, rfl⟩
  have found : LastBin (oneBlock 0) 1 := by
    have layout := oneBlock_layout 0
    refine ⟨⟨Nat.le_refl 1, layout.inside, layout.first⟩, layout.isModemBin, ?_⟩
    intro j behind reached
    exact absurd ((reached.open_ 1 (Nat.le_refl 1) behind).symm.trans layout.isLast)
      Bool.false_ne_true
  constructor
  · intro hdrBuf m sci' last
    obtain rfl := sci'.unique sci
    obtain rfl := lastBin_unique last found
    rw [header_oneBlock]
    decide
  · intro hdrBuf sci' not
    obtain rfl := sci'.unique sci
    exact absurd found (not 1)
  · intro not
    exact absurd sci (not _)

theorem loads_contained_oneBlock :
    Contained ((World.reading (oneBlock 0)).holding 0xDEADBEEF) (reading [])
      ((loadImgFromTable vbootBuild (securedLoad 0x10000) 1 0).interp
        (imageCalls vbootBuild noImgHeaders)) := by
  have fits : ∀ img ∈ (securedLoad 0x10000).loadTable, counted 1 0 img = true →
      Fits vbootBuild ((World.reading (oneBlock 0)).files img.pathR) img := by
    intro img member _
    obtain rfl := List.mem_singleton.mp member
    exact oneBlock_fits
  exact (loads_contained_iff rfl rfl noImgHeaders (securedLoad 0x10000) 1 0
    (World.reading (oneBlock 0)) (reading [])).mpr fits 0xDEADBEEF

/-- A modem image that is no SCI image is loaded with a certificate behind a region it
    already fills, and a plain build takes the length in a header for granted. -/
theorem loads_beyond_region :
    ¬ Contained (World.reading []) (reading [])
        ((loadImgFromTable vbootBuild (securedLoad 0x1000) 1 0).interp
          (imageCalls vbootBuild noImgHeaders)) ∧
      ¬ Contained (World.reading (oneBlock 0)) (reading [])
        ((loadImgFromTable {} (securedLoad 512) 1 0).interp (imageCalls {} noImgHeaders)) := by
  constructor
  · intro contained
    have within := (contained_loadEntries rfl rfl (securedLoad 0x1000) 1 0 _ 0 0).mp contained
      (securedImg 0x1000) List.mem_cons_self (by decide)
    exact absurd within (by decide +kernel)
  · intro contained
    have within := (contained_loadEntries rfl rfl (securedLoad 512) 1 0 _ 0 0).mp contained
      (securedImg 512) List.mem_cons_self (by decide)
    exact absurd within (by decide +kernel)

end ModemControl.LoadSizes
