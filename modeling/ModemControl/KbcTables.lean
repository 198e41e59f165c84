import ModemControl.LoadVerify
import ModemControl.VerifyTable

/-! # What is handed over for verification

`secure_boot_load_img` notes every secure image in `kbc_table`: the partition it comes from,
the footer found there, and where it was written to. The table is handed to the trusted
application for the ddr to be unlocked and for the verification, behind which it is zeroed.
A load of the internal variant is framed by these two calls.
-/

namespace ModemControl.KbcTables

open Foundation ListenModem VerifyTable
open Load (Build ImageLoad LoadInfo LoadOp LoadProg LoadValue Outcomes anyBit secured selected
  special getFlag requested securePass)
open LoadCalls (handler present)

/-- `KBC_IMAGE_S`. -/
structure Record extends KbcImage where
  partition : Bytes := []
  footer : Bytes
  deriving DecidableEq

/-- `KBC_LOAD_TABLE_S`. -/
structure Table where
  images : Slot → Record
  flag : BitVec 32 := 0
  packedOffset : BitVec 32 := 0

/-- What the files of the images give while a load runs: the bytes that are read of a footer,
    and the offset of the image that `secure_boot_get_patiton_info` finds. -/
structure Files where
  footer : Bytes → Bytes
  loadOffset : ImageLoad → BitVec 32

/-- The name behind the last '/' of a path. -/
def parseFileName (pathName : Bytes) : Option Bytes :=
  if 47 ∈ pathName then some (pathName.reverse.takeWhile (· != 47)).reverse else none

/-- A table that is zero, with footers of `AVB_FOOTER_SIZE` bytes. -/
def zero (footerSize : Nat) : Table := { images := fun _ => { footer := .replicate footerSize 0 } }

def Table.set (t : Table) (slot : Slot) (r : Record) : Table :=
  { t with images := Function.update t.images slot r }

/-- What is read of a footer overwrites what was there. -/
def Record.from (r : Record) (f : Files) (fin partition : Bytes) : Record :=
  { r with partition := partition, footer := f.footer fin ++ r.footer.drop (f.footer fin).length }

/-- Its tests of the name are those of `fill_verify_table`. -/
def getImageFooterByname (v : Verify) (f : Files) (name fin : Bytes) (table : Table) : Table :=
  match slotOf v name with
  | none => table
  | some slot =>
      match parseFileName fin with
      | none => table
      | some partition => table.set slot ((table.images slot).from f fin partition)

def fillVerifyTable (v : Verify) (size : BitVec 32) (addr : BitVec 64) (name : Bytes)
    (maplen : BitVec 32) (table : Table) : Table :=
  match slotOf v name with
  | none => table
  | some slot =>
      table.set slot { table.images slot with imgLen := size, imgAddr := addr, mapLen := maplen }

/-- `secure_boot_load_img` with CONFIG_VBOOT_V2, as far as it writes the table. -/
def secureBootLoadImg (v : Verify) (f : Files) (table : Table) (img : ImageLoad) : Table :=
  let table := getImageFooterByname v f img.pathW img.pathR table
  let table := fillVerifyTable v img.size img.addr img.pathW img.size table
  if f.loadOffset img ≠ 0 then { table with packedOffset := f.loadOffset img } else table

/-- `kernel_bootcp_unlock_ddr` and `kernel_bootcp_verify_all`. -/
inductive Request where
  | unlockDdr
  | verifyAll
  deriving Repr, DecidableEq

structure State where
  table : Table
  /-- What the trusted application was handed. -/
  handed : List (Request × Table) := []

/-- What the calls of the loader do to the table. A verification that fails never returns. -/
def kbc (footerSize : Nat) (v : Verify) (f : Files) : Monitor LoadOp LoadOp.Res State where
  next s op _ :=
    match op with
    | .secureBootLoadImg img => { s with table := secureBootLoadImg v f s.table img }
    | .secureBootSetFlag loadType => { s with table := { s.table with flag := loadType } }
    | .secureBootUnlockDdr => { s with handed := s.handed ++ [(.unlockDdr, s.table)] }
    | .secureBootVerifyAll =>
        { table := zero footerSize, handed := s.handed ++ [(.verifyAll, s.table)] }
    | _ => s
  ok _ _ := True

/-- A call of `load_modem_img`, with what the files hold then and what becomes of its calls. -/
structure LoadRun where
  loadType : BitVec 32
  files : Files
  outcomes : Outcomes

/-- `load_modem_img`, with the functions it calls in place. -/
def loadModemImg (v : Variant) (b : Build) (m : LoadInfo) (loadType : BitVec 32) : LoadProg Int :=
  (LoadCalls.loadModemImg v b m loadType).interp (handler v b m)

/-- The builds with CONFIG_VBOOT_V2 and neither of the options that go before it. -/
def vboot (removeSprdModem pcieRescan : Bool) : Build :=
  { removeSprdModem := removeSprdModem, pcieRescan := pcieRescan, vbootV2 := true }

/-- The state after a number of loads. -/
def afterLoads (footerSize : Nat) (o : Verify) (v : Variant) (b : Build) (m : LoadInfo) :
    State → List LoadRun → State
  | s, [] => s
  | s, run :: rest =>
      afterLoads footerSize o v b m ((kbc footerSize o run.files).after s
        (Load.trace (loadModemImg v b m run.loadType) run.outcomes)) rest

/-- What an image leaves in its slot. -/
def noted (f : Files) (r : Record) (img : ImageLoad) : Record :=
  let r := match parseFileName img.pathR with
    | some partition => r.from f img.pathR partition
    | none => r
  { r with imgLen := img.size, imgAddr := img.addr, mapLen := img.size }

def packed (f : Files) (offset : BitVec 32) (img : ImageLoad) : BitVec 32 :=
  if f.loadOffset img ≠ 0 then f.loadOffset img else offset

theorem Table.ext {t t' : Table} (images : ∀ slot, t.images slot = t'.images slot)
    (flag : t.flag = t'.flag) (offset : t.packedOffset = t'.packedOffset) : t = t' := by
  obtain ⟨_, _, _⟩ := t
  obtain ⟨_, _, _⟩ := t'
  obtain rfl := funext images
  obtain rfl := flag
  obtain rfl := offset
  rfl

/-- An image goes to the slot that its path names, whole. -/
theorem load_images (v : Verify) (f : Files) (t : Table) (img : ImageLoad) (slot : Slot) :
    (secureBootLoadImg v f t img).images slot =
      if slotOf v img.pathW = some slot then noted f (t.images slot) img else t.images slot := by
  have rest (t : Table) : (if f.loadOffset img ≠ 0 then
      { t with packedOffset := f.loadOffset img } else t).images = t.images := by
    split <;> rfl
  simp only [secureBootLoadImg, rest]
  cases target : slotOf v img.pathW with
  | none => simp [fillVerifyTable, getImageFooterByname, target]
  | some slot' =>
      cases parsed : parseFileName img.pathR with
      | none =>
          simp only [fillVerifyTable, getImageFooterByname, target, parsed, Table.set, noted,
            Function.update_apply, Option.some.injEq]
          grind
      | some partition =>
          simp only [fillVerifyTable, getImageFooterByname, target, parsed, Table.set, noted,
            Function.update_apply, Option.some.injEq]
          grind

theorem load_flag (v : Verify) (f : Files) (t : Table) (img : ImageLoad) :
    (secureBootLoadImg v f t img).flag = t.flag := by
  unfold secureBootLoadImg fillVerifyTable getImageFooterByname
  dsimp only
  repeat' split
  all_goals rfl

theorem load_offset (v : Verify) (f : Files) (t : Table) (img : ImageLoad) :
    (secureBootLoadImg v f t img).packedOffset = packed f t.packedOffset img := by
  unfold secureBootLoadImg fillVerifyTable getImageFooterByname packed
  dsimp only
  repeat' split
  all_goals rfl

/-- What a number of images makes of a table: in each slot stands what the images that go
    there have left, one after the other. -/
def fill (v : Verify) (f : Files) (t : Table) (imgs : List ImageLoad) : Table where
  images slot := (imgs.filter fun img => slotOf v img.pathW = some slot).foldl (noted f) (t.images slot)
  flag := t.flag
  packedOffset := imgs.foldl (packed f) t.packedOffset

theorem fill_eq (v : Verify) (f : Files) (t : Table) (imgs : List ImageLoad) :
    imgs.foldl (secureBootLoadImg v f) t = fill v f t imgs := by
  induction imgs generalizing t with
  | nil => rfl
  | cons img rest ih =>
      rw [List.foldl_cons, ih]
      apply Table.ext
      · intro slot
        simp only [fill, load_images, List.filter_cons, decide_eq_true_eq]
        split <;> rfl
      · exact load_flag v f t img
      · simp only [fill, load_offset, List.foldl_cons]

section Load

variable {footerSize : Nat} {o : Verify} {f : Files}

/-- Calls that have nothing to do with the table. -/
def Aside (op : LoadOp) : Prop := ∀ (s : State) r, (kbc footerSize o f).next s op r = s

theorem meets_aside {α : Type} {p : LoadProg α} (s : State)
    (calls : p.Calls (@Aside footerSize o f)) :
    p.Meets (kbc footerSize o f) (fun _ s' => s' = s) s := by
  apply Prog.Calls.meets_same
  exact calls.mono fun op aside => ⟨trivial, fun r => aside s r⟩

theorem aside_when_run (bRun : Bool) (load : LoadValue) (c : Bool) :
    (Prog.when c (Load.modemLoadRun bRun load)).Calls (@Aside footerSize o f) := by
  apply Prog.Calls.when
  unfold Load.modemLoadRun
  dsimp only
  split
  · split
    · exact ⟨fun _ _ => rfl, fun _ => ⟨fun _ _ => rfl, fun _ => trivial⟩⟩
    · exact ⟨fun _ _ => rfl, fun _ => ⟨fun _ _ => rfl, fun _ => trivial⟩⟩
  · exact Prog.Calls.when _ ⟨fun _ _ => rfl, fun _ => trivial⟩

theorem aside_run (bRun : Bool) (m : LoadInfo) (loadType : BitVec 32) :
    (LoadCalls.modemLoadRunInternal bRun m loadType).Calls (@Aside footerSize o f) :=
  (aside_when_run bRun m.sp _).bind fun _ => aside_when_run bRun m.cp _

/-- An entry is noted if it is loaded as a secure image. -/
theorem meets_entry (b : Build) (load : LoadValue) (i : Nat) (img : ImageLoad) (s : State) :
    (Load.loadEntry b load i img).Meets (kbc footerSize o f)
      (fun _ s' => s' = if secured b img then
        { s with table := secureBootLoadImg o f s.table img } else s) s := by
  have region : (Prog.when load.ioctrlIsOk do
      let _ ← Load.modemSetWriteRegion load.ioCtrl i).Calls (@Aside footerSize o f) :=
    Prog.Calls.when _ ⟨fun _ _ => rfl, fun _ => trivial⟩
  apply (meets_aside s region).bind
  rintro _ _ rfl
  cases cmdline : getFlag img.flag Load.CMDLINE_FLAG with
  | true =>
      have plain : secured b img = false := by simp [secured, special, cmdline]
      rw [plain]
      exact ⟨trivial, fun _ => rfl⟩
  | false =>
      cases nv : getFlag img.flag Load.NV_FLAG with
      | true =>
          have plain : secured b img = false := by simp [secured, special, nv]
          rw [plain]
          exact ⟨trivial, fun _ => rfl⟩
      | false =>
          cases boot : getFlag img.flag Load.BOOT_CODE with
          | true =>
              have plain : secured b img = false := by simp [secured, special, boot]
              rw [plain]
              exact ⟨trivial, fun _ => rfl⟩
          | false =>
              have same : secured b img = (b.secure && getFlag img.flag Load.SECURE_FLAG) := by
                simp [secured, special, cmdline, nv, boot]
              rw [same]
              cases b.secure && getFlag img.flag Load.SECURE_FLAG with
              | true => exact ⟨trivial, fun _ => rfl⟩
              | false => exact ⟨trivial, fun _ => ⟨trivial, fun _ => rfl⟩⟩

/-- A pass notes its secure images, in order. -/
theorem meets_pass (b : Build) (load : LoadValue) (loadFlag skipFlag : BitVec 32) (s : State) :
    (Load.loadImgFromTable b load loadFlag skipFlag).Meets (kbc footerSize o f)
      (fun _ s' => s' = { s with table := fill o f s.table (securePass b load loadFlag skipFlag) })
      s := by
  have entries (imgs : List ImageLoad) (i : Nat) (ret : Int) (s : State) :
      (Load.loadEntries b load loadFlag skipFlag imgs i ret).Meets (kbc footerSize o f)
        (fun _ s' => s' = { s with
          table := fill o f s.table ((imgs.filter (selected loadFlag skipFlag)).filter (secured b)) })
        s := by
    induction imgs generalizing i ret s with
    | nil => rfl
    | cons img imgs ih =>
        rw [Load.loadEntries]
        cases chosen : selected loadFlag skipFlag img with
        | false => simpa [chosen] using ih (i + 1) ret s
        | true =>
            rw [if_pos rfl, List.filter_cons_of_pos chosen]
            apply (meets_entry b load i img s).bind
            rintro r _ rfl
            cases secure : secured b img with
            | true =>
                simpa [secure, ← fill_eq] using
                  ih (i + 1) (ret + r) { s with table := secureBootLoadImg o f s.table img }
            | false => simpa [secure] using ih (i + 1) (ret + r) s
  exact entries load.loadTable 0 0 s

/-- The secure images of a subsystem that is asked for and there. -/
def loaded (b : Build) (m : LoadInfo) (loadType : BitVec 32) : List ImageLoad :=
  (if anyBit loadType Load.LOAD_SP_IMG && present m.sp then
    securePass b m.sp Load.SP_IMG_FLAG Load.NONE_IMAG_FLAG else []) ++
  (if anyBit loadType Load.LOAD_MODEM_IMG && present m.cp then
    securePass b m.cp Load.MODEM_IMG_FLAG Load.NONE_IMAG_FLAG else [])

/-- What a load hands over: the table with its mask alone, and the table with its images. -/
def requests (footerSize : Nat) (o : Verify) (b : Build) (m : LoadInfo) (run : LoadRun) :
    List (Request × Table) :=
  let start := { zero footerSize with flag := requested b run.loadType }
  [(.unlockDdr, start), (.verifyAll, fill o run.files start (loaded b m (requested b run.loadType)))]

/-- A subsystem whose pass is made under two conditions. -/
theorem meets_asked (b : Build) (load : LoadValue) (loadFlag : BitVec 32) (asked there : Bool)
    (s : State) :
    (Prog.when asked (Prog.when there do
      let _ ← Load.loadImgFromTable b load loadFlag Load.NONE_IMAG_FLAG)).Meets (kbc footerSize o f)
      (fun _ s' => s' = { s with
        table := fill o f s.table
          (if asked && there then securePass b load loadFlag Load.NONE_IMAG_FLAG else []) }) s := by
  cases asked with
  | false => rfl
  | true =>
      cases there with
      | false => rfl
      | true =>
          apply (meets_pass b load loadFlag Load.NONE_IMAG_FLAG s).bind
          rintro _ _ rfl
          rfl

theorem fill_append (v : Verify) (f : Files) (t : Table) (one two : List ImageLoad) :
    fill v f (fill v f t one) two = fill v f t (one ++ two) := by
  rw [← fill_eq, ← fill_eq, ← fill_eq, List.foldl_append]

theorem meets_load {b : Build} (vboot : b.vbootV2 = true) (m : LoadInfo) (run : LoadRun)
    (done : List (Request × Table)) :
    (loadModemImg .internal b m run.loadType).Meets (kbc footerSize o run.files)
      (fun _ s' => s' = ⟨zero footerSize, done ++ requests footerSize o b m run⟩)
      ⟨zero footerSize, done⟩ := by
  have secure : b.secure = true := by rw [Load.Build.secure, vboot, Bool.or_true]
  have runs (bRun : Bool) (t : BitVec 32) (s : State) :
      (LoadCalls.modemLoadRunInternal bRun m t).Meets (kbc footerSize o run.files)
        (fun _ s' => s' = s) s :=
    meets_aside s (aside_run bRun m t)
  have stop (t : BitVec 32) : (LoadCalls.modemLoadStop t).interp (handler .internal b m) =
    LoadCalls.modemLoadRunInternal false m t := Prog.bind_ret _
  have start (t : BitVec 32) : (LoadCalls.modemLoadStart t).interp (handler .internal b m) =
    LoadCalls.modemLoadRunInternal true m t := Prog.bind_ret _
  simp only [loadModemImg, LoadCalls.loadModemImg, LoadCalls.Internal.loadModemImg, vboot, secure,
    Bool.or_true, LoadCalls.interp_modemCtrlEnableWakeLock, LoadCalls.interp_secureBootSetFlag,
    LoadCalls.interp_secureBootUnlockDdr, LoadCalls.interp_modemCtrlSetModemState,
    LoadCalls.interp_loadImgFromTable, LoadCalls.interp_secureBootVerifyAll, stop, start,
    Prog.interp_bind, Prog.interp_when]
  -- the mask is noted and handed over before anything is loaded
  refine Prog.Meets.call trivial fun _ => Prog.Meets.call trivial fun _ =>
    Prog.Meets.call trivial fun _ => ?_
  apply (runs false _ _).bind
  rintro _ _ rfl
  refine Prog.Meets.call trivial fun _ => ?_
  apply (meets_asked b m.sp Load.SP_IMG_FLAG _ (present m.sp) _).bind
  rintro _ _ rfl
  apply (meets_asked b m.cp Load.MODEM_IMG_FLAG _ (present m.cp) _).bind
  rintro _ _ rfl
  refine Prog.Meets.call trivial fun _ => ?_
  apply (runs true _ _).bind
  rintro _ _ rfl
  refine Prog.Meets.call trivial fun _ => Prog.Meets.call trivial fun _ => ?_
  simp [Prog.Meets, kbc, requests, loaded, fill_append]

end Load

theorem afterLoads_eq {b : Build} (vboot : b.vbootV2 = true) (footerSize : Nat) (o : Verify)
    (m : LoadInfo) (loads : List LoadRun) (done : List (Request × Table)) :
    afterLoads footerSize o .internal b m ⟨zero footerSize, done⟩ loads =
      ⟨zero footerSize, done ++ loads.flatMap (requests footerSize o b m)⟩ := by
  induction loads generalizing done with
  | nil => rw [afterLoads, List.flatMap_nil, List.append_nil]
  | cons run rest ih =>
      have one : (kbc footerSize o run.files).after ⟨zero footerSize, done⟩
          (Load.trace (loadModemImg .internal b m run.loadType) run.outcomes) =
            ⟨zero footerSize, done ++ requests footerSize o b m run⟩ :=
        ((meets_load vboot m run done).run run.outcomes).2
      rw [afterLoads, one, ih, List.flatMap_cons, List.append_assoc]

/-- Whatever the loads before it did and however its calls end, each load hands over the empty
    table with its mask, and then the table that holds in each slot what the secure images of
    this load that name it have left. Nothing of one load is seen in the next. -/
theorem loads_hand_over (removeSprdModem pcieRescan : Bool) (footerSize : Nat) (o : Verify)
    (m : LoadInfo) (loads : List LoadRun) :
    afterLoads footerSize o .internal (vboot removeSprdModem pcieRescan) m ⟨zero footerSize, []⟩
        loads =
      ⟨zero footerSize, loads.flatMap (requests footerSize o (vboot removeSprdModem pcieRescan) m)⟩ :=
  afterLoads_eq rfl footerSize o m loads []

end ModemControl.KbcTables
