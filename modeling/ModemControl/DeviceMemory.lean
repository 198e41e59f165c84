import ModemControl.BootCode
import ModemControl.ImageLoads
import ModemControl.LoadSizes

/-! # The memory behind the load tables

What the functions that a pass calls leave in the memory of a subsystem. What is written
through a path goes to the region that was selected through it last; that is all that is taken
for granted of a device. The calls that handle a file are taken down to their own calls on it.
-/

namespace ModemControl.DeviceMemory

open Foundation Load LoadFiles

/-- A path and a region behind it. -/
abbrev Place : Type := Bytes × Nat

structure Devices where
  file : Bytes → Option Bytes
  region : Bytes → Nat
  memory : Place → Nat → UInt8
  /-- A region could not be selected, or a write of a copy fell short. -/
  faults : Bool

def Devices.place (s : Devices) (path : Bytes) : Place := (path, s.region path)

def Devices.select (s : Devices) (path : Bytes) (i : Nat) : Devices :=
  { s with region := Function.update s.region path i }

/-- What a function leaves that writes through this path. -/
def Devices.leave (s : Devices) (path : Bytes) (f : Files) : Devices :=
  { s with
    memory := Function.update s.memory (s.place path) f.region
    faults := s.faults || f.short .fdout }

/-- Runs are looked at between calls only. -/
def Uncut {σ Op : Type} (_ : σ) (_ : Op) (_ : σ) : Prop := False

/-- A function that reads `fin` and writes through `fout` has come back. -/
def Devices.Wrote (s : Devices) (fin fout : Bytes) (p : FileProg Int) (r : Int) (s' : Devices) :
    Prop :=
  ∃ trace f, Prog.Runs (Allowed fun _ _ => True) Uncut p
    (fresh (s.file fin) (s.memory (s.place fout))) trace f (some r) ∧ s' = s.leave fout f

/-- `modem_load_image`, for as many rounds of its loops as it has. -/
def Devices.Image (s : Devices) (img : ImageLoad) (offsetin offsetout size : BitVec 32) (r : Int)
    (s' : Devices) : Prop :=
  ∃ rounds, size.toNat ≤ rounds ∧
    s.Wrote img.pathR img.pathW (modemLoadImage rounds img offsetin offsetout size) r s'

/-- The calls on the file of an image with this content; the state is the position in it. -/
def ReadFile (content : Option Bytes) (pos : Nat) :
    (op : ImgInfo.ImgOp) → op.Res → Nat → Prop
  | .open_ _, opened, pos' => (opened = true → content.isSome) ∧ pos' = 0
  | .lseek offset, moved, pos' =>
      moved = offset ∧ pos' = offset.toNat ∨ moved = -1 ∧ pos' = pos
  | .read count, got, pos' =>
      got = none ∧ pos' = pos ∨
        ∃ data, got = some data ∧ data <+: ((content.getD []).drop pos).take count ∧
          pos' = pos + data.length
  | .close, _, pos' => pos' = pos
  | .unassigned, _, pos' => pos' = pos
  | .other _, _, _ => False

/-- What is found to be the offset and the size of an image in a file. -/
def Found (content : Option Bytes) (p : ImgInfo.ImgProg (BitVec 32 × BitVec 64))
    (extent : BitVec 32 × BitVec 64) : Prop :=
  ∃ trace pos, Prog.Runs (ReadFile content) Uncut p 0 trace pos (some extent)

/-- What a load is built with, and what there is beside the files. -/
structure Setup where
  build : Build
  headers : ImgHeaders
  simlock : Bool
  modemImg : ModemHead.ModemImageInfo

/-- The calls of a pass. Of the recovery of an NV partition only what it may change is said:
    its two copies and the region that it is written to. The verification in front of a secure
    image is left out. -/
def Step (c : Setup) (s : Devices) : (op : LoadOp) → op.Res → Devices → Prop
  | .iocmd (.setWriteRegion i) path, r, s' =>
      r = 0 ∧ s' = s.select path i ∨ r ≠ 0 ∧ s' = { s with faults := true }
  | .getPatitonInfo img, extent, s' =>
      Found (s.file img.pathR) (ImgInfo.modemGetPatitonInfo img) extent ∧ s' = s
  | .modemLoadImage img offsetin offsetout size, r, s' => s.Image img offsetin offsetout size r s'
  | .secureBootLoadImg img, r, s' =>
      ∃ offset size,
        Found (s.file img.pathR) (LoadSizes.secureBootGetPatitonInfo c.build c.headers img)
          (offset, size) ∧
        s.Image img offset 0 (size.setWidth 32) r s'
  | .loadCpCmdline fin fout, r, s' => s.Wrote fin fout (modemLoadCpCmdline c.simlock fin fout) r s'
  | .loadCpBootCode fout, r, s' =>
      s.Wrote fout fout (ModemHead.modemLoadCpBootCode c.modemImg fout) r s'
  | .readNvPartition path bakPath pathOut, _, s' =>
      ∃ file f, (∀ p, p ≠ path → p ≠ bakPath → file p = s.file p) ∧
        s' = { s.leave pathOut f with file := file }
  | _, _, s' => s' = s

/-- Nothing was written but through this path, and a fault stays. -/
structure Only (path : Bytes) (s s' : Devices) : Prop where
  region : s'.region = s.region
  memory : ∀ place, place ≠ s.place path → s'.memory place = s.memory place
  faults : s'.faults = false → s.faults = false

theorem only_leave (s : Devices) (path : Bytes) (f : Files) : Only path s (s.leave path f) where
  region := rfl
  memory := fun _ other => Function.update_of_ne other _ s.memory
  faults := by
    intro sound
    exact (Bool.or_eq_false_iff.mp sound).1

theorem Devices.Wrote.only {s s' : Devices} {fin fout : Bytes} {p : FileProg Int} {r : Int}
    (wrote : s.Wrote fin fout p r s') : Only fout s s' := by
  obtain ⟨_, f, _, rfl⟩ := wrote
  exact only_leave s fout f

theorem Devices.Wrote.file {s s' : Devices} {fin fout : Bytes} {p : FileProg Int} {r : Int}
    (wrote : s.Wrote fin fout p r s') : s'.file = s.file := by
  obtain ⟨_, f, _, rfl⟩ := wrote
  rfl

theorem returns_copyLoop {bufSize : BitVec 32} {rounds : Nat} {size : BitVec 32} {ret : Int}
    (returned : Prog.Returns (copyLoop bufSize rounds size) ret) : ret = 0 ∨ ret = -1 := by
  induction rounds generalizing size with
  | zero =>
      obtain ⟨never, _⟩ := returned
      exact never.elim
  | succ rounds ih =>
      obtain ⟨got, _, returned⟩ := returned.bind_inv
      match got with
      | none => exact Or.inr returned.symm
      | some [] => exact Or.inr returned.symm
      | some (byte :: rest) =>
          obtain ⟨wsize, _, returned⟩ := returned.bind_inv
          split at returned
          · exact Or.inr returned.symm
          · split at returned
            · exact ih returned
            · exact Or.inl returned.symm

theorem returns_copyImage {rounds : Nat} {offsetin offsetout bufSize size : BitVec 32} {ret : Int}
    (returned : Prog.Returns (copyImage rounds offsetin offsetout bufSize size) ret) :
    ret = 0 ∨ ret = -1 := by
  obtain ⟨moved, _, returned⟩ := returned.bind_inv
  split at returned
  · exact Or.inr returned.symm
  · obtain ⟨moved, _, returned⟩ := returned.bind_inv
    split at returned
    · exact Or.inr returned.symm
    · exact returns_copyLoop returned

/-- Whatever the size is. -/
theorem returns_modemLoadImage {rounds : Nat} {img : ImageLoad} {offsetin offsetout size : BitVec 32}
    {ret : Int} (returned : Prog.Returns (modemLoadImage rounds img offsetin offsetout size) ret) :
    ret = 0 ∨ ret = -1 := by
  obtain ⟨⟨bufSize, bufHeap⟩, _, returned⟩ := returned.bind_inv
  obtain ⟨_, _, returned⟩ := returned.bind_inv
  obtain ⟨_, _, returned⟩ := returned.bind_inv
  obtain ⟨_, _, returned⟩ := returned.bind_inv
  obtain ⟨openedIn, _, returned⟩ := returned.bind_inv
  cases openedIn with
  | false =>
      obtain ⟨_, _, returned⟩ := returned.bind_inv
      obtain ⟨_, _, returned⟩ := returned.bind_inv
      exact Or.inr returned.symm
  | true =>
      obtain ⟨openedOut, _, returned⟩ := returned.bind_inv
      cases openedOut with
      | false =>
          obtain ⟨_, _, returned⟩ := returned.bind_inv
          obtain ⟨_, _, returned⟩ := returned.bind_inv
          obtain ⟨_, _, returned⟩ := returned.bind_inv
          exact Or.inr returned.symm
      | true =>
          obtain ⟨res, copied, returned⟩ := returned.bind_inv
          obtain ⟨_, _, returned⟩ := returned.bind_inv
          obtain ⟨_, _, returned⟩ := returned.bind_inv
          obtain ⟨_, _, returned⟩ := returned.bind_inv
          obtain ⟨_, _, returned⟩ := returned.bind_inv
          obtain ⟨_, _, returned⟩ := returned.bind_inv
          obtain rfl : res = ret := returned
          exact returns_copyImage copied

theorem Devices.Image.result {s s' : Devices} {img : ImageLoad} {offsetin offsetout size : BitVec 32}
    {r : Int} (image : s.Image img offsetin offsetout size r s') : r = 0 ∨ r = -1 := by
  obtain ⟨_, _, _, _, runs, _⟩ := image
  exact returns_modemLoadImage runs.returns

theorem overwrite_covered (region : Nat → UInt8) (pos : Nat) {first second : Bytes}
    (fits : first.length ≤ second.length) :
    overwrite (overwrite region pos first) pos second = overwrite region pos second := by
  funext a
  unfold overwrite
  split
  · by_cases inside : a - pos < second.length
    · rw [List.getElem?_eq_getElem inside]
      rfl
    · have behind : first[a - pos]? = none := List.getElem?_eq_none (by omega)
      rw [behind]
      rfl
  · rfl

section

variable {ok : (op : FileOp) → op.Res → Prop} (answers : Answers ok)

include answers

/-- However far the clearing comes, it writes zeros one after the other. -/
theorem ends_clearLoop_zeros {rounds : Nat} {size : BitVec 32} (some : 0 < size.toNat)
    (enough : size.toNat ≤ rounds) (s : Files) :
    Prog.Ends (Allowed ok) (clearLoop rounds size)
      (fun _ s' => Beside s s' ∧ ∃ k ≤ size.toNat,
        s'.region = overwrite s.region (s.pos .fd) (List.replicate k 0)) s := by
  induction rounds generalizing s size with
  | zero => omega
  | succ rounds ih =>
      unfold clearLoop
      generalize chunk : (if size < 8 * 1024 then size else 8 * 1024) = wsize
      have positive : 0 < wsize.toNat := by
        subst chunk
        split
        · exact some
        · decide
      have within : wsize.toNat ≤ size.toNat := by
        subst chunk
        split
        · exact Nat.le_refl _
        · bv_omega
      have left : (size - wsize).toNat = size.toNat - wsize.toNat := by bv_omega
      apply (ends_op answers (.write .fd (List.replicate wsize.toNat 0)) (by simp) (by simp) s).bind
      intro rval s₁ answered
      obtain ⟨⟨_, most, rfl⟩, _⟩ := answered
      have taken : rval.toNat ≤ wsize.toNat := by
        rw [List.length_replicate] at most
        exact Int.toNat_le.mpr most
      have beside := beside_wrote s (List.replicate wsize.toNat 0) rval
      have region : (s.wrote .fd (List.replicate wsize.toNat 0) rval).region =
          overwrite s.region (s.pos .fd) (List.replicate rval.toNat 0) := by
        rw [Files.wrote, List.take_replicate, Nat.min_eq_left taken]
      have pos : (s.wrote .fd (List.replicate wsize.toNat 0) rval).pos .fd =
          s.pos .fd + rval.toNat :=
        Function.update_self Fd.fd _ s.pos
      have once : rval.toNat ≤ size.toNat := by omega
      split
      · exact ⟨beside, rval.toNat, once, region⟩
      · split
        · rename_i more
          have more' : 0 < (size - wsize).toNat := more
          apply (ih more' (by omega) _).mono
          intro _ s' later
          obtain ⟨beside', k, bound, region'⟩ := later
          refine ⟨beside.trans beside', rval.toNat + k, by omega, ?_⟩
          have both := overwrite_append s.region (s.pos .fd) (List.replicate rval.toNat 0)
            (List.replicate k 0)
          rw [List.length_replicate, List.replicate_append_replicate] at both
          rw [region', region, pos, both]
        · exact ⟨beside, rval.toNat, once, region⟩

theorem ends_modemClearRegion_zeros {rounds : Nat} {size : BitVec 32} (some : 0 < size.toNat)
    (enough : size.toNat ≤ rounds) (fout : Bytes) (s : Files) :
    Prog.Ends (Allowed ok) (modemClearRegion rounds fout size)
      (fun _ s' => Beside s s' ∧ ∃ k ≤ size.toNat,
        s'.region = overwrite s.region 0 (List.replicate k 0)) s := by
  unfold modemClearRegion
  apply (ends_op answers (.open_ .fd fout) (by simp) (by simp) s).bind
  intro opened s₁ answered
  obtain ⟨⟨_, rfl⟩, _⟩ := answered
  cases opened with
  | false => exact ⟨Beside.refl s, 0, Nat.zero_le _, (overwrite_nil s.region 0).symm⟩
  | true =>
      apply (ends_clearLoop_zeros answers some enough (s.moveTo .fd 0)).bind
      intro _ s₂ cleared
      obtain ⟨beside, k, bound, region⟩ := cleared
      apply (ends_op answers (.close .fd) (by simp) (by simp) s₂).mono
      intro _ s₃ closed
      obtain ⟨rfl, _⟩ := closed
      exact ⟨⟨beside.input, beside.written, beside.short⟩, k, bound, region⟩

end

/-- The sizes that an int can count down from. -/
def Countable (size : BitVec 32) : Prop := 0 < size.toNat ∧ size.toNat < 0x80000000

/-- These bytes of a file. -/
def part (content : Option Bytes) (offset size : BitVec 32) : Bytes :=
  ((content.getD []).drop offset.toInt.toNat).take size.toNat

/-- The file has all of the bytes, and they are in the region, from its beginning on. What
    is behind them is what was there before. -/
def PutInto (content : Option Bytes) (offset size : BitVec 32) (before after : Nat → UInt8) : Prop :=
  (part content offset size).length = size.toNat ∧
    after = overwrite before 0 (part content offset size)

/-- A load that returns 0 without a fault has put the image into the region, cleared before
    or not. -/
theorem Devices.Image.put {s s' : Devices} {img : ImageLoad} {offsetin size : BitVec 32}
    (image : s.Image img offsetin 0 size 0 s') (sound : s'.faults = false)
    (countable : Countable size) :
    PutInto (s.file img.pathR) offsetin size (s.memory (s.place img.pathW))
      (s'.memory (s.place img.pathW)) := by
  obtain ⟨rounds, enough, _, f, runs, rfl⟩ := image
  obtain ⟨some, small⟩ := countable
  generalize s.file img.pathR = content at runs ⊢
  generalize s.memory (s.place img.pathW) = region at runs ⊢
  have complete : f.short .fdout = false := (Bool.or_eq_false_iff.mp sound).2
  have there : (s.leave img.pathW f).memory (s.place img.pathW) = f.region := by
    simp [Devices.leave]
  rw [there]
  have clears : Prog.Ends (Allowed fun _ _ => True)
      (Prog.when (getFlag img.flag CLR_FLAG) (modemClearRegion rounds img.pathW size))
      (fun _ s₁ => Beside (fresh content region) s₁ ∧ ∃ k ≤ size.toNat,
        s₁.region = overwrite region 0 (List.replicate k 0)) (fresh content region) := by
    apply Prog.Ends.when
    · intro _
      exact ends_modemClearRegion_zeros answers_any some enough img.pathW _
    · intro _
      exact ⟨Beside.refl _, 0, Nat.zero_le _, (overwrite_nil region 0).symm⟩
  obtain ⟨s₁, ⟨beside, k, bound, zeros⟩, phase⟩ :=
    (ends_modemLoadImage answers_any some small enough clears).runs runs
  cases phase with
  | unopened failed => exact absurd failed (by decide)
  | unsought failed => exact absurd failed (by decide)
  | copied from_ data idle inPos outPos moved finished =>
      have all := finished.success rfl
      have content' : from_.content = content.getD [] :=
        congrArg (·.getD []) (idle.input.trans beside.input)
      have same : data = part content offsetin size := by
        have ahead : from_.ahead = (content.getD []).drop offsetin.toInt.toNat := by
          rw [Files.ahead, content', inPos.1]
        rw [part, ← ahead]
        exact eq_take_of_prefix moved.ahead all
      have start : from_.pos .fdout = 0 := outPos.1
      obtain ⟨_, _, put⟩ := moved.put complete
      constructor
      · rw [← same, all]
      · have covered : (List.replicate k (0 : UInt8)).length ≤ data.length := by
          rw [List.length_replicate, all]
          exact bound
        rw [← same, put, start, idle.region, zeros, overwrite_covered region 0 covered]

end ModemControl.DeviceMemory
