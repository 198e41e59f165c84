import Mathlib.Algebra.BigOperators.Group.List.Basic
import Mathlib.Algebra.Ring.Int.Defs
import Mathlib.Data.Stream.Init
import ModemControl.Load

/-! # What a load depends on

The outside world as the loader meets it: the results of the image loads in the order
they are made, the answers of the remote flag in the order it is polled, and the results
of the rescans. For the passes over the load tables and for the waits, what comes out
of them and how much of the outcomes they use up.
-/

namespace ModemControl.Load

open Foundation

structure Outcomes where
  images : Stream' Int
  flags : Stream' (Option (BitVec 32))
  rescans : Stream' Int
  /-- Where the image starts in its partition, and its size. -/
  extent : ImageLoad → BitVec 32 × BitVec 64
  /-- The results the loader drops. -/
  dropped : LoadOp → Int

namespace Outcomes

/-- After `i` image loads and `f` polls of the remote flag. -/
def skip (o : Outcomes) (i f : Nat) : Outcomes :=
  { o with images := o.images.drop i, flags := o.flags.drop f }

@[simp] theorem skip_zero (o : Outcomes) : o.skip 0 0 = o := rfl

@[simp] theorem skip_images (o : Outcomes) (i f : Nat) : (o.skip i f).images = o.images.drop i := rfl

@[simp] theorem skip_skip (o : Outcomes) (i f i' f' : Nat) :
    (o.skip i f).skip i' f' = o.skip (i + i') (f + f') := by
  simp only [skip, Stream'.drop_drop]

def ioctl (o : Outcomes) (path : Bytes) : (cmd : ModemCmd) → cmd.Res × Outcomes
  | .getRemoteFlag => (o.flags.head, o.skip 0 1)
  | .readLock => (o.dropped (.iocmd .readLock path), o)
  | .readUnlock => (o.dropped (.iocmd .readUnlock path), o)
  | .writeLock => (o.dropped (.iocmd .writeLock path), o)
  | .writeUnlock => (o.dropped (.iocmd .writeUnlock path), o)
  | .setWriteRegion region => (o.dropped (.iocmd (.setWriteRegion region) path), o)
  | .setRemoteFlag flag => (o.dropped (.iocmd (.setRemoteFlag flag) path), o)
  | .clrRemoteFlag flag => (o.dropped (.iocmd (.clrRemoteFlag flag) path), o)
  | .stop => (o.dropped (.iocmd .stop path), o)
  | .start => (o.dropped (.iocmd .start path), o)

def answer (o : Outcomes) : (op : LoadOp) → op.Res × Outcomes
  | .iocmd cmd path => o.ioctl path cmd
  | .modemLoadImage _ _ _ _ => (o.images.head, o.skip 1 0)
  | .secureBootLoadImg _ => (o.images.head, o.skip 1 0)
  | .rescanEpDevice => (o.rescans.head, { o with rescans := o.rescans.tail })
  | .getPatitonInfo img => (o.extent img, o)
  | .writeProcFile file offset string => (o.dropped (.writeProcFile file offset string), o)
  | .loadCpCmdline fin fout => (o.dropped (.loadCpCmdline fin fout), o)
  | .loadCpBootCode fout => (o.dropped (.loadCpBootCode fout), o)
  | .readNvPartition path bakPath pathOut => (o.dropped (.readNvPartition path bakPath pathOut), o)
  | .secureBootSetFlag _ => ((), o)
  | .secureBootUnlockDdr => ((), o)
  | .secureBootVerifyAll => ((), o)
  | .setModemState _ => ((), o)
  | .enableWakeLock _ _ => ((), o)

end Outcomes

abbrev LoadTrace : Type := List (Event LoadOp LoadOp.Res)

variable {α β : Type}

def trace (p : LoadProg α) (o : Outcomes) : LoadTrace := (p.run Outcomes.answer o).1
def after (p : LoadProg α) (o : Outcomes) : Outcomes := (p.run Outcomes.answer o).2.1
def value (p : LoadProg α) (o : Outcomes) : α := (p.run Outcomes.answer o).2.2

@[simp] theorem after_ret (a : α) (o : Outcomes) : after (.ret a) o = o := rfl
@[simp] theorem value_ret (a : α) (o : Outcomes) : value (.ret a) o = a := rfl

theorem trace_bind (p : LoadProg α) (f : α → LoadProg β) (o : Outcomes) :
    trace (p >>= f) o = trace p o ++ trace (f (value p o)) (after p o) := by
  simp only [trace, value, after, Prog.run_bind]

@[simp] theorem after_bind (p : LoadProg α) (f : α → LoadProg β) (o : Outcomes) :
    after (p >>= f) o = after (f (value p o)) (after p o) := by
  simp only [value, after, Prog.run_bind]

@[simp] theorem value_bind (p : LoadProg α) (f : α → LoadProg β) (o : Outcomes) :
    value (p >>= f) o = value (f (value p o)) (after p o) := by
  simp only [value, after, Prog.run_bind]

theorem after_when (c : Bool) (p : LoadProg Unit) (o : Outcomes) :
    after (Prog.when c p) o = if c then after p o else o := by
  cases c <;> rfl

/-- The entries a pass loads with a result that goes into its own. -/
def counted (loadFlag skipFlag : BitVec 32) (img : ImageLoad) : Bool :=
  selected loadFlag skipFlag img && !special img

/-- The image loads one pass makes. -/
def passLoads (load : LoadValue) (loadFlag skipFlag : BitVec 32) : Nat :=
  load.loadTable.countP (counted loadFlag skipFlag)

theorem after_setWriteRegion (load : LoadValue) (i : Nat) (o : Outcomes) :
    after (Prog.when load.ioctrlIsOk do
      let _ ← modemSetWriteRegion load.ioCtrl i) o = o := by
  cases load.ioctrlIsOk <;> rfl

theorem loadEntry_special {img : ImageLoad} (isSpecial : special img = true) (b : Build)
    (load : LoadValue) (i : Nat) (o : Outcomes) :
    value (loadEntry b load i img) o = 0 ∧ after (loadEntry b load i img) o = o := by
  simp only [loadEntry, value_bind, after_bind, after_setWriteRegion]
  split
  · exact ⟨rfl, rfl⟩
  · split
    · exact ⟨rfl, rfl⟩
    · split
      · exact ⟨rfl, rfl⟩
      · grind [special]

theorem loadEntry_plain {img : ImageLoad} (plain : special img = false) (b : Build)
    (load : LoadValue) (i : Nat) (o : Outcomes) :
    value (loadEntry b load i img) o = o.images.head ∧
      after (loadEntry b load i img) o = o.skip 1 0 := by
  simp only [special, Bool.or_eq_false_iff] at plain
  simp only [loadEntry, value_bind, after_bind, after_setWriteRegion, plain, Bool.false_eq_true,
    if_false]
  split <;> exact ⟨rfl, rfl⟩

theorem loadEntries_spec (b : Build) (load : LoadValue) (loadFlag skipFlag : BitVec 32)
    (imgs : List ImageLoad) (i : Nat) (ret : Int) (o : Outcomes) :
    value (loadEntries b load loadFlag skipFlag imgs i ret) o =
        ret + (o.images.take (imgs.countP (counted loadFlag skipFlag))).sum ∧
      after (loadEntries b load loadFlag skipFlag imgs i ret) o =
        o.skip (imgs.countP (counted loadFlag skipFlag)) 0 := by
  induction imgs generalizing i ret o with
  | nil => simp [loadEntries]
  | cons img imgs ih =>
      by_cases isSelected : selected loadFlag skipFlag img = true
      · simp only [loadEntries, isSelected, if_true, value_bind, after_bind]
        cases kind : special img with
        | true =>
            obtain ⟨adds, leaves⟩ := loadEntry_special kind b load i o
            rw [adds, leaves, Int.add_zero]
            simpa [counted, isSelected, kind] using ih (i + 1) ret o
        | false =>
            obtain ⟨adds, leaves⟩ := loadEntry_plain kind b load i o
            rw [adds, leaves]
            obtain ⟨total, rest⟩ := ih (i + 1) (ret + o.images.head) (o.skip 1 0)
            have counts : (img :: imgs).countP (counted loadFlag skipFlag) =
                imgs.countP (counted loadFlag skipFlag) + 1 :=
              List.countP_cons_of_pos (by simp [counted, isSelected, kind])
            rw [total, rest, counts, Stream'.take_succ, List.sum_cons, Stream'.tail_eq_drop,
              Outcomes.skip_images, Outcomes.skip_skip, Int.add_assoc, Nat.add_comm 1]
            exact ⟨rfl, rfl⟩
      · simpa [loadEntries, counted, isSelected] using ih (i + 1) ret o

/-- A pass adds up the results of its image loads. -/
theorem value_loadImgFromTable (b : Build) (load : LoadValue) (loadFlag skipFlag : BitVec 32)
    (o : Outcomes) : value (loadImgFromTable b load loadFlag skipFlag) o =
      (o.images.take (passLoads load loadFlag skipFlag)).sum := by
  rw [loadImgFromTable, (loadEntries_spec b load loadFlag skipFlag load.loadTable 0 0 o).1,
    Int.zero_add, passLoads]

@[simp] theorem after_loadImgFromTable (b : Build) (load : LoadValue)
    (loadFlag skipFlag : BitVec 32) (o : Outcomes) :
    after (loadImgFromTable b load loadFlag skipFlag) o =
      o.skip (passLoads load loadFlag skipFlag) 0 :=
  (loadEntries_spec b load loadFlag skipFlag load.loadTable 0 0 o).2

def remoteReady (waitBit : BitVec 32) (answer : Option (BitVec 32)) : Bool :=
  anyBit (remoteFlag answer) waitBit

/-- One of the first `cnt + 1` polls finds the bit. -/
def SeenWithin (waitBit : BitVec 32) (cnt : Nat) (flags : Stream' (Option (BitVec 32))) : Prop :=
  ∃ k ≤ cnt, remoteReady waitBit (flags.get k) = true

/-- Poll `k` is the first to find the bit. -/
def FirstSeen (waitBit : BitVec 32) (flags : Stream' (Option (BitVec 32))) (k : Nat) : Prop :=
  remoteReady waitBit (flags.get k) = true ∧ ∀ j < k, remoteReady waitBit (flags.get j) = false

theorem FirstSeen.unique {waitBit : BitVec 32} {flags : Stream' (Option (BitVec 32))} {k j : Nat}
    (first : FirstSeen waitBit flags k) (other : FirstSeen waitBit flags j) : k = j := by
  rcases Nat.lt_trichotomy k j with below | same | above
  · exact absurd first.1 (by simp [other.2 k below])
  · exact same
  · exact absurd other.1 (by simp [first.2 j above])

/-- After a poll that does not find the bit. -/
theorem FirstSeen.later {waitBit : BitVec 32} {flags : Stream' (Option (BitVec 32))} {k : Nat}
    (unseen : remoteReady waitBit flags.head = false) (first : FirstSeen waitBit flags.tail k) :
    FirstSeen waitBit flags (k + 1) := by
  constructor
  · exact first.1
  · intro j below
    cases j with
    | zero => exact unseen
    | succ j => exact first.2 j (by omega)

/-- What the loop does after a poll with this answer. -/
def waitRest (ioCtrl : Bytes) (waitBit : BitVec 32) (answer : Option (BitVec 32)) :
    Nat → LoadProg Bool
  | 0 => pure (remoteReady waitBit answer)
  | cnt + 1 => if remoteReady waitBit answer then pure true else waitLoop ioCtrl waitBit cnt

theorem waitLoop_round (ioCtrl : Bytes) (waitBit : BitVec 32) (cnt : Nat) (o : Outcomes) :
    value (waitLoop ioCtrl waitBit cnt) o =
        value (waitRest ioCtrl waitBit o.flags.head cnt) (o.skip 0 1) ∧
      after (waitLoop ioCtrl waitBit cnt) o =
        after (waitRest ioCtrl waitBit o.flags.head cnt) (o.skip 0 1) := by
  have flag : value (modemGetRemoteFlag ioCtrl) (after (modemLockRead ioCtrl) o) =
    remoteFlag o.flags.head := rfl
  rw [waitLoop.eq_def]
  simp only [value_bind, after_bind, flag]
  cases head : anyBit (remoteFlag o.flags.head) waitBit <;> cases cnt <;>
    simp only [waitRest, remoteReady, head] <;> exact ⟨rfl, rfl⟩

/-- The wait ends at the first poll that finds the bit, or polls `cnt + 1` times in vain. -/
theorem waitLoop_spec (ioCtrl : Bytes) (waitBit : BitVec 32) (cnt : Nat) (o : Outcomes) :
    (∃ k ≤ cnt, FirstSeen waitBit o.flags k ∧ value (waitLoop ioCtrl waitBit cnt) o = true ∧
      after (waitLoop ioCtrl waitBit cnt) o = o.skip 0 (k + 1)) ∨
    (¬ SeenWithin waitBit cnt o.flags ∧ value (waitLoop ioCtrl waitBit cnt) o = false) := by
  induction cnt generalizing o with
  | zero =>
      obtain ⟨ready, rest⟩ := waitLoop_round ioCtrl waitBit 0 o
      simp only [waitRest, Prog.pure_eq, value_ret, after_ret] at ready rest
      cases head : remoteReady waitBit o.flags.head with
      | true =>
          rw [head] at ready
          exact Or.inl ⟨0, le_refl 0, ⟨head, by simp⟩, ready, rest⟩
      | false =>
          rw [head] at ready
          refine Or.inr ⟨?_, ready⟩
          rintro ⟨k, bound, seen⟩
          obtain rfl : k = 0 := by omega
          simp [head] at seen
  | succ cnt ih =>
      obtain ⟨ready, rest⟩ := waitLoop_round ioCtrl waitBit (cnt + 1) o
      cases head : remoteReady waitBit o.flags.head with
      | true =>
          simp only [waitRest, head, if_true, Prog.pure_eq, value_ret, after_ret] at ready rest
          exact Or.inl ⟨0, by omega, ⟨head, by simp⟩, ready, rest⟩
      | false =>
          simp only [waitRest, head, Bool.false_eq_true, if_false] at ready rest
          rw [ready, rest]
          rcases ih (o.skip 0 1) with ⟨k, bound, first, found, left⟩ | ⟨never, timeout⟩
          · refine Or.inl ⟨k + 1, by omega, first.later head, found, ?_⟩
            rw [left, Outcomes.skip_skip, Nat.add_comm 1]
          · refine Or.inr ⟨?_, timeout⟩
            rintro ⟨k, bound, seen⟩
            cases k with
            | zero => simp [head] at seen
            | succ k => exact never ⟨k, by omega, seen⟩

theorem after_modemLoadRun (bRun : Bool) (load : LoadValue) (o : Outcomes) :
    after (modemLoadRun bRun load) o = o := by
  unfold modemLoadRun
  cases bRun <;> cases load.ioctrlIsOk <;> cases load.drvIsOk <;> rfl

@[simp] theorem after_modemLoadRunAll (bRun : Bool) (m : LoadInfo) (loadType : BitVec 32)
    (o : Outcomes) : after (modemLoadRunAll bRun m loadType) o = o := by
  simp only [modemLoadRunAll, after_bind, after_when, after_modemLoadRun, ite_self]

/-- The image loads of a sp or dp table, which is loaded if its driver is there. -/
def auxLoads (load : LoadValue) : Nat :=
  if load.drvIsOk || load.ioctrlIsOk then passLoads load SP_IMG_FLAG NONE_IMAG_FLAG else 0

@[simp] theorem after_loadSp (b : Build) (m : LoadInfo) (o : Outcomes) :
    after (loadSp b m) o = o.skip (auxLoads m.sp) 0 := by
  have unlock : after (Prog.when (b.sprdSecboot || b.vbootV2) do
      secureBootSetFlag LOAD_SP_IMG
      secureBootUnlockDdr) o = o := by
    cases b.sprdSecboot || b.vbootV2 <;> rfl
  have verify (o : Outcomes) : after (Prog.when b.secure secureBootVerifyAll) o = o := by
    cases b.secure <;> rfl
  simp only [loadSp, after_bind, unlock, modemLoadStop, after_modemLoadRunAll, after_when,
    after_loadImgFromTable, modemLoadStart, auxLoads]
  rw [← after_when, verify]
  split <;> simp

@[simp] theorem after_loadDp (b : Build) (m : LoadInfo) (o : Outcomes) :
    after (loadDp b m) o = o.skip (auxLoads m.dp) 0 := by
  rw [loadDp, after_when, auxLoads]
  split
  · simp
  · rfl

def agdspLoads (m : LoadInfo) (loadType : BitVec 32) : Nat :=
  if anyBit loadType LOAD_AGDSP_IMG then passLoads m.cp AUDIO_IMG_FLAG NONE_IMAG_FLAG else 0

@[simp] theorem after_loadAgdsp (b : Build) (m : LoadInfo) (masks : Masks) (o : Outcomes) :
    after (loadAgdsp b m masks) o = o.skip (agdspLoads m masks.loadType) 0 := by
  rw [loadAgdsp, after_when, agdspLoads]
  split
  · simp
  · rfl

theorem loadAndTell_spec (b : Build) (m : LoadInfo) (loadFlag doneFlag : BitVec 32) (o : Outcomes) :
    value (loadAndTell b m loadFlag doneFlag) o =
        decide ((o.images.take (passLoads m.cp loadFlag NONE_IMAG_FLAG)).sum = 0) ∧
      after (loadAndTell b m loadFlag doneFlag) o =
        o.skip (passLoads m.cp loadFlag NONE_IMAG_FLAG) 0 := by
  simp only [loadAndTell, value_bind, after_bind, value_loadImgFromTable, after_loadImgFromTable]
  by_cases loaded : (o.images.take (passLoads m.cp loadFlag NONE_IMAG_FLAG)).sum = 0
  · simp only [loaded]
    exact ⟨rfl, rfl⟩
  · simp [loaded]

def splLoads (m : LoadInfo) : Nat := passLoads m.cp SPL_IMG_FLAG NONE_IMAG_FLAG

def headLoads (m : LoadInfo) : Nat := passLoads m.cp MODEM_HEAD_IMG_FLAG NONE_IMAG_FLAG

/-- The image loads of the miniap before the modem head. -/
def bootLoads (m : LoadInfo) : Nat :=
  passLoads m.cp (SML_IMG_FLAG ||| UBOOT_IMG_FLAG) NONE_IMAG_FLAG +
    passLoads m.cp BOOT_IMG_FLAG NONE_IMAG_FLAG

/-- If it comes to a rescan, it succeeds: the modem head is loaded and the ep says in
    time that it has reset its bar. -/
def RescanOk (b : Build) (m : LoadInfo) (o : Outcomes) : Prop :=
  b.pcieRescan = true → ((o.images.drop (bootLoads m)).take (headLoads m)).sum = 0 →
    SeenWithin EP_SET_BAR_DONE_FLAG 100 o.flags → o.rescans.head = 0

/-- Spl is loaded, the ddr is ready in time, and a rescan succeeds. -/
def BroughtUp (b : Build) (m : LoadInfo) (loadType : BitVec 32) (o : Outcomes) : Prop :=
  (o.images.take (splLoads m)).sum = 0 ∧
    ∃ k ≤ 100, FirstSeen REMOTE_DDR_READY_FLAG o.flags k ∧
      RescanOk b m (o.skip (splLoads m + agdspLoads m loadType) (k + 1))

/-- The masks are kept if `p` holds, and cleared otherwise. -/
def KeptIf (p : Prop) (masks out : Masks) : Prop :=
  (p ∧ out = masks) ∨ (¬ p ∧ out = Masks.none)

@[simp] theorem anyBit_zero (bits : BitVec 32) : anyBit 0 bits = false := by
  simp [anyBit]

theorem modemLoadWaitRemote_present {load : LoadValue} (present : load.ioctrlIsOk = true)
    (waitBit : BitVec 32) :
    modemLoadWaitRemote load waitBit = waitLoop load.ioCtrl waitBit 100 := by
  simp only [modemLoadWaitRemote, present, Bool.not_true, Bool.false_eq_true, if_false]

theorem rescanEp_keeps {m : LoadInfo} (present : m.cp.ioctrlIsOk = true) (masks : Masks)
    (o : Outcomes) :
    KeptIf (SeenWithin EP_SET_BAR_DONE_FLAG 100 o.flags → o.rescans.head = 0) masks
      (value (rescanEp m masks) o) := by
  simp only [rescanEp, modemLoadWaitRemote_present present, value_bind]
  rcases waitLoop_spec m.cp.ioCtrl EP_SET_BAR_DONE_FLAG 100 o with
    ⟨k, bound, first, ready, rest⟩ | ⟨never, timeout⟩
  · have result : value modemRescanEpDevice (o.skip 0 (k + 1)) = o.rescans.head := rfl
    simp only [ready, rest, if_true, value_bind, result]
    by_cases ok : o.rescans.head = 0
    · refine Or.inl ⟨fun _ => ok, ?_⟩
      simp only [ok]
      rfl
    · refine Or.inr ⟨fun kept => ok (kept ⟨k, bound, first.1⟩), ?_⟩
      simp [ok]
  · rw [timeout]
    exact Or.inl ⟨fun seen => absurd seen never, rfl⟩

theorem loadMiniap_keeps {b : Build} {m : LoadInfo} (present : m.cp.ioctrlIsOk = true)
    {masks : Masks} (asked : anyBit masks.loadType LOAD_MINIAP_IMG = true) (o : Outcomes) :
    KeptIf (RescanOk b m o) masks (value (loadMiniap b m masks) o) := by
  have clear (o : Outcomes) : after (Prog.when b.pcieRescan do
      let _ ← modemClearRemoteFlag m.cp.ioCtrl EP_SET_BAR_DONE_FLAG) o = o := by
    cases b.pcieRescan <;> rfl
  simp only [loadMiniap, asked, present, Bool.and_self, if_true, value_bind, clear,
    (loadAndTell_spec b m _ _ _).2, (loadAndTell_spec b m _ _ _).1, Outcomes.skip_skip]
  by_cases rescans : b.pcieRescan = true ∧
      ((o.images.drop (bootLoads m)).take (headLoads m)).sum = 0
  · have goesOn := rescans
    simp only [bootLoads, headLoads] at goesOn
    simp only [Outcomes.skip_images, goesOn, decide_true, Bool.and_self, if_true]
    rcases rescanEp_keeps present masks (o.skip (bootLoads m + headLoads m) 0) with
      ⟨ok, same⟩ | ⟨failed, none⟩
    · exact Or.inl ⟨fun _ _ => ok, same⟩
    · exact Or.inr ⟨fun ok => failed (ok rescans.1 rescans.2), none⟩
  · refine Or.inl ⟨fun pcie head => absurd ⟨pcie, head⟩ rescans, ?_⟩
    simp only [bootLoads, headLoads] at rescans
    rw [if_neg]
    · rfl
    · simpa [and_comm] using rescans

theorem loadSpl_spec {b : Build} {m : LoadInfo} (present : m.cp.ioctrlIsOk = true)
    {masks : Masks} (asked : anyBit masks.loadType LOAD_MINIAP_IMG = true) (o : Outcomes) :
    (∃ k ≤ 100, (o.images.take (splLoads m)).sum = 0 ∧
      FirstSeen REMOTE_DDR_READY_FLAG o.flags k ∧ value (loadSpl b m masks) o = masks ∧
      after (loadSpl b m masks) o = o.skip (splLoads m) (k + 1)) ∨
    (¬ ((o.images.take (splLoads m)).sum = 0 ∧ SeenWithin REMOTE_DDR_READY_FLAG 100 o.flags) ∧
      value (loadSpl b m masks) o = Masks.none) := by
  have notZero : (masks.loadType != 0) = true := by
    rw [bne_iff_ne]
    intro zero
    rw [zero, anyBit_zero] at asked
    contradiction
  have tell (flag : BitVec 32) (o : Outcomes) :
      after (modemSetRemoteFlag m.cp.ioCtrl flag) o = o := rfl
  simp only [loadSpl, present, notZero, asked, Bool.and_self, if_true, value_bind, after_bind, tell,
    value_loadImgFromTable, after_loadImgFromTable, modemLoadWaitRemote_present present]
  by_cases loaded : (o.images.take (splLoads m)).sum = 0
  · have goesOn : ((o.images.take (passLoads m.cp SPL_IMG_FLAG NONE_IMAG_FLAG)).sum != 0) = false := by
      simpa [splLoads] using loaded
    simp only [goesOn, Bool.false_eq_true, if_false, value_bind, after_bind, tell]
    rcases waitLoop_spec m.cp.ioCtrl REMOTE_DDR_READY_FLAG 100 (o.skip (splLoads m) 0) with
      ⟨k, bound, first, ready, rest⟩ | ⟨never, timeout⟩
    · rw [splLoads] at ready rest
      refine Or.inl ⟨k, bound, loaded, first, ?_, ?_⟩
      · rw [ready]
        rfl
      · rw [ready, rest, Outcomes.skip_skip, Nat.zero_add]
        rfl
    · rw [splLoads] at timeout
      refine Or.inr ⟨fun both => never both.2, ?_⟩
      rw [timeout]
      rfl
  · refine Or.inr ⟨fun both => loaded both.1, ?_⟩
    have stops : ((o.images.take (passLoads m.cp SPL_IMG_FLAG NONE_IMAG_FLAG)).sum != 0) = true := by
      simpa [splLoads] using loaded
    simp only [stops, if_true]
    rfl

/-- The part of `load_modem_img` that decides what is started. -/
def bringUp (b : Build) (m : LoadInfo) (masks : Masks) : LoadProg Masks := do
  let masks ← loadSpl b m masks
  loadAgdsp b m masks
  loadMiniap b m masks

/-- Without the miniap, or without its device, nothing changes the masks. -/
theorem bringUp_other (b : Build) {m : LoadInfo} {masks : Masks}
    (other : (anyBit masks.loadType LOAD_MINIAP_IMG && m.cp.ioctrlIsOk) = false) (o : Outcomes) :
    value (bringUp b m masks) o = masks := by
  have spl : value (loadSpl b m masks) o = masks := by
    rw [loadSpl]
    cases present : m.cp.ioctrlIsOk with
    | false => rfl
    | true =>
        rw [present, Bool.and_true] at other
        simp only [other]
        cases masks.loadType != 0 <;> rfl
  simp only [bringUp, value_bind, spl, loadMiniap, other]
  rfl

theorem bringUp_keeps (b : Build) {m : LoadInfo} (present : m.cp.ioctrlIsOk = true)
    {masks : Masks} (asked : anyBit masks.loadType LOAD_MINIAP_IMG = true) (o : Outcomes) :
    KeptIf (BroughtUp b m masks.loadType o) masks (value (bringUp b m masks) o) := by
  simp only [bringUp, value_bind]
  rcases @loadSpl_spec b m present masks asked o with
    ⟨k, bound, loaded, first, same, rest⟩ | ⟨failed, none⟩
  · simp only [same, rest, after_loadAgdsp, Outcomes.skip_skip, Nat.add_zero]
    rcases @loadMiniap_keeps b m present masks asked
        (o.skip (splLoads m + agdspLoads m masks.loadType) (k + 1)) with ⟨ok, kept⟩ | ⟨failed, none⟩
    · exact Or.inl ⟨⟨loaded, k, bound, first, ok⟩, kept⟩
    · refine Or.inr ⟨?_, none⟩
      rintro ⟨_, j, _, firstSeen, ok⟩
      obtain rfl := first.unique firstSeen
      exact failed ok
  · refine Or.inr ⟨?_, ?_⟩
    · rintro ⟨loaded, k, bound, first, _⟩
      exact failed ⟨loaded, k, bound, first.1⟩
    · rw [none, loadMiniap, Masks.none, anyBit_zero]
      rfl

end ModemControl.Load
