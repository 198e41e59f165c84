import ModemControl.Foundation.Alternation
import ModemControl.LoadOutcomes

/-! # The write locks of the loader

`modem_load_stop` takes the write lock of every device it stops and `modem_load_start`
gives it back. Between the two, `start_img` loses everything that was stopped when spl
or the ddr of the miniap or the rescan of the ep fails, so that nothing is given back;
`load_spl_img` takes the lock a second time where it should give it back.
-/

namespace ModemControl.Load

open Foundation Alternation

variable {α β : Type}

def turn : LoadOp → Option (Bytes × Turn)
  | .iocmd .writeLock path => some (path, .lock)
  | .iocmd .writeUnlock path => some (path, .unlock)
  | _ => none

/-- The write lock commands a program issues, each with its device path. -/
def writeLocks (p : LoadProg α) (o : Outcomes) : List (Bytes × Turn) :=
  (trace p o).filterMap fun e => turn e.op

@[simp] theorem writeLocks_ret (a : α) (o : Outcomes) : writeLocks (.ret a) o = [] := rfl

@[simp] theorem writeLocks_bind (p : LoadProg α) (f : α → LoadProg β) (o : Outcomes) :
    writeLocks (p >>= f) o = writeLocks p o ++ writeLocks (f (value p o)) (after p o) := by
  simp only [writeLocks, trace_bind, List.filterMap_append]

def LoadOp.Silent (op : LoadOp) : Prop := turn op = none

theorem writeLocks_silent {p : LoadProg α} (calls : p.Calls LoadOp.Silent) (o : Outcomes) :
    writeLocks p o = [] := by
  apply List.filterMap_eq_nil_iff.mpr
  intro e member
  exact Prog.run_allowed calls o e member

theorem loadEntry_silent (b : Build) (load : LoadValue) (i : Nat) (img : ImageLoad) :
    (loadEntry b load i img).Calls LoadOp.Silent := by
  apply Prog.Calls.bind
  · apply Prog.Calls.when
    exact ⟨rfl, fun _ => trivial⟩
  · intro _
    split
    · exact ⟨rfl, fun _ => trivial⟩
    · split
      · exact ⟨rfl, fun _ => trivial⟩
      · split
        · exact ⟨rfl, fun _ => trivial⟩
        · split
          · exact ⟨rfl, fun _ => trivial⟩
          · exact ⟨rfl, fun _ => ⟨rfl, fun _ => trivial⟩⟩

theorem loadImgFromTable_silent (b : Build) (load : LoadValue) (loadFlag skipFlag : BitVec 32) :
    (loadImgFromTable b load loadFlag skipFlag).Calls LoadOp.Silent := by
  have entries (imgs : List ImageLoad) : ∀ i ret,
      (loadEntries b load loadFlag skipFlag imgs i ret).Calls LoadOp.Silent := by
    induction imgs with
    | nil =>
        intro i ret
        trivial
    | cons img imgs ih =>
        intro i ret
        rw [loadEntries]
        split
        · exact (loadEntry_silent b load i img).bind fun r => ih _ _
        · exact ih _ _
  exact entries load.loadTable 0 0

theorem modemLoadWaitRemote_silent (load : LoadValue) (waitBit : BitVec 32) :
    (modemLoadWaitRemote load waitBit).Calls LoadOp.Silent := by
  have loop (cnt : Nat) : (waitLoop load.ioCtrl waitBit cnt).Calls LoadOp.Silent := by
    induction cnt with
    | zero =>
        rw [waitLoop.eq_def]
        refine ⟨rfl, fun _ => ⟨rfl, fun answer => ⟨rfl, fun _ => ?_⟩⟩⟩
        split <;> trivial
    | succ cnt ih =>
        rw [waitLoop.eq_def]
        refine ⟨rfl, fun _ => ⟨rfl, fun answer => ⟨rfl, fun _ => ?_⟩⟩⟩
        split
        · trivial
        · exact ih
  rw [modemLoadWaitRemote]
  split
  · trivial
  · exact loop 100

theorem loadDp_silent (b : Build) (m : LoadInfo) : (loadDp b m).Calls LoadOp.Silent := by
  apply Prog.Calls.when
  apply (loadImgFromTable_silent b m.dp SP_IMG_FLAG NONE_IMAG_FLAG).bind
  intro _
  trivial

theorem loadSpl_silent (b : Build) (m : LoadInfo) (masks : Masks) :
    (loadSpl b m masks).Calls LoadOp.Silent := by
  rw [loadSpl]
  split
  · refine ⟨rfl, fun _ => ?_⟩
    split
    · apply (loadImgFromTable_silent b m.cp SPL_IMG_FLAG NONE_IMAG_FLAG).bind
      intro ret
      split
      · trivial
      · refine ⟨rfl, fun _ => ?_⟩
        apply (modemLoadWaitRemote_silent m.cp REMOTE_DDR_READY_FLAG).bind
        intro ready
        split <;> trivial
    · trivial
  · trivial

theorem rescanEp_silent (m : LoadInfo) (masks : Masks) :
    (rescanEp m masks).Calls LoadOp.Silent := by
  apply (modemLoadWaitRemote_silent m.cp EP_SET_BAR_DONE_FLAG).bind
  intro ready
  split
  · have rescan : modemRescanEpDevice.Calls LoadOp.Silent := ⟨rfl, fun _ => trivial⟩
    apply rescan.bind
    intro failed
    split
    · trivial
    · exact ⟨rfl, fun _ => trivial⟩
  · trivial

theorem loadAndTell_silent (b : Build) (m : LoadInfo) (loadFlag doneFlag : BitVec 32) :
    (loadAndTell b m loadFlag doneFlag).Calls LoadOp.Silent := by
  apply (loadImgFromTable_silent b m.cp loadFlag NONE_IMAG_FLAG).bind
  intro ret
  split
  · exact ⟨rfl, fun _ => trivial⟩
  · trivial

theorem loadMiniap_silent (b : Build) (m : LoadInfo) (masks : Masks) :
    (loadMiniap b m masks).Calls LoadOp.Silent := by
  rw [loadMiniap]
  split
  · apply (loadAndTell_silent b m _ _).bind
    intro _
    apply (loadAndTell_silent b m _ _).bind
    intro _
    apply Prog.Calls.bind
    · apply Prog.Calls.when
      exact ⟨rfl, fun _ => trivial⟩
    · intro _
      apply (loadAndTell_silent b m _ _).bind
      intro head
      split
      · exact rescanEp_silent m masks
      · trivial
  · trivial

theorem loadAgdsp_silent (b : Build) (m : LoadInfo) (masks : Masks) :
    (loadAgdsp b m masks).Calls LoadOp.Silent := by
  apply Prog.Calls.when
  apply (loadImgFromTable_silent b m.cp AUDIO_IMG_FLAG NONE_IMAG_FLAG).bind
  intro _
  trivial

theorem loadModem_silent (b : Build) (m : LoadInfo) (masks : Masks) :
    (loadModem b m masks).Calls LoadOp.Silent := by
  apply Prog.Calls.when
  apply (loadImgFromTable_silent b m.cp MODEM_IMG_FLAG MODEM_HEAD_IMG_FLAG).bind
  intro ret
  apply Prog.Calls.when
  exact ⟨rfl, fun _ => trivial⟩

def lockTurn (bRun : Bool) : Turn := if bRun then .unlock else .lock

def device (load : LoadValue) : List Bytes := if load.ioctrlIsOk then [load.ioCtrl] else []

/-- The devices that stop and start lock and unlock for a mask, in this order. -/
def devices (m : LoadInfo) (loadType : BitVec 32) : List Bytes :=
  (if anyBit loadType LOAD_SP_IMG then device m.sp else []) ++
    (if anyBit loadType LOAD_DP_IMG then device m.dp else []) ++
    (if anyBit loadType (LOAD_MODEM_IMG ||| LOAD_MINIAP_IMG) then device m.cp else [])

theorem writeLocks_modemLoadRun (bRun : Bool) (load : LoadValue) (o : Outcomes) :
    writeLocks (modemLoadRun bRun load) o = (device load).map fun path => (path, lockTurn bRun) := by
  unfold modemLoadRun device
  cases bRun <;> cases load.ioctrlIsOk <;> cases load.drvIsOk <;> rfl

theorem writeLocks_when (c : Bool) (p : LoadProg Unit) (o : Outcomes) :
    writeLocks (Prog.when c p) o = if c then writeLocks p o else [] := by
  cases c <;> rfl

theorem writeLocks_modemLoadRunAll (bRun : Bool) (m : LoadInfo) (loadType : BitVec 32)
    (o : Outcomes) : writeLocks (modemLoadRunAll bRun m loadType) o =
      (devices m loadType).map fun path => (path, lockTurn bRun) := by
  simp only [modemLoadRunAll, writeLocks_bind, after_when, writeLocks_when, after_modemLoadRun,
    ite_self, writeLocks_modemLoadRun, devices, List.map_append, List.append_assoc]
  cases anyBit loadType LOAD_SP_IMG <;> cases anyBit loadType LOAD_DP_IMG <;>
    cases anyBit loadType (LOAD_MODEM_IMG ||| LOAD_MINIAP_IMG) <;> rfl

theorem writeLocks_loadSp (b : Build) (m : LoadInfo) (o : Outcomes) :
    writeLocks (loadSp b m) o =
      ((devices m LOAD_SP_IMG).map fun path => (path, Turn.lock)) ++
        (devices m LOAD_SP_IMG).map fun path => (path, Turn.unlock) := by
  have unlock : writeLocks (Prog.when (b.sprdSecboot || b.vbootV2) do
      secureBootSetFlag LOAD_SP_IMG
      secureBootUnlockDdr) o = [] := by
    cases b.sprdSecboot || b.vbootV2 <;> rfl
  have verify (o : Outcomes) : writeLocks (Prog.when b.secure secureBootVerifyAll) o = [] := by
    cases b.secure <;> rfl
  have load (o : Outcomes) : writeLocks (Prog.when (m.sp.drvIsOk || m.sp.ioctrlIsOk) do
      let _ ← loadImgFromTable b m.sp SP_IMG_FLAG NONE_IMAG_FLAG) o = [] := by
    apply writeLocks_silent
    apply Prog.Calls.when
    apply (loadImgFromTable_silent b m.sp SP_IMG_FLAG NONE_IMAG_FLAG).bind
    intro _
    trivial
  simp only [loadSp, writeLocks_bind, unlock, load, verify, modemLoadStop, modemLoadStart,
    writeLocks_modemLoadRunAll, List.nil_append, List.append_nil]
  rfl

/-- The image loads of the sp and the dp, which come first. -/
def auxBefore (m : LoadInfo) (loadType : BitVec 32) : Nat :=
  (if anyBit loadType LOAD_SP_IMG then auxLoads m.sp else 0) +
    if anyBit loadType LOAD_DP_IMG then auxLoads m.dp else 0

theorem after_aux (b : Build) (m : LoadInfo) (loadType : BitVec 32) (o : Outcomes) :
    after (Prog.when (anyBit loadType LOAD_DP_IMG) (loadDp b m))
        (after (Prog.when (anyBit loadType LOAD_SP_IMG) (loadSp b m)) o) =
      o.skip (auxBefore m loadType) 0 := by
  simp only [after_when, after_loadSp, after_loadDp, auxBefore]
  cases anyBit loadType LOAD_SP_IMG <;> cases anyBit loadType LOAD_DP_IMG <;> simp

/-- What `load_modem_img` starts in the end. -/
def started (b : Build) (m : LoadInfo) (loadType : BitVec 32) (o : Outcomes) : BitVec 32 :=
  (value (bringUp b m ⟨loadType, startMask loadType⟩) (o.skip (auxBefore m loadType) 0)).startImg

theorem writeLocks_loadModemImg (b : Build) (m : LoadInfo) (loadType : BitVec 32) (o : Outcomes) :
    writeLocks (loadModemImg b m loadType) o =
      (if anyBit (requested b loadType) LOAD_SP_IMG then writeLocks (loadSp b m) o else []) ++
        (((devices m (startMask (requested b loadType))).map fun path => (path, Turn.lock)) ++
          (devices m (started b m (requested b loadType) o)).map fun path => (path, Turn.unlock)) := by
  have wake (on : Bool) (position : Bytes) (o : Outcomes) :
      writeLocks (modemCtrlEnableWakeLock on position) o = [] ∧
        after (modemCtrlEnableWakeLock on position) o = o := ⟨rfl, rfl⟩
  have state (s : ModemState) (o : Outcomes) :
      writeLocks (modemCtrlSetModemState s) o = [] ∧
        after (modemCtrlSetModemState s) o = o := ⟨rfl, rfl⟩
  simp only [loadModemImg, writeLocks_bind, (wake _ _ _).1, (wake _ _ _).2, (state _ _).1,
    (state _ _).2, modemLoadStop, modemLoadStart, writeLocks_modemLoadRunAll,
    after_modemLoadRunAll, after_aux, writeLocks_when, writeLocks_silent (loadDp_silent b m),
    writeLocks_silent (loadSpl_silent b m _), writeLocks_silent (loadAgdsp_silent b m _),
    writeLocks_silent (loadMiniap_silent b m _), writeLocks_silent (loadModem_silent b m _),
    Prog.pure_eq, writeLocks_ret, ite_self, List.nil_append, List.append_nil]
  simp only [started, bringUp, value_bind]
  rfl

/-- The dp and the cp are both stopped, and through the same device. -/
def SharedDevice (m : LoadInfo) (loadType : BitVec 32) : Prop :=
  anyBit loadType LOAD_DP_IMG = true ∧ anyBit loadType (LOAD_MODEM_IMG ||| LOAD_MINIAP_IMG) = true ∧
    m.dp.ioctrlIsOk = true ∧ m.cp.ioctrlIsOk = true ∧ m.dp.ioCtrl = m.cp.ioCtrl

theorem anyBit_or (mask a b : BitVec 32) : anyBit mask (a ||| b) = (anyBit mask a || anyBit mask b) := by
  rw [Bool.eq_iff_iff, Bool.or_eq_true]
  simp only [anyBit, bne_iff_ne, BitVec.and_or_distrib_left, ne_eq]
  exact (not_congr BitVec.or_eq_zero_iff).trans not_and_or

theorem startMask_sp (loadType : BitVec 32) : anyBit (startMask loadType) LOAD_SP_IMG = false := by
  unfold startMask
  split
  · simp [anyBit, LOAD_SP_IMG, BitVec.and_assoc]
  · simp_all

/-- Only the bit of the sp is taken out. -/
theorem startMask_other (loadType : BitVec 32) {bits : BitVec 32}
    (other : ~~~LOAD_SP_IMG &&& bits = bits) :
    anyBit (startMask loadType) bits = anyBit loadType bits := by
  unfold startMask
  split
  · rw [anyBit, BitVec.and_assoc, other, anyBit]
  · rfl

theorem startMask_cp (loadType : BitVec 32) :
    anyBit (startMask loadType) (LOAD_MODEM_IMG ||| LOAD_MINIAP_IMG) =
      anyBit loadType (LOAD_MODEM_IMG ||| LOAD_MINIAP_IMG) :=
  startMask_other loadType (by decide)

theorem devices_none (m : LoadInfo) : devices m Masks.none.startImg = [] := by
  simp only [devices, Masks.none, anyBit_zero]
  rfl

theorem devices_startMask_nodup (m : LoadInfo) (loadType : BitVec 32) :
    (devices m (startMask loadType)).Nodup ↔ ¬ SharedDevice m loadType := by
  have dp : anyBit (startMask loadType) LOAD_DP_IMG = anyBit loadType LOAD_DP_IMG :=
    startMask_other loadType (by decide)
  simp only [devices, startMask_sp, dp, startMask_cp, device, SharedDevice]
  cases anyBit loadType LOAD_DP_IMG <;>
    cases anyBit loadType (LOAD_MODEM_IMG ||| LOAD_MINIAP_IMG) <;>
    cases m.dp.ioctrlIsOk <;> cases m.cp.ioctrlIsOk <;> simp

theorem loadSp_balanced (b : Build) (m : LoadInfo) (o : Outcomes) :
    Balanced (writeLocks (loadSp b m) o) := by
  rw [writeLocks_loadSp, balanced_locks_unlocks_iff]
  have single : devices m LOAD_SP_IMG = device m.sp := by
    simp [devices, anyBit, LOAD_SP_IMG, LOAD_DP_IMG, LOAD_MODEM_IMG, LOAD_MINIAP_IMG]
  rw [single, device]
  split
  · exact List.nodup_singleton _
  · exact List.nodup_nil

/-- The miniap is asked for and its device is there. -/
def Miniap (m : LoadInfo) (loadType : BitVec 32) : Prop :=
  anyBit loadType LOAD_MINIAP_IMG = true ∧ m.cp.ioctrlIsOk = true

/-- Everything that was stopped is started, unless the miniap does not come up. -/
theorem started_cases (b : Build) (m : LoadInfo) (loadType : BitVec 32) (o : Outcomes) :
    ((Miniap m loadType → BroughtUp b m loadType (o.skip (auxBefore m loadType) 0)) ∧
        started b m loadType o = startMask loadType) ∨
      (Miniap m loadType ∧ ¬ BroughtUp b m loadType (o.skip (auxBefore m loadType) 0) ∧
        started b m loadType o = Masks.none.startImg) := by
  by_cases miniap : Miniap m loadType
  · rcases @bringUp_keeps b m miniap.2 ⟨loadType, startMask loadType⟩ miniap.1
      (o.skip (auxBefore m loadType) 0) with ⟨up, same⟩ | ⟨down, none⟩
    · exact Or.inl ⟨fun _ => up, congrArg Masks.startImg same⟩
    · exact Or.inr ⟨miniap, down, congrArg Masks.startImg none⟩
  · have other : (anyBit loadType LOAD_MINIAP_IMG && m.cp.ioctrlIsOk) = false := by
      simpa [Miniap] using miniap
    have same := @bringUp_other b m ⟨loadType, startMask loadType⟩ other
      (o.skip (auxBefore m loadType) 0)
    exact Or.inl ⟨fun asked => absurd asked miniap, congrArg Masks.startImg same⟩

/-- The miniap is stopped together with the modem. -/
theorem devices_miniap {m : LoadInfo} {loadType : BitVec 32} (miniap : Miniap m loadType) :
    devices m (startMask loadType) ≠ [] := by
  have stopped : anyBit loadType (LOAD_MODEM_IMG ||| LOAD_MINIAP_IMG) = true := by
    rw [anyBit_or, miniap.1, Bool.or_true]
  simp [devices, startMask_cp, stopped, device, miniap.2]

theorem loadModemImg_balanced_iff (b : Build) (m : LoadInfo) (loadType : BitVec 32) (o : Outcomes) :
    Balanced (writeLocks (loadModemImg b m loadType) o) ↔
      ¬ SharedDevice m (requested b loadType) ∧
        (Miniap m (requested b loadType) → BroughtUp b m (requested b loadType)
          (o.skip (auxBefore m (requested b loadType)) 0)) := by
  have sp : Balanced (if anyBit (requested b loadType) LOAD_SP_IMG then
      writeLocks (loadSp b m) o else []) := by
    split
    · exact loadSp_balanced b m o
    · exact balanced_nil
  rw [writeLocks_loadModemImg, sp.append_iff]
  rcases started_cases b m (requested b loadType) o with ⟨up, same⟩ | ⟨miniap, down, none⟩
  · rw [same, balanced_locks_unlocks_iff, devices_startMask_nodup]
    exact (and_iff_left up).symm
  · rw [none, devices_none, List.map_nil, List.append_nil, balanced_locks_iff]
    exact iff_of_false (devices_miniap miniap) fun both => down (both.2 miniap)

theorem writeLocks_loadSplImg {m : LoadInfo} (present : m.cp.ioctrlIsOk = true) (b : Build)
    (o : Outcomes) : writeLocks (loadSplImg b m) o =
      [(m.cp.ioCtrl, Turn.lock), (m.cp.ioCtrl,
        if (o.images.take (splLoads m)).sum = 0 then Turn.unlock else Turn.lock)] := by
  have lock (o : Outcomes) : writeLocks (modemLockWrite m.cp.ioCtrl) o = [(m.cp.ioCtrl, Turn.lock)] ∧
      after (modemLockWrite m.cp.ioCtrl) o = o := ⟨rfl, rfl⟩
  have unlock (o : Outcomes) :
      writeLocks (modemUnlockWrite m.cp.ioCtrl) o = [(m.cp.ioCtrl, Turn.unlock)] := rfl
  have tell (flag : BitVec 32) (o : Outcomes) :
      writeLocks (modemSetRemoteFlag m.cp.ioCtrl flag) o = [] ∧
        after (modemSetRemoteFlag m.cp.ioCtrl flag) o = o := ⟨rfl, rfl⟩
  simp only [loadSplImg, present, if_true, writeLocks_bind, (lock _).1, (lock _).2, (tell _ _).1,
    (tell _ _).2, writeLocks_silent (loadImgFromTable_silent b m.cp _ _), value_loadImgFromTable]
  by_cases loaded : (o.images.take (splLoads m)).sum = 0
  · have goesOn := loaded
    rw [splLoads] at goesOn
    simp [loaded, goesOn, unlock, (tell _ _).1]
  · have stops := loaded
    rw [splLoads] at stops
    simp [loaded, stops, (lock _).1]

theorem loadSplImg_balanced_iff (b : Build) (m : LoadInfo) (o : Outcomes) :
    Balanced (writeLocks (loadSplImg b m) o) ↔
      (m.cp.ioctrlIsOk = true → (o.images.take (splLoads m)).sum = 0) := by
  cases present : m.cp.ioctrlIsOk with
  | false =>
      have nothing : writeLocks (loadSplImg b m) o = [] := by
        rw [loadSplImg, present]
        rfl
      rw [nothing]
      exact iff_of_true balanced_nil fun absent => absurd absent (by decide)
  | true =>
      rw [writeLocks_loadSplImg present]
      by_cases loaded : (o.images.take (splLoads m)).sum = 0
      · rw [if_pos loaded]
        have pair := balanced_locks_unlocks_iff [m.cp.ioCtrl]
        exact iff_of_true (pair.mpr (List.nodup_singleton _)) fun _ => loaded
      · rw [if_neg loaded]
        have twice := balanced_locks_iff [m.cp.ioCtrl, m.cp.ioCtrl]
        exact iff_of_false (fun balanced => List.cons_ne_nil _ _ (twice.mp balanced))
          fun must => loaded (must rfl)

/-- One call of `load_modem_img` leaves the write locks balanced exactly if the miniap,
    where it is asked for, comes up, and the dp and the cp are not stopped through one
    device; one call of `load_spl_img` exactly if spl is loaded. -/
theorem write_locks_balanced_iff (b : Build) (m : LoadInfo) (loadType : BitVec 32) (o : Outcomes) :
    (Balanced (writeLocks (loadModemImg b m loadType) o) ↔
      ¬ SharedDevice m (requested b loadType) ∧
        (Miniap m (requested b loadType) → BroughtUp b m (requested b loadType)
          (o.skip (auxBefore m (requested b loadType)) 0))) ∧
    (Balanced (writeLocks (loadSplImg b m) o) ↔
      (m.cp.ioctrlIsOk = true → (o.images.take (splLoads m)).sum = 0)) :=
  ⟨loadModemImg_balanced_iff b m loadType o, loadSplImg_balanced_iff b m o⟩

/-- A cp with an spl image behind an ioctl device, and no other image. -/
def splOnly : LoadInfo where
  cp := {
    loadTable := [⟨bytes "/dev/spl", bytes "/data/spl", bytes "spl", 0, 0x10000, SPL_IMG_FLAG⟩]
    ioctrlIsOk := true
    ioCtrl := bytes "/dev/modem" }
  sp := {}
  dp := {}

/-- Every image load fails. -/
def allFail : Outcomes where
  images := Stream'.const (-1)
  flags := Stream'.const none
  rescans := Stream'.const 0
  extent := fun _ => (0, 0)
  dropped := fun _ => 0

/-- Spl cannot be loaded: `load_modem_img` locks the modem and never unlocks it, and
    `load_spl_img` locks it twice. -/
theorem failed_spl_keeps_lock :
    ¬ Balanced (writeLocks (loadModemImg {} splOnly LOADL_ALL_EXTERNAL_IMG) allFail) ∧
      ¬ Balanced (writeLocks (loadSplImg {} splOnly) allFail) := by
  have once : writeLocks (loadModemImg {} splOnly LOADL_ALL_EXTERNAL_IMG) allFail =
      [bytes "/dev/modem"].map fun path => (path, Turn.lock) := by decide +kernel
  have twice : writeLocks (loadSplImg {} splOnly) allFail =
      [bytes "/dev/modem", bytes "/dev/modem"].map fun path => (path, Turn.lock) := by
    decide +kernel
  rw [once, twice, balanced_locks_iff, balanced_locks_iff]
  exact ⟨List.cons_ne_nil _ _, List.cons_ne_nil _ _⟩

end ModemControl.Load
