import ModemControl.LoadCalls

/-! # The boot handshake of the external modem

`load_modem_img` tells the miniap which images are there, and waits for its ddr before it
loads more. A failure clears both masks, and with them everything that is still to come.
-/

namespace ModemControl.LoadCalls

open Foundation Load

/-- The stages that end in an `..._DONE_FLAG`. -/
inductive Stage where
  | spl
  | uboot
  | boot
  | modemHead
  | modem
  deriving Repr, DecidableEq

namespace Stage

def loadFlag : Stage → BitVec 32
  | .spl => SPL_IMG_FLAG
  | .uboot => SML_IMG_FLAG ||| UBOOT_IMG_FLAG
  | .boot => BOOT_IMG_FLAG
  | .modemHead => MODEM_HEAD_IMG_FLAG
  | .modem => MODEM_IMG_FLAG

def skipFlag : Stage → BitVec 32
  | .modem => MODEM_HEAD_IMG_FLAG
  | _ => NONE_IMAG_FLAG

def doneFlag : Stage → BitVec 32
  | .spl => SPL_IMAGE_DONE_FLAG
  | .uboot => UBOOT_IMAGE_DONE_FLAG
  | .boot => BOOT_IMAGE_DONE_FLAG
  | .modemHead => MODEM_HEAD_DONE_FLAG
  | .modem => MODEM_IMAGE_DONE_FLAG

def load (s : Stage) : CallOp := .loadImgFromTable .cp s.loadFlag s.skipFlag

def done (s : Stage) : CallOp := .modemSetRemoteFlag s.doneFlag

/-- The stages that need the ddr of the miniap. -/
def needsDdr : Stage → Prop
  | .uboot | .boot | .modemHead => True
  | _ => False

theorem done_injective {s t : Stage} (same : s.done = t.done) : s = t := by
  have flags : s.doneFlag = t.doneFlag := CallOp.modemSetRemoteFlag.inj same
  revert flags
  cases s <;> cases t <;> decide

theorem clear_ne_done (s : Stage) : CallOp.modemSetRemoteFlag REMOTE_CLEAR_FLAG ≠ s.done := by
  cases s <;> decide

end Stage

namespace CallOp

def loadsCp : CallOp → Prop
  | .loadImgFromTable .cp _ _ => True
  | _ => False

/-- `modem_load_start` for the cp or the dp. -/
def startsModem : CallOp → Prop
  | .modemLoadStart loadType =>
      anyBit loadType LOAD_DP_IMG = true ∨
        anyBit loadType (LOAD_MODEM_IMG ||| LOAD_MINIAP_IMG) = true
  | _ => False

end CallOp

/-- Spl cannot be loaded, the ddr is not ready in time, or the rescan fails. -/
def Failure : Event CallOp CallOp.Res → Prop
  | ⟨.loadImgFromTable .cp loadFlag _, some ret⟩ => loadFlag = SPL_IMG_FLAG ∧ ret ≠ 0
  | ⟨.modemLoadWaitRemote .ddrReady, some ready⟩ => ready = false
  | ⟨.modemRescanEpDevice, some failed⟩ => failed ≠ 0
  | _ => False

def Failed (before : CallTrace) : Prop := ∃ e ∈ before, Failure e

def SplTold (before : CallTrace) : Prop := ∃ e ∈ before, e.op = Stage.spl.done

def DdrReady (before : CallTrace) : Prop := ⟨.modemLoadWaitRemote .ddrReady, some true⟩ ∈ before

/-- What must have gone before a call. -/
structure Handshake (before : CallTrace) (op : CallOp) : Prop where
  stops : Failed before → ¬ op.loadsCp ∧ ¬ op.startsModem
  ddrFirst : ∀ s : Stage, s.needsDdr → op = s.load → SplTold before ∧ DdrReady before
  doneOnce : ∀ s : Stage, op = s.done → ∀ e ∈ before, e.op ≠ s.done
  doneAfter : ∀ s : Stage, op = s.done → ∃ earlier, before = earlier ++ [⟨s.load, some (0 : Int)⟩]

/-- A call that the handshake does not care about. -/
def CallOp.indifferent : CallOp → Prop
  | .loadImgFromTable img _ _ => img ≠ .cp
  | .modemSetRemoteFlag flag => flag = REMOTE_CLEAR_FLAG
  | .modemLoadStart loadType => loadType = LOAD_SP_IMG
  | _ => True

theorem CallOp.indifferent.ne_done {op : CallOp} (plain : op.indifferent) (s : Stage) :
    op ≠ s.done := by
  rintro rfl
  exact s.clear_ne_done (congrArg CallOp.modemSetRemoteFlag plain).symm

theorem Handshake.of_indifferent {before : CallTrace} {op : CallOp} (plain : op.indifferent) :
    Handshake before op := by
  have notCp : ¬ op.loadsCp := by
    intro loads
    cases op with
    | loadImgFromTable img loadFlag skipFlag =>
        cases img with
        | cp => exact plain rfl
        | _ => exact loads
    | _ => exact loads
  have notStart : ¬ op.startsModem := by
    intro starts
    cases op with
    | modemLoadStart loadType =>
        obtain rfl : loadType = LOAD_SP_IMG := plain
        rcases starts with dp | cp
        · exact absurd dp (by decide)
        · exact absurd cp (by decide)
    | _ => exact starts
  constructor
  · intro _
    exact ⟨notCp, notStart⟩
  · rintro s _ rfl
    exact absurd trivial notCp
  · intro s same
    exact absurd same (plain.ne_done s)
  · intro s same
    exact absurd same (plain.ne_done s)

/-- None of these stages has been told done. -/
def Untold (stages : List Stage) (before : CallTrace) : Prop :=
  ∀ s ∈ stages, ∀ e ∈ before, e.op ≠ s.done

theorem failed_snoc {before : CallTrace} {e : Event CallOp CallOp.Res} :
    Failed (before ++ [e]) ↔ Failed before ∨ Failure e := by
  simp only [Failed, List.mem_append, List.mem_singleton, or_and_right, exists_or, exists_eq_left]

theorem untold_snoc {stages : List Stage} {before : CallTrace} {e : Event CallOp CallOp.Res}
    (untold : Untold stages before) (other : ∀ s ∈ stages, e.op ≠ s.done) :
    Untold stages (before ++ [e]) := by
  intro s inStages f member
  rcases List.mem_append.mp member with early | last
  · exact untold s inStages f early
  · exact List.mem_singleton.mp last ▸ other s inStages

/-- Spl is done and the ddr has answered. -/
def Up (before : CallTrace) : Prop := SplTold before ∧ DdrReady before

theorem Up.snoc {before : CallTrace} (up : Up before) (e : Event CallOp CallOp.Res) :
    Up (before ++ [e]) := by
  obtain ⟨⟨f, member, same⟩, ready⟩ := up
  exact ⟨⟨f, List.mem_append_left _ member, same⟩, List.mem_append_left _ ready⟩

/-- The monitor that checks the handshake. -/
abbrev handshake : Monitor CallOp CallOp.Res CallTrace := Monitor.history Handshake

/-- After a failure the masks are empty; these stages have not been told done. -/
structure Gate (masks : Masks) (stages : List Stage) (before : CallTrace) : Prop where
  closed : Failed before → masks = Masks.none
  untold : Untold stages before

theorem Gate.going {masks : Masks} {stages : List Stage} {before : CallTrace} {bits : BitVec 32}
    (gate : Gate masks stages before)
    (asked : anyBit masks.loadType bits = true ∨ anyBit masks.startImg bits = true) :
    ¬ Failed before := by
  intro failed
  rw [gate.closed failed, Masks.none, anyBit_zero] at asked
  simp at asked

theorem Gate.snoc {masks masks' : Masks} {stages : List Stage} {before : CallTrace}
    {e : Event CallOp CallOp.Res} (gate : Gate masks stages before)
    (fails : Failure e → masks' = Masks.none) (tells : ∀ s ∈ stages, e.op ≠ s.done)
    (clears : masks' = masks ∨ masks' = Masks.none) : Gate masks' stages (before ++ [e]) := by
  constructor
  · intro failed
    rcases failed_snoc.mp failed with early | last
    · rcases clears with same | none
      · exact same.trans (gate.closed early)
      · exact none
    · exact fails last
  · exact untold_snoc gate.untold tells

theorem Gate.snoc_indifferent {masks masks' : Masks} {stages : List Stage} {before : CallTrace}
    {op : CallOp} {r : op.Res} (gate : Gate masks stages before) (plain : op.indifferent)
    (fails : Failure ⟨op, some r⟩ → masks' = Masks.none)
    (clears : masks' = masks ∨ masks' = Masks.none) :
    Gate masks' stages (before ++ [⟨op, some r⟩]) :=
  gate.snoc fails (fun s _ => plain.ne_done s) clears

theorem Gate.tail {masks : Masks} {s : Stage} {stages : List Stage} {before : CallTrace}
    (gate : Gate masks (s :: stages) before) : Gate masks stages before :=
  ⟨gate.closed, fun t inStages => gate.untold t (List.mem_cons_of_mem s inStages)⟩

/-- A call that is no failure and tells nothing. -/
def CallOp.quiet : CallOp → Prop
  | .modemLoadWaitRemote _ => False
  | .modemRescanEpDevice => False
  | op => op.indifferent

theorem CallOp.quiet.indifferent {op : CallOp} (quiet : op.quiet) : op.indifferent := by
  cases op <;> first | exact quiet | exact trivial

theorem CallOp.quiet.not_failure {op : CallOp} (quiet : op.quiet) (r : op.Res) :
    ¬ Failure ⟨op, some r⟩ := by
  intro failure
  cases op with
  | loadImgFromTable img loadFlag skipFlag =>
      cases img with
      | cp => exact quiet rfl
      | _ => exact failure
  | modemLoadWaitRemote wait => exact quiet
  | modemRescanEpDevice => exact quiet
  | _ => exact failure

theorem Gate.of_quiet {masks : Masks} {stages : List Stage} {before : CallTrace} {α : Type}
    {p : CallProg α} (gate : Gate masks stages before) (calls : p.Calls CallOp.quiet) :
    p.Meets handshake (fun _ => Gate masks stages) before := by
  apply calls.meets _ _ gate
  · intro before op quiet _
    exact Handshake.of_indifferent quiet.indifferent
  · intro before op r quiet gate
    apply gate.snoc
    · intro failure
      exact absurd failure (quiet.not_failure r)
    · intro s _
      exact quiet.indifferent.ne_done s
    · exact Or.inl rfl

theorem loads_cp {before : CallTrace} (s : Stage) (going : ¬ Failed before)
    (ddr : s.needsDdr → Up before) : Handshake before s.load := by
  constructor
  · intro failed
    exact absurd failed going
  · intro t needs same
    have sameFlag : s.loadFlag = t.loadFlag := (CallOp.loadImgFromTable.inj same).2.1
    have sameStage : s = t := by
      revert sameFlag
      cases s <;> cases t <;> decide
    exact ddr (sameStage ▸ needs)
  · rintro t ⟨⟩
  · rintro t ⟨⟩

theorem tells_done {before : CallTrace} (s : Stage) (untold : ∀ e ∈ before, e.op ≠ s.done) :
    Handshake (before ++ [⟨s.load, some (0 : Int)⟩]) s.done := by
  constructor
  · intro _
    exact ⟨id, id⟩
  · rintro t _ ⟨⟩
  · intro t same e member
    obtain rfl := Stage.done_injective same
    rcases List.mem_append.mp member with early | last
    · exact untold e early
    · rw [List.mem_singleton.mp last]
      rintro ⟨⟩
  · intro t same
    obtain rfl := Stage.done_injective same
    exact ⟨before, rfl⟩

/-- The load of a stage, whatever its result, leaves the gate as it is if a failure of
    it is allowed for. -/
theorem Gate.load {masks masks' : Masks} {stages : List Stage} {before : CallTrace}
    (gate : Gate masks stages before) (s : Stage) (ret : Int)
    (fails : s = .spl → ret ≠ 0 → masks' = Masks.none)
    (clears : masks' = masks ∨ masks' = Masks.none) :
    Gate masks' stages (before ++ [⟨s.load, some ret⟩]) := by
  apply gate.snoc _ _ clears
  · rintro ⟨flag, failed⟩
    apply fails _ failed
    revert flag
    cases s <;> decide
  · rintro t _ ⟨⟩

theorem Gate.done {masks : Masks} {s : Stage} {stages : List Stage} {before : CallTrace}
    (gate : Gate masks (s :: stages) before) (once : s ∉ stages) (ret : Int) :
    Gate masks stages (before ++ [⟨s.done, some ret⟩]) := by
  apply gate.tail.snoc _ _ (Or.inl rfl)
  · rintro ⟨⟩
  · intro t inStages same
    exact once (Stage.done_injective same ▸ inStages)

/-- Nothing is asked for any more. -/
theorem none_asked (bits : BitVec 32) (present : Bool) :
    (anyBit Masks.none.loadType bits && present) = false := by
  rw [Masks.none, anyBit_zero, Bool.false_and]

theorem loadSpl_handshake (m : LoadInfo) {masks : Masks} {stages : List Stage} {before : CallTrace}
    (gate : Gate masks (.spl :: stages) before) (once : .spl ∉ stages) :
    (External.loadSpl m masks).Meets handshake
      (fun masks' before' => Gate masks' stages before' ∧
        ((anyBit masks'.loadType LOAD_MINIAP_IMG && m.cp.ioctrlIsOk) = true → Up before'))
      before := by
  have nothing (before : CallTrace) :
      (anyBit Masks.none.loadType LOAD_MINIAP_IMG && m.cp.ioctrlIsOk) = true → Up before := by
    rw [none_asked]
    exact Bool.noConfusion
  rw [External.loadSpl]
  split
  · refine Prog.Meets.call (Handshake.of_indifferent rfl) ?_
    intro cleared
    have gate : Gate masks (.spl :: stages)
        (before ++ [⟨.modemSetRemoteFlag REMOTE_CLEAR_FLAG, some cleared⟩]) :=
      gate.snoc_indifferent rfl False.elim (Or.inl rfl)
    split
    · rename_i asked
      apply Prog.Meets.call (loads_cp .spl (gate.going (Or.inl asked)) False.elim)
      intro ret
      split
      · exact ⟨gate.tail.load .spl ret (fun _ _ => rfl) (Or.inr rfl), nothing _⟩
      · rename_i loaded
        obtain rfl : ret = 0 := by simpa using loaded
        apply Prog.Meets.call (tells_done .spl (gate.untold .spl List.mem_cons_self))
        intro told
        have done := (gate.load .spl 0 (fun _ failed => absurd rfl failed) (Or.inl rfl)).done once told
        refine Prog.Meets.call (Handshake.of_indifferent trivial) ?_
        intro ready
        cases ready with
        | false => exact ⟨done.snoc_indifferent trivial (fun _ => rfl) (Or.inr rfl), nothing _⟩
        | true =>
            refine ⟨done.snoc_indifferent trivial Bool.noConfusion (Or.inl rfl), ?_⟩
            intro _
            constructor
            · refine ⟨⟨Stage.spl.done, some told⟩, ?_, rfl⟩
              exact List.mem_append_left _ (List.mem_append_right _ List.mem_cons_self)
            · exact List.mem_append_right _ List.mem_cons_self
    · rename_i notAsked
      refine ⟨gate.tail, ?_⟩
      intro asked
      rw [Bool.and_eq_true] at asked
      exact absurd asked.1 notAsked
  · rename_i skipped
    refine ⟨gate.tail, ?_⟩
    intro asked
    rw [Bool.and_eq_true] at asked
    rw [asked.2, Bool.true_and, bne_iff_ne, not_not] at skipped
    rw [skipped, anyBit_zero] at asked
    cases asked.1

theorem loadAgdsp_handshake {masks : Masks} {stages : List Stage} {before : CallTrace}
    (gate : Gate masks stages before) :
    (External.loadAgdsp masks).Meets handshake
      (fun _ before' => Gate masks stages before' ∧ (Up before → Up before')) before := by
  apply Prog.Meets.when
  · intro asked
    have allowed : Handshake before (.loadImgFromTable .cp AUDIO_IMG_FLAG NONE_IMAG_FLAG) := by
      constructor
      · intro failed
        exact absurd failed (gate.going (Or.inl asked))
      · intro s _ same
        have flag : AUDIO_IMG_FLAG = s.loadFlag := (CallOp.loadImgFromTable.inj same).2.1
        cases s <;> exact absurd flag (by decide)
      · rintro s ⟨⟩
      · rintro s ⟨⟩
    apply Prog.Meets.call allowed
    intro ret
    refine ⟨gate.snoc ?_ nofun (Or.inl rfl), fun up => up.snoc _⟩
    rintro ⟨flag, _⟩
    exact absurd flag (by decide)
  · intro _
    exact ⟨gate, id⟩

/-- One of the three stages of the miniap after spl. -/
theorem loadAndTell_handshake (s : Stage) {masks : Masks} {stages : List Stage} {before : CallTrace}
    (noSkip : s.skipFlag = NONE_IMAG_FLAG) (notSpl : s ≠ .spl)
    (gate : Gate masks (s :: stages) before) (once : s ∉ stages) (going : ¬ Failed before)
    (up : Up before) :
    (External.loadAndTell s.loadFlag s.doneFlag).Meets handshake
      (fun _ before' => Gate masks stages before' ∧ ¬ Failed before' ∧ Up before') before := by
  have load (ret : Int) : ¬ Failed (before ++ [⟨s.load, some ret⟩]) := by
    rw [failed_snoc]
    rintro (early | ⟨flag, _⟩)
    · exact going early
    · cases s <;> first | exact notSpl rfl | exact absurd flag (by decide)
  have loaded (ret : Int) : Gate masks (s :: stages) (before ++ [⟨s.load, some ret⟩]) :=
    gate.load s ret (fun isSpl => absurd isSpl notSpl) (Or.inl rfl)
  cases s with
  | spl => exact absurd rfl notSpl
  | modem => exact absurd noSkip (by decide)
  | uboot | boot | modemHead =>
      apply Prog.Meets.call (loads_cp _ going fun _ => up)
      intro ret
      split
      · rename_i ok
        obtain rfl : ret = 0 := by simpa using ok
        apply Prog.Meets.call (tells_done _ (gate.untold _ List.mem_cons_self))
        intro told
        refine ⟨(loaded 0).done once told, ?_, (up.snoc _).snoc _⟩
        intro failed
        exact (failed_snoc.mp failed).elim (load 0) id
      · exact ⟨(loaded ret).tail, load ret, up.snoc _⟩

theorem rescanEp_handshake {masks : Masks} {stages : List Stage} {before : CallTrace}
    (gate : Gate masks stages before) :
    (External.rescanEp masks).Meets handshake (fun masks' => Gate masks' stages) before := by
  refine Prog.Meets.call (Handshake.of_indifferent trivial) ?_
  intro ready
  have waited : Gate masks stages
      (before ++ [⟨.modemLoadWaitRemote .epSetBarDone, some ready⟩]) :=
    gate.snoc_indifferent trivial False.elim (Or.inl rfl)
  cases ready with
  | false => exact waited
  | true =>
      refine Prog.Meets.call (Handshake.of_indifferent trivial) ?_
      intro failed
      split
      · exact waited.snoc_indifferent trivial (fun _ => rfl) (Or.inr rfl)
      · rename_i ok
        obtain rfl : failed = 0 := by simpa using ok
        have rescanned : Gate masks stages
            (before ++ [⟨.modemLoadWaitRemote .epSetBarDone, some true⟩] ++
              [⟨.modemRescanEpDevice, some (0 : Int)⟩]) :=
          waited.snoc_indifferent trivial (fun failure => absurd rfl failure) (Or.inl rfl)
        refine Prog.Meets.call (Handshake.of_indifferent trivial) ?_
        intro _
        exact rescanned.snoc_indifferent trivial False.elim (Or.inl rfl)

theorem loadMiniap_handshake (b : Build) (m : LoadInfo) {masks : Masks} {before : CallTrace}
    (gate : Gate masks [.uboot, .boot, .modemHead, .modem] before)
    (up : (anyBit masks.loadType LOAD_MINIAP_IMG && m.cp.ioctrlIsOk) = true → Up before) :
    (External.loadMiniap b m masks).Meets handshake (fun masks' => Gate masks' [.modem]) before := by
  rw [External.loadMiniap]
  split
  · rename_i asked
    have going : ¬ Failed before := by
      rw [Bool.and_eq_true] at asked
      exact gate.going (Or.inl asked.1)
    apply (loadAndTell_handshake .uboot rfl (by decide) gate (by decide) going (up asked)).bind
    rintro _ before ⟨gate, going, up⟩
    apply (loadAndTell_handshake .boot rfl (by decide) gate (by decide) going up).bind
    rintro _ before ⟨gate, going, up⟩
    have clear : (Prog.when b.pcieRescan do
        let _ ← modemClearRemoteFlag EP_SET_BAR_DONE_FLAG).Meets handshake
          (fun _ before' => Gate masks [.modemHead, .modem] before' ∧ ¬ Failed before' ∧ Up before')
          before := by
      apply Prog.Meets.when
      · intro _
        refine Prog.Meets.call (Handshake.of_indifferent trivial) ?_
        intro _
        refine ⟨gate.snoc_indifferent trivial False.elim (Or.inl rfl), ?_, up.snoc _⟩
        intro failed
        exact (failed_snoc.mp failed).elim going id
      · intro _
        exact ⟨gate, going, up⟩
    apply clear.bind
    rintro _ before ⟨gate, going, up⟩
    apply (loadAndTell_handshake .modemHead rfl (by decide) gate (by decide) going up).bind
    rintro head before ⟨gate, going, up⟩
    split
    · exact rescanEp_handshake gate
    · exact gate
  · exact gate.tail.tail.tail

theorem loadModem_handshake (m : LoadInfo) {masks : Masks} {before : CallTrace}
    (gate : Gate masks [.modem] before) :
    (External.loadModem m masks).Meets handshake (fun _ => Gate masks []) before := by
  apply Prog.Meets.when
  · intro asked
    apply Prog.Meets.call (loads_cp .modem (gate.going (Or.inl asked)) False.elim)
    intro ret
    have loaded : Gate masks [.modem] (before ++ [⟨Stage.modem.load, some ret⟩]) :=
      gate.load .modem ret nofun (Or.inl rfl)
    apply Prog.Meets.when
    · intro ok
      obtain rfl : ret = 0 := by simpa using (Bool.and_eq_true_iff.mp ok).1
      apply Prog.Meets.call (tells_done .modem (gate.untold .modem List.mem_cons_self))
      intro told
      exact loaded.done (by decide) told
    · intro _
      exact loaded.tail
  · intro _
    exact gate.tail

theorem start_handshake {masks : Masks} {before : CallTrace} (gate : Gate masks [] before) :
    Handshake before (.modemLoadStart masks.startImg) := by
  constructor
  · intro failed
    refine ⟨id, ?_⟩
    rw [gate.closed failed]
    rintro (dp | cp)
    · exact absurd dp (by decide)
    · exact absurd cp (by decide)
  · rintro s _ ⟨⟩
  · rintro s ⟨⟩
  · rintro s ⟨⟩

theorem loadSp_quiet (b : Build) (m : LoadInfo) : (External.loadSp b m).Calls CallOp.quiet := by
  rw [External.loadSp]
  apply Prog.Calls.bind
  · apply Prog.Calls.when
    exact ⟨trivial, fun _ => ⟨trivial, fun _ => trivial⟩⟩
  · intro _
    refine Prog.Calls.call trivial fun _ => ?_
    apply Prog.Calls.bind
    · apply Prog.Calls.when
      exact ⟨ImgType.noConfusion, fun _ => trivial⟩
    · intro _
      refine Prog.Calls.call rfl fun _ => ?_
      apply Prog.Calls.when
      exact ⟨trivial, fun _ => trivial⟩

theorem loadDp_quiet (m : LoadInfo) : (External.loadDp m).Calls CallOp.quiet := by
  apply Prog.Calls.when
  exact ⟨ImgType.noConfusion, fun _ => trivial⟩

theorem loadModemImg_handshake (b : Build) (m : LoadInfo) (loadType : BitVec 32) :
    (External.loadModemImg b m loadType).Meets handshake (fun _ _ => True) [] := by
  have gate : Gate ⟨requested b loadType, startMask (requested b loadType)⟩
      [.spl, .uboot, .boot, .modemHead, .modem] [] := by
    constructor
    · rintro ⟨_, ⟨⟩, _⟩
    · rintro _ _ _ ⟨⟩
  have wake (on : Bool) : (modemCtrlEnableWakeLock on).Calls CallOp.quiet :=
    ⟨trivial, fun _ => trivial⟩
  have state (s : ModemState) : (modemCtrlSetModemState s).Calls CallOp.quiet :=
    ⟨trivial, fun _ => trivial⟩
  have stop (t : BitVec 32) : (modemLoadStop t).Calls CallOp.quiet := ⟨trivial, fun _ => trivial⟩
  rw [External.loadModemImg]
  apply (gate.of_quiet (wake true)).bind
  intro _ before gate
  apply (gate.of_quiet (state .loading)).bind
  intro _ before gate
  apply (gate.of_quiet ((loadSp_quiet b m).when _)).bind
  intro _ before gate
  apply (gate.of_quiet (stop _)).bind
  intro _ before gate
  apply (gate.of_quiet ((loadDp_quiet m).when _)).bind
  intro _ before gate
  apply (loadSpl_handshake m gate (by decide)).bind
  rintro masks before ⟨gate, up⟩
  apply (loadAgdsp_handshake gate).bind
  rintro _ before ⟨gate, later⟩
  apply (loadMiniap_handshake b m gate fun asked => later (up asked)).bind
  intro masks before gate
  apply (loadModem_handshake m gate).bind
  intro _ before gate
  apply Prog.Meets.call (start_handshake gate)
  intro _
  refine Prog.Meets.call (Handshake.of_indifferent trivial) ?_
  intro _
  refine Prog.Meets.call (Handshake.of_indifferent trivial) ?_
  intro _
  trivial

theorem handshake_after (before trace : CallTrace) (finished : ∀ e ∈ trace, e.res ≠ none) :
    handshake.after before trace = before ++ trace := by
  induction trace generalizing before with
  | nil => exact (List.append_nil before).symm
  | cons e rest ih =>
      obtain ⟨op, res⟩ := e
      cases res with
      | none => exact absurd rfl (finished _ List.mem_cons_self)
      | some r =>
          rw [Monitor.after_cons, ih _ fun e member => finished e (List.mem_cons_of_mem _ member),
            List.append_cons]
          rfl

/-- Every call of an external `load_modem_img` respects the handshake: after a failure
    of spl, of the ddr or of the rescan nothing of the cp is loaded and neither cp nor dp
    started; the stages that need the ddr come after it has answered; and a stage is told
    done once, right after its images were loaded. -/
theorem boot_handshake (b : Build) (m : LoadInfo) (loadType : BitVec 32) (o : Outcomes)
    (before after : CallTrace) (e : Event CallOp CallOp.Res)
    (run : (calls .external b m loadType o).map Layer.event = before ++ e :: after) :
    Handshake before e.op := by
  have accepts := @calls_accepted .external b m loadType _ _ _ _ (loadModemImg_handshake b m loadType) o
  have finished : ∀ e ∈ before, e.res ≠ none := by
    intro e member
    have inRun : e ∈ (calls .external b m loadType o).map Layer.event := by
      rw [run]
      exact List.mem_append_left _ member
    obtain ⟨c, _, rfl⟩ := List.mem_map.mp inRun
    nofun
  have allowed := (run ▸ accepts).at
  rw [handshake_after [] before finished] at allowed
  exact allowed

/-- A cp behind an ioctl device, with nothing to load. -/
def emptyCp : LoadInfo where
  cp := { ioctrlIsOk := true, ioCtrl := bytes "/dev/modem" }
  sp := {}
  dp := {}

/-- Every image is loaded, and the ddr is ready at once. -/
def allWell : Outcomes where
  images := Stream'.const 0
  flags := Stream'.const (some REMOTE_DDR_READY_FLAG)
  rescans := Stream'.const 0
  extent := fun _ => (0, 0)
  dropped := fun _ => 0

/-- U-Boot is loaded once spl is done and the ddr has answered. -/
theorem boot_handshake_uboot :
    Handshake [⟨.modemCtrlEnableWakeLock true, some ()⟩, ⟨.modemCtrlSetModemState .loading, some ()⟩,
      ⟨.modemLoadStop LOAD_MINIAP_IMG, some ()⟩,
      ⟨.modemSetRemoteFlag REMOTE_CLEAR_FLAG, some (0 : Int)⟩, ⟨Stage.spl.load, some (0 : Int)⟩,
      ⟨Stage.spl.done, some (0 : Int)⟩, ⟨.modemLoadWaitRemote .ddrReady, some true⟩]
      Stage.uboot.load :=
  boot_handshake {} emptyCp LOAD_MINIAP_IMG allWell _ _ ⟨Stage.uboot.load, some (0 : Int)⟩ rfl

end ModemControl.LoadCalls
