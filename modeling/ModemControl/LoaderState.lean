import ModemControl.Foundation.Runs
import ModemControl.LoadVerify

/-! # The loader beside the listener

`load_modem_img` starts the modem and then sets `g_modem_state` to BOOTING, in two steps.
The listener thread sets the state when the modem reports, at any time. Both write the
word without looking at it.
-/

namespace ModemControl.LoaderState

open Foundation Load LoadCalls ListenModem

/-- How far a load has come. -/
inductive Phase where
  /-- Before the start of the modem. -/
  | loading
  /-- The modem is started, and the state not yet BOOTING. -/
  | started
  | booted
  deriving Repr, DecidableEq

/-- The last `modem_load_start` of a load. In the external variant the sp has been started
    on its own before that. -/
def lastStart (v : Variant) (loadType : BitVec 32) : Bool :=
  v == .internal || loadType != LOAD_SP_IMG

def Phase.next (v : Variant) (phase : Phase) : CallOp → Phase
  | .modemLoadStart loadType => if lastStart v loadType then .started else phase
  | .modemCtrlSetModemState .booting => .booted
  | _ => phase

theorem next_start (v : Variant) (phase : Phase) (loadType : BitVec 32) :
    phase.next v (.modemLoadStart loadType) = if lastStart v loadType then .started else phase := rfl

structure State where
  gModemState : ModemState
  /-- What is left of the load that runs. -/
  loader : CallProg Int := .ret 0
  phase : Phase := .loading
  /-- What the listener has still to do for the message it has read. -/
  todo : List ListenModem.Act := []
  /-- What the modem last reported, if it did so after the start of the load. -/
  reported : Option ModemState := none

inductive Input where
  /-- A load begins, for a control message or at boot. -/
  | load (loadType : BitVec 32)
  /-- The loader makes its next call. -/
  | loader (answer : (op : CallOp) → op.Res)
  /-- The listener reads a message. -/
  | message (data : Bytes) (isReset : Bool)
  /-- The listener takes its next step. -/
  | listener
  /-- A control message or a uevent sets the state. -/
  | other (g : ModemState)

/-- The state that a call of the loader leaves. -/
def called (v : Variant) (s : State) (op : CallOp) : State :=
  let g := match op with
    | .modemCtrlSetModemState g => g
    | _ => s.gModemState
  { s with gModemState := g, phase := s.phase.next v op }

/-- 'Modem Alive' and 'Modem Assert'. -/
def isReport (g : ModemState) : Bool := g == .alive || g == .assert

def listenerAct (s : State) : ListenModem.Act → State
  | .setModemState g =>
      { s with
        gModemState := g
        reported := if s.phase ≠ .loading ∧ isReport g then some g else none }
  | _ => s

def step (v : Variant) (b : Build) (m : LoadInfo) (s : State) : Input → Option State
  | .load loadType =>
      match s.loader with
      | .ret _ => some { s with
          loader := loadModemImg v b m loadType, phase := .loading, reported := none }
      | .call _ _ => none
  | .loader answer =>
      (s.loader.resume fun op => some (answer op, called v s op)).map fun (rest, s') =>
        { s' with loader := rest }
  | .message data isReset =>
      if s.todo = [] then some { s with todo := message v isReset data, reported := none } else none
  | .listener =>
      match s.todo with
      | [] => none
      | act :: rest => some (listenerAct { s with todo := rest } act)
  | .other g => some { s with gModemState := g, reported := none }

/-- Once the load has finished, the state is what the modem has reported. -/
def Kept (s : State) : Prop :=
  ∀ ret g, s.loader = .ret ret → s.reported = some g → s.gModemState = g

/-- The listener handles no report between the start and BOOTING. -/
def NotInBetween (s : State) : Input → Prop
  | .listener =>
      match s.todo with
      | .setModemState g :: _ => isReport g = true → s.phase ≠ .started
      | _ => True
  | _ => True

instance (s : State) (i : Input) : Decidable (NotInBetween s i) := by
  unfold NotInBetween
  split
  · split <;> infer_instance
  · infer_instance

/-- Once the state is BOOTING the loader only gives the wake lock back. -/
def phaseMonitor (v : Variant) : Monitor CallOp CallOp.Res Phase where
  next := fun phase op _ => phase.next v op
  ok := fun phase op => phase = .booted → op = .modemCtrlEnableWakeLock false

/-- What the loader does before BOOTING. -/
def Early (op : CallOp) : Prop := op ≠ .modemCtrlSetModemState .booting

theorem phase_early {v : Variant} {phase : Phase} {op : CallOp} (early : Early op)
    (before : phase ≠ .booted) : phase.next v op ≠ .booted := by
  cases op with
  | modemLoadStart loadType =>
      rw [next_start]
      cases lastStart v loadType with
      | false => exact before
      | true => exact Phase.noConfusion
  | modemCtrlSetModemState g =>
      cases g with
      | booting => exact (early rfl).elim
      | _ => exact before
  | _ => exact before

theorem meets_early {v : Variant} {phase : Phase} {α : Type} {p : CallProg α}
    (calls : p.Calls Early) (before : phase ≠ .booted) :
    p.Meets (phaseMonitor v) (fun _ phase => phase ≠ .booted) phase := by
  have lets (phase : Phase) (op : CallOp) (_ : Early op) (before : phase ≠ .booted) :
      (phaseMonitor v).ok phase op :=
    fun booted => absurd booted before
  have keeps (phase : Phase) (op : CallOp) (r : op.Res) (early : Early op)
      (before : phase ≠ .booted) : (phaseMonitor v).next phase op r ≠ .booted :=
    phase_early early before
  exact @Prog.Calls.meets _ _ _ _ (phaseMonitor v) phase Early (· ≠ .booted) p calls lets keeps before

/-- A call of `modem_ctrl_set_modem_state`. -/
def setsState : CallOp → Bool
  | .modemCtrlSetModemState _ => true
  | _ => false

theorem early_other {op : CallOp} (other : setsState op = false) : Early op := by
  rintro rfl
  cases other

theorem early_load (x : ImgType) (loadFlag skipFlag : BitVec 32) :
    (loadImgFromTable x loadFlag skipFlag).Calls Early := ⟨early_other rfl, fun _ => trivial⟩

theorem early_call {op : CallOp} {α : Type} {f : op.Res → CallProg α}
    (other : setsState op = false) (rest : ∀ r, (f r).Calls Early) :
    (Prog.call op .ret >>= f).Calls Early :=
  Prog.Calls.call (early_other other) rest

theorem early_tell (loadFlag doneFlag : BitVec 32) :
    (External.loadAndTell loadFlag doneFlag).Calls Early := by
  apply (early_load _ _ _).bind
  intro ret
  split
  · exact ⟨early_other rfl, fun _ => trivial⟩
  · trivial

theorem external_prepare_early (b : Build) (m : LoadInfo) (loadType : BitVec 32) :
    (External.prepare b m loadType).Calls Early := by
  refine Prog.Calls.call nofun fun _ => Prog.Calls.call nofun fun _ => ?_
  apply Prog.Calls.when
  apply Prog.Calls.bind
  · apply Prog.Calls.when
    exact ⟨early_other rfl, fun _ => ⟨early_other rfl, fun _ => trivial⟩⟩
  · intro _
    refine early_call rfl fun _ => ?_
    apply Prog.Calls.bind
    · apply Prog.Calls.when
      exact ⟨early_other rfl, fun _ => trivial⟩
    · intro _
      refine Prog.Calls.call nofun fun _ => ?_
      apply Prog.Calls.when
      exact ⟨early_other rfl, fun _ => trivial⟩

theorem external_loadSpl_early (m : LoadInfo) (masks : Masks) :
    (External.loadSpl m masks).Calls Early := by
  rw [External.loadSpl]
  split
  · refine early_call rfl fun _ => ?_
    split
    · refine early_call rfl fun ret => ?_
      split
      · trivial
      · refine early_call rfl fun _ => early_call rfl fun ready => ?_
        split <;> trivial
    · trivial
  · trivial

theorem external_loadMiniap_early (b : Build) (m : LoadInfo) (masks : Masks) :
    (External.loadMiniap b m masks).Calls Early := by
  rw [External.loadMiniap]
  split
  · apply (early_tell _ _).bind
    intro _
    apply (early_tell _ _).bind
    intro _
    apply Prog.Calls.bind
    · apply Prog.Calls.when
      exact early_call rfl fun _ => trivial
    · intro _
      apply (early_tell _ _).bind
      intro head
      split
      · refine early_call rfl fun ready => ?_
        split
        · refine early_call rfl fun failed => ?_
          split
          · trivial
          · exact early_call rfl fun _ => trivial
        · trivial
      · trivial
  · trivial

theorem external_load_early (b : Build) (m : LoadInfo) (loadType : BitVec 32) :
    (External.load b m loadType).Calls Early := by
  refine early_call rfl fun _ => ?_
  apply Prog.Calls.bind
  · apply Prog.Calls.when
    apply Prog.Calls.when
    exact early_call rfl fun _ => trivial
  · intro _
    apply (external_loadSpl_early m _).bind
    intro masks
    apply Prog.Calls.bind
    · apply Prog.Calls.when
      exact early_call rfl fun _ => trivial
    · intro _
      apply (external_loadMiniap_early b m masks).bind
      intro masks
      apply Prog.Calls.bind
      · apply Prog.Calls.when
        refine early_call rfl fun ret => ?_
        apply Prog.Calls.when
        exact early_call rfl fun _ => trivial
      · intro _
        trivial

theorem internal_prepare_early (b : Build) (m : LoadInfo) (loadType : BitVec 32) :
    (Internal.prepare b m loadType).Calls Early := by
  refine Prog.Calls.call nofun fun _ => ?_
  apply Prog.Calls.bind
  · apply Prog.Calls.when
    exact ⟨early_other rfl, fun _ => ⟨early_other rfl, fun _ => trivial⟩⟩
  · intro _
    refine Prog.Calls.call nofun fun _ => Prog.Calls.call nofun fun _ => ?_
    apply Prog.Calls.bind
    · apply Prog.Calls.when
      apply Prog.Calls.when
      exact ⟨early_other rfl, fun _ => trivial⟩
    · intro _
      apply Prog.Calls.when
      apply Prog.Calls.when
      exact ⟨early_other rfl, fun _ => trivial⟩

/-- The last three calls. -/
theorem meets_finish {v : Variant} {phase : Phase} (loadType : BitVec 32) (before : phase ≠ .booted) :
    (Internal.finish loadType).Meets (phaseMonitor v) (fun _ _ => True) phase := by
  have start : Early (.modemLoadStart loadType) := nofun
  have later : phase.next v (.modemLoadStart loadType) ≠ .booted := phase_early start before
  constructor
  · intro booted
    exact absurd booted before
  · intro _
    constructor
    · intro booted
      exact absurd booted later
    · intro _
      exact ⟨fun _ => rfl, fun _ => trivial⟩

theorem meets_loadModemImg (v : Variant) (b : Build) (m : LoadInfo) (loadType : BitVec 32) :
    (loadModemImg v b m loadType).Meets (phaseMonitor v) (fun _ _ => True) .loading := by
  have fresh : Phase.loading ≠ .booted := Phase.noConfusion
  cases v with
  | external =>
      rw [LoadCalls.loadModemImg, External.loadModemImg_parts]
      apply (meets_early (external_prepare_early b m _) fresh).bind
      intro _ phase before
      apply (meets_early (external_load_early b m _) before).bind
      intro masks phase before
      exact meets_finish masks.startImg before
  | internal =>
      rw [LoadCalls.loadModemImg, Internal.loadModemImg_parts]
      apply (meets_early (internal_prepare_early b m _) fresh).bind
      intro _ phase before
      have verify : (Prog.when b.secure LoadCalls.secureBootVerifyAll).Calls Early :=
        Prog.Calls.when _ ⟨nofun, fun _ => trivial⟩
      apply (meets_early verify before).bind
      intro _ phase before
      exact meets_finish _ before

theorem phase_booted {phase : Phase} (begun : phase ≠ .loading) (done : phase ≠ .started) :
    phase = .booted := by
  cases phase with
  | loading => exact absurd rfl begun
  | started => exact absurd rfl done
  | booted => rfl

/-- A report that counts was handled when the state was BOOTING already, and the loader
    has nothing left that would write over it. -/
structure Inv (v : Variant) (s : State) : Prop where
  report : ∀ g, s.reported = some g → s.phase = .booted ∧ s.gModemState = g
  loader : s.loader.Meets (phaseMonitor v) (fun _ _ => True) s.phase

theorem inv_step {v : Variant} {b : Build} {m : LoadInfo} (s : State) (i : Input) (s' : State)
    (inv : Inv v s) (notInBetween : NotInBetween s i) (taken : step v b m s i = some s') :
    Inv v s' := by
  cases i with
  | load loadType =>
      cases idle : s.loader with
      | ret =>
          simp only [step, idle, Option.some.injEq] at taken
          subst taken
          exact ⟨nofun, meets_loadModemImg v b m loadType⟩
      | call op next => simp [step, idle] at taken
  | loader answer =>
      obtain ⟨⟨rest, s₁⟩, resumed, rfl⟩ := Option.map_eq_some_iff.mp taken
      obtain ⟨op, next, r, same, answered, rfl⟩ := Prog.resume_cases resumed
      obtain ⟨rfl, rfl⟩ := Prod.mk.inj (Option.some.inj answered)
      have meets := inv.loader
      rw [same] at meets
      refine ⟨?_, meets.2 _⟩
      intro g reported
      obtain ⟨booted, kept⟩ := inv.report g reported
      obtain rfl := meets.1 booted
      exact ⟨booted, kept⟩
  | message data isReset =>
      simp only [step] at taken
      split at taken
      · obtain rfl := Option.some.inj taken
        exact ⟨nofun, inv.loader⟩
      · cases taken
  | listener =>
      cases queue : s.todo with
      | nil => simp [step, queue] at taken
      | cons act rest =>
          simp only [step, queue, Option.some.injEq] at taken
          subst taken
          cases act with
          | setModemState g =>
              refine ⟨?_, inv.loader⟩
              intro g' reported
              simp only [listenerAct] at reported
              split at reported
              · rename_i counts
                obtain rfl := Option.some.inj reported
                rw [NotInBetween, queue] at notInBetween
                have between := notInBetween counts.2
                refine ⟨?_, rfl⟩
                exact phase_booted counts.1 between
              · cases reported
          | _ => exact ⟨inv.report, inv.loader⟩
  | other g =>
      obtain rfl := Option.some.inj taken
      exact ⟨nofun, inv.loader⟩

/-- Nothing loads, and nothing was reported. -/
def idle (g : ModemState) : State := { gModemState := g }

/-- When no report is handled between the start of a modem and BOOTING, the loader never
    overwrites one. -/
theorem report_not_overwritten (v : Variant) (b : Build) (m : LoadInfo) (g : ModemState)
    (inputs : List Input) (along : Along (step v b m) NotInBetween (idle g) inputs) :
    Throughout (step v b m) Kept (idle g) inputs := by
  have start : Inv v (idle g) := ⟨nofun, trivial⟩
  apply (throughout_of_along inv_step start along).mono
  intro s inv ret g _ reported
  exact (inv.report g reported).2

/-- Every call of the loader succeeds. -/
def succeeds : (op : CallOp) → op.Res
  | .loadImgFromTable _ _ _ | .modemSetRemoteFlag _ | .modemRescanEpDevice => (0 : Int)
  | .modemLoadWaitRemote _ => true
  | .modemClearRemoteFlag _ => (0 : BitVec 32)
  | .modemLoadStop _ | .modemLoadStart _ | .secureBootSetFlag _ | .secureBootUnlockDdr |
    .secureBootVerifyAll | .modemCtrlSetModemState _ | .modemCtrlEnableWakeLock _ => ()

/-- A cp without a driver and without images. -/
def noImages : LoadInfo := ⟨{}, {}, {}⟩

/-- The external loader loads the modem; the listener hears 'Modem Alive' when the loader
    has made its first `n` calls and takes its first two steps, and the loader goes on. -/
def aliveAfter (n : Nat) : List Input :=
  .load LOAD_MODEM_IMG :: List.replicate n (.loader succeeds) ++
    [.message MODEM_ALIVE false, .listener, .listener] ++
    List.replicate (7 - n) (.loader succeeds)

/-- The modem answers when the loader is done. -/
theorem late_report_kept :
    Throughout (step .external {} noImages) Kept (idle .init) (aliveAfter 7) :=
  report_not_overwritten .external {} noImages .init (aliveAfter 7) (by decide)

/-- The modem answers at once, and the loader sets BOOTING over its answer. -/
theorem early_report_overwritten :
    ¬ Throughout (step .external {} noImages) Kept (idle .init) (aliveAfter 5) := by
  intro kept
  have overwritten := kept.last rfl 0 .alive rfl rfl
  exact absurd overwritten (by decide)

end ModemControl.LoaderState
