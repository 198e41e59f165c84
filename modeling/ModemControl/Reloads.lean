import ModemControl.ListenLoops
import ModemControl.LoaderState

/-! # One reload for a fault

`modem_ctrl_listen_clients` has the modem loaded again only when `g_modem_state` is BLOCK,
ASSERT or RESET. The reload takes that away: `load_modem_img` sets LOADING and BOOTING, and
`modem_ctrl_reboot_external_modem` sets REBOOT_EXT_MODEM before it rescans the ep device and
loads. The other threads set the state beside it, at any time and to anything.
-/

namespace ModemControl.Reloads

open Foundation ListenModem ListenClients LoadCalls LoaderState
open Load (Build LoadInfo Masks LOADL_ALL_EXTERNAL_IMG NONE_IMAG_FLAG requested)

/-- The states in which a control message is not skipped. -/
def isFault (g : ModemState) : Bool := g == .block || g == .assert || g == .reset

/-- Where the thread of `modem_ctrl_listen_clients` is, with the rest of the loop body behind
    a reload. -/
inductive Worker where
  | body (p : ClientProg Bytes)
  /-- At the head of `modem_ctrl_reboot_external_modem`. -/
  | reboot (p : ClientProg Bytes)
  /-- In the loop of `modem_reboot_all_modem`. -/
  | rescan (p : ClientProg Bytes)
  | load (loader : CallProg Int) (p : ClientProg Bytes)

structure State where
  gModemState : ModemState := .init
  worker : Worker
  /-- A fault was set since the last reload began. -/
  faulted : Bool := false

/-- The buffer is zero at first. -/
def start (v : Variant) : State :=
  { worker := .body (ListenClients.body v (.replicate MAX_ASSERT_INFO_LEN 0)) }

def State.set (s : State) (g : ModemState) : State :=
  { s with gModemState := g, faulted := s.faulted || isFault g }

inductive Input where
  /-- The thread makes its next call. -/
  | worker (answer : (op : ListenClients.Op) → op.Res) (loads : (op : CallOp) → op.Res)
  /-- Another thread sets the state. -/
  | other (g : ModemState)

/-- A call that has the modem loaded again. -/
def reloads : ListenClients.Op → Bool
  | .loadModemImg _ | .modemCtrlRebootExternalModem => true
  | _ => false

def bodyStep (v : Variant) (b : Build) (m : LoadInfo) (answer : (op : ListenClients.Op) → op.Res)
    (s : State) : ClientProg Bytes → State
  | .ret buf => { s with worker := .body (ListenClients.body v buf) }
  | .call (.gModemStateIs g) next => { s with worker := .body (next (s.gModemState == g)) }
  | .call (.modemCtrlSetModemState g) next => { s.set g with worker := .body (next ()) }
  | .call (.loadModemImg loadType) next =>
      { s with worker := .load (loadModemImg v b m loadType) (next ()), faulted := false }
  | .call .modemCtrlRebootExternalModem next =>
      { s with worker := .reboot (next ()), faulted := false }
  | .call op next => { s with worker := .body (next (answer op)) }

/-- The load of `modem_reboot_all_modem`; its reboot ioctl is not seen here. -/
def allExternal (v : Variant) (b : Build) (m : LoadInfo) : CallProg Int :=
  loadModemImg v b m LOADL_ALL_EXTERNAL_IMG

def workerStep (v : Variant) (b : Build) (m : LoadInfo) (answer : (op : ListenClients.Op) → op.Res)
    (loads : (op : CallOp) → op.Res) (s : State) : State :=
  match s.worker with
  | .body p => bodyStep v b m answer s p
  | .reboot p =>
      { s.set .rebootExtModem with
        worker := if b.pcieRescan then .rescan p else .load (allExternal v b m) p }
  | .rescan p =>
      let bContinue := loads .modemRescanEpDevice
      { s with worker := if bContinue ≠ 0 then .rescan p else .load (allExternal v b m) p }
  | .load (.ret _) p => { s with worker := .body p }
  | .load (.call (.modemCtrlSetModemState g) next) p =>
      { s.set g with worker := .load (next ()) p }
  | .load (.call op next) p => { s with worker := .load (next (loads op)) p }

def step (v : Variant) (b : Build) (m : LoadInfo) (s : State) : Input → Option State
  | .worker answer loads => some (workerStep v b m answer loads s)
  | .other g => some (s.set g)

/-- A reload begins with this step. -/
def Begins (s : State) : Input → Prop
  | .worker _ _ => ∃ op next, s.worker = .body (.call op next) ∧ reloads op = true
  | .other _ => False

/-- How far a message has come. -/
inductive Stage where
  | unchecked
  /-- The state was found to be a fault. -/
  | passed
  /-- The reload is made. -/
  | reloaded
  deriving Repr, DecidableEq

def Stage.next (stage : Stage) : (op : ListenClients.Op) → op.Res → Stage
  | .gModemStateIs g, same => if same && isFault g then .passed else stage
  | .loadModemImg _, _ | .modemCtrlRebootExternalModem, _ => .reloaded
  | _, _ => stage

def stageMonitor : Monitor ListenClients.Op ListenClients.Op.Res Stage where
  next := Stage.next
  ok stage op := reloads op = true → stage = .passed

/-- Nothing that a message is handled with but the check of the state and the reload. -/
def Aside (op : ListenClients.Op) : Prop :=
  stageMonitor.ok .reloaded op ∧ ∀ stage r, stageMonitor.next stage op r = stage

theorem meets_aside {α : Type} {p : ClientProg α} (calls : p.Calls Aside) (stage : Stage) :
    p.Meets stageMonitor (fun _ stage' => stage' = stage) stage := by
  apply Prog.Calls.meets_same
  refine calls.mono ?_
  rintro op ⟨ok, same⟩
  refine ⟨?_, same stage⟩
  intro reload
  exact absurd (ok reload) Stage.noConfusion

/-- A message that is not skipped has found a fault. -/
theorem meets_neither (states : List ModemState) (faults : ∀ g ∈ states, isFault g = true) :
    (neither states).Meets stageMonitor (fun skip stage => skip = false → stage = .passed)
      .unchecked := by
  induction states with
  | nil => exact nofun
  | cons g rest ih =>
      rw [List.forall_mem_cons] at faults
      refine Prog.Meets.call nofun ?_
      intro same
      cases same with
      | true =>
          intro _
          simp [stageMonitor, Stage.next, faults.1]
      | false => exact ih faults.2

theorem aside_waitReset (cnt : Nat) : (waitReset cnt).Calls Aside := by
  induction cnt with
  | zero => trivial
  | succ cnt ih => exact ⟨⟨nofun, fun _ _ => rfl⟩, fun waiting => ih.when waiting⟩

theorem meets_reloadModem (reload : ListenClients.Op) :
    (reloadModem reload).Meets stageMonitor (fun _ _ => True) .passed := by
  refine Prog.Meets.call nofun fun _ => ?_
  refine Prog.Meets.call (fun _ => rfl) fun _ => ?_
  exact ⟨nofun, fun _ => trivial⟩

theorem meets_modemReset (v : Variant) :
    (modemReset v).Meets stageMonitor (fun _ _ => True) .passed := by
  cases v with
  | internal => exact meets_reloadModem _
  | external =>
      refine Prog.Meets.call nofun fun _ => ?_
      refine Prog.Meets.call nofun fun prop => ?_
      split
      · exact ⟨fun _ => rfl, fun _ => ⟨nofun, fun _ => trivial⟩⟩
      · exact ⟨fun _ => rfl, fun _ => ⟨nofun, fun _ => trivial⟩⟩

theorem meets_requestReset (v : Variant) :
    (requestReset v).Meets stageMonitor (fun _ _ => True) .passed := by
  refine Prog.Meets.call nofun fun _ => ?_
  apply (meets_aside (aside_waitReset 49) .passed).bind
  rintro _ _ rfl
  refine Prog.Meets.call nofun fun waiting => ?_
  refine Prog.Meets.when (fun _ => ?_) fun _ => trivial
  cases v with
  | external => exact meets_reloadModem _
  | internal => exact meets_reloadModem _

theorem meets_prepareReset (v : Variant) :
    (prepareReset v).Meets stageMonitor (fun _ _ => True) .passed := by
  cases v with
  | internal => exact meets_requestReset .internal
  | external =>
      have clear (panic : Bool) : (Prog.when panic (call .clearMiniapPanic)).Calls Aside :=
        Prog.Calls.when panic ⟨⟨nofun, fun _ _ => rfl⟩, fun _ => trivial⟩
      refine Prog.Meets.call nofun fun panic => ?_
      apply (meets_aside (clear panic) .passed).bind
      rintro _ _ rfl
      refine Prog.Meets.call nofun fun prop => ?_
      split
      · exact meets_reloadModem _
      · exact meets_requestReset .external

theorem meets_resetMessage (v : Variant) (text : Bytes) :
    (resetMessage v text).Meets stageMonitor (fun _ _ => True) .passed := by
  unfold resetMessage
  split
  · exact meets_modemReset v
  · exact Prog.Meets.when (fun _ => meets_prepareReset v) fun _ => trivial

theorem meets_body (v : Variant) (buf : Bytes) :
    (body v buf).Meets stageMonitor (fun _ _ => True) .unchecked := by
  refine Prog.Meets.call nofun fun read => ?_
  cases read with
  | none => trivial
  | some data =>
      refine Prog.Meets.call nofun fun _ => ?_
      rw [Prog.meets_bind]
      have block (c : Bool) : (Prog.when c (do
          call (.modemCtrlSetModemState .block)
          let prop ← call (.propertyGet .modemSaveDump)
          Prog.when (atoi prop != 0) (call .modemLoadAssertModem))).Calls Aside := by
        apply Prog.Calls.when
        refine Prog.Calls.call ⟨nofun, fun _ _ => rfl⟩ fun _ => ?_
        refine Prog.Calls.call ⟨nofun, fun _ _ => rfl⟩ fun prop => ?_
        exact Prog.Calls.when _ ⟨⟨nofun, fun _ _ => rfl⟩, fun _ => trivial⟩
      apply (meets_aside (block _) .unchecked).bind
      rintro _ _ rfl
      apply (meets_neither [.block, .assert, .reset] (by decide)).bind
      intro skip stage checked
      cases skip with
      | true => trivial
      | false =>
          obtain rfl := checked rfl
          apply (meets_resetMessage v _).bind
          intro _ stage _
          exact ⟨nofun, fun _ => trivial⟩

/-- Calls of a load that leave the state alone. -/
def Stateless (op : CallOp) : Prop := setsState op = false

theorem stateless_tell (loadFlag doneFlag : BitVec 32) :
    (External.loadAndTell loadFlag doneFlag).Calls Stateless := by
  refine Prog.Calls.call rfl fun ret => ?_
  split
  · exact ⟨rfl, fun _ => trivial⟩
  · trivial

theorem stateless_loadSp (b : Build) (m : LoadInfo) : (External.loadSp b m).Calls Stateless := by
  apply Prog.Calls.bind
  · apply Prog.Calls.when
    exact ⟨rfl, fun _ => ⟨rfl, fun _ => trivial⟩⟩
  · intro _
    refine Prog.Calls.call rfl fun _ => ?_
    apply Prog.Calls.bind
    · exact Prog.Calls.when _ ⟨rfl, fun _ => trivial⟩
    · intro _
      refine Prog.Calls.call rfl fun _ => ?_
      exact Prog.Calls.when _ ⟨rfl, fun _ => trivial⟩

theorem stateless_loadSpl (m : LoadInfo) (masks : Masks) :
    (External.loadSpl m masks).Calls Stateless := by
  unfold External.loadSpl
  split
  · refine Prog.Calls.call rfl fun _ => ?_
    split
    · refine Prog.Calls.call rfl fun ret => ?_
      split
      · trivial
      · refine Prog.Calls.call rfl fun _ => Prog.Calls.call rfl fun ready => ?_
        split <;> trivial
    · trivial
  · trivial

theorem stateless_loadMiniap (b : Build) (m : LoadInfo) (masks : Masks) :
    (External.loadMiniap b m masks).Calls Stateless := by
  unfold External.loadMiniap
  split
  · apply (stateless_tell _ _).bind
    intro _
    apply (stateless_tell _ _).bind
    intro _
    apply Prog.Calls.bind
    · exact Prog.Calls.when _ ⟨rfl, fun _ => trivial⟩
    · intro _
      apply (stateless_tell _ _).bind
      intro head
      split
      · refine Prog.Calls.call rfl fun ready => ?_
        split
        · refine Prog.Calls.call rfl fun failed => ?_
          split
          · trivial
          · exact ⟨rfl, fun _ => trivial⟩
        · trivial
      · trivial
  · trivial

theorem stateless_loadModem (m : LoadInfo) (masks : Masks) :
    (External.loadModem m masks).Calls Stateless := by
  apply Prog.Calls.when
  refine Prog.Calls.call rfl fun ret => ?_
  exact Prog.Calls.when _ ⟨rfl, fun _ => trivial⟩

/-- Whether a load has set the state; it sets no fault. -/
def loadMonitor : Monitor CallOp CallOp.Res Bool where
  next written op _ := written || setsState op
  ok _ op := ∀ g, op = .modemCtrlSetModemState g → isFault g = false

theorem ok_other {op : CallOp} (other : setsState op = false) (written : Bool) :
    loadMonitor.ok written op := by
  rintro g rfl
  cases other

theorem ok_state {g : ModemState} (harmless : isFault g = false) (written : Bool) :
    loadMonitor.ok written (.modemCtrlSetModemState g) := by
  intro g' same
  cases same
  exact harmless

theorem meets_stateless {α : Type} {p : CallProg α} (calls : p.Calls Stateless) (written : Bool) :
    p.Meets loadMonitor (fun _ written' => written' = written) written := by
  apply Prog.Calls.meets_same
  refine calls.mono fun op stateless => ⟨ok_other stateless written, fun r => ?_⟩
  have quiet : setsState op = false := stateless
  simp [loadMonitor, quiet]

/-- A load sets the state, and to nothing that is a fault. -/
theorem meets_loadMonitor (v : Variant) (b : Build) (m : LoadInfo) (loadType : BitVec 32) :
    (loadModemImg v b m loadType).Meets loadMonitor (fun _ written => written = true) false := by
  have finishes (t : BitVec 32) : (Internal.finish t).Meets loadMonitor
      (fun _ written => written = true) true := by
    refine Prog.Meets.call ?_ fun _ => Prog.Meets.call ?_ fun _ => Prog.Meets.call ?_ fun _ => rfl
    · exact ok_other rfl _
    · exact ok_state rfl _
    · exact ok_other rfl _
  cases v with
  | external =>
      unfold LoadCalls.loadModemImg External.loadModemImg
      refine Prog.Meets.call (ok_other rfl _) fun _ => ?_
      refine Prog.Meets.call (ok_state rfl _) fun _ => ?_
      apply (meets_stateless (Prog.Calls.when _ (stateless_loadSp b m)) _).bind
      rintro _ _ rfl
      refine Prog.Meets.call (ok_other rfl _) fun _ => ?_
      have dp : (External.loadDp m).Calls Stateless := Prog.Calls.when _ ⟨rfl, fun _ => trivial⟩
      apply (meets_stateless (Prog.Calls.when _ dp) _).bind
      rintro _ _ rfl
      apply (meets_stateless (stateless_loadSpl m _) _).bind
      rintro masks _ rfl
      have agdsp : (External.loadAgdsp masks).Calls Stateless :=
        Prog.Calls.when _ ⟨rfl, fun _ => trivial⟩
      apply (meets_stateless agdsp _).bind
      rintro _ _ rfl
      apply (meets_stateless (stateless_loadMiniap b m masks) _).bind
      rintro masks _ rfl
      apply (meets_stateless (stateless_loadModem m masks) _).bind
      rintro _ _ rfl
      exact finishes masks.startImg
  | internal =>
      unfold LoadCalls.loadModemImg Internal.loadModemImg
      have boot : (Prog.when (b.sprdSecboot || b.vbootV2) do
          secureBootSetFlag (requested b loadType)
          secureBootUnlockDdr : CallProg Unit).Calls Stateless :=
        Prog.Calls.when _ ⟨rfl, fun _ => ⟨rfl, fun _ => trivial⟩⟩
      have loads (c d : Bool) (x : ImgType) (f : BitVec 32) : (Prog.when c do
          Prog.when d do
            let _ ← loadImgFromTable x f NONE_IMAG_FLAG : CallProg Unit).Calls Stateless :=
        Prog.Calls.when _ (Prog.Calls.when _ ⟨rfl, fun _ => trivial⟩)
      refine Prog.Meets.call (ok_other rfl _) fun _ => ?_
      apply (meets_stateless boot _).bind
      rintro _ _ rfl
      refine Prog.Meets.call (ok_other rfl _) fun _ => ?_
      refine Prog.Meets.call (ok_state rfl _) fun _ => ?_
      apply (meets_stateless (loads _ _ .sp _) _).bind
      rintro _ _ rfl
      apply (meets_stateless (loads _ _ .cp _) _).bind
      rintro _ _ rfl
      have verify : (Prog.when b.secure secureBootVerifyAll : CallProg Unit).Calls Stateless :=
        Prog.Calls.when _ ⟨rfl, fun _ => trivial⟩
      apply (meets_stateless verify _).bind
      rintro _ _ rfl
      exact finishes (requested b loadType)

/-- A fault that is seen was set since the last reload began, except between the beginning
    of a reload and the first state that it sets. -/
def Accounted (s : State) : Prop := isFault s.gModemState = true → s.faulted = true

/-- What is left of the loop body has its reload behind it, or has found a fault, or has
    still to look for one. -/
def Invariant (s : State) : Prop :=
  match s.worker with
  | .body p => Accounted s ∧
      ∃ stage, p.Meets stageMonitor (fun _ _ => True) stage ∧ (stage = .passed → s.faulted = true)
  | .reboot p => p.Meets stageMonitor (fun _ _ => True) .reloaded
  | .rescan p => Accounted s ∧ p.Meets stageMonitor (fun _ _ => True) .reloaded
  | .load loader p => p.Meets stageMonitor (fun _ _ => True) .reloaded ∧
      ∃ written, loader.Meets loadMonitor (fun _ written => written = true) written ∧
        (written = true → Accounted s)

theorem invariant_start (v : Variant) : Invariant (start v) :=
  ⟨nofun, .unchecked, meets_body v _, nofun⟩

theorem accounted_set (s : State) (g : ModemState) : Accounted (s.set g) := by
  intro fault
  have fault : isFault g = true := fault
  simp [State.set, fault]

theorem faulted_set {s : State} (g : ModemState) (before : s.faulted = true) :
    (s.set g).faulted = true := by
  simp [State.set, before]

/-- A state that is no fault tells nothing of the reload that has set it. -/
theorem accounted_harmless {s : State} (harmless : isFault s.gModemState = false) : Accounted s := by
  intro fault
  rw [harmless] at fault
  cases fault

theorem invariant_other {s : State} (inv : Invariant s) (g : ModemState) : Invariant (s.set g) := by
  unfold Invariant at *
  cases worker : s.worker with
  | body p =>
      simp only [worker] at inv
      obtain ⟨_, stage, meets, passed⟩ := inv
      simp only [State.set, worker]
      exact ⟨accounted_set s g, stage, meets, fun found => faulted_set g (passed found)⟩
  | reboot p =>
      simp only [worker] at inv
      simpa only [State.set, worker] using inv
  | rescan p =>
      simp only [worker] at inv
      simp only [State.set, worker]
      exact ⟨accounted_set s g, inv.2⟩
  | load loader p =>
      simp only [worker] at inv
      obtain ⟨later, written, meets, _⟩ := inv
      simp only [State.set, worker]
      exact ⟨later, written, meets, fun _ => accounted_set s g⟩

theorem invariant_body {v : Variant} {b : Build} {m : LoadInfo} {s : State} {p : ClientProg Bytes}
    {stage : Stage} (answer : (op : ListenClients.Op) → op.Res) (accounted : Accounted s)
    (meets : p.Meets stageMonitor (fun _ _ => True) stage)
    (passed : stage = .passed → s.faulted = true) : Invariant (bodyStep v b m answer s p) := by
  cases p with
  | ret buf => exact ⟨accounted, .unchecked, meets_body v buf, nofun⟩
  | call op next =>
      cases op with
      | gModemStateIs g =>
          refine ⟨accounted, _, meets.2 (s.gModemState == g), ?_⟩
          intro found
          simp only [stageMonitor, Stage.next] at found
          split at found
          · rename_i both
            simp only [Bool.and_eq_true, beq_iff_eq] at both
            exact accounted (both.1 ▸ both.2)
          · exact passed found
      | modemCtrlSetModemState g =>
          exact ⟨accounted_set s g, stage, meets.2 (), fun found => faulted_set g (passed found)⟩
      | loadModemImg loadType =>
          exact ⟨meets.2 (), false, meets_loadMonitor v b m loadType, nofun⟩
      | modemCtrlRebootExternalModem => exact meets.2 ()
      | _ => exact ⟨accounted, stage, meets.2 (answer _), passed⟩

theorem invariant_load {v : Variant} {b : Build} {m : LoadInfo} {s : State} {loader : CallProg Int}
    {p : ClientProg Bytes} {written : Bool} (answer : (op : ListenClients.Op) → op.Res)
    (loads : (op : CallOp) → op.Res) (worker : s.worker = .load loader p)
    (later : p.Meets stageMonitor (fun _ _ => True) .reloaded)
    (meets : loader.Meets loadMonitor (fun _ written => written = true) written)
    (accounted : written = true → Accounted s) :
    Invariant (workerStep v b m answer loads s) := by
  cases loader with
  | ret ret =>
      simp only [workerStep, worker]
      exact ⟨accounted meets, .reloaded, later, nofun⟩
  | call op next =>
      cases op with
      | modemCtrlSetModemState g =>
          simp only [workerStep, worker]
          exact ⟨later, true, by simpa [loadMonitor, setsState] using meets.2 (),
            fun _ => accounted_set s g⟩
      | _ =>
          simp only [workerStep, worker]
          refine ⟨later, written, ?_, accounted⟩
          simpa only [loadMonitor, setsState, Bool.or_false] using meets.2 (loads _)

theorem invariant_worker {v : Variant} {b : Build} {m : LoadInfo} {s : State} (inv : Invariant s)
    (answer : (op : ListenClients.Op) → op.Res) (loads : (op : CallOp) → op.Res) :
    Invariant (workerStep v b m answer loads s) := by
  unfold Invariant at inv
  cases worker : s.worker with
  | body p =>
      simp only [worker] at inv
      obtain ⟨accounted, stage, meets, passed⟩ := inv
      have taken := @invariant_body v b m s p stage answer accounted meets passed
      simpa only [workerStep, worker] using taken
  | reboot p =>
      simp only [worker] at inv
      simp only [workerStep, worker]
      cases b.pcieRescan with
      | true => exact ⟨accounted_harmless rfl, inv⟩
      | false => exact ⟨inv, false, meets_loadMonitor v b m _, nofun⟩
  | rescan p =>
      simp only [worker] at inv
      simp only [workerStep, worker]
      split
      · exact inv
      · exact ⟨inv.2, false, meets_loadMonitor v b m _, nofun⟩
  | load loader p =>
      simp only [worker] at inv
      obtain ⟨later, written, meets, accounted⟩ := inv
      exact invariant_load answer loads worker later meets accounted

theorem invariant_step {v : Variant} {b : Build} {m : LoadInfo} (s : State) (i : Input) (s' : State)
    (inv : Invariant s) (taken : step v b m s i = some s') : Invariant s' := by
  cases i with
  | worker answer loads =>
      obtain rfl := Option.some.inj taken
      exact invariant_worker inv answer loads
  | other g =>
      obtain rfl := Option.some.inj taken
      exact invariant_other inv g

theorem begins_faulted {s : State} {i : Input} (inv : Invariant s) (begins : Begins s i) :
    s.faulted = true := by
  cases i with
  | other g => exact begins.elim
  | worker answer loads =>
      obtain ⟨op, next, worker, reload⟩ := begins
      unfold Invariant at inv
      simp only [worker] at inv
      obtain ⟨_, stage, meets, passed⟩ := inv
      exact passed (meets.1 reload)

/-- However the other threads set the state, the control messages alone have the modem
    loaded again only when a fault was set since the last reload began: none is answered by
    two reloads. -/
theorem reload_for_a_fault (v : Variant) (b : Build) (m : LoadInfo) (inputs : List Input) :
    Along (step v b m) (fun s i => Begins s i → s.faulted = true) (start v) inputs := by
  have kept : Throughout (step v b m) Invariant (start v) inputs := by
    refine throughout_of_along ?_ (invariant_start v) (along_true (start v) inputs)
    intro s i s' inv _ taken
    exact invariant_step s i s' inv taken
  refine along_of_throughout ?_ kept
  intro s i inv begins
  exact begins_faulted inv begins

end ModemControl.Reloads
