import ModemControl.Foundation.Runs
import ModemControl.ListenLoops

/-! # 'Prepare Reset' after a panic of the miniap

`modem_event_panic_process` sets `b_miniap_panic` in the uevent thread. The client loop
of the external variant consumes the flag when it handles a 'Prepare Reset', and should
then load all images again. What it does is decided by a property alone.
-/

namespace ModemControl.MiniapPanic

open Foundation ListenModem ListenClients

structure State where
  bMiniapPanic : Bool := false
  /-- What is left of the iteration of the client loop. -/
  clients : ClientProg Bytes
  /-- `modem_event_panic_process` has run since the last 'Prepare Reset' was handled. -/
  since : Bool := false
  /-- The 'Prepare Reset' that is handled comes after a panic. -/
  due : Bool := false
  /-- The calls of its handling so far. -/
  handled : List Op := []

inductive Input where
  /-- The client loop makes its next call. -/
  | client (answer : (op : Op) → op.Res)
  /-- `modem_event_panic_process` runs. -/
  | panic

/-- The flag is the one of the state; all else is up to the environment. -/
def answered (s : State) (answer : (op : Op) → op.Res) : (op : Op) → op.Res
  | .bMiniapPanic => s.bMiniapPanic
  | op => answer op

/-- The state that a call leaves. The flag is only read when a 'Prepare Reset' is handled. -/
def called (s : State) : Op → State
  | .modemReadDataFromClients => { s with due := false, handled := [] }
  | .bMiniapPanic => { s with due := s.since, since := false, handled := [] }
  | .clearMiniapPanic => { s with bMiniapPanic := false }
  | op => { s with handled := s.handled ++ [op] }

def step (s : State) : Input → Option State
  | .client answer =>
      match s.clients with
      | .ret buf => some { s with clients := body .external buf }
      | clients =>
          (clients.resume fun op => some (answered s answer op, called s op)).map
            fun (rest, s') => { s' with clients := rest }
  | .panic => some { s with bMiniapPanic := true, since := true }

/-- The modem is not asked to reset, and once the message is handled everything was
    loaded again. -/
def Forced (s : State) : Prop :=
  s.due = true → .prepareResetModem ∉ s.handled ∧
    ∀ buf, s.clients = .ret buf → .modemCtrlRebootExternalModem ∈ s.handled

/-- Where it matters, the property does not ask for the modem alone. -/
def ReadsZero (s : State) : Input → Prop
  | .client answer =>
      match s.clients with
      | .call (.propertyGet .modemRebootModemonly) _ =>
          s.due = true → atoi (answer (.propertyGet .modemRebootModemonly)) = 0
      | _ => True
  | .panic => True

instance (s : State) (i : Input) : Decidable (ReadsZero s i) := by
  unfold ReadsZero
  split
  · split <;> infer_instance
  · infer_instance

/-- How far the handling of a 'Prepare Reset' has come. -/
inductive Stage where
  /-- Not in it, or the modem alone is to be reset. -/
  | free
  /-- The flag is read, the property not yet. -/
  | tested
  /-- All images are to be loaded. -/
  | full
  | rebooted
  deriving Repr, DecidableEq

def Stage.next (stage : Stage) : (op : Op) → op.Res → Stage
  | .modemReadDataFromClients, _ => .free
  | .bMiniapPanic, _ => .tested
  | .propertyGet .modemRebootModemonly, prop =>
      if stage = .tested then if atoi prop = 0 then .full else .free else stage
  | .modemCtrlRebootExternalModem, _ => if stage = .full then .rebooted else stage
  | _, _ => stage

theorem next_reboot (stage : Stage) :
    stage.next .modemCtrlRebootExternalModem () = if stage = .full then .rebooted else stage := rfl

/-- The modem is asked to reset only if nothing forces a full load. -/
def branch : Monitor Op Op.Res Stage where
  next := Stage.next
  ok := fun stage op => op = .prepareResetModem → stage = .free

/-- The message is handled. -/
def Stage.Left (stage : Stage) : Prop := stage = .free ∨ stage = .rebooted

/-- A call that leaves the stage. -/
def Quiet (stage : Stage) (op : Op) : Prop := branch.ok stage op ∧ ∀ r, stage.next op r = stage

theorem quiet_meets {α : Type} {p : ClientProg α} {stage : Stage} (quiet : p.Calls (Quiet stage)) :
    p.Meets branch (fun _ stage' => stage' = stage) stage :=
  Prog.Calls.meets_same quiet

theorem resets_quiet : ∀ op ∈ resets, Quiet .free op := by
  intro op member
  refine ⟨fun _ => rfl, ?_⟩
  intro r
  simp only [resets, List.mem_cons, List.not_mem_nil, or_false] at member
  rcases member with rfl | rfl | rfl | rfl | rfl | rfl | rfl
  all_goals rfl

theorem neither_quiet (states : List ModemState) (stage : Stage) :
    (neither states).Calls (Quiet stage) := by
  induction states with
  | nil => trivial
  | cons state rest ih =>
      refine Prog.Calls.call ⟨nofun, fun _ => rfl⟩ fun same => ?_
      cases same with
      | true => trivial
      | false => exact ih

theorem prepareReset_meets :
    (prepareReset .external).Meets branch (fun _ stage => stage.Left) .free := by
  refine Prog.Meets.call nofun fun panic => ?_
  have clear : (Prog.when panic (call .clearMiniapPanic)).Calls (Quiet .tested) :=
    Prog.Calls.when panic ⟨⟨nofun, fun _ => rfl⟩, fun _ => trivial⟩
  apply (quiet_meets clear).bind
  rintro _ _ rfl
  refine Prog.Meets.call nofun fun prop => ?_
  by_cases all : atoi prop = 0
  · rw [if_pos (beq_iff_eq.mpr all)]
    have full : branch.next .tested (.propertyGet .modemRebootModemonly) prop = .full := if_pos all
    rw [full]
    exact ⟨nofun, fun _ => ⟨nofun, fun _ => ⟨nofun, fun _ => Or.inr rfl⟩⟩⟩
  · rw [if_neg (by simpa using all)]
    have free : branch.next .tested (.propertyGet .modemRebootModemonly) prop = .free := if_neg all
    rw [free]
    apply (quiet_meets ((requestReset_calls .external).mono resets_quiet)).mono
    intro _ stage same
    exact Or.inl same

theorem handleMessage_meets (text : Bytes) :
    (handleMessage .external text).Meets branch (fun _ stage => stage.Left) .free := by
  have block : (Prog.when (strstr text MODEM_BLOCK) do
      call (.modemCtrlSetModemState .block)
      let prop ← call (.propertyGet .modemSaveDump)
      Prog.when (atoi prop != 0) (call .modemLoadAssertModem)).Calls (Quiet .free) := by
    apply Prog.Calls.when
    refine Prog.Calls.call ⟨nofun, fun _ => rfl⟩ fun _ => ?_
    refine Prog.Calls.call ⟨nofun, fun _ => rfl⟩ fun prop => ?_
    apply Prog.Calls.when
    exact ⟨⟨nofun, fun _ => rfl⟩, fun _ => trivial⟩
  apply (quiet_meets block).bind
  rintro _ _ rfl
  apply (quiet_meets (neither_quiet _ _)).bind
  rintro skip _ rfl
  cases skip with
  | true => exact Or.inl rfl
  | false =>
      have reset : (resetMessage .external text).Meets branch (fun _ stage => stage.Left) .free := by
        rw [resetMessage]
        split
        · apply (quiet_meets ((modemReset_calls .external).mono resets_quiet)).mono
          intro _ stage same
          exact Or.inl same
        · apply Prog.Meets.when
          · intro _
            exact prepareReset_meets
          · intro _
            exact Or.inl rfl
      apply reset.bind
      intro _ stage left
      exact ⟨nofun, fun _ => left⟩

theorem body_meets (buf : Bytes) (stage : Stage) :
    (body .external buf).Meets branch (fun _ stage => stage.Left) stage := by
  refine Prog.Meets.call nofun fun read => ?_
  cases read with
  | none => exact Or.inl rfl
  | some data =>
      refine Prog.Meets.call nofun fun _ => ?_
      apply (handleMessage_meets _).bind
      intro _ stage left
      exact left

/-- A message that comes after a panic is past the property only towards a full load. -/
def ForcedAt (s : State) (stage : Stage) : Prop :=
  s.due = true → stage ≠ .free ∧ .prepareResetModem ∉ s.handled ∧
    (stage = .rebooted → .modemCtrlRebootExternalModem ∈ s.handled)

structure Inv (s : State) (stage : Stage) : Prop where
  rest : s.clients.Meets branch (fun _ stage => stage.Left) stage
  forced : ForcedAt s stage

theorem Inv.kept {s : State} {stage : Stage} (inv : Inv s stage) : Forced s := by
  intro due
  obtain ⟨notFree, notAsked, rebooted⟩ := inv.forced due
  refine ⟨notAsked, ?_⟩
  intro buf finished
  have left : stage.Left := by
    have rest := inv.rest
    rw [finished] at rest
    exact rest
  exact rebooted (left.resolve_left notFree)

/-- A call that is no request and leaves the stage. -/
theorem ForcedAt.more {s : State} {stage : Stage} (forced : ForcedAt s stage) (op : Op)
    (other : op ≠ .prepareResetModem) : ForcedAt { s with handled := s.handled ++ [op] } stage := by
  intro due
  obtain ⟨notFree, notAsked, rebooted⟩ := forced due
  refine ⟨notFree, ?_, ?_⟩
  · rw [List.mem_append, List.mem_singleton]
    rintro (before | same)
    · exact notAsked before
    · exact other same.symm
  · intro here
    exact List.mem_append_left _ (rebooted here)

theorem ForcedAt.called {s : State} {stage : Stage} (forced : ForcedAt s stage) {op : Op}
    (answer : (op : Op) → op.Res) (lets : branch.ok stage op)
    (zero : op = .propertyGet .modemRebootModemonly → s.due = true →
      atoi (answer (.propertyGet .modemRebootModemonly)) = 0) :
    ForcedAt (called s op) (stage.next op (answered s answer op)) := by
  cases op with
  | modemReadDataFromClients =>
      intro due
      cases due
  | bMiniapPanic =>
      intro _
      exact ⟨Stage.noConfusion, List.not_mem_nil, Stage.noConfusion⟩
  | clearMiniapPanic => exact forced
  | prepareResetModem =>
      intro due
      exact absurd (lets rfl) (forced due).1
  | propertyGet prop =>
      cases prop with
      | modemSaveDump => exact forced.more _ nofun
      | modemRebootModemonly =>
          intro due
          have next : stage.next (.propertyGet .modemRebootModemonly)
              (answered s answer (.propertyGet .modemRebootModemonly)) =
                if stage = .tested then .full else stage := by
            have full : (if atoi (answer (.propertyGet .modemRebootModemonly)) = 0 then .full
                else .free) = Stage.full := if_pos (zero rfl due)
            exact congrArg (fun then' => if stage = .tested then then' else stage) full
          obtain ⟨notFree, notAsked, rebooted⟩ :=
            forced.more (.propertyGet .modemRebootModemonly) Op.noConfusion due
          rw [next]
          by_cases tested : stage = .tested
          · rw [if_pos tested]
            exact ⟨Stage.noConfusion, notAsked, Stage.noConfusion⟩
          · rw [if_neg tested]
            exact ⟨notFree, notAsked, rebooted⟩
  | modemCtrlRebootExternalModem =>
      intro due
      obtain ⟨notFree, notAsked, _⟩ :=
        forced.more .modemCtrlRebootExternalModem Op.noConfusion due
      refine ⟨?_, notAsked, fun _ => List.mem_append_right _ List.mem_cons_self⟩
      rw [next_reboot]
      split
      · exact Stage.noConfusion
      · exact notFree
  | _ => exact forced.more _ nofun

theorem inv_step {s : State} {i : Input} {s' : State} {stage : Stage} (inv : Inv s stage)
    (readsZero : ReadsZero s i) (taken : step s i = some s') : ∃ stage', Inv s' stage' := by
  cases i with
  | panic =>
      obtain rfl := Option.some.inj taken
      exact ⟨stage, inv.rest, inv.forced⟩
  | client answer =>
      simp only [step] at taken
      split at taken
      · obtain rfl := Option.some.inj taken
        exact ⟨stage, body_meets _ stage, inv.forced⟩
      · obtain ⟨⟨rest, s₁⟩, resumed, rfl⟩ := Option.map_eq_some_iff.mp taken
        obtain ⟨op, next, r, same, answers, rfl⟩ := Prog.resume_cases resumed
        obtain ⟨rfl, rfl⟩ := Prod.mk.inj (Option.some.inj answers)
        have meets := inv.rest
        rw [same] at meets
        refine ⟨stage.next op (answered s answer op), meets.2 _, ?_⟩
        apply inv.forced.called answer meets.1
        rintro rfl due
        rw [ReadsZero, same] at readsZero
        exact readsZero due

/-- The loop before its first iteration. -/
def listening : State := { clients := .ret (List.replicate MAX_ASSERT_INFO_LEN 0) }

/-- When the property does not ask for the modem alone at a 'Prepare Reset' that comes
    after a panic, all images are loaded again for it. -/
theorem panic_forces_reload (inputs : List Input) (along : Along step ReadsZero listening inputs) :
    Throughout step Forced listening inputs := by
  have keeps (s : State) (i : Input) (s' : State) (before : ∃ stage, Inv s stage)
      (readsZero : ReadsZero s i) (taken : step s i = some s') : ∃ stage, Inv s' stage := by
    obtain ⟨stage, inv⟩ := before
    exact inv_step inv readsZero taken
  have start : ∃ stage, Inv listening stage := by
    refine ⟨.free, Or.inl rfl, ?_⟩
    intro due
    cases due
  apply (throughout_of_along keeps start along).mono
  rintro s ⟨stage, inv⟩
  exact inv.kept

/-- The client loop reads 'Prepare Reset' while the modem has asserted. -/
def prepares (rebootModemonly : Bytes) : (op : Op) → op.Res
  | .modemReadDataFromClients => some (PREPARE_RESET ++ [0])
  | .propertyGet _ => rebootModemonly
  | .gModemStateIs state => decide (state = .assert)
  | .bMiniapPanic | .waitModemReset => false
  | .modemCtrlEnableWakeLock _ | .modemCtrlSetModemState _ | .modemLoadAssertModem |
    .modemCtrlStopWaitAliveTimer | .modemCtrlStartWaitAliveTimer | .modemCtrlRebootExternalModem |
    .loadModemImg _ | .clearMiniapPanic | .prepareResetModem => ()

/-- A panic, and then `n` steps of the client loop. -/
def panicThenPrepare (rebootModemonly : Bytes) (n : Nat) : List Input :=
  .panic :: List.replicate n (.client (prepares rebootModemonly))

/-- The property is not set, and all images are loaded again. -/
theorem panic_reloads_all :
    Throughout step Forced listening (panicThenPrepare (bytes "0") 12) :=
  panic_forces_reload (panicThenPrepare (bytes "0") 12) (by decide)

/-- The property asks for the modem alone, and the panic is forgotten. -/
theorem panic_forgotten :
    ¬ Throughout step Forced listening (panicThenPrepare (bytes "1") 9) := by
  intro forced
  have asked : Op.prepareResetModem ∉
      [.propertyGet .modemRebootModemonly, .prepareResetModem] := (forced.last rfl rfl).1
  exact asked (by simp)

end ModemControl.MiniapPanic
