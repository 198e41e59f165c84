import ModemControl.ListenLoops

/-! # The wake lock of the listening loops

Each loop takes the wake lock when there is something to read and should give it back
before it waits again. `modem_ctrl_listen_modem` does; the other two loops have an early
`continue` between the two calls.
-/

namespace ModemControl.WakeLock

open Foundation ListenModem

/-- Whether the lock is held after these calls. -/
def heldAfter (held : Bool) (wakes : List Bool) : Bool := wakes.getLast?.getD held

/-- If the lock is taken, the last call gives it back. -/
def Released (wakes : List Bool) : Prop := true ∈ wakes → wakes.getLast? = some false

section Loop

variable {σ ι : Type} (pass : σ → ι → Option (σ × List Bool))

/-- A loop at its head: an iteration, and whether the lock is held on its behalf. -/
def lockStep (s : σ × Bool) (i : ι) : Option (σ × Bool) :=
  (pass s.1 i).map fun (s', wakes) => (s', heldAfter s.2 wakes)

def NotHeld (s : σ × Bool) : Prop := s.2 = false

def Releases (s : σ × Bool) (i : ι) : Prop :=
  ∀ s' wakes, pass s.1 i = some (s', wakes) → Released wakes

variable {pass}

theorem not_held_after {wakes : List Bool} (released : Released wakes) :
    heldAfter false wakes = false := by
  rw [heldAfter]
  cases last : wakes.getLast? with
  | none => rfl
  | some on =>
      cases on with
      | false => rfl
      | true =>
          have taken := List.mem_of_getLast? last
          rw [released taken] at last
          cases last

/-- When an iteration gives back what it takes exactly if it meets a condition, the lock
    is never held at the head exactly if every iteration meets it. -/
theorem released_iff {cond : σ → ι → Prop}
    (exact : ∀ s i s' wakes, pass s i = some (s', wakes) → (Released wakes ↔ cond s i))
    {start : σ} {is : List ι} {t : σ × Bool}
    (reached : run (lockStep pass) (start, false) is = some t) :
    Throughout (lockStep pass) NotHeld (start, false) is ∧
        Along (lockStep pass) (Releases pass) (start, false) is ↔
      Along (lockStep pass) (fun s i => cond s.1 i) (start, false) is := by
  have fresh : NotHeld (start, false) := rfl
  apply kept_iff_along _ reached fresh
  intro i _ s s' before taken
  obtain ⟨⟨next, wakes⟩, passed, rfl⟩ := Option.map_eq_some_iff.mp taken
  constructor
  · intro kept
    exact (exact s.1 i next wakes passed).mp (kept.2 next wakes passed)
  · intro met
    have released := (exact s.1 i next wakes passed).mpr met
    refine ⟨?_, ?_⟩
    · rw [NotHeld, show s.2 = false from before]
      exact not_held_after released
    · intro next' wakes' passed'
      obtain ⟨rfl, rfl⟩ := Prod.mk.inj (Option.some.inj (passed'.symm.trans passed))
      exact released

end Loop

/-- What is seen of one iteration: its calls for the wake lock, whether it comes to the
    first of them, and whether it passes the tests before the last. -/
structure Seen where
  wakes : List Bool := []
  entered : Bool := false
  through : Bool := false
  deriving Repr, DecidableEq

namespace Seen

/-- The lock is taken on entry, and given back once the tests are passed. -/
def Regular (s : Seen) : Prop :=
  s.wakes = if s.entered then if s.through then [true, false] else [true] else []

/-- No iteration is left at the tests. -/
def Passes (s : Seen) : Prop := s.entered = true → s.through = true

instance (s : Seen) : Decidable s.Passes := by unfold Passes; infer_instance

theorem Regular.released {s : Seen} (regular : s.Regular) : Released s.wakes ↔ s.Passes := by
  rw [Released, regular, Passes]
  cases s.entered <;> cases s.through <;> simp

end Seen

namespace Clients

open ListenClients

def watch : Monitor Op Op.Res Seen where
  next := fun s op r =>
    match op, r with
    | .modemReadDataFromClients, some _ => { s with entered := true }
    | .modemCtrlEnableWakeLock bEnable, _ => { s with wakes := s.wakes ++ [bEnable] }
    | .gModemStateIs _, true => { s with through := true }
    | _, _ => s
  ok := fun _ _ => True

/-- One iteration: the buffer it leaves, and its calls for the wake lock. -/
def pass (v : Variant) (buf : Bytes) (path : Path) : Option (Bytes × List Bool) :=
  ((body v buf).follow path).map fun buf' => (buf', (watch.after {} path).wakes)

/-- What is read is a message for which `g_modem_state` is found to be BLOCK, ASSERT or
    RESET. -/
def StateFits (path : Path) : Prop := (watch.after {} path).Passes

instance (path : Path) : Decidable (StateFits path) := by unfold StateFits; infer_instance

/-- A call that shows nothing. -/
def Quiet (op : Op) : Prop := ∀ s r, watch.next s op r = s

theorem quiet_meets {α : Type} {p : ClientProg α} (quiet : p.Calls Quiet) (s : Seen) :
    p.Meets watch (fun _ s' => s' = s) s := by
  apply Prog.Calls.meets_same
  apply quiet.mono
  intro op shows
  exact ⟨trivial, shows s⟩

theorem resets_quiet : ∀ op ∈ resets, Quiet op := by
  simp only [resets, List.forall_mem_cons]
  exact ⟨fun _ _ => rfl, fun _ _ => rfl, fun _ _ => rfl, fun _ _ => rfl, fun _ _ => rfl,
    fun _ _ => rfl, fun _ _ => rfl, List.forall_mem_nil _⟩

theorem prepareReset_quiet (v : Variant) : (prepareReset v).Calls Quiet := by
  cases v with
  | external =>
      refine Prog.Calls.call (fun _ _ => rfl) fun panic => ?_
      apply Prog.Calls.bind
      · apply Prog.Calls.when
        exact ⟨fun _ _ => rfl, fun _ => trivial⟩
      · intro _
        refine Prog.Calls.call (fun _ _ => rfl) fun prop => ?_
        split
        · exact (reloadModem_calls (by simp [resets])).mono resets_quiet
        · exact (requestReset_calls .external).mono resets_quiet
  | internal => exact (requestReset_calls .internal).mono resets_quiet

theorem resetMessage_quiet (v : Variant) (text : Bytes) : (resetMessage v text).Calls Quiet := by
  rw [resetMessage]
  split
  · exact (modemReset_calls v).mono resets_quiet
  · exact (prepareReset_quiet v).when _

/-- The tests are passed exactly if one of the comparisons succeeds. -/
theorem neither_meets (states : List ModemState) (s : Seen) (before : s.through = false) :
    (neither states).Meets watch
      (fun skip s' => s'.wakes = s.wakes ∧ s'.entered = s.entered ∧ s'.through = !skip) s := by
  induction states with
  | nil => exact ⟨rfl, rfl, before⟩
  | cons state rest ih =>
      refine Prog.Meets.call trivial fun same => ?_
      cases same with
      | true => exact ⟨rfl, rfl, rfl⟩
      | false => exact ih

theorem handleMessage_meets (v : Variant) (text : Bytes) :
    (handleMessage v text).Meets watch (fun _ s => s.Regular) ⟨[true], true, false⟩ := by
  have block : (Prog.when (strstr text MODEM_BLOCK) do
      call (.modemCtrlSetModemState .block)
      let prop ← call (.propertyGet .modemSaveDump)
      Prog.when (atoi prop != 0) (call .modemLoadAssertModem)).Calls Quiet := by
    apply Prog.Calls.when
    refine Prog.Calls.call (fun _ _ => rfl) fun _ => Prog.Calls.call (fun _ _ => rfl) fun prop => ?_
    apply Prog.Calls.when
    exact ⟨fun _ _ => rfl, fun _ => trivial⟩
  apply (quiet_meets block _).bind
  rintro _ _ rfl
  apply (neither_meets _ _ rfl).bind
  rintro skip ⟨wakes, entered, through⟩ ⟨rfl, rfl, rfl⟩
  cases skip with
  | true => rfl
  | false =>
      apply (quiet_meets (resetMessage_quiet v text) _).bind
      rintro _ _ rfl
      exact ⟨trivial, fun _ => rfl⟩

theorem body_meets (v : Variant) (buf : Bytes) :
    (body v buf).Meets watch (fun _ s => s.Regular) {} := by
  refine Prog.Meets.call trivial fun read => ?_
  cases read with
  | none => rfl
  | some data =>
      refine Prog.Meets.call trivial fun _ => ?_
      apply (handleMessage_meets v _).bind
      intro _ s regular
      exact regular

theorem pass_exact (v : Variant) (buf : Bytes) (path : Path) (buf' : Bytes) (wakes : List Bool)
    (passed : pass v buf path = some (buf', wakes)) : Released wakes ↔ StateFits path := by
  obtain ⟨left, taken, same⟩ := Option.map_eq_some_iff.mp passed
  obtain ⟨rfl, rfl⟩ := Prod.mk.inj same
  exact ((body_meets v buf).follow taken).2.released

end Clients

namespace Sp

open ListenSp

def watch : Monitor Op Op.Res Seen where
  next := fun s op r =>
    match op, r with
    | .select, .ready => { s with entered := true }
    | .modemCtrlEnableWakeLock bEnable, _ => { s with wakes := s.wakes ++ [bEnable] }
    | .read, some data =>
        { s with through := strstr (cstr data) Connect.P_ARM_MODEM_ASSERT }
    | _, _ => s
  ok := fun _ _ => True

/-- One iteration: whether there is another, and the calls for the wake lock. -/
def pass (running : Bool) (path : Path) : Option (Bool × List Bool) :=
  if running then (body.follow path).map fun running => (running, (watch.after {} path).wakes)
  else none

/-- What `select` reports is an assert of the sp that can be read. -/
def ReadsAssert (path : Path) : Prop := (watch.after {} path).Passes

instance (path : Path) : Decidable (ReadsAssert path) := by unfold ReadsAssert; infer_instance

/-- From what was read to the end of the iteration. -/
theorem readMessage_meets (data : Bytes) :
    (readMessage data).Meets watch (fun _ s => s.Regular)
      ⟨[true], true, strstr (cstr data) Connect.P_ARM_MODEM_ASSERT⟩ := by
  cases text : strstr (cstr data) Connect.P_ARM_MODEM_ASSERT with
  | false =>
      rw [readMessage, text]
      rfl
  | true =>
      rw [readMessage, text]
      have seen (tell : Bool) : (do
          Prog.when tell (call (.modemWriteDataToClients data))
          call (.modemCtrlEnableWakeLock false)
          pure true).Meets watch (fun _ s => s.Regular) ⟨[true], true, true⟩ := by
        cases tell with
        | false => exact ⟨trivial, fun _ => rfl⟩
        | true => exact ⟨trivial, fun _ => ⟨trivial, fun _ => rfl⟩⟩
      refine Prog.Meets.call trivial fun prop => ?_
      cases atoi prop != 0 with
      | false => exact Prog.Meets.call trivial seen
      | true => exact Prog.Meets.call trivial nofun

theorem body_meets : body.Meets watch (fun _ s => s.Regular) {} := by
  refine Prog.Meets.call trivial fun selected => ?_
  cases selected with
  | error transient =>
      cases transient with
      | true => rfl
      | false => exact ⟨trivial, fun _ => rfl⟩
  | timeout => rfl
  | ready =>
      refine Prog.Meets.call trivial fun _ => Prog.Meets.call trivial fun read => ?_
      cases read with
      | none => rfl
      | some data => exact readMessage_meets data

theorem pass_exact (running : Bool) (path : Path) (running' : Bool) (wakes : List Bool)
    (passed : pass running path = some (running', wakes)) : Released wakes ↔ ReadsAssert path := by
  rw [pass] at passed
  split at passed
  · obtain ⟨left, taken, same⟩ := Option.map_eq_some_iff.mp passed
    obtain ⟨rfl, rfl⟩ := Prod.mk.inj same
    exact (body_meets.follow taken).2.released
  · cases passed

end Sp

namespace Modem

def wakeOf : Act → Option Bool
  | .wakeLock on => some on
  | _ => none

/-- One iteration: the set for the next `select`, and the calls for the wake lock. -/
def pass (v : Variant) (opened rfds : Finset Device) (r : Round) :
    Option (Finset Device × List Bool) :=
  (listenRound v opened rfds r).map fun (rfds', acts) => (rfds', acts.filterMap wakeOf)

/-- What is done for a message leaves the wake lock alone. -/
theorem message_wakes (v : Variant) (isReset : Bool) (data : Bytes) :
    (message v isReset data).filterMap wakeOf = [] := by
  cases v with
  | external =>
      simp only [message, externalMessage, List.filterMap_append]
      split <;> split <;> split <;> rfl
  | internal =>
      simp only [message, internalMessage]
      split
      · rfl
      · split
        · rfl
        · split
          · split <;> rfl
          · rfl

theorem roundActs_released (v : Variant) (opened rfds : Finset Device) (r : Round) :
    Released ((roundActs v opened rfds r).filterMap wakeOf) := by
  unfold roundActs
  split
  · nofun
  · split
    · nofun
    · split
      · nofun
      · split
        · exact fun _ => rfl
        · simp only [List.cons_append, List.filterMap_cons, List.filterMap_append, message_wakes]
          exact fun _ => rfl

theorem pass_released (v : Variant) (opened rfds : Finset Device) (r : Round)
    (rfds' : Finset Device) (wakes : List Bool)
    (passed : pass v opened rfds r = some (rfds', wakes)) : Released wakes := by
  obtain ⟨⟨left, acts⟩, listened, same⟩ := Option.map_eq_some_iff.mp passed
  obtain ⟨rfl, rfl⟩ := Prod.mk.inj same
  rw [listenRound] at listened
  split at listened
  · obtain ⟨rfl, rfl⟩ := Prod.mk.inj (Option.some.inj listened)
    exact roundActs_released v opened _ r
  · cases listened

end Modem

/-- The lock is not held at the head of a loop, and every iteration releases what it
    takes: in `modem_ctrl_listen_clients` exactly if `g_modem_state` fits every message
    that is read, in `modem_ctrl_listen_sp` exactly if an assert is read whenever `select`
    reports something, and in `modem_ctrl_listen_modem` always. -/
theorem wake_lock_released_iff (v : Variant) {buf : Bytes} {messages : List ListenClients.Path}
    {clients : Bytes × Bool} (handled : run (lockStep (Clients.pass v)) (buf, false) messages = some clients)
    {reports : List ListenSp.Path} {sp : Bool × Bool}
    (read : run (lockStep Sp.pass) (true, false) reports = some sp)
    (opened : Finset Device) {rounds : List Round} {modem : Finset Device × Bool}
    (listened : run (lockStep (Modem.pass v opened)) (opened, false) rounds = some modem) :
    (Throughout (lockStep (Clients.pass v)) NotHeld (buf, false) messages ∧
        Along (lockStep (Clients.pass v)) (Releases (Clients.pass v)) (buf, false) messages ↔
      Along (lockStep (Clients.pass v)) (fun _ path => Clients.StateFits path) (buf, false)
        messages) ∧
    (Throughout (lockStep Sp.pass) NotHeld (true, false) reports ∧
        Along (lockStep Sp.pass) (Releases Sp.pass) (true, false) reports ↔
      Along (lockStep Sp.pass) (fun _ path => Sp.ReadsAssert path) (true, false) reports) ∧
    Throughout (lockStep (Modem.pass v opened)) NotHeld (opened, false) rounds ∧
      Along (lockStep (Modem.pass v opened)) (Releases (Modem.pass v opened)) (opened, false)
        rounds := by
  refine ⟨released_iff (Clients.pass_exact v) handled, released_iff Sp.pass_exact read, ?_⟩
  have always (rfds : Finset Device) (r : Round) (rfds' : Finset Device) (wakes : List Bool)
      (passed : Modem.pass v opened rfds r = some (rfds', wakes)) : Released wakes ↔ True :=
    iff_of_true (Modem.pass_released v opened rfds r rfds' wakes passed) trivial
  exact (released_iff always listened).mpr (along_true _ _)

/-- 'Modem Reset' is handled while the modem is blocked. -/
def resetWhileBlocked : ListenClients.Path :=
  [⟨.modemReadDataFromClients, some (some (MODEM_RESET ++ [0]))⟩,
    ⟨.modemCtrlEnableWakeLock true, some ()⟩, ⟨.gModemStateIs .block, some true⟩,
    ⟨.modemCtrlStopWaitAliveTimer, some ()⟩, ⟨.loadModemImg Load.LOAD_MODEM_IMG, some ()⟩,
    ⟨.modemCtrlStartWaitAliveTimer, some ()⟩, ⟨.modemCtrlEnableWakeLock false, some ()⟩]

/-- 'Modem Reset' is skipped, since the modem is alive again. -/
def resetWhileAlive : ListenClients.Path :=
  [⟨.modemReadDataFromClients, some (some (MODEM_RESET ++ [0]))⟩,
    ⟨.modemCtrlEnableWakeLock true, some ()⟩, ⟨.gModemStateIs .block, some false⟩,
    ⟨.gModemStateIs .assert, some false⟩, ⟨.gModemStateIs .reset, some false⟩]

/-- The sp asserts, and the system is not to be rebooted for it. -/
def spAssert : ListenSp.Path :=
  [⟨.select, some .ready⟩, ⟨.modemCtrlEnableWakeLock true, some ()⟩,
    ⟨.read, some (some Connect.P_ARM_MODEM_ASSERT)⟩, ⟨.modemResetProp, some (bytes "0")⟩,
    ⟨.notCalibration, some true⟩,
    ⟨.modemWriteDataToClients Connect.P_ARM_MODEM_ASSERT, some ()⟩,
    ⟨.modemCtrlEnableWakeLock false, some ()⟩]

/-- The read from the sp fails. -/
def spReadFails : ListenSp.Path :=
  [⟨.select, some .ready⟩, ⟨.modemCtrlEnableWakeLock true, some ()⟩, ⟨.read, some none⟩]

/-- A handled reset and a handled assert. -/
theorem handled_messages_released :
    Throughout (lockStep (Clients.pass .internal)) NotHeld ([], false) [resetWhileBlocked] ∧
      Throughout (lockStep Sp.pass) NotHeld (true, false) [spAssert] := by
  have released := @wake_lock_released_iff .internal [] [resetWhileBlocked] _ rfl [spAssert] _ rfl
    (openedFds .internal true true) [] _ rfl
  exact ⟨(released.1.mpr (by decide)).1, (released.2.1.mpr (by decide)).1⟩

/-- A message that comes too late and a failed read keep the lock. -/
theorem skipped_messages_keep_lock :
    ¬ Throughout (lockStep (Clients.pass .internal)) NotHeld ([], false) [resetWhileAlive] ∧
      ¬ Throughout (lockStep Sp.pass) NotHeld (true, false) [spReadFails] := by
  constructor
  · intro notHeld
    cases notHeld.last rfl
  · intro notHeld
    cases notHeld.last rfl

end ModemControl.WakeLock
