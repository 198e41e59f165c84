import Mathlib.Data.Finset.Lattice.Basic
import ModemControl.Control
import ModemControl.Foundation.Runs
import ModemControl.Foundation.Select

/-! # The loops that wait for the modem

`modem_ctrl_listen_modem` of both variants, and the wait loop of
`modem_ctrl_try_read_modem_alive`. One step is one call of `select` with everything the
loop does until it calls `select` again.
-/

namespace ModemControl.ListenModem

open Foundation Select

inductive Variant where
  | external
  | internal
  deriving Repr, DecidableEq

/-- The devices `modem_ctrl_listen_modem` may monitor. -/
inductive Device where
  | assert
  | watchdog
  | alive
  deriving Repr, DecidableEq

/-- The set built before the loop. The external variant has no watchdog; the other two
    are left out when they cannot be opened. -/
def openedFds (v : Variant) (watchdog alive : Bool) : Finset Device :=
  insert .assert
    ((if v = .internal ∧ watchdog then {.watchdog} else ∅) ∪ if alive then {.alive} else ∅)

inductive Act where
  | read (fd : Device)
  | wakeLock (on : Bool)
  | stopWaitAliveTimer
  | setModemState (g : ModemState)
  | toClients (msg : Bytes)
  | setWaitResetFlag (set : Bool)
  | rebootAllSystem
  deriving Repr, DecidableEq

def HUNG : Bytes := bytes "HUNG"

/-- The tests of the external loop; they are made one after the other. -/
def externalMessage (data : Bytes) : List Act :=
  let text := cstr data
  (if strstr text MODEM_ALIVE then
    [.stopWaitAliveTimer, .setModemState .alive, .toClients MODEM_ALIVE] else []) ++
  (if strstr text MODEM_RESET then
    [.setModemState .reset, .toClients MODEM_RESET, .setWaitResetFlag false] else []) ++
  match findStr text MODEM_ASSERT with
  | some info => [.setModemState .assert, .toClients info]
  | none => []

/-- The tests of the internal loop; the first that holds is taken. -/
def internalMessage (isReset : Bool) (data : Bytes) : List Act :=
  let text := cstr data
  if strstr text MODEM_ALIVE then
    [.stopWaitAliveTimer, .setModemState .alive, .toClients data]
  else if strstr text MODEM_RESET then
    [.setModemState .reset, .setWaitResetFlag false]
  else if strstr text MODEM_ASSERT then
    .setModemState .assert ::
      (if strstr text HUNG && isReset then [.rebootAllSystem] else []) ++ [.toClients data]
  else []

def message (v : Variant) (isReset : Bool) (data : Bytes) : List Act :=
  match v with
  | .external => externalMessage data
  | .internal => internalMessage isReset data

/-- The device that is read: the first that is set, in the order of the tests. -/
def pick (opened rfds : Finset Device) : Option Device :=
  if .assert ∈ rfds then some .assert
  else if .watchdog ∈ opened ∧ .watchdog ∈ rfds then some .watchdog
  else if .alive ∈ opened ∧ .alive ∈ rfds then some .alive
  else none

/-- The answer of `select`, what `read` then gets (nothing when it returns 0 or -1),
    and the modem-reset property at that time. -/
structure Round where
  answer : Answer Device
  data : Option Bytes := none
  isReset : Bool := false
  deriving DecidableEq

/-- What the loop body does with the set that `select` left. -/
def roundActs (v : Variant) (opened rfds : Finset Device) (r : Round) : List Act :=
  match r.answer with
  | .error _ => []
  | .ready set =>
      if set = ∅ then []
      else match pick opened rfds with
        | none => []
        | some fd =>
            match r.data with
            | none => [.wakeLock true, .read fd, .wakeLock false]
            | some data =>
                .wakeLock true :: .read fd :: message v r.isReset data ++ [.wakeLock false]

/-- One pass of the loop: the set for the next call, and what was done. -/
def listenRound (v : Variant) (opened rfds : Finset Device) (r : Round) :
    Option (Finset Device × List Act) :=
  if r.answer.Possible rfds then
    let rfds := r.answer.leaves rfds
    some (rfds, roundActs v opened rfds r)
  else none

/-- The set passed to one call of `select`, and the set passed to the next. -/
def listenStep (v : Variant) (opened : Finset Device) (rfds : Finset Device) (r : Round) :
    Option (Finset Device) :=
  (listenRound v opened rfds r).map Prod.fst

theorem listenStep_some {v : Variant} {opened rfds rfds' : Finset Device} {r : Round}
    (taken : listenStep v opened rfds r = some rfds') : rfds' = r.answer.leaves rfds := by
  simp only [listenStep, listenRound] at taken
  split at taken
  · exact (Option.some.inj taken).symm
  · cases taken

/-- The state at a call of `select`, or none when the loop has ended. -/
structure AliveLoop where
  /-- Whether the one descriptor is in the set. -/
  rfds : Finset Unit
  cnt : Nat
  running : Bool
  deriving DecidableEq

structure AliveRound where
  answer : Answer Unit
  /-- The timer still runs when `select` has reported the descriptor. -/
  timerAtRead : Bool := true
  data : Option Bytes := none
  /-- The timer still runs at the next test of the loop condition. -/
  timerAtHead : Bool := true
  deriving DecidableEq

/-- The loop condition `cnt++ < 60 && s_wait_alive_timer.it_value.tv_sec`. -/
def goesOn (cnt : Nat) (timer : Bool) : Bool := cnt < 60 && timer

/-- What one pass reads and does; the message is looked for in what was read. -/
def aliveActs (r : AliveRound) : List Act :=
  match r.answer with
  | .error _ => []
  | .ready set =>
      if set ≠ ∅ ∧ r.timerAtRead then
        match r.data with
        | none => [.read .alive]
        | some data =>
            .read .alive ::
              if strstr (cstr data) MODEM_ALIVE then
                [.stopWaitAliveTimer, .setModemState .alive, .toClients MODEM_ALIVE]
              else []
      else []

/-- The loop is left inside its body: the timer was stopped, or the modem is alive. -/
def breaks (r : AliveRound) : Bool :=
  match r.answer with
  | .error _ => false
  | .ready set =>
      set ≠ ∅ && (!r.timerAtRead || .stopWaitAliveTimer ∈ aliveActs r)

def aliveStep (s : AliveLoop) (r : AliveRound) : Option AliveLoop :=
  if s.running ∧ r.answer.Possible s.rfds then
    let rfds := r.answer.leaves s.rfds
    -- an interrupted call is made again at once
    if r.answer = .error true then some s
    else if breaks r then some { s with rfds := rfds, running := false }
    else some ⟨rfds, s.cnt + 1, goesOn s.cnt r.timerAtHead⟩
  else none

/-- The loop as it is entered, when the timer runs at its first test. -/
def aliveStart : AliveLoop := ⟨{()}, 1, goesOn 0 true⟩

/-- If `select` is called, the descriptor is in its set. -/
def Watching (s : AliveLoop) : Prop := s.running = true → {()} ⊆ s.rfds

/-- A timeout is not followed by another pass. -/
def NoEarlyTimeout (s : AliveLoop) (r : AliveRound) : Prop :=
  r.answer = .ready ∅ → goesOn s.cnt r.timerAtHead = false

instance (s : AliveLoop) (r : AliveRound) : Decidable (NoEarlyTimeout s r) := by
  unfold NoEarlyTimeout; infer_instance

theorem aliveStep_cases {s s' : AliveLoop} {r : AliveRound} (taken : aliveStep s r = some s') :
    s.running = true ∧ (s' = s ∧ r.answer = .error true ∨
      s'.running = false ∧ r.answer ≠ .ready ∅ ∨
      s' = ⟨r.answer.leaves s.rfds, s.cnt + 1, goesOn s.cnt r.timerAtHead⟩) := by
  simp only [aliveStep] at taken
  split at taken
  · rename_i possible
    refine ⟨possible.1, ?_⟩
    split at taken
    · rename_i again
      exact Or.inl ⟨(Option.some.inj taken).symm, again⟩
    · split at taken
      · rename_i left
        obtain rfl := Option.some.inj taken
        refine Or.inr (Or.inl ⟨rfl, ?_⟩)
        intro timeout
        simp [breaks, timeout] at left
      · exact Or.inr (Or.inr (Option.some.inj taken).symm)
  · cases taken

/-- On one descriptor an answer spares it unless it is a timeout. -/
theorem spares_unit {a : Answer Unit} : a.Spares {()} ↔ a ≠ .ready ∅ := by
  cases a with
  | error eintr => simp [Answer.Spares]
  | ready set =>
      simp only [Answer.Spares, Finset.singleton_subset_iff, ne_eq, Answer.ready.injEq,
        ← Finset.not_nonempty_iff_eq_empty, not_not]
      constructor
      · intro member
        exact ⟨(), member⟩
      · intro nonempty
        exact nonempty.choose_spec

theorem alive_exact (s : AliveLoop) (r : AliveRound) (s' : AliveLoop) (before : Watching s)
    (taken : aliveStep s r = some s') : Watching s' ↔ NoEarlyTimeout s r := by
  obtain ⟨running, stays | ⟨stopped, heard⟩ | rfl⟩ := aliveStep_cases taken
  · obtain ⟨rfl, again⟩ := stays
    refine iff_of_true before ?_
    intro timeout
    rw [again] at timeout
    cases timeout
  · refine iff_of_true ?_ fun timeout => absurd timeout heard
    intro runs
    rw [stopped] at runs
    cases runs
  · simp only [Watching, NoEarlyTimeout, Answer.subset_leaves_iff (before running), spares_unit]
    cases goesOn s.cnt r.timerAtHead <;> simp

theorem listen_exact (v : Variant) (opened rfds : Finset Device) (r : Round)
    (rfds' : Finset Device) (before : opened ⊆ rfds)
    (taken : listenStep v opened rfds r = some rfds') :
    opened ⊆ rfds' ↔ r.answer.Spares opened := by
  rw [listenStep_some taken]
  exact Answer.subset_leaves_iff before r.answer

/-- Every call of `select` asks about all the devices that were opened exactly when no
    answer that is followed by another call takes one of them out of the set. -/
theorem select_keeps_watching (v : Variant) (watchdog alive : Bool) {rounds : List Round}
    {rfds : Finset Device}
    (listened : run (listenStep v (openedFds v watchdog alive)) (openedFds v watchdog alive) rounds =
      some rfds)
    {tries : List AliveRound} {s : AliveLoop} (tried : run aliveStep aliveStart tries = some s) :
    (Throughout (listenStep v (openedFds v watchdog alive)) (openedFds v watchdog alive ⊆ ·)
        (openedFds v watchdog alive) rounds ↔
      Along (listenStep v (openedFds v watchdog alive))
        (fun _ r => r.answer.Spares (openedFds v watchdog alive)) (openedFds v watchdog alive)
        rounds) ∧
    (Throughout aliveStep Watching aliveStart tries ↔
      Along aliveStep NoEarlyTimeout aliveStart tries) := by
  constructor
  · exact throughout_iff_along (listen_exact v _) listened (Finset.Subset.refl _)
  · apply throughout_iff_along alive_exact tried
    intro _
    exact Finset.Subset.refl _

/-- Two devices that report at the same time stay watched, and so does the device of the
    wait loop when its `select` is interrupted. -/
theorem select_keeps_watching_both :
    Throughout (listenStep .external (openedFds .external false true))
        (openedFds .external false true ⊆ ·) (openedFds .external false true)
        [⟨.ready (openedFds .external false true), some MODEM_ALIVE, false⟩] ∧
      Throughout aliveStep Watching aliveStart [⟨.error true, true, none, true⟩] := by
  have kept := @select_keeps_watching .external false true
    [⟨.ready (openedFds .external false true), some MODEM_ALIVE, false⟩] _ rfl
    [⟨.error true, true, none, true⟩] _ rfl
  exact ⟨kept.1.mpr (by decide), kept.2.mpr (by decide)⟩

/-- The alive device reports alone, and the assert device and the watchdog are not
    watched any more; in the wait loop it takes one timeout. -/
theorem alive_report_blinds_assert :
    ¬ Throughout (listenStep .internal (openedFds .internal true true))
        (openedFds .internal true true ⊆ ·) (openedFds .internal true true)
        [⟨.ready {.alive}, some MODEM_ALIVE, false⟩] ∧
      ¬ Throughout aliveStep Watching aliveStart [⟨.ready ∅, true, none, true⟩] := by
  constructor
  · intro watched
    have next : openedFds .internal true true ⊆ {.alive} := watched.last rfl
    exact absurd next (by decide)
  · intro watched
    have next : Watching ⟨∅, 2, true⟩ := watched.last rfl
    exact absurd (next rfl) (by decide)

end ModemControl.ListenModem
