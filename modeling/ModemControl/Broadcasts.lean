import Mathlib.Data.List.FinRange
import ModemControl.ClientState

/-! # The order of broadcasts

Any number of threads call `modem_write_data_to_clients`. Each call takes
`s_writeMutex`, processes its message, writes it to one slot after the other and gives
the mutex back, while clients are accepted, evicted and removed in between. A connection
is named by its number among those accepted, so that no two have the same name.
-/

namespace ModemControl.Broadcasts

open Foundation Connect ClientState

/-- Where a thread is in its call of `modem_write_data_to_clients`. -/
inductive Phase where
  | idle
  | called (buf : Bytes)
  | locked (buf : Bytes)
  /-- The message is processed; `next` is the slot that is looked at next. -/
  | writing (buf : Bytes) (next : Nat)
  deriving Repr, DecidableEq

def Phase.holds : Phase → Bool
  | .idle | .called _ => false
  | .locked _ | .writing _ _ => true

structure State where
  shared : Shared := {}
  /-- The thread that holds `s_writeMutex`. -/
  owner : Option Nat := none
  phase : Nat → Phase := fun _ => .idle
  /-- `s_clientFd` -/
  slots : Slot → Option Nat := fun _ => none
  accepted : Nat := 0
  /-- The broadcasts written to each connection. -/
  received : Nat → List Bytes := fun _ => []
  /-- The messages in the order in which `modem_ctrl_process_message` had them. -/
  handled : List Bytes := []

namespace State

def setPhase (s : State) (t : Nat) (phase : Phase) : State :=
  { s with phase := Function.update s.phase t phase }

def setSlot (s : State) (index : Slot) (client : Option Nat) : State :=
  { s with slots := Function.update s.slots index client }

@[simp, grind =] theorem setPhase_phase (s : State) (t u : Nat) (phase : Phase) :
    (s.setPhase t phase).phase u = if u = t then phase else s.phase u :=
  Function.update_apply s.phase t phase u

@[simp, grind =] theorem setSlot_slots (s : State) (index i : Slot) (client : Option Nat) :
    (s.setSlot index client).slots i = if i = index then client else s.slots i :=
  Function.update_apply s.slots index client i

/-- One round of the loop over the slots. -/
def writeClient (s : State) (index : Slot) (buf : Bytes) (fails : Bool) : State :=
  match s.slots index with
  | none => s
  | some client =>
      if fails then s.setSlot index none
      else { s with received := Function.update s.received client (s.received client ++ [buf]) }

/-- The slot for a new client: the first free one, or the last one when all are taken. -/
def freeSlot (s : State) : Slot :=
  ((List.finRange MAX_CLIENT_NUM).find? fun index => s.slots index == none).getD (Fin.last 19)

end State

inductive Input where
  | call (t : Nat) (buf : Bytes)
  | lock (t : Nat)
  | process (t : Nat) (p : Props)
  | write (t : Nat) (fails : Bool)
  | unlock (t : Nat)
  | accept
  /-- `modem_ctrl_read_thread` closes a client and clears its slot. -/
  | hangUp (index : Slot)

def step (s : State) : Input → Option State
  | .call t buf =>
      match s.phase t with
      | .idle => some (s.setPhase t (.called buf))
      | _ => none
  | .lock t =>
      match s.phase t, s.owner with
      | .called buf, none => some { s.setPhase t (.locked buf) with owner := some t }
      | _, _ => none
  | .process t p =>
      match s.phase t with
      | .locked buf => some { s.setPhase t (.writing buf 0) with
          shared := (modemCtrlProcessMessage p s.shared buf).1
          handled := s.handled ++ [buf] }
      | _ => none
  | .write t fails =>
      match s.phase t with
      | .writing buf next =>
          if slot : next < MAX_CLIENT_NUM then
            some ((s.writeClient ⟨next, slot⟩ buf fails).setPhase t (.writing buf (next + 1)))
          else none
      | _ => none
  | .unlock t =>
      match s.phase t with
      | .writing _ next =>
          if next < MAX_CLIENT_NUM then none
          else some { s.setPhase t .idle with owner := none }
      | _ => none
  | .accept =>
      some { s.setSlot s.freeSlot (some s.accepted) with accepted := s.accepted + 1 }
  | .hangUp index => some (s.setSlot index none)

def start : State := {}

/-- The message of the broadcast in progress, while it has still to come to the slot. -/
def State.due (s : State) (index : Slot) : List Bytes :=
  match s.owner with
  | none => []
  | some t =>
      match s.phase t with
      | .writing buf next => if next ≤ index.val then [buf] else []
      | _ => []

/-- The broadcasts a step makes: those whose messages it has processed. -/
def made (s : State) : Input → List Bytes
  | .process t _ =>
      match s.phase t with
      | .locked buf => [buf]
      | _ => []
  | _ => []

/-- What each step asks of the state and does to it. -/
inductive Took (s : State) : Input → State → Prop
  | call {t : Nat} {buf : Bytes} (idle : s.phase t = .idle) :
      Took s (.call t buf) (s.setPhase t (.called buf))
  | lock {t : Nat} {buf : Bytes} (called : s.phase t = .called buf) (free : s.owner = none) :
      Took s (.lock t) { s.setPhase t (.locked buf) with owner := some t }
  | process {t : Nat} {p : Props} {buf : Bytes} (locked : s.phase t = .locked buf) :
      Took s (.process t p) { s.setPhase t (.writing buf 0) with
        shared := (modemCtrlProcessMessage p s.shared buf).1
        handled := s.handled ++ [buf] }
  | write {t : Nat} {fails : Bool} {buf : Bytes} {index : Slot}
      (writing : s.phase t = .writing buf index) :
      Took s (.write t fails)
        ((s.writeClient index buf fails).setPhase t (.writing buf (index + 1)))
  | unlock {t : Nat} {buf : Bytes} {next : Nat} (writing : s.phase t = .writing buf next)
      (all : MAX_CLIENT_NUM ≤ next) : Took s (.unlock t) { s.setPhase t .idle with owner := none }
  | accept : Took s .accept
      { s.setSlot s.freeSlot (some s.accepted) with accepted := s.accepted + 1 }
  | hangUp {index : Slot} : Took s (.hangUp index) (s.setSlot index none)

theorem step_took {s s' : State} {i : Input} (taken : step s i = some s') : Took s i s' := by
  cases i with
  | call t buf =>
      simp only [step] at taken
      split at taken
      · rename_i idle
        exact Option.some.inj taken ▸ .call idle
      · cases taken
  | lock t =>
      simp only [step] at taken
      split at taken
      · rename_i called free
        exact Option.some.inj taken ▸ .lock called free
      · cases taken
  | process t p =>
      simp only [step] at taken
      split at taken
      · rename_i locked
        exact Option.some.inj taken ▸ .process locked
      · cases taken
  | write t fails =>
      simp only [step] at taken
      split at taken
      · split at taken
        · rename_i buf next writing slot
          have index : s.phase t = .writing buf (⟨next, slot⟩ : Slot) := writing
          exact Option.some.inj taken ▸ .write index
        · cases taken
      · cases taken
  | unlock t =>
      simp only [step] at taken
      split at taken
      · rename_i writing
        obtain ⟨all, unlocked⟩ := Option.ite_none_left_eq_some.mp taken
        exact Option.some.inj unlocked ▸ .unlock writing (Nat.le_of_not_lt all)
      · cases taken
  | accept => exact Option.some.inj taken ▸ .accept
  | hangUp index => exact Option.some.inj taken ▸ .hangUp

structure Inv (s : State) : Prop where
  mutex : ∀ t, (s.phase t).holds = true ↔ s.owner = some t
  distinct : ∀ i j client, s.slots i = some client → s.slots j = some client → i = j
  accepted : ∀ i client, s.slots i = some client → client < s.accepted

theorem inv_start : Inv start := by
  constructor
  · simp [start, Phase.holds]
  · simp [start]
  · simp [start]

/-- A thread that moves on in its call keeps to the mutex. -/
theorem mutex_setPhase {s : State} (inv : Inv s) {t : Nat} {phase : Phase}
    (same : phase.holds = (s.phase t).holds) (u : Nat) :
    ((s.setPhase t phase).phase u).holds = true ↔ s.owner = some u := by
  have before := inv.mutex u
  grind

theorem distinct_setSlot {s : State} (inv : Inv s) {index : Slot} {client : Option Nat}
    (fresh : ∀ c, client = some c → c = s.accepted) (i j : Slot) (c : Nat)
    (first : (s.setSlot index client).slots i = some c)
    (second : (s.setSlot index client).slots j = some c) : i = j := by
  have before := inv.distinct i j c
  have named := inv.accepted
  grind

theorem Inv.setSlot_none {s : State} (inv : Inv s) (index : Slot) : Inv (s.setSlot index none) := by
  constructor
  · exact inv.mutex
  · exact distinct_setSlot inv (by simp)
  · intro i client connected
    change client < s.accepted
    have before := inv.accepted i client
    grind

theorem writeClient_phase (s : State) (index : Slot) (buf : Bytes) (fails : Bool) :
    (s.writeClient index buf fails).phase = s.phase := by
  unfold State.writeClient
  split
  · rfl
  · split <;> rfl

theorem writeClient_owner (s : State) (index : Slot) (buf : Bytes) (fails : Bool) :
    (s.writeClient index buf fails).owner = s.owner := by
  unfold State.writeClient
  split
  · rfl
  · split <;> rfl

theorem writeClient_handled (s : State) (index : Slot) (buf : Bytes) (fails : Bool) :
    (s.writeClient index buf fails).handled = s.handled := by
  unfold State.writeClient
  split
  · rfl
  · split <;> rfl

theorem Inv.writeClient {s : State} (inv : Inv s) (index : Slot) (buf : Bytes) (fails : Bool) :
    Inv (s.writeClient index buf fails) := by
  unfold State.writeClient
  split
  · exact inv
  · split
    · exact inv.setSlot_none index
    · exact ⟨inv.mutex, inv.distinct, inv.accepted⟩

theorem Inv.step {s s' : State} {i : Input} (inv : Inv s) (taken : step s i = some s') : Inv s' := by
  cases step_took taken with
  | call idle =>
      refine ⟨mutex_setPhase inv ?_, inv.distinct, inv.accepted⟩
      rw [idle]
      rfl
  | lock called free =>
      refine ⟨?_, inv.distinct, inv.accepted⟩
      intro u
      have before := inv.mutex u
      grind [Phase.holds]
  | process locked =>
      refine ⟨mutex_setPhase inv ?_, inv.distinct, inv.accepted⟩
      rw [locked]
      rfl
  | write writing =>
      refine ⟨mutex_setPhase (inv.writeClient _ _ _) ?_, (inv.writeClient _ _ _).distinct,
        (inv.writeClient _ _ _).accepted⟩
      rw [writeClient_phase, writing]
      rfl
  | unlock writing all =>
      refine ⟨?_, inv.distinct, inv.accepted⟩
      intro u
      have before := inv.mutex u
      have mine := inv.mutex
      grind [Phase.holds]
  | accept =>
      refine ⟨inv.mutex, ?_, ?_⟩
      · exact distinct_setSlot inv (by simp)
      · intro i client connected
        have before := inv.accepted i client
        grind
  | hangUp => exact inv.setSlot_none _

theorem Inv.owner {s : State} (inv : Inv s) {t : Nat} {phase : Phase} (here : s.phase t = phase)
    (holds : phase.holds = true) : s.owner = some t :=
  (inv.mutex t).mp (here ▸ holds)

theorem due_writing {s : State} {t : Nat} {buf : Bytes} {next : Nat} (owner : s.owner = some t)
    (writing : s.phase t = .writing buf next) (index : Slot) :
    s.due index = if next ≤ index.val then [buf] else [] := by
  simp only [State.due, owner, writing]

theorem due_locked {s : State} {t : Nat} {buf : Bytes} (owner : s.owner = some t)
    (locked : s.phase t = .locked buf) (index : Slot) : s.due index = [] := by
  simp only [State.due, owner, locked]

theorem due_free {s : State} (free : s.owner = none) (index : Slot) : s.due index = [] := by
  simp only [State.due, free]

/-- A thread that does not hold the mutex has no broadcast in progress. -/
theorem due_setPhase {s : State} {t : Nat} (other : s.owner ≠ some t) (phase : Phase)
    (index : Slot) : (s.setPhase t phase).due index = s.due index := by
  unfold State.due
  cases owner : s.owner with
  | none => simp only [State.setPhase, owner]
  | some u =>
      have apart : u ≠ t := fun same => other (same ▸ owner)
      simp only [State.setPhase, owner, Function.update_of_ne apart]

/-- The loop comes to a slot: its client has the message now, if it stays. -/
theorem writeClient_received {s : State} (inv : Inv s) {index next : Slot} {buf : Bytes}
    {fails : Bool} {client : Nat} (before : s.slots index = some client)
    (after : (s.writeClient next buf fails).slots index = some client) :
    (s.writeClient next buf fails).received client =
      s.received client ++ if next = index then [buf] else [] := by
  unfold State.writeClient at after ⊢
  cases there : s.slots next with
  | none =>
      have apart : next ≠ index := by grind
      simp only [apart, if_false, List.append_nil]
  | some other =>
      simp only [there] at after ⊢
      cases fails with
      | true =>
          have apart : next ≠ index := by grind
          simp only [apart, if_true, if_false, List.append_nil]
          rfl
      | false =>
          have named := inv.distinct next index
          simp only [Bool.false_eq_true, if_false]
          grind

/-- What a connected client has received and what is due to it grow by what is made. -/
theorem step_delivers {s s' : State} {i : Input} (inv : Inv s) (taken : step s i = some s')
    {index : Slot} {client : Nat} (before : s.slots index = some client)
    (after : s'.slots index = some client) :
    s'.received client ++ s'.due index = s.received client ++ s.due index ++ made s i := by
  cases step_took taken with
  | @call t buf idle =>
      have other : s.owner ≠ some t := by
        intro owner
        have holds := (inv.mutex t).mpr owner
        rw [idle] at holds
        cases holds
      rw [due_setPhase other]
      exact (List.append_nil _).symm
  | @lock t buf called free =>
      have later : State.due { s.setPhase t (.locked buf) with owner := some t } index = [] :=
        due_locked rfl (Function.update_self t _ s.phase) index
      rw [later, due_free free]
      exact (List.append_nil _).symm
  | @process t p buf locked =>
      have owner := inv.owner locked rfl
      have later : State.due { s.setPhase t (.writing buf 0) with
          shared := (modemCtrlProcessMessage p s.shared buf).1
          handled := s.handled ++ [buf] } index = [buf] := by
        rw [due_writing, if_pos (Nat.zero_le _)]
        · exact owner
        · exact Function.update_self t _ s.phase
      rw [later, due_locked owner locked, List.append_nil, made, locked]
      rfl
  | @write t fails buf next writing =>
      have owner := inv.owner writing rfl
      have written := writeClient_received inv before after
      have later : State.due ((s.writeClient next buf fails).setPhase t (.writing buf (next + 1)))
          index = if next.val + 1 ≤ index.val then [buf] else [] := by
        apply due_writing
        · exact (writeClient_owner s next buf fails).trans owner
        · exact Function.update_self t _ _
      rw [later, due_writing owner writing]
      change (s.writeClient next buf fails).received client ++ _ = _ ++ []
      rw [written, List.append_nil, List.append_assoc]
      congr 1
      grind
  | unlock writing all =>
      have owner := inv.owner writing rfl
      have passed := Nat.not_le_of_lt (Nat.lt_of_lt_of_le index.isLt all)
      rw [due_free rfl, due_writing owner writing, if_neg passed]
      exact (List.append_nil _).symm
  | accept => exact (List.append_nil _).symm
  | hangUp => exact (List.append_nil _).symm

theorem step_handled {s s' : State} {i : Input} (taken : step s i = some s') :
    s'.handled = s.handled ++ made s i := by
  cases step_took taken with
  | process locked => simp only [made, locked]
  | write writing => exact (writeClient_handled s _ _ _).trans (List.append_nil _).symm
  | _ => exact (List.append_nil _).symm

/-- The client is in this slot in every state of the run. -/
def Stays (s : State) (inputs : List Input) (index : Slot) (client : Nat) : Prop :=
  Throughout step (fun s => s.slots index = some client) s inputs

theorem run_delivers {s t : State} {inputs : List Input} (inv : Inv s)
    (reached : run step s inputs = some t) :
    ∃ messages, t.handled = s.handled ++ messages ∧
      ∀ index client, Stays s inputs index client →
        t.received client ++ t.due index = s.received client ++ s.due index ++ messages := by
  induction inputs generalizing s with
  | nil =>
      obtain rfl := Option.some.inj reached
      exact ⟨[], (List.append_nil _).symm, fun _ _ _ => (List.append_nil _).symm⟩
  | cons i rest ih =>
      obtain ⟨s', taken, later⟩ := run_cons reached
      obtain ⟨messages, handled, delivers⟩ := ih (inv.step taken) later
      refine ⟨made s i ++ messages, ?_, ?_⟩
      · rw [handled, step_handled taken, List.append_assoc]
      · intro index client stays
        have next := stays.2 s' taken
        have here := step_delivers inv taken stays.1 next.first
        rw [delivers index client next, here, List.append_assoc]

theorem inv_reachable (inputs : List Input) : Throughout step Inv start inputs := by
  apply throughout_of_along _ inv_start (along_true start inputs)
  intro s i s' inv _ taken
  exact inv.step taken

/-- Whatever the threads and the clients do: in any part of a run, the messages that are
    processed are what every client gets that stays connected, in the order in which they
    are processed and each once. At either end a broadcast may be in progress, which has
    then still to come to some of the slots. -/
theorem broadcasts_totally_ordered (before meanwhile : List Input) (s t : State)
    (reached : run step start before = some s) (later : run step s meanwhile = some t) :
    ∃ messages, t.handled = s.handled ++ messages ∧
      ∀ index client, Stays s meanwhile index client →
        t.received client ++ t.due index = s.received client ++ s.due index ++ messages ∧
          (s.owner = none → t.owner = none → t.received client = s.received client ++ messages) := by
  obtain ⟨messages, handled, delivers⟩ := run_delivers ((inv_reachable before).last reached) later
  refine ⟨messages, handled, ?_⟩
  intro index client stays
  have delivered := delivers index client stays
  refine ⟨delivered, ?_⟩
  intro free free'
  simpa only [due_free free, due_free free', List.append_nil] using delivered

/-- The first write of a broadcast. -/
def oneWrite : List Input := [.call 7 MODEM_ALIVE, .lock 7, .process 7 {}, .write 7 false]

def connected : State := (run step start [.accept, .accept]).getD start

def told : State := (run step connected oneWrite).getD start

def firstSlot : Slot := ⟨0, Nat.zero_lt_succ _⟩

theorem stays_first : Stays connected oneWrite firstSlot 0 := by
  refine ⟨rfl, ?_⟩
  rintro _ ⟨⟩
  refine ⟨rfl, ?_⟩
  rintro _ ⟨⟩
  refine ⟨rfl, ?_⟩
  rintro _ ⟨⟩
  refine ⟨rfl, ?_⟩
  rintro _ ⟨⟩
  rfl

theorem broadcasts_totally_ordered_one :
    ∃ messages, told.handled = connected.handled ++ messages ∧ told.received 0 = messages := by
  obtain ⟨messages, handled, delivers⟩ :=
    broadcasts_totally_ordered [.accept, .accept] oneWrite connected told rfl rfl
  have delivered := (delivers firstSlot 0 stays_first).1
  refine ⟨messages, handled, ?_⟩
  calc told.received 0 = told.received 0 ++ told.due firstSlot := (List.append_nil _).symm
    _ = connected.received 0 ++ connected.due firstSlot ++ messages := delivered
    _ = messages := rfl

end ModemControl.Broadcasts
