import ModemControl.Connect
import ModemControl.Foundation.Runs
import Mathlib.Logic.Function.Basic

/-! # What new clients are told

`modem_setup_clients_connect` fills a slot and greets the client with the state it reads
in `s_modemState`, beside the broadcasts of `modem_write_data_to_clients`, which set this
state and go through the slots. Only the broadcasts take `s_writeMutex`.
-/

namespace ModemControl.ClientState

open Foundation Connect

def MAX_CLIENT_NUM : Nat := 20

abbrev Slot : Type := Fin MAX_CLIENT_NUM

/-- A connected client, with the state named by the last message to it that names one. -/
structure Client where
  told : Option ConState := none
  deriving Repr, DecidableEq

/-- Where the accept loop is. -/
inductive Accept where
  | waiting
  /-- A client is accepted; the slots from this one on are to be tried. -/
  | scan (index : Slot)
  /-- The slot is filled; `s_modemState` is still to be compared with these. -/
  | compare (index : Slot) (states : List ConState)
  /-- The state to be written is chosen, or it is 'Unknown'. -/
  | greet (index : Slot) (modemState : Option ConState)
  deriving Repr, DecidableEq

structure Broadcast where
  /-- The state that the message announces. -/
  kind : Option ConState
  /-- The slot that is written next. -/
  next : Nat := 0
  deriving Repr, DecidableEq

structure State where
  shared : Shared := {}
  /-- `s_clientFd` -/
  clients : Slot → Option Client := fun _ => none
  accept : Accept := .waiting
  /-- The broadcast that holds the mutex. -/
  broadcast : Option Broadcast := none
  /-- What the last broadcast that announces a state has announced. -/
  announced : ConState := .offline

/-- The state a message announces. -/
def kind (buf : Bytes) : Option ConState :=
  let message := cstr buf
  if strstr message MODEM_ALIVE then some .alive
  else if strstr message MODEM_ASSERT then
    if strstr message P_ARM_MODEM_ASSERT then none else some .assert
  else if strstr message MODEM_RESET then some .reset
  else none

inductive Input where
  /-- The accept loop takes its next step. -/
  | accept
  /-- A broadcast takes the mutex and processes its message. -/
  | lock (p : Props) (buf : Bytes)
  /-- It writes to its next slot, or releases the mutex after the last one. -/
  | write (fails : Bool)
  /-- `dispatch_modem_blocked` sets the state, under the mutex. -/
  | block
  /-- A client hangs up, and `modem_ctrl_read_thread` frees its slot. -/
  | hangUp (index : Slot)

def State.setClient (s : State) (index : Slot) (client : Option Client) : State :=
  { s with clients := Function.update s.clients index client }

/-- The order in which `s_modemState` is compared. -/
def greetings : List ConState := [.offline, .alive, .assert, .reset]

def acceptStep (s : State) : State :=
  match s.accept with
  | .waiting => { s with accept := .scan ⟨0, by decide⟩ }
  | .scan index =>
      if s.clients index = none then
        { s.setClient index (some {}) with accept := .compare index greetings }
      else if more : index.val + 1 < MAX_CLIENT_NUM then { s with accept := .scan ⟨index + 1, more⟩ }
      -- the last client is closed for the new one, which is not greeted
      else { s.setClient index (some {}) with accept := .waiting }
  | .compare index [] => { s with accept := .greet index none }
  | .compare index (state :: rest) =>
      { s with
        accept :=
          if s.shared.modemState = state then .greet index (some state) else .compare index rest }
  | .greet index modemState =>
      { s.setClient index ((s.clients index).map fun _ => ⟨modemState⟩) with accept := .waiting }

/-- What the write of a message leaves of a client. -/
def Client.written (fails : Bool) (kind : Option ConState) (client : Client) : Option Client :=
  if fails then none else some ⟨kind <|> client.told⟩

def step (s : State) : Input → Option State
  | .accept => some (acceptStep s)
  | .lock p buf =>
      match s.broadcast with
      | none => some { s with
          shared := (modemCtrlProcessMessage p s.shared buf).1
          broadcast := some { kind := kind buf }
          announced := (kind buf).getD s.announced }
      | some _ => none
  | .write fails =>
      match s.broadcast with
      | none => none
      | some b =>
          if slot : b.next < MAX_CLIENT_NUM then
            let index : Slot := ⟨b.next, slot⟩
            some { s.setClient index ((s.clients index).bind (Client.written fails b.kind)) with
              broadcast := some { b with next := b.next + 1 } }
          else some { s with broadcast := none }
  | .block =>
      if s.broadcast = none ∧ s.shared.modemState = .alive then
        some { s with shared := { s.shared with modemState := .assert } }
      else none
  | .hangUp index => some (s.setClient index none)

/-- While nothing is in progress, every client knows the announced state. -/
def Informed (s : State) : Prop :=
  s.accept = .waiting → s.broadcast = none →
    ∀ index client, s.clients index = some client → client.told = some s.announced

/-- The broadcast of the announced state has still to come to this slot. -/
def Ahead (s : State) (index : Slot) : Prop :=
  ∃ b ∈ s.broadcast, b.kind = some s.announced ∧ b.next ≤ index

instance (s : State) (index : Slot) : Decidable (Ahead s index) := by
  unfold Ahead; infer_instance

/-- A client that is greeted is told a `s_modemState` that is still the same, and is the
    announced state; and this, or a client that is not greeted, may be told by the
    broadcast that is in progress. -/
def Timely (s : State) : Input → Prop
  | .accept =>
      match s.accept with
      | .scan index =>
          (s.clients index).isSome → index.val + 1 = MAX_CLIENT_NUM → Ahead s index
      | .greet index modemState =>
          (s.clients index).isSome →
            modemState = some s.shared.modemState ∧ s.shared.modemState = s.announced ∨
              Ahead s index
      | _ => True
  | _ => True

instance (s : State) (i : Input) : Decidable (Timely s i) := by
  unfold Timely
  split
  · split <;> infer_instance
  · infer_instance

/-- The accept loop is going to greet the client in this slot. -/
def Accept.greets (accept : Accept) (index : Slot) : Prop :=
  (∃ states, accept = .compare index states) ∨ ∃ modemState, accept = .greet index modemState

@[simp] theorem not_greets_waiting (index : Slot) : ¬ Accept.waiting.greets index := by
  simp [Accept.greets]

@[simp] theorem not_greets_scan (here index : Slot) : ¬ (Accept.scan here).greets index := by
  simp [Accept.greets]

@[simp] theorem greets_compare {here index : Slot} {states : List ConState} :
    (Accept.compare here states).greets index ↔ here = index := by
  simp [Accept.greets]

@[simp] theorem greets_greet {here index : Slot} {modemState : Option ConState} :
    (Accept.greet here modemState).greets index ↔ here = index := by
  simp [Accept.greets]

theorem ahead_iff {s : State} {b : Broadcast} (inProgress : s.broadcast = some b) {index : Slot} :
    Ahead s index ↔ b.kind = some s.announced ∧ b.next ≤ index := by
  simp [Ahead, inProgress]

theorem not_ahead {s : State} (quiet : s.broadcast = none) (index : Slot) : ¬ Ahead s index := by
  simp [Ahead, quiet]

/-- A client knows the announced state, or is going to be told. -/
structure Inv (s : State) : Prop where
  clients : ∀ index client, s.clients index = some client →
    client.told = some s.announced ∨ Ahead s index ∨ s.accept.greets index
  broadcast : ∀ b, s.broadcast = some b → b.kind = none ∨ b.kind = some s.announced

theorem Inv.informed {s : State} (inv : Inv s) : Informed s := by
  intro waiting quiet index client connected
  rcases inv.clients index client connected with told | ahead | greets
  · exact told
  · exact absurd ahead (not_ahead quiet index)
  · rw [waiting] at greets
    exact absurd greets (not_greets_waiting index)

/-- One slot changes. -/
theorem Inv.setClient {s s' : State} (inv : Inv s) {index : Slot} {client : Option Client}
    (changed : s'.clients = Function.update s.clients index client)
    (told : ∀ c, client = some c → c.told = some s'.announced ∨ Ahead s' index ∨ s'.accept.greets index)
    (others : ∀ index', index' ≠ index → Ahead s index' ∨ s.accept.greets index' →
      Ahead s' index' ∨ s'.accept.greets index')
    (announced : s'.announced = s.announced)
    (broadcast : ∀ b, s'.broadcast = some b → b.kind = none ∨ b.kind = some s'.announced) :
    Inv s' := by
  refine ⟨?_, broadcast⟩
  intro index' c connected
  rw [changed] at connected
  by_cases same : index' = index
  · subst same
    rw [Function.update_self] at connected
    exact told c connected
  · rw [Function.update_of_ne same] at connected
    rw [announced]
    rcases inv.clients index' c connected with known | later
    · exact Or.inl known
    · exact Or.inr (others index' same later)

/-- A step that leaves the slots and the broadcast. -/
theorem Inv.others {s s' : State} (inv : Inv s) (clients : s'.clients = s.clients)
    (announced : s'.announced = s.announced) (broadcast : s'.broadcast = s.broadcast)
    (greets : ∀ index, s.accept.greets index → s'.accept.greets index) : Inv s' := by
  constructor
  · intro index client connected
    rw [clients] at connected
    rw [Ahead, announced, broadcast]
    rcases inv.clients index client connected with told | ahead | greeted
    · exact Or.inl told
    · exact Or.inr (Or.inl ahead)
    · exact Or.inr (Or.inr (greets index greeted))
  · rw [announced, broadcast]
    exact inv.broadcast

theorem inv_accept {s : State} (inv : Inv s) (timely : Timely s .accept) : Inv (acceptStep s) := by
  rw [Timely] at timely
  unfold acceptStep
  split
  · rename_i waiting
    refine inv.others rfl rfl rfl ?_
    intro index greets
    rw [waiting] at greets
    exact absurd greets (not_greets_waiting index)
  · rename_i index scanning
    have greetsNone (index' : Slot) : ¬ s.accept.greets index' := by
      rw [scanning]
      exact not_greets_scan index index'
    rw [scanning] at timely
    split
    · apply inv.setClient rfl
      · intro c same
        exact Or.inr (Or.inr (greets_compare.mpr rfl))
      · intro index' _ later
        exact Or.inl (later.resolve_right (greetsNone index'))
      · rfl
      · exact inv.broadcast
    · split
      · exact inv.others rfl rfl rfl fun index' greets => absurd greets (greetsNone index')
      · rename_i occupied last
        have taken : (s.clients index).isSome = true := Option.isSome_iff_ne_none.mpr occupied
        have ahead : Ahead s index := timely taken (by have inside := index.isLt; omega)
        apply inv.setClient rfl
        · intro _ _
          exact Or.inr (Or.inl ahead)
        · intro index' _ later
          exact Or.inl (later.resolve_right (greetsNone index'))
        · rfl
        · exact inv.broadcast
  · rename_i index comparing
    refine inv.others rfl rfl rfl ?_
    intro index' greets
    rw [comparing, greets_compare] at greets
    exact greets_greet.mpr greets
  · rename_i index state rest comparing
    refine inv.others rfl rfl rfl ?_
    intro index' greets
    rw [comparing, greets_compare] at greets
    dsimp only
    split
    · exact greets_greet.mpr greets
    · exact greets_compare.mpr greets
  · rename_i index modemState greeting
    rw [greeting] at timely
    apply inv.setClient rfl
    · intro c same
      obtain ⟨client, connected, rfl⟩ := Option.map_eq_some_iff.mp same
      rcases timely (by rw [connected]; rfl) with ⟨read, current⟩ | ahead
      · left
        rw [read, current]
        rfl
      · exact Or.inr (Or.inl ahead)
    · intro index' other later
      rw [greeting, greets_greet] at later
      exact Or.inl (later.resolve_right fun same => other same.symm)
    · rfl
    · exact inv.broadcast

theorem inv_write {s s' : State} {fails : Bool} (inv : Inv s)
    (taken : step s (.write fails) = some s') : Inv s' := by
  cases inProgress : s.broadcast with
  | none => simp [step, inProgress] at taken
  | some b =>
      have known := inv.broadcast b inProgress
      simp only [step, inProgress] at taken
      split at taken
      · rename_i slot
        obtain rfl := Option.some.inj taken
        apply inv.setClient rfl
        · intro c same
          obtain ⟨client, connected, written⟩ := Option.bind_eq_some_iff.mp same
          rw [Client.written] at written
          split at written
          · cases written
          · obtain rfl := Option.some.inj written
            rcases known with none | announces
            · rcases inv.clients _ client connected with told | before | greets
              · left
                rw [none]
                exact told
              · have announces := ((ahead_iff inProgress).mp before).1
                rw [none] at announces
                cases announces
              · exact Or.inr (Or.inr greets)
            · left
              rw [announces]
              rfl
        · rintro index' other (before | greets)
          · obtain ⟨announces, next⟩ := (ahead_iff inProgress).mp before
            refine Or.inl ⟨_, rfl, announces, ?_⟩
            have distinct : b.next ≠ index' := by
              intro same
              exact other (Fin.ext same.symm)
            show b.next + 1 ≤ index'
            omega
          · exact Or.inr greets
        · rfl
        · rintro _ ⟨⟩
          exact known
      · rename_i last
        obtain rfl := Option.some.inj taken
        refine ⟨?_, nofun⟩
        intro index client connected
        rcases inv.clients index client connected with told | before | greets
        · exact Or.inl told
        · have next := ((ahead_iff inProgress).mp before).2
          have inside := index.isLt
          omega
        · exact Or.inr (Or.inr greets)

theorem inv_step (s : State) (i : Input) (s' : State) (inv : Inv s) (timely : Timely s i)
    (taken : step s i = some s') : Inv s' := by
  cases i with
  | accept =>
      obtain rfl := Option.some.inj taken
      exact inv_accept inv timely
  | lock p buf =>
      cases inProgress : s.broadcast with
      | some b => simp [step, inProgress] at taken
      | none =>
          simp only [step, inProgress, Option.some.injEq] at taken
          subst taken
          constructor
          · intro index client connected
            cases announces : kind buf with
            | some state => exact Or.inr (Or.inl ⟨_, rfl, rfl, Nat.zero_le _⟩)
            | none =>
                rcases inv.clients index client connected with told | ahead | greets
                · exact Or.inl told
                · exact absurd ahead (not_ahead inProgress index)
                · exact Or.inr (Or.inr greets)
          · rintro _ ⟨⟩
            cases announces : kind buf with
            | some state => exact Or.inr rfl
            | none => exact Or.inl rfl
  | write fails => exact inv_write inv taken
  | block =>
      simp only [step] at taken
      split at taken
      · obtain rfl := Option.some.inj taken
        exact inv.others rfl rfl rfl fun _ => id
      · cases taken
  | hangUp index =>
      obtain rfl := Option.some.inj taken
      exact inv.setClient rfl nofun (fun _ _ => id) rfl inv.broadcast

/-- When every client is told in time, every client knows the announced state whenever
    no accept and no broadcast is in progress. -/
theorem clients_informed (inputs : List Input) (along : Along step Timely {} inputs) :
    Throughout step Informed {} inputs := by
  have start : Inv {} := ⟨nofun, nofun⟩
  exact (throughout_of_along inv_step start along).mono fun _ => Inv.informed

/-- A message is broadcast to the end, and then a client connects; `steps` are those of
    the accept loop. -/
def connectAfter (buf : Bytes) (steps : Nat) : List Input :=
  .lock {} buf :: List.replicate (MAX_CLIENT_NUM + 1) (.write false) ++
    List.replicate steps .accept

/-- A client that connects to a modem that is alive. -/
theorem alive_client_informed : Throughout step Informed {} (connectAfter MODEM_ALIVE 5) :=
  clients_informed (connectAfter MODEM_ALIVE 5) (by decide)

/-- After 'Modem Reset' a new client is told the state before. -/
theorem reset_client_misinformed : ¬ Throughout step Informed {} (connectAfter MODEM_RESET 4) := by
  intro informed
  have told := informed.last rfl rfl rfl ⟨0, by decide⟩ _ rfl
  cases told

end ModemControl.ClientState
