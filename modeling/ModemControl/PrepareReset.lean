import ModemControl.Connect
import ModemControl.ListenModem

/-! # The 'Prepare Reset' branch of modem_ctrl_listen_clients

The branch asks the modem over the diag device to reset, sets `wait_modem_reset`, waits
up to five seconds for the flag to be cleared, and reloads the modem itself when it is
still set. The listener thread clears it when the modem says 'Modem Reset'; in the
external variant it first broadcasts this, which puts a 'Modem Reset' into the control
pipe. Both threads take their steps in any order. What only takes time is left out: the
log and diag devices that are read empty, the timer and the wake lock.
-/

namespace ModemControl.PrepareReset

open Foundation ListenModem

/-- Where the branch is. -/
inductive Pc where
  | branch
  | openDiag
  | setFlag
  | writeDiag
  /-- In the loop of 100 ms waits, with this count left. -/
  | wait (cnt : Nat)
  | lastTest
  | reload
  | done
  deriving Repr, DecidableEq

structure State where
  pc : Pc := .branch
  waitModemReset : Bool
  gModemState : ModemState
  miniapPanic : Bool := false
  shared : Connect.Shared := {}
  /-- What the listener has still to do for the message it has read. -/
  todo : List ListenModem.Act := []
  /-- That message is the modem's answer to the request of this branch. -/
  ack : Bool := false
  /-- The modem has got the reset command of this branch. -/
  commandSent : Bool := false
  /-- The control messages written during the branch, with their cause. -/
  pipe : List (CtrlMsg × Bool) := []
  /-- `load_modem_img` or `modem_ctrl_reboot_external_modem` was called in the branch. -/
  reloaded : Bool := false
  deriving Repr, DecidableEq

/-- What the client thread finds in one of its steps. -/
structure Answers where
  rebootModemOnly : Bytes := bytes "0"
  diagOpens : Bool := true
  /-- The result of writing the two bytes of the command. -/
  wCnt : Int := 2
  deriving Repr, DecidableEq

def clientStep (v : Variant) (s : State) (a : Answers) : Option State :=
  match s.pc with
  | .branch =>
      match v with
      | .external =>
          -- the property decides, whatever `b_miniap_panic` was
          let rebootModemOnly := atoi a.rebootModemOnly != 0
          some { s with
            miniapPanic := false
            pc := if rebootModemOnly then .openDiag else .reload }
      | .internal => some { s with pc := .openDiag }
  | .openDiag => some { s with pc := if a.diagOpens then .setFlag else .wait 50 }
  | .setFlag => some { s with waitModemReset := true, pc := .writeDiag }
  | .writeDiag => some { s with commandSent := 0 < a.wCnt, pc := .wait 50 }
  | .wait cnt =>
      some { s with pc := if 0 < cnt - 1 ∧ s.waitModemReset then .wait (cnt - 1) else .lastTest }
  | .lastTest => some { s with pc := if s.waitModemReset then .reload else .done }
  | .reload =>
      let g := match v with
        | .external => .rebootExtModem
        | .internal => s.gModemState
      some { s with gModemState := g, reloaded := true, pc := .done }
  | .done => none

def controls (acts : List Connect.Act) : List CtrlMsg :=
  acts.filterMap fun
    | .writeCtrl _ m => some m
    | _ => none

def listenerAct (p : Connect.Props) (s : State) : ListenModem.Act → State
  | .setModemState g => { s with gModemState := g }
  | .setWaitResetFlag set => { s with waitModemReset := set }
  | .toClients msg =>
      let (shared, acts) := Connect.modemWriteDataToClients p s.shared msg
      { s with shared := shared, pipe := s.pipe ++ (controls acts).map fun m => (m, s.ack) }
  | _ => s

inductive Input where
  | client (a : Answers)
  /-- The listener reads `data`; only a modem that got the command can answer it. -/
  | modem (data : Bytes) (isReset ack : Bool)
  /-- The listener takes its next step. -/
  | listener (p : Connect.Props)
  deriving Repr, DecidableEq

def step (v : Variant) (s : State) : Input → Option State
  | .client a => clientStep v s a
  | .modem data isReset ack =>
      if s.todo = [] ∧ (ack = true → s.commandSent = true) then
        some { s with todo := message v isReset data, ack := ack }
      else none
  | .listener p =>
      match s.todo with
      | [] => none
      | act :: rest => some (listenerAct p { s with todo := rest } act)

/-- The modem's answer to this request has become a control message. -/
def Acked (s : State) : Prop := (.modemReset, true) ∈ s.pipe

instance (s : State) : Decidable (Acked s) := by unfold Acked; infer_instance

def Pc.waits : Pc → Bool
  | .writeDiag => true
  | .wait _ => true
  | .lastTest => true
  | _ => false

/-- The reset is on its way while the branch waits, and at the end of the branch it was
    reloaded there, or the control message has been written. -/
structure Pending (s : State) : Prop where
  waiting : s.pc.waits = true → s.waitModemReset = true ∨ Acked s
  atEnd : s.pc = .done → s.reloaded = true ∨ Acked s

instance (s : State) : Decidable (Pending s) :=
  decidable_of_iff ((s.pc.waits = true → s.waitModemReset = true ∨ Acked s) ∧
      (s.pc = .done → s.reloaded = true ∨ Acked s))
    ⟨fun h => ⟨h.1, h.2⟩, fun h => ⟨h.waiting, h.atEnd⟩⟩

/-- If the diag device cannot be opened, the flag is set anyway; and while the branch
    waits, the flag is cleared only after the answer has become a control message. -/
def Acknowledged (s : State) : Input → Prop
  | .client a => s.pc = .openDiag → a.diagOpens = false → s.waitModemReset = true
  | .modem _ _ _ => True
  | .listener _ => s.pc.waits = true → s.todo.head? = some (.setWaitResetFlag false) → Acked s

instance (s : State) (i : Input) : Decidable (Acknowledged s i) := by
  cases i <;> unfold Acknowledged <;> infer_instance

/-- Before the command is sent nothing is an answer to it. -/
structure Unsent (s : State) : Prop where
  early : s.pc = .branch ∨ s.pc = .openDiag ∨ s.pc = .setFlag ∨ s.pc = .writeDiag →
    s.commandSent = false
  silent : s.commandSent = false → s.ack = false ∧ ¬ Acked s

theorem acked_listenerAct {p : Connect.Props} {s : State} {act : ListenModem.Act} :
    Acked (listenerAct p s act) → Acked s ∨ s.ack = true := by
  intro acked
  cases act with
  | toClients msg =>
      simp only [listenerAct, Acked, List.mem_append, List.mem_map] at acked
      cases acked with
      | inl before => exact Or.inl before
      | inr written =>
          obtain ⟨m, -, same⟩ := written
          exact Or.inr (Prod.mk.inj same).2
  | _ => exact Or.inl acked

theorem acked_mono {p : Connect.Props} {s : State} {act : ListenModem.Act} (acked : Acked s) :
    Acked (listenerAct p s act) := by
  cases act with
  | toClients msg => exact List.mem_append_left _ acked
  | _ => exact acked

/-- A step of the listener leaves the branch where it is. -/
theorem listenerAct_frame (p : Connect.Props) (s : State) (act : ListenModem.Act) :
    (listenerAct p s act).pc = s.pc ∧ (listenerAct p s act).commandSent = s.commandSent ∧
      (listenerAct p s act).ack = s.ack ∧ (listenerAct p s act).reloaded = s.reloaded := by
  cases act <;> exact ⟨rfl, rfl, rfl, rfl⟩

/-- The client thread writes nothing to the pipe and leaves the listener alone. -/
theorem client_frame {v : Variant} {s s' : State} {a : Answers}
    (taken : step v s (.client a) = some s') :
    s'.pipe = s.pipe ∧ s'.todo = s.todo ∧ s'.ack = s.ack := by
  simp only [step, clientStep] at taken
  split at taken
  case h_1 =>
    split at taken <;> (obtain rfl := Option.some.inj taken; exact ⟨rfl, rfl, rfl⟩)
  case h_8 => cases taken
  all_goals
    obtain rfl := Option.some.inj taken
    exact ⟨rfl, rfl, rfl⟩

theorem unsent_client {v : Variant} {s s' : State} {a : Answers} (before : Unsent s)
    (taken : clientStep v s a = some s') : Unsent s' := by
  unfold clientStep at taken
  split at taken
  · rename_i here
    have sent := before.early (Or.inl here)
    split at taken <;>
      (obtain rfl := Option.some.inj taken; exact ⟨fun _ => sent, before.silent⟩)
  · rename_i here
    have sent := before.early (Or.inr (Or.inl here))
    obtain rfl := Option.some.inj taken
    exact ⟨fun _ => sent, before.silent⟩
  · rename_i here
    have sent := before.early (Or.inr (Or.inr (Or.inl here)))
    obtain rfl := Option.some.inj taken
    exact ⟨fun _ => sent, before.silent⟩
  · rename_i here
    have sent := before.early (Or.inr (Or.inr (Or.inr here)))
    obtain rfl := Option.some.inj taken
    exact ⟨by simp, fun _ => before.silent sent⟩
  · obtain rfl := Option.some.inj taken
    refine ⟨?_, before.silent⟩
    intro early
    dsimp only at early
    split at early <;> simp at early
  · obtain rfl := Option.some.inj taken
    refine ⟨?_, before.silent⟩
    intro early
    dsimp only at early
    split at early <;> simp at early
  · obtain rfl := Option.some.inj taken
    exact ⟨by simp, before.silent⟩
  · cases taken

theorem unsent_step {v : Variant} {s s' : State} {i : Input} (before : Unsent s)
    (taken : step v s i = some s') : Unsent s' := by
  cases i with
  | client a => exact unsent_client before taken
  | modem data isReset ack =>
      simp only [step] at taken
      split at taken
      · rename_i possible
        obtain rfl := Option.some.inj taken
        refine ⟨before.early, ?_⟩
        intro unsent
        refine ⟨?_, (before.silent unsent).2⟩
        cases ack with
        | false => rfl
        | true => exact absurd (possible.2 rfl) (by rw [unsent]; decide)
      · cases taken
  | listener p =>
      simp only [step] at taken
      split at taken
      · cases taken
      · rename_i act rest _
        obtain rfl := Option.some.inj taken
        obtain ⟨pc, sent, ack, -⟩ := listenerAct_frame p { s with todo := rest } act
        refine ⟨?_, ?_⟩
        · rw [pc, sent]
          exact before.early
        · rw [sent, ack]
          intro unsent
          have silent := before.silent unsent
          refine ⟨silent.1, ?_⟩
          intro acked
          cases acked_listenerAct acked with
          | inl already => exact silent.2 already
          | inr answered =>
              rw [silent.1] at answered
              cases answered

theorem pending_client {v : Variant} {s s' : State} {a : Answers} (before : Pending s)
    (unsent : Unsent s) (taken : clientStep v s a = some s') :
    Pending s' ↔ Acknowledged s (.client a) := by
  have elsewhere (other : s.pc ≠ .openDiag) : Acknowledged s (.client a) :=
    fun here => absurd here other
  unfold clientStep at taken
  split at taken
  · rename_i here
    refine iff_of_true ?_ (elsewhere (by simp [here]))
    split at taken
    · obtain rfl := Option.some.inj taken
      constructor <;> dsimp only <;> split <;> simp [Pc.waits]
    · obtain rfl := Option.some.inj taken
      constructor <;> simp [Pc.waits]
  · rename_i here
    obtain rfl := Option.some.inj taken
    have silent : ¬ Acked s := (unsent.silent (unsent.early (Or.inr (Or.inl here)))).2
    simp only [Acknowledged, here, forall_const]
    cases opens : a.diagOpens with
    | true =>
        refine iff_of_true ?_ (by simp)
        constructor <;> simp [Pc.waits]
    | false =>
        constructor
        · intro pending _
          exact (pending.waiting rfl).resolve_right silent
        · intro set
          constructor
          · exact fun _ => Or.inl (set rfl)
          · simp
  · rename_i here
    obtain rfl := Option.some.inj taken
    refine iff_of_true ⟨fun _ => Or.inl rfl, ?_⟩ (elsewhere (by simp [here]))
    simp
  · rename_i here
    obtain rfl := Option.some.inj taken
    have still := before.waiting (by rw [here]; rfl)
    refine iff_of_true ⟨fun _ => still, ?_⟩ (elsewhere (by simp [here]))
    simp
  · rename_i cnt here
    obtain rfl := Option.some.inj taken
    have still := before.waiting (by rw [here]; rfl)
    refine iff_of_true ⟨fun _ => still, ?_⟩ (elsewhere (by simp [here]))
    dsimp only
    split <;> simp
  · rename_i here
    obtain rfl := Option.some.inj taken
    have still := before.waiting (by rw [here]; rfl)
    refine iff_of_true ⟨fun _ => still, ?_⟩ (elsewhere (by simp [here]))
    intro atEnd
    cases flag : s.waitModemReset with
    | true => simp [flag] at atEnd
    | false => exact Or.inr (still.resolve_left (by simp [flag]))
  · rename_i here
    obtain rfl := Option.some.inj taken
    refine iff_of_true ⟨?_, fun _ => Or.inl rfl⟩ (elsewhere (by simp [here]))
    simp [Pc.waits]
  · cases taken

/-- Of what the listener does, only clearing the flag can take a reset away. -/
theorem pending_listener {p : Connect.Props} {s : State} {act : ListenModem.Act}
    (before : Pending s) (other : act ≠ .setWaitResetFlag false) :
    Pending (listenerAct p s act) := by
  obtain ⟨pc, -, -, reloaded⟩ := listenerAct_frame p s act
  constructor
  · rw [pc]
    intro waits
    cases before.waiting waits with
    | inl set =>
        cases act with
        | setWaitResetFlag flag =>
            cases flag with
            | true => exact Or.inl rfl
            | false => exact absurd rfl other
        | _ => exact Or.inl set
    | inr acked => exact Or.inr (acked_mono acked)
  · rw [pc, reloaded]
    intro atEnd
    exact (before.atEnd atEnd).imp_right acked_mono

theorem pending_step {v : Variant} {s s' : State} {i : Input} (before : Pending s)
    (unsent : Unsent s) (taken : step v s i = some s') : Pending s' ↔ Acknowledged s i := by
  cases i with
  | client a => exact pending_client before unsent taken
  | modem data isReset ack =>
      simp only [step] at taken
      split at taken
      · obtain rfl := Option.some.inj taken
        exact iff_of_true ⟨before.waiting, before.atEnd⟩ trivial
      · cases taken
  | listener p =>
      simp only [step] at taken
      split at taken
      · cases taken
      · rename_i act rest todo
        obtain rfl := Option.some.inj taken
        have here : Pending { s with todo := rest } := ⟨before.waiting, before.atEnd⟩
        simp only [Acknowledged, todo, List.head?_cons, Option.some.injEq]
        by_cases clears : act = .setWaitResetFlag false
        · subst clears
          constructor
          · intro pending waits _
            exact (pending.waiting waits).resolve_left (by simp [listenerAct])
          · intro acked
            exact ⟨fun waits => Or.inr (acked waits rfl), before.atEnd⟩
        · exact iff_of_true (pending_listener here clears) fun _ same => absurd same clears

def start (flag : Bool) (g : ModemState) (panic : Bool) (shared : Connect.Shared) : State where
  waitModemReset := flag
  gModemState := g
  miniapPanic := panic
  shared := shared

/-- Over every interleaving with the listener: the reset stays on its way, and when the
    branch is over has been made or requested, exactly when the flag was set in case the
    diag device cannot be opened, and is cleared, while the branch waits, only after the
    modem's answer has become a control message. -/
theorem prepare_reset_pending_iff (v : Variant) (flag panic : Bool) (g : ModemState)
    (shared : Connect.Shared) (inputs : List Input) (s : State)
    (reached : run (step v) (start flag g panic shared) inputs = some s) :
    Throughout (step v) Pending (start flag g panic shared) inputs ↔
      Along (step v) Acknowledged (start flag g panic shared) inputs := by
  have unsent : Throughout (step v) Unsent (start flag g panic shared) inputs := by
    apply throughout_of_along _ _ (along_true _ inputs)
    · intro s i s' before _ taken
      exact unsent_step before taken
    · exact ⟨fun _ => rfl, fun _ => ⟨rfl, List.not_mem_nil⟩⟩
  have both : ∀ s i s', Pending s ∧ Unsent s → step v s i = some s' →
      (Pending s' ∧ Unsent s' ↔ Acknowledged s i) := by
    intro s i s' before taken
    rw [← pending_step before.1 before.2 taken]
    exact and_iff_left (unsent_step before.2 taken)
  rw [← throughout_iff_along both reached ⟨⟨by simp [start, Pc.waits], by simp [start]⟩,
    unsent.first⟩, throughout_and]
  exact (and_iff_left unsent).symm

/-- The client thread with the modem-only property on and the diag device there. -/
def askModem : Input := .client { rebootModemOnly := bytes "1" }

/-- The listener reads the modem's answer and does all that it does for it. -/
def answer (acts : Nat) : List Input :=
  .modem MODEM_RESET false true :: List.replicate acts (.listener {})

/-- In the external variant the modem answers while the branch waits. -/
theorem prepare_reset_pending_answered :
    Throughout (step .external) Pending (start false .assert false {})
      (List.replicate 4 askModem ++ answer 3 ++ List.replicate 2 askModem) :=
  (prepare_reset_pending_iff .external false false .assert {} _ _ rfl).mpr (by decide)

/-- The branch ends without a reload and without a control message: in the internal
    variant although the modem has answered, and in both when the diag device cannot be
    opened and the flag was not set. -/
theorem prepare_reset_lost :
    (∃ s, run (step .internal) (start false .assert false {})
        (List.replicate 4 askModem ++ answer 2 ++ List.replicate 2 askModem) = some s ∧
      s.pc = .done ∧ s.commandSent = true ∧ s.reloaded = false ∧ ¬ Acked s) ∧
    ∀ v, ∃ s, run (step v) (start false .assert false {})
        (askModem :: .client { diagOpens := false } :: List.replicate 2 askModem) = some s ∧
      s.pc = .done ∧ s.reloaded = false ∧ ¬ Acked s := by
  constructor
  · exact ⟨_, rfl, rfl, rfl, rfl, by decide⟩
  · intro v
    cases v with
    | external => exact ⟨_, rfl, rfl, rfl, by decide⟩
    | internal => exact ⟨_, rfl, rfl, rfl, by decide⟩

theorem controls_quiet {p : Connect.Props} {shared : Connect.Shared} {msg : Bytes}
    (other : strstr (cstr msg) MODEM_ALIVE = true ∨ strstr (cstr msg) MODEM_ASSERT = true) :
    .modemReset ∉ controls (Connect.modemWriteDataToClients p shared msg).2 := by
  simp only [Connect.modemWriteDataToClients, Connect.modemCtrlProcessMessage]
  cases alive : strstr (cstr msg) MODEM_ALIVE with
  | true => simp only [if_true]; split <;> simp [controls]
  | false =>
      have assert := other.resolve_left (by simp [alive])
      simp only [assert, Bool.false_eq_true, if_false, if_true]
      split_ifs <;> simp [controls]

/-- The internal listener broadcasts what it has read only when that is not a reset. -/
theorem internalMessage_quiet (isReset : Bool) (data msg : Bytes)
    (told : .toClients msg ∈ internalMessage isReset data) :
    strstr (cstr msg) MODEM_ALIVE = true ∨ strstr (cstr msg) MODEM_ASSERT = true := by
  simp only [internalMessage] at told
  split_ifs at told <;> simp_all

/-- In the internal variant the modem's answer never becomes a control message. -/
theorem internal_never_acked (flag panic : Bool) (g : ModemState) (shared : Connect.Shared)
    (inputs : List Input) :
    Throughout (step .internal) (fun s => ¬ Acked s) (start flag g panic shared) inputs := by
  have quiet : Throughout (step .internal)
      (fun s => ¬ Acked s ∧ ∀ msg, .toClients msg ∈ s.todo →
        strstr (cstr msg) MODEM_ALIVE = true ∨ strstr (cstr msg) MODEM_ASSERT = true)
      (start flag g panic shared) inputs := by
    apply throughout_of_along _ _ (along_true _ inputs)
    · intro s i s' before _ taken
      cases i with
      | client a =>
          obtain ⟨pipe, todo, -⟩ := client_frame taken
          simpa only [Acked, pipe, todo] using before
      | modem data isReset ack =>
          simp only [step] at taken
          split at taken
          · obtain rfl := Option.some.inj taken
            exact ⟨before.1, internalMessage_quiet isReset data⟩
          · cases taken
      | listener p =>
          simp only [step] at taken
          split at taken
          · cases taken
          · rename_i act rest todo
            obtain rfl := Option.some.inj taken
            have later (msg : Bytes) (told : .toClients msg ∈ rest) :=
              before.2 msg (by rw [todo]; exact List.mem_cons_of_mem act told)
            cases act with
            | toClients msg =>
                have own := before.2 msg (by rw [todo]; exact List.mem_cons_self)
                refine ⟨?_, later⟩
                intro acked
                simp only [listenerAct, Acked, List.mem_append, List.mem_map] at acked
                cases acked with
                | inl already => exact before.1 already
                | inr written =>
                    obtain ⟨m, member, same⟩ := written
                    obtain rfl : m = .modemReset := (Prod.mk.inj same).1
                    exact controls_quiet own member
            | _ => exact ⟨before.1, later⟩
    · exact ⟨List.not_mem_nil, by simp [start]⟩
  exact (throughout_and.mp quiet).1

/-- Every time the flag is cleared in these steps, 'Modem Reset' was broadcast before,
    unless `told` holds already. -/
def Announced (told : Prop) : List ListenModem.Act → Prop
  | [] => True
  | .setWaitResetFlag _ :: rest => told ∧ Announced told rest
  | .toClients msg :: rest => Announced (told ∨ msg = MODEM_RESET) rest
  | _ :: rest => Announced told rest

theorem Announced.mono {told more : Prop} (weaker : told → more) {todo : List ListenModem.Act}
    (announced : Announced told todo) : Announced more todo := by
  induction todo generalizing told more with
  | nil => trivial
  | cons act rest ih =>
      cases act with
      | setWaitResetFlag set => exact ⟨weaker announced.1, ih weaker announced.2⟩
      | toClients msg => exact ih (Or.imp_left weaker) announced
      | _ => exact ih weaker announced

theorem externalMessage_announced (data : Bytes) : Announced False (externalMessage data) := by
  simp only [externalMessage]
  cases findStr (cstr data) MODEM_ASSERT <;> split_ifs <;> simp [Announced]

theorem reset_controls (p : Connect.Props) (shared : Connect.Shared) :
    .modemReset ∈ controls (Connect.modemWriteDataToClients p shared MODEM_RESET).2 := by
  have alive : strstr (cstr MODEM_RESET) MODEM_ALIVE = false := by decide
  have assert : strstr (cstr MODEM_RESET) MODEM_ASSERT = false := by decide
  have reset : strstr (cstr MODEM_RESET) MODEM_RESET = true := by decide
  simp [Connect.modemWriteDataToClients, Connect.modemCtrlProcessMessage, alive, assert, reset,
    controls]

/-- In the external variant, whenever the listener is about to clear the flag for the
    modem's answer to this request, the answer is a control message already. -/
theorem external_answer_acked (flag panic : Bool) (g : ModemState) (shared : Connect.Shared)
    (inputs : List Input) :
    Throughout (step .external)
      (fun s => s.ack = true → s.todo.head? = some (.setWaitResetFlag false) → Acked s)
      (start flag g panic shared) inputs := by
  have announced : Throughout (step .external)
      (fun s => (s.ack = true → s.todo.head? = some (.setWaitResetFlag false) → Acked s) ∧
        (s.ack = true → Announced (Acked s) s.todo))
      (start flag g panic shared) inputs := by
    have head {s : State} (told : s.ack = true → Announced (Acked s) s.todo) :
        s.ack = true → s.todo.head? = some (.setWaitResetFlag false) → Acked s := by
      intro ack clears
      have steps := told ack
      obtain ⟨rest, todo⟩ := List.head?_eq_some_iff.mp clears
      rw [todo] at steps
      exact steps.1
    apply throughout_of_along _ _ (along_true _ inputs)
    · intro s i s' before _ taken
      suffices told : s'.ack = true → Announced (Acked s') s'.todo from ⟨head told, told⟩
      cases i with
      | client a =>
          obtain ⟨pipe, todo, ack⟩ := client_frame taken
          simpa only [Acked, pipe, todo, ack] using before.2
      | modem data isReset ack =>
          simp only [step] at taken
          split at taken
          · obtain rfl := Option.some.inj taken
            exact fun _ => (externalMessage_announced data).mono False.elim
          · cases taken
      | listener p =>
          simp only [step] at taken
          split at taken
          · cases taken
          · rename_i act rest todo
            obtain rfl := Option.some.inj taken
            intro ack
            have own : s.ack = true := by
              rw [← ack, (listenerAct_frame p { s with todo := rest } act).2.2.1]
            have steps := before.2 own
            rw [todo] at steps
            cases act with
            | toClients msg =>
                have later : Announced (Acked s ∨ msg = MODEM_RESET) rest := steps
                apply later.mono
                intro reset
                cases reset with
                | inl already => exact List.mem_append_left _ already
                | inr same =>
                    subst same
                    apply List.mem_append_right
                    rw [List.mem_map]
                    exact ⟨.modemReset, reset_controls p s.shared, by rw [own]⟩
            | setWaitResetFlag set => exact steps.2
            | _ => exact steps
    · exact ⟨fun ack => absurd ack (by simp [start]), fun ack => absurd ack (by simp [start])⟩
  exact (throughout_and.mp announced).1

end ModemControl.PrepareReset
