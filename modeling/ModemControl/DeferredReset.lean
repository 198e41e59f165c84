import ModemControl.Connect
import ModemControl.Foundation.Runs

/-! # The reset that waits for the dump

A block report with save-dump on defers the modem reset until a client reports the
dump complete. The reader thread remembers the deferral in `later_reset` and the
last dump report in `state`; both survive from message to message and from client
to client.
-/

namespace ModemControl.DeferredReset

open Foundation Connect

inductive Input where
  /-- `modem_ctrl_read_thread` reads `data` from some client. -/
  | message (p : Props) (data : Bytes)
  /-- A read ends with 0 or an error, and the client's slot is closed. -/
  | hangup
  /-- Another thread runs `modem_write_data_to_clients`. -/
  | broadcast (p : Props) (buf : Bytes)
  deriving Repr, DecidableEq

def step (r : Reader) : Input → Option Reader
  | .message p data =>
      if 0 < data.length ∧ data.length ≤ BUFFER_SIZE then some (readThreadMessage p r data).1
      else none
  | .hangup => some r
  | .broadcast p buf => some { r with shared := (modemWriteDataToClients p r.shared buf).1 }

/-- What the reader thread does to the outside in one step. -/
def acts (r : Reader) : Input → List Act
  | .message p data => (readThreadMessage p r data).2
  | _ => []

def deferredReset : Act := .writeCtrl .modemCtrlReadThread .modemReset

/-- The waiting reset is let go, by the condition or by the pipe. -/
def Releases (done : List Act) : Prop := .signalDumpCond ∈ done ∨ deferredReset ∈ done

instance (done : List Act) : Decidable (Releases done) := by
  unfold Releases; infer_instance

theorem dumpState_complete_iff (old : DumpState) (text : Bytes) :
    dumpState old text = .complete ↔
      strstr text DUMP_BEGIN_TEXT = false ∧ strstr text DUMP_ONGOING_TEXT = false ∧
      (strstr text DUMP_COMPLETE_TEXT = true ∨ old = .complete) := by
  unfold dumpState
  split_ifs <;> simp_all

theorem not_releases_of_allowed {done : List Act} {writers : List Writer}
    (allowed : ∀ a ∈ done, a.Allowed writers) (other : .modemCtrlReadThread ∉ writers) :
    ¬ Releases done := by
  intro released
  cases released with
  | inl signalled => exact other (allowed _ signalled)
  | inr written => exact other (allowed _ written).1

theorem blocked_message {p : Props} {r : Reader} {data : Bytes}
    (blocked : strstr (messageText data) MODEM_BLOCK = true) :
    (readThreadMessage p r data).1.shared = (dispatchModemBlocked p r.shared).1 ∧
    (readThreadMessage p r data).1.laterReset = (dispatchModemBlocked p r.shared).2.2 ∧
    ¬ Releases (readThreadMessage p r data).2 := by
  have quiet := not_releases_of_allowed (dispatch_allowed p r.shared) (by decide)
  simpa only [readThreadMessage, blocked, if_true, true_and] using quiet

theorem agdsp_message {p : Props} {r : Reader} {data : Bytes}
    (open_ : strstr (messageText data) MODEM_BLOCK = false)
    (agdsp : strstr (messageText data) AGDSP_ASSERT = true) :
    (readThreadMessage p r data).1.laterReset = r.laterReset ∧
    ¬ Releases (readThreadMessage p r data).2 := by
  have quiet := not_releases_of_allowed (writeDataToClients_allowed p r.shared data) (by decide)
  simpa only [readThreadMessage, open_, agdsp, Bool.false_eq_true, if_false, if_true,
    true_and] using quiet

theorem plain_message {p : Props} {r : Reader} {data : Bytes}
    (open_ : strstr (messageText data) MODEM_BLOCK = false)
    (plain : strstr (messageText data) AGDSP_ASSERT = false) :
    if dumpState r.state (messageText data) = .complete then
      (readThreadMessage p r data).1.laterReset = false ∧
      Releases (readThreadMessage p r data).2 ∧
      (deferredReset ∈ (readThreadMessage p r data).2 ↔ r.laterReset = true)
    else
      (readThreadMessage p r data).1.laterReset = r.laterReset ∧
      ¬ Releases (readThreadMessage p r data).2 := by
  simp only [readThreadMessage, open_, plain, Bool.false_eq_true, if_false]
  by_cases complete : dumpState r.state (messageText data) = .complete
  · simp only [complete, if_true]
    cases r.laterReset <;> simp [Releases, deferredReset]
  · simp [complete, Releases]

theorem releases_iff (p : Props) (r : Reader) (data : Bytes) :
    Releases (readThreadMessage p r data).2 ↔
      strstr (messageText data) MODEM_BLOCK = false ∧
      strstr (messageText data) AGDSP_ASSERT = false ∧
      dumpState r.state (messageText data) = .complete := by
  cases blocked : strstr (messageText data) MODEM_BLOCK with
  | true => simp [(blocked_message blocked).2.2]
  | false =>
      cases agdsp : strstr (messageText data) AGDSP_ASSERT with
      | true => simp [(agdsp_message blocked agdsp).2]
      | false =>
          have plain := @plain_message p r data blocked agdsp
          split at plain
          · rename_i complete
            simp [plain.2.1, complete]
          · rename_i open_
            simp [plain.2, open_]

def OnlyOnComplete (r : Reader) : Input → Prop
  | .message p data => Releases (acts r (.message p data)) →
      strstr (messageText data) DUMP_COMPLETE_TEXT = true
  | i => ¬ Releases (acts r i)

/-- The texts that make the reader thread leave the last dump report alone. -/
def ownReports : List Bytes :=
  [DUMP_BEGIN_TEXT, DUMP_ONGOING_TEXT, DUMP_COMPLETE_TEXT, MODEM_BLOCK, AGDSP_ASSERT]

/-- While the last dump report is "complete", only messages with a report of their
    own are read. -/
def NoStaleComplete (r : Reader) : Input → Prop
  | .message _ data => r.state = .complete → ∃ word ∈ ownReports, strstr (messageText data) word = true
  | _ => True

instance (r : Reader) (i : Input) : Decidable (OnlyOnComplete r i) := by
  cases i <;> unfold OnlyOnComplete <;> infer_instance

instance (r : Reader) (i : Input) : Decidable (NoStaleComplete r i) := by
  cases i <;> unfold NoStaleComplete <;> infer_instance

theorem onlyOnComplete_iff (r : Reader) (i : Input) : OnlyOnComplete r i ↔ NoStaleComplete r i := by
  cases i with
  | message p data =>
      simp only [OnlyOnComplete, NoStaleComplete, acts, releases_iff, dumpState_complete_iff]
      simp only [ownReports, List.mem_cons, List.not_mem_nil, or_false, exists_eq_or_imp,
        exists_eq_left]
      cases strstr (messageText data) DUMP_COMPLETE_TEXT <;>
        cases strstr (messageText data) DUMP_BEGIN_TEXT <;>
        cases strstr (messageText data) DUMP_ONGOING_TEXT <;>
        cases strstr (messageText data) MODEM_BLOCK <;>
        cases strstr (messageText data) AGDSP_ASSERT <;> simp
  | hangup => simp [OnlyOnComplete, NoStaleComplete, acts, Releases]
  | broadcast p buf => simp [OnlyOnComplete, NoStaleComplete, acts, Releases]

/-- Over every sequence of client messages and broadcasts, the reader thread lets a
    waiting reset go only on a dump-complete message exactly when no message without
    a report of its own is read while the last dump report is "complete". -/
theorem release_only_on_complete (r : Reader) (inputs : List Input) :
    Along step OnlyOnComplete r inputs ↔ Along step NoStaleComplete r inputs :=
  along_congr onlyOnComplete_iff r inputs

def dumping : Props := { modemReset := bytes "1", saveDump := bytes "1" }

/-- A dump of an earlier cycle is complete; a new block is reported, and a message
    about nothing in particular sets the modem reset off. -/
theorem stale_complete_releases :
    ¬ Along step OnlyOnComplete { shared := { modemState := .alive } }
      [.message dumping DUMP_COMPLETE_TEXT, .message dumping MODEM_BLOCK,
        .message dumping (bytes "hello")] := by
  decide

/-- The reader thread with a note of the reset it owes since the last block that
    `dispatch_modem_blocked` accepted. -/
structure Tracked where
  reader : Reader
  owed : Bool
  deriving Repr, DecidableEq

/-- `dispatch_modem_blocked` is called and returns 1. -/
def accepts (r : Reader) : Input → Bool
  | .message p data => strstr (messageText data) MODEM_BLOCK && (dispatchModemBlocked p r.shared).2.2
  | _ => false

/-- The message reports the dump complete and is taken for nothing else. -/
def completes : Input → Bool
  | .message _ data => strstr (messageText data) DUMP_COMPLETE_TEXT &&
      !strstr (messageText data) MODEM_BLOCK && !strstr (messageText data) AGDSP_ASSERT
  | _ => false

def trackedStep (t : Tracked) (i : Input) : Option Tracked :=
  (step t.reader i).map fun r =>
    ⟨r, if accepts t.reader i then true else if completes i then false else t.owed⟩

/-- The completion of the dump makes the reader thread write the reset it owes. -/
def Honours (t : Tracked) (i : Input) : Prop :=
  t.owed = true → completes i = true → deferredReset ∈ acts t.reader i

/-- A dump-complete message that came now would set off the reset that is owed. -/
def Armed (t : Tracked) : Prop := Honours t (.message {} DUMP_COMPLETE_TEXT)

/-- While a reset is owed, no block is reported that is not accepted in turn, no
    message meets a stale "complete", and the completion is not called begin or
    ongoing as well. -/
def Undisturbed (t : Tracked) : Input → Prop
  | .message p data => t.owed = true →
      (strstr (messageText data) MODEM_BLOCK = true → t.reader.shared.modemState = .alive) ∧
      NoStaleComplete t.reader (.message p data) ∧
      (completes (.message p data) = true →
        strstr (messageText data) DUMP_BEGIN_TEXT = false ∧
        strstr (messageText data) DUMP_ONGOING_TEXT = false)
  | _ => True

/-- The modem-reset and save-dump properties are on. -/
def PropsOn : Input → Prop
  | .message p _ => p.isReset = true ∧ p.isDump = true
  | _ => True

theorem dispatch_waits_iff {p : Props} {s : Shared} (reset : p.isReset = true)
    (dump : p.isDump = true) : (dispatchModemBlocked p s).2.2 = true ↔ s.modemState = .alive := by
  by_cases alive : s.modemState = .alive
  · simp [dispatchModemBlocked, alive, reset, dump]
  · simp [dispatchModemBlocked, alive]

theorem armed_iff (t : Tracked) : Armed t ↔ (t.owed = true → t.reader.laterReset = true) := by
  have plain := @plain_message {} t.reader DUMP_COMPLETE_TEXT (by decide) (by decide)
  have complete : dumpState t.reader.state (messageText DUMP_COMPLETE_TEXT) = .complete := by
    rw [dumpState_complete_iff]
    exact ⟨by decide, by decide, Or.inl (by decide)⟩
  rw [if_pos complete] at plain
  have alone : completes (.message {} DUMP_COMPLETE_TEXT) = true := by decide
  simp only [Armed, Honours, alone, acts, plain.2.2, forall_const]

theorem tracked_message {t t' : Tracked} {p : Props} {data : Bytes}
    (taken : trackedStep t (.message p data) = some t') :
    t' = ⟨(readThreadMessage p t.reader data).1,
      if accepts t.reader (.message p data) then true
      else if completes (.message p data) then false else t.owed⟩ := by
  by_cases possible : 0 < data.length ∧ data.length ≤ BUFFER_SIZE
  · simp only [trackedStep, step, if_pos possible, Option.map_some, Option.some.injEq] at taken
    exact taken.symm
  · simp only [trackedStep, step, if_neg possible, Option.map_none, reduceCtorEq] at taken

theorem tracked_blocked {t t' : Tracked} {p : Props} {data : Bytes}
    (on : PropsOn (.message p data))
    (blocked : strstr (messageText data) MODEM_BLOCK = true)
    (taken : trackedStep t (.message p data) = some t') :
    Armed t' ∧ Honours t (.message p data) ↔ Undisturbed t (.message p data) := by
  have waits := @dispatch_waits_iff p t.reader.shared on.1 on.2
  have other : completes (.message p data) = false := by simp [completes, blocked]
  have fresh : NoStaleComplete t.reader (.message p data) := by
    intro _
    exact ⟨MODEM_BLOCK, by simp [ownReports], blocked⟩
  rw [armed_iff, tracked_message taken]
  simp only [(blocked_message blocked).2.1, Honours, Undisturbed, accepts, blocked, other, fresh,
    ← waits]
  cases (dispatchModemBlocked p t.reader.shared).2.2 <;> simp

theorem tracked_agdsp {t t' : Tracked} {p : Props} {data : Bytes} (before : Armed t)
    (open_ : strstr (messageText data) MODEM_BLOCK = false)
    (agdsp : strstr (messageText data) AGDSP_ASSERT = true)
    (taken : trackedStep t (.message p data) = some t') :
    Armed t' ∧ Honours t (.message p data) ↔ Undisturbed t (.message p data) := by
  have other : completes (.message p data) = false := by simp [completes, agdsp]
  have fresh : NoStaleComplete t.reader (.message p data) := by
    intro _
    exact ⟨AGDSP_ASSERT, by simp [ownReports], agdsp⟩
  rw [armed_iff] at before
  rw [armed_iff, tracked_message taken]
  simp only [(agdsp_message open_ agdsp).1, Honours, Undisturbed, accepts, open_, other, fresh]
  simpa using before

theorem tracked_plain {t t' : Tracked} {p : Props} {data : Bytes} (before : Armed t)
    (open_ : strstr (messageText data) MODEM_BLOCK = false)
    (plain : strstr (messageText data) AGDSP_ASSERT = false)
    (taken : trackedStep t (.message p data) = some t') :
    Armed t' ∧ Honours t (.message p data) ↔ Undisturbed t (.message p data) := by
  have effect := @plain_message p t.reader data open_ plain
  rw [armed_iff] at before
  rw [armed_iff, tracked_message taken]
  simp only [Honours, Undisturbed, accepts, completes, acts, open_, plain]
  cases reports : strstr (messageText data) DUMP_COMPLETE_TEXT with
  | true =>
      have fresh : NoStaleComplete t.reader (.message p data) := by
        intro _
        exact ⟨DUMP_COMPLETE_TEXT, by simp [ownReports], reports⟩
      by_cases complete : dumpState t.reader.state (messageText data) = .complete
      · rw [if_pos complete] at effect
        have clear := (dumpState_complete_iff _ _).mp complete
        simpa [effect.2.2, fresh, clear.1, clear.2.1] using before
      · rw [if_neg complete] at effect
        have silent : deferredReset ∉ (readThreadMessage p t.reader data).2 :=
          fun written => effect.2 (Or.inr written)
        have mixed : ¬ (strstr (messageText data) DUMP_BEGIN_TEXT = false ∧
            strstr (messageText data) DUMP_ONGOING_TEXT = false) := by
          intro clear
          exact complete ((dumpState_complete_iff _ _).mpr ⟨clear.1, clear.2, Or.inl reports⟩)
        simp [silent, fresh, mixed]
  | false =>
      by_cases complete : dumpState t.reader.state (messageText data) = .complete
      · rw [if_pos complete] at effect
        obtain ⟨begin, going, said⟩ := (dumpState_complete_iff _ _).mp complete
        have stale : t.reader.state = .complete := by simpa [reports] using said
        have unmet : ¬ NoStaleComplete t.reader (.message p data) := by
          simp [NoStaleComplete, ownReports, stale, begin, going, reports, open_, plain]
        simp [effect.1, unmet]
      · rw [if_neg complete] at effect
        have fresh : NoStaleComplete t.reader (.message p data) := by
          intro stale
          by_contra none
          simp only [ownReports, List.mem_cons, List.not_mem_nil, or_false, exists_eq_or_imp,
            exists_eq_left, not_or, Bool.not_eq_true] at none
          exact complete ((dumpState_complete_iff _ _).mpr ⟨none.1, none.2.1, Or.inr stale⟩)
        simpa [effect.1, fresh] using before

theorem tracked_exact {i : Input} (on : PropsOn i) {t t' : Tracked} (before : Armed t)
    (taken : trackedStep t i = some t') : Armed t' ∧ Honours t i ↔ Undisturbed t i := by
  cases i with
  | message p data =>
      cases blocked : strstr (messageText data) MODEM_BLOCK with
      | true => exact tracked_blocked on blocked taken
      | false =>
          cases agdsp : strstr (messageText data) AGDSP_ASSERT with
          | true => exact tracked_agdsp before blocked agdsp taken
          | false => exact tracked_plain before blocked agdsp taken
  | hangup =>
      obtain rfl := Option.some.inj taken
      rw [armed_iff] at before ⊢
      simpa [Honours, Undisturbed, accepts, completes] using before
  | broadcast p buf =>
      obtain rfl := Option.some.inj taken
      rw [armed_iff] at before ⊢
      simpa [Honours, Undisturbed, accepts, completes] using before

/-- With both properties on: a reset that is owed stays armed, and the completion of
    the dump sets it off, over exactly the runs that nothing disturbs while it is
    owed. -/
theorem deferred_reset_kept_iff (r : Reader) (inputs : List Input)
    (on : ∀ i ∈ inputs, PropsOn i) (t : Tracked)
    (reached : run trackedStep ⟨r, false⟩ inputs = some t) :
    Throughout trackedStep Armed ⟨r, false⟩ inputs ∧ Along trackedStep Honours ⟨r, false⟩ inputs ↔
      Along trackedStep Undisturbed ⟨r, false⟩ inputs :=
  kept_iff_along (fun i member _ _ before taken => tracked_exact (on i member) before taken)
    reached (by simp [Armed, Honours])

instance (t : Tracked) (i : Input) : Decidable (Honours t i) := by
  unfold Honours; infer_instance

instance (t : Tracked) (i : Input) : Decidable (Undisturbed t i) := by
  cases i <;> unfold Undisturbed <;> infer_instance

/-- A block, a dump that begins and ends, and the reset. -/
theorem deferred_reset_kept_once :
    Along trackedStep Honours ⟨{ shared := { modemState := .alive } }, false⟩
      [.message dumping MODEM_BLOCK, .message dumping DUMP_BEGIN_TEXT,
        .message dumping DUMP_COMPLETE_TEXT] :=
  ((deferred_reset_kept_iff _ _ (by simp [PropsOn]; decide) _ rfl).mpr (by decide)).2

/-- A second client reports the same block, and the reset is forgotten. -/
theorem second_report_loses_reset :
    ¬ Along trackedStep Honours ⟨{ shared := { modemState := .alive } }, false⟩
      [.message dumping MODEM_BLOCK, .message dumping MODEM_BLOCK,
        .message dumping DUMP_COMPLETE_TEXT] := by
  decide

end ModemControl.DeferredReset
