import ModemControl.Connect
import ModemControl.Foundation.Runs

/-! # The control pipe

Four writers put whole NUL-terminated messages into one pipe; the loop of
`modem_ctrl_listen_clients` reads up to 256 bytes of whatever the pipe then holds
and looks for a message in the first C string of its buffer only. The buffer is
not cleared between two reads, and nothing but the read boundaries separates the
messages. A reset that comes while the modem is neither blocked, asserted nor in a reset
is taken from the pipe and skipped.
-/

namespace ModemControl.ControlPipe

open Foundation Connect

/-- A control message as the loop body met it. Unless `acted`, the gate on
    `g_modem_state` skipped it. -/
structure Handled where
  msg : CtrlMsg
  acted : Bool
  deriving Repr, DecidableEq

/-- The messages the `strstr` tests of the loop body find in a text, in the order
    of the tests. -/
def recognised (text : Bytes) : List CtrlMsg :=
  (if strstr text MODEM_BLOCK then [.modemBlocked] else []) ++
    if strstr text MODEM_RESET then [.modemReset]
    else if strstr text PREPARE_RESET then [.prepareReset]
    else []

/-- The states in which the loop goes on to the reset tests. -/
def resetAllowed (g : ModemState) : Bool :=
  g == .block || g == .assert || g == .reset

/-- The tests of one pass of the loop of `modem_ctrl_listen_clients` over its
    buffer, with the state the pass leaves before it starts any reload. -/
def listenClientsBody (g : ModemState) (buf : Bytes) : ModemState × List Handled :=
  let text := cstr buf
  let g' := if strstr text MODEM_BLOCK then .block else g
  (g', (recognised text).map fun m => ⟨m, m == .modemBlocked || resetAllowed g'⟩)

/-- The pipe, the reader's buffer and the shared state, with the messages written
    and handled so far. -/
structure State where
  pipe : Bytes
  buf : Bytes
  gModemState : ModemState
  written : List CtrlMsg
  handled : List Handled
  deriving Repr, DecidableEq

def start (g : ModemState) : State where
  pipe := []
  buf := List.replicate MAX_ASSERT_INFO_LEN 0
  gModemState := g
  written := []
  handled := []

inductive Input where
  /-- A writer puts one message into the pipe. -/
  | write (w : Writer) (m : CtrlMsg)
  /-- The reader takes `count` bytes and runs the loop body on them. -/
  | read (count : Nat)
  /-- Another thread, or a reload, sets `g_modem_state`. -/
  | setModemState (g : ModemState)
  deriving Repr, DecidableEq

def step (s : State) : Input → Option State
  | .write w m =>
      if m ∈ w.writes then
        some { s with pipe := s.pipe ++ frame m.text, written := s.written ++ [m] }
      else none
  | .read count =>
      if 0 < count ∧ count ≤ MAX_ASSERT_INFO_LEN ∧ count ≤ s.pipe.length then
        let buf := s.pipe.take count ++ s.buf.drop count
        let (g, met) := listenClientsBody s.gModemState buf
        some { s with
          pipe := s.pipe.drop count
          buf := buf
          gModemState := g
          handled := s.handled ++ met }
      else none
  | .setModemState g => some { s with gModemState := g }

/-- The messages the loop body acted upon. -/
def actedUpon (met : List Handled) : List CtrlMsg := (met.filter Handled.acted).map Handled.msg

/-- Nothing lost, duplicated or merged: the messages acted upon are those written,
    less the ones that are still whole in the pipe. -/
def InStep (s : State) : Prop :=
  ∃ pending : List CtrlMsg,
    s.pipe = frames (pending.map CtrlMsg.text) ∧
    actedUpon s.handled ++ pending = s.written

/-- The gate on `g_modem_state` lets the loop body act upon this text. -/
def PassesGate (g : ModemState) (text : Bytes) : Prop :=
  strstr text MODEM_BLOCK ∨ resetAllowed g

/-- The read takes the oldest message of the pipe, its NUL included, and no more, at a time
    at which the gate lets it through. -/
def TakesOneMessage (s : State) : Input → Prop
  | .read count =>
      count = (cstr s.pipe).length + 1 ∧ PassesGate s.gModemState (cstr s.pipe)
  | _ => True

instance (g : ModemState) (text : Bytes) : Decidable (PassesGate g text) := by
  unfold PassesGate; infer_instance

instance (s : State) (i : Input) : Decidable (TakesOneMessage s i) := by
  cases i <;> unfold TakesOneMessage <;> infer_instance

theorem actedUpon_append (met later : List Handled) :
    actedUpon (met ++ later) = actedUpon met ++ actedUpon later := by
  simp [actedUpon]

theorem recognised_text (m : CtrlMsg) : recognised m.text = [m] := by
  cases m <;> decide

/-- A whole message at the front of the buffer is acted upon when the gate lets it through. -/
theorem body_frame (g : ModemState) (m : CtrlMsg) (rest : Bytes) :
    actedUpon (listenClientsBody g (m.text ++ 0 :: rest)).2 =
      if PassesGate g m.text then [m] else [] := by
  have block : strstr m.text MODEM_BLOCK = (m == .modemBlocked) := by cases m <;> decide
  simp only [listenClientsBody, cstr_append m.text_clean, recognised_text, actedUpon,
    PassesGate, block]
  cases m <;> cases g <;> rfl

theorem write_inStep {s s' : State} {w : Writer} {m : CtrlMsg} (before : InStep s)
    (taken : step s (.write w m) = some s') : InStep s' := by
  obtain ⟨pending, inPipe, sequence⟩ := before
  simp only [step] at taken
  split at taken
  · obtain rfl := Option.some.inj taken
    refine ⟨pending ++ [m], ?_, ?_⟩
    · simp [inPipe, frames_append, frame]
    · simp [← sequence]
  · cases taken

/-- A read that is possible, seen from the message at the head of the pipe. -/
theorem read_cases {s s' : State} {count : Nat} {m : CtrlMsg} {pending : List CtrlMsg}
    (inPipe : s.pipe = frames ((m :: pending).map CtrlMsg.text))
    (taken : step s (.read count) = some s') :
    0 < count ∧ s'.written = s.written ∧
    s'.pipe = (m.text ++ 0 :: frames (pending.map CtrlMsg.text)).drop count ∧
    ∃ met, s'.handled = s.handled ++ met ∧
      (m.text.length + 1 ≤ count →
        actedUpon met = if PassesGate s.gModemState m.text then [m] else []) := by
  simp only [step] at taken
  split at taken
  · rename_i possible
    obtain rfl := Option.some.inj taken
    refine ⟨possible.1, rfl, ?_, _, rfl, fun whole => ?_⟩
    · simp [inPipe]
    · obtain ⟨extra, rfl⟩ : ∃ extra, count = m.text.length + 1 + extra :=
        ⟨count - (m.text.length + 1), by omega⟩
      have head : s.pipe.take (m.text.length + 1 + extra) =
          m.text ++ 0 :: (frames (pending.map CtrlMsg.text)).take extra := by
        rw [inPipe, List.map_cons, frames_cons, Nat.add_assoc, List.take_length_add_append,
          Nat.add_comm 1 extra, List.take_succ_cons]
      rw [head, List.append_assoc, List.cons_append]
      exact body_frame _ m _
  · cases taken

/-- A piece of a message at the head of the pipe never becomes a message again. -/
theorem cut_not_frames {m : CtrlMsg} {k : Nat} {rest : Bytes} (pending : List CtrlMsg)
    (cut : 0 < k) (inside : k < m.text.length + 1) :
    (m.text ++ 0 :: rest).drop k ≠ frames (pending.map CtrlMsg.text) := by
  rw [List.drop_append_of_le_length (by omega)]
  have clean : 0 ∉ m.text.drop k := fun member => m.text_clean (List.mem_of_mem_drop member)
  intro same
  cases pending with
  | nil => simp at same
  | cons n later =>
      have head := congrArg cstr same
      rw [cstr_append clean, List.map_cons, cstr_frames n.text_clean] at head
      exact CtrlMsg.text_drop m n k cut head

/-- What has to be pending behind a read that met the message at the head. -/
theorem pending_eq {m : CtrlMsg} {later pending acted : List CtrlMsg} {passes : Prop}
    [Decidable passes]
    (sequence : acted ++ (if passes then [m] else []) ++ pending = acted ++ m :: later) :
    pending = if passes then later else m :: later := by
  rw [List.append_assoc, List.append_cancel_left_eq] at sequence
  split <;> rename_i decided <;> simpa [decided] using sequence

/-- A read keeps the two sequences in step exactly when it takes one message and the gate
    lets the loop act upon it. -/
theorem read_inStep_iff {s s' : State} {count : Nat} (before : InStep s)
    (taken : step s (.read count) = some s') :
    InStep s' ↔ count = (cstr s.pipe).length + 1 ∧ PassesGate s.gModemState (cstr s.pipe) := by
  obtain ⟨pending, inPipe, sequence⟩ := before
  cases pending with
  | nil =>
      simp [step, inPipe] at taken
      omega
  | cons m later =>
      obtain ⟨positive, written, pipe, met, handled, whole⟩ := read_cases inPipe taken
      have head : cstr s.pipe = m.text := by rw [inPipe, List.map_cons, cstr_frames m.text_clean]
      rw [head]
      by_cases short : count < m.text.length + 1
      · refine ⟨?_, fun both => by omega⟩
        rintro ⟨pending', inPipe', -⟩
        rw [pipe] at inPipe'
        exact absurd inPipe' (cut_not_frames pending' positive short)
      · have fits : count ≤ s.pipe.length := by
          simp only [step] at taken
          split at taken
          · rename_i possible; exact possible.2.2
          · cases taken
        simp only [inPipe, List.map_cons, frames_cons, List.length_append,
          List.length_cons] at fits
        constructor
        · rintro ⟨pending', inPipe', sequence'⟩
          rw [handled, actedUpon_append, whole (by omega), written, ← sequence] at sequence'
          have lengths := congrArg List.length (pipe.symm.trans inPipe')
          rw [pending_eq sequence'] at lengths
          -- What is left in the pipe is too short for a message that the gate skipped, and for
          -- the later messages when more than one has been taken.
          split at lengths <;> rename_i passes <;>
            simp only [List.length_drop, List.length_append, List.length_cons, List.map_cons,
              frames_cons] at lengths
          · exact ⟨by omega, passes⟩
          · omega
        · rintro ⟨exact, passes⟩
          refine ⟨later, ?_, ?_⟩
          · rw [pipe, exact, List.drop_length_add_append, List.drop_succ_cons, List.drop_zero]
          · rw [handled, actedUpon_append, whole (by omega), if_pos passes, written, ← sequence,
              List.append_assoc, List.singleton_append]

theorem step_inStep_iff (s : State) (i : Input) (s' : State) (before : InStep s)
    (taken : step s i = some s') : InStep s' ↔ TakesOneMessage s i := by
  cases i with
  | write w m => exact iff_of_true (write_inStep before taken) trivial
  | read count => exact read_inStep_iff before taken
  | setModemState g =>
      obtain rfl := Option.some.inj taken
      exact iff_of_true before trivial

theorem start_inStep (g : ModemState) : InStep (start g) := ⟨[], rfl, rfl⟩

/-- Over every interleaving of the writers with the reads, the messages acted upon are the
    messages written exactly when every read takes one whole message that the gate lets
    through. -/
theorem control_messages_in_step (g : ModemState) (inputs : List Input) (s : State)
    (reached : run step (start g) inputs = some s) :
    Throughout step InStep (start g) inputs ↔ Along step TakesOneMessage (start g) inputs :=
  throughout_iff_along step_inStep_iff reached (start_inStep g)

/-- One block report with the reset behind it, each read on its own. -/
theorem blocked_then_reset_in_step :
    Throughout step InStep (start .alive)
      [.write .dispatchModemBlocked .modemBlocked, .read 14,
        .write .dispatchModemBlocked .modemReset, .read 12] :=
  (control_messages_in_step .alive _ _ rfl).mpr (by decide)

/-- The same two messages read at once: the reset is never looked at. -/
theorem reset_lost_behind_blocked :
    ∃ s, run step (start .alive)
        [.write .dispatchModemBlocked .modemBlocked,
          .write .dispatchModemBlocked .modemReset, .read 26] = some s ∧
      s.pipe = [] ∧ s.written = [.modemBlocked, .modemReset] ∧
      actedUpon s.handled = [.modemBlocked] ∧ ¬ InStep s := by
  refine ⟨_, rfl, rfl, rfl, rfl, ?_⟩
  rintro ⟨pending, inPipe, sequence⟩
  have none : pending = [] := by simpa using frames_eq_nil.mp inPipe.symm
  subst none
  exact absurd sequence (by decide)

end ModemControl.ControlPipe
