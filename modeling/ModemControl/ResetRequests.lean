import ModemControl.Connect
import ModemControl.Foundation.Runs
import ModemControl.Foundation.Search

/-! # Reset requests of modem_ctrl_process_message

The messages are handled one after the other. `s_needResetModem` is cleared and set again
in the handling of one message, so it decides nothing beyond it. What the messages ask for
is then a matter of the words in each of them.
-/

namespace ModemControl.ResetRequests

open Foundation Connect

/-- `write_reset_to_modem_ctrl`, once its timed wait is over. -/
def writeResetToModemCtrl : List Act := [.writeCtrl .writeResetToModemCtrl .prepareReset]

/-- With the thread that is started run to its end. -/
def effects : Act → List Act
  | .startResetThread => writeResetToModemCtrl
  | a => [a]

def writes (m : CtrlMsg) : Act → Bool
  | .writeCtrl _ written => written == m
  | _ => false

/-- How many writes of a control message the acts come to. -/
def requests (m : CtrlMsg) (acts : List Act) : Nat := (acts.flatMap effects).countP (writes m)

def step (p : Props) (s : Shared) (buf : Bytes) : Option Shared :=
  some (modemCtrlProcessMessage p s buf).1

/-- What is done for all of the messages, in order. -/
def acts (p : Props) : Shared → List Bytes → List Act
  | _, [] => []
  | s, buf :: rest =>
      (modemCtrlProcessMessage p s buf).2 ++ acts p (modemCtrlProcessMessage p s buf).1 rest

def tells (word buf : Bytes) : Bool := strstr (cstr buf) word

def assertsModem (buf : Bytes) : Bool :=
  tells MODEM_ASSERT buf && !tells MODEM_ALIVE buf && !tells P_ARM_MODEM_ASSERT buf

def resetsModem (buf : Bytes) : Bool :=
  tells MODEM_RESET buf && !tells MODEM_ALIVE buf && !tells MODEM_ASSERT buf

def assertsPArm (buf : Bytes) : Bool := tells P_ARM_MODEM_ASSERT buf && !tells MODEM_ALIVE buf

/-- How many requests for a reset the message is good for. -/
def prepares (p : Props) (buf : Bytes) : Nat := if p.isReset && assertsModem buf then 1 else 0

def resets (buf : Bytes) : Nat := if resetsModem buf then 1 else 0

/-- The state is left as it is, and nothing is asked for. -/
def Ignored (p : Props) (s : Shared) (buf : Bytes) : Prop :=
  (modemCtrlProcessMessage p s buf).1.modemState = s.modemState ∧
    ∀ m, requests m (modemCtrlProcessMessage p s buf).2 = 0

structure Accounted (p : Props) (s : Shared) (messages : List Bytes) : Prop where
  restored : Throughout (step p) (fun s => s.needResetModem = true) s messages
  prepareResets : requests .prepareReset (acts p s messages) =
    if p.isReset then messages.countP assertsModem else 0
  modemResets : requests .modemReset (acts p s messages) = messages.countP resetsModem
  pArm : Along (step p) (fun s buf => assertsPArm buf = true → Ignored p s buf) s messages

theorem requests_append (m : CtrlMsg) (first rest : List Act) :
    requests m (first ++ rest) = requests m first + requests m rest := by
  simp only [requests, List.flatMap_append, List.countP_append]

/-- A P-ARM assert is an assert. -/
theorem tells_assert {buf : Bytes} (said : tells P_ARM_MODEM_ASSERT buf = true) :
    tells MODEM_ASSERT buf = true := by
  have part : MODEM_ASSERT <:+: P_ARM_MODEM_ASSERT := by decide
  exact strstr_of_part part said

section

variable {p : Props} {s : Shared} {buf : Bytes}

theorem alive_message (alive : tells MODEM_ALIVE buf = true) :
    (modemCtrlProcessMessage p s buf).1.needResetModem = s.needResetModem ∧
      ∀ m, requests m (modemCtrlProcessMessage p s buf).2 = 0 := by
  simp only [tells] at alive
  simp only [modemCtrlProcessMessage, alive, if_true, true_and]
  intro m
  split <;> rfl

theorem assert_message (needs : s.needResetModem = true) (quiet : tells MODEM_ALIVE buf = false)
    (asserts : tells MODEM_ASSERT buf = true) (ours : tells P_ARM_MODEM_ASSERT buf = false) :
    (modemCtrlProcessMessage p s buf).1.needResetModem = true ∧
      requests .prepareReset (modemCtrlProcessMessage p s buf).2 = (if p.isReset then 1 else 0) ∧
      requests .modemReset (modemCtrlProcessMessage p s buf).2 = 0 := by
  simp only [tells] at quiet asserts ours
  simp only [modemCtrlProcessMessage, quiet, asserts, ours, needs, Bool.false_eq_true, if_false,
    if_true, true_and]
  cases p.isReset <;> cases p.isDump <;> exact ⟨rfl, rfl⟩

/-- A P-ARM assert only sets the flag again that it has cleared. -/
theorem pArm_message (quiet : tells MODEM_ALIVE buf = false)
    (pArm : tells P_ARM_MODEM_ASSERT buf = true) :
    modemCtrlProcessMessage p s buf = ({ s with needResetModem := true }, []) := by
  have asserts := tells_assert pArm
  simp only [tells] at quiet asserts pArm
  simp [modemCtrlProcessMessage, quiet, asserts, pArm]

theorem other_message (quiet : tells MODEM_ALIVE buf = false)
    (plain : tells MODEM_ASSERT buf = false) :
    (modemCtrlProcessMessage p s buf).1 = s ∧
      requests .prepareReset (modemCtrlProcessMessage p s buf).2 = 0 ∧
      requests .modemReset (modemCtrlProcessMessage p s buf).2 =
        (if tells MODEM_RESET buf then 1 else 0) := by
  simp only [tells] at quiet plain ⊢
  by_cases found : strstr (cstr buf) MODEM_RESET = true <;>
    simp [modemCtrlProcessMessage, quiet, plain, found, requests, effects, writes]

/-- What one message leaves of the flag, and what it asks for. -/
theorem message_accounted (needs : s.needResetModem = true) :
    (modemCtrlProcessMessage p s buf).1.needResetModem = true ∧
      requests .prepareReset (modemCtrlProcessMessage p s buf).2 = prepares p buf ∧
      requests .modemReset (modemCtrlProcessMessage p s buf).2 = resets buf := by
  unfold prepares resets assertsModem resetsModem
  cases alive : tells MODEM_ALIVE buf with
  | true =>
      obtain ⟨kept, none⟩ := @alive_message p s buf alive
      simp [kept, needs, none]
  | false =>
      cases asserts : tells MODEM_ASSERT buf with
      | false =>
          obtain ⟨same, none, written⟩ := @other_message p s buf alive asserts
          simp [same, needs, none, written]
      | true =>
          cases pArm : tells P_ARM_MODEM_ASSERT buf with
          | true => simp [@pArm_message p s buf alive pArm, requests]
          | false =>
              obtain ⟨kept, prepared, none⟩ := @assert_message p s buf needs alive asserts pArm
              simp [kept, prepared, none]

theorem pArm_ignored (pArm : assertsPArm buf = true) : Ignored p s buf := by
  simp only [assertsPArm, Bool.and_eq_true, Bool.not_eq_true'] at pArm
  unfold Ignored
  rw [pArm_message pArm.2 pArm.1]
  exact ⟨rfl, fun _ => rfl⟩

end

/-- The requests of a sequence are those of its messages. -/
theorem requests_acts {p : Props} {s : Shared} (needs : s.needResetModem = true)
    (messages : List Bytes) :
    requests .prepareReset (acts p s messages) =
        (if p.isReset then messages.countP assertsModem else 0) ∧
      requests .modemReset (acts p s messages) = messages.countP resetsModem := by
  induction messages generalizing s with
  | nil => simp [acts, requests]
  | cons buf rest ih =>
      obtain ⟨kept, prepared, reset⟩ := @message_accounted p s buf needs
      obtain ⟨prepared', reset'⟩ := ih kept
      simp only [acts, requests_append, prepared, reset, prepared', reset', List.countP_cons, resets,
        prepares]
      cases p.isReset <;> simp [Nat.add_comm]

/-- Over every sequence of messages the flag is set after each of them, a reset is asked
    for and announced as often as the messages say, and a P-ARM assert is ignored. -/
theorem requests_accounted (p : Props) (s : Shared) (needs : s.needResetModem = true)
    (messages : List Bytes) : Accounted p s messages := by
  obtain ⟨prepared, reset⟩ := @requests_acts p s needs messages
  constructor
  · refine throughout_of_along ?_ needs (along_true s messages)
    rintro s buf s' before - ⟨⟩
    exact (message_accounted before).1
  · exact prepared
  · exact reset
  · have always : ∀ s buf, (assertsPArm buf = true → Ignored p s buf) ↔ True :=
      fun s buf => iff_true_intro pArm_ignored
    exact (along_congr always s messages).mpr (along_true s messages)

/-- A P-ARM assert, an assert and a reset, with the reset property on and no dump. -/
theorem requests_accounted_three :
    Accounted { modemReset := bytes "1" } {}
      [bytes "P-ARM Modem Assert", bytes "Modem Assert", bytes "Modem Reset"] :=
  requests_accounted _ _ rfl _

end ModemControl.ResetRequests
