import ModemControl.Foundation.Runs

/-! # Rescanning the ep device: modem_pcie_control.c

`modem_rescan_ep_device` removes the ep device and its bridge and has the bus rescanned,
by writing "1" to three nodes in turn. What was removed has no node until a rescan brings
it back. `modem_reboot_all_modem` calls the function until it returns 0.
-/

namespace ModemControl.PcieRescan

open Foundation

/-- `device_remove_path`, `bridge_remove_path` and `rescan_path`. -/
inductive File where
  | deviceRemove
  | bridgeRemove
  | rescan
  deriving Repr, DecidableEq

/-- Whether the ep device and its bridge are there, and so their remove nodes. -/
structure Nodes where
  ep : Bool := true
  bridge : Bool := true
  deriving Repr, DecidableEq

def Nodes.present (n : Nodes) : File → Bool
  | .deviceRemove => n.ep
  | .bridgeRemove => n.bridge
  | .rescan => true

/-- What a successful write leaves. The ep is behind the bridge. -/
def Nodes.written (n : Nodes) : File → Nodes
  | .deviceRemove => { n with ep := false }
  | .bridgeRemove => ⟨false, false⟩
  | .rescan => ⟨true, true⟩

/-- How a node that is there takes a write: whether it can be opened, and what `write`
    returns. -/
structure Answer where
  opens : Bool := true
  size : Int := 1
  deriving Repr, DecidableEq

def Answer.accepts (a : Answer) : Bool := a.opens && a.size == 1

/-- With the string "1", so of one character. -/
def modemWriteFile (n : Nodes) (file : File) (a : Answer) : Int × Nodes :=
  if n.present file && a.opens then
    if a.size ≠ 1 then (-2, n) else (0, n.written file)
  else (-1, n)

/-- The answers to the three writes of a call, for the nodes that are there. -/
structure Answers where
  device : Answer := {}
  bridge : Answer := {}
  rescan : Answer := {}
  deriving Repr, DecidableEq

def modemRescanEpDevice (n : Nodes) (a : Answers) : Int × Nodes :=
  -- remove ep device
  let (ret, n) := modemWriteFile n .deviceRemove a.device
  if ret ≠ 0 then (ret, n)
  else
    -- remove ep bridge
    let (ret, n) := modemWriteFile n .bridgeRemove a.bridge
    if ret ≠ 0 then (ret, n)
    else modemWriteFile n .rescan a.rescan

/-- The loop of `modem_reboot_all_modem`. Nothing as long as it goes on. -/
def rescanLoop : Nodes → List Answers → Option Nodes
  | _, [] => none
  | n, a :: rest =>
      let (bContinue, n) := modemRescanEpDevice n a
      if bContinue ≠ 0 then rescanLoop n rest else some n

def start : Nodes := {}

def step (n : Nodes) (a : Answers) : Option Nodes := some (modemRescanEpDevice n a).2

/-- No node that is there rejects its write. -/
def Answers.accept (a : Answers) : Bool :=
  a.device.accepts && a.bridge.accepts && a.rescan.accepts

def Retriable (n : Nodes) : Prop := ∀ a : Answers, a.accept = true → (modemRescanEpDevice n a).1 = 0

/-- However the nodes answer, the loop goes on. -/
def Stuck (n : Nodes) : Prop := ∀ attempts, rescanLoop n attempts = none

/-- A call that fails can be tried again. -/
def Retried (n : Nodes) (a : Answers) : Prop :=
  (modemRescanEpDevice n a).1 ≠ 0 →
    Retriable (modemRescanEpDevice n a).2 ∧ ¬ Stuck (modemRescanEpDevice n a).2

/-- If the remove node of the ep takes its write, the other two take theirs. -/
def Answers.Whole (a : Answers) : Prop :=
  a.device.accepts = true → a.bridge.accepts = true ∧ a.rescan.accepts = true

instance (a : Answers) : Decidable a.Whole := inferInstanceAs (Decidable (_ → _))

theorem write_accepted {n : Nodes} {file : File} {a : Answer} (present : n.present file = true)
    (accepts : a.accepts = true) : modemWriteFile n file a = (0, n.written file) := by
  simp only [Answer.accepts, Bool.and_eq_true, beq_iff_eq] at accepts
  simp [modemWriteFile, present, accepts]

theorem write_rejected {n : Nodes} {file : File} {a : Answer} (rejects : a.accepts = false) :
    (modemWriteFile n file a).1 ≠ 0 ∧ (modemWriteFile n file a).2 = n := by
  simp only [Answer.accepts, Bool.and_eq_false_iff, beq_eq_false_iff_ne] at rejects
  unfold modemWriteFile
  split
  · rename_i opened
    have failed : a.size ≠ 1 := by simp_all
    simp [failed]
  · simp

/-- A removed ep device has no node that a call could begin with. -/
theorem rescan_gone {n : Nodes} (gone : n.ep = false) (a : Answers) :
    modemRescanEpDevice n a = (-1, n) := by
  simp [modemRescanEpDevice, modemWriteFile, Nodes.present, gone]

theorem stuck_of_gone {n : Nodes} (gone : n.ep = false) : Stuck n := by
  intro attempts
  induction attempts with
  | nil => rfl
  | cons a rest ih => simp [rescanLoop, rescan_gone gone, ih]

/-- With both devices there, a call in which every node takes its write brings them back. -/
theorem rescan_accept {a : Answers} (accept : a.accept = true) :
    modemRescanEpDevice start a = (0, start) := by
  simp only [Answers.accept, Bool.and_eq_true] at accept
  obtain ⟨⟨device, bridge⟩, rescan⟩ := accept
  have first : modemWriteFile start .deviceRemove a.device = (0, ⟨false, true⟩) :=
    write_accepted rfl device
  have second : modemWriteFile ⟨false, true⟩ .bridgeRemove a.bridge = (0, ⟨false, false⟩) :=
    write_accepted rfl bridge
  have third : modemWriteFile ⟨false, false⟩ .rescan a.rescan = (0, start) :=
    write_accepted rfl rescan
  simp [modemRescanEpDevice, first, second, third]

theorem retriable_start : Retriable start := by
  intro a accept
  rw [rescan_accept accept]

theorem not_stuck_start : ¬ Stuck start := by
  intro stuck
  have ended : rescanLoop start [{}] = some start := by decide
  rw [stuck] at ended
  cases ended

/-- A whole call leaves both devices there, whether it succeeds or not. -/
theorem rescan_whole {a : Answers} (whole : a.Whole) : (modemRescanEpDevice start a).2 = start := by
  cases device : a.device.accepts with
  | false =>
      obtain ⟨failed, same⟩ := @write_rejected start .deviceRemove a.device device
      simp [modemRescanEpDevice, failed, same]
  | true =>
      have accept : a.accept = true := by simp [Answers.accept, device, whole device]
      rw [rescan_accept accept]

/-- One that is not fails, and leaves the ep device removed. -/
theorem rescan_halfway {a : Answers} (halfway : ¬ a.Whole) :
    (modemRescanEpDevice start a).1 ≠ 0 ∧ (modemRescanEpDevice start a).2.ep = false := by
  simp only [Answers.Whole, Classical.not_imp, not_and_or, Bool.not_eq_true] at halfway
  obtain ⟨device, rejects⟩ := halfway
  have first : modemWriteFile start .deviceRemove a.device = (0, ⟨false, true⟩) :=
    write_accepted rfl device
  simp only [modemRescanEpDevice, first, ne_eq, not_true_eq_false, if_false]
  cases bridge : a.bridge.accepts with
  | false =>
      obtain ⟨failed, same⟩ := @write_rejected ⟨false, true⟩ .bridgeRemove a.bridge bridge
      simp [failed, same]
  | true =>
      have second : modemWriteFile ⟨false, true⟩ .bridgeRemove a.bridge = (0, ⟨false, false⟩) :=
        write_accepted rfl bridge
      have rescan : a.rescan.accepts = false := by simpa [bridge] using rejects
      obtain ⟨failed, same⟩ := @write_rejected ⟨false, false⟩ .rescan a.rescan rescan
      simp [second, failed, same]

theorem retried_start_iff (a : Answers) : Retried start a ↔ a.Whole := by
  constructor
  · intro retried
    refine Decidable.byContradiction ?_
    intro halfway
    obtain ⟨failed, gone⟩ := rescan_halfway halfway
    exact (retried failed).2 (stuck_of_gone gone)
  · intro whole _
    rw [rescan_whole whole]
    exact ⟨retriable_start, not_stuck_start⟩

/-- Over every sequence of calls each failed one can be tried again exactly when no call
    removes the ep device and fails behind that. -/
theorem failed_rescan_retried_iff (calls : List Answers) :
    Along step Retried start calls ↔ ∀ a ∈ calls, a.Whole := by
  induction calls with
  | nil => simp [Along]
  | cons a rest ih =>
      rw [List.forall_mem_cons, ← ih, Along, retried_start_iff]
      refine and_congr_right ?_
      intro whole
      simp only [step, rescan_whole whole, Option.some.injEq, forall_eq']

/-- The bridge rejects its write when the ep device has been removed already. -/
def bridgeRejects : Answers := { bridge := { size := -1 } }

theorem bridge_rejects_stuck : ¬ ∀ calls, Along step Retried start calls := by
  intro always
  have retried := (always [bridgeRejects]).1
  exact absurd ((retried_start_iff bridgeRejects).mp retried) (by decide)

end ModemControl.PcieRescan
