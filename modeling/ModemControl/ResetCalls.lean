import ModemControl.Foundation.Guarded
import ModemControl.Foundation.Layers
import ModemControl.Foundation.Select
import ModemControl.ListenLoops

/-! # The request for a reset, call by call

`prepare_reset_modem` asks the modem over the diag device to reset. What the log device and
the diag device still hold is read before, and thrown away. The 'Prepare Reset' branch of
`modem_ctrl_listen_clients` is taken with this function in place of its call.
-/

namespace ModemControl.ResetCalls

open Foundation ListenModem

inductive Fd where
  | logFd
  | diagFd
  deriving Repr, DecidableEq

/-- The calls of the branch, and those of `prepare_reset_modem`. `select` is asked about
    `log_fd`; `more` stands for the rounds of a loop beyond those a run is looked at for. -/
inductive Op where
  | loop (op : ListenClients.Op)
  | diagDevProp
  | logDevProp
  | open_ (f : Fd) (path : Bytes)
  | select
  | read (f : Fd)
  | setWaitResetFlag (set : Bool)
  | write (f : Fd) (data : Bytes)
  | close (f : Fd)
  | more
  deriving Repr, DecidableEq

/-- Both properties are "not_find" when they are not set; of what is read only the count is
    looked at. -/
abbrev Op.Res : Op → Type
  | .loop op => op.Res
  | .diagDevProp | .logDevProp => Bytes
  | .open_ _ _ => Bool
  | .select => Select.Answer Unit
  | .read _ | .write _ _ => Int
  | .setWaitResetFlag _ | .close _ => Unit
  | .more => Empty

abbrev ResetProg (α : Type) : Type := Prog Op Op.Res α

def call (op : Op) : ResetProg op.Res := .call op .ret

def more {α : Type} : ResetProg α := .call .more Empty.elim

/-- An interrupted call is made again at once. -/
def selectLog : Nat → ResetProg (Select.Answer Unit)
  | 0 => more
  | rounds + 1 => do
      let answer ← call .select
      if answer = .error true then selectLog rounds else return answer

/-- The loop that reads until nothing more comes. -/
def readEmpty (f : Fd) : Nat → ResetProg Int
  | 0 => more
  | rounds + 1 => do
      let count ← call (.read f)
      if 0 < count then readEmpty f rounds else return count

def modemCtrlReadEmptyLog : Nat → ResetProg Unit
  | 0 => more
  | rounds + 1 => do
      match ← selectLog rounds with
      | .error _ => return ()
      | .ready set =>
          -- one second has passed
          if set = ∅ then return ()
          else
            let count ← readEmpty .logFd rounds
            if count < 0 then return () else modemCtrlReadEmptyLog rounds

/-- The log channel, or the diag channel in its place. -/
def openLog (logChan diagChan : Bytes) : ResetProg Bool := do
  if ← call (.open_ .logFd logChan) then return true else call (.open_ .logFd diagChan)

def emptyLog (rounds : Nat) : ResetProg Unit := do
  modemCtrlReadEmptyLog rounds
  call (.close .logFd)

def RESET_CMD : Bytes := [0x7a, 0x0a]

/-- With the diag device open. -/
def askReset (rounds : Nat) : ResetProg Unit := do
  let _ ← readEmpty .diagFd rounds
  call (.setWaitResetFlag true)
  let _ ← call (.write .diagFd RESET_CMD)
  call (.close .diagFd)

def prepareResetModem (rounds : Nat) : ResetProg Unit := do
  let diagChan ← call .diagDevProp
  let logChan ← call .logDevProp
  let opened ← openLog logChan diagChan
  Prog.when opened (emptyLog rounds)
  let opened ← call (.open_ .diagFd diagChan)
  Prog.when opened (askReset rounds)

def expand (rounds : Nat) : (op : ListenClients.Op) → ResetProg op.Res
  | .prepareResetModem => prepareResetModem rounds
  | op => call (.loop op)

def branch (v : Variant) (rounds : Nat) : ResetProg Unit :=
  (ListenClients.prepareReset v).interp (expand rounds)

/-- The descriptor that is open, whether the last read got nothing more, and how far the
    request has come. -/
structure Held where
  fd : Option Fd := none
  drained : Bool := false
  flagged : Bool := false
  sent : Bool := false
  deriving Repr, DecidableEq

def Held.next (h : Held) : (op : Op) → op.Res → Held
  | .open_ f _, opened => if opened then { h with fd := some f, drained := false } else h
  | .read _, count => { h with drained := count ≤ 0 }
  | .setWaitResetFlag set, _ => { h with flagged := set }
  | .write _ _, _ => { h with sent := true }
  | .close _, _ => { h with fd := none }
  | _, _ => h

/-- At most one descriptor is open at a time, and none while the modem is waited for or loaded
    again. The command is written once, to the diag device, when that holds nothing more and
    the flag is set. -/
def Held.Lets (h : Held) : Op → Prop
  | .open_ _ _ => h.fd = none
  | .select => h.fd = some .logFd
  | .read f | .close f => h.fd = some f
  | .setWaitResetFlag set => set = true ∧ h.fd = some .diagFd ∧ h.drained = true
  | .write f data => f = .diagFd ∧ data = RESET_CMD ∧ h.fd = some .diagFd ∧ h.drained = true ∧
      h.flagged = true ∧ h.sent = false
  | .loop _ => h.fd = none
  | _ => True

def discipline : Monitor Op Op.Res Held where
  next := Held.next
  ok := Held.Lets

/-- Nothing is open, and the command was written if the flag was set. -/
structure Held.Finished (h : Held) : Prop where
  fd : h.fd = none
  sent : h.sent = h.flagged

section

variable {h : Held}

theorem meets_more {α μ : Type} {M : Monitor Op Op.Res μ} {post : α → μ → Prop} {m : μ}
    (lets : M.ok m .more) : (more : ResetProg α).Meets M post m :=
  ⟨lets, Empty.rec⟩

theorem selectLog_held {rounds : Nat} (open_ : h.fd = some .logFd) :
    (selectLog rounds).Meets discipline (fun _ h' => h' = h) h := by
  induction rounds with
  | zero => exact meets_more trivial
  | succ rounds ih =>
      apply Prog.Meets.call open_
      intro answer
      split
      · exact ih
      · rfl

/-- Behind the loop the device holds nothing more. -/
theorem readEmpty_held {f : Fd} {rounds : Nat} (open_ : h.fd = some f) :
    (readEmpty f rounds).Meets discipline (fun _ h' => h' = { h with drained := true }) h := by
  induction rounds generalizing h with
  | zero => exact meets_more trivial
  | succ rounds ih =>
      apply Prog.Meets.call open_
      intro count
      split
      · exact ih (h := { h with drained := decide (count ≤ 0) }) open_
      · rename_i empty
        have drained : decide (count ≤ 0) = true := decide_eq_true (not_lt.mp empty)
        exact congrArg (fun d => { h with drained := d }) drained

theorem modemCtrlReadEmptyLog_held {rounds : Nat} (open_ : h.fd = some .logFd) :
    (modemCtrlReadEmptyLog rounds).Meets discipline
      (fun _ h' => ∃ d, h' = { h with drained := d }) h := by
  induction rounds generalizing h with
  | zero => exact meets_more trivial
  | succ rounds ih =>
      apply (selectLog_held open_).bind
      intro answer h' same
      subst same
      cases answer with
      | error eintr => exact ⟨h'.drained, rfl⟩
      | ready set =>
          dsimp only
          split
          · exact ⟨h'.drained, rfl⟩
          · apply (readEmpty_held open_).bind
            intro count h₁ same
            subst same
            split
            · exact ⟨true, rfl⟩
            · exact ih (h := { h' with drained := true }) open_

theorem emptyLog_held {rounds : Nat} (free : h.fd = none) :
    (emptyLog rounds).Meets discipline (fun _ h' => ∃ d, h' = { h with drained := d })
      { h with fd := some .logFd, drained := false } := by
  apply (modemCtrlReadEmptyLog_held rfl).bind
  rintro _ h' ⟨d, rfl⟩
  apply Prog.Meets.call rfl
  intro _
  exact ⟨d, congrArg (fun fd => { h with fd := fd, drained := d }) free.symm⟩

theorem openLog_held {logChan diagChan : Bytes} (free : h.fd = none) :
    (openLog logChan diagChan).Meets discipline
      (fun opened h' => h' = if opened then { h with fd := some .logFd, drained := false } else h)
      h := by
  apply Prog.Meets.call free
  intro opened
  cases opened with
  | true => rfl
  | false => exact ⟨free, fun _ => rfl⟩

theorem askReset_held {rounds : Nat} (unsent : h.sent = false) :
    (askReset rounds).Meets discipline (fun _ => Held.Finished)
      { h with fd := some .diagFd, drained := false } := by
  apply (readEmpty_held rfl).bind
  rintro _ _ rfl
  apply Prog.Meets.call
  · exact ⟨rfl, rfl, rfl⟩
  · intro _
    apply Prog.Meets.call
    · exact ⟨rfl, rfl, rfl, rfl, rfl, unsent⟩
    · intro _
      apply Prog.Meets.call rfl
      intro _
      exact ⟨rfl, rfl⟩

theorem prepareResetModem_held {rounds : Nat} (start : h = {}) :
    (prepareResetModem rounds).Meets discipline (fun _ => Held.Finished) h := by
  subst start
  apply Prog.Meets.call trivial
  intro diagChan
  apply Prog.Meets.call trivial
  intro logChan
  apply (openLog_held rfl).bind
  rintro opened _ rfl
  have emptied : (Prog.when opened (emptyLog rounds)).Meets discipline
      (fun _ h' => ∃ d, h' = { drained := d })
      (if opened then { fd := some .logFd, drained := false } else {}) := by
    cases opened with
    | true => exact emptyLog_held (h := {}) rfl
    | false => exact ⟨false, rfl⟩
  apply emptied.bind
  rintro _ _ ⟨d, rfl⟩
  apply Prog.Meets.call rfl
  intro opened
  cases opened with
  | true => exact askReset_held (h := { drained := d }) rfl
  | false => exact ⟨rfl, rfl⟩

end

/-- The modem is asked at most once. -/
def once : Monitor ListenClients.Op ListenClients.Op.Res Bool where
  next asked op _ := asked || op == .prepareResetModem
  ok asked op := op = .prepareResetModem → asked = false

/-- What is held before the modem is asked and after it. -/
def Rests (asked : Bool) (h : Held) : Prop := if asked then h.Finished else h = {}

theorem fd_of_rests {asked : Bool} {h : Held} (rests : Rests asked h) : h.fd = none := by
  cases asked with
  | true =>
      have finished : h.Finished := rests
      exact finished.fd
  | false =>
      obtain rfl : h = {} := rests
      rfl

/-- A call that does not ask. -/
def Aside (op : ListenClients.Op) : Prop := op ≠ .prepareResetModem

theorem once_next {op : ListenClients.Op} (other : Aside op) (asked : Bool) (r : op.Res) :
    once.next asked op r = asked := by
  have differs : (op == .prepareResetModem) = false := beq_eq_false_iff_ne.mpr other
  simp only [once, differs, Bool.or_false]

theorem aside_meets {α : Type} {p : ListenClients.ClientProg α} {post : α → Bool → Prop} {asked : Bool}
    (aside : p.Calls Aside) (ends : ∀ a, post a asked) : p.Meets once post asked := by
  have same : p.Meets once (fun _ after => after = asked) asked := by
    apply Prog.Calls.meets_same
    apply aside.mono
    intro op other
    exact ⟨fun same => absurd same other, once_next other asked⟩
  apply same.mono
  rintro a _ rfl
  exact ends a

theorem waitReset_aside (cnt : Nat) : (ListenClients.waitReset cnt).Calls Aside := by
  induction cnt with
  | zero => trivial
  | succ cnt ih => exact ⟨nofun, fun waiting => ih.when waiting⟩

theorem reloadModem_aside {reload : ListenClients.Op} (other : Aside reload) :
    (ListenClients.reloadModem reload).Calls Aside :=
  ⟨nofun, fun _ => ⟨other, fun _ => ⟨nofun, fun _ => trivial⟩⟩⟩

theorem requestReset_once (v : Variant) :
    (ListenClients.requestReset v).Meets once (fun _ _ => True) false := by
  apply Prog.Meets.call
  · exact fun _ => rfl
  · intro _
    apply Prog.meets_bind.mpr
    apply aside_meets (waitReset_aside 49)
    intro _
    apply Prog.Meets.call
    · nofun
    · intro waiting
      apply Prog.Meets.when
      · intro _
        cases v with
        | external => exact aside_meets (reloadModem_aside nofun) fun _ => trivial
        | internal => exact aside_meets (reloadModem_aside nofun) fun _ => trivial
      · exact fun _ => trivial

theorem prepareReset_once (v : Variant) :
    (ListenClients.prepareReset v).Meets once (fun _ _ => True) false := by
  cases v with
  | internal => exact requestReset_once .internal
  | external =>
      have clear (panic : Bool) :
          (Prog.when panic (ListenClients.call .clearMiniapPanic)).Calls Aside :=
        Prog.Calls.when panic ⟨nofun, fun _ => trivial⟩
      apply Prog.Meets.call
      · nofun
      · intro panic
        apply Prog.meets_bind.mpr
        apply aside_meets (clear panic)
        intro _
        apply Prog.Meets.call
        · nofun
        · intro prop
          split
          · exact aside_meets (reloadModem_aside nofun) fun _ => trivial
          · exact requestReset_once .external

theorem loop_held {asked : Bool} {h : Held} {op : ListenClients.Op} (rests : Rests asked h)
    (other : Aside op) :
    (call (.loop op)).Meets discipline (fun r h' => Rests (once.next asked op r) h') h := by
  refine ⟨fd_of_rests rests, fun r => ?_⟩
  have same : once.next asked op r = asked := once_next other asked r
  change Rests (once.next asked op r) h
  rwa [same]

theorem expand_held {rounds : Nat} {asked : Bool} {h : Held} {op : ListenClients.Op}
    (rests : Rests asked h) (lets : once.ok asked op) :
    (expand rounds op).Meets discipline (fun r h' => Rests (once.next asked op r) h') h := by
  cases op with
  | prepareResetModem =>
      obtain rfl : asked = false := lets rfl
      exact prepareResetModem_held rests
  | _ => exact loop_held rests nofun

/-- In every run of the branch, in whatever environment and also where it is cut off. -/
theorem branch_disciplined {σ : Type} {env : σ → (op : Op) → op.Res → σ → Prop}
    {torn : σ → Op → σ → Prop} {v : Variant} {rounds : Nat} {s s' : σ}
    {trace : List (Event Op Op.Res)} {out : Option Unit}
    (runs : Prog.Runs env torn (branch v rounds) s trace s' out) :
    discipline.Accepts {} trace ∧ (out.isSome → (discipline.after {} trace).fd = none) := by
  have meets : (branch v rounds).Meets discipline (fun _ h => h.fd = none) {} := by
    apply (prepareReset_once v).interp (R := Rests) rfl
    · intro asked h op rests lets
      exact expand_held rests lets
    · intro _ asked h rests _
      exact fd_of_rests rests
  obtain ⟨accepts, ends⟩ := meets.runs runs
  refine ⟨accepts, ?_⟩
  intro ended
  obtain ⟨_, same⟩ := Option.isSome_iff_exists.mp ended
  exact ends () same

/-- The command is being written. -/
theorem asking_comes :
    Prog.Comes (fun (_ : Unit) _ _ _ => True) (branch .external 2) (.write .diagFd RESET_CMD)
      (fun _ => True) () := by
  apply Prog.comes_later () false trivial
  apply Prog.comes_later () (bytes "1") trivial
  apply Prog.comes_later () (bytes "/dev/sdiag_nr") trivial
  apply Prog.comes_later () (bytes "/dev/slog_nr") trivial
  apply Prog.comes_later () true trivial
  apply Prog.comes_later () (Select.Answer.ready ∅) trivial
  apply Prog.comes_later () () trivial
  apply Prog.comes_later () true trivial
  apply Prog.comes_later () (0 : Int) trivial
  apply Prog.comes_later () () trivial
  exact Prog.comes_here trivial

theorem branch_disciplined_asking : ∃ before : List (Event Op Op.Res),
    discipline.Accepts {} (before ++ [⟨.write .diagFd RESET_CMD, none⟩]) := by
  obtain ⟨before, _, runs, _⟩ := asking_comes
  exact ⟨before, (branch_disciplined runs).1⟩

end ModemControl.ResetCalls
