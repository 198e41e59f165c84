import ModemControl.Foundation.Layers
import ModemControl.Load

/-! # Waiting for a remote flag

`modem_load_wait_remote` down to the open and the ioctl of every command. A flag word
that could not be read keeps its initial value, all of whose bits are set, so a failed
poll is taken for every flag there is.
-/

namespace ModemControl.RemoteFlag

open Foundation Load

/-- The calls `modem_iocmd` is made of, and those of the loader that are none of its. -/
inductive IoOp where
  | open_ (path : Bytes)
  | ioctl (cmd : ModemCmd)
  | close
  | other (op : LoadOp)
  deriving Repr, DecidableEq

/-- `open` answers whether it succeeds, an ioctl its result. The one that gets the flag
    word answers the word it stores, and nothing when it fails, with the word as it was. -/
abbrev IoOp.Res : IoOp → Type
  | .open_ _ => Bool
  | .ioctl cmd => cmd.Res
  | .close => Unit
  | .other op => op.Res

abbrev IoProg (α : Type) : Type := Prog IoOp IoOp.Res α

def open_ (path : Bytes) : IoProg Bool := .call (.open_ path) .ret
def ioctl (cmd : ModemCmd) : IoProg cmd.Res := .call (.ioctl cmd) .ret
def close : IoProg Unit := .call .close .ret

/-- What `modem_iocmd` returns when it cannot open the device; no word is stored then. -/
def notOpened : (cmd : ModemCmd) → cmd.Res
  | .getRemoteFlag => none
  | .readLock | .readUnlock | .writeLock | .writeUnlock | .setWriteRegion _ | .setRemoteFlag _ |
    .clrRemoteFlag _ | .stop | .start => (-1 : Int)

def modemIocmd (cmd : ModemCmd) (path : Bytes) : IoProg cmd.Res := do
  if ← open_ path then
    let ret ← ioctl cmd
    close
    return ret
  else return notOpened cmd

/-- The calls of the loader, those to a modem device over `modem_iocmd`. -/
def device : (op : LoadOp) → IoProg op.Res
  | .iocmd cmd path => modemIocmd cmd path
  | op => .call (.other op) .ret

/-- The flag word that was stored, if one was. -/
def stored (trace : List (Event IoOp IoOp.Res)) : Option (BitVec 32) :=
  trace.findSome? fun e =>
    match e with
    | ⟨.ioctl .getRemoteFlag, some word⟩ => word
    | _ => none

/-- What a poll gets: the flag word, or nothing when the open or the ioctl fails. -/
def polled (c : Layer LoadOp LoadOp.Res IoOp IoOp.Res) : Option (Option (BitVec 32)) :=
  match c.op with
  | .iocmd .getRemoteFlag _ => some (stored c.inner)
  | _ => none

section

variable {σ α : Type} (answer : σ → (op : IoOp) → op.Res × σ)

/-- The polls of a run, against a device that answers as it likes. -/
def polls (p : LoadProg α) (s : σ) : List (Option (BitVec 32)) :=
  (p.layers device answer s).filterMap polled

/-- What a run comes back with. -/
def result (p : LoadProg α) (s : σ) : α := ((p.interp device).run answer s).2.2

/-- There are at most 101 polls, and the wait succeeds exactly when one of them got a word
    with one of the bits. -/
def Sound (waitBit : BitVec 32) (ready : Bool) (polls : List (Option (BitVec 32))) : Prop :=
  polls.length ≤ 101 ∧ (ready = true ↔ ∃ word, some word ∈ polls ∧ anyBit word waitBit = true)

end

/-- A poll that ends the loop. -/
def Counts (waitBit : BitVec 32) (poll : Option (BitVec 32)) : Prop :=
  anyBit (remoteFlag poll) waitBit = true

theorem counts_failed {waitBit : BitVec 32} (some : waitBit ≠ 0) : Counts waitBit none := by
  have all : (-1 : BitVec 32) &&& waitBit = waitBit := BitVec.allOnes_and
  unfold Counts remoteFlag anyBit
  rw [Option.getD_none, all, bne_iff_ne]
  exact some

section

variable {σ α : Type} {answer : σ → (op : IoOp) → op.Res × σ}

/-- The word that `modem_get_remote_flag` goes on with is the one that was stored. -/
theorem stored_iocmd (path : Bytes) (s : σ) :
    stored ((modemIocmd .getRemoteFlag path).run answer s).1 =
      ((modemIocmd .getRemoteFlag path).run answer s).2.2 := by
  unfold modemIocmd open_ ioctl close
  simp only [Prog.call_bind, Prog.ret_bind, Prog.run_call]
  cases (answer s (.open_ path)).1 with
  | false => rfl
  | true =>
      cases word : (answer (answer s (.open_ path)).2 (.ioctl .getRemoteFlag)).1 with
      | none => simp [stored, word]
      | some word => simp [stored, word]

/-- What the loop does once it has polled. -/
def afterPoll (ioCtrl : Bytes) (waitBit : BitVec 32) (cnt : Nat) (poll : Option (BitVec 32)) :
    LoadProg Bool :=
  if anyBit (remoteFlag poll) waitBit then pure true
  else
    match cnt with
    | 0 => pure false
    | cnt + 1 => waitLoop ioCtrl waitBit cnt

theorem waitLoop_eq (ioCtrl : Bytes) (waitBit : BitVec 32) (cnt : Nat) :
    waitLoop ioCtrl waitBit cnt = .call (.iocmd .readLock ioCtrl) fun _ =>
      .call (.iocmd .getRemoteFlag ioCtrl) fun poll =>
        .call (.iocmd .readUnlock ioCtrl) fun _ => afterPoll ioCtrl waitBit cnt poll := by
  cases cnt <;> rfl

section

variable {ioCtrl : Bytes} {waitBit : BitVec 32} {poll : Option (BitVec 32)}

theorem afterPoll_counts {cnt : Nat} (counts : Counts waitBit poll) :
    afterPoll ioCtrl waitBit cnt poll = .ret true :=
  if_pos counts

theorem afterPoll_last (goesOn : ¬ Counts waitBit poll) :
    afterPoll ioCtrl waitBit 0 poll = .ret false :=
  if_neg goesOn

theorem afterPoll_next {cnt : Nat} (goesOn : ¬ Counts waitBit poll) :
    afterPoll ioCtrl waitBit (cnt + 1) poll = waitLoop ioCtrl waitBit cnt :=
  if_neg goesOn

end

theorem result_eq (p : LoadProg α) (s : σ) :
    result answer p s = (p.run (Prog.through device answer) s).2.2 :=
  congrArg Prod.snd (Prog.interp_run p s)

/-- One round: a poll, and then what follows it from some state. -/
theorem waitLoop_round (ioCtrl : Bytes) (waitBit : BitVec 32) (cnt : Nat) (s : σ) :
    ∃ poll s', polls answer (waitLoop ioCtrl waitBit cnt) s =
        poll :: polls answer (afterPoll ioCtrl waitBit cnt poll) s' ∧
      result answer (waitLoop ioCtrl waitBit cnt) s =
        result answer (afterPoll ioCtrl waitBit cnt poll) s' := by
  let locked := Prog.through device answer s (.iocmd .readLock ioCtrl)
  let got := Prog.through device answer locked.2 (.iocmd .getRemoteFlag ioCtrl)
  let unlocked := Prog.through device answer got.2 (.iocmd .readUnlock ioCtrl)
  refine ⟨got.1, unlocked.2, ?_, ?_⟩
  · rw [waitLoop_eq]
    have word : stored ((modemIocmd .getRemoteFlag ioCtrl).run answer locked.2).1 = got.1 :=
      stored_iocmd ioCtrl locked.2
    calc
      _ = stored ((modemIocmd .getRemoteFlag ioCtrl).run answer locked.2).1 ::
          polls answer (afterPoll ioCtrl waitBit cnt got.1) unlocked.2 := rfl
      _ = got.1 :: polls answer (afterPoll ioCtrl waitBit cnt got.1) unlocked.2 := by rw [word]
  · rw [waitLoop_eq, result_eq, result_eq]
    rfl

/-- The loop ends with the first poll that counts, and succeeds if there is one. -/
theorem waitLoop_polls (ioCtrl : Bytes) (waitBit : BitVec 32) (cnt : Nat) (s : σ) :
    ∃ before last, polls answer (waitLoop ioCtrl waitBit cnt) s = before ++ [last] ∧
      before.length ≤ cnt ∧ (∀ poll ∈ before, ¬ Counts waitBit poll) ∧
      (result answer (waitLoop ioCtrl waitBit cnt) s = true ↔ Counts waitBit last) := by
  induction cnt generalizing s with
  | zero =>
      obtain ⟨poll, s', round, ends⟩ := waitLoop_round ioCtrl waitBit 0 s
      rw [round, ends]
      refine ⟨[], poll, ?_, Nat.le_refl 0, List.forall_mem_nil _, ?_⟩
      · by_cases counts : Counts waitBit poll
        · rw [afterPoll_counts counts]
          rfl
        · rw [afterPoll_last counts]
          rfl
      · by_cases counts : Counts waitBit poll
        · rw [afterPoll_counts counts]
          exact iff_of_true rfl counts
        · rw [afterPoll_last counts]
          exact iff_of_false Bool.false_ne_true counts
  | succ cnt ih =>
      obtain ⟨poll, s', round, ends⟩ := waitLoop_round ioCtrl waitBit (cnt + 1) s
      rw [round, ends]
      by_cases counts : Counts waitBit poll
      · rw [afterPoll_counts counts]
        exact ⟨[], poll, rfl, Nat.zero_le _, List.forall_mem_nil _, iff_of_true rfl counts⟩
      · rw [afterPoll_next counts]
        obtain ⟨before, last, made, few, none, success⟩ := ih s'
        rw [made]
        exact ⟨poll :: before, last, rfl, Nat.succ_le_succ few,
          List.forall_mem_cons.mpr ⟨counts, none⟩, success⟩

/-- The wait is sound exactly when no poll fails: a poll that does is taken for the flag. -/
theorem waitRemote_sound_iff (answer : σ → (op : IoOp) → op.Res × σ) (load : LoadValue)
    (ioctrl : load.ioctrlIsOk = true) (waitBit : BitVec 32) (bits : waitBit ≠ 0) (s : σ) :
    Sound waitBit (result answer (modemLoadWaitRemote load waitBit) s)
        (polls answer (modemLoadWaitRemote load waitBit) s) ↔
      none ∉ polls answer (modemLoadWaitRemote load waitBit) s := by
  have loop : modemLoadWaitRemote load waitBit = waitLoop load.ioCtrl waitBit 100 := by
    rw [modemLoadWaitRemote, ioctrl]
    rfl
  obtain ⟨before, last, made, few, none_, success⟩ :=
    waitLoop_polls load.ioCtrl waitBit 100 s
  rw [loop, made]
  have bound : (before ++ [last]).length ≤ 101 := by
    rw [List.length_append, List.length_singleton]
    omega
  have early : none ∉ before := fun member => none_ none member (counts_failed bits)
  rw [Sound, success]
  cases last with
  | none =>
      refine iff_of_false ?_ fun sound => sound (List.mem_append_right before List.mem_cons_self)
      rintro ⟨_, sound⟩
      obtain ⟨word, member, shows⟩ := sound.mp (counts_failed bits)
      rcases List.mem_append.mp member with earlier | same
      · exact none_ _ earlier shows
      · simp at same
  | some word =>
      refine iff_of_true ⟨bound, ?_, ?_⟩ ?_
      · intro counts
        exact ⟨word, List.mem_append_right before List.mem_cons_self, counts⟩
      · rintro ⟨other, member, shows⟩
        rcases List.mem_append.mp member with earlier | same
        · exact absurd shows (none_ _ earlier)
        · obtain rfl : other = word := by simpa using same
          exact shows
      · intro member
        rcases List.mem_append.mp member with earlier | same
        · exact early earlier
        · simp at same

end

/-- Calls that the wait does not make. -/
def unasked : (op : LoadOp) → op.Res
  | .iocmd cmd _ => notOpened cmd
  | .getPatitonInfo _ => (0, 0)
  | .writeProcFile _ _ _ | .modemLoadImage _ _ _ _ | .secureBootLoadImg _ | .loadCpCmdline _ _ |
    .loadCpBootCode _ | .readNvPartition _ _ _ | .rescanEpDevice => (0 : Int)
  | .secureBootSetFlag _ | .secureBootUnlockDdr | .secureBootVerifyAll | .setModemState _ |
    .enableWakeLock _ _ => ()

/-- A device that shows one flag word, or cannot be opened. -/
def showing (word : Option (BitVec 32)) : Unit → (op : IoOp) → op.Res × Unit
  | _, .open_ _ => (word.isSome, ())
  | _, .ioctl .getRemoteFlag => (word, ())
  | _, .ioctl cmd => (notOpened cmd, ())
  | _, .close => ((), ())
  | _, .other op => (unasked op, ())

/-- The flag is there at the first poll. -/
theorem waitRemote_sound_ready :
    Sound 1 (result (showing (some 1)) (modemLoadWaitRemote { ioctrlIsOk := true } 1) ())
      (polls (showing (some 1)) (modemLoadWaitRemote { ioctrlIsOk := true } 1) ()) :=
  (waitRemote_sound_iff (showing (some 1)) { ioctrlIsOk := true } rfl 1 (by decide) ()).mpr (by decide)

/-- A device that cannot be opened is taken to be ready. -/
theorem waitRemote_unsound_closed :
    ¬ ∀ (answer : Unit → (op : IoOp) → op.Res × Unit) (load : LoadValue), load.ioctrlIsOk = true →
      ∀ waitBit : BitVec 32, waitBit ≠ 0 →
        Sound waitBit (result answer (modemLoadWaitRemote load waitBit) ())
          (polls answer (modemLoadWaitRemote load waitBit) ()) := by
  intro always
  obtain ⟨_, sound⟩ := always (showing none) { ioctrlIsOk := true } rfl REMOTE_DDR_READY_FLAG (by decide)
  obtain ⟨word, member, _⟩ := sound.mp rfl
  have failed : polls (showing none) (modemLoadWaitRemote { ioctrlIsOk := true } REMOTE_DDR_READY_FLAG)
      () = [none] := rfl
  rw [failed, List.mem_singleton] at member
  cases member

end ModemControl.RemoteFlag
