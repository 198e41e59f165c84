import Mathlib.Data.List.Infix
import ModemControl.Foundation.Ends
import ModemControl.LoadFiles

/-! # The files of an image

The source file and the region of an image while `modem_load_image` works on them. Reads
and writes may transfer less than they are asked to, and may fail.
-/

namespace ModemControl.LoadFiles

open Foundation Load

/-- The bytes of a region with these at a position. -/
def overwrite (region : Nat → UInt8) (pos : Nat) (data : Bytes) : Nat → UInt8 := fun a =>
  if pos ≤ a then data[a - pos]?.getD (region a) else region a

/-- `input` is the source file if it can be opened. `written` are the bytes that went out
    through `fdout`, each with its address. Of a descriptor, `short` says that something was
    not written completely; `readFailed` and `seekFailed` that a read or an `lseek` failed. -/
structure Files where
  input : Option Bytes
  region : Nat → UInt8
  pos : Fd → Nat
  written : List (UInt8 × Nat)
  short : Fd → Bool
  readFailed : Bool
  seekFailed : Bool

namespace Files

def content (s : Files) : Bytes := s.input.getD []

/-- What there is still to read. -/
def ahead (s : Files) : Bytes := s.content.drop (s.pos .fdin)

def moveTo (s : Files) (f : Fd) (pos : Nat) : Files := { s with pos := Function.update s.pos f pos }

/-- A write of which `count` bytes were taken. -/
def wrote (s : Files) (f : Fd) (data : Bytes) (count : Int) : Files where
  input := s.input
  region := overwrite s.region (s.pos f) (data.take count.toNat)
  pos := Function.update s.pos f (s.pos f + count.toNat)
  written :=
    if f = .fdout then s.written ++ (data.take count.toNat).zipIdx (s.pos f) else s.written
  short := Function.update s.short f (s.short f || count != data.length)
  readFailed := s.readFailed
  seekFailed := s.seekFailed

/-- The calls as they may come out. -/
def Step (s : Files) : (op : FileOp) → op.Res → Files → Prop
  | .open_ f _, opened, s' =>
      (f = .fdin → opened = s.input.isSome) ∧ s' = if opened then s.moveTo f 0 else s
  | .lseek f offset _, moved, s' =>
      moved = offset ∧ 0 ≤ offset ∧ s' = s.moveTo f offset.toNat ∨
        moved = -1 ∧ s' = { s with seekFailed := true }
  | .read f count, got, s' =>
      got = none ∧ s' = { s with readFailed := true } ∨
        ∃ data, got = some data ∧ f = .fdin ∧ data <+: s.ahead.take count.toNat ∧
          (data = [] → s.ahead.take count.toNat = []) ∧
          s' = s.moveTo .fdin (s.pos .fdin + data.length)
  | .write f data, count, s' => -1 ≤ count ∧ count ≤ data.length ∧ s' = s.wrote f data count
  | .addSpukCmdline _, _, s' => s' = s
  | .malloc _, _, s' => s' = s
  | .close _, _, s' => s' = s
  | .free, _, s' => s' = s
  | .enableBusmonitor _, _, s' => s' = s
  | .enableDmcMpu _, _, s' => s' = s
  | .fault, never, _ => never.elim
  | .more, never, _ => never.elim

end Files

/-- Only such answers are given. -/
def Allowed (ok : (op : FileOp) → op.Res → Prop) (s : Files) (op : FileOp) (r : op.Res)
    (s' : Files) : Prop :=
  s.Step op r s' ∧ ok op r

/-- Every call from which a function comes back has an answer. -/
def Answers (ok : (op : FileOp) → op.Res → Prop) : Prop :=
  ∀ s op, op ≠ .fault → op ≠ .more → ∃ r s', Allowed ok s op r s'

theorem overwrite_nil (region : Nat → UInt8) (pos : Nat) : overwrite region pos [] = region := by
  funext a
  simp [overwrite]

theorem overwrite_append (region : Nat → UInt8) (pos : Nat) (first second : Bytes) :
    overwrite (overwrite region pos first) (pos + first.length) second =
      overwrite region pos (first ++ second) := by
  funext a
  unfold overwrite
  rcases Nat.lt_or_ge a pos with below | above
  · rw [if_neg (by omega), if_neg (by omega), if_neg (by omega)]
  · rcases Nat.lt_or_ge a (pos + first.length) with inFirst | behind
    · rw [if_neg (by omega), if_pos above, if_pos above, List.getElem?_append_left (by omega)]
    · have out : first[a - pos]? = none := List.getElem?_eq_none (by omega)
      rw [if_pos behind, if_pos above, if_pos above, List.getElem?_append_right (by omega), out,
        Option.getD_none, Nat.sub_sub]

theorem overwrite_behind {region : Nat → UInt8} {pos a : Nat} {data : Bytes}
    (behind : pos + data.length ≤ a) : overwrite region pos data a = region a := by
  unfold overwrite
  rw [if_pos (by omega), List.getElem?_eq_none (by omega), Option.getD_none]

/-- Unless a write through the descriptor falls short, these bytes are in the region. -/
def Put (f : Fd) (s s' : Files) (data : Bytes) : Prop :=
  s'.short f = false →
    s.short f = false ∧ s'.pos f = s.pos f + data.length ∧
      s'.region = overwrite s.region (s.pos f) data

section

variable {f : Fd} {s s₁ s' : Files} {first second data : Bytes} {count : Int}

theorem Put.trans (before : Put f s s₁ first) (after : Put f s₁ s' second) :
    Put f s s' (first ++ second) := by
  intro complete
  obtain ⟨middle, pos, region⟩ := after complete
  obtain ⟨start, pos₁, region₁⟩ := before middle
  refine ⟨start, ?_, ?_⟩
  · rw [pos, pos₁, List.length_append, Nat.add_assoc]
  · rw [region, region₁, pos₁, overwrite_append]

theorem put_nil (pos : s'.pos = s.pos) (short : s'.short = s.short) (region : s'.region = s.region) :
    Put f s s' [] := by
  intro complete
  rw [short] at complete
  refine ⟨complete, ?_, ?_⟩
  · rw [pos]
    rfl
  · rw [region, overwrite_nil]

theorem wrote_short_eq :
    (s.wrote f data count).short f = (s.short f || count != data.length) :=
  Function.update_self f _ s.short

theorem wrote_short (part : count ≠ data.length) : (s.wrote f data count).short f = true := by
  rw [wrote_short_eq, bne_iff_ne.mpr part, Bool.or_true]

theorem put_wrote (f : Fd) (s : Files) (data : Bytes) (count : Int) :
    Put f s (s.wrote f data count) data := by
  intro complete
  rw [wrote_short_eq, Bool.or_eq_false_iff, bne_eq_false_iff_eq] at complete
  obtain ⟨start, rfl⟩ := complete
  refine ⟨start, ?_, ?_⟩
  · exact (Function.update_self f _ s.pos).trans (by rw [Int.toNat_natCast])
  · rw [Files.wrote, Int.toNat_natCast, List.take_length]

end

section

variable {ok : (op : FileOp) → op.Res → Prop} (answers : Answers ok)

include answers

/-- A call comes back with one of its answers. -/
theorem ends_op (op : FileOp) (fault : op ≠ .fault) (more : op ≠ .more) (s : Files) :
    Prog.Ends (Allowed ok) (.call op .ret) (fun r s' => Allowed ok s op r s') s :=
  Prog.ends_call (answers s op fault more) fun _ _ => id

end

/-- With nothing asked of them all calls have answers. -/
theorem answers_any : Answers fun _ _ => True := by
  intro s op fault more
  cases op with
  | open_ f path =>
      cases f with
      | fdin => exact ⟨s.input.isSome, _, ⟨fun _ => rfl, rfl⟩, trivial⟩
      | fd => exact ⟨true, _, ⟨fun other => absurd other (by decide), rfl⟩, trivial⟩
      | fdout => exact ⟨true, _, ⟨fun other => absurd other (by decide), rfl⟩, trivial⟩
  | lseek f offset whence => exact ⟨-1, _, Or.inr ⟨rfl, rfl⟩, trivial⟩
  | read f count => exact ⟨none, _, Or.inl ⟨rfl, rfl⟩, trivial⟩
  | write f data =>
      have bound : (-1 : Int) ≤ data.length := by omega
      exact ⟨-1, _, ⟨Int.le_refl _, bound, rfl⟩, trivial⟩
  | addSpukCmdline str => exact ⟨str, s, rfl, trivial⟩
  | malloc size => exact ⟨true, s, rfl, trivial⟩
  | close f => exact ⟨(), s, rfl, trivial⟩
  | free => exact ⟨(), s, rfl, trivial⟩
  | enableBusmonitor bEnable => exact ⟨(), s, rfl, trivial⟩
  | enableDmcMpu bEnable => exact ⟨(), s, rfl, trivial⟩
  | fault => exact absurd rfl fault
  | more => exact absurd rfl more

end ModemControl.LoadFiles
