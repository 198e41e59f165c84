import Mathlib.Logic.Function.Basic
import ModemControl.NvRead

/-! # The files under read_nv_partition

Two environments for the program. `Faulty` and `Torn` are the whole range: every call
may fail, reads and writes may be short, and power may go at any point, in the middle
of a write too; what is then left of a file is any prefix of what was to be written,
over whatever the file held. A `World` answers every read and write in full, and only
chooses which opens and allocations succeed; it is one of the faulty environments.
-/

namespace ModemControl.Nv

open Foundation

structure File where
  content : Bytes
  offset : Nat
  deriving Repr, DecidableEq

namespace File

def rewind (file : File) : File := { file with offset := 0 }

/-- What a read of `count` bytes finds. -/
def ahead (file : File) (count : Nat) : Bytes := (file.content.drop file.offset).take count

def advance (file : File) (n : Nat) : File := { file with offset := file.offset + n }

/-- The file after `data` is written at its offset; it grows where that is beyond its
    end. -/
def put (file : File) (data : Bytes) : File where
  content := file.content.take file.offset ++
    List.replicate (file.offset - file.content.length) 0 ++ data ++
    file.content.drop (file.offset + data.length)
  offset := file.offset + data.length

end File

abbrev Disk : Type := NvFile → File

def Disk.update (d : Disk) (f : NvFile) (change : File → File) : Disk :=
  Function.update d f (change (d f))

@[simp] theorem Disk.update_same (d : Disk) (f : NvFile) (change : File → File) :
    d.update f change f = change (d f) := by
  simp only [Disk.update, Function.update_self]

theorem Disk.update_other (d : Disk) {f g : NvFile} (other : g ≠ f) (change : File → File) :
    d.update f change g = d g := by
  simp only [Disk.update, Function.update_of_ne other]

@[simp] theorem Disk.update_update (d : Disk) (f : NvFile) (first second : File → File) :
    (d.update f first).update f second = d.update f (second ∘ first) := by
  simp only [Disk.update, Function.update_self, Function.update_idem, Function.comp]

theorem Disk.update_offset (d : Disk) (f : NvFile) :
    d.update f (fun file => ⟨file.content, (d f).offset⟩) = d :=
  Function.update_eq_self f d

theorem Disk.update_eq {d : Disk} {f : NvFile} {file : File} (here : d f = file)
    (change other : File → File) (same : change file = other file) :
    d.update f change = d.update f other := by
  rw [Disk.update, Disk.update, here, same]

/-- A change that keeps what a file holds keeps what every file holds. -/
theorem Disk.update_content (d : Disk) (f g : NvFile) (change : File → File)
    (keeps : (change (d f)).content = (d f).content) :
    (d.update f change g).content = (d g).content := by
  by_cases same : g = f
  · subst same
    rw [Disk.update_same, keeps]
  · rw [d.update_other same]

/-- What a call may do. An allocation of a negative size, which `malloc` sees as more
    than half of the address space, is never granted. -/
def Faulty (d : Disk) : (op : NvOp) → op.Res → Disk → Prop
  | .open_ f, ok, d' => d' = if ok then d.update f File.rewind else d
  | .read f count, got, d' =>
      match got with
      | some data => data <+: (d f).ahead count ∧ d' = d.update f (·.advance data.length)
      | none => d' = d
  | .malloc size _, ok, d' => (ok = true → 0 ≤ size) ∧ d' = d
  | .free _, _, d' => d' = d
  | .lseek f, _, d' => d' = d.update f File.rewind ∨ d' = d
  | .write f data, ret, d' => ∃ n ≤ data.length, (ret = n ∨ ret = -1) ∧
      d' = d.update f (·.put (data.take n))
  | .close _, _, d' => d' = d
  | .enableBusmonitor _, _, d' => d' = d
  | .enableDmcMpu _, _, d' => d' = d

/-- What a power loss in the middle of a call leaves. -/
def Torn (d : Disk) : NvOp → Disk → Prop
  | .write f data, d' => ∃ n ≤ data.length, d' = d.update f (·.put (data.take n))
  | _, d' => d' = d

abbrev NvTrace : Type := List (Event NvOp NvOp.Res)

abbrev NvRuns {α : Type} (p : NvProg α) (d : Disk) (trace : NvTrace) (d' : Disk)
    (out : Option α) : Prop :=
  Prog.Runs Faulty Torn p d trace d' out

structure World where
  opens : NvFile → Bool
  allocates : NvFile → Nat → Bool

def World.answer (w : World) (d : Disk) : (op : NvOp) → op.Res × Disk
  | .open_ f => (w.opens f, if w.opens f then d.update f File.rewind else d)
  | .read f count =>
      (some ((d f).ahead count), d.update f (·.advance ((d f).ahead count).length))
  | .malloc size f => (decide (0 ≤ size) && w.allocates f size.toNat, d)
  | .free _ => ((), d)
  | .lseek f => ((), d.update f File.rewind)
  | .write f data => ((data.length : Int), d.update f (·.put data))
  | .close _ => ((), d)
  | .enableBusmonitor _ => ((), d)
  | .enableDmcMpu _ => ((), d)

theorem answer_faulty (w : World) (d : Disk) (op : NvOp) :
    Faulty d op (w.answer d op).1 (w.answer d op).2 := by
  cases op with
  | open_ f => rfl
  | read f count => exact ⟨List.prefix_refl _, rfl⟩
  | malloc size f =>
      refine ⟨?_, rfl⟩
      intro granted
      simp only [World.answer, Bool.and_eq_true, decide_eq_true_eq] at granted
      exact granted.1
  | free f => rfl
  | lseek f => exact Or.inl rfl
  | write f data => exact ⟨data.length, le_refl _, Or.inl rfl, by rw [List.take_length]; rfl⟩
  | close f => rfl
  | enableBusmonitor on => rfl
  | enableDmcMpu on => rfl

/-- The run of a program in a world is one of its runs under faults. -/
theorem runs_world {α : Type} (w : World) (p : NvProg α) (d : Disk) :
    NvRuns p d (p.run w.answer d).1 (p.run w.answer d).2.1 (some (p.run w.answer d).2.2) :=
  Prog.runs_run (answer_faulty w) p d

def allGranted : World := ⟨fun _ => true, fun _ _ => true⟩

/-- A file with the two-byte payload 1, 2. -/
def goodFile : Bytes :=
  [0x56, 0x4e, 0, 0, 2, 0, 0, 0, 0xfe, 0xfd, 0, 0] ++ List.replicate 500 0 ++ [1, 2]

def diskOf (path bak : Bytes) : Disk
  | .path => ⟨path, 0⟩
  | .bakPath => ⟨bak, 0⟩
  | .pathOut => ⟨[], 0⟩

end ModemControl.Nv
