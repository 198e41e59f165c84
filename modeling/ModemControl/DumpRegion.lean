import ModemControl.Foundation.CString
import ModemControl.Foundation.Runs

/-! # The memory dump: modem_ctrl_dbg.c

`modem_dbg_dump_region` reads the memory of a region from its device until nothing remains.
As many bytes are asked for in the last round as in the first.
-/

namespace ModemControl.DumpRegion

open Foundation

def MAX_ONECE_READ_SIZE : BitVec 32 := 32 * 1024 * 1024
def MODEM_READ_ALL_MEM : BitVec 32 := 0xff
def MODEM_READ_MODEM_MEM : BitVec 32 := 0xfe

def ERROR_READ_FILE : Int := 4
def ERROR_WRITE_FILE : Int := 5
def ERROR_INVALID_INDEX : Int := 6

structure ModemRegionInfo where
  size : BitVec 32
  deriving Repr, DecidableEq

/-- `modem_load_info`, with the regions there are. -/
structure ModemLoadInfo where
  modemSize : BitVec 32
  allSize : BitVec 32
  regions : List ModemRegionInfo
  deriving Repr, DecidableEq

/-- The size for an index; nothing when it is invalid. -/
def regionSize (loadInfo : ModemLoadInfo) (index : BitVec 32) : Option (BitVec 32) :=
  if loadInfo.regions.length ≤ index.toNat ∧ index ≠ MODEM_READ_ALL_MEM ∧
      index ≠ MODEM_READ_MODEM_MEM then none
  else if index = MODEM_READ_ALL_MEM then some loadInfo.allSize
  else if index = MODEM_READ_MODEM_MEM then some loadInfo.modemSize
  else loadInfo.regions[index.toNat]?.map ModemRegionInfo.size

/-- `rsize`: that of the heap buffer, or of the one on the stack if there is no memory. -/
def readSize (size : BitVec 32) (malloc : Bool) : BitVec 32 :=
  if malloc then if size < MAX_ONECE_READ_SIZE then size else MAX_ONECE_READ_SIZE else 64 * 1024

/-- What `read` gives: the bytes it got, none at the end of the file, or -1. -/
inductive ReadResult where
  | data (got : Bytes)
  | error
  deriving Repr, DecidableEq

/-- One round of the loop: the read, and what `write` returns for these bytes. -/
structure Round where
  read : ReadResult
  wsize : Nat
  deriving Repr, DecidableEq

structure Dump where
  /-- What remains. -/
  size : BitVec 32
  file : Bytes := []
  running : Bool := true
  ret : Int := 0
  deriving Repr, DecidableEq

/-- One round; behind the last of them nothing is read. A read gets no more bytes than it
    asks for. -/
def dumpStep (rsize : BitVec 32) (s : Dump) (r : Round) : Option Dump :=
  if s.running = false then some s
  else match r.read with
    | .error => some { s with running := false, ret := ERROR_READ_FILE }
    | .data got =>
        if rsize.toNat < got.length then none
        else if got = [] then some { s with running := false }
        else if r.wsize ≠ got.length then
          some { s with file := s.file ++ got.take r.wsize, running := false, ret := ERROR_WRITE_FILE }
        else
          let size := s.size - BitVec.ofNat 32 got.length
          some { s with size := size, file := s.file ++ got, running := size != 0 }

/-- From the opened files on. -/
def dump (size : BitVec 32) (malloc : Bool) (rounds : List Round) : Option Dump :=
  run (dumpStep (readSize size malloc)) { size := size } rounds

/-- What is returned, and the file. -/
def modemDbgDumpRegion (loadInfo : ModemLoadInfo) (index : BitVec 32) (malloc : Bool)
    (openFiles : Int) (rounds : List Round) : Option (Int × Bytes) :=
  match regionSize loadInfo index with
  | none => some (ERROR_INVALID_INDEX, [])
  | some size =>
      if openFiles ≠ 0 then some (openFiles, [])
      else (dump size malloc rounds).map fun s => (s.ret, s.file)

/-- A write that takes all bytes. -/
def ReadResult.written : ReadResult → Round
  | .data got => ⟨.data got, got.length⟩
  | .error => ⟨.error, 0⟩

/-- The bytes up to the end of the file or an error. -/
def supplied : List ReadResult → Bytes
  | .data got :: rest => if got = [] then [] else got ++ supplied rest
  | _ => []

/-- The file is not longer than the region, and the counter says how much of it is still to
    come. -/
structure NoOverrun (size : BitVec 32) (s : Dump) : Prop where
  written : s.file.length ≤ size.toNat
  remain : s.size.toNat = size.toNat - s.file.length

/-- The dump at any time, and in the end. -/
structure DumpsRegion (size : BitVec 32) (malloc : Bool) (results : List ReadResult) (t : Dump) :
    Prop where
  inside : Throughout (dumpStep (readSize size malloc)) (NoOverrun size) { size := size }
    (results.map ReadResult.written)
  whole : size.toNat ≤ (supplied results).length → t.file = (supplied results).take size.toNat

/-- A read that is made gets no more than what remains. -/
def FitsRest (s : Dump) (r : Round) : Prop :=
  s.running = true → ∀ got, r.read = .data got → got.length ≤ s.size.toNat

instance (s : Dump) (r : Round) : Decidable (FitsRest s r) :=
  match found : r.read with
  | .error => .isTrue fun _ _ other => nomatch found.symm.trans other
  | .data bs => decidable_of_iff (s.running = true → bs.length ≤ s.size.toNat)
      ⟨fun fits running got same => by
          obtain rfl := ReadResult.data.inj (found.symm.trans same)
          exact fits running,
        fun fits running => fits running bs found⟩

section

variable {rsize size : BitVec 32} {s s' : Dump}

/-- What a round with a full write does. -/
theorem dumpStep_written {result : ReadResult} (taken : dumpStep rsize s result.written = some s') :
    s.running = false ∧ s' = s ∨
      s.running = true ∧
        ((∀ got, result = .data got → got = []) ∧ s'.running = false ∧ s'.file = s.file ∧ s'.size = s.size ∨
          ∃ got, result = .data got ∧ got ≠ [] ∧ got.length ≤ rsize.toNat ∧
            s' = { s with
              size := s.size - BitVec.ofNat 32 got.length
              file := s.file ++ got
              running := s.size - BitVec.ofNat 32 got.length != 0 }) := by
  unfold dumpStep at taken
  cases running : s.running with
  | false =>
      rw [if_pos running] at taken
      exact Or.inl ⟨rfl, (Option.some.inj taken).symm⟩
  | true =>
      rw [if_neg (by simp [running])] at taken
      refine Or.inr ⟨rfl, ?_⟩
      cases result with
      | error =>
          obtain rfl := Option.some.inj taken
          exact Or.inl ⟨nofun, rfl, rfl, rfl⟩
      | data got =>
          simp only [ReadResult.written, ne_eq, not_true_eq_false, if_false] at taken
          split at taken
          · cases taken
          · rename_i asked
            by_cases ends : got = []
            · rw [if_pos ends] at taken
              obtain rfl := Option.some.inj taken
              exact Or.inl ⟨fun _ same => ReadResult.data.inj same ▸ ends, rfl, rfl, rfl⟩
            · rw [if_neg ends] at taken
              exact Or.inr ⟨got, rfl, ends, Nat.le_of_not_lt asked, (Option.some.inj taken).symm⟩

theorem remain_sub {size : BitVec 32} {n : Nat} (fits : n ≤ size.toNat) :
    (size - BitVec.ofNat 32 n).toNat = size.toNat - n := by
  have small := size.isLt
  rw [BitVec.toNat_sub, BitVec.toNat_ofNat]
  omega

/-- One more round keeps the counter right exactly when its read fits. -/
theorem noOverrun_exact {s s' : Dump} {result : ReadResult} (before : NoOverrun size s)
    (taken : dumpStep rsize s result.written = some s') :
    NoOverrun size s' ↔ FitsRest s result.written := by
  obtain ⟨stopped, rfl⟩ | ⟨running, ⟨ends, _, file, rest⟩ | ⟨got, rfl, _, asked, rfl⟩⟩ :=
    dumpStep_written taken
  · refine iff_of_true before ?_
    intro running
    rw [stopped] at running
    cases running
  · refine iff_of_true ⟨?_, ?_⟩ ?_
    · rw [file]
      exact before.written
    · rw [file, rest]
      exact before.remain
    · intro _ got same
      cases result with
      | error => cases same
      | data bs =>
          obtain rfl := ReadResult.data.inj same
          rw [ends bs rfl]
          exact Nat.zero_le _
  · have remain := before.remain
    have written := before.written
    constructor
    · intro after _ bs same
      obtain rfl := ReadResult.data.inj same
      have longer := after.written
      rw [List.length_append] at longer
      omega
    · intro fits
      have rest := fits running got rfl
      constructor
      · rw [List.length_append]
        omega
      · dsimp only
        rw [remain_sub rest, List.length_append]
        omega

end

section

variable {rsize size : BitVec 32}

theorem supplied_data {got : Bytes} (some : got ≠ []) (rest : List ReadResult) :
    supplied (.data got :: rest) = got ++ supplied rest :=
  if_neg some

theorem supplied_end {result : ReadResult} (ends : ∀ got, result = .data got → got = [])
    (rest : List ReadResult) : supplied (result :: rest) = [] := by
  cases result with
  | error => rfl
  | data got => exact if_pos (ends got rfl)

/-- Behind the last round nothing is written. -/
theorem run_stopped {s t : Dump} (stopped : s.running = false) {rounds : List Round}
    (reached : run (dumpStep rsize) s rounds = some t) : t = s := by
  induction rounds with
  | nil => exact (Option.some.inj reached).symm
  | cons r rest ih =>
      obtain ⟨s', taken, later⟩ := run_cons reached
      rw [dumpStep, if_pos stopped] at taken
      obtain rfl := Option.some.inj taken
      exact ih later

/-- If all reads fit and enough is supplied, what remains is filled from its first bytes. -/
theorem run_whole {results : List ReadResult} {s t : Dump} (running : s.running = true)
    (fits : Along (dumpStep rsize) FitsRest s (results.map ReadResult.written))
    (reached : run (dumpStep rsize) s (results.map ReadResult.written) = some t)
    (enough : s.size.toNat ≤ (supplied results).length) :
    t.file = s.file ++ (supplied results).take s.size.toNat := by
  induction results generalizing s with
  | nil =>
      obtain rfl := Option.some.inj reached
      simp [supplied]
  | cons result rest ih =>
      obtain ⟨s', taken, later⟩ := run_cons reached
      obtain ⟨stopped, _⟩ | ⟨_, ⟨ends, stopped, file, _⟩ | ⟨got, rfl, some, _, rfl⟩⟩ :=
        dumpStep_written taken
      · rw [running] at stopped
        cases stopped
      · obtain rfl := run_stopped stopped later
        rw [supplied_end ends, file]
        simp
      · have room := fits.1 running got rfl
        have remain := remain_sub room
        rw [supplied_data some] at enough ⊢
        rw [List.take_append, List.take_of_length_le room, ← List.append_assoc]
        rw [List.length_append] at enough
        by_cases last : got.length = s.size.toNat
        · have done : s.size - BitVec.ofNat 32 got.length = 0#32 := by
            apply BitVec.eq_of_toNat_eq
            rw [remain, last]
            simp
          obtain rfl := run_stopped (by simp [done]) later
          simp [last]
        · have goesOn : (s.size - BitVec.ofNat 32 got.length != 0) = true := by
            rw [bne_iff_ne]
            intro zero
            rw [zero] at remain
            simp at remain
            omega
          have filled := ih goesOn (fits.2 _ taken) later (by dsimp only; omega)
          rw [filled]
          dsimp only
          rw [remain]

/-- For every size of a region and every sequence of read results with full writes: the dump
    never runs past its region exactly when no read gets more than what then remains. -/
theorem dumpsRegion_iff (size : BitVec 32) (malloc : Bool) (results : List ReadResult) (t : Dump)
    (reached : dump size malloc (results.map ReadResult.written) = some t) :
    DumpsRegion size malloc results t ↔
      Along (dumpStep (readSize size malloc)) FitsRest { size := size }
        (results.map ReadResult.written) := by
  have start : NoOverrun size { size := size } := ⟨Nat.zero_le _, rfl⟩
  have inside : Throughout (dumpStep (readSize size malloc)) (NoOverrun size) { size := size }
      (results.map ReadResult.written) ↔ Along (dumpStep (readSize size malloc)) FitsRest
        { size := size } (results.map ReadResult.written) := by
    apply throughout_iff_along_mem _ reached start
    intro r member s s' before taken
    obtain ⟨result, _, rfl⟩ := List.mem_map.mp member
    exact noOverrun_exact before taken
  constructor
  · intro dumps
    exact inside.mp dumps.inside
  · intro fits
    refine ⟨inside.mpr fits, ?_⟩
    intro enough
    have filled := run_whole rfl fits reached enough
    rwa [List.nil_append] at filled

/-- Four bytes in two reads. -/
theorem dumpsRegion_two : DumpsRegion 4 true [.data [1, 2, 3], .data [4]] ⟨0, [1, 2, 3, 4], false, 0⟩ :=
  (dumpsRegion_iff 4 true [.data [1, 2, 3], .data [4]] _ rfl).mpr (by decide)

/-- A short read, and then as many bytes as were asked for at first. -/
theorem short_read_overruns : ¬ ∀ (size : BitVec 32) (malloc : Bool) (results : List ReadResult)
    (t : Dump), dump size malloc (results.map ReadResult.written) = some t →
      DumpsRegion size malloc results t := by
  intro always
  have dumps := always 4 true [.data [1, 2, 3], .data [4, 5, 6, 7]] _ rfl
  have last := dumps.inside.last rfl
  exact absurd last.written (by decide)

/-- What the command returns and leaves in the file for an index, when all reads fit. -/
theorem modemDbgDumpRegion_whole {loadInfo : ModemLoadInfo} {index size : BitVec 32} {malloc : Bool}
    {results : List ReadResult} {ret : Int} {file : Bytes}
    (valid : regionSize loadInfo index = some size)
    (ended : modemDbgDumpRegion loadInfo index malloc 0 (results.map ReadResult.written) =
      some (ret, file))
    (fits : Along (dumpStep (readSize size malloc)) FitsRest { size := size }
      (results.map ReadResult.written)) (enough : size.toNat ≤ (supplied results).length) :
    file = (supplied results).take size.toNat := by
  rw [modemDbgDumpRegion, valid] at ended
  obtain ⟨t, reached, same⟩ := Option.map_eq_some_iff.mp ended
  obtain ⟨_, rfl⟩ := Prod.mk.inj same
  have filled := run_whole rfl fits reached enough
  rwa [List.nil_append] at filled

end

end ModemControl.DumpRegion
