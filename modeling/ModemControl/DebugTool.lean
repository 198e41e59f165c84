import ModemControl.DumpRegion
import ModemControl.Foundation.Monitor
import ModemControl.Foundation.Strtoul
import ModemControl.RegionInfo

/-! # The debug tool: modem_ctrl_dbg.c

The command prints the regions of a subsystem, or dumps one of them into a file. It shares the
devices with the loader, so what it locks, opens and selects there is followed call by call.
Its messages are left out, the two tables that it prints are calls.
-/

namespace ModemControl.DebugTool

open Foundation DumpRegion RegionInfo
open ListenModem (Variant)

inductive System where
  | cp
  | sp
  | dp
  deriving Repr, DecidableEq

inductive Action where
  | help
  | getInfo
  | dumpMemory
  deriving Repr, DecidableEq

def INVALID_INDEX : BitVec 32 := 0xFFFF

/-- `modem_cmd`; `MODEM_CNT` is no system. -/
structure ModemCmd where
  action : Action := .help
  system : Option System := none
  index : BitVec 32 := INVALID_INDEX
  deriving Repr, DecidableEq

/-- `strtol` with base 10: the number that the text begins with, or nothing when `errno` is
    set. -/
def strtol (str : Bytes) : Option Int :=
  let (negative, text) := sign (str.dropWhile isSpace)
  let n : Int := ofDigits 10 (digits 10 text)
  let value := if negative then -n else n
  if -0x8000000000000000 ≤ value ∧ value < 0x8000000000000000 then some value else none

def action (arg : Bytes) : Action :=
  if arg = bytes "dump" then .dumpMemory else if arg = bytes "get" then .getInfo else .help

def system (arg : Bytes) : Option System :=
  if arg = bytes "cp" then some .cp
  else if arg = bytes "sp" then some .sp
  else if arg = bytes "dp" then some .dp
  else none

/-- The arguments behind the name of the command. -/
def parseArgs (args : List Bytes) : ModemCmd where
  action := (args[0]?.map action).getD .help
  system := args[1]?.bind system
  index := ((args[2]?.bind strtol).map (BitVec.ofInt 32)).getD INVALID_INDEX

/-- The calls. `more` stands for the rounds of the dump beyond those a run is looked at for. -/
inductive DbgOp where
  | usage
  | printInfo (system : System) (info : RegionInfo.ModemLoadInfo)
  | lockRead (path : Bytes)
  | unlockRead (path : Bytes)
  | lockWrite (path : Bytes)
  | unlockWrite (path : Bytes)
  | getLoadInfo (path : Bytes)
  | setReadRegion (path : Bytes) (region : BitVec 32)
  | malloc (size : BitVec 32)
  | free
  | mkdir (path : Bytes)
  | openIn (path : Bytes)
  | openOut (path : Bytes)
  | read (count : BitVec 32)
  | write (data : Bytes)
  | closeIn
  | closeOut
  | more
  deriving DecidableEq

/-- `getLoadInfo` answers its result and what it leaves in the load info, `mkdir` whether the
    directory is there, `malloc` and the opens whether they succeed, `read` the bytes it got
    and nothing for -1. -/
abbrev DbgOp.Res : DbgOp → Type
  | .lockRead _ | .unlockRead _ | .lockWrite _ | .unlockWrite _ | .setReadRegion _ _ | .write _ => Int
  | .getLoadInfo _ => Int × RegionInfo.ModemLoadInfo
  | .malloc _ | .mkdir _ | .openIn _ | .openOut _ => Bool
  | .read _ => Option Bytes
  | .usage | .printInfo _ _ | .free | .closeIn | .closeOut => Unit
  | .more => Empty

abbrev DbgProg (α : Type) : Type := Prog DbgOp DbgOp.Res α

def call (op : DbgOp) : DbgProg op.Res := .call op .ret

def more {α : Type} : DbgProg α := .call .more Empty.elim

def ERROR_OPEN_DIR : Int := 1
def ERROR_OPEN_READ_FILE : Int := 2
def ERROR_OPEN_WRITE_FILE : Int := 3
def ERROR_UNDEFINE_SYSTEM : Int := 7
def ERROR_GET_LOAD_INFO : Int := 9

def MODEM_STORE_PATH : Bytes := bytes "/data/modem_dump/"

/-- The paths as they are written there: the one of the sp is relative. -/
def devPath : System → Bytes
  | .cp => bytes "/dev/modem"
  | .sp => bytes "dev/pmsys"
  | .dp => bytes "/dev/dpsys"

def getLoadInfo (path : Bytes) : DbgProg (Int × RegionInfo.ModemLoadInfo) := do
  let _ ← call (.lockRead path)
  let answer ← call (.getLoadInfo path)
  let _ ← call (.unlockRead path)
  return answer

/-- The sum of the results, and the load infos of the systems there are. -/
def initLoadInfo (v : Variant) : DbgProg (Int × (System → Option RegionInfo.ModemLoadInfo)) := do
  let (cpRet, cp) ← getLoadInfo (devPath .cp)
  let (spRet, sp) ← getLoadInfo (devPath .sp)
  match v with
  | .internal => return (cpRet + spRet, fun
      | .cp => some cp
      | .sp => some sp
      | .dp => none)
  | .external => do
      let (dpRet, dp) ← getLoadInfo (devPath .dp)
      return (cpRet + spRet + dpRet, fun
        | .cp => some cp
        | .sp => some sp
        | .dp => some dp)

def sizes (info : RegionInfo.ModemLoadInfo) : DumpRegion.ModemLoadInfo where
  modemSize := info.modemSize
  allSize := info.allSize
  regions := info.regions.map fun r => ⟨r.size⟩

def regionName (info : RegionInfo.ModemLoadInfo) (index : BitVec 32) : Bytes :=
  if index = MODEM_READ_ALL_MEM then bytes "all"
  else if index = MODEM_READ_MODEM_MEM then bytes "all_modem"
  else (info.regions[index.toNat]?.map RegionInfo.ModemRegionInfo.name).getD []

def wrPath (name : Bytes) : Bytes :=
  (MODEM_STORE_PATH ++ name ++ bytes ".mem").take Load.MAX_PATH_LEN

def modemDbgOpenFiles (rdPath wrPath : Bytes) : DbgProg Int := do
  if ← call (.mkdir MODEM_STORE_PATH) then
    if ← call (.openIn rdPath) then
      if ← call (.openOut wrPath) then return 0
      else
        call .closeIn
        return ERROR_OPEN_WRITE_FILE
    else return ERROR_OPEN_READ_FILE
  else return ERROR_OPEN_DIR

/-- The loop, for at most this many rounds, with what becomes of `ret`. -/
def dumpLoop (rsize : BitVec 32) : Nat → BitVec 32 → DbgProg Int
  | 0, _ => more
  | rounds + 1, size => do
      match ← call (.read rsize) with
      | none => return ERROR_READ_FILE
      | some [] => return 0
      | some got =>
          let wsize ← call (.write got)
          if wsize ≠ (got.length : Int) then return ERROR_WRITE_FILE
          else if size - BitVec.ofNat 32 got.length = 0 then return 0
          else dumpLoop rsize rounds (size - BitVec.ofNat 32 got.length)

/-- From the opened files on. -/
def dumpFiles (rounds : Nat) (heap : Bool) (size index : BitVec 32) (rdPath : Bytes) :
    DbgProg Int := do
  let _ ← call (.lockWrite rdPath)
  let _ ← call (.setReadRegion rdPath index)
  let _ ← call (.unlockWrite rdPath)
  let _ ← call (.lockRead rdPath)
  let ret ← dumpLoop (readSize size heap) rounds size
  let _ ← call (.unlockRead rdPath)
  Prog.when heap (call .free)
  call .closeIn
  call .closeOut
  return ret

def modemDbgDumpRegion (rounds : Nat) (info : RegionInfo.ModemLoadInfo) (index : BitVec 32)
    (rdPath : Bytes) : DbgProg Int :=
  match regionSize (sizes info) index with
  | none => return ERROR_INVALID_INDEX
  | some size => do
      let heap ← call (.malloc (readSize size true))
      let ret ← modemDbgOpenFiles rdPath (wrPath (regionName info index))
      if ret ≠ 0 then
        Prog.when heap (call .free)
        return ret
      else dumpFiles rounds heap size index rdPath

/-- What is done when the load infos are there. -/
def procSystem (rounds : Nat) (cmd : ModemCmd) (system : System)
    (info : RegionInfo.ModemLoadInfo) : DbgProg Int := do
  if cmd.action = .getInfo then
    call (.printInfo system info)
    return 0
  else modemDbgDumpRegion rounds info cmd.index (devPath system)

def modemDbgProc (v : Variant) (rounds : Nat) (cmd : ModemCmd) : DbgProg Int := do
  if cmd.action = .help then
    call .usage
    return 0
  else
    match cmd.system with
    | none => return ERROR_INVALID_INDEX
    | some system =>
        if cmd.action = .dumpMemory ∧ cmd.index = INVALID_INDEX then return ERROR_INVALID_INDEX
        else
          let (ret, infos) ← initLoadInfo v
          if ret ≠ 0 then return ERROR_GET_LOAD_INFO
          else
            match infos system with
            | none => return ERROR_UNDEFINE_SYSTEM
            | some info => procSystem rounds cmd system info

def main (v : Variant) (rounds : Nat) (args : List Bytes) : DbgProg Int :=
  modemDbgProc v rounds (parseArgs args)

inductive Lock where
  | read (path : Bytes)
  | write (path : Bytes)
  deriving Repr, DecidableEq

/-- What the command has taken and not given back, what it has asked of the devices, and the
    load infos that its questions have left. Devices may refuse, and only 0 is a success: a
    lock is held, given back and a region selected when the call for it answers that. -/
structure Held where
  /-- The lock that was asked for and not asked back, and whether it was granted. -/
  asked : Option Lock := none
  granted : Bool := false
  locks : List Lock := []
  /-- The locks that were asked back and refused. -/
  stuck : List Lock := []
  heap : Option (BitVec 32) := none
  input : Option Bytes := none
  output : Bool := false
  /-- The region that was chosen last, whether the device took it, and the selected one. -/
  chosen : Option (Bytes × BitVec 32) := none
  took : Bool := false
  region : Option (Bytes × BitVec 32) := none
  infos : List (Bytes × RegionInfo.ModemLoadInfo) := []
  deriving DecidableEq

/-- No lock is asked for, and none is held but those that could not be given back. -/
structure Held.Free (h : Held) : Prop where
  asked : h.asked = none
  locks : h.locks.Subperm h.stuck

/-- Between the calls for a lock. It is held then if it was granted. -/
structure Held.Under (h : Held) (l : Lock) : Prop where
  asked : h.asked = some l
  granted : h.granted = true → l ∈ h.locks
  locks : h.locks.Subperm (l :: h.stuck)

/-- The region was chosen, and is the selected one if the device took it. -/
structure Held.Chosen (h : Held) (path : Bytes) (region : BitVec 32) : Prop where
  chosen : h.chosen = some (path, region)
  selected : h.took = true → h.region = some (path, region)

/-- Nothing is left behind. -/
structure Held.Released (h : Held) : Prop where
  free : h.Free
  heap : h.heap = none
  input : h.input = none
  output : h.output = false

/-- What there is room for in the buffer that is read into. -/
def Held.room (h : Held) : BitVec 32 := h.heap.getD (64 * 1024)

def Held.take (h : Held) (l : Lock) (r : Int) : Held :=
  { h with
    asked := some l
    granted := r = 0
    locks := if r = 0 then l :: h.locks else h.locks }

def Held.give (h : Held) (l : Lock) (r : Int) : Held :=
  { h with
    asked := none
    locks := if r = 0 then h.locks.erase l else h.locks
    stuck := if r = 0 then h.stuck else l :: h.stuck }

def Held.choose (h : Held) (path : Bytes) (region : BitVec 32) (r : Int) : Held :=
  { h with
    chosen := some (path, region)
    took := r = 0
    region := if r = 0 then some (path, region) else h.region }

def Held.next (h : Held) : (op : DbgOp) → op.Res → Held
  | .lockRead path, r => h.take (.read path) r
  | .lockWrite path, r => h.take (.write path) r
  | .unlockRead path, r => h.give (.read path) r
  | .unlockWrite path, r => h.give (.write path) r
  | .getLoadInfo path, answer => { h with infos := (path, answer.2) :: h.infos }
  | .setReadRegion path region, r => h.choose path region r
  | .malloc size, done => if done then { h with heap := some size } else h
  | .free, _ => { h with heap := none }
  | .openIn path, opened => if opened then { h with input := some path } else h
  | .openOut _, opened => if opened then { h with output := true } else h
  | .closeIn, _ => { h with input := none }
  | .closeOut, _ => { h with output := false }
  | _, _ => h

/-- A device is asked for its load info between the calls for its read lock, and told of a
    region between those for its write lock, of a region that it has answered itself. What is
    read is the region that was chosen in this device, between the calls for its read lock,
    and fits the buffer. Only what was taken is given back, and nothing is taken twice. -/
def Held.Lets (h : Held) : DbgOp → Prop
  | .lockRead _ | .lockWrite _ => h.Free
  | .unlockRead path | .getLoadInfo path => h.Under (.read path)
  | .unlockWrite path => h.Under (.write path)
  | .setReadRegion path region => h.Under (.write path) ∧
      ∃ info, (path, info) ∈ h.infos ∧ (regionSize (sizes info) region).isSome
  | .malloc _ => h.heap = none
  | .free => h.heap.isSome
  | .openIn _ => h.input = none
  | .openOut _ => h.output = false
  | .closeIn => h.input.isSome
  | .closeOut => h.output = true
  | .read count => ∃ path region, h.input = some path ∧ h.Under (.read path) ∧
      h.Chosen path region ∧ count ≤ h.room
  | .write _ => h.output = true
  | _ => True

def discipline : Monitor DbgOp DbgOp.Res Held where
  next := Held.next
  ok := Held.Lets

section

variable {h : Held}

theorem Held.Free.take (free : h.Free) (l : Lock) (r : Int) : (h.take l r).Under l := by
  refine ⟨rfl, ?_, ?_⟩
  · intro granted
    have done : r = 0 := of_decide_eq_true granted
    simp [Held.take, done]
  · unfold Held.take
    dsimp only
    split
    · exact (List.subperm_cons l).mpr free.locks
    · exact free.locks.cons_right l

theorem Held.Under.give {l : Lock} (under : h.Under l) (r : Int) : (h.give l r).Free := by
  refine ⟨rfl, ?_⟩
  unfold Held.give
  dsimp only
  split
  · simpa using under.locks.erase l
  · exact under.locks

/-- A choice leaves the locks alone. -/
theorem Held.Under.choose {l : Lock} (under : h.Under l) (path : Bytes) (region : BitVec 32)
    (r : Int) : (h.choose path region r).Under l :=
  ⟨under.asked, under.granted, under.locks⟩

theorem Held.choose_chosen (h : Held) (path : Bytes) (region : BitVec 32) (r : Int) :
    (h.choose path region r).Chosen path region := by
  refine ⟨rfl, ?_⟩
  intro took
  exact if_pos (of_decide_eq_true took)

theorem getLoadInfo_held (path : Bytes) (released : h.Released) :
    (getLoadInfo path).Meets discipline
      (fun answer h' => h'.Released ∧ h'.infos = (path, answer.2) :: h.infos) h := by
  apply Prog.Meets.call released.free
  intro locked
  have under := released.free.take (.read path) locked
  apply Prog.Meets.call under
  intro answer
  apply Prog.Meets.call
  · exact ⟨under.asked, under.granted, under.locks⟩
  intro unlocked
  have free := under.give unlocked
  exact ⟨⟨⟨free.asked, free.locks⟩, released.heap, released.input, released.output⟩, rfl⟩

/-- Every load info comes from the device of its system. -/
theorem initLoadInfo_held (v : Variant) (released : h.Released) :
    (initLoadInfo v).Meets discipline
      (fun answer h' => h'.Released ∧ ∀ system info, answer.2 system = some info →
        (devPath system, info) ∈ h'.infos) h := by
  apply (getLoadInfo_held (devPath .cp) released).bind
  intro cp h₁ asked
  obtain ⟨released₁, infos₁⟩ := asked
  apply (getLoadInfo_held (devPath .sp) released₁).bind
  intro sp h₂ asked
  obtain ⟨released₂, infos₂⟩ := asked
  cases v with
  | internal =>
      refine ⟨released₂, ?_⟩
      intro system info found
      rw [infos₂, infos₁]
      cases system with
      | cp => simp_all
      | sp => simp_all
      | dp => cases found
  | external =>
      apply (getLoadInfo_held (devPath .dp) released₂).bind
      intro dp h₃ asked
      obtain ⟨released₃, infos₃⟩ := asked
      refine ⟨released₃, ?_⟩
      intro system info found
      rw [infos₃, infos₂, infos₁]
      cases system <;> simp_all

/-- Both files are open, or neither is. -/
theorem modemDbgOpenFiles_held (rdPath wrPath : Bytes) (input : h.input = none)
    (output : h.output = false) :
    (modemDbgOpenFiles rdPath wrPath).Meets discipline
      (fun ret h' => if ret = 0 then h' = { h with input := some rdPath, output := true }
        else h' = h) h := by
  apply Prog.Meets.call trivial
  intro made
  cases made with
  | false => exact rfl
  | true =>
      apply Prog.Meets.call input
      intro openedIn
      cases openedIn with
      | false => exact rfl
      | true =>
          apply Prog.Meets.call output
          intro openedOut
          cases openedOut with
          | true => exact rfl
          | false =>
              apply Prog.Meets.call rfl
              intro _
              simp only [discipline, Held.next]
              rw [← input]
              rfl

/-- The loop reads and writes, and changes nothing of what is held. -/
theorem dumpLoop_held {rsize : BitVec 32} (reads : h.Lets (.read rsize)) (output : h.output = true)
    (rounds : Nat) (size : BitVec 32) :
    (dumpLoop rsize rounds size).Meets discipline (fun _ h' => h' = h) h := by
  apply Prog.Calls.meets_same
  induction rounds generalizing size with
  | zero => exact ⟨⟨trivial, nofun⟩, nofun⟩
  | succ rounds ih =>
      unfold dumpLoop
      apply Prog.Calls.call ⟨reads, fun _ => rfl⟩
      intro got
      match got with
      | none => trivial
      | some [] => trivial
      | some (byte :: rest) =>
          apply Prog.Calls.call ⟨output, fun _ => rfl⟩
          intro wsize
          split
          · trivial
          · split
            · trivial
            · exact ih _

theorem free_held (heap : Bool) (held : h.heap.isSome = heap) :
    (Prog.when heap (call .free)).Meets discipline (fun _ h' => h' = { h with heap := none }) h := by
  apply Prog.Meets.when
  · intro taken
    exact ⟨held.trans taken, fun _ => rfl⟩
  · intro skipped
    have none : h.heap = none := by
      rw [← Option.not_isSome_iff_eq_none, held, skipped]
      exact Bool.false_ne_true
    rw [← none]

/-- From the opened files on. -/
theorem dumpFiles_held (rounds : Nat) {info : RegionInfo.ModemLoadInfo} {index size : BitVec 32}
    {rdPath : Bytes} (heap : Bool) (free : h.Free) (input : h.input = some rdPath)
    (output : h.output = true) (known : (rdPath, info) ∈ h.infos)
    (valid : regionSize (sizes info) index = some size) (hasHeap : h.heap.isSome = heap)
    (room : readSize size heap ≤ h.room) :
    (dumpFiles rounds heap size index rdPath).Meets discipline (fun _ h' => h'.Released) h := by
  apply Prog.Meets.call free
  intro locked
  have under := free.take (.write rdPath) locked
  apply Prog.Meets.call
  · exact ⟨under, info, known, Option.isSome_of_eq_some valid⟩
  intro took
  have chosen := (h.take (.write rdPath) locked).choose_chosen rdPath index took
  have still := under.choose rdPath index took
  apply Prog.Meets.call still
  intro unlocked
  have free₁ := still.give unlocked
  apply Prog.Meets.call free₁
  intro lockedAgain
  have reading := free₁.take (.read rdPath) lockedAgain
  have reads : (((h.take (.write rdPath) locked).choose rdPath index took).give (.write rdPath)
      unlocked |>.take (.read rdPath) lockedAgain).Lets (.read (readSize size heap)) :=
    ⟨rdPath, index, input, reading, ⟨chosen.chosen, chosen.selected⟩, room⟩
  apply (dumpLoop_held reads output rounds size).bind
  intro ret h₁ same
  subst same
  apply Prog.Meets.call reading
  intro unlocked
  have free₂ := reading.give unlocked
  apply (free_held heap (by exact hasHeap)).bind
  intro _ h₂ freed
  subst freed
  apply Prog.Meets.call (by exact Option.isSome_of_eq_some input)
  intro _
  apply Prog.Meets.call (by exact output)
  intro _
  exact ⟨⟨free₂.asked, free₂.locks⟩, rfl, rfl, rfl⟩

theorem modemDbgDumpRegion_held (rounds : Nat) {info : RegionInfo.ModemLoadInfo} (index : BitVec 32)
    {rdPath : Bytes} (released : h.Released) (known : (rdPath, info) ∈ h.infos) :
    (modemDbgDumpRegion rounds info index rdPath).Meets discipline (fun _ h' => h'.Released) h := by
  obtain ⟨free, noHeap, input, output⟩ := released
  unfold modemDbgDumpRegion
  cases valid : regionSize (sizes info) index with
  | none => exact ⟨free, noHeap, input, output⟩
  | some size =>
      apply Prog.Meets.call noHeap
      intro heap
      obtain ⟨h₁, same⟩ : ∃ h₁, h₁ = Held.next h (.malloc (readSize size true)) heap := ⟨_, rfl⟩
      have allocated : h₁.heap = if heap then some (readSize size true) else none := by
        rw [same]
        cases heap
        · exact noHeap
        · rfl
      have rest : h₁.Free ∧ h₁.input = none ∧ h₁.output = false ∧ h₁.infos = h.infos := by
        rw [same]
        cases heap <;> exact ⟨⟨free.asked, free.locks⟩, input, output, rfl⟩
      obtain ⟨free₁, input₁, output₁, infos₁⟩ := rest
      have hasHeap : h₁.heap.isSome = heap := by
        rw [allocated]
        cases heap <;> rfl
      have room : readSize size heap ≤ h₁.room := by
        rw [Held.room, allocated]
        cases heap <;> exact BitVec.le_refl _
      change Prog.Meets discipline _ _ (Held.next h (.malloc (readSize size true)) heap)
      rw [← same]
      apply (modemDbgOpenFiles_held rdPath _ input₁ output₁).bind
      intro ret h₂ opened
      split
      · rename_i failed
        rw [if_neg failed] at opened
        subst opened
        apply (free_held heap hasHeap).bind
        intro _ h₃ freed
        subst freed
        exact ⟨⟨free₁.asked, free₁.locks⟩, rfl, input₁, output₁⟩
      · rename_i succeeded
        rw [if_pos (not_not.mp succeeded)] at opened
        subst opened
        rw [← infos₁] at known
        apply dumpFiles_held rounds heap
        · exact ⟨free₁.asked, free₁.locks⟩
        · rfl
        · rfl
        · exact known
        · exact valid
        · exact hasHeap
        · exact room

end

/-- Whatever the arguments and the answers are, the command keeps to the discipline, and when
    it returns nothing is left open or allocated, and no lock held but those that a device has
    not taken back. -/
theorem command_disciplined (v : Variant) (rounds : Nat) (args : List Bytes) :
    (main v rounds args).Meets discipline (fun _ h => h.Released) {} := by
  have start : ({} : Held).Released := ⟨⟨rfl, List.Subperm.refl _⟩, rfl, rfl, rfl⟩
  unfold main modemDbgProc
  split
  · exact ⟨trivial, fun _ => start⟩
  · split
    · exact start
    · rename_i system _
      split
      · exact start
      · apply (initLoadInfo_held v start).bind
        intro answer h answered
        obtain ⟨released, known⟩ := answered
        obtain ⟨ret, infos⟩ := answer
        dsimp only
        split
        · exact released
        · split
          · exact released
          · rename_i info found
            unfold procSystem
            split
            · exact ⟨trivial, fun _ => released⟩
            · exact modemDbgDumpRegion_held rounds _ released (known system info found)

/-- The calls of a round, with their answers. -/
def roundCalls (rsize : BitVec 32) (r : Round) : List (Event DbgOp DbgOp.Res) :=
  match r.read with
  | .error => [⟨.read rsize, some none⟩]
  | .data got =>
      if got = [] then [⟨.read rsize, some (some [])⟩]
      else [⟨.read rsize, some (some got)⟩, ⟨.write got, some (r.wsize : Int)⟩]

/-- One round is one pass of the loop. The last of them ends it, and any other leaves it with
    what remains. -/
theorem dumpLoop_round {rsize : BitVec 32} {s s' : Dump} {r : Round}
    (taken : dumpStep rsize s r = some s') (running : s.running = true) (start : s.ret = 0)
    (n : Nat) :
    if s'.running then s'.ret = 0 ∧ ∀ rest,
      (dumpLoop rsize (n + 1) s.size).follow (roundCalls rsize r ++ rest) =
        (dumpLoop rsize n s'.size).follow rest
    else (dumpLoop rsize (n + 1) s.size).follow (roundCalls rsize r) = some s'.ret := by
  unfold dumpStep at taken
  rw [if_neg (by simp [running])] at taken
  rw [roundCalls, dumpLoop]
  cases read : r.read with
  | error =>
      rw [read] at taken
      obtain rfl := Option.some.inj taken
      exact @Prog.follow_call _ DbgOp.Res _ _ (DbgOp.read rsize) none _ _
  | data got =>
      rw [read] at taken
      simp only at taken
      split at taken
      · cases taken
      · split at taken
        · rename_i nothing
          obtain rfl := Option.some.inj taken
          simp only [nothing, if_true, Bool.false_eq_true, if_false]
          rw [call, Prog.follow_call]
          exact congrArg some start.symm
        · rename_i something
          obtain ⟨byte, more, rfl⟩ := List.exists_cons_of_ne_nil something
          dsimp only
          rw [if_neg something]
          simp only [List.cons_append, List.nil_append, call, Prog.follow_call]
          split at taken
          · rename_i part
            obtain rfl := Option.some.inj taken
            have differs : ((r.wsize : Nat) : Int) ≠ (byte :: more).length :=
              fun same => part (Int.ofNat.inj same)
            rw [if_neg Bool.false_ne_true, if_pos differs]
            rfl
          · rename_i whole
            obtain rfl := Option.some.inj taken
            have same : ¬ ((r.wsize : Nat) : Int) ≠ (byte :: more).length :=
              not_not_intro (congrArg Int.ofNat (not_not.mp whole))
            simp only [if_neg same]
            by_cases done : s.size - BitVec.ofNat 32 (byte :: more).length = 0
            · simp only [done, bne_self_eq_false, Bool.false_eq_true, if_false, if_true]
              exact congrArg some start.symm
            · simp only [bne_iff_ne.mpr done, if_true, if_neg done]
              exact ⟨start, fun _ => trivial⟩

/-- The rounds of a dump are the calls of the loop: it comes to its end with them, and returns
    what they come to. -/
theorem dumpLoop_rounds {rsize : BitVec 32} {rounds : List Round} {s t : Dump} {n : Nat}
    (reached : run (dumpStep rsize) s rounds = some t) (ended : t.running = false)
    (made : Along (dumpStep rsize) (fun s _ => s.running = true) s rounds)
    (running : s.running = true) (start : s.ret = 0) (enough : rounds.length ≤ n) :
    (dumpLoop rsize n s.size).follow (rounds.flatMap (roundCalls rsize)) = some t.ret := by
  induction rounds generalizing s n with
  | nil =>
      obtain rfl := Option.some.inj reached
      rw [running] at ended
      cases ended
  | cons r rest ih =>
      obtain ⟨n, rfl⟩ : ∃ k, n = k + 1 := ⟨n - 1, by simp at enough; omega⟩
      obtain ⟨s', taken, later⟩ := run_cons reached
      have behind := made.2 s' taken
      have round := dumpLoop_round taken running start n
      rw [List.flatMap_cons]
      cases goesOn : s'.running with
      | true =>
          rw [goesOn, if_pos rfl] at round
          rw [round.2]
          exact ih later behind goesOn round.1 (by simpa using enough)
      | false =>
          rw [goesOn, if_neg Bool.false_ne_true] at round
          -- a round that stops is the last one
          cases rest with
          | nil =>
              obtain rfl := Option.some.inj later
              rw [List.flatMap_nil, List.append_nil]
              exact round
          | cons r' rest =>
              have running' : s'.running = true := behind.1
              rw [goesOn] at running'
              cases running'

/-- What a run of calls writes, as far as the writes take it. -/
def written (calls : List (Event DbgOp DbgOp.Res)) : Bytes :=
  calls.flatMap fun e =>
    match e with
    | ⟨.write data, some wsize⟩ => data.take wsize.toNat
    | _ => []

theorem written_append (calls rest : List (Event DbgOp DbgOp.Res)) :
    written (calls ++ rest) = written calls ++ written rest :=
  List.flatMap_append

/-- What a round adds to the file is what its calls write. -/
theorem written_round {rsize : BitVec 32} {s s' : Dump} {r : Round}
    (taken : dumpStep rsize s r = some s') (running : s.running = true) :
    s'.file = s.file ++ written (roundCalls rsize r) := by
  unfold dumpStep at taken
  rw [if_neg (by simp [running])] at taken
  unfold roundCalls
  cases read : r.read with
  | error =>
      rw [read] at taken
      obtain rfl := Option.some.inj taken
      simp [written]
  | data got =>
      rw [read] at taken
      dsimp only at taken ⊢
      split at taken
      · cases taken
      · split at taken
        · rename_i nothing
          obtain rfl := Option.some.inj taken
          simp [nothing, written]
        · rename_i something
          rw [if_neg something]
          split at taken
          · obtain rfl := Option.some.inj taken
            simp [written]
          · rename_i whole
            obtain rfl := Option.some.inj taken
            simp [written, not_not.mp whole]

theorem written_rounds {rsize : BitVec 32} {rounds : List Round} {s t : Dump}
    (reached : run (dumpStep rsize) s rounds = some t)
    (made : Along (dumpStep rsize) (fun s _ => s.running = true) s rounds) :
    t.file = s.file ++ written (rounds.flatMap (roundCalls rsize)) := by
  induction rounds generalizing s with
  | nil =>
      obtain rfl := Option.some.inj reached
      simp [written]
  | cons r rest ih =>
      obtain ⟨s', taken, later⟩ := run_cons reached
      rw [ih later (made.2 s' taken), written_round taken made.1, List.flatMap_cons, written_append,
        List.append_assoc]

/-- The answers to the calls for the locks and the region. -/
structure DeviceAnswers where
  lockWrite : Int
  setReadRegion : Int
  unlockWrite : Int
  lockRead : Int
  unlockRead : Int
  deriving Repr, DecidableEq

def openCalls (rdPath wrPath : Bytes) : List (Event DbgOp DbgOp.Res) :=
  [⟨.mkdir MODEM_STORE_PATH, some true⟩, ⟨.openIn rdPath, some true⟩, ⟨.openOut wrPath, some true⟩]

def freeCalls (heap : Bool) : List (Event DbgOp DbgOp.Res) :=
  if heap then [⟨.free, some ()⟩] else []

/-- The calls of a dump whose files open. -/
def dumpCalls (d : DeviceAnswers) (heap : Bool) (size index : BitVec 32) (rdPath wrPath : Bytes)
    (rounds : List Round) : List (Event DbgOp DbgOp.Res) :=
  ⟨.malloc (readSize size true), some heap⟩ :: (openCalls rdPath wrPath ++
    ⟨.lockWrite rdPath, some d.lockWrite⟩ :: ⟨.setReadRegion rdPath index, some d.setReadRegion⟩ ::
    ⟨.unlockWrite rdPath, some d.unlockWrite⟩ :: ⟨.lockRead rdPath, some d.lockRead⟩ ::
      (rounds.flatMap (roundCalls (readSize size heap)) ++
        ⟨.unlockRead rdPath, some d.unlockRead⟩ ::
          (freeCalls heap ++ [⟨.closeIn, some ()⟩, ⟨.closeOut, some ()⟩])))

theorem follow_openFiles (rdPath wrPath : Bytes) :
    (modemDbgOpenFiles rdPath wrPath).follow (openCalls rdPath wrPath) = some 0 := by
  unfold modemDbgOpenFiles openCalls call
  rw [Prog.follow_call, if_pos rfl, Prog.follow_call, if_pos rfl, Prog.follow_call, if_pos rfl]
  rfl

theorem follow_free (heap : Bool) :
    (Prog.when heap (call .free)).follow (freeCalls heap) = some () := by
  cases heap with
  | false => rfl
  | true => exact @Prog.follow_call _ DbgOp.Res _ _ .free () .ret []

theorem follow_dumpFiles (d : DeviceAnswers) {heap : Bool} {size index : BitVec 32} {rdPath : Bytes}
    {n : Nat} {ret : Int} {path : List (Event DbgOp DbgOp.Res)}
    (loop : (dumpLoop (readSize size heap) n size).follow path = some ret) :
    (dumpFiles n heap size index rdPath).follow
      (⟨.lockWrite rdPath, some d.lockWrite⟩ :: ⟨.setReadRegion rdPath index, some d.setReadRegion⟩ ::
        ⟨.unlockWrite rdPath, some d.unlockWrite⟩ :: ⟨.lockRead rdPath, some d.lockRead⟩ ::
          (path ++ ⟨.unlockRead rdPath, some d.unlockRead⟩ ::
            (freeCalls heap ++ [⟨.closeIn, some ()⟩, ⟨.closeOut, some ()⟩]))) = some ret := by
  unfold dumpFiles
  rw [call, Prog.follow_call, call, Prog.follow_call, call, Prog.follow_call, call, Prog.follow_call]
  rw [Prog.follow_bind loop, call, Prog.follow_call, Prog.follow_bind (follow_free heap)]
  rw [call, Prog.follow_call, call, Prog.follow_call]
  rfl

/-- A dump whose files open, and which stops with the last of its reads: the calls are those of
    the function, and when all reads fit, the bytes of the region are what they write. -/
theorem modemDbgDumpRegion_writes (d : DeviceAnswers) {info : RegionInfo.ModemLoadInfo}
    {index size : BitVec 32} {heap : Bool} {results : List ReadResult} {ret : Int} {file : Bytes}
    {n : Nat} (rdPath : Bytes) (valid : regionSize (sizes info) index = some size)
    (ended : DumpRegion.modemDbgDumpRegion (sizes info) index heap 0
      (results.map ReadResult.written) = some (ret, file))
    (stops : ∀ t, dump size heap (results.map ReadResult.written) = some t → t.running = false)
    (made : Along (dumpStep (readSize size heap)) (fun s _ => s.running = true) { size := size }
      (results.map ReadResult.written))
    (fits : Along (dumpStep (readSize size heap)) FitsRest { size := size }
      (results.map ReadResult.written))
    (enough : size.toNat ≤ (supplied results).length) (rounds : results.length ≤ n) :
    let calls := dumpCalls d heap size index rdPath (wrPath (regionName info index))
      (results.map ReadResult.written)
    (modemDbgDumpRegion n info index rdPath).follow calls = some ret ∧
      written calls = (supplied results).take size.toNat := by
  intro calls
  have whole := modemDbgDumpRegion_whole valid ended fits enough
  rw [DumpRegion.modemDbgDumpRegion, valid] at ended
  obtain ⟨t, reached, same⟩ := Option.map_eq_some_iff.mp ended
  obtain ⟨rfl, rfl⟩ := Prod.mk.inj same
  have loop := dumpLoop_rounds reached (stops t reached) made rfl rfl (n := n) (by simpa using rounds)
  have wrote := written_rounds reached made
  constructor
  · simp only [calls, dumpCalls, modemDbgDumpRegion, valid]
    rw [call, Prog.follow_call, Prog.follow_bind (follow_openFiles _ _), if_neg (by simp)]
    exact follow_dumpFiles d loop
  · rw [← whole, wrote]
    simp only [calls, dumpCalls, openCalls, written, List.flatMap_cons, List.flatMap_append]
    cases heap <;> simp [freeCalls]

end ModemControl.DebugTool
