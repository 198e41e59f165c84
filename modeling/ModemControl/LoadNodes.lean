import ModemControl.Foundation.CString

/-! # The load nodes of two drivers: modem_load.c

`modem_init_load_node_info` reads the nodes of the sp driver and behind them those of the
modem driver into one array. Addresses are offsets into that array, negative ones lie
before it; memory beyond the array is kept too, so that a write there has its effect.
-/

namespace ModemControl.LoadNodes

open Foundation

def MAX_MODEM_NODE_NUM : Nat := 0xA
def MAX_SP_NODE_NUM : Nat := 0x1
def MAX_LOAD_NODE_NUM : Nat := MAX_MODEM_NODE_NUM + MAX_SP_NODE_NUM

/-- `sizeof(LOAD_NODE_INFO)`: a name of 32 characters, the base and the size. -/
def NODE_SIZE : Nat := 40

/-- `size`, all of the array. -/
def ARRAY_SIZE : Nat := NODE_SIZE * MAX_LOAD_NODE_NUM

abbrev Mem : Type := Int → UInt8

/-- Bytes are written from an address on. -/
def poke (mem : Mem) (start : Int) (data : Bytes) : Mem := fun a =>
  if start ≤ a ∧ a < start + data.length then data.getD (a - start).toNat 0 else mem a

/-- `memset` of the array. -/
def cleared (mem : Mem) : Mem := poke mem 0 (List.replicate ARRAY_SIZE 0)

/-- Where a file is to be read to, and how many bytes of it. -/
structure Range where
  start : Int
  size : Int
  deriving Repr, DecidableEq

/-- A node file: nothing when it cannot be opened or read, else the bytes that it has for
    a read that asks for enough of them. -/
abbrev NodeFile : Type := Option Bytes

/-- Its result, and the memory behind it. -/
def getLoadNodeInfo (file : NodeFile) (range : Range) (mem : Mem) : Int × Mem :=
  match file with
  | none => (-1, mem)
  | some content =>
      let data := content.take range.size.toNat
      ((data.length / NODE_SIZE : Nat), poke mem range.start data)

/-- `size - n * sizeof(LOAD_NODE_INFO)`, computed as size_t and passed on as int. -/
def sizeBehind (n : Int) : Int :=
  ((BitVec.ofNat 64 ARRAY_SIZE - BitVec.ofInt 64 n * BitVec.ofNat 64 NODE_SIZE).setWidth 32).toInt

/-- `modem_node_num` and `modem_node_info`, and the ranges that were passed on. -/
structure NodeInfo where
  passed : List Range
  nodeNum : Int
  nodeInfo : Option Mem

/-- `before` is what `modem_node_num` was, and `mem` what the memory held. -/
def modemInitLoadNodeInfo (malloc : Bool) (sp modem : NodeFile) (before : Int) (mem : Mem) : NodeInfo :=
  if malloc then
    let first : Range := ⟨0, ARRAY_SIZE⟩
    let (n, mem) := getLoadNodeInfo sp first (cleared mem)
    let num := if 0 < n then n else 0
    let second : Range := ⟨NODE_SIZE * n, sizeBehind n⟩
    let (n, mem) := getLoadNodeInfo modem second mem
    let num := if 0 < n then num + n else num
    ⟨[first, second], num, if num = 0 then none else some mem⟩
  else ⟨[], before, none⟩

/-- The complete entries in what was read of a file. -/
def entries (data : Bytes) : List Bytes :=
  (List.range (data.length / NODE_SIZE)).map fun i => (data.drop (NODE_SIZE * i)).take NODE_SIZE

/-- The complete entries in so many bytes of a file. -/
def NodeFile.entries (file : NodeFile) (count : Nat) : List Bytes :=
  LoadNodes.entries ((file.getD []).take count)

/-- The entries of the first file, and those of the second one that there is room for. -/
def nodes (sp modem : NodeFile) : List Bytes :=
  let first := sp.entries ARRAY_SIZE
  first ++ modem.entries (ARRAY_SIZE - NODE_SIZE * first.length)

/-- Entry `i` of the array. -/
def entryAt (mem : Mem) (i : Nat) : Bytes :=
  (List.range NODE_SIZE).map fun k => mem ((NODE_SIZE * i + k : Nat) : Int)

structure Loaded (sp modem : NodeFile) (info : NodeInfo) : Prop where
  inside : ∀ range ∈ info.passed, 0 ≤ range.start ∧ range.start + range.size ≤ ARRAY_SIZE
  total : info.nodeNum = (nodes sp modem).length
  listed : ∀ i (inside : i < (nodes sp modem).length),
    info.nodeInfo.map (fun mem => entryAt mem i) = some (nodes sp modem)[i]

theorem poke_inside {mem : Mem} {start : Int} {data : Bytes} {k : Nat} (inside : k < data.length) :
    poke mem start data (start + k) = data[k] := by
  have offset : (start + k - start).toNat = k := by omega
  rw [poke, if_pos (by omega), offset]
  exact (List.getElem_eq_getD 0).symm

theorem poke_outside {mem : Mem} {start a : Int} {data : Bytes}
    (outside : a < start ∨ start + data.length ≤ a) : poke mem start data a = mem a :=
  if_neg (by omega)

@[simp] theorem length_entries (data : Bytes) : (entries data).length = data.length / NODE_SIZE := by
  simp [entries]

theorem getElem_entries {data : Bytes} {i : Nat} (inside : i < (entries data).length) :
    (entries data)[i] = (data.drop (NODE_SIZE * i)).take NODE_SIZE := by
  simp [entries]

/-- An entry that was written whole is read back. -/
theorem entryAt_poke {mem : Mem} {data : Bytes} {n i : Nat} (inside : i < (entries data).length) :
    entryAt (poke mem ((NODE_SIZE * n : Nat) : Int) data) (n + i) = (entries data)[i] := by
  have whole : NODE_SIZE * i + NODE_SIZE ≤ data.length := by
    rw [length_entries] at inside
    simp only [NODE_SIZE] at *
    omega
  rw [getElem_entries inside]
  apply List.ext_getElem
  · simp [entryAt]
    omega
  · intro k here _
    have below : k < NODE_SIZE := by simpa [entryAt] using here
    have address : ((NODE_SIZE * (n + i) + k : Nat) : Int) =
        ((NODE_SIZE * n : Nat) : Int) + ((NODE_SIZE * i + k : Nat) : Int) := by
      rw [Nat.mul_add]
      omega
    simp only [entryAt, List.getElem_map, List.getElem_range, List.getElem_take, List.getElem_drop]
    rw [address, poke_inside (by omega)]

/-- What is written behind an entry leaves it as it is. -/
theorem entryAt_before {mem : Mem} {data : Bytes} {n i : Nat} (before : i < n) :
    entryAt (poke mem ((NODE_SIZE * n : Nat) : Int) data) i = entryAt mem i := by
  apply List.map_congr_left
  intro k member
  have below := List.mem_range.mp member
  apply poke_outside
  left
  simp only [NODE_SIZE] at *
  omega

theorem sizeBehind_eq {n : Nat} (few : n ≤ MAX_LOAD_NODE_NUM) :
    sizeBehind n = ((ARRAY_SIZE - NODE_SIZE * n : Nat) : Int) := by
  have each : ∀ n ≤ MAX_LOAD_NODE_NUM, sizeBehind n = ((ARRAY_SIZE - NODE_SIZE * n : Nat) : Int) := by
    decide
  exact each n few

/-- What a file that can be read leaves. -/
theorem getLoadNodeInfo_some (content : Bytes) (start : Int) (count : Nat) (mem : Mem) :
    getLoadNodeInfo (some content) ⟨start, count⟩ mem =
      (((entries (content.take count)).length : Int), poke mem start (content.take count)) := by
  simp [getLoadNodeInfo]

/-- What the array holds of the files that were read: as many entries as there are. -/
structure Holds (info : NodeInfo) (found : List Bytes) : Prop where
  total : info.nodeNum = found.length
  listed : ∀ i (inside : i < found.length),
    info.nodeInfo.map (fun mem => entryAt mem i) = some found[i]

theorem few_entries (content : Bytes) :
    (entries (content.take ARRAY_SIZE)).length ≤ MAX_LOAD_NODE_NUM := by
  simp only [length_entries, List.length_take, ARRAY_SIZE, NODE_SIZE, MAX_LOAD_NODE_NUM,
    MAX_MODEM_NODE_NUM, MAX_SP_NODE_NUM]
  omega

/-- The ranges that are passed on once the first file has been read. -/
theorem passed_of_some (content : Bytes) (modem : NodeFile) (before : Int) (mem : Mem) :
    (modemInitLoadNodeInfo true (some content) modem before mem).passed =
      let n := (entries (content.take ARRAY_SIZE)).length
      [⟨0, ARRAY_SIZE⟩, ⟨((NODE_SIZE * n : Nat) : Int), ((ARRAY_SIZE - NODE_SIZE * n : Nat) : Int)⟩] := by
  have behind := sizeBehind_eq (few_entries content)
  simp only [modemInitLoadNodeInfo, if_true, getLoadNodeInfo_some, behind]
  rfl

theorem holds_of_listed {passed : List Range} {num : Int} {mem : Mem} {found : List Bytes}
    (total : num = found.length)
    (listed : ∀ i (inside : i < found.length), entryAt mem i = found[i]) :
    Holds ⟨passed, num, if num = 0 then none else some mem⟩ found := by
  refine ⟨total, ?_⟩
  intro i inside
  have some : num ≠ 0 := by omega
  rw [if_neg some, Option.map_some, listed i inside]

theorem entries_first (content : Bytes) (mem : Mem) (i : Nat)
    (inside : i < (entries content).length) :
    entryAt (poke mem 0 content) i = (entries content)[i] := by
  have read := @entryAt_poke mem content 0 i inside
  rwa [Nat.zero_add] at read

/-- A count that is no error is added as it is. -/
theorem counted (num n : Nat) : (if 0 < (n : Int) then (num : Int) + n else num) = (num + n : Nat) := by
  split <;> omega

theorem holds_of_some (content : Bytes) (modem : NodeFile) (before : Int) (mem : Mem) :
    Holds (modemInitLoadNodeInfo true (some content) modem before mem) (nodes (some content) modem) := by
  have behind := sizeBehind_eq (few_entries content)
  have first := entries_first (content.take ARRAY_SIZE) (cleared mem)
  have num := counted 0 (entries (content.take ARRAY_SIZE)).length
  simp only [Int.natCast_zero, Nat.zero_add, Int.zero_add] at num
  simp only [modemInitLoadNodeInfo, if_true, getLoadNodeInfo_some, behind, num]
  unfold nodes NodeFile.entries
  simp only [Option.getD_some]
  generalize entries (content.take ARRAY_SIZE) = found at *
  cases modem with
  | none =>
      apply holds_of_listed
      · simp [getLoadNodeInfo, entries]
      · intro i inside
        simp [entries] at inside
        simp [getLoadNodeInfo, entries, first i inside]
  | some content' =>
      rw [← Int.natCast_mul, getLoadNodeInfo_some, Option.getD_some]
      apply holds_of_listed
      · rw [List.length_append]
        exact counted _ _
      · intro i inside
        rw [List.length_append] at inside
        by_cases early : i < found.length
        · rw [List.getElem_append_left early, entryAt_before early, first i early]
        · have later : i = found.length + (i - found.length) := by omega
          rw [List.getElem_append_right (Nat.le_of_not_lt early)]
          conv_lhs => rw [later]
          exact entryAt_poke (by omega)

theorem passed_of_none (modem : NodeFile) (before : Int) (mem : Mem) :
    ⟨-NODE_SIZE, sizeBehind (-1)⟩ ∈ (modemInitLoadNodeInfo true none modem before mem).passed := by
  simp [modemInitLoadNodeInfo, getLoadNodeInfo]

/-- Both ranges lie in the array, and it holds the entries of the first file followed by
    those of the second, exactly when the first file can be read. -/
theorem loaded_iff (sp modem : NodeFile) (before : Int) (mem : Mem) :
    Loaded sp modem (modemInitLoadNodeInfo true sp modem before mem) ↔ sp ≠ none := by
  constructor
  · rintro loaded rfl
    have range := loaded.inside _ (passed_of_none modem before mem)
    exact absurd range.1 (by decide)
  · intro read
    obtain ⟨content, rfl⟩ := Option.ne_none_iff_exists'.mp read
    have holds := holds_of_some content modem before mem
    refine ⟨?_, holds.total, holds.listed⟩
    have few := few_entries content
    rw [passed_of_some]
    simp only [List.mem_cons, List.not_mem_nil, or_false, forall_eq_or_imp, forall_eq]
    simp only [ARRAY_SIZE, NODE_SIZE, MAX_LOAD_NODE_NUM, MAX_MODEM_NODE_NUM, MAX_SP_NODE_NUM] at *
    omega

/-- Without the sp driver the modem nodes go to an address before the array. -/
theorem absent_sp_outside : ¬ ∀ sp modem before mem,
    Loaded sp modem (modemInitLoadNodeInfo true sp modem before mem) := by
  intro always
  have loaded := always none (some (List.replicate NODE_SIZE 1)) 0 (fun _ => 0)
  have range := loaded.inside _ (passed_of_none _ 0 _)
  exact absurd range.1 (by decide)

end ModemControl.LoadNodes
