import Mathlib.Data.List.Perm.Basic
import ModemControl.Foundation.Search
import ModemControl.Load

/-! # Addresses from the load nodes: modem_load.c

`modem_correct_image` gives every entry of a load table the address and the size of the
first node whose name is somewhere in the path that the entry is written to.
-/

namespace ModemControl.NodeAddresses

open Foundation Load

/-- `LOAD_NODE_INFO`, its name without the NUL. -/
structure LoadNodeInfo where
  name : Bytes
  base : BitVec 32
  size : BitVec 32
  deriving Repr, DecidableEq

/-- Where an entry is put that gets this node. -/
def LoadNodeInfo.place (node : LoadNodeInfo) : BitVec 64 × BitVec 32 :=
  (node.base.setWidth 64, node.size)

/-- The name is in the path. -/
def LoadNodeInfo.occurs (node : LoadNodeInfo) (entry : ImageLoad) : Bool :=
  strstr entry.pathW node.name

def correctEntry (nodes : List LoadNodeInfo) (entry : ImageLoad) : ImageLoad :=
  match nodes.find? fun node => node.occurs entry with
  | some node => { entry with addr := node.base.setWidth 64, size := node.size }
  | none => entry

def modemCorrectImage (nodes : List LoadNodeInfo) (load : LoadValue) : LoadValue :=
  { load with loadTable := load.loadTable.map (correctEntry nodes) }

def place (entry : ImageLoad) : BitVec 64 × BitVec 32 := (entry.addr, entry.size)

/-- The path ends in a slash and exactly the name of the node. -/
def LoadNodeInfo.Own (node : LoadNodeInfo) (entry : ImageLoad) : Prop :=
  47 :: node.name <:+ entry.pathW

instance (node : LoadNodeInfo) (entry : ImageLoad) : Decidable (node.Own entry) :=
  inferInstanceAs (Decidable (_ <:+ _))

/-- At most the address and the size are other ones. -/
def OnlyPlace (entry entry' : ImageLoad) : Prop :=
  entry' = { entry with addr := entry'.addr, size := entry'.size }

/-- Entries with a node of their own get the place of that node, and nothing but places is
    changed. -/
structure PicksOwn (nodes : List LoadNodeInfo) (load : LoadValue) : Prop where
  own : ∀ (i : Nat) (entry : ImageLoad), load.loadTable[i]? = some entry → ∀ node ∈ nodes,
    node.Own entry → (modemCorrectImage nodes load).loadTable[i]?.map place = some node.place
  only : List.Forall₂ OnlyPlace load.loadTable (modemCorrectImage nodes load).loadTable
  rest : modemCorrectImage nodes load =
    { load with loadTable := (modemCorrectImage nodes load).loadTable }

/-- The first node in the list whose name is in the path has the place of the entry's own. -/
def FirstOwn (nodes : List LoadNodeInfo) (load : LoadValue) : Prop :=
  ∀ entry ∈ load.loadTable, ∀ node ∈ nodes, node.Own entry →
    ∀ before first after, nodes = before ++ first :: after → first.occurs entry = true →
      (∀ x ∈ before, x.occurs entry = false) → first.place = node.place

/-- So does every node whose name is in the path. -/
def OnlyOwn (nodes : List LoadNodeInfo) (load : LoadValue) : Prop :=
  ∀ entry ∈ load.loadTable, ∀ node ∈ nodes, node.Own entry →
    ∀ x ∈ nodes, x.occurs entry = true → x.place = node.place

section

variable {nodes : List LoadNodeInfo} {load : LoadValue} {entry : ImageLoad}

theorem correctEntry_onlyPlace (nodes : List LoadNodeInfo) (entry : ImageLoad) :
    OnlyPlace entry (correctEntry nodes entry) := by
  unfold OnlyPlace correctEntry
  split <;> rfl

theorem onlyPlace_table (nodes : List LoadNodeInfo) (load : LoadValue) :
    List.Forall₂ OnlyPlace load.loadTable (modemCorrectImage nodes load).loadTable := by
  unfold modemCorrectImage
  induction load.loadTable with
  | nil => exact .nil
  | cons entry rest ih => exact .cons (correctEntry_onlyPlace nodes entry) ih

/-- An entry's own node is one whose name is in the path. -/
theorem LoadNodeInfo.Own.occurs {node : LoadNodeInfo} (own : node.Own entry) :
    node.occurs entry = true :=
  strstr_iff.mpr ((List.suffix_cons 47 node.name).isInfix.trans own.isInfix)

theorem place_of_first {before after : List LoadNodeInfo} {first : LoadNodeInfo}
    (occurs : first.occurs entry = true) (none : ∀ x ∈ before, x.occurs entry = false) :
    place (correctEntry (before ++ first :: after) entry) = first.place := by
  have skipped : before.find? (fun node => node.occurs entry) = Option.none := by
    simpa using none
  have found : (before ++ first :: after).find? (fun node => node.occurs entry) = some first := by
    simp [List.find?_append, skipped, occurs]
  simp [correctEntry, found, place, LoadNodeInfo.place]

/-- An entry with a node of its own finds a first node. -/
theorem exists_first {node : LoadNodeInfo} (member : node ∈ nodes) (own : node.Own entry) :
    ∃ before first after, nodes = before ++ first :: after ∧ first.occurs entry = true ∧
      ∀ x ∈ before, x.occurs entry = false := by
  have found : (nodes.find? fun node => node.occurs entry).isSome :=
    List.find?_isSome.mpr ⟨node, member, own.occurs⟩
  obtain ⟨first, found⟩ := Option.isSome_iff_exists.mp found
  obtain ⟨occurs, before, after, split, none⟩ := List.find?_eq_some_iff_append.mp found
  exact ⟨before, first, after, split, occurs, by simpa using none⟩

theorem place_corrected {i : Nat} (here : load.loadTable[i]? = some entry) :
    (modemCorrectImage nodes load).loadTable[i]?.map place =
      some (place (correctEntry nodes entry)) := by
  simp [modemCorrectImage, here]

theorem picksOwn_iff : PicksOwn nodes load ↔ FirstOwn nodes load := by
  constructor
  · rintro picks entry member node inNodes own before first after rfl occurs none
    obtain ⟨i, here⟩ := List.mem_iff_getElem?.mp member
    have placed := picks.own i entry here node inNodes own
    rw [place_corrected here, place_of_first occurs none] at placed
    exact Option.some.inj placed
  · intro firstOwn
    refine ⟨?_, onlyPlace_table nodes load, rfl⟩
    intro i entry here node member own
    obtain ⟨before, first, after, rfl, occurs, none⟩ := exists_first member own
    rw [place_corrected here, place_of_first occurs none]
    have same := firstOwn entry (List.mem_of_getElem? here) node member own before first after rfl
      occurs none
    rw [same]

/-- Whichever node comes first, it is one of those whose names are in the path. -/
theorem OnlyOwn.firstOwn {nodes' : List LoadNodeInfo} (only : OnlyOwn nodes load)
    (perm : nodes'.Perm nodes) : FirstOwn nodes' load := by
  rintro entry member node inNodes own before first after rfl occurs -
  have listed : first ∈ nodes := perm.mem_iff.mp (by simp)
  exact only entry member node (perm.mem_iff.mp inNodes) own first listed occurs

theorem onlyOwn_of_orders (orders : ∀ nodes', nodes'.Perm nodes → PicksOwn nodes' load) :
    OnlyOwn nodes load := by
  intro entry member node inNodes own x listed occurs
  have perm : (x :: nodes.erase x).Perm nodes := (List.perm_cons_erase listed).symm
  have firstOwn := picksOwn_iff.mp (orders _ perm)
  exact firstOwn entry member node (perm.mem_iff.mpr inNodes) own [] x (nodes.erase x) rfl occurs
    (by simp)

/-- Every entry with a node of its own gets the place of that node exactly when the first
    node in the list whose name is in the path has that place; and it does so in whatever
    order the nodes are listed exactly when all those nodes have it. -/
theorem picksOwn_orders_iff (nodes : List LoadNodeInfo) (load : LoadValue) :
    (PicksOwn nodes load ↔ FirstOwn nodes load) ∧
      ((∀ nodes', nodes'.Perm nodes → PicksOwn nodes' load) ↔ OnlyOwn nodes load) := by
  refine ⟨picksOwn_iff, onlyOwn_of_orders, ?_⟩
  intro only nodes' perm
  exact picksOwn_iff.mpr (only.firstOwn perm)

end

def dsp : LoadNodeInfo := ⟨bytes "dsp", 0x88000000, 0x100000⟩
def ldsp : LoadNodeInfo := ⟨bytes "ldsp", 0x89000000, 0x200000⟩

def ldspLoad : LoadValue where
  loadTable := [⟨bytes "/proc/cptl/ldsp", [], bytes "ldsp", 0, 0xC00000, 0⟩]

/-- An entry for the ldsp is put where the dsp lies, which is listed before it. -/
theorem ldsp_gets_dsp : ¬ ∀ (nodes : List LoadNodeInfo) (load : LoadValue),
    (nodes.map LoadNodeInfo.name).Nodup → (∀ node ∈ nodes, node.name ≠ []) → PicksOwn nodes load := by
  intro always
  have picks := always [dsp, ldsp] ldspLoad (by decide) (by decide)
  have placed := picks.own 0 _ rfl ldsp (by decide) (by decide)
  exact absurd placed (by decide)

end ModemControl.NodeAddresses
