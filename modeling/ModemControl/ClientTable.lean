import Mathlib.Data.Finset.Basic
import Mathlib.Data.List.FinRange
import ModemControl.ClientState

/-! # The table of client descriptors

`s_clientFd` is filled by the accept loop, and cleared by the reader thread and by
broadcasts. Beside it stand the descriptors of accepted connections that are open, and
those that were read, written or closed while they were not.
-/

namespace ModemControl.ClientTable

open Foundation ClientState

structure Table where
  clientFd : Slot → Int := fun _ => -1
  opened : Finset Int := ∅
  misused : List Int := []

namespace Table

def set (t : Table) (index : Slot) (fd : Int) : Table :=
  { t with clientFd := Function.update t.clientFd index fd }

/-- A system call on a descriptor. -/
def use (t : Table) (fd : Int) : Table :=
  if fd ∈ t.opened then t else { t with misused := fd :: t.misused }

def read (t : Table) (fd : Int) : Table := t.use fd

def write (t : Table) (fd : Int) : Table := t.use fd

def close (t : Table) (fd : Int) : Table := { t.use fd with opened := t.opened.erase fd }

/-- `close(s_clientFd[i]); s_clientFd[i] = -1;` -/
def closeClient (t : Table) (i : Slot) : Table := (t.close (t.clientFd i)).set i (-1)

end Table

/-- The loop of `modem_setup_clients_connect` over the slots from one on. -/
def fill (n : Int) : List Slot → Table → Table
  | [], t => t
  | index :: rest, t =>
      if t.clientFd index = -1 then
        let t := t.set index n
        t.write (t.clientFd index)
      else if index.val = MAX_CLIENT_NUM - 1 then (t.close (t.clientFd index)).set index n
      else fill n rest t

def accept (n : Int) (t : Table) : Table :=
  fill n (List.finRange MAX_CLIENT_NUM) { t with opened := insert n t.opened }

/-- One round of the loop of `modem_write_data_to_clients`. -/
def writeClient (fails : Slot → Bool) (t : Table) (i : Slot) : Table :=
  if 0 ≤ t.clientFd i then
    let t := t.write (t.clientFd i)
    if fails i then t.closeClient i else t
  else t

def modemWriteDataToClients (fails : Slot → Bool) (t : Table) : Table :=
  (List.finRange MAX_CLIENT_NUM).foldl (writeClient fails) t

/-- The table as `modem_setup_clients_connect` fills it at first. -/
def start : Table := {}

inductive Input where
  | accept (n : Int)
  /-- `modem_ctrl_read_thread` reads a message, or sees the end or an error. -/
  | read (i : Slot) (ends : Bool)
  /-- A broadcast, and which of its writes fail. -/
  | broadcast (fails : Slot → Bool)

def step (t : Table) : Input → Option Table
  | .accept n => if 0 ≤ n ∧ n ∉ t.opened then some (accept n t) else none
  | .read i ends =>
      if t.clientFd i = -1 then none
      else
        let t := t.read (t.clientFd i)
        some (if ends then t.closeClient i else t)
  | .broadcast fails => some (modemWriteDataToClients fails t)

/-- The entries are the open connections, each held once, and nothing was used while it
    was closed. -/
structure Kept (t : Table) : Prop where
  distinct : ∀ i j, t.clientFd i ≠ -1 → t.clientFd i = t.clientFd j → i = j
  opened : ∀ fd, fd ∈ t.opened ↔ fd ≠ -1 ∧ ∃ i, t.clientFd i = fd
  unused : t.misused = []

/-- The invariant: a descriptor is no other negative number than -1. -/
structure Inv (t : Table) : Prop extends Kept t where
  proper : ∀ i, t.clientFd i = -1 ∨ 0 ≤ t.clientFd i

theorem Table.use_opened {t : Table} {fd : Int} (opened : fd ∈ t.opened) : t.use fd = t :=
  if_pos opened

theorem Inv.mem {t : Table} (inv : Inv t) {i : Slot} (held : t.clientFd i ≠ -1) :
    t.clientFd i ∈ t.opened :=
  (inv.opened _).mpr ⟨held, i, rfl⟩

@[simp, grind =] theorem Table.set_clientFd (t : Table) (index i : Slot) (n : Int) :
    (t.set index n).clientFd i = if i = index then n else t.clientFd i :=
  Function.update_apply t.clientFd index n i

@[simp, grind =] theorem Table.set_opened (t : Table) (index : Slot) (n : Int) :
    (t.set index n).opened = t.opened := rfl

/-- What an entry of a table can be, once one slot is set. -/
theorem exists_set (t : Table) (index : Slot) (n fd : Int) :
    (∃ i, (t.set index n).clientFd i = fd) ↔ n = fd ∨ ∃ i ≠ index, t.clientFd i = fd :=
  Function.exists_update_iff t.clientFd fun _ m => m = fd

theorem Inv.closeClient {t : Table} (inv : Inv t) {i : Slot} (held : t.clientFd i ≠ -1) :
    Inv (t.closeClient i) := by
  have mem := inv.mem held
  have alone := inv.distinct i
  unfold Table.closeClient Table.close
  rw [Table.use_opened mem]
  constructor
  · constructor
    · intro j k other same
      have distinct := inv.distinct j k
      grind
    · intro fd
      have opened := inv.opened fd
      rw [exists_set]
      grind
    · exact inv.unused
  · intro j
    have proper := inv.proper j
    grind

/-- A fresh descriptor goes into a free slot. -/
theorem Inv.set_free {t : Table} (inv : Inv t) {n : Int} (fresh : n ∉ t.opened) (fd : 0 ≤ n)
    {index : Slot} (free : t.clientFd index = -1) :
    Inv ({ t with opened := insert n t.opened }.set index n) := by
  constructor
  · constructor
    · intro j k other same
      have distinct := inv.distinct j k
      have opened := inv.opened n
      grind
    · intro m
      have opened := inv.opened m
      rw [exists_set]
      grind
    · exact inv.unused
  · intro j
    have proper := inv.proper j
    grind

/-- With no free slot the descriptor in the last one is closed for it. -/
theorem Inv.evict {t : Table} (inv : Inv t) {n : Int} (fresh : n ∉ t.opened) (fd : 0 ≤ n)
    {index : Slot} (held : t.clientFd index ≠ -1) :
    Inv ((({ t with opened := insert n t.opened } : Table).close (t.clientFd index)).set index n) := by
  have mem := inv.mem held
  have still : t.clientFd index ∈ insert n t.opened := Finset.mem_insert_of_mem mem
  have other : n ≠ t.clientFd index := fun same => fresh (same ▸ mem)
  have closed : Inv ({ t.closeClient index with
      opened := insert n (t.closeClient index).opened }.set index n) := by
    apply (inv.closeClient held).set_free _ fd
    · exact (Table.set_clientFd _ index index (-1)).trans (if_pos rfl)
    · exact fun remains => fresh (Finset.mem_of_mem_erase remains)
  unfold Table.closeClient Table.close at closed
  unfold Table.close
  rw [Table.use_opened mem] at closed
  rw [Table.use_opened still]
  simpa only [Table.set, Function.update_idem, Finset.erase_insert_of_ne other] using closed

theorem Inv.fill {t : Table} (inv : Inv t) {n : Int} (fresh : n ∉ t.opened) (fd : 0 ≤ n)
    {slots : List Slot} (last : ∃ index ∈ slots, index.val = MAX_CLIENT_NUM - 1) :
    Inv (fill n slots { t with opened := insert n t.opened }) := by
  induction slots with
  | nil => simp at last
  | cons index rest ih =>
      unfold ClientTable.fill
      by_cases free : t.clientFd index = -1
      · rw [if_pos free]
        have filled := inv.set_free fresh fd free
        have held : ({ t with opened := insert n t.opened }.set index n).clientFd index ≠ -1 := by
          simp only [Table.set, Function.update_self]
          omega
        dsimp only
        rw [Table.write, Table.use_opened (filled.mem held)]
        exact filled
      · rw [if_neg free]
        by_cases full : index.val = MAX_CLIENT_NUM - 1
        · rw [if_pos full]
          exact inv.evict fresh fd free
        · rw [if_neg full]
          apply ih
          grind

theorem Inv.writeClient {t : Table} (inv : Inv t) (fails : Slot → Bool) (i : Slot) :
    Inv (writeClient fails t i) := by
  unfold ClientTable.writeClient
  split
  · rename_i connected
    have held : t.clientFd i ≠ -1 := by omega
    dsimp only
    rw [Table.write, Table.use_opened (inv.mem held)]
    split
    · exact inv.closeClient held
    · exact inv
  · exact inv

theorem Inv.broadcast {t : Table} (inv : Inv t) (fails : Slot → Bool) :
    Inv (modemWriteDataToClients fails t) := by
  unfold modemWriteDataToClients
  generalize List.finRange MAX_CLIENT_NUM = slots
  induction slots generalizing t with
  | nil => exact inv
  | cons i rest ih => exact ih (inv.writeClient fails i)

theorem Inv.step {t t' : Table} {input : Input} (inv : Inv t) (taken : step t input = some t') :
    Inv t' := by
  cases input with
  | accept n =>
      obtain ⟨⟨fd, fresh⟩, accepted⟩ := Option.ite_none_right_eq_some.mp taken
      obtain rfl := Option.some.inj accepted
      exact inv.fill fresh fd ⟨Fin.last 19, List.mem_finRange _, rfl⟩
  | read i ends =>
      obtain ⟨held, seen⟩ := Option.ite_none_left_eq_some.mp taken
      obtain rfl := Option.some.inj seen
      rw [Table.read, Table.use_opened (inv.mem held)]
      cases ends with
      | true => exact inv.closeClient held
      | false => exact inv
  | broadcast fails =>
      obtain rfl := Option.some.inj taken
      exact inv.broadcast fails

theorem inv_start : Inv start := by
  constructor
  · constructor
    · intro i j connected
      exact absurd rfl connected
    · intro fd
      constructor
      · intro opened
        exact absurd opened (Finset.notMem_empty fd)
      · rintro ⟨connected, _, same⟩
        exact absurd same.symm connected
    · rfl
  · intro i
    exact Or.inl rfl

/-- Whatever is accepted, hangs up and fails, in every state the entries of the table are
    the open connections, each once, and nothing is read, written or closed after it was
    closed. -/
theorem clientTable_kept (inputs : List Input) : Throughout step Kept start inputs := by
  have held : Throughout step Inv start inputs := by
    apply throughout_of_along _ inv_start (along_true start inputs)
    intro t input t' inv _ taken
    exact inv.step taken
  exact held.mono fun t inv => inv.toKept

end ModemControl.ClientTable
