import Mathlib.Data.Finset.Card
import ModemControl.ClientTable
import ModemControl.Foundation.Rescan

/-! # Who the reader of the clients listens to

`modem_ctrl_read_thread` puts the descriptors of `s_clientFd` into a set, one slot after
the other, and sleeps in `select` until one of them can be read. The accept loop fills
slots beside it and writes to `s_notifypipe`, whose other end is in the set too, so that
`select` returns and the set is made anew. No lock is held on either side.
-/

namespace ModemControl.ClientWatch

open Foundation Foundation.Rescan ClientState ClientTable

/-- What a pipe holds before a write to it blocks. -/
def PIPE_SIZE : Nat := 65536

/-- Where the loop of `modem_setup_clients_connect` is. -/
inductive Acceptor where
  | waiting
  /-- A connection is accepted; the slots from this one on are to be tried. -/
  | scan (n : Int) (index : Slot)
  /-- This slot is filled, and `s_notifypipe[1]` is still to be written. -/
  | notify (index : Slot)
  deriving Repr, DecidableEq

/-- Where the loop of `modem_ctrl_read_thread` is. -/
inductive Reader where
  /-- It makes its set; the slots from `i` on are still to come. -/
  | scan (i : Nat) (engpcFds : Finset Int) (nengfds : Int)
  /-- It sleeps in `select`. Of the descriptors passed these still are the connections they
      were when the call began. -/
  | select (engpcFds watched : Finset Int)
  /-- `s_notifypipe[0]` was in the set that came back, and is to be read. -/
  | notified (num : Int) (engpcFds : Finset Int)
  /-- It reads from the clients in the set, from slot `i` on. -/
  | handle (i : Nat) (num : Int) (engpcFds : Finset Int)
  deriving DecidableEq

structure State where
  table : Table := start
  /-- The connections that have sent something, or are at their end. -/
  readable : Finset Int := ∅
  acceptor : Acceptor := .waiting
  /-- The bytes in the pipe. -/
  notifypipe : Nat := 0
  reader : Reader

/-- The head of the reader's loop; `s_notifypipe[0]` is the first descriptor it puts in. -/
def rescan (notifyFd : Int) : Reader := .scan 0 ∅ (notifyFd + 1)

def init (notifyFd : Int) : State := { reader := rescan notifyFd }

/-- A sleeping reader does not hear of a connection that took over the number of one that
    was closed. -/
def Reader.closed (fd : Int) : Reader → Reader
  | .select engpcFds watched => .select engpcFds (watched.erase fd)
  | reader => reader

/-- A descriptor is closed, and its slot is given another. -/
def State.replace (s : State) (i : Slot) (n : Int) : State :=
  let fd := s.table.clientFd i
  { s with
    table := (s.table.close fd).set i n
    readable := s.readable.erase fd
    reader := s.reader.closed fd }

inductive Input where
  /-- `accept` returns. -/
  | accept (n : Int)
  /-- The accept loop takes its next step. -/
  | acceptor
  /-- The reader comes to the next slot for its set, or calls `select` after the last. -/
  | scan
  /-- `select` returns with these descriptors, or with an error. -/
  | select (answer : Option (Finset Int))
  /-- The reader reads the pipe. -/
  | notified
  /-- The reader comes to the next slot that it may read, and what `read` does there. -/
  | handle (ends more : Bool)
  /-- A client sends something, or hangs up. -/
  | send (n : Int)
  /-- A broadcast closes a client that it cannot write to. -/
  | drop (i : Slot)

def acceptorStep (s : State) : Option State :=
  match s.acceptor with
  | .waiting => none
  | .scan n index =>
      if s.table.clientFd index = -1 then
        some { s with table := s.table.set index n, acceptor := .notify index }
      else if more : index.val + 1 < MAX_CLIENT_NUM then
        some { s with acceptor := .scan n ⟨index.val + 1, more⟩ }
      else some { s.replace index n with acceptor := .notify index }
  | .notify _ =>
      if s.notifypipe + 2 ≤ PIPE_SIZE then
        some { s with notifypipe := s.notifypipe + 2, acceptor := .waiting }
      else none

def scanStep (s : State) : Option State :=
  match s.reader with
  | .scan i engpcFds nengfds =>
      if slot : i < MAX_CLIENT_NUM then
        let fd := s.table.clientFd ⟨i, slot⟩
        if fd ≠ -1 then
          some { s with
            reader := .scan (i + 1) (insert fd engpcFds) (if nengfds ≤ fd then fd + 1 else nengfds) }
        else some { s with reader := .scan (i + 1) engpcFds nengfds }
      else
        let passed := engpcFds.filter (· < nengfds)
        -- a descriptor that was closed since it was put in is an error
        if passed ⊆ s.table.opened then some { s with reader := .select passed passed }
        else some { s with reader := .handle 0 (-1) engpcFds }
  | _ => none

def selectStep (s : State) (answer : Option (Finset Int)) : Option State :=
  match s.reader, answer with
  | .select engpcFds _, none => some { s with reader := .handle 0 (-1) engpcFds }
  | .select engpcFds watched, some fds =>
      if fds ⊆ engpcFds ∧ watched ∩ s.readable ⊆ fds ∧ (fds.Nonempty ∨ 0 < s.notifypipe) then
        if 0 < s.notifypipe then some { s with reader := .notified (fds.card + 1) fds }
        else some { s with reader := .handle 0 fds.card fds }
      else none
  | _, _ => none

/-- `char buf[32]` takes up to 31 bytes of the pipe. -/
def notifiedStep (notifyFd : Int) (s : State) : Option State :=
  match s.reader with
  | .notified num engpcFds =>
      some { s with
        notifypipe := s.notifypipe - 31
        reader := if num = 1 then rescan notifyFd else .handle 0 num engpcFds }
  | _ => none

def handleStep (notifyFd : Int) (s : State) (ends more : Bool) : Option State :=
  match s.reader with
  | .handle i num engpcFds =>
      if slot : i < MAX_CLIENT_NUM ∧ 0 < num then
        let nfd := s.table.clientFd ⟨i, slot.1⟩
        if nfd ≠ -1 ∧ nfd ∈ engpcFds then
          -- `read` blocks where there is nothing to be read
          if nfd ∉ s.readable then none
          else if ends then
            some { s.replace ⟨i, slot.1⟩ (-1) with reader := .handle (i + 1) (num - 1) engpcFds }
          else
            some { s with
              readable := if more then s.readable else s.readable.erase nfd
              reader := .handle (i + 1) (num - 1) engpcFds }
        else some { s with reader := .handle (i + 1) num engpcFds }
      else some { s with reader := rescan notifyFd }
  | _ => none

theorem slots_pos : 0 < MAX_CLIENT_NUM := by decide

def step (notifyFd : Int) (s : State) : Input → Option State
  | .accept n =>
      if s.acceptor = .waiting ∧ 0 ≤ n ∧ n ∉ s.table.opened then
        some { s with
          table := { s.table with opened := insert n s.table.opened }
          acceptor := .scan n ⟨0, slots_pos⟩ }
      else none
  | .acceptor => acceptorStep s
  | .scan => scanStep s
  | .select answer => selectStep s answer
  | .notified => notifiedStep notifyFd s
  | .handle ends more => handleStep notifyFd s ends more
  | .send n => if n ∈ s.table.opened then some { s with readable := insert n s.readable } else none
  | .drop i => if 0 ≤ s.table.clientFd i then some (s.replace i (-1)) else none

/-- The reader sleeps, and nothing that it waits for has come. -/
def Asleep (s : State) : Prop :=
  ∃ engpcFds watched, s.reader = .select engpcFds watched ∧ s.notifypipe = 0 ∧
    Disjoint watched s.readable

/-- A client that is not heard: the reader sleeps, although it has something to read. -/
def Unheard (s : State) (i : Slot) : Prop :=
  Asleep s ∧ s.table.clientFd i ≠ -1 ∧ s.table.clientFd i ∈ s.readable

@[simp, grind =] theorem close_clientFd (t : Table) (fd : Int) : (t.close fd).clientFd = t.clientFd := by
  simp only [Table.close, Table.use]
  split <;> rfl

@[simp, grind =] theorem close_opened (t : Table) (fd : Int) : (t.close fd).opened = t.opened.erase fd := rfl

/-- The entries are open connections, each held once, and the one that is to be filled in is
    not among them yet. -/
structure Owned (t : Table) (acceptor : Acceptor) : Prop where
  distinct : ∀ i j, t.clientFd i ≠ -1 → t.clientFd i = t.clientFd j → i = j
  opened : ∀ i, t.clientFd i ≠ -1 → t.clientFd i ∈ t.opened
  fresh : ∀ n index, acceptor = .scan n index → 0 ≤ n ∧ n ∈ t.opened ∧ ∀ i, t.clientFd i ≠ n

theorem Owned.clear {t : Table} {acceptor : Acceptor} (owned : Owned t acceptor) (i : Slot) :
    Owned ((t.close (t.clientFd i)).set i (-1)) acceptor := by
  constructor
  · intro j k held same
    have distinct := owned.distinct j k
    grind
  · intro j held
    have opened := owned.opened j
    have distinct := owned.distinct j i
    grind
  · intro n index scanning
    obtain ⟨fd, opened, other⟩ := owned.fresh n index scanning
    have := other i
    refine ⟨fd, by grind, ?_⟩
    intro j
    have := other j
    grind

theorem Owned.fill {t : Table} {n : Int} {index : Slot} (owned : Owned t (.scan n index)) :
    Owned (t.set index n) (.notify index) := by
  obtain ⟨fd, opened, other⟩ := owned.fresh n index rfl
  constructor
  · intro j k held same
    have distinct := owned.distinct j k
    have := other j
    have := other k
    grind
  · intro j held
    have := owned.opened j
    grind
  · intro m later scanning
    cases scanning

theorem Owned.evict {t : Table} {n : Int} {index : Slot} (owned : Owned t (.scan n index)) :
    Owned ((t.close (t.clientFd index)).set index n) (.notify index) := by
  have cleared := (owned.clear index).fill
  simpa only [Table.set, Function.update_idem] using cleared

/-- What a slot holds, but for the slot whose filling is still to be announced. -/
structure Holds (acceptor : Acceptor) (clientFd : Slot → Int) (i : Slot) (fd : Int) : Prop where
  held : clientFd i = fd
  some : fd ≠ -1
  announced : acceptor ≠ .notify i

/-- What the reader is to hear of is in its set, unless the pipe calls it. -/
def Watches (acceptor : Acceptor) (clientFd : Slot → Int) (called : Prop) : Reader → Prop
  | .scan i engpcFds _ => Covered (Holds acceptor clientFd) engpcFds {j | i ≤ j.val} called
  | .select _ watched => Covered (Holds acceptor clientFd) watched ∅ called
  | _ => True

/-- `select` looks at all that was put in. -/
def Reader.Bounded : Reader → Prop
  | .scan _ engpcFds nengfds => ∀ fd ∈ engpcFds, fd < nengfds
  | _ => True

theorem watches_called {called : Prop} (now : called) (acceptor : Acceptor) (clientFd : Slot → Int)
    (reader : Reader) : Watches acceptor clientFd called reader := by
  cases reader with
  | scan | select => exact covered_called now
  | notified | handle => trivial

theorem Watches.mono {acceptor acceptor' : Acceptor} {clientFd clientFd' : Slot → Int} {called : Prop}
    {reader : Reader} (watches : Watches acceptor clientFd called reader)
    (fewer : ∀ j fd, Holds acceptor' clientFd' j fd → Holds acceptor clientFd j fd) :
    Watches acceptor' clientFd' called reader := by
  cases reader with
  | scan | select => exact Covered.mono watches fewer (fun _ _ _ seen => seen) (Set.Subset.refl _) id
  | notified | handle => trivial

theorem Reader.Bounded.closed {reader : Reader} (bounded : reader.Bounded) (fd : Int) :
    (reader.closed fd).Bounded := by
  cases reader with
  | scan | notified | handle => exact bounded
  | select => trivial

theorem watches_rescan (acceptor : Acceptor) (clientFd : Slot → Int) (called : Prop) (notifyFd : Int) :
    Watches acceptor clientFd called (rescan notifyFd) := by
  have start := covered_start (Holds acceptor clientFd) called
  refine start.mono (fun _ _ held => held) (fun _ _ _ => False.elim) ?_ id
  intro j _
  exact Nat.zero_le j.val

theorem bounded_rescan (notifyFd : Int) : (rescan notifyFd).Bounded := by
  intro fd member
  exact absurd member (Finset.notMem_empty fd)

/-- A descriptor is closed, and its slot given another that is not announced yet, or none. -/
theorem Watches.replace {t : Table} {acceptor acceptor' : Acceptor} {called : Prop} {reader : Reader}
    (owned : Owned t acceptor) (watches : Watches acceptor t.clientFd called reader) {i : Slot}
    {n : Int} (silent : n = -1 ∨ acceptor' = .notify i)
    (before : ∀ j, j ≠ i → acceptor' ≠ .notify j → acceptor ≠ .notify j) :
    Watches acceptor' ((t.close (t.clientFd i)).set i n).clientFd called
      (reader.closed (t.clientFd i)) := by
  have fewer : ∀ j fd, Holds acceptor' ((t.close (t.clientFd i)).set i n).clientFd j fd →
      Holds acceptor t.clientFd j fd ∧ fd ≠ t.clientFd i := by
    rintro j fd ⟨held, some, announced⟩
    have other : j ≠ i := by
      rintro rfl
      rcases silent with rfl | notifying
      · grind
      · exact announced notifying
    have same : t.clientFd j = fd := by grind
    have distinct := owned.distinct j i
    exact ⟨⟨same, some, before j other announced⟩, by grind⟩
  cases reader with
  | scan k engpcFds nengfds =>
      exact Covered.mono watches (fun j fd held => (fewer j fd held).1) (fun _ _ _ seen => seen)
        (Set.Subset.refl _) id
  | select engpcFds watched =>
      apply Covered.mono watches (fun j fd held => (fewer j fd held).1) _ (Set.Subset.refl _) id
      intro j fd held seen
      exact Finset.mem_coe.mpr (Finset.mem_erase.mpr ⟨(fewer j fd held).2, Finset.mem_coe.mp seen⟩)
  | notified | handle => trivial

/-- The invariant. -/
structure Inv (s : State) : Prop where
  owned : Owned s.table s.acceptor
  watches : Watches s.acceptor s.table.clientFd (0 < s.notifypipe) s.reader
  bounded : s.reader.Bounded

theorem inv_init (notifyFd : Int) : Inv (init notifyFd) where
  owned := by
    constructor
    · intro i j held
      exact absurd rfl held
    · intro i held
      exact absurd rfl held
    · rintro n index scanning
      cases scanning
  watches := watches_rescan _ _ _ notifyFd
  bounded := bounded_rescan notifyFd

theorem Inv.clear {s : State} (inv : Inv s) (i : Slot) : Inv (s.replace i (-1)) where
  owned := inv.owned.clear i
  watches := inv.watches.replace inv.owned (Or.inl rfl) fun _ _ announced => announced
  bounded := inv.bounded.closed _

theorem Owned.accept {t : Table} {acceptor : Acceptor} (owned : Owned t acceptor) {n : Int}
    (fd : 0 ≤ n) (fresh : n ∉ t.opened) (index : Slot) :
    Owned { t with opened := insert n t.opened } (.scan n index) where
  distinct := owned.distinct
  opened i held := Finset.mem_insert_of_mem (owned.opened i held)
  fresh := by
    rintro m later scanning
    cases scanning
    refine ⟨fd, Finset.mem_insert_self n t.opened, ?_⟩
    rintro i same
    have held : t.clientFd i = n := same
    have opened := owned.opened i (by omega)
    exact fresh (held ▸ opened)

theorem Inv.acceptor {s s' : State} (inv : Inv s) (taken : acceptorStep s = some s') : Inv s' := by
  unfold acceptorStep at taken
  cases acceptor : s.acceptor with
  | waiting => simp [acceptor] at taken
  | scan n index =>
      have owned := inv.owned
      have watches := inv.watches
      rw [acceptor] at owned watches
      simp only [acceptor] at taken
      split_ifs at taken with free more
      · obtain rfl := Option.some.inj taken
        refine ⟨owned.fill, watches.mono ?_, inv.bounded⟩
        rintro j fd ⟨held, some, announced⟩
        have other : j ≠ index := fun same => announced (same ▸ rfl)
        have same := (Table.set_clientFd s.table index j n).trans (if_neg other)
        exact ⟨same.symm.trans held, some, Acceptor.noConfusion⟩
      · obtain rfl := Option.some.inj taken
        refine ⟨⟨owned.distinct, owned.opened, ?_⟩, watches.mono ?_, inv.bounded⟩
        · rintro m later scanning
          cases scanning
          exact owned.fresh n index rfl
        · rintro j fd ⟨held, some, _⟩
          exact ⟨held, some, Acceptor.noConfusion⟩
      · obtain rfl := Option.some.inj taken
        refine ⟨owned.evict, watches.replace owned (Or.inr rfl) ?_, inv.bounded.closed _⟩
        intro _ _ _
        exact Acceptor.noConfusion
  | notify index =>
      simp only [acceptor] at taken
      obtain ⟨room, posted⟩ := Option.ite_none_right_eq_some.mp taken
      obtain rfl := Option.some.inj posted
      refine ⟨⟨inv.owned.distinct, inv.owned.opened, ?_⟩, ?_, inv.bounded⟩
      · rintro m later scanning
        cases scanning
      · exact watches_called (Nat.succ_pos _) _ _ _

/-- A step of the reader that leaves the slots and the accept loop as they are. -/
theorem Inv.reader {s : State} (inv : Inv s) {reader : Reader}
    (watches : Watches s.acceptor s.table.clientFd (0 < s.notifypipe) reader)
    (bounded : reader.Bounded) :
    Inv { s with reader } :=
  ⟨inv.owned, watches, bounded⟩

theorem ahead_subset {i : Nat} (slot : i < MAX_CLIENT_NUM) :
    {j : Slot | i ≤ j.val} ⊆ insert ⟨i, slot⟩ {j | i + 1 ≤ j.val} := by
  intro j ahead
  rcases Nat.eq_or_lt_of_le ahead with here | later
  · exact Or.inl (Fin.ext here.symm)
  · exact Or.inr later

/-- An empty slot is passed over. -/
theorem Watches.skip {acceptor : Acceptor} {clientFd : Slot → Int} {called : Prop} {i : Nat}
    {engpcFds : Finset Int} {nengfds : Int}
    (watches : Watches acceptor clientFd called (.scan i engpcFds nengfds))
    (slot : i < MAX_CLIENT_NUM) (free : clientFd ⟨i, slot⟩ = -1) :
    Watches acceptor clientFd called (.scan (i + 1) engpcFds nengfds) := by
  refine Covered.scan watches ?_ (Set.Subset.refl _) (ahead_subset slot)
  rintro fd ⟨held, some, _⟩
  exact absurd (held.symm.trans free) some

theorem Watches.put {acceptor : Acceptor} {clientFd : Slot → Int} {called : Prop} {i : Nat}
    {engpcFds : Finset Int} {nengfds : Int}
    (watches : Watches acceptor clientFd called (.scan i engpcFds nengfds))
    (slot : i < MAX_CLIENT_NUM) (nengfds' : Int) :
    Watches acceptor clientFd called
      (.scan (i + 1) (insert (clientFd ⟨i, slot⟩) engpcFds) nengfds') := by
  refine Covered.scan watches ?_ ?_ (ahead_subset slot)
  · rintro fd ⟨held, _, _⟩
    simp [held]
  · intro fd seen
    exact Finset.mem_coe.mpr (Finset.mem_insert_of_mem (Finset.mem_coe.mp seen))

/-- All slots are scanned. -/
theorem Watches.sleep {acceptor : Acceptor} {clientFd : Slot → Int} {called : Prop} {i : Nat}
    {engpcFds : Finset Int} {nengfds : Int}
    (watches : Watches acceptor clientFd called (.scan i engpcFds nengfds))
    (last : ¬ i < MAX_CLIENT_NUM) : Watches acceptor clientFd called (.select engpcFds engpcFds) := by
  refine Covered.mono watches (fun _ _ held => held) (fun _ _ _ seen => seen) ?_ id
  intro j ahead
  exact absurd (Nat.lt_of_le_of_lt ahead j.isLt) last

theorem Reader.Bounded.put {i : Nat} {engpcFds : Finset Int} {nengfds : Int}
    (bounded : (Reader.scan i engpcFds nengfds).Bounded) (fd : Int) :
    (Reader.scan (i + 1) (insert fd engpcFds) (if nengfds ≤ fd then fd + 1 else nengfds)).Bounded := by
  intro m member
  have before := bounded m
  grind

theorem Inv.scan {s s' : State} (inv : Inv s) (taken : scanStep s = some s') : Inv s' := by
  unfold scanStep at taken
  have watches := inv.watches
  have bounded := inv.bounded
  cases reader : s.reader with
  | select | notified | handle => simp [reader] at taken
  | scan i engpcFds nengfds =>
      rw [reader] at watches bounded
      simp only [reader] at taken
      by_cases slot : i < MAX_CLIENT_NUM
      · rw [dif_pos slot] at taken
        by_cases free : s.table.clientFd ⟨i, slot⟩ = -1
        · rw [if_neg (not_not.mpr free)] at taken
          obtain rfl := Option.some.inj taken
          exact inv.reader (watches.skip slot free) bounded
        · rw [if_pos free] at taken
          obtain rfl := Option.some.inj taken
          exact inv.reader (watches.put slot _) (bounded.put _)
      · -- nothing is cut off by the first argument of `select`
        have all : engpcFds.filter (· < nengfds) = engpcFds := Finset.filter_true_of_mem bounded
        rw [dif_neg slot, all] at taken
        split at taken
        · obtain rfl := Option.some.inj taken
          exact inv.reader (watches.sleep slot) trivial
        · obtain rfl := Option.some.inj taken
          exact inv.reader trivial trivial

theorem Inv.select {s s' : State} {answer : Option (Finset Int)} (inv : Inv s)
    (taken : selectStep s answer = some s') : Inv s' := by
  unfold selectStep at taken
  split at taken
  · obtain rfl := Option.some.inj taken
    exact inv.reader trivial trivial
  · split_ifs at taken
    all_goals
      obtain rfl := Option.some.inj taken
      exact inv.reader trivial trivial
  · cases taken

theorem Inv.notified {notifyFd : Int} {s s' : State} (inv : Inv s)
    (taken : notifiedStep notifyFd s = some s') : Inv s' := by
  unfold notifiedStep at taken
  split at taken
  · obtain rfl := Option.some.inj taken
    split
    · exact ⟨inv.owned, watches_rescan _ _ _ notifyFd, bounded_rescan notifyFd⟩
    · exact ⟨inv.owned, trivial, trivial⟩
  · cases taken

theorem Inv.handle {notifyFd : Int} {s s' : State} {ends more : Bool} (inv : Inv s)
    (taken : handleStep notifyFd s ends more = some s') : Inv s' := by
  unfold handleStep at taken
  split at taken
  · rename_i i num engpcFds _
    split at taken
    · rename_i slot
      by_cases ready : s.table.clientFd ⟨i, slot.1⟩ ≠ -1 ∧ s.table.clientFd ⟨i, slot.1⟩ ∈ engpcFds
      · rw [if_pos ready] at taken
        obtain ⟨_, read⟩ := Option.ite_none_left_eq_some.mp taken
        cases ends with
        | true =>
            obtain rfl := Option.some.inj read
            exact ⟨inv.owned.clear _, trivial, trivial⟩
        | false =>
            obtain rfl := Option.some.inj read
            exact ⟨inv.owned, trivial, trivial⟩
      · rw [if_neg ready] at taken
        obtain rfl := Option.some.inj taken
        exact inv.reader trivial trivial
    · obtain rfl := Option.some.inj taken
      exact inv.reader (watches_rescan _ _ _ notifyFd) (bounded_rescan notifyFd)
  · cases taken

theorem Inv.step {notifyFd : Int} {s s' : State} {input : Input} (inv : Inv s)
    (taken : step notifyFd s input = some s') : Inv s' := by
  cases input with
  | accept n =>
      obtain ⟨⟨waiting, fd, fresh⟩, accepted⟩ := Option.ite_none_right_eq_some.mp taken
      obtain rfl := Option.some.inj accepted
      refine ⟨inv.owned.accept fd fresh _, inv.watches.mono ?_, inv.bounded⟩
      rintro j m ⟨held, some, _⟩
      exact ⟨held, some, by simp [waiting]⟩
  | acceptor => exact inv.acceptor taken
  | scan => exact inv.scan taken
  | select answer => exact inv.select taken
  | notified => exact inv.notified taken
  | handle ends more => exact inv.handle taken
  | send n =>
      obtain ⟨_, sent⟩ := Option.ite_none_right_eq_some.mp taken
      obtain rfl := Option.some.inj sent
      exact ⟨inv.owned, inv.watches, inv.bounded⟩
  | drop i =>
      obtain ⟨_, dropped⟩ := Option.ite_none_right_eq_some.mp taken
      obtain rfl := Option.some.inj dropped
      exact inv.clear i

/-- However the accept loop, the reader, the broadcasts and the clients take turns, a client
    with something to read is not slept over, except between the moment its slot is filled
    and the write to the pipe that follows, which wakes the reader. -/
theorem unheard_only_before_notify (notifyFd : Int) (inputs : List Input) :
    Throughout (step notifyFd)
      (fun s => ∀ i, Unheard s i → s.acceptor = .notify i ∧
        ∃ s', step notifyFd s .acceptor = some s' ∧ ¬ Asleep s')
      (init notifyFd) inputs := by
  have kept : Throughout (step notifyFd) Inv (init notifyFd) inputs := by
    apply throughout_of_along _ (inv_init notifyFd) (along_true (init notifyFd) inputs)
    intro s input s' inv _ taken
    exact inv.step taken
  refine kept.mono ?_
  rintro s inv i ⟨⟨engpcFds, watched, sleeping, empty, silent⟩, held, readable⟩
  have watches := inv.watches
  rw [sleeping] at watches
  have notifying : s.acceptor = .notify i := by
    by_contra announced
    have quiet : ¬ 0 < s.notifypipe := by omega
    have watched := watches.mem quiet (i := i) (a := s.table.clientFd i) ⟨rfl, held, announced⟩
    exact Finset.disjoint_left.mp silent (Finset.mem_coe.mp watched) readable
  refine ⟨notifying, { s with notifypipe := s.notifypipe + 2, acceptor := .waiting }, ?_, ?_⟩
  · simp [step, acceptorStep, notifying, empty, PIPE_SIZE]
  · rintro ⟨_, _, _, still, _⟩
    exact absurd still (Nat.succ_ne_zero _)

end ModemControl.ClientWatch
