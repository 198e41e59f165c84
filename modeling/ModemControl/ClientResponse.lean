import Mathlib.Data.Finset.Card
import Mathlib.Data.Fintype.Basic
import ModemControl.ClientWatch
import ModemControl.Foundation.Ranking

/-! # How long a client waits for the reader

`num`, the number of descriptors that `select` found, ends the reader's pass over the slots
early. A client that is ready is read in that pass all the same, as long as no new
connection is given the number of one that was closed since the pass began: its slot would
be counted for the other.
-/

namespace ModemControl.ClientWatch

open Foundation ClientState ClientTable

/-- The descriptors in the reader's set. -/
def Reader.fds : Reader → Finset Int
  | .scan _ engpcFds _ => engpcFds
  | .select engpcFds _ => engpcFds
  | .notified _ engpcFds => engpcFds
  | .handle _ _ engpcFds => engpcFds

/-- The reader's steps to the end of its pass, at most. -/
def Reader.rest : Reader → Nat
  | .scan i _ _ => (MAX_CLIENT_NUM - i) + 1 + (MAX_CLIENT_NUM + 3)
  | .select _ _ => MAX_CLIENT_NUM + 3
  | .notified _ _ => MAX_CLIENT_NUM + 2
  | .handle i _ _ => MAX_CLIENT_NUM - i + 1

/-- The steps of a whole pass. -/
def PASS : Nat := 2 * MAX_CLIENT_NUM + 4

/-- The steps of the reader. -/
def Input.reader : Input → Bool
  | .scan | .select _ | .notified | .handle _ _ => true
  | _ => false

/-- The reader reads from the client in this slot. -/
def Reads (i : Slot) (s : State) (input : Input) : Prop :=
  (∃ ends more, input = .handle ends more) ∧
    ∃ num engpcFds, s.reader = .handle i num engpcFds ∧ 0 < num ∧
      s.table.clientFd i ≠ -1 ∧ s.table.clientFd i ∈ engpcFds

/-- The client keeps its slot, `select` does not fail, and no connection is given a number
    that is in the reader's set. -/
def Undisturbed (i : Slot) (s : State) : Input → Prop
  | .accept n => n ∉ s.reader.fds
  | .acceptor =>
      match s.acceptor with
      | .scan _ index => index = i → i.val + 1 < MAX_CLIENT_NUM
      | _ => True
  | .scan =>
      match s.reader with
      | .scan k engpcFds _ => MAX_CLIENT_NUM ≤ k → engpcFds ⊆ s.table.opened
      | _ => True
  | .select answer => answer.isSome
  | .drop j => j ≠ i
  | _ => True

instance (i : Slot) (s : State) (input : Input) : Decidable (Undisturbed i s input) := by
  cases input <;> dsimp only [Undisturbed] <;> (try split) <;> infer_instance

/-- The client has something to read. -/
structure Waits (i : Slot) (s : State) : Prop where
  held : s.table.clientFd i ≠ -1
  readable : s.table.clientFd i ∈ s.readable

/-- The slots from `k` on that are taken for ready. -/
def remaining (clientFd : Slot → Int) (k : Nat) (engpcFds : Finset Int) : Finset Slot :=
  {j | k ≤ j.val ∧ clientFd j ≠ -1 ∧ clientFd j ∈ engpcFds}

/-- The reader comes to this slot in the pass it is in. -/
def Comes (i : Slot) (clientFd : Slot → Int) : Reader → Prop
  | .scan k engpcFds _ => k ≤ i.val ∨ clientFd i ∈ engpcFds
  | .select _ watched => clientFd i ∈ watched
  | .notified num engpcFds =>
      clientFd i ∈ engpcFds ∧ ((remaining clientFd 0 engpcFds).card : Int) < num
  | .handle k num engpcFds =>
      clientFd i ∈ engpcFds ∧ k ≤ i.val ∧ ((remaining clientFd k engpcFds).card : Int) ≤ num

structure Sure (i : Slot) (s : State) : Prop where
  fresh : ∀ n index, s.acceptor = .scan n index → n ∉ s.reader.fds
  comes : Comes i s.table.clientFd s.reader

theorem mem_remaining {clientFd : Slot → Int} {k : Nat} {engpcFds : Finset Int} {j : Slot} :
    j ∈ remaining clientFd k engpcFds ↔
      k ≤ j.val ∧ clientFd j ≠ -1 ∧ clientFd j ∈ engpcFds := by
  simp [remaining]

theorem remaining_card_le {t : Table} {acceptor : Acceptor} (owned : Owned t acceptor)
    (engpcFds : Finset Int) : (remaining t.clientFd 0 engpcFds).card ≤ engpcFds.card := by
  apply Finset.card_le_card_of_injOn t.clientFd
  · intro j member
    exact (mem_remaining.mp (Finset.mem_coe.mp member)).2.2
  · intro j member k _ same
    exact owned.distinct j k (mem_remaining.mp (Finset.mem_coe.mp member)).2.1 same

/-- The slot the reader is at is taken for ready, and is done with. -/
theorem remaining_card_succ {clientFd : Slot → Int} {k : Slot} {engpcFds : Finset Int}
    (ready : clientFd k ≠ -1 ∧ clientFd k ∈ engpcFds) :
    (remaining clientFd (k.val + 1) engpcFds).card + 1 = (remaining clientFd k engpcFds).card := by
  have here : k ∈ remaining clientFd k engpcFds := mem_remaining.mpr ⟨le_rfl, ready⟩
  have later : remaining clientFd (k.val + 1) engpcFds = (remaining clientFd k engpcFds).erase k := by
    ext j
    have next : k.val + 1 ≤ j.val ↔ j ≠ k ∧ k.val ≤ j.val := by
      rw [Fin.ne_iff_vne]
      omega
    rw [Finset.mem_erase, mem_remaining, mem_remaining, next, and_assoc]
  rw [later, Finset.card_erase_add_one here]

theorem remaining_succ {clientFd : Slot → Int} {k : Nat} {engpcFds : Finset Int} :
    remaining clientFd (k + 1) engpcFds ⊆ remaining clientFd k engpcFds := by
  intro j member
  obtain ⟨ahead, ready⟩ := mem_remaining.mp member
  exact mem_remaining.mpr ⟨by omega, ready⟩

/-- A slot that is cleared, or filled with a number that is not in the set, is not taken for
    ready any more. -/
theorem remaining_update (clientFd : Slot → Int) (k : Nat) {engpcFds : Finset Int} (j : Slot)
    {n : Int} (other : n = -1 ∨ n ∉ engpcFds) :
    remaining (Function.update clientFd j n) k engpcFds ⊆ remaining clientFd k engpcFds := by
  intro l member
  obtain ⟨ahead, held, ready⟩ := mem_remaining.mp member
  by_cases same : l = j
  · subst same
    rw [Function.update_self] at held ready
    exact (other.elim held fun absent => absent ready).elim
  · rw [Function.update_of_ne same] at held ready
    exact mem_remaining.mpr ⟨ahead, held, ready⟩

/-- Another slot is cleared or filled. -/
theorem Comes.update {i j : Slot} {clientFd : Slot → Int} {reader : Reader} {n : Int}
    (comes : Comes i clientFd reader) (different : i ≠ j) (other : n = -1 ∨ n ∉ reader.fds) :
    Comes i (Function.update clientFd j n) reader := by
  cases reader with
  | scan | select =>
      unfold Comes at *
      rwa [Function.update_of_ne different]
  | notified num engpcFds =>
      have fewer := Finset.card_le_card (@remaining_update clientFd 0 engpcFds j n other)
      unfold Comes at *
      rw [Function.update_of_ne different]
      exact ⟨comes.1, by omega⟩
  | handle k num engpcFds =>
      have fewer := Finset.card_le_card (@remaining_update clientFd k engpcFds j n other)
      unfold Comes at *
      rw [Function.update_of_ne different]
      exact ⟨comes.1, comes.2.1, by omega⟩

@[simp] theorem closed_fds (reader : Reader) (fd : Int) : (reader.closed fd).fds = reader.fds := by
  cases reader <;> rfl

@[simp] theorem closed_rest (reader : Reader) (fd : Int) : (reader.closed fd).rest = reader.rest := by
  cases reader <;> rfl

theorem Comes.closed {i : Slot} {clientFd : Slot → Int} {reader : Reader} {fd : Int}
    (comes : Comes i clientFd reader) (different : clientFd i ≠ fd) :
    Comes i clientFd (reader.closed fd) := by
  cases reader with
  | scan | notified | handle => exact comes
  | select => exact Finset.mem_erase.mpr ⟨different, comes⟩

/-- Another client is closed, and its slot cleared or filled. -/
theorem Waits.replace {i j : Slot} {s : State} (waits : Waits i s) (different : i ≠ j)
    (owned : Owned s.table s.acceptor) (n : Int) : Waits i (s.replace j n) := by
  have distinct := owned.distinct i j waits.held
  have held := waits.held
  have readable := waits.readable
  constructor
  · unfold State.replace
    grind
  · unfold State.replace
    grind

theorem Comes.replace {i j : Slot} {s : State} (comes : Comes i s.table.clientFd s.reader)
    (waits : Waits i s) (different : i ≠ j) (owned : Owned s.table s.acceptor) {n : Int}
    (other : n = -1 ∨ n ∉ s.reader.fds) :
    Comes i (s.replace j n).table.clientFd (s.replace j n).reader := by
  have distinct := owned.distinct i j waits.held
  have closed := comes.closed (fun same => different (distinct same))
  have updated := closed.update different (n := n) (by rwa [closed_fds])
  simpa only [State.replace, Table.set, close_clientFd] using updated

/-- A step of the others: the client still waits, and the reader is no farther from it. -/
structure Stays (i : Slot) (s s' : State) : Prop where
  waits : Waits i s'
  sure : Sure i s → Sure i s'
  rest : s'.reader.rest = s.reader.rest

/-- A step of the reader to another client, or to the head of its loop. -/
structure Advances (i : Slot) (s s' : State) : Prop where
  waits : Waits i s'
  sure : Sure i s → Sure i s'
  nearer : s'.reader.rest < s.reader.rest ∨ ¬ Sure i s ∧ Sure i s' ∧ s'.reader.rest ≤ PASS

theorem sure_rescan (i : Slot) {s : State} {notifyFd : Int} (start : s.reader = rescan notifyFd) :
    Sure i s where
  fresh n index _ := by
    rw [start]
    exact Finset.notMem_empty n
  comes := by
    rw [start]
    exact Or.inl (Nat.zero_le i.val)

theorem stays_acceptor {i : Slot} {s s' : State} (waits : Waits i s) (inv : Inv s)
    (undisturbed : Undisturbed i s .acceptor) (taken : acceptorStep s = some s') :
    Stays i s s' := by
  unfold acceptorStep at taken
  cases acceptor : s.acceptor with
  | waiting => simp [acceptor] at taken
  | notify index =>
      simp only [acceptor] at taken
      obtain ⟨_, posted⟩ := Option.ite_none_right_eq_some.mp taken
      obtain rfl := Option.some.inj posted
      exact ⟨⟨waits.held, waits.readable⟩, fun sure => ⟨nofun, sure.comes⟩, rfl⟩
  | scan n index =>
      simp only [acceptor] at taken
      by_cases free : s.table.clientFd index = -1
      · rw [if_pos free] at taken
        obtain rfl := Option.some.inj taken
        have different : i ≠ index := fun same => waits.held (same ▸ free)
        have same : (s.table.set index n).clientFd i = s.table.clientFd i :=
          (Table.set_clientFd s.table index i n).trans (if_neg different)
        refine ⟨⟨?_, ?_⟩, fun sure => ⟨nofun, ?_⟩, rfl⟩
        · exact fun cleared => waits.held (same.symm.trans cleared)
        · exact same.symm ▸ waits.readable
        · exact sure.comes.update different (Or.inr (sure.fresh n index acceptor))
      · rw [if_neg free] at taken
        split at taken
        · obtain rfl := Option.some.inj taken
          refine ⟨⟨waits.held, waits.readable⟩, fun sure => ⟨?_, sure.comes⟩, rfl⟩
          rintro m later scanning
          cases scanning
          exact sure.fresh n index acceptor
        · rename_i last
          obtain rfl := Option.some.inj taken
          have different : i ≠ index := by
            rintro rfl
            simp only [Undisturbed, acceptor, forall_const] at undisturbed
            exact last undisturbed
          have replaced := waits.replace different inv.owned n
          refine ⟨⟨replaced.held, replaced.readable⟩, fun sure => ⟨nofun, ?_⟩, closed_rest _ _⟩
          exact sure.comes.replace waits different inv.owned (Or.inr (sure.fresh n index acceptor))

theorem advances_scan {i : Slot} {s s' : State} (waits : Waits i s) (inv : Inv s)
    (undisturbed : Undisturbed i s .scan) (taken : scanStep s = some s') : Advances i s s' := by
  unfold scanStep at taken
  have bounded := inv.bounded
  cases reader : s.reader with
  | select | notified | handle => simp [reader] at taken
  | scan k engpcFds nengfds =>
      rw [reader] at bounded
      simp only [reader] at taken
      by_cases slot : k < MAX_CLIENT_NUM
      · rw [dif_pos slot] at taken
        have shorter : (MAX_CLIENT_NUM - (k + 1)) + 1 + (MAX_CLIENT_NUM + 3) < s.reader.rest := by
          simp only [reader, Reader.rest]
          omega
        by_cases free : s.table.clientFd ⟨k, slot⟩ = -1
        · rw [if_neg (not_not.mpr free)] at taken
          obtain rfl := Option.some.inj taken
          refine ⟨⟨waits.held, waits.readable⟩, fun sure => ?_, Or.inl shorter⟩
          have fresh := sure.fresh
          have comes := sure.comes
          rw [reader] at fresh comes
          refine ⟨fresh, comes.imp_left fun ahead => ?_⟩
          have different : k ≠ i.val := by
            rintro rfl
            exact waits.held free
          omega
        · rw [if_pos free] at taken
          obtain rfl := Option.some.inj taken
          refine ⟨⟨waits.held, waits.readable⟩, fun sure => ⟨?_, ?_⟩, Or.inl shorter⟩
          · intro n index scanning member
            rcases Finset.mem_insert.mp member with same | member
            · exact (inv.owned.fresh n index scanning).2.2 ⟨k, slot⟩ same.symm
            · have fresh := sure.fresh n index scanning
              rw [reader] at fresh
              exact fresh member
          · have comes := sure.comes
            rw [reader] at comes
            rcases comes with ahead | member
            · by_cases here : k = i.val
              · subst here
                exact Or.inr (Finset.mem_insert_self _ engpcFds)
              · exact Or.inl (by omega)
            · exact Or.inr (Finset.mem_insert_of_mem member)
      · have all : engpcFds.filter (· < nengfds) = engpcFds := Finset.filter_true_of_mem bounded
        simp only [Undisturbed, reader] at undisturbed
        have proper := undisturbed (by omega)
        rw [dif_neg slot, all, if_pos proper] at taken
        obtain rfl := Option.some.inj taken
        refine ⟨⟨waits.held, waits.readable⟩, fun sure => ?_, Or.inl ?_⟩
        · have fresh := sure.fresh
          have comes := sure.comes
          rw [reader] at fresh comes
          exact ⟨fresh, comes.resolve_left (by omega)⟩
        · simp only [reader, Reader.rest]
          omega

theorem advances_select {i : Slot} {s s' : State} {answer : Option (Finset Int)}
    (waits : Waits i s) (inv : Inv s) (undisturbed : Undisturbed i s (.select answer))
    (taken : selectStep s answer = some s') : Advances i s s' := by
  unfold selectStep at taken
  cases reader : s.reader with
  | scan | notified | handle => simp [reader] at taken
  | select engpcFds watched =>
      cases answer with
      | none => exact absurd undisturbed Bool.false_ne_true
      | some fds =>
          simp only [reader] at taken
          obtain ⟨⟨passed, answered, _⟩, returned⟩ := Option.ite_none_right_eq_some.mp taken
          have few := remaining_card_le inv.owned fds
          have sure : Sure i s → s.table.clientFd i ∈ fds ∧
              ∀ n index, s.acceptor = .scan n index → n ∉ fds := by
            intro sure
            have fresh := sure.fresh
            have comes := sure.comes
            rw [reader] at fresh comes
            refine ⟨answered (Finset.mem_inter.mpr ⟨comes, waits.readable⟩), ?_⟩
            exact fun n index scanning member => fresh n index scanning (passed member)
          split at returned
          · obtain rfl := Option.some.inj returned
            refine ⟨⟨waits.held, waits.readable⟩, ?_, Or.inl ?_⟩
            · intro before
              refine ⟨(sure before).2, (sure before).1, ?_⟩
              dsimp only
              omega
            · simp only [reader, Reader.rest]
              omega
          · obtain rfl := Option.some.inj returned
            refine ⟨⟨waits.held, waits.readable⟩, ?_, Or.inl ?_⟩
            · intro before
              refine ⟨(sure before).2, (sure before).1, Nat.zero_le i.val, ?_⟩
              dsimp only
              omega
            · simp only [reader, Reader.rest]
              omega

/-- A slot that is taken for ready is among those that remain. -/
theorem remaining_pos {i : Slot} {clientFd : Slot → Int} {k : Nat} {engpcFds : Finset Int}
    (held : clientFd i ≠ -1) (ahead : k ≤ i.val) (ready : clientFd i ∈ engpcFds) :
    0 < (remaining clientFd k engpcFds).card :=
  Finset.card_pos.mpr ⟨i, mem_remaining.mpr ⟨ahead, held, ready⟩⟩

theorem advances_notified {notifyFd : Int} {i : Slot} {s s' : State} (waits : Waits i s)
    (taken : notifiedStep notifyFd s = some s') : Advances i s s' := by
  unfold notifiedStep at taken
  cases reader : s.reader with
  | scan | select | handle => simp [reader] at taken
  | notified num engpcFds =>
      simp only [reader] at taken
      have more : Sure i s → 1 < num := by
        intro sure
        have comes := sure.comes
        rw [reader] at comes
        have := remaining_pos waits.held (Nat.zero_le i.val) comes.1
        have := comes.2
        omega
      obtain rfl := Option.some.inj taken
      by_cases alone : num = 1
      · have unsure : ¬ Sure i s := by
          intro sure
          have := more sure
          omega
        have head : (if num = 1 then rescan notifyFd else .handle 0 num engpcFds) =
            rescan notifyFd := if_pos alone
        exact ⟨⟨waits.held, waits.readable⟩, fun sure => absurd sure unsure,
          Or.inr ⟨unsure, sure_rescan i head, by simp only [head]; exact le_rfl⟩⟩
      · rw [if_neg alone]
        refine ⟨⟨waits.held, waits.readable⟩, ?_, Or.inl ?_⟩
        · intro sure
          have fresh := sure.fresh
          have comes := sure.comes
          rw [reader] at fresh comes
          exact ⟨fresh, comes.1, Nat.zero_le i.val, le_of_lt comes.2⟩
        · simp only [reader, Reader.rest]
          omega

/-- The reader is done with another slot that is taken for ready. -/
theorem Comes.read {i k : Slot} {clientFd : Slot → Int} {num : Int} {engpcFds : Finset Int}
    (comes : Comes i clientFd (.handle k num engpcFds)) (different : i ≠ k)
    (ready : clientFd k ≠ -1 ∧ clientFd k ∈ engpcFds) :
    Comes i clientFd (.handle (k.val + 1) (num - 1) engpcFds) := by
  obtain ⟨member, ahead, left⟩ := comes
  have one := remaining_card_succ ready
  have : i.val ≠ k.val := Fin.val_ne_of_ne different
  refine ⟨member, by omega, by omega⟩

theorem Comes.pass {i : Slot} {k : Nat} {clientFd : Slot → Int} {num : Int}
    {engpcFds : Finset Int} (comes : Comes i clientFd (.handle k num engpcFds))
    (different : k ≠ i.val) : Comes i clientFd (.handle (k + 1) num engpcFds) := by
  obtain ⟨member, ahead, left⟩ := comes
  have fewer := Finset.card_le_card (@remaining_succ clientFd k engpcFds)
  exact ⟨member, by omega, by omega⟩

theorem advances_handle {notifyFd : Int} {i : Slot} {s s' : State} {ends more : Bool}
    (waits : Waits i s) (inv : Inv s) (unread : ¬ Reads i s (.handle ends more))
    (taken : handleStep notifyFd s ends more = some s') : Advances i s s' := by
  unfold handleStep at taken
  cases reader : s.reader with
  | scan | select | notified => simp [reader] at taken
  | handle k num engpcFds =>
      simp only [reader] at taken
      have pass : Sure i s → s.table.clientFd i ∈ engpcFds ∧ k ≤ i.val ∧ 0 < num := by
        intro sure
        have comes := sure.comes
        rw [reader] at comes
        have := remaining_pos waits.held comes.2.1 comes.1
        have := comes.2.2
        exact ⟨comes.1, comes.2.1, by omega⟩
      by_cases slot : k < MAX_CLIENT_NUM ∧ 0 < num
      · rw [dif_pos slot] at taken
        have shorter : MAX_CLIENT_NUM - (k + 1) + 1 < s.reader.rest := by
          simp only [reader, Reader.rest]
          omega
        have fresh : Sure i s → ∀ n index, s.acceptor = .scan n index → n ∉ engpcFds := by
          intro sure
          have fresh := sure.fresh
          rwa [reader] at fresh
        have comes : Sure i s → Comes i s.table.clientFd (.handle k num engpcFds) := by
          intro sure
          have comes := sure.comes
          rwa [reader] at comes
        by_cases ready : s.table.clientFd ⟨k, slot.1⟩ ≠ -1 ∧ s.table.clientFd ⟨k, slot.1⟩ ∈ engpcFds
        · rw [if_pos ready] at taken
          obtain ⟨_, read⟩ := Option.ite_none_left_eq_some.mp taken
          have different : i ≠ ⟨k, slot.1⟩ := by
            rintro rfl
            exact unread ⟨⟨ends, more, rfl⟩, num, engpcFds, reader, slot.2, ready⟩
          have distinct := inv.owned.distinct i ⟨k, slot.1⟩ waits.held
          cases ends with
          | true =>
              obtain rfl := Option.some.inj read
              have replaced := waits.replace different inv.owned (-1)
              refine ⟨⟨replaced.held, replaced.readable⟩, ?_, Or.inl shorter⟩
              intro sure
              refine ⟨fresh sure, ?_⟩
              have read := (comes sure).read different ready
              simpa only [State.replace, Table.set, close_clientFd] using
                read.update different (n := -1) (Or.inl rfl)
          | false =>
              obtain rfl := Option.some.inj read
              refine ⟨⟨waits.held, ?_⟩, ?_, Or.inl shorter⟩
              · have readable := waits.readable
                dsimp only
                grind
              · exact fun sure => ⟨fresh sure, (comes sure).read different ready⟩
        · rw [if_neg ready] at taken
          obtain rfl := Option.some.inj taken
          refine ⟨⟨waits.held, waits.readable⟩, ?_, Or.inl shorter⟩
          intro sure
          refine ⟨fresh sure, (comes sure).pass ?_⟩
          rintro rfl
          exact ready ⟨waits.held, (pass sure).1⟩
      · rw [dif_neg slot] at taken
        obtain rfl := Option.some.inj taken
        have unsure : ¬ Sure i s := by
          intro sure
          obtain ⟨_, ahead, left⟩ := pass sure
          exact slot ⟨Nat.lt_of_le_of_lt ahead i.isLt, left⟩
        exact ⟨⟨waits.held, waits.readable⟩, fun sure => absurd sure unsure,
          Or.inr ⟨unsure, sure_rescan i rfl, le_rfl⟩⟩

theorem rest_pos (reader : Reader) : 0 < reader.rest := by
  cases reader with
  | _ => simp only [Reader.rest]; omega

/-- The reader comes to the client behind at most so many other steps. -/
structure Within (i : Slot) (s : State) (n : Nat) : Prop where
  inv : Inv s
  waits : Waits i s
  steps : Sure i s ∧ s.reader.rest ≤ n + 1 ∨ s.reader.rest + PASS ≤ n + 1

theorem Within.advances {i : Slot} {s s' : State} {n : Nat} (within : Within i s n) (inv : Inv s')
    (advances : Advances i s s') : ∃ m, m + 1 ≤ n ∧ Within i s' m := by
  have here := rest_pos s.reader
  have there := rest_pos s'.reader
  have pass : 1 < PASS := by decide
  have steps : (Sure i s' ∧ s'.reader.rest ≤ n ∨ s'.reader.rest + PASS ≤ n) ∧ 0 < n := by
    rcases within.steps with ⟨sure, rest⟩ | rest
    · rcases advances.nearer with nearer | ⟨unsure, _⟩
      · exact ⟨Or.inl ⟨advances.sure sure, by omega⟩, by omega⟩
      · exact absurd sure unsure
    · rcases advances.nearer with nearer | ⟨_, sure, head⟩
      · exact ⟨Or.inr (by omega), by omega⟩
      · exact ⟨Or.inl ⟨sure, by omega⟩, by omega⟩
  obtain ⟨nearer, positive⟩ := steps
  have next : n - 1 + 1 = n := by omega
  exact ⟨n - 1, next.le, inv, advances.waits, by rwa [next]⟩

theorem Within.stays {i : Slot} {s s' : State} {n : Nat} (within : Within i s n) (inv : Inv s')
    (stays : Stays i s s') : Within i s' n := by
  refine ⟨inv, stays.waits, ?_⟩
  rw [stays.rest]
  exact within.steps.imp_left fun sure => ⟨stays.sure sure.1, sure.2⟩

theorem advances_step {notifyFd : Int} {i : Slot} {s s' : State} {input : Input}
    (waits : Waits i s) (inv : Inv s) (undisturbed : Undisturbed i s input)
    (unread : ¬ Reads i s input) (reader : input.reader)
    (taken : step notifyFd s input = some s') : Advances i s s' := by
  cases input with
  | accept | acceptor | send | drop => cases reader
  | scan => exact advances_scan waits inv undisturbed taken
  | select answer => exact advances_select waits inv undisturbed taken
  | notified => exact advances_notified waits taken
  | handle ends more => exact advances_handle waits inv unread taken

theorem stays_step {notifyFd : Int} {i : Slot} {s s' : State} {input : Input}
    (waits : Waits i s) (inv : Inv s) (undisturbed : Undisturbed i s input)
    (other : ¬ input.reader) (taken : step notifyFd s input = some s') : Stays i s s' := by
  cases input with
  | scan | select | notified | handle => exact absurd rfl other
  | acceptor => exact stays_acceptor waits inv undisturbed taken
  | accept n =>
      obtain ⟨_, accepted⟩ := Option.ite_none_right_eq_some.mp taken
      obtain rfl := Option.some.inj accepted
      refine ⟨⟨waits.held, waits.readable⟩, fun sure => ⟨?_, sure.comes⟩, rfl⟩
      rintro m index scanning
      cases scanning
      exact undisturbed
  | send n =>
      obtain ⟨_, sent⟩ := Option.ite_none_right_eq_some.mp taken
      obtain rfl := Option.some.inj sent
      exact ⟨⟨waits.held, Finset.mem_insert_of_mem waits.readable⟩,
        fun sure => ⟨sure.fresh, sure.comes⟩, rfl⟩
  | drop j =>
      obtain ⟨_, dropped⟩ := Option.ite_none_right_eq_some.mp taken
      obtain rfl := Option.some.inj dropped
      have different := Ne.symm undisturbed
      refine ⟨waits.replace different inv.owned (-1), fun sure => ⟨?_, ?_⟩, closed_rest _ _⟩
      · intro n index scanning
        have fresh := sure.fresh n index scanning
        simpa only [State.replace, closed_fds] using fresh
      · exact sure.comes.replace waits different inv.owned (Or.inl rfl)

/-- A client that has something to read is read in the steps that the reader takes for two
    passes over the slots, whatever else goes on, while it keeps its slot, `select` does not
    fail, and no connection is given a number that is in the reader's set. -/
theorem read_within_two_passes {notifyFd : Int} {earlier later : List Input} {s t : State} {i : Slot}
    (reached : run (step notifyFd) (init notifyFd) earlier = some s)
    (held : s.table.clientFd i ≠ -1) (readable : s.table.clientFd i ∈ s.readable)
    (followed : run (step notifyFd) s later = some t)
    (undisturbed : Along (step notifyFd) (Undisturbed i) s later)
    (steps : 2 * PASS ≤ later.countP Input.reader) :
    ∃ before input rest s', later = before ++ input :: rest ∧
      run (step notifyFd) s before = some s' ∧ Reads i s' input := by
  apply exists_of_not_along
  intro unread
  have along := along_and.mpr ⟨undisturbed, unread⟩
  have inv : Inv s := by
    refine Throughout.last (throughout_of_along ?_ (inv_init notifyFd) (along_true _ earlier)) reached
    intro s input s' inv _ taken
    exact inv.step taken
  have positive : 0 < PASS := by decide
  have start : Within i s (2 * PASS - 1) := by
    refine ⟨inv, ⟨held, readable⟩, Or.inr ?_⟩
    have whole : s.reader.rest ≤ PASS := by
      cases s.reader with
      | _ => simp only [Reader.rest, PASS]; omega
    omega
  have few : later.countP Input.reader ≤ 2 * PASS - 1 := by
    refine countP_le_of_rank ?_ ?_ start along followed
    · intro s input s' n within quiet taken reader
      exact within.advances (within.inv.step taken)
        (advances_step within.waits within.inv quiet.1 quiet.2 reader taken)
    · intro s input s' n within quiet taken other
      exact within.stays (within.inv.step taken)
        (stays_step within.waits within.inv quiet.1 other taken)
  omega

/-- A client that is accepted and sends something, and the reader's first pass. -/
def opening : List Input :=
  [.accept 7, .acceptor, .acceptor, .send 7] ++ .replicate 21 .scan ++
    [.select (some {7}), .notified] ++ .replicate 21 (.handle false false) ++ [.send 7]

/-- A pass that finds it, and what it sends for the next one. -/
def round : List Input :=
  .replicate 21 .scan ++ [.select (some {7}), .handle false false, .handle false false, .send 7]

/-- The state behind the first pass. -/
def opened : State := (run (step 5) (init 5) opening).get (by decide)

theorem read_within_two_passes_slot_0 :
    ∃ before input rest s', (List.replicate 4 round).flatten = before ++ input :: rest ∧
      run (step 5) opened before = some s' ∧ Reads ⟨0, by decide⟩ s' input :=
  read_within_two_passes (t := (run (step 5) opened (List.replicate 4 round).flatten).get (by decide))
    (Option.some_get _).symm (by decide) (by decide) (Option.some_get _).symm
    (by decide +kernel) (by decide)

end ModemControl.ClientWatch
