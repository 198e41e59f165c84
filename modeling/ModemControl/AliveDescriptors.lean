import Mathlib.Data.Finset.Card
import ModemControl.ListenModem

/-! # The descriptors of the alive device: modem_control.c

`modem_ctrl_try_read_modem_alive` from its call to its return, over any number of restarts
of the modem. The locals `cnt` and `fd` are not initialised, so they begin with any value.
-/

namespace ModemControl.AliveDescriptors

open Foundation ListenModem

inductive Pc where
  /-- Not called, or returned. -/
  | idle
  /-- In the loop of `open`, with another round to go. -/
  | opening (cnt fd : Int)
  /-- Behind this loop. -/
  | opened (fd : Int)
  | reading (fd : Int) (loop : AliveLoop)
  deriving DecidableEq

structure State where
  /-- All descriptors that are open. -/
  fds : Finset Int
  /-- Those that were opened here. -/
  held : Finset Int := ∅
  pc : Pc := .idle
  deriving DecidableEq

inductive Input where
  /-- `modem_ctrl_start_wait_alive_timer`. -/
  | start (hasAliveProp : Bool) (cnt fd : Int)
  | openAliveDev (result : Int)
  /-- The first test of the read loop; whether the timer still runs. -/
  | enter (timer : Bool)
  /-- A round of the read loop. -/
  | round (r : AliveRound)
  | close
  deriving DecidableEq

/-- How often the device is opened when the counter starts at 0. -/
def OPEN_ROUNDS : Int := 600

/-- The test behind the loop of `open`. -/
def behindOpen (fd : Int) : Pc := if fd < 0 then .idle else .opened fd

/-- `while(cnt++ < 600)`. -/
def openLoop (cnt fd : Int) : Pc := if cnt < OPEN_ROUNDS then .opening cnt fd else behindOpen fd

/-- A call to `open` that succeeds gives a descriptor that was not in use. -/
def step (s : State) : Input → Option State
  | .start hasAliveProp cnt fd =>
      match s.pc with
      | .idle => some (if hasAliveProp then s else { s with pc := openLoop cnt fd })
      | _ => none
  | .openAliveDev result =>
      match s.pc with
      | .opening cnt _ =>
          if result < 0 then some { s with pc := openLoop (cnt + 1) result }
          else if result ∈ s.fds then none
          else some ⟨insert result s.fds, insert result s.held, openLoop (cnt + 1) result⟩
      | _ => none
  | .enter timer =>
      match s.pc with
      | .opened fd => some { s with pc := .reading fd ⟨{()}, 1, goesOn 0 timer⟩ }
      | _ => none
  | .round r =>
      match s.pc with
      | .reading fd loop => (aliveStep loop r).map fun loop => { s with pc := .reading fd loop }
      | _ => none
  | .close =>
      match s.pc with
      | .reading fd loop =>
          if loop.running then none else some ⟨s.fds.erase fd, s.held.erase fd, .idle⟩
      | _ => none

/-- At most one descriptor is held, and none behind the return. -/
structure Tight (fds : Finset Int) (s : State) : Prop where
  one : s.held.card ≤ 1
  none : s.pc = .idle → s.held = ∅ ∧ s.fds = fds

/-- The device is opened in the last round only; and if there is no round, what happens to be
    in `fd` is no open descriptor. -/
def LastOnly (s : State) : Input → Prop
  | .start false cnt fd => OPEN_ROUNDS ≤ cnt → fd < 0 ∨ fd ∉ s.fds
  | .openAliveDev result =>
      match s.pc with
      | .opening cnt _ => 0 ≤ result → cnt + 1 = OPEN_ROUNDS
      | _ => True
  | _ => True

instance (s : State) (i : Input) : Decidable (LastOnly s i) := by
  unfold LastOnly
  split
  · infer_instance
  · split <;> infer_instance
  · infer_instance

/-- A descriptor is held, or the number in `fd` is none. -/
inductive Owns (fds : Finset Int) (fd : Int) (s : State) : Prop where
  | held (fresh : fd ∉ fds) (own : s.held = {fd}) (more : s.fds = insert fd fds)
  | none (fresh : fd ∉ fds) (own : s.held = ∅) (same : s.fds = fds)

/-- What holds between two steps that meet the condition. -/
def Clean (fds : Finset Int) (s : State) : Prop :=
  match s.pc with
  | .idle => s.held = ∅ ∧ s.fds = fds
  | .opening cnt _ => (s.held = ∅ ∧ s.fds = fds) ∧ cnt < OPEN_ROUNDS
  | .opened fd | .reading fd _ => Owns fds fd s

/-- A descriptor was opened that is not closed any more, or one is going to be closed that
    was open before. -/
def Lost (fds : Finset Int) (s : State) : Prop :=
  s.held ⊆ s.fds ∧
    match s.pc with
    | .idle => s.held ≠ ∅ ∨ s.fds ≠ fds
    | .opening _ _ => s.held ≠ ∅
    | .opened fd | .reading fd _ => (∃ x ∈ s.held, x ≠ fd) ∨ fd ∈ fds

/-- What a step does, whatever came before. -/
inductive Taken (s : State) : Input → State → Prop where
  | skipped (cnt fd : Int) : Taken s (.start true cnt fd) s
  | started (idle : s.pc = .idle) (cnt fd : Int) :
      Taken s (.start false cnt fd) { s with pc := openLoop cnt fd }
  | failed {cnt fd result : Int} (opening : s.pc = .opening cnt fd) (error : result < 0) :
      Taken s (.openAliveDev result) { s with pc := openLoop (cnt + 1) result }
  | opened {cnt fd result : Int} (opening : s.pc = .opening cnt fd) (valid : 0 ≤ result)
      (fresh : result ∉ s.fds) :
      Taken s (.openAliveDev result)
        ⟨insert result s.fds, insert result s.held, openLoop (cnt + 1) result⟩
  | entered {fd : Int} (opened : s.pc = .opened fd) (timer : Bool) (loop : AliveLoop) :
      Taken s (.enter timer) { s with pc := .reading fd loop }
  | read {fd : Int} {before : AliveLoop} (reading : s.pc = .reading fd before) (r : AliveRound)
      (loop : AliveLoop) : Taken s (.round r) { s with pc := .reading fd loop }
  | closed {fd : Int} {loop : AliveLoop} (reading : s.pc = .reading fd loop) :
      Taken s .close ⟨s.fds.erase fd, s.held.erase fd, .idle⟩

section

variable {fds : Finset Int} {s s' : State} {i : Input}

theorem taken_of_step (step : step s i = some s') : Taken s i s' := by
  cases i with
  | start hasAliveProp cnt fd =>
      cases here : s.pc with
      | idle =>
          cases hasAliveProp with
          | true =>
              obtain rfl : s = s' := by simpa [AliveDescriptors.step, here] using step
              exact .skipped cnt fd
          | false =>
              obtain rfl : { s with pc := openLoop cnt fd } = s' := by
                simpa [AliveDescriptors.step, here] using step
              exact .started here cnt fd
      | _ => simp [AliveDescriptors.step, here] at step
  | openAliveDev result =>
      cases here : s.pc with
      | opening cnt fd =>
          simp only [AliveDescriptors.step, here] at step
          split at step
          · rename_i error
            obtain rfl := Option.some.inj step
            exact .failed here error
          · rename_i valid
            split at step
            · cases step
            · rename_i fresh
              obtain rfl := Option.some.inj step
              exact .opened here (Int.not_lt.mp valid) fresh
      | _ => simp [AliveDescriptors.step, here] at step
  | enter timer =>
      cases here : s.pc with
      | opened fd =>
          simp only [AliveDescriptors.step, here] at step
          obtain rfl := Option.some.inj step
          exact .entered here timer _
      | _ => simp [AliveDescriptors.step, here] at step
  | round r =>
      cases here : s.pc with
      | reading fd loop =>
          simp only [AliveDescriptors.step, here] at step
          obtain ⟨loop', _, rfl⟩ := Option.map_eq_some_iff.mp step
          exact .read here r loop'
      | _ => simp [AliveDescriptors.step, here] at step
  | close =>
      cases here : s.pc with
      | reading fd loop =>
          simp only [AliveDescriptors.step, here] at step
          split at step
          · cases step
          · obtain rfl := Option.some.inj step
            exact .closed here
      | _ => simp [AliveDescriptors.step, here] at step

theorem Owns.tight {fd : Int} (owns : Owns fds fd s) (busy : s.pc ≠ .idle) : Tight fds s := by
  refine ⟨?_, fun idle => absurd idle busy⟩
  cases owns with
  | held _ own _ => rw [own, Finset.card_singleton]
  | none _ own _ => rw [own, Finset.card_empty]; exact Nat.zero_le 1

/-- Where the call is makes no difference. -/
theorem Owns.moved {fd : Int} (pc : Pc) (owns : Owns fds fd s) : Owns fds fd { s with pc := pc } := by
  cases owns with
  | held fresh own more => exact .held fresh own more
  | none fresh own same => exact .none fresh own same

theorem tight_none (none : s.held = ∅ ∧ s.fds = fds) : Tight fds s := by
  refine ⟨?_, fun _ => none⟩
  rw [none.1, Finset.card_empty]
  exact Nat.zero_le 1

theorem Clean.tight (clean : Clean fds s) : Tight fds s := by
  unfold Clean at clean
  cases here : s.pc with
  | idle =>
      rw [here] at clean
      exact tight_none clean
  | opening =>
      rw [here] at clean
      exact tight_none clean.1
  | opened | reading =>
      rw [here] at clean
      exact clean.tight (by simp [here])

theorem openLoop_cases (cnt fd : Int) :
    (cnt < OPEN_ROUNDS ∧ openLoop cnt fd = .opening cnt fd) ∨
      OPEN_ROUNDS ≤ cnt ∧ (fd < 0 ∧ openLoop cnt fd = .idle ∨ 0 ≤ fd ∧ openLoop cnt fd = .opened fd) := by
  unfold openLoop behindOpen
  split_ifs with more none
  · exact Or.inl ⟨more, rfl⟩
  · exact Or.inr ⟨Int.not_lt.mp more, Or.inl ⟨none, rfl⟩⟩
  · exact Or.inr ⟨Int.not_lt.mp more, Or.inr ⟨Int.not_lt.mp none, rfl⟩⟩

/-- The loop goes on with nothing open, or is left so, or with a number that is no
    descriptor. -/
theorem clean_openLoop {cnt fd : Int} {same : Finset Int} (own : same = fds)
    (unused : OPEN_ROUNDS ≤ cnt → fd < 0 ∨ fd ∉ fds) :
    Clean fds ⟨same, ∅, openLoop cnt fd⟩ := by
  unfold Clean
  obtain ⟨more, loop⟩ | ⟨out, ⟨_, loop⟩ | ⟨valid, loop⟩⟩ := openLoop_cases cnt fd
  · simp only [loop]
    exact ⟨⟨trivial, own⟩, more⟩
  · simp only [loop]
    exact ⟨trivial, own⟩
  · simp only [loop]
    exact .none ((unused out).resolve_left (Int.not_lt.mpr valid)) rfl own

theorem clean_step (clean : Clean fds s) (last : LastOnly s i) (taken : Taken s i s') :
    Clean fds s' := by
  obtain ⟨open_, held, pc⟩ := s
  cases taken with
  | skipped cnt fd => exact clean
  | started idle cnt fd =>
      obtain rfl : pc = .idle := idle
      obtain ⟨rfl, rfl⟩ : held = ∅ ∧ open_ = fds := clean
      exact clean_openLoop rfl last
  | failed opening error =>
      obtain rfl : pc = _ := opening
      obtain ⟨rfl, rfl⟩ : held = ∅ ∧ open_ = fds := clean.1
      exact clean_openLoop rfl fun _ => Or.inl error
  | @opened cnt fd result opening valid fresh =>
      obtain rfl : pc = _ := opening
      obtain ⟨rfl, rfl⟩ : held = ∅ ∧ open_ = fds := clean.1
      have out : cnt + 1 = OPEN_ROUNDS := last valid
      have loop : openLoop (cnt + 1) result = .opened result := by
        rw [openLoop, if_neg (by omega), behindOpen, if_neg (Int.not_lt.mpr valid)]
      unfold Clean
      simp only [loop]
      exact .held fresh rfl rfl
  | entered opened timer loop =>
      obtain rfl : pc = _ := opened
      exact Owns.moved _ clean
  | read reading r loop =>
      obtain rfl : pc = _ := reading
      exact Owns.moved _ clean
  | closed reading =>
      obtain rfl : pc = _ := reading
      have owns : Owns fds _ _ := clean
      cases owns with
      | held fresh own more =>
          dsimp only at own more
          subst own more
          refine ⟨?_, Finset.erase_insert fresh⟩
          exact Finset.erase_singleton _
      | none fresh own same =>
          dsimp only at own same
          subst own same
          exact ⟨Finset.erase_empty _, Finset.erase_eq_of_notMem fresh⟩

/-- The descriptor that the loop of `open` leaves in `fd` is another one. -/
theorem lost_openLoop {cnt fd x : Int} {open_ held : Finset Int} (inside : held ⊆ open_)
    (member : x ∈ held) (other : 0 ≤ fd → x ≠ fd) : Lost fds ⟨open_, held, openLoop cnt fd⟩ := by
  refine ⟨inside, ?_⟩
  have some : held ≠ ∅ := Finset.ne_empty_of_mem member
  obtain ⟨_, loop⟩ | ⟨_, ⟨_, loop⟩ | ⟨valid, loop⟩⟩ := openLoop_cases cnt fd
  · simpa only [loop] using some
  · simpa only [loop] using Or.inl some
  · simpa only [loop] using Or.inl ⟨x, member, other valid⟩

theorem lost_step (lost : Lost fds s) (busy : s.pc ≠ .idle) (taken : Taken s i s') :
    Lost fds s' := by
  obtain ⟨open_, held, pc⟩ := s
  obtain ⟨inside, lost⟩ := lost
  cases taken with
  | skipped cnt fd => exact ⟨inside, lost⟩
  | started idle cnt fd => exact absurd idle busy
  | failed opening error =>
      obtain rfl : pc = _ := opening
      obtain ⟨x, member⟩ := Finset.nonempty_iff_ne_empty.mpr lost
      exact lost_openLoop inside member fun valid => absurd error (Int.not_lt.mpr valid)
  | opened opening valid fresh =>
      obtain rfl : pc = _ := opening
      obtain ⟨x, member⟩ := Finset.nonempty_iff_ne_empty.mpr lost
      have other : x ≠ _ := ne_of_mem_of_not_mem (inside member) fresh
      exact lost_openLoop (Finset.insert_subset_insert _ inside) (Finset.mem_insert_of_mem member)
        fun _ => other
  | entered opened timer loop =>
      obtain rfl : pc = _ := opened
      exact ⟨inside, lost⟩
  | read reading r loop =>
      obtain rfl : pc = _ := reading
      exact ⟨inside, lost⟩
  | @closed fd loop reading =>
      obtain rfl : pc = _ := reading
      refine ⟨Finset.erase_subset_erase _ inside, ?_⟩
      rcases lost with ⟨x, member, other⟩ | before
      · exact Or.inl (Finset.ne_empty_of_mem (Finset.mem_erase.mpr ⟨other, member⟩))
      · refine Or.inr ?_
        rintro rfl
        exact Finset.notMem_erase fd open_ before

theorem Lost.not_tight (lost : Lost fds s) (idle : s.pc = .idle) : ¬ Tight fds s := by
  intro tight
  obtain ⟨_, lost⟩ := lost
  rw [idle] at lost
  rcases lost with held | changed
  · exact held (tight.none idle).1
  · exact changed (tight.none idle).2

/-- What was lost is still missing at the return. -/
theorem lost_run {inputs : List Input} {t : State} (lost : Lost fds s)
    (reached : run step s inputs = some t) (returned : t.pc = .idle) :
    ¬ Throughout step (Tight fds) s inputs := by
  induction inputs generalizing s with
  | nil =>
      obtain rfl := Option.some.inj reached
      exact lost.not_tight returned
  | cons i rest ih =>
      obtain ⟨s', taken, later⟩ := run_cons reached
      intro tight
      by_cases idle : s.pc = .idle
      · exact lost.not_tight idle tight.1
      · exact ih (lost_step lost idle (taken_of_step taken)) later (tight.2 s' taken)

theorem lost_of_violation (clean : Clean fds s) (violated : ¬ LastOnly s i) (taken : Taken s i s') :
    Lost fds s' := by
  obtain ⟨open_, held, pc⟩ := s
  cases taken with
  | started idle cnt fd =>
      obtain rfl : pc = .idle := idle
      obtain ⟨rfl, rfl⟩ : held = ∅ ∧ open_ = fds := clean
      obtain ⟨out, bad⟩ := Classical.not_imp.mp violated
      rw [not_or, not_not] at bad
      have loop : openLoop cnt fd = .opened fd := by
        rw [openLoop, if_neg (Int.not_lt.mpr out), behindOpen, if_neg bad.1]
      refine ⟨Finset.empty_subset _, ?_⟩
      simpa only [loop] using Or.inr bad.2
  | @opened cnt fd result opening valid fresh =>
      obtain rfl : pc = _ := opening
      obtain ⟨⟨rfl, rfl⟩, more⟩ : (held = ∅ ∧ open_ = fds) ∧ cnt < OPEN_ROUNDS := clean
      obtain ⟨_, early⟩ := Classical.not_imp.mp violated
      have loop : openLoop (cnt + 1) result = .opening (cnt + 1) result :=
        if_pos (by omega)
      refine ⟨Finset.insert_subset_insert _ (Finset.empty_subset _), ?_⟩
      simpa only [loop] using Finset.insert_ne_empty result ∅
  | failed opening error =>
      obtain rfl : pc = _ := opening
      obtain ⟨valid, _⟩ := Classical.not_imp.mp violated
      exact absurd error (Int.not_lt.mpr valid)
  | _ => exact absurd trivial violated

end

/-- Over every number of calls, with every initial value of the locals and every result: if
    in each call no round but the last one opens the device, and no other descriptor is taken
    for it, at most one descriptor is held at any time, and no call leaves one behind or takes
    one away. When all calls have returned, nothing less is enough. -/
theorem tight_iff_lastOnly (fds : Finset Int) (inputs : List Input) (t : State)
    (reached : run step ⟨fds, ∅, .idle⟩ inputs = some t) :
    (Along step LastOnly ⟨fds, ∅, .idle⟩ inputs →
        Throughout step (Tight fds) ⟨fds, ∅, .idle⟩ inputs) ∧
      (t.pc = .idle → Throughout step (Tight fds) ⟨fds, ∅, .idle⟩ inputs →
        Along step LastOnly ⟨fds, ∅, .idle⟩ inputs) := by
  have start : Clean fds ⟨fds, ∅, .idle⟩ := ⟨rfl, rfl⟩
  constructor
  · intro along
    have clean : Throughout step (Clean fds) ⟨fds, ∅, .idle⟩ inputs := by
      apply throughout_of_along _ start along
      intro s i s' before last taken
      exact clean_step before last (taken_of_step taken)
    exact clean.mono fun s clean => clean.tight
  · intro returned
    generalize (⟨fds, ∅, .idle⟩ : State) = s at reached start
    intro tight
    induction inputs generalizing s with
    | nil => trivial
    | cons i rest ih =>
        obtain ⟨s', taken, later⟩ := run_cons reached
        have last : LastOnly s i := by
          by_contra violated
          exact lost_run (lost_of_violation start violated (taken_of_step taken)) later returned
            (tight.2 s' taken)
        refine ⟨last, ?_⟩
        intro other same
        obtain rfl := Option.some.inj (taken.symm.trans same)
        exact ih s' later (clean_step start last (taken_of_step taken)) (tight.2 s' taken)

/-- The device comes up in the last round, and the timer is stopped before it is read. -/
theorem tight_late :
    Throughout step (Tight {0, 1}) ⟨{0, 1}, ∅, .idle⟩
      [.start false 598 7, .openAliveDev (-1), .openAliveDev 2, .enter false, .close] :=
  (tight_iff_lastOnly {0, 1} _ _ rfl).1 (by decide)

/-- Two rounds in which the device is there. -/
theorem second_open_leaks : ¬ ∀ (fds : Finset Int) (inputs : List Input) (t : State),
    run step ⟨fds, ∅, .idle⟩ inputs = some t → t.pc = .idle →
      Throughout step (Tight fds) ⟨fds, ∅, .idle⟩ inputs := by
  intro always
  have tight := always {0, 1}
    [.start false 598 7, .openAliveDev 2, .openAliveDev 3, .enter false, .close] _ rfl rfl
  have last := tight.last rfl
  exact absurd (last.none rfl).1 (by decide)

end ModemControl.AliveDescriptors
