import Mathlib.Data.List.FinRange
import Mathlib.Logic.Function.Basic
import ModemControl.Foundation.CString
import ModemControl.Foundation.Runs

/-! # The clients of the uevent monitor: eventmonitor.c

Clients come and go while events are dispatched. A handler thread is told the slot of its
client, and looks up what to call there when it runs.
-/

namespace ModemControl.EventClients

open Foundation

def MAX_EVENT_CLIENT : Nat := 10

variable {H D : Type}

/-- `struct event_client`; nothing stands for NULL. -/
structure EventClient (H D : Type) where
  subsystem : Option Bytes := none
  handler : Option H := none
  data : Option D := none

abbrev Slots (H D : Type) : Type := Fin MAX_EVENT_CLIENT → EventClient H D

/-- The loops over `g_event_client`. -/
def firstSlot (slots : Slots H D) (test : EventClient H D → Bool) : Option (Fin MAX_EVENT_CLIENT) :=
  (List.finRange MAX_EVENT_CLIENT).find? fun i => test (slots i)

def EventClient.isFor (subsystem : Bytes) (client : EventClient H D) : Bool :=
  client.subsystem == some subsystem

def modemEventRegister (subsystem : Bytes) (handler : H) (data : Option D) (slots : Slots H D) :
    Int × Slots H D :=
  match firstSlot slots fun client => client.handler.isNone with
  | none => (-1, slots)
  | some i => (0, Function.update slots i ⟨some subsystem, some handler, data⟩)

def modemEventUnregister (subsystem : Bytes) (slots : Slots H D) : Slots H D :=
  match firstSlot slots (EventClient.isFor subsystem) with
  | none => slots
  | some i => Function.update slots i {}

/-- The slot for the thread, if there is a handler. -/
def modemEventProcess (subsystem : Bytes) (slots : Slots H D) : Option (Fin MAX_EVENT_CLIENT) :=
  match firstSlot slots (EventClient.isFor subsystem) with
  | none => none
  | some i => if (slots i).handler.isSome then some i else none

/-- What `uevent_handle_thread` calls, with its data; nothing is a NULL handler. -/
def ueventHandleThread (slots : Slots H D) (handleIndex : Fin MAX_EVENT_CLIENT) :
    Option (H × Option D) :=
  (slots handleIndex).handler.map fun handler => (handler, (slots handleIndex).data)

/-- What the clients have asked for: the handler of a subsystem, and its data. -/
abbrev Registry (H D : Type) : Type := Bytes → Option (H × Option D)

/-- A started thread that has not run yet, and what was registered for its event when that
    was dispatched. -/
structure HandleThread (H D : Type) where
  handleIndex : Fin MAX_EVENT_CLIENT
  own : Option (H × Option D)

structure State (H D : Type) where
  slots : Slots H D := fun _ => {}
  started : List (HandleThread H D) := []
  registry : Registry H D := fun _ => none

inductive Input (H D : Type) where
  | register (subsystem : Bytes) (handler : H) (data : Option D)
  | unregister (subsystem : Bytes)
  /-- An event is dispatched; the thread may not come to be. -/
  | dispatch (subsystem : Bytes) (created : Bool)
  /-- One of the started threads runs. -/
  | runHandler (k : Nat)

/-- A subsystem that is registered is not registered again. -/
def step (s : State H D) : Input H D → Option (State H D)
  | .register subsystem handler data =>
      if (s.registry subsystem).isSome then none
      else match modemEventRegister subsystem handler data s.slots with
        | (0, slots) => some { s with
            slots := slots
            registry := Function.update s.registry subsystem (some (handler, data)) }
        | (_, slots) => some { s with slots := slots }
  | .unregister subsystem => some { s with
      slots := modemEventUnregister subsystem s.slots
      registry := Function.update s.registry subsystem none }
  | .dispatch subsystem created =>
      match modemEventProcess subsystem s.slots with
      | none => some s
      | some i =>
          if created then some { s with started := s.started ++ [⟨i, s.registry subsystem⟩] }
          else some s
  | .runHandler k =>
      if k < s.started.length then some { s with started := s.started.eraseIdx k } else none

/-- A slot has a handler if and only if it has a subsystem. -/
def Paired (s : State H D) : Prop :=
  ∀ i, (s.slots i).handler.isSome = (s.slots i).subsystem.isSome

/-- The thread would call the handler that it was started for, with its data. -/
def HandleThread.ReachesOwn (slots : Slots H D) (t : HandleThread H D) : Prop :=
  ∃ e, t.own = some e ∧ ueventHandleThread slots t.handleIndex = some e

/-- So does the thread that runs. -/
def Reaches (s : State H D) : Input H D → Prop
  | .runHandler k => ∀ t, s.started[k]? = some t → t.ReachesOwn s.slots
  | _ => True

/-- Whichever thread ran now, it would. -/
def Intact (s : State H D) : Prop := ∀ t ∈ s.started, t.ReachesOwn s.slots

/-- No client goes for which a thread has still to run. -/
def Waits (s : State H D) : Input H D → Prop
  | .unregister subsystem => ∀ t ∈ s.started, (s.slots t.handleIndex).subsystem ≠ some subsystem
  | _ => True

instance (s : State H D) (i : Input H D) : Decidable (Waits s i) := by
  unfold Waits
  split <;> infer_instance

structure Holds (s : State H D) : Prop where
  paired : Paired s
  single : ∀ i j subsystem, (s.slots i).subsystem = some subsystem →
    (s.slots j).subsystem = some subsystem → i = j
  registered : ∀ subsystem e, s.registry subsystem = some e ↔
    ∃ i, s.slots i = ⟨some subsystem, some e.1, e.2⟩

theorem firstSlot_some {slots : Slots H D} {test : EventClient H D → Bool}
    {i : Fin MAX_EVENT_CLIENT} (found : firstSlot slots test = some i) : test (slots i) = true :=
  @List.find?_some _ (fun i => test (slots i)) i _ found

theorem firstSlot_none {slots : Slots H D} {test : EventClient H D → Bool}
    (none : firstSlot slots test = none) (i : Fin MAX_EVENT_CLIENT) : test (slots i) = false := by
  have not := List.find?_eq_none.mp none i (List.mem_finRange i)
  simpa using not

section

variable {s s' : State H D}

theorem Holds.unused (holds : Holds s) {subsystem : Bytes} (none : s.registry subsystem = none)
    (i : Fin MAX_EVENT_CLIENT) : (s.slots i).subsystem ≠ some subsystem := by
  intro used
  have handler := holds.paired i
  rw [used, Option.isSome_some] at handler
  obtain ⟨h, set⟩ := Option.isSome_iff_exists.mp handler
  have found := (holds.registered subsystem (h, (s.slots i).data)).mpr
    ⟨i, by rw [← used, ← set]⟩
  rw [none] at found
  cases found

theorem Holds.filled (holds : Holds s) {i : Fin MAX_EVENT_CLIENT} {subsystem : Bytes}
    (used : (s.slots i).subsystem = some subsystem) :
    ∃ e, s.slots i = ⟨some subsystem, some e.1, e.2⟩ ∧ s.registry subsystem = some e := by
  have handler := holds.paired i
  rw [used, Option.isSome_some] at handler
  obtain ⟨h, set⟩ := Option.isSome_iff_exists.mp handler
  have filled : s.slots i = ⟨some subsystem, some h, (s.slots i).data⟩ := by
    rw [← used, ← set]
  exact ⟨(h, (s.slots i).data), filled, (holds.registered subsystem _).mpr ⟨i, filled⟩⟩

/-- A free slot is filled. -/
theorem Holds.register (holds : Holds s) {i : Fin MAX_EVENT_CLIENT} {subsystem : Bytes} (handler : H)
    (data : Option D) (free : (s.slots i).handler = none) (unused : s.registry subsystem = none) :
    Holds { s with
      slots := Function.update s.slots i ⟨some subsystem, some handler, data⟩
      registry := Function.update s.registry subsystem (some (handler, data)) } := by
  constructor
  · intro j
    dsimp only
    by_cases here : j = i
    · subst here
      simp
    · rw [Function.update_of_ne here]
      exact holds.paired j
  · intro j k x first second
    dsimp only at first second
    by_cases hereJ : j = i
    · by_cases hereK : k = i
      · rw [hereJ, hereK]
      · subst hereJ
        rw [Function.update_self] at first
        rw [Function.update_of_ne hereK] at second
        obtain rfl := Option.some.inj first
        exact absurd second (holds.unused unused k)
    · rw [Function.update_of_ne hereJ] at first
      by_cases hereK : k = i
      · subst hereK
        rw [Function.update_self] at second
        obtain rfl := Option.some.inj second
        exact absurd first (holds.unused unused j)
      · rw [Function.update_of_ne hereK] at second
        exact holds.single j k x first second
  · intro x e
    dsimp only
    by_cases own : x = subsystem
    · subst own
      rw [Function.update_self]
      constructor
      · intro same
        obtain rfl := Option.some.inj same
        exact ⟨i, Function.update_self i _ _⟩
      · rintro ⟨j, filled⟩
        by_cases here : j = i
        · subst here
          rw [Function.update_self] at filled
          obtain ⟨rfl, rfl⟩ : handler = e.1 ∧ data = e.2 := by simpa using filled
          rfl
        · rw [Function.update_of_ne here] at filled
          exact absurd (by rw [filled]) (holds.unused unused j)
    · rw [Function.update_of_ne own, holds.registered]
      apply exists_congr
      intro j
      by_cases here : j = i
      · subst here
        rw [Function.update_self]
        apply iff_of_false
        · intro filled
          rw [filled] at free
          cases free
        · intro filled
          exact own (Option.some.inj (congrArg EventClient.subsystem filled)).symm
      · rw [Function.update_of_ne here]

/-- The slot of a subsystem is freed. -/
theorem Holds.unregister (holds : Holds s) {i : Fin MAX_EVENT_CLIENT} {subsystem : Bytes}
    (used : (s.slots i).subsystem = some subsystem) :
    Holds { s with
      slots := Function.update s.slots i {}
      registry := Function.update s.registry subsystem none } := by
  have only (j : Fin MAX_EVENT_CLIENT) (x : Bytes)
      (still : (Function.update s.slots i {} j).subsystem = some x) :
      j ≠ i ∧ (s.slots j).subsystem = some x := by
    by_cases here : j = i
    · subst here
      rw [Function.update_self] at still
      cases still
    · rw [Function.update_of_ne here] at still
      exact ⟨here, still⟩
  constructor
  · intro j
    dsimp only
    by_cases here : j = i
    · subst here
      simp
    · rw [Function.update_of_ne here]
      exact holds.paired j
  · intro j k x first second
    exact holds.single j k x (only j x first).2 (only k x second).2
  · intro x e
    dsimp only
    by_cases own : x = subsystem
    · subst own
      rw [Function.update_self]
      apply iff_of_false nofun
      rintro ⟨j, filled⟩
      obtain ⟨other, still⟩ := only j x (by rw [filled])
      exact other (holds.single j i x still used)
    · rw [Function.update_of_ne own, holds.registered]
      apply exists_congr
      intro j
      by_cases here : j = i
      · subst here
        rw [Function.update_self]
        apply iff_of_false
        · intro filled
          rw [filled] at used
          exact own (Option.some.inj used)
        · intro filled
          cases congrArg EventClient.subsystem filled
      · rw [Function.update_of_ne here]

/-- There is no slot to be freed. -/
theorem Holds.forget (holds : Holds s) {subsystem : Bytes}
    (unused : ∀ i, (s.slots i).subsystem ≠ some subsystem) :
    Holds { s with registry := Function.update s.registry subsystem none } := by
  refine ⟨holds.paired, holds.single, ?_⟩
  intro x e
  dsimp only
  by_cases own : x = subsystem
  · subst own
    rw [Function.update_self]
    apply iff_of_false nofun
    rintro ⟨i, filled⟩
    exact unused i (by rw [filled])
  · rw [Function.update_of_ne own]
    exact holds.registered x e

/-- What a step does. -/
inductive Taken (s : State H D) : Input H D → State H D → Prop where
  | registered {i : Fin MAX_EVENT_CLIENT} {subsystem : Bytes} (handler : H) (data : Option D)
      (free : (s.slots i).handler = none) (unused : s.registry subsystem = none) :
      Taken s (.register subsystem handler data) { s with
        slots := Function.update s.slots i ⟨some subsystem, some handler, data⟩
        registry := Function.update s.registry subsystem (some (handler, data)) }
  | full (subsystem : Bytes) (handler : H) (data : Option D) :
      Taken s (.register subsystem handler data) s
  | unregistered {i : Fin MAX_EVENT_CLIENT} {subsystem : Bytes}
      (used : (s.slots i).subsystem = some subsystem) :
      Taken s (.unregister subsystem) { s with
        slots := Function.update s.slots i {}
        registry := Function.update s.registry subsystem none }
  | unknown {subsystem : Bytes} (unused : ∀ i, (s.slots i).subsystem ≠ some subsystem) :
      Taken s (.unregister subsystem)
        { s with registry := Function.update s.registry subsystem none }
  | started {i : Fin MAX_EVENT_CLIENT} {subsystem : Bytes}
      (used : (s.slots i).subsystem = some subsystem) :
      Taken s (.dispatch subsystem true)
        { s with started := s.started ++ [⟨i, s.registry subsystem⟩] }
  | dropped (subsystem : Bytes) (created : Bool) : Taken s (.dispatch subsystem created) s
  | ran (k : Nat) : Taken s (.runHandler k) { s with started := s.started.eraseIdx k }

theorem taken_of_step {i : Input H D} (step : step s i = some s') : Taken s i s' := by
  cases i with
  | register subsystem handler data =>
      simp only [EventClients.step] at step
      split at step
      · cases step
      · rename_i unused
        rw [Bool.not_eq_true, Option.isSome_eq_false_iff, Option.isNone_iff_eq_none] at unused
        cases found : firstSlot s.slots fun client => client.handler.isNone with
        | none =>
            rw [modemEventRegister, found] at step
            obtain rfl := Option.some.inj step
            exact .full subsystem handler data
        | some i =>
            rw [modemEventRegister, found] at step
            obtain rfl := Option.some.inj step
            exact .registered handler data (Option.isNone_iff_eq_none.mp (firstSlot_some found)) unused
  | unregister subsystem =>
      simp only [EventClients.step] at step
      obtain rfl := Option.some.inj step
      unfold modemEventUnregister
      cases found : firstSlot s.slots (EventClient.isFor subsystem) with
      | none =>
          apply Taken.unknown
          intro i used
          have other := firstSlot_none found i
          simp [EventClient.isFor, used] at other
      | some i =>
          apply Taken.unregistered
          simpa [EventClient.isFor] using firstSlot_some found
  | dispatch subsystem created =>
      simp only [EventClients.step, modemEventProcess] at step
      cases found : firstSlot s.slots (EventClient.isFor subsystem) with
      | none =>
          rw [found] at step
          obtain rfl := Option.some.inj step
          exact .dropped subsystem created
      | some i =>
          rw [found] at step
          cases handler : (s.slots i).handler.isSome with
          | false =>
              obtain rfl : s = s' := by simpa [handler] using step
              exact .dropped subsystem created
          | true =>
              cases created with
              | false =>
                  obtain rfl : s = s' := by simpa [handler] using step
                  exact .dropped subsystem false
              | true =>
                  obtain rfl : { s with started := s.started ++ [⟨i, s.registry subsystem⟩] } = s' := by
                    simpa [handler] using step
                  apply Taken.started
                  simpa [EventClient.isFor] using firstSlot_some found
  | runHandler k =>
      simp only [EventClients.step] at step
      split at step
      · obtain rfl := Option.some.inj step
        exact .ran k
      · cases step

theorem holds_start : Holds ({} : State H D) := by
  refine ⟨fun _ => rfl, ?_, ?_⟩
  · intro i j subsystem used
    cases used
  · intro subsystem e
    apply iff_of_false nofun
    rintro ⟨i, filled⟩
    cases congrArg EventClient.subsystem filled

theorem Holds.taken (holds : Holds s) {i : Input H D} (taken : Taken s i s') : Holds s' := by
  cases taken with
  | registered handler data free unused => exact holds.register handler data free unused
  | full => exact holds
  | unregistered used => exact holds.unregister used
  | unknown unused => exact holds.forget unused
  | started => exact ⟨holds.paired, holds.single, holds.registered⟩
  | dropped => exact holds
  | ran => exact ⟨holds.paired, holds.single, holds.registered⟩

theorem holds_throughout (inputs : List (Input H D)) : Throughout step Holds {} inputs :=
  throughout_of_along (fun _ _ _ holds _ step => holds.taken (taken_of_step step)) holds_start
    (along_true _ inputs)

/-- What a thread would call is not changed by a write to another slot. -/
theorem reachesOwn_update {i : Fin MAX_EVENT_CLIENT} {client : EventClient H D} {t : HandleThread H D}
    (other : t.handleIndex ≠ i) :
    t.ReachesOwn (Function.update s.slots i client) ↔ t.ReachesOwn s.slots := by
  unfold HandleThread.ReachesOwn ueventHandleThread
  rw [Function.update_of_ne other]

theorem not_reachesOwn_freed (t : HandleThread H D) :
    ¬ t.ReachesOwn (Function.update s.slots t.handleIndex {}) := by
  rintro ⟨e, _, calls⟩
  rw [ueventHandleThread, Function.update_self] at calls
  cases calls

theorem intact_exact {i : Input H D} (holds : Holds s) (intact : Intact s) (taken : Taken s i s') :
    Intact s' ∧ Reaches s i ↔ Waits s i := by
  cases taken with
  | @registered j subsystem handler data free _ =>
      refine iff_of_true ⟨?_, trivial⟩ trivial
      intro t member
      obtain ⟨e, own, calls⟩ := intact t member
      have other : t.handleIndex ≠ j := by
        rintro rfl
        rw [ueventHandleThread, free] at calls
        cases calls
      exact (reachesOwn_update other).mpr ⟨e, own, calls⟩
  | full => exact iff_of_true ⟨intact, trivial⟩ trivial
  | @unregistered j subsystem used =>
      simp only [Reaches, and_true, Waits]
      constructor
      · intro after t member still
        have freed : t.handleIndex = j := holds.single _ _ subsystem still used
        subst freed
        exact not_reachesOwn_freed t (after t member)
      · intro waits t member
        have other : t.handleIndex ≠ j := by
          rintro rfl
          exact waits t member used
        exact (reachesOwn_update other).mpr (intact t member)
  | unknown unused =>
      refine iff_of_true ⟨intact, trivial⟩ ?_
      intro t _
      exact unused t.handleIndex
  | @started j subsystem used =>
      refine iff_of_true ⟨?_, trivial⟩ trivial
      intro t member
      rcases List.mem_append.mp member with before | new
      · exact intact t before
      · obtain rfl := List.mem_singleton.mp new
        obtain ⟨e, filled, registered⟩ := holds.filled used
        refine ⟨e, registered, ?_⟩
        simp [ueventHandleThread, filled]
  | dropped => exact iff_of_true ⟨intact, trivial⟩ trivial
  | ran k =>
      refine iff_of_true ⟨?_, ?_⟩ trivial
      · intro t member
        exact intact t (List.mem_of_mem_eraseIdx member)
      · intro t here
        exact intact t (List.mem_of_getElem? here)

end

/-- Over every interleaving: a slot has a handler if and only if it has a subsystem at any
    time, and each started thread would call its own handler at any time, and does when it
    runs, exactly when no client is unregistered for which a thread has still to run. -/
theorem handlers_reached (inputs : List (Input H D)) (s : State H D)
    (reached : run step {} inputs = some s) :
    Throughout step Paired {} inputs ∧
      (Throughout step Intact {} inputs ∧ Along step Reaches {} inputs ↔ Along step Waits {} inputs) := by
  have always := holds_throughout inputs
  refine ⟨always.mono fun s holds => holds.paired, ?_⟩
  have exact : ∀ i ∈ inputs, ∀ s s', (Holds s ∧ Intact s) → step s i = some s' →
      ((Holds s' ∧ Intact s') ∧ Reaches s i ↔ Waits s i) := by
    intro i _ s s' before step
    have taken := taken_of_step step
    rw [and_assoc, intact_exact before.1 before.2 taken]
    exact and_iff_right (before.1.taken taken)
  rw [← kept_iff_along exact reached ⟨holds_start, fun t member => by cases member⟩, throughout_and]
  simp only [always, true_and]

/-- A thread that runs before its client goes. -/
theorem handlers_reached_in_turn :
    Along step Reaches ({} : State Nat Nat)
      [.register (bytes "pci") 1 none, .dispatch (bytes "pci") true, .runHandler 0,
        .unregister (bytes "pci")] :=
  ((handlers_reached _ _ rfl).2.mpr (by decide)).2

/-- The client has gone when the thread runs, and another one has its slot. -/
theorem late_thread_calls_other : ¬ ∀ (inputs : List (Input Nat Nat)) (s : State Nat Nat),
    run step {} inputs = some s → Along step Reaches {} inputs := by
  intro always
  have along := always
    [.register (bytes "pci") 1 none, .dispatch (bytes "pci") true, .unregister (bytes "pci"),
      .register (bytes "modem_ctrl") 2 none, .runHandler 0] _ rfl
  have last := ((((along.2 _ rfl).2 _ rfl).2 _ rfl).2 _ rfl).1
  obtain ⟨e, own, calls⟩ := last _ rfl
  obtain rfl : (1, none) = e := Option.some.inj own
  exact absurd calls (by decide)

end ModemControl.EventClients
