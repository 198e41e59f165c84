import ModemControl.EventClients
import ModemControl.ParseEvent

/-! # The fields a uevent is dispatched by: eventmonitor.c, modem_event.c, modem_pcie_control.c

`parse_event` leaves a pointer NULL when the message has no string for it. No one asks for
that: the monitor and the handlers compare what the pointers point to.
-/

namespace ModemControl.UeventFields

open Foundation Uevent ParseEvent

/-- The pointers of the info that are passed to `strcmp` and `strstr`. -/
inductive Field where
  | subsystem
  | action
  | path
  deriving Repr, DecidableEq

def Field.key : Field → Key
  | subsystem => .subsystem
  | action => .action
  | path => .path

def Field.pointer (info : BaseUEventInfo) : Field → Option Nat
  | subsystem => info.subsystem
  | action => info.action
  | path => info.path

abbrev EventClient : Type := EventClients.EventClient Handler Unit

abbrev Slots : Type := EventClients.Slots Handler Unit

/-- What the loop of `modem_event_process` compares from this client on, and the handler it
    comes to. A NULL subsystem ends the process at once. -/
def modemEventProcess (msg : Bytes) (info : BaseUEventInfo) :
    List EventClient → List Field × Option Handler
  | [] => ([], none)
  | client :: rest =>
      match client.subsystem with
      | none => modemEventProcess msg info rest
      | some subsystem =>
          match info.subsystem with
          | none => ([.subsystem], none)
          | some p =>
              if subsystem = text msg p then ([.subsystem], client.handler)
              else
                let (fields, handler) := modemEventProcess msg info rest
                (.subsystem :: fields, handler)

/-- What a handler compares. The action is read when the handler runs, and `msg` may have
    been written to since. -/
def handlerFields (info : BaseUEventInfo) (action : Bytes) : Handler → List Field
  | .modemEventTriger => [.action]
  | .modemPcieEvent _ =>
      .action :: if info.action.isSome ∧ action = bytes "add" then [.path] else []

/-- All that is passed on for a message, with what the action is when the handler runs. -/
def dispatchFields (slots : Slots) (msg : Bytes) (created : Bool) (action : Bytes) : List Field :=
  let info := Uevent.parseEvent msg
  let (fields, handler) :=
    modemEventProcess msg info ((List.finRange EventClients.MAX_EVENT_CLIENT).map slots)
  match handler with
  | none => fields
  | some handler => if created then fields ++ handlerFields info action handler else fields

/-- The message has a string for the field. -/
def SetBy (data : Bytes) (f : Field) : Prop := ∃ s ∈ messageStrings data, f.key.starts s = true

instance (data : Bytes) (f : Field) : Decidable (SetBy data f) :=
  inferInstanceAs (Decidable (∃ s ∈ messageStrings data, f.key.starts s = true))

/-- The handler of the client that takes the event. -/
def taker (slots : Slots) (data : Bytes) : Option Handler :=
  (lastValue .subsystem (messageStrings data)).bind fun subsystem =>
    (EventClients.firstSlot slots (EventClients.EventClient.isFor subsystem)).bind fun i =>
      (slots i).handler

/-- What the message needs to have set for these clients. -/
structure Suffices (slots : Slots) (data : Bytes) (created : Bool) (text : Bytes) : Prop where
  subsystem : (∃ i, (slots i).subsystem ≠ none) → SetBy data .subsystem
  action : created = true → taker slots data ≠ none → SetBy data .action
  path : created = true → ∀ dev, taker slots data = some (.modemPcieEvent dev) →
    text = bytes "add" → SetBy data .path

section

variable {data junk : Bytes}

theorem lastValue_isSome (key : Key) (ss : List Bytes) :
    (lastValue key ss).isSome ↔ ∃ s ∈ ss, key.starts s = true := by
  rw [lastValue, Option.isSome_map, List.getLast?_isSome, ne_eq, List.filter_eq_nil_iff]
  simp

/-- The info of a message, and what its pointers point to. -/
theorem parseEvent_shown (data junk : Bytes) :
    Shown Foundation.atoi (data ++ 0 :: 0 :: junk) (Uevent.parseEvent (data ++ 0 :: 0 :: junk))
      (messageStrings data) := by
  have made := parseEvent_eq Foundation.atoi data junk 0 {}
  have monitor := parseEvent_monitor data junk 0
  rw [made.1] at monitor
  exact Option.some.inj monitor ▸ made.2

theorem pointsTo_isSome {buf : Bytes} {p : Option Nat} {value : Option Bytes}
    (points : PointsTo buf p value) : p.isSome = value.isSome := by
  have same := congrArg Option.isSome points
  rwa [Option.isSome_map, Option.isSome_map] at same

/-- A pointer is set when the message has set it. -/
theorem pointer_isSome (data junk : Bytes) (f : Field) :
    (f.pointer (Uevent.parseEvent (data ++ 0 :: 0 :: junk))).isSome ↔ SetBy data f := by
  have shown := parseEvent_shown data junk
  rw [SetBy, ← lastValue_isSome]
  cases f with
  | subsystem => exact iff_of_eq (congrArg (· = true) (pointsTo_isSome (shown .subsystem)))
  | action => exact iff_of_eq (congrArg (· = true) (pointsTo_isSome (shown .action)))
  | path => exact iff_of_eq (congrArg (· = true) (pointsTo_isSome (shown .path)))

theorem text_of_textAt {buf : Bytes} {p : Nat} {value : Bytes} (here : textAt buf p = some value) :
    text buf p = value := by
  by_cases terminated : Terminated buf p
  · rw [textAt_terminated terminated] at here
    exact Option.some.inj here
  · rw [textAt_unterminated terminated] at here
    cases here

end

section

variable {msg : Bytes} {info : BaseUEventInfo}

/-- Without a subsystem the first client ends the process. -/
theorem process_null (null : info.subsystem = none) (clients : List EventClient) :
    (modemEventProcess msg info clients).2 = none ∧
      ∀ f, f ∈ (modemEventProcess msg info clients).1 ↔
        f = .subsystem ∧ ∃ client ∈ clients, client.subsystem ≠ none := by
  induction clients with
  | nil => simp [modemEventProcess]
  | cons client rest ih =>
      rw [modemEventProcess]
      cases used : client.subsystem with
      | none => simpa [used] using ih
      | some subsystem =>
          rw [null]
          simp [used]

/-- With one, the clients are compared up to the first for it. -/
theorem process_set {p : Nat} (set : info.subsystem = some p) (clients : List EventClient) :
    (modemEventProcess msg info clients).2 =
        (clients.find? (EventClients.EventClient.isFor (text msg p))).bind (·.handler) ∧
      ∀ f ∈ (modemEventProcess msg info clients).1, f = .subsystem := by
  induction clients with
  | nil => simp [modemEventProcess]
  | cons client rest ih =>
      rw [modemEventProcess]
      cases used : client.subsystem with
      | none =>
          have other : client.isFor (text msg p) = false := by
            simp [EventClients.EventClient.isFor, used]
          rw [List.find?_cons, other]
          exact ih
      | some subsystem =>
          rw [set]
          by_cases same : subsystem = text msg p
          · have here : client.isFor (text msg p) = true := by
              simp [EventClients.EventClient.isFor, used, same]
            simp [same, here]
          · have other : client.isFor (text msg p) = false := by
              simp [EventClients.EventClient.isFor, used, same]
            simp only [if_neg same, List.find?_cons, other]
            refine ⟨ih.1, ?_⟩
            rw [List.forall_mem_cons]
            exact ⟨rfl, ih.2⟩

theorem handlerFields_all (info : BaseUEventInfo) (text : Bytes) (handler : Handler) (P : Field → Prop) :
    (∀ f ∈ handlerFields info text handler, P f) ↔
      P .action ∧ ∀ dev, handler = .modemPcieEvent dev →
        info.action.isSome = true → text = bytes "add" → P .path := by
  cases handler with
  | modemEventTriger => simp [handlerFields]
  | modemPcieEvent dev =>
      rw [handlerFields, List.forall_mem_cons]
      apply and_congr_right
      intro _
      split
      · rename_i both
        simp [both]
      · rename_i neither
        constructor
        · intro _ dev' _ set same
          exact absurd ⟨set, same⟩ neither
        · intro _ f member
          cases member

end

section

variable {data junk : Bytes} {slots : Slots}

theorem clients_used : (∃ client ∈ (List.finRange EventClients.MAX_EVENT_CLIENT).map slots,
    client.subsystem ≠ none) ↔ ∃ i, (slots i).subsystem ≠ none := by
  simp

theorem clients_find (subsystem : Bytes) :
    (((List.finRange EventClients.MAX_EVENT_CLIENT).map slots).find?
        (EventClients.EventClient.isFor subsystem)).bind (·.handler) =
      (EventClients.firstSlot slots (EventClients.EventClient.isFor subsystem)).bind fun i =>
        (slots i).handler := by
  rw [List.find?_map, Option.bind_map]
  rfl

theorem taker_eq {info : BaseUEventInfo} {msg : Bytes}
    (shown : PointsTo msg info.subsystem (lastValue .subsystem (messageStrings data))) {p : Nat}
    (set : info.subsystem = some p) :
    (modemEventProcess msg info ((List.finRange EventClients.MAX_EVENT_CLIENT).map slots)).2 =
      taker slots data := by
  rw [PointsTo, set, Option.map_some] at shown
  obtain ⟨subsystem, value, here⟩ := Option.map_eq_some_iff.mp shown.symm
  rw [(process_set set _).1, text_of_textAt here.symm, clients_find, taker, value, Option.bind_some]

/-- Without a subsystem. -/
theorem fields_null {info : BaseUEventInfo} {msg : Bytes} {created : Bool} {text : Bytes}
    (null : info.subsystem = none) (unset : ¬ SetBy data .subsystem)
    (none : lastValue .subsystem (messageStrings data) = none) :
    (∀ f ∈ (modemEventProcess msg info ((List.finRange EventClients.MAX_EVENT_CLIENT).map slots)).1,
        SetBy data f) ↔ Suffices slots data created text := by
  have compared := (@process_null msg _ null
    ((List.finRange EventClients.MAX_EVENT_CLIENT).map slots)).2
  have noTaker : taker slots data = Option.none := by rw [taker, none, Option.bind_none]
  rw [clients_used] at compared
  constructor
  · intro all
    refine ⟨?_, fun _ some => absurd noTaker some, ?_⟩
    · intro used
      exact all .subsystem ((compared .subsystem).mpr ⟨rfl, used⟩)
    · intro _ dev same
      rw [noTaker] at same
      cases same
  · intro suffices_ f member
    exact absurd (suffices_.subsystem ((compared f).mp member).2) unset

/-- For every message, every table of clients and whatever the action is when the handler
    runs: only fields that the message has set are compared exactly when it has set those
    that these clients need. -/
theorem fields_set_iff (data junk : Bytes) (slots : Slots) (created : Bool) (text : Bytes) :
    (∀ f ∈ dispatchFields slots (data ++ 0 :: 0 :: junk) created text, SetBy data f) ↔
      Suffices slots data created text := by
  have shown := parseEvent_shown data junk .subsystem
  have subsystemSet := pointer_isSome data junk .subsystem
  have actionSet := pointer_isSome data junk .action
  unfold dispatchFields
  dsimp only
  generalize Uevent.parseEvent (data ++ 0 :: 0 :: junk) = info at shown subsystemSet actionSet ⊢
  dsimp only [Field.pointer] at subsystemSet actionSet
  cases subsystem : info.subsystem with
  | none =>
      have unset : ¬ SetBy data .subsystem := by simp [← subsystemSet, subsystem]
      have value : lastValue .subsystem (messageStrings data) = none := by
        have points : PointsTo _ info.subsystem _ := shown
        have same := pointsTo_isSome points
        rwa [subsystem, Option.isSome_none, eq_comm, Option.isSome_eq_false_iff,
          Option.isNone_iff_eq_none] at same
      rw [(process_null subsystem _).1]
      exact fields_null subsystem unset value
  | some p =>
      have set : SetBy data .subsystem := by simp [← subsystemSet, subsystem]
      have compared : ∀ f ∈ (modemEventProcess (data ++ 0 :: 0 :: junk) info
          ((List.finRange EventClients.MAX_EVENT_CLIENT).map slots)).1, SetBy data f := by
        intro f member
        rw [(process_set subsystem _).2 f member]
        exact set
      rw [taker_eq shown subsystem]
      cases found : taker slots data with
      | none =>
          refine iff_of_true compared ⟨fun _ => set, fun _ some => absurd found some, ?_⟩
          intro _ dev same
          rw [found] at same
          cases same
      | some handler =>
          cases created with
          | false => exact iff_of_true compared ⟨fun _ => set, nofun, nofun⟩
          | true =>
              simp only [if_true, List.forall_mem_append, handlerFields_all]
              constructor
              · rintro ⟨_, action, path⟩
                refine ⟨fun _ => set, fun _ _ => action, ?_⟩
                intro _ dev same
                rw [found] at same
                exact path dev (Option.some.inj same) (actionSet.mpr action)
              · intro suffices_
                refine ⟨compared, suffices_.action rfl (by simp [found]), ?_⟩
                intro dev same _
                exact suffices_.path rfl dev (by rw [found, same])

/-- The clients of an external modem. -/
def bothClients : Slots := fun i =>
  if i.val = 0 then ⟨some (bytes "modem_ctrl"), some .modemEventTriger, none⟩
  else if i.val = 1 then ⟨some (bytes "pci"), some (.modemPcieEvent (bytes "0000:01:00.0")), none⟩
  else {}

/-- A message of one string. -/
theorem action_only_unset : ¬ ∀ (data junk : Bytes) (slots : Slots) (text : Bytes),
    data.length < UEVENT_MSG_LEN →
      (∃ i, slots i = ⟨some (bytes "modem_ctrl"), some .modemEventTriger, none⟩) →
        (∃ i dev, slots i = ⟨some (bytes "pci"), some (.modemPcieEvent dev), none⟩) →
          ∀ f ∈ dispatchFields slots (data ++ 0 :: 0 :: junk) true text, SetBy data f := by
  intro always
  have all := always (bytes "ACTION=change") [] bothClients [] (by decide)
    ⟨⟨0, by decide⟩, rfl⟩ ⟨⟨1, by decide⟩, _, rfl⟩ .subsystem (by decide)
  exact absurd all (by decide)

end

end ModemControl.UeventFields
