import Mathlib.Tactic.SplitIfs
import ModemControl.Foundation.Buffer
import ModemControl.Foundation.Runs

/-! # The uevent monitor

`modem_event_device_fd` receives every uevent into the one buffer `msg`. The info that
`parse_event` makes of it holds numbers that were copied, and pointers into `msg`; the
handler thread gets this info and runs later. A pointer is an offset into the buffer
here, and what it points to is the C string found there at the time it is read.
-/

namespace ModemControl.Uevent

open Foundation

def UEVENT_MSG_LEN : Nat := 4096

structure BaseUEventInfo where
  action : Option Nat := none
  path : Option Nat := none
  subsystem : Option Nat := none
  firmware : Option Nat := none
  modemEvent : Option Nat := none
  modemStat : Int := -1
  major : Int := -1
  minor : Int := -1
  handleIndex : Nat := 0
  deriving Repr, DecidableEq

def ACTION : Bytes := bytes "ACTION="
def DEVPATH : Bytes := bytes "DEVPATH="
def SUBSYSTEM : Bytes := bytes "SUBSYSTEM="
def FIRMWARE : Bytes := bytes "FIRMWARE="
def MAJOR : Bytes := bytes "MAJOR="
def MINOR : Bytes := bytes "MINOR="
def MODEM_EVENT : Bytes := bytes "MODEM_EVENT="
def MODEM_STAT : Bytes := bytes "MODEM_STAT="

/-- One string of the message, which starts at `msg`. -/
def parseItem (info : BaseUEventInfo) (msg : Nat) (text : Bytes) : BaseUEventInfo :=
  if ACTION.isPrefixOf text then { info with action := some (msg + 7) }
  else if DEVPATH.isPrefixOf text then { info with path := some (msg + 8) }
  else if SUBSYSTEM.isPrefixOf text then { info with subsystem := some (msg + 10) }
  else if FIRMWARE.isPrefixOf text then { info with firmware := some (msg + 9) }
  else if MAJOR.isPrefixOf text then { info with major := atoi (text.drop 6) }
  else if MINOR.isPrefixOf text then { info with minor := atoi (text.drop 6) }
  else if MODEM_EVENT.isPrefixOf text then { info with modemEvent := some (msg + 12) }
  else if MODEM_STAT.isPrefixOf text then { info with modemStat := atoi (text.drop 11) }
  else info

/-- `parse_event` from the offset `msg` on. At the head of its loop it looks at the
    string there; otherwise it is in `while (*msg++)`, which skips the string. -/
def parseFrom : Bytes → Nat → (head : Bool) → BaseUEventInfo → BaseUEventInfo
  | [], _, _, info => info
  | c :: rest, msg, true, info =>
      if c = 0 then info
      else parseFrom rest (msg + 1) false (parseItem info msg (cstr (c :: rest)))
  | c :: rest, msg, false, info => parseFrom rest (msg + 1) (c == 0) info

def parseEvent (msg : Bytes) : BaseUEventInfo := parseFrom msg 0 true {}

/-- The values a handler uses. -/
structure Event where
  action : Option Bytes := none
  devpath : Option Bytes := none
  modemStat : Int := -1
  deriving Repr, DecidableEq

def eventItem (e : Event) (text : Bytes) : Event :=
  if ACTION.isPrefixOf text then { e with action := some (text.drop 7) }
  else if DEVPATH.isPrefixOf text then { e with devpath := some (text.drop 8) }
  else if MODEM_STAT.isPrefixOf text then { e with modemStat := atoi (text.drop 11) }
  else e

def eventFrom : Bytes → (head : Bool) → Event → Event
  | [], _, e => e
  | c :: rest, true, e => if c = 0 then e else eventFrom rest false (eventItem e (cstr (c :: rest)))
  | c :: rest, false, e => eventFrom rest (c == 0) e

/-- The values of the uevent `data`: each key's last string before an empty one. -/
def eventOf (data : Bytes) : Event := eventFrom (data ++ [0, 0]) true {}

/-- What a handler reads through the info, with `msg` as the buffer then is. -/
def seen (msg : Bytes) (info : BaseUEventInfo) : Event where
  action := info.action.map fun p => cstr (msg.drop p)
  devpath := info.path.map fun p => cstr (msg.drop p)
  modemStat := info.modemStat

/-- No key starts another one. -/
theorem keys_apart {a b text : Bytes} (ha : a.isPrefixOf text = true)
    (apart : a.isPrefixOf b = false ∧ b.isPrefixOf a = false) : b.isPrefixOf text = false := by
  by_contra hb
  rw [Bool.not_eq_false] at hb
  rw [List.isPrefixOf_iff_prefix] at ha hb
  cases List.prefix_or_prefix_of_prefix ha hb with
  | inl first => simp [List.isPrefixOf_iff_prefix.mpr first] at apart
  | inr second => simp [List.isPrefixOf_iff_prefix.mpr second] at apart

/-- A string at the pointer's place is seen as the value of its key. -/
theorem seen_parseItem (msg : Bytes) (pos : Nat) (info : BaseUEventInfo) :
    seen msg (parseItem info pos (cstr (msg.drop pos))) =
      eventItem (seen msg info) (cstr (msg.drop pos)) := by
  generalize text : cstr (msg.drop pos) = item
  have pointed (key : Bytes) (starts : key.isPrefixOf item = true) :
      cstr (msg.drop (pos + key.length)) = item.drop key.length := by
    rw [← List.drop_drop, cstr_drop, text]
    rw [text]
    exact (List.isPrefixOf_iff_prefix.mp starts).length_le
  unfold parseItem eventItem
  by_cases action : ACTION.isPrefixOf item = true
  · have value : cstr (msg.drop (pos + 7)) = item.drop 7 := pointed ACTION action
    simp only [action, if_true, seen, Option.map_some, value]
  · by_cases path : DEVPATH.isPrefixOf item = true
    · have value : cstr (msg.drop (pos + 8)) = item.drop 8 := pointed DEVPATH path
      simp only [action, path, Bool.false_eq_true, if_false, if_true, seen, Option.map_some, value]
    · by_cases stat : MODEM_STAT.isPrefixOf item = true
      · have others : ∀ key ∈ [SUBSYSTEM, FIRMWARE, MAJOR, MINOR, MODEM_EVENT],
            key.isPrefixOf item = false := by
          have apart : ∀ key ∈ [SUBSYSTEM, FIRMWARE, MAJOR, MINOR, MODEM_EVENT],
              MODEM_STAT.isPrefixOf key = false ∧ key.isPrefixOf MODEM_STAT = false := by decide
          exact fun key member => keys_apart stat (apart key member)
        simp only [List.mem_cons, List.not_mem_nil, or_false, forall_eq_or_imp, forall_eq] at others
        simp [action, path, stat, others, seen]
      · simp only [action, path, stat, Bool.false_eq_true, if_false]
        split_ifs <;> rfl

theorem seen_parseFrom (msg rest : Bytes) (pos : Nat) (head : Bool) (info : BaseUEventInfo)
    (here : msg.drop pos = rest) :
    seen msg (parseFrom rest pos head info) = eventFrom rest head (seen msg info) := by
  induction rest generalizing pos head info with
  | nil => cases head <;> rfl
  | cons c rest ih =>
      have next : msg.drop (pos + 1) = rest := by
        rw [← List.drop_drop, here, List.drop_one, List.tail_cons]
      cases head with
      | false => exact ih (pos + 1) (c == 0) info next
      | true =>
          simp only [parseFrom, eventFrom]
          by_cases stop : c = 0
          · rw [if_pos stop, if_pos stop]
          · rw [if_neg stop, if_neg stop, ih (pos + 1) false _ next, ← here, seen_parseItem]

/-- The walk ends at the two bytes that are set to 0 behind the message. -/
theorem eventFrom_message (data junk : Bytes) (head : Bool) (e : Event) :
    eventFrom (data ++ 0 :: 0 :: junk) head e = eventFrom (data ++ [0, 0]) head e := by
  induction data generalizing head e with
  | nil => cases head <;> rfl
  | cons c data ih =>
      cases head with
      | false => exact ih (c == 0) e
      | true =>
          have same := @cstr_append_of_mem (c :: data ++ [0, 0]) (by simp) junk
          simp only [List.cons_append, List.append_assoc, List.nil_append] at same
          simp only [List.cons_append, eventFrom, same, ih]

/-- Right after a uevent is received, its info shows what the uevent says. -/
theorem seen_parseEvent (data junk : Bytes) :
    seen (data ++ 0 :: 0 :: junk) (parseEvent (data ++ 0 :: 0 :: junk)) = eventOf data := by
  have walked := seen_parseFrom (data ++ 0 :: 0 :: junk) _ 0 true {} rfl
  rw [List.drop_zero, eventFrom_message] at walked
  exact walked

/-- The values of `info->modem_stat` that `modem_event_triger` acts on. -/
def MDM_WARM_RESET : Int := 2
def MDM_CP_CRASH : Int := 5

/-- What a handler ends in; `strcmp` and `strstr` of a null pointer end the process. -/
inductive Reaction where
  | fault
  | ignored
  | loadSplImg
  | panicProcess
  | changeEpDeviceOwner
  deriving Repr, DecidableEq

def modemEventTriger (e : Event) : Reaction :=
  match e.action with
  | none => .fault
  | some action =>
      if action ≠ bytes "change" then .ignored
      else if e.modemStat = MDM_WARM_RESET then .loadSplImg
      else if e.modemStat = MDM_CP_CRASH then .panicProcess
      else .ignored

/-- `dev` is the name of the ep device, cut out of its remove path. -/
def modemPcieEvent (dev : Bytes) (e : Event) : Reaction :=
  match e.action with
  | none => .fault
  | some action =>
      if action ≠ bytes "add" then .ignored
      else match e.devpath with
        | none => .fault
        | some path => if strstr path dev then .changeEpDeviceOwner else .ignored

inductive Handler where
  | modemEventTriger
  | modemPcieEvent (dev : Bytes)
  deriving Repr, DecidableEq

def Handler.react : Handler → Event → Reaction
  | .modemEventTriger => Uevent.modemEventTriger
  | .modemPcieEvent dev => Uevent.modemPcieEvent dev

structure EventClient where
  subsystem : Bytes
  handler : Handler
  deriving Repr, DecidableEq

/-- A started handler thread that has not run yet: its info, and what the uevent it was
    started for says. -/
structure HandleThread where
  info : BaseUEventInfo
  own : Event
  deriving Repr, DecidableEq

structure Monitor where
  msg : Bytes
  started : List HandleThread
  deriving Repr, DecidableEq

def start : Monitor := ⟨List.replicate (UEVENT_MSG_LEN + 2) 0, []⟩

/-- The info for the new thread, or none when no client takes the event. A message
    without a subsystem is compared by `strcmp` all the same, which ends the process. -/
def modemEventProcess (clients : List (Option EventClient)) (msg : Bytes)
    (info : BaseUEventInfo) : Option (Option BaseUEventInfo) :=
  if clients.all Option.isNone then some none
  else match info.subsystem with
    | none => none
    | some p =>
        let here (c : Option EventClient) := c.map EventClient.subsystem == some (cstr (msg.drop p))
        some ((clients.findIdx? here).map fun i => { info with handleIndex := i })

inductive Input where
  /-- A uevent arrives; the allocation and the thread creation may fail. -/
  | receive (data : Bytes) (allocated created : Bool)
  /-- `modem_event_device_fd` has returned, and the memory of `msg` was used for
      something else by the time it is called again. -/
  | reuse (memory : Bytes)
  /-- One of the started handler threads runs. -/
  | runHandler (k : Nat)
  deriving Repr, DecidableEq

/-- The buffer after the input. -/
def Input.buffer (msg : Bytes) : Input → Bytes
  | .receive data _ _ =>
      -- a message that fills the buffer is discarded, but it has been received into it
      if data.length = UEVENT_MSG_LEN then data ++ msg.drop data.length
      else data ++ 0 :: 0 :: msg.drop (data.length + 2)
  | .reuse memory => memory
  | .runHandler _ => msg

def step (clients : List (Option EventClient)) (s : Monitor) (i : Input) : Option Monitor :=
  let msg := i.buffer s.msg
  match i with
  | .receive data allocated created =>
      if data = [] ∨ UEVENT_MSG_LEN < data.length then none
      else if data.length = UEVENT_MSG_LEN ∨ allocated = false then some { s with msg := msg }
      else match modemEventProcess clients msg (parseEvent msg) with
        | none => none
        | some none => some { s with msg := msg }
        | some (some info) =>
            if created then some ⟨msg, s.started ++ [⟨info, eventOf data⟩]⟩
            else some { s with msg := msg }
  | .reuse memory => if memory.length = s.msg.length then some { s with msg := msg } else none
  | .runHandler k =>
      if k < s.started.length then some { s with started := s.started.eraseIdx k } else none

/-- A handler thread that runs sees the uevent it was started for. -/
def SeesOwn (s : Monitor) : Input → Prop
  | .runHandler k => ∀ t, s.started[k]? = some t → seen s.msg t.info = t.own
  | _ => True

/-- What the handler thread does that runs. -/
def reaction (clients : List (Option EventClient)) (s : Monitor) (k : Nat) : Option Reaction := do
  let t ← s.started[k]?
  let client ← (clients[t.info.handleIndex]?).join
  return client.handler.react (seen s.msg t.info)

/-- A thread that sees its own uevent does what that uevent calls for. -/
theorem reaction_own {clients : List (Option EventClient)} {s : Monitor} {k : Nat}
    {t : HandleThread} {client : EventClient} (sees : SeesOwn s (.runHandler k))
    (here : s.started[k]? = some t) (named : (clients[t.info.handleIndex]?).join = some client) :
    reaction clients s k = some (client.handler.react t.own) := by
  have own := sees t here
  simp only [reaction, here, named, Option.bind_eq_bind, Option.bind_some, Option.pure_def, own]

/-- Whichever started thread ran now, it would see its own uevent. -/
def Intact (s : Monitor) : Prop := ∀ t ∈ s.started, seen s.msg t.info = t.own

/-- What is written to the buffer leaves the strings alone that started threads point to. -/
def Spares (s : Monitor) (i : Input) : Prop :=
  ∀ t ∈ s.started, seen (i.buffer s.msg) t.info = seen s.msg t.info

instance (s : Monitor) (i : Input) : Decidable (SeesOwn s i) := by
  cases i with
  | runHandler k =>
      exact decidable_of_iff (∀ t ∈ s.started[k]?, seen s.msg t.info = t.own)
        (by simp [SeesOwn, Option.mem_def])
  | _ => exact .isTrue trivial

instance (s : Monitor) (i : Input) : Decidable (Spares s i) := by
  unfold Spares; infer_instance

theorem eventProcess_some {clients : List (Option EventClient)} {msg : Bytes}
    {info info' : BaseUEventInfo} (found : modemEventProcess clients msg info = some (some info')) :
    seen msg info' = seen msg info := by
  unfold modemEventProcess at found
  split at found
  · cases found
  · split at found
    · cases found
    · obtain ⟨i, -, rfl⟩ := Option.map_eq_some_iff.mp (Option.some.inj found)
      rfl

/-- What a step does to the buffer and to the started threads. -/
theorem step_cases {clients : List (Option EventClient)} {s s' : Monitor} {i : Input}
    (taken : step clients s i = some s') :
    s'.msg = i.buffer s.msg ∧
      ((∃ k, i = .runHandler k ∧ s'.started = s.started.eraseIdx k) ∨
        (∀ k, i ≠ .runHandler k) ∧
          (s'.started = s.started ∨
            ∃ t, s'.started = s.started ++ [t] ∧ seen s'.msg t.info = t.own)) := by
  cases i with
  | receive data allocated created =>
      simp only [step] at taken
      split at taken
      · cases taken
      · split at taken
        · obtain rfl := Option.some.inj taken
          exact ⟨rfl, Or.inr ⟨by simp, Or.inl rfl⟩⟩
        · rename_i whole
          have buffer : Input.buffer s.msg (.receive data allocated created) =
              data ++ 0 :: 0 :: s.msg.drop (data.length + 2) := by
            simp only [Input.buffer]
            rw [if_neg fun full => whole (Or.inl full)]
          split at taken
          · cases taken
          · obtain rfl := Option.some.inj taken
            exact ⟨rfl, Or.inr ⟨by simp, Or.inl rfl⟩⟩
          · rename_i info found
            split at taken
            · obtain rfl := Option.some.inj taken
              refine ⟨rfl, Or.inr ⟨by simp, Or.inr ⟨_, rfl, ?_⟩⟩⟩
              rw [eventProcess_some found, buffer]
              exact seen_parseEvent data _
            · obtain rfl := Option.some.inj taken
              exact ⟨rfl, Or.inr ⟨by simp, Or.inl rfl⟩⟩
  | reuse memory =>
      simp only [step] at taken
      split at taken
      · obtain rfl := Option.some.inj taken
        exact ⟨rfl, Or.inr ⟨by simp, Or.inl rfl⟩⟩
      · cases taken
  | runHandler k =>
      simp only [step] at taken
      split at taken
      · obtain rfl := Option.some.inj taken
        exact ⟨rfl, Or.inl ⟨k, rfl, rfl⟩⟩
      · cases taken

theorem step_exact {clients : List (Option EventClient)} {s s' : Monitor} {i : Input}
    (before : Intact s) (taken : step clients s i = some s') :
    Intact s' ∧ SeesOwn s i ↔ Spares s i := by
  obtain ⟨msg, ⟨k, rfl, started⟩ | ⟨other, started⟩⟩ := step_cases taken
  · -- a handler that runs only reads the buffer
    refine iff_of_true ⟨?_, ?_⟩ fun t _ => rfl
    · intro t member
      rw [started] at member
      rw [msg]
      exact before t (List.mem_of_mem_eraseIdx member)
    · intro t here
      exact before t (List.mem_of_getElem? here)
  · have quiet : SeesOwn s i := by
      cases i with
      | runHandler k => exact absurd rfl (other k)
      | _ => trivial
    -- the threads started before see what they saw, and a new one sees its own event
    have old : (∀ t ∈ s.started, seen s'.msg t.info = t.own) ↔ Spares s i := by
      rw [msg]
      constructor
      · intro intact t member
        rw [intact t member, before t member]
      · intro spares t member
        rw [spares t member, before t member]
    simp only [quiet, and_true, ← old, Intact]
    cases started with
    | inl same => rw [same]
    | inr more =>
        obtain ⟨t, added, own⟩ := more
        rw [added]
        simp only [List.mem_append, List.mem_singleton, or_imp, forall_and, forall_eq, own,
          and_true]

/-- Over every sequence of uevents and every order of the handler threads: each started
    thread would see its own event at any time, and does when it runs, exactly when no
    write to the buffer changes a string that a thread still points to. -/
theorem handlers_see_own_event (clients : List (Option EventClient)) (inputs : List Input)
    (s : Monitor) (reached : run (step clients) start inputs = some s) :
    Throughout (step clients) Intact start inputs ∧ Along (step clients) SeesOwn start inputs ↔
      Along (step clients) Spares start inputs := by
  apply kept_iff_along _ reached
  · intro t member
    cases member
  · intro i _ s s' before taken
    exact step_exact before taken

def modemCtrl : List (Option EventClient) :=
  [some ⟨bytes "modem_ctrl", .modemEventTriger⟩]

/-- A uevent of the modem_ctrl driver, its strings ended by NULs. -/
def uevent (action stat : String) : Bytes :=
  frames [bytes "ACTION=" ++ bytes action, bytes "DEVPATH=/devices/mcd",
    bytes "SUBSYSTEM=modem_ctrl", bytes "MODEM_STAT=" ++ bytes stat]

/-- Two uevents, each handled before the next one is received. -/
theorem handlers_see_own_event_in_turn :
    Along (step modemCtrl) SeesOwn start
      [.receive (uevent "change" "2") true true, .runHandler 0,
        .receive (uevent "add" "5") true true, .runHandler 0] :=
  ((handlers_see_own_event modemCtrl _ ⟨_, []⟩ rfl).mpr (by decide)).2

/-- The second uevent arrives before the first handler has run: that handler, started
    for a warm reset, sees the action of the other event and ignores it. -/
theorem late_handler_sees_next_event :
    ¬ Along (step modemCtrl) SeesOwn start
      [.receive (uevent "change" "2") true true, .receive (uevent "add" "5") true true,
        .runHandler 0] := by
  decide

end ModemControl.Uevent
