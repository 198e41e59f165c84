import ModemControl.Uevent

/-! # parse_event, read by read: eventmonitor.c

Every read of the buffer is checked, and the walk is nothing once one goes beyond its end.
What `atoi` makes of a text is left open.
-/

namespace ModemControl.ParseEvent

open Foundation Uevent

/-- `strncmp(msg, key, strlen(key)) == 0`. -/
def strncmpAt (buf : Bytes) : Nat → Bytes → Option Bool
  | _, [] => some true
  | msg, c :: key =>
      match buf[msg]? with
      | none => none
      | some b => if b == c then strncmpAt buf (msg + 1) key else some false

/-- `while (*msg++);`. -/
def skipFrom : Bytes → Nat → Option Nat
  | [], _ => none
  | c :: rest, msg => if c = 0 then some (msg + 1) else skipFrom rest (msg + 1)

def skipAt (buf : Bytes) (msg : Nat) : Option Nat := skipFrom (buf.drop msg) msg

/-- The keys in the order they are tried in. -/
inductive Key where
  | action
  | path
  | subsystem
  | firmware
  | major
  | minor
  | modemEvent
  | modemStat
  deriving Repr, DecidableEq

def Key.text : Key → Bytes
  | action => ACTION
  | path => DEVPATH
  | subsystem => SUBSYSTEM
  | firmware => FIRMWARE
  | major => MAJOR
  | minor => MINOR
  | modemEvent => MODEM_EVENT
  | modemStat => MODEM_STAT

def keys : List Key :=
  [.action, .path, .subsystem, .firmware, .major, .minor, .modemEvent, .modemStat]

/-- Which of the keys is the first that the string at `msg` starts with. -/
def matchKey (buf : Bytes) (msg : Nat) : List Key → Option (Option Key)
  | [] => some none
  | key :: others => do
      if ← strncmpAt buf msg key.text then some (some key) else matchKey buf msg others

/-- What a branch does, with `msg` behind its key. -/
def Key.store (atoi : Bytes → Int) (buf : Bytes) (msg : Nat) (info : BaseUEventInfo) :
    Key → Option BaseUEventInfo
  | action => some { info with action := some msg }
  | path => some { info with path := some msg }
  | subsystem => some { info with subsystem := some msg }
  | firmware => some { info with firmware := some msg }
  | major => do return { info with major := atoi (← textAt buf msg) }
  | minor => do return { info with minor := atoi (← textAt buf msg) }
  | modemEvent => do
      let _logged ← textAt buf msg
      return { info with modemEvent := some msg }
  | modemStat => do return { info with modemStat := atoi (← textAt buf msg) }

/-- One round, at a string that is not empty. -/
def parseString (atoi : Bytes → Int) (buf : Bytes) (msg : Nat) (info : BaseUEventInfo) :
    Option (Nat × BaseUEventInfo) := do
  let _logged ← textAt buf msg
  match ← matchKey buf msg keys with
  | none => return (← skipAt buf msg, info)
  | some key =>
      let msg := msg + key.text.length
      let info ← key.store atoi buf msg info
      return (← skipAt buf msg, info)

/-- The outer loop for so many rounds; one that is not done by then is nothing. -/
def parseLoop (atoi : Bytes → Int) (buf : Bytes) :
    (rounds : Nat) → (msg : Nat) → BaseUEventInfo → Option BaseUEventInfo
  | 0, _, _ => none
  | rounds + 1, msg, info => do
      if (← buf[msg]?) = 0 then return info
      let (msg, info) ← parseString atoi buf msg info
      parseLoop atoi buf rounds msg info

/-- `info`, as malloc gave it, before the first string. -/
def cleared (info : BaseUEventInfo) : BaseUEventInfo := { handleIndex := info.handleIndex }

def parseEvent (atoi : Bytes → Int) (rounds : Nat) (buf : Bytes) (info : BaseUEventInfo) :
    Option BaseUEventInfo :=
  parseLoop atoi buf rounds 0 (cleared info)

def Key.put (atoi : Bytes → Int) (msg : Nat) (value : Bytes) (info : BaseUEventInfo) :
    Key → BaseUEventInfo
  | action => { info with action := some msg }
  | path => { info with path := some msg }
  | subsystem => { info with subsystem := some msg }
  | firmware => { info with firmware := some msg }
  | major => { info with major := atoi value }
  | minor => { info with minor := atoi value }
  | modemEvent => { info with modemEvent := some msg }
  | modemStat => { info with modemStat := atoi value }

def Key.starts (s : Bytes) (key : Key) : Bool := key.text.isPrefixOf s

/-- The info behind a string at `msg`. -/
def item (atoi : Bytes → Int) (msg : Nat) (s : Bytes) (info : BaseUEventInfo) : BaseUEventInfo :=
  match keys.find? (Key.starts s) with
  | none => info
  | some key => key.put atoi (msg + key.text.length) (s.drop key.text.length) info

section

variable {buf : Bytes} {msg : Nat}

theorem strncmpAt_eq {key : Bytes} (terminated : Terminated buf msg) (clean : 0 ∉ key) :
    strncmpAt buf msg key = some (key.isPrefixOf (text buf msg)) := by
  induction key generalizing msg with
  | nil => simp [strncmpAt]
  | cons c key ih =>
      rw [List.mem_cons, not_or] at clean
      have split := drop_eq_text terminated
      rw [strncmpAt, ← List.head?_drop, split]
      cases here : text buf msg with
      | nil =>
          have differs : ((0 : UInt8) == c) = false := beq_false_of_ne clean.1
          simp [differs]
      | cons b rest =>
          have inside : 1 ≤ (text buf msg).length := by simp [here]
          have next := text_add inside
          rw [here] at next
          rw [List.drop_one, List.tail_cons] at next
          have later := ih (terminated_add terminated inside) clean.2
          rw [next] at later
          simp only [List.cons_append, List.head?_cons, later, List.isPrefixOf_cons_cons]
          by_cases same : b = c
          · simp [same]
          · have differs := beq_false_of_ne same
            rw [Bool.beq_comm] at differs
            simp [same, differs]

theorem skipFrom_text {s : Bytes} (clean : 0 ∉ s) (rest : Bytes) (msg : Nat) :
    skipFrom (s ++ 0 :: rest) msg = some (msg + s.length + 1) := by
  induction s generalizing msg with
  | nil => rfl
  | cons c s ih =>
      rw [List.mem_cons, not_or] at clean
      rw [List.cons_append, skipFrom, if_neg (Ne.symm clean.1), ih clean.2, List.length_cons]
      congr 1
      omega

theorem skipAt_eq (terminated : Terminated buf msg) :
    skipAt buf msg = some (msg + (text buf msg).length + 1) := by
  rw [skipAt, drop_eq_text terminated]
  exact skipFrom_text (text_clean buf msg) _ msg

theorem key_clean (key : Key) : 0 ∉ key.text := by
  cases key <;> decide

theorem matchKey_eq (terminated : Terminated buf msg) (ks : List Key) :
    matchKey buf msg ks = some (ks.find? (Key.starts (text buf msg))) := by
  induction ks with
  | nil => rfl
  | cons key others ih =>
      rw [matchKey, strncmpAt_eq terminated (key_clean key), List.find?_cons, Key.starts]
      cases key.text.isPrefixOf (text buf msg) with
      | true => rfl
      | false => simpa using ih

theorem store_eq (terminated : Terminated buf msg) (atoi : Bytes → Int) (info : BaseUEventInfo)
    (key : Key) : key.store atoi buf msg info = some (key.put atoi msg (text buf msg) info) := by
  cases key <;> simp [Key.store, Key.put, textAt_terminated terminated]

theorem starts_length {s : Bytes} {key : Key} (starts : key.starts s = true) :
    key.text.length ≤ s.length :=
  (List.isPrefixOf_iff_prefix.mp starts).length_le

/-- The pointer is behind the string's NUL, with the key found or not. -/
theorem parseString_eq (terminated : Terminated buf msg) (atoi : Bytes → Int)
    (info : BaseUEventInfo) :
    parseString atoi buf msg info =
      some (msg + (text buf msg).length + 1, item atoi msg (text buf msg) info) := by
  simp only [parseString, textAt_terminated terminated, matchKey_eq terminated, item,
    Option.bind_eq_bind, Option.bind_some]
  cases found : keys.find? (Key.starts (text buf msg)) with
  | none => simp [skipAt_eq terminated]
  | some key =>
      have inside := starts_length (List.find?_some found)
      have behind := terminated_add terminated inside
      simp only [store_eq behind, skipAt_eq behind, text_add inside, Option.bind_some,
        List.length_drop, Option.pure_def]
      congr 2
      omega

end

/-- The strings of a message of these bytes, up to the first empty one. -/
def messageStrings (data : Bytes) : List Bytes :=
  ((data ++ [0, 0]).splitOn 0).takeWhile (· ≠ [])

/-- The text behind the key in the last string that starts with it. -/
def lastValue (key : Key) (ss : List Bytes) : Option Bytes :=
  (ss.filter key.starts).getLast?.map (·.drop key.text.length)

/-- The pointer is at this text, or NULL when there is none. -/
def PointsTo (buf : Bytes) (p : Option Nat) (value : Option Bytes) : Prop :=
  p.map (textAt buf) = value.map some

def number (atoi : Bytes → Int) (value : Option Bytes) : Int := (value.map atoi).getD (-1)

/-- What `info` has for the key is this value. -/
def Key.Shows (atoi : Bytes → Int) (buf : Bytes) (info : BaseUEventInfo) (value : Option Bytes) :
    Key → Prop
  | action => PointsTo buf info.action value
  | path => PointsTo buf info.path value
  | subsystem => PointsTo buf info.subsystem value
  | firmware => PointsTo buf info.firmware value
  | major => info.major = number atoi value
  | minor => info.minor = number atoi value
  | modemEvent => PointsTo buf info.modemEvent value
  | modemStat => info.modemStat = number atoi value

/-- Every key's value is the one of its last string. -/
def Shown (atoi : Bytes → Int) (buf : Bytes) (info : BaseUEventInfo) (ss : List Bytes) : Prop :=
  ∀ key : Key, key.Shows atoi buf info (lastValue key ss)

theorem messageStrings_empty (rest : Bytes) : messageStrings (0 :: rest) = [] := by
  simp [messageStrings, List.splitOn_cons_eq_if_modifyHead]

theorem messageStrings_cons {s : Bytes} (clean : 0 ∉ s) (some : s ≠ []) (rest : Bytes) :
    messageStrings (s ++ 0 :: rest) = s :: messageStrings rest := by
  simp [messageStrings, List.splitOn_append_cons_self_of_not_mem clean, some]

theorem messageStrings_last {s : Bytes} (clean : 0 ∉ s) (some : s ≠ []) :
    messageStrings s = [s] := by
  simp [messageStrings, List.splitOn_append_cons_self_of_not_mem clean, some,
    List.splitOn_cons_eq_if_modifyHead]

/-- A message is at an end, or has a string that is its last, or one with more behind it. -/
theorem message_induction {motive : Bytes → Prop} (nil : motive [])
    (empty : ∀ rest, motive (0 :: rest)) (last : ∀ s, 0 ∉ s → s ≠ [] → motive s)
    (cons : ∀ s rest, 0 ∉ s → s ≠ [] → motive rest → motive (s ++ 0 :: rest)) (data : Bytes) :
    motive data := by
  induction length : data.length using Nat.strongRecOn generalizing data with
  | ind n ih =>
      by_cases more : 0 ∈ data
      · obtain ⟨s, rest, rfl, clean⟩ := List.eq_append_cons_of_mem more
        by_cases first : s = []
        · subst first
          exact empty rest
        · have shorter : rest.length < n := by
            rw [← length, List.length_append, List.length_cons]
            omega
          exact cons s rest clean first (ih _ shorter rest rfl)
      · by_cases first : data = []
        · exact first ▸ nil
        · exact last data more first

theorem lastValue_snoc (key : Key) (ss : List Bytes) (s : Bytes) :
    lastValue key (ss ++ [s]) =
      if key.starts s then some (s.drop key.text.length) else lastValue key ss := by
  by_cases starts : key.starts s = true <;> simp [lastValue, starts]

theorem key_unique {s : Bytes} {a b : Key} (ha : a.starts s = true) (hb : b.starts s = true) :
    a = b := by
  by_contra other
  have apart : a.text.isPrefixOf b.text = false ∧ b.text.isPrefixOf a.text = false := by
    cases a <;> cases b <;> first | exact absurd rfl other | decide
  have no : b.starts s = false := keys_apart ha apart
  simp [no] at hb

theorem mem_keys (key : Key) : key ∈ keys := by
  cases key <;> decide

section

variable {atoi : Bytes → Int} {buf : Bytes} {info : BaseUEventInfo}

theorem put_other {key other : Key} (differs : other ≠ key) {msg : Nat} {text : Bytes}
    {value : Option Bytes} (shows : other.Shows atoi buf info value) :
    other.Shows atoi buf (key.put atoi msg text info) value := by
  cases key <;> cases other <;> first | exact absurd rfl differs | exact shows

theorem put_shows {msg : Nat} {value : Bytes} (here : textAt buf msg = some value) (key : Key) :
    key.Shows atoi buf (key.put atoi msg value info) (some value) := by
  cases key <;> simp [Key.Shows, Key.put, PointsTo, number, here]

theorem item_shown {ss : List Bytes} {msg : Nat} (terminated : Terminated buf msg)
    (before : Shown atoi buf info ss) :
    Shown atoi buf (item atoi msg (text buf msg) info) (ss ++ [text buf msg]) := by
  intro key
  rw [lastValue_snoc]
  unfold item
  cases found : keys.find? (Key.starts (text buf msg)) with
  | none =>
      have no : key.starts (text buf msg) ≠ true := List.find?_eq_none.mp found key (mem_keys key)
      rw [if_neg no]
      exact before key
  | some first =>
      have starts : first.starts (text buf msg) = true := List.find?_some found
      have inside := starts_length starts
      by_cases same : key = first
      · subst same
        rw [if_pos starts]
        apply put_shows
        rw [textAt_terminated (terminated_add terminated inside), text_add inside]
      · have no : ¬ key.starts (text buf msg) = true := fun also => same (key_unique also starts)
        rw [if_neg no]
        exact put_other same (before key)

end

/-- The info behind strings that lie one after the other from `msg` on. -/
def items (atoi : Bytes → Int) : List Bytes → (msg : Nat) → BaseUEventInfo → BaseUEventInfo
  | [], _, info => info
  | s :: ss, msg, info => items atoi ss (msg + s.length + 1) (item atoi msg s info)

theorem cleared_shown (atoi : Bytes → Int) (buf : Bytes) (info : BaseUEventInfo) :
    Shown atoi buf (cleared info) [] := by
  intro key
  cases key <;> rfl

section

variable {atoi : Bytes → Int} {buf : Bytes} {rounds msg : Nat} {info : BaseUEventInfo}
  {before : List Bytes}

theorem parseLoop_stop (zero : (buf.drop msg).head? = some 0) :
    parseLoop atoi buf (rounds + 1) msg info = some info := by
  rw [List.head?_drop] at zero
  simp [parseLoop, zero]

theorem at_string {s rest : Bytes} (here : buf.drop msg = s ++ 0 :: rest) (clean : 0 ∉ s) :
    Terminated buf msg ∧ text buf msg = s ∧ buf.drop (msg + s.length + 1) = rest := by
  unfold Terminated text
  rw [Nat.add_assoc, ← List.drop_drop, here]
  exact ⟨by simp, cstr_append clean rest, by simp⟩

/-- One round takes one string. -/
theorem parseLoop_string {s rest : Bytes} (here : buf.drop msg = s ++ 0 :: rest) (clean : 0 ∉ s)
    (nonempty : s ≠ []) :
    parseLoop atoi buf (rounds + 1) msg info =
      parseLoop atoi buf rounds (msg + s.length + 1) (item atoi msg s info) := by
  obtain ⟨terminated, start, _⟩ := at_string here clean
  have step := parseString_eq terminated atoi info
  rw [start] at step
  have first : buf[msg]? = s.head? := by
    rw [← List.head?_drop, here]
    cases s with
    | nil => exact absurd rfl nonempty
    | cons c s => rfl
  cases s with
  | nil => exact absurd rfl nonempty
  | cons c s =>
      have nonzero : c ≠ 0 := fun zero => clean (zero ▸ List.mem_cons_self)
      rw [parseLoop, first]
      simp [nonzero, step]

theorem parseLoop_spec {data junk : Bytes} (here : buf.drop msg = data ++ 0 :: 0 :: junk)
    (more : Nat) (shown : Shown atoi buf info before) :
    parseLoop atoi buf (data.length + 1 + more) msg info =
        some (items atoi (messageStrings data) msg info) ∧
      Shown atoi buf (items atoi (messageStrings data) msg info) (before ++ messageStrings data) := by
  rw [Nat.add_right_comm]
  induction data using message_induction generalizing msg info before more with
  | nil =>
      have none : messageStrings [] = [] := rfl
      rw [none, List.append_nil]
      exact ⟨parseLoop_stop (by rw [here]; rfl), shown⟩
  | empty rest =>
      rw [messageStrings_empty, List.append_nil]
      exact ⟨parseLoop_stop (by rw [here]; rfl), shown⟩
  | last s clean nonempty =>
      -- only the first of the two NULs ends this string
      obtain ⟨terminated, start, next⟩ := at_string here clean
      have after := item_shown terminated shown
      rw [start] at after
      obtain ⟨n, length⟩ := Nat.exists_eq_add_of_lt (List.length_pos_iff.mpr nonempty)
      have round : s.length + more = n + more + 1 := by omega
      rw [parseLoop_string here clean nonempty, messageStrings_last clean nonempty, items, items, round]
      exact ⟨parseLoop_stop (by rw [next]; rfl), after⟩
  | cons s rest clean nonempty ih =>
      rw [List.append_assoc, List.cons_append] at here
      obtain ⟨terminated, start, next⟩ := at_string here clean
      have after := item_shown terminated shown
      rw [start] at after
      have rounds : (s ++ 0 :: rest).length + more = rest.length + (s.length + more) + 1 := by
        rw [List.length_append, List.length_cons]
        omega
      have result := ih next (s.length + more) after
      rw [List.append_assoc] at result
      rw [parseLoop_string here clean nonempty, messageStrings_cons clean nonempty, items, rounds]
      exact result

end

theorem parseEvent_eq (atoi : Bytes → Int) (data junk : Bytes) (more : Nat)
    (info : BaseUEventInfo) :
    parseEvent atoi (data.length + 1 + more) (data ++ 0 :: 0 :: junk) info =
        some (items atoi (messageStrings data) 0 (cleared info)) ∧
      Shown atoi (data ++ 0 :: 0 :: junk) (items atoi (messageStrings data) 0 (cleared info))
        (messageStrings data) := by
  have start : Shown atoi (data ++ 0 :: 0 :: junk) (cleared info) [] := cleared_shown atoi _ info
  exact parseLoop_spec rfl more start

/-- Whatever the message is, `parse_event` comes to its end inside the message and the two
    NULs, and every key has the value of its last string before an empty one. -/
theorem parseEvent_message (atoi : Bytes → Int) (data : Bytes) (info : BaseUEventInfo) :
    ∃ info', ∀ more junk,
      parseEvent atoi (data.length + 1 + more) (data ++ 0 :: 0 :: junk) info = some info' ∧
        Shown atoi (data ++ 0 :: 0 :: junk) info' (messageStrings data) := by
  refine ⟨items atoi (messageStrings data) 0 (cleared info), ?_⟩
  intro more junk
  exact parseEvent_eq atoi data junk more info

theorem parseItem_eq (info : BaseUEventInfo) (msg : Nat) (s : Bytes) :
    parseItem info msg s = item Foundation.atoi msg s info := by
  unfold parseItem item
  split_ifs with action path subsystem firmware major minor modemEvent modemStat <;>
    simp [keys, Key.starts, Key.text, Key.put, *] <;> rfl

/-- In a string that is not looked at again the monitor's walk only goes on. -/
theorem parseFrom_skip {s : Bytes} (clean : 0 ∉ s) (rest : Bytes) (msg : Nat)
    (info : BaseUEventInfo) :
    parseFrom (s ++ 0 :: rest) msg false info = parseFrom rest (msg + s.length + 1) true info := by
  induction s generalizing msg with
  | nil => rfl
  | cons c s ih =>
      rw [List.mem_cons, not_or] at clean
      have nonzero : (c == 0) = false := beq_false_of_ne (Ne.symm clean.1)
      rw [List.cons_append, parseFrom, nonzero, ih clean.2, List.length_cons]
      congr 1
      omega

theorem parseFrom_string {s : Bytes} (clean : 0 ∉ s) (nonempty : s ≠ []) (rest : Bytes) (msg : Nat)
    (info : BaseUEventInfo) :
    parseFrom (s ++ 0 :: rest) msg true info =
      parseFrom rest (msg + s.length + 1) true (item Foundation.atoi msg s info) := by
  have text := cstr_append clean rest
  cases s with
  | nil => exact absurd rfl nonempty
  | cons c s =>
      rw [List.mem_cons, not_or] at clean
      rw [List.cons_append] at text ⊢
      rw [parseFrom, if_neg (Ne.symm clean.1), text, parseFrom_skip clean.2, parseItem_eq,
        List.length_cons]
      congr 1
      omega

theorem parseFrom_message (data junk : Bytes) (msg : Nat) (info : BaseUEventInfo) :
    parseFrom (data ++ 0 :: 0 :: junk) msg true info =
      items Foundation.atoi (messageStrings data) msg info := by
  induction data using message_induction generalizing msg info with
  | nil => rfl
  | empty rest =>
      rw [messageStrings_empty]
      rfl
  | last s clean nonempty =>
      rw [parseFrom_string clean nonempty, messageStrings_last clean nonempty]
      rfl
  | cons s rest clean nonempty ih =>
      rw [List.append_assoc, List.cons_append, parseFrom_string clean nonempty, ih,
        messageStrings_cons clean nonempty, items]

/-- The monitor's walk makes the same info of a message. -/
theorem parseEvent_monitor (data junk : Bytes) (more : Nat) :
    parseEvent Foundation.atoi (data.length + 1 + more) (data ++ 0 :: 0 :: junk) {} =
      some (Uevent.parseEvent (data ++ 0 :: 0 :: junk)) := by
  rw [(parseEvent_eq _ _ _ _ _).1, Uevent.parseEvent, parseFrom_message]
  rfl

end ModemControl.ParseEvent
