import Mathlib.Data.List.Forall2
import Mathlib.Data.List.SplitLengths
import Mathlib.Algebra.Ring.Nat
import ModemControl.Connect
import ModemControl.Foundation.Buffer
import ModemControl.Foundation.Search

/-! # The reads of modem_ctrl_read_thread: modem_connect.c

A client's messages come through a stream socket, so a read may end inside a message or
have several of them. The thread looks at the text at the front of its buffer, which is
cleared before every read but may be filled to its end.
-/

namespace ModemControl.ClientReads

open Foundation Connect

/-- What the thread does, seen from outside. -/
inductive Event where
  | dumpState (state : DumpState)
  | act (a : Act)
  deriving Repr, DecidableEq

/-- What one message makes the thread do. -/
def events (r r' : Reader) (acts : List Act) : List Event :=
  (if r'.state = r.state then [] else [.dumpState r'.state]) ++ acts.map .act

/-- One read of a client. The text is logged and then searched; without a NUL in the buffer
    this goes beyond its end. -/
def readClient (p : Props) (r : Reader) (data : Bytes) : Option (Reader × List Event) :=
  (textAt (controlinfo data) 0).map fun _ =>
    let (r', acts) := readThreadMessage p r data
    (r', events r r' acts)

def readAll (p : Props) : Reader → List Bytes → Option (Reader × List Event)
  | r, [] => some (r, [])
  | r, data :: rest => do
      let (r, first) ← readClient p r data
      let (r, more) ← readAll p r rest
      return (r, first ++ more)

/-- Reads of at most a buffer that together have taken these bytes. -/
structure Reads (stream : Bytes) (reads : List Bytes) : Prop where
  whole : reads.flatten = stream
  sized : ∀ data ∈ reads, data ≠ [] ∧ data.length ≤ BUFFER_SIZE

/-- Messages that fit the buffer with their NUL. -/
def Messages (ms : List Bytes) : Prop := ∀ m ∈ ms, 0 ∉ m ∧ m.length < BUFFER_SIZE

/-- The thread does what it does when each message is read on its own. -/
def SameActions (p : Props) (r : Reader) (ms reads : List Bytes) : Prop :=
  ∃ r₁ r₂ events, readAll p r reads = some (r₁, events) ∧
    readAll p r (ms.map frame) = some (r₂, events)

/-- Whatever messages of these lengths say, and whatever has been read before, the thread does
    the same when they are cut into reads like these. -/
def CutAsMessages (p : Props) (ms reads : List Bytes) : Prop :=
  ∀ r ms' reads', Messages ms' → Reads (frames ms') reads' →
    ms'.map List.length = ms.map List.length → reads'.map List.length = reads.map List.length →
      SameActions p r ms' reads'

/-- The length of the shortest word that the thread looks for. -/
def WORD : Nat := AGDSP_ASSERT.length

/-- From the lengths of the messages and of the reads: there are as many reads as messages, and
    a message with room for a word is taken whole and alone by the read of its own number. -/
def OwnReads (lens cuts : List Nat) : Prop :=
  cuts.length = lens.length ∧ ∀ i n, lens[i]? = some n → WORD ≤ n →
    cuts[i]? = some (n + 1) ∧ (cuts.take i).sum = ((lens.take i).map (· + 1)).sum

/-- There is a NUL in the buffer behind the read. -/
def Ended (data : Bytes) : Prop := data.length < BUFFER_SIZE ∨ 0 ∈ data

instance (data : Bytes) : Decidable (Ended data) := by unfold Ended; infer_instance

theorem terminated_iff {data : Bytes} (sized : data.length ≤ BUFFER_SIZE) :
    Terminated (controlinfo data) 0 ↔ Ended data := by
  have zeros : BUFFER_SIZE - data.length ≠ 0 ↔ data.length < BUFFER_SIZE := by omega
  simp [Terminated, controlinfo, Ended, zeros, or_comm]

theorem readClient_isSome_iff (p : Props) (r : Reader) {data : Bytes}
    (sized : data.length ≤ BUFFER_SIZE) : (readClient p r data).isSome ↔ Ended data := by
  rw [← terminated_iff sized, readClient, Option.isSome_map]
  by_cases terminated : Terminated (controlinfo data) 0
  · simp [terminated, textAt_terminated terminated]
  · simp [terminated, textAt_unterminated terminated]

theorem readAll_isSome_iff (p : Props) (r : Reader) {reads : List Bytes}
    (sized : ∀ data ∈ reads, data.length ≤ BUFFER_SIZE) :
    (readAll p r reads).isSome ↔ ∀ data ∈ reads, Ended data := by
  induction reads generalizing r with
  | nil => simp [readAll]
  | cons data rest ih =>
      rw [List.forall_mem_cons] at sized ⊢
      rw [← readClient_isSome_iff p r sized.1, readAll]
      cases readClient p r data with
      | none => simp
      | some first =>
          rw [← ih first.1 sized.2]
          cases more : readAll p first.1 rest <;> simp [more]

theorem messageText_eq (data : Bytes) : messageText data = cstr data := by
  rw [messageText, controlinfo]
  by_cases ended : 0 ∈ data
  · exact cstr_append_of_mem ended _
  · have all : cstr data = data := takeWhile_all ended
    rw [all, cstr, List.takeWhile_append_of_pos]
    · simp
    · intro c member
      simpa using ne_of_mem_of_not_mem member ended

/-- The text of a read is too short for a word that the thread looks for. -/
def Mute (data : Bytes) : Prop := (messageText data).length < WORD

theorem cstr_clean (data : Bytes) : 0 ∉ cstr data := text_clean data 0

theorem strstr_short {text word : Bytes} (short : text.length < word.length) :
    strstr text word = false := by
  rw [Bool.eq_false_iff]
  intro found
  have fits := (strstr_iff.mp found).length_le
  omega

/-- Such a read leaves the dump state as it is, and releases a reset that waits for a dump
    when this was left complete, whatever it is. -/
theorem readThreadMessage_mute {data : Bytes} (mute : Mute data) (p : Props) (r : Reader) :
    readThreadMessage p r data =
      if r.state = .complete then
        ({ r with laterReset := false }, .signalDumpCond ::
          if r.laterReset then [.writeCtrl .modemCtrlReadThread .modemReset] else [])
      else (r, []) := by
  have silent (word : Bytes) (long : WORD ≤ word.length) : strstr (messageText data) word = false :=
    strstr_short (Nat.lt_of_lt_of_le mute long)
  simp [readThreadMessage, dumpState, silent DUMP_BEGIN_TEXT (by decide),
    silent DUMP_ONGOING_TEXT (by decide), silent DUMP_COMPLETE_TEXT (by decide),
    silent MODEM_BLOCK (by decide), silent AGDSP_ASSERT (by decide)]

/-- Two reads that are the same to the thread. -/
def Alike (x y : Bytes) : Prop := x = y ∨ Mute x ∧ Mute y

theorem readClient_alike (p : Props) (r : Reader) {x y : Bytes} (alike : Alike x y)
    (sized : x.length ≤ BUFFER_SIZE ∧ y.length ≤ BUFFER_SIZE) (ended : Ended x ∧ Ended y) :
    readClient p r x = readClient p r y := by
  rcases alike with rfl | ⟨mute, mute'⟩
  · rfl
  · have terminated := (terminated_iff sized.1).mpr ended.1
    have terminated' := (terminated_iff sized.2).mpr ended.2
    rw [readClient, readClient, textAt_terminated terminated, textAt_terminated terminated',
      readThreadMessage_mute mute, readThreadMessage_mute mute']
    rfl

theorem readAll_alike (p : Props) {xs ys : List Bytes} (alike : List.Forall₂ Alike xs ys)
    (fine : ∀ data ∈ xs ++ ys, data.length ≤ BUFFER_SIZE ∧ Ended data) (r : Reader) :
    readAll p r xs = readAll p r ys := by
  induction alike generalizing r with
  | nil => rfl
  | @cons x y xs ys first _ ih =>
      have one := fine x (by simp)
      have other := fine y (by simp)
      have rest (r : Reader) := ih (fun data member => fine data (by
        rcases List.mem_append.mp member with left | right
        · simp [left]
        · simp [right])) r
      rw [readAll, readAll, readClient_alike p r first ⟨one.1, other.1⟩ ⟨one.2, other.2⟩]
      simp only [rest]

section

variable {ms reads : List Bytes}

/-- A read, and what was read before and behind it. -/
theorem flatten_at {i : Nat} {data : Bytes} (here : reads[i]? = some data) :
    reads.flatten = (reads.take i).flatten ++ data ++ (reads.drop (i + 1)).flatten := by
  obtain ⟨inside, rfl⟩ := List.getElem?_eq_some_iff.mp here
  conv_lhs => rw [← List.take_append_drop i reads]
  rw [List.flatten_append, List.drop_eq_getElem_cons inside, List.flatten_cons, List.append_assoc]

theorem frames_at {i : Nat} {m : Bytes} (here : ms[i]? = some m) :
    frames ms = frames (ms.take i) ++ frame m ++ frames (ms.drop (i + 1)) := by
  have listed : (ms.map frame)[i]? = some (frame m) := by rw [List.getElem?_map, here]; rfl
  simpa [frames, List.flatMap_def, List.map_take, List.map_drop] using flatten_at listed

theorem sum_lengths (i : Nat) :
    ((reads.map List.length).take i).sum = (reads.take i).flatten.length := by
  rw [List.length_flatten, List.map_take]

theorem taken_before {i j : Nat} {data : Bytes} (read : reads[i]? = some data) (earlier : i < j) :
    (reads.take i).flatten.length + data.length ≤ (reads.take j).flatten.length := by
  obtain ⟨k, rfl⟩ := Nat.exists_eq_add_of_lt earlier
  have taken : reads.take (i + 1 + k) = reads.take i ++ [data] ++ (reads.drop (i + 1)).take k := by
    rw [List.take_add, List.take_add_one, read]
    rfl
  rw [Nat.add_right_comm, taken, List.flatten_append, List.flatten_append, List.length_append,
    List.length_append]
  simp

theorem sum_frames (i : Nat) :
    (((ms.map List.length).take i).map (· + 1)).sum = (frames (ms.take i)).length := by
  rw [length_frames, List.map_take, List.map_take, List.map_take]

/-- Where its read starts and ends decides what a message is read as. -/
theorem read_frame (whole : reads.flatten = frames ms) {i : Nat} {m data : Bytes}
    (message : ms[i]? = some m) (read : reads[i]? = some data)
    (front : (reads.take i).flatten.length = (frames (ms.take i)).length)
    (long : data.length = m.length + 1) : data = frame m := by
  rw [flatten_at read, frames_at message, List.append_assoc, List.append_assoc] at whole
  have rest := (List.append_inj whole front).2
  exact (List.append_inj rest (by simp [frame, long])).1

/-- What is read by the number of a short message is too short for a word: a word lies in one
    message, and this has a read of its own. -/
theorem read_mute (whole : reads.flatten = frames ms)
    (own : OwnReads (ms.map List.length) (reads.map List.length)) {i : Nat} {m data : Bytes}
    (message : ms[i]? = some m) (read : reads[i]? = some data) (short : m.length < WORD) :
    Mute data := by
  rw [Mute, messageText_eq]
  by_contra long
  have some : cstr data ≠ [] := by
    intro empty
    rw [empty] at long
    exact long (by decide)
  obtain ⟨behind, split⟩ := List.takeWhile_prefix (l := data) (· != 0)
  have stream : frames ms =
      (reads.take i).flatten ++ cstr data ++ (behind ++ (reads.drop (i + 1)).flatten) := by
    rw [← whole, flatten_at read, List.append_assoc, List.append_assoc, ← List.append_assoc (cstr data),
      cstr, split]
  obtain ⟨before, m', after, listed, low, high⟩ := inside_one_frame stream (cstr_clean data) some
  have message' : ms[before.length]? = Option.some m' := by simp [listed]
  obtain ⟨alone, start⟩ := own.2 before.length m'.length (by simp [message']) (by omega)
  rw [sum_lengths, sum_frames] at start
  have taken : frames (ms.take before.length) = frames before := by simp [listed]
  rw [taken] at start
  rw [List.getElem?_map] at alone
  obtain ⟨data', read', length'⟩ := Option.map_eq_some_iff.mp alone
  have text : (cstr data).length ≤ data.length := (List.takeWhile_prefix _).length_le
  rcases Nat.lt_trichotomy i before.length with earlier | same | later
  · have passed := taken_before read earlier
    omega
  · rw [same, message'] at message
    obtain rfl := Option.some.inj message
    omega
  · have passed := taken_before read' later
    omega

theorem alike_of_own (messages : Messages ms) (whole : reads.flatten = frames ms)
    (own : OwnReads (ms.map List.length) (reads.map List.length)) :
    List.Forall₂ Alike reads (ms.map frame) := by
  apply List.forall₂_of_length_eq_of_get
  · simpa using own.1
  · intro i inside inside'
    rw [List.length_map] at inside'
    have read : reads[i]? = some reads[i] := List.getElem?_eq_getElem inside
    have message : ms[i]? = some ms[i] := List.getElem?_eq_getElem inside'
    simp only [List.get_eq_getElem, List.getElem_map]
    by_cases long : WORD ≤ ms[i].length
    · obtain ⟨alone, start⟩ := own.2 i ms[i].length (by simp [message]) long
      rw [List.getElem?_map, read] at alone
      rw [sum_lengths, sum_frames] at start
      exact Or.inl (read_frame whole message read start (Option.some.inj alone))
    · refine Or.inr ⟨read_mute whole own message read (Nat.lt_of_not_le long), ?_⟩
      have clean := (messages ms[i] (List.getElem_mem inside')).1
      rw [Mute, messageText_eq, frame, cstr_append clean]
      exact Nat.lt_of_not_le long

/-- Of messages with their NULs no read fills the buffer without one. -/
theorem ended_of_messages (messages : Messages ms) (whole : reads.flatten = frames ms) :
    ∀ data ∈ reads, Ended data := by
  intro data member
  by_contra full
  rw [Ended, not_or, Nat.not_lt] at full
  obtain ⟨front, back, rfl⟩ := List.append_of_mem member
  have some : data ≠ [] := by
    rintro rfl
    exact absurd full.1 (by decide)
  have stream : frames ms = front.flatten ++ data ++ back.flatten := by simp [← whole]
  obtain ⟨before, m, after, rfl, low, high⟩ := inside_one_frame stream full.2 some
  have short := (messages m (by simp)).2
  omega

theorem frame_read (messages : Messages ms) :
    ∀ data ∈ ms.map frame, data.length ≤ BUFFER_SIZE ∧ Ended data := by
  intro data member
  obtain ⟨m, listed, rfl⟩ := List.mem_map.mp member
  have fits := (messages m listed).2
  simp [frame, Ended]
  omega

/-- Reads of their own for the messages with room for a word are enough. -/
theorem sameActions_of_own (p : Props) (r : Reader) (messages : Messages ms)
    (taken : Reads (frames ms) reads)
    (own : OwnReads (ms.map List.length) (reads.map List.length)) : SameActions p r ms reads := by
  have sized : ∀ data ∈ reads, data.length ≤ BUFFER_SIZE :=
    fun data member => (taken.sized data member).2
  have ended := ended_of_messages messages taken.whole
  have fine : ∀ data ∈ reads ++ ms.map frame, data.length ≤ BUFFER_SIZE ∧ Ended data := by
    rw [List.forall_mem_append]
    exact ⟨fun data member => ⟨sized data member, ended data member⟩, frame_read messages⟩
  have same := readAll_alike p (alike_of_own messages taken.whole own) fine r
  obtain ⟨⟨r', done⟩, read⟩ := Option.isSome_iff_exists.mp ((readAll_isSome_iff p r sized).mpr ended)
  exact ⟨r', r', done, read, same ▸ read⟩

end

/-- A text of this length that says nothing. -/
def filler (n : Nat) : Bytes := List.replicate n 120

/-- One with a word for the other clients at its front. -/
def relayed (n : Nat) : Bytes := AGDSP_ASSERT ++ filler (n - WORD)

/-- The byte that is in the words for a dump and for a block, and not in these texts. -/
def Plain (data : Bytes) : Prop := 77 ∉ data

theorem strstr_plain {data word : Bytes} (plain : Plain data) (there : 77 ∈ word) :
    strstr (messageText data) word = false := by
  rw [Bool.eq_false_iff, messageText_eq]
  intro found
  exact plain ((List.takeWhile_prefix _).subset ((strstr_iff.mp found).subset there))

/-- The events by which such reads are known. -/
def isTold : Event → Bool
  | .act (.toClients _) => true
  | .act .signalDumpCond => true
  | _ => false

/-- With a dump left complete there is one for each of them. -/
def told (data : Bytes) : Event :=
  if strstr (messageText data) AGDSP_ASSERT then .act (.toClients data) else .act .signalDumpCond

theorem processMessage_untold (p : Props) (s : Shared) (buf : Bytes) :
    ∀ a ∈ (modemCtrlProcessMessage p s buf).2, isTold (.act a) = false := by
  unfold modemCtrlProcessMessage
  dsimp only
  split_ifs <;> simp [isTold]

theorem readThreadMessage_plain (p : Props) {r : Reader} {data : Bytes} (plain : Plain data)
    (state : r.state = .complete) :
    (readThreadMessage p r data).1.state = .complete ∧
      ((readThreadMessage p r data).2.map Event.act).filter isTold = [told data] := by
  have silent (word : Bytes) (there : 77 ∈ word) := strstr_plain plain there
  have kept : dumpState r.state (messageText data) = .complete := by
    simp [dumpState, state, silent DUMP_BEGIN_TEXT (by decide), silent DUMP_ONGOING_TEXT (by decide),
      silent DUMP_COMPLETE_TEXT (by decide)]
  simp only [readThreadMessage, kept, silent MODEM_BLOCK (by decide), told]
  by_cases relays : strstr (messageText data) AGDSP_ASSERT = true
  · have quiet : ((modemCtrlProcessMessage p r.shared data).2.map Event.act).filter isTold = [] := by
      rw [List.filter_eq_nil_iff]
      intro e member
      obtain ⟨a, act, rfl⟩ := List.mem_map.mp member
      simp [processMessage_untold p r.shared data a act]
    simp [relays, modemWriteDataToClients, quiet, isTold]
  · cases r.laterReset <;> simp [relays] <;> rfl

theorem readClient_plain {p : Props} {r r' : Reader} {data : Bytes} {done : List Event}
    (plain : Plain data) (state : r.state = .complete)
    (read : readClient p r data = some (r', done)) :
    r'.state = .complete ∧ done.filter isTold = [told data] := by
  obtain ⟨kept, tells⟩ := readThreadMessage_plain p plain state
  obtain ⟨_, _, same⟩ := Option.map_eq_some_iff.mp read
  obtain ⟨rfl, rfl⟩ : (readThreadMessage p r data).1 = r' ∧
    events r (readThreadMessage p r data).1 (readThreadMessage p r data).2 = done := Prod.mk.inj same
  refine ⟨kept, ?_⟩
  rw [events, kept, state, if_pos rfl, List.nil_append, tells]

theorem readAll_plain {p : Props} {r r' : Reader} {reads : List Bytes} {done : List Event}
    (plain : ∀ data ∈ reads, Plain data) (state : r.state = .complete)
    (read : readAll p r reads = some (r', done)) : done.filter isTold = reads.map told := by
  induction reads generalizing r done with
  | nil =>
      obtain ⟨_, rfl⟩ := Prod.mk.inj (Option.some.inj read)
      rfl
  | cons data rest ih =>
      rw [List.forall_mem_cons] at plain
      rw [readAll] at read
      obtain ⟨⟨r₁, first⟩, one, read⟩ := Option.bind_eq_some_iff.mp read
      obtain ⟨⟨r₂, more⟩, later, read⟩ := Option.bind_eq_some_iff.mp read
      obtain ⟨rfl, rfl⟩ := Prod.mk.inj (Option.some.inj read)
      obtain ⟨kept, here⟩ := readClient_plain plain.1 state one
      rw [List.filter_append, here, ih plain.2 kept later]
      rfl

/-- Other messages of the same lengths, read with the same cuts. -/
theorem recut {ms ms' reads : List Bytes} (taken : Reads (frames ms) reads)
    (same : ms'.map List.length = ms.map List.length) :
    ∃ reads', Reads (frames ms') reads' ∧ reads'.map List.length = reads.map List.length := by
  have total : (frames ms').length = (reads.map List.length).sum := by
    rw [← List.length_flatten, taken.whole, length_frames, length_frames, same]
  have lengths : ((reads.map List.length).splitLengths (frames ms')).map List.length =
      reads.map List.length := List.map_splitLengths_length _ _ total.ge
  refine ⟨_, ⟨List.flatten_splitLengths _ _ total.le, ?_⟩, lengths⟩
  intro data member
  have listed := List.mem_map_of_mem (f := List.length) member
  rw [lengths] at listed
  obtain ⟨data', member', length'⟩ := List.mem_map.mp listed
  have sized := taken.sized data' member'
  rw [length'] at sized
  refine ⟨?_, sized.2⟩
  rintro rfl
  exact sized.1 (List.length_eq_zero_iff.mp length')

theorem frames_plain {ms : List Bytes} (plain : ∀ m ∈ ms, Plain m) : Plain (frames ms) := by
  intro member
  obtain ⟨m, listed, here⟩ := List.mem_flatMap.mp member
  rcases List.mem_append.mp here with inside | last
  · exact plain m listed inside
  · exact absurd last (by decide)

/-- Plain messages that are handled alike tell the same read by read. -/
theorem told_eq {p : Props} {ms reads : List Bytes} (plain : ∀ m ∈ ms, Plain m)
    (whole : reads.flatten = frames ms)
    (same : SameActions p { state := .complete } ms reads) :
    reads.map told = (ms.map frame).map told := by
  obtain ⟨_, _, done, split, one⟩ := same
  have quiet : Plain reads.flatten := by
    rw [whole]
    exact frames_plain plain
  rw [← readAll_plain ?_ rfl split, ← readAll_plain ?_ rfl one]
  · intro data member inside
    exact frames_plain plain (List.mem_flatten_of_mem member inside)
  · intro data member inside
    exact quiet (List.mem_flatten_of_mem member inside)

theorem filler_message {n : Nat} (short : n < BUFFER_SIZE) :
    (0 ∉ filler n ∧ (filler n).length < BUFFER_SIZE) ∧ Plain (filler n) := by
  simp [filler, Plain, short]

theorem length_relayed {n : Nat} (long : WORD ≤ n) : (relayed n).length = n := by
  have word : AGDSP_ASSERT.length = WORD := rfl
  simp [relayed, filler, word]
  omega

theorem relayed_message {n : Nat} (long : WORD ≤ n) (short : n < BUFFER_SIZE) :
    (0 ∉ relayed n ∧ (relayed n).length < BUFFER_SIZE) ∧ Plain (relayed n) := by
  have word : 0 ∉ AGDSP_ASSERT ∧ 77 ∉ AGDSP_ASSERT := by decide
  refine ⟨⟨?_, ?_⟩, ?_⟩
  · simp [relayed, filler, word]
  · rw [length_relayed long]
    exact short
  · simp [relayed, filler, Plain, word]

/-- Only a read of the whole message relays it. -/
theorem told_relayed {n : Nat} {data : Bytes} (same : told data = told (frame (relayed n))) :
    data = frame (relayed n) := by
  have clean : 0 ∉ relayed n := by
    have word : 0 ∉ AGDSP_ASSERT := by decide
    simp [relayed, filler, word]
  have found : strstr (messageText (frame (relayed n))) AGDSP_ASSERT = true := by
    rw [messageText_eq, frame, cstr_append clean, strstr_iff]
    exact (List.prefix_append _ _).isInfix
  rw [told, told, if_pos found] at same
  split at same
  · exact Act.toClients.inj (Event.act.inj same)
  · cases same

/-- In these streams the byte behind the first of the word tells where the word is. -/
theorem relayed_at {n : Nat} {a b a' b' : Bytes} (quiet : 71 ∉ a') (quiet' : 71 ∉ b')
    (same : a ++ frame (relayed n) ++ b = a' ++ frame (relayed n) ++ b') :
    a.length = a'.length := by
  obtain ⟨tail, word, once⟩ : ∃ tail, frame (relayed n) = 65 :: 71 :: tail ∧ 71 ∉ tail :=
    ⟨_, rfl, by simp [filler]; decide⟩
  rw [word] at same
  have counts := congrArg (List.count 71) same
  simp [List.count_append, List.count_eq_zero_of_not_mem, quiet, quiet', once] at counts
  have quiet'' : 71 ∉ a := List.count_eq_zero.mp (by omega)
  have places := congrArg (List.idxOf 71) same
  simpa [List.append_assoc, List.idxOf_append, quiet, quiet'', List.idxOf_cons] using places

/-- Messages of the same lengths that say nothing. -/
def fill (ms : List Bytes) : List Bytes := ms.map fun m => filler m.length

theorem fill_lengths (ms : List Bytes) : (fill ms).map List.length = ms.map List.length := by
  simp [fill, filler, Function.comp_def]

theorem fill_fine {ms : List Bytes} (messages : Messages ms) :
    ∀ m ∈ fill ms, (0 ∉ m ∧ m.length < BUFFER_SIZE) ∧ Plain m := by
  intro m' member
  obtain ⟨m, listed, rfl⟩ := List.mem_map.mp member
  exact filler_message (messages m listed).2

theorem fill_quiet (ms : List Bytes) : 71 ∉ frames (fill ms) := by
  intro member
  obtain ⟨m', listed, here⟩ := List.mem_flatMap.mp member
  obtain ⟨m, _, rfl⟩ := List.mem_map.mp listed
  simp [frame, filler] at here

section

variable {p : Props} {ms reads : List Bytes} (taken : Reads (frames ms) reads)
  (cut : CutAsMessages p ms reads)

include taken cut

/-- Plain messages of these lengths, with the reads that take them. -/
theorem exists_toldReads {ms' : List Bytes} (lengths : ms'.map List.length = ms.map List.length)
    (fine : ∀ m ∈ ms', (0 ∉ m ∧ m.length < BUFFER_SIZE) ∧ Plain m) :
    ∃ reads', Reads (frames ms') reads' ∧ reads'.map List.length = reads.map List.length ∧
      reads'.map told = (ms'.map frame).map told := by
  obtain ⟨reads', taken', cuts⟩ := recut taken lengths
  have messages' : Messages ms' := fun m member => (fine m member).1
  have plain : ∀ m ∈ ms', Plain m := fun m member => (fine m member).2
  exact ⟨reads', taken', cuts,
    told_eq plain taken'.whole (cut _ _ _ messages' taken' lengths cuts)⟩

/-- With a dump left complete every read tells, so there are as many as messages. -/
theorem count_of_cut (messages : Messages ms) : reads.length = ms.length := by
  obtain ⟨reads', _, cuts, tells⟩ := exists_toldReads taken cut (fill_lengths ms) (fill_fine messages)
  have count := congrArg List.length tells
  simp only [List.length_map, fill] at count
  rw [← count]
  simpa using (congrArg List.length cuts).symm

/-- One of the messages may have a word for the other clients, and the others say nothing. -/
theorem own_of_cut {before after : List Bytes} {m : Bytes} (listed : ms = before ++ m :: after)
    (messages : Messages ms) (long : WORD ≤ m.length) :
    (reads.map List.length)[before.length]? = some (m.length + 1) ∧
      ((reads.map List.length).take before.length).sum = (frames before).length := by
  subst listed
  have front : Messages before := fun m member => messages m (by simp [member])
  have back : Messages after := fun m member => messages m (by simp [member])
  have lengths : (fill before ++ relayed m.length :: fill after).map List.length =
      (before ++ m :: after).map List.length := by
    rw [List.map_append, List.map_cons, fill_lengths, fill_lengths, length_relayed long,
      List.map_append, List.map_cons]
  have fine : ∀ n ∈ fill before ++ relayed m.length :: fill after,
      (0 ∉ n ∧ n.length < BUFFER_SIZE) ∧ Plain n := by
    rw [List.forall_mem_append, List.forall_mem_cons]
    exact ⟨fill_fine front, relayed_message long (messages m (by simp)).2, fill_fine back⟩
  obtain ⟨reads', taken', cuts, tells⟩ := exists_toldReads taken cut lengths fine
  have place : (fill before ++ relayed m.length :: fill after)[before.length]? =
      some (relayed m.length) := by
    simp [fill]
  have tell := congrArg (·[before.length]?) tells
  simp only [List.getElem?_map, place, Option.map_some] at tell
  obtain ⟨data, read, whole⟩ := Option.map_eq_some_iff.mp tell
  obtain rfl := told_relayed whole
  have stream := flatten_at read
  have three : frames (fill before ++ relayed m.length :: fill after) =
      frames (fill before) ++ frame (relayed m.length) ++ frames (fill after) := by
    rw [frames_append, frames_cons, frame, List.append_assoc, List.append_assoc,
      List.singleton_append]
  rw [taken'.whole, three] at stream
  have same := relayed_at (fill_quiet before) (fill_quiet after) stream.symm
  rw [← cuts, sum_lengths, same, length_frames, length_frames, fill_lengths]
  exact ⟨by simp [read, frame, length_relayed long], rfl⟩

/-- A read of its own is needed for every message with room for a word. -/
theorem ownReads_of_cut (messages : Messages ms) :
    OwnReads (ms.map List.length) (reads.map List.length) := by
  constructor
  · rw [List.length_map, List.length_map]
    exact count_of_cut taken cut messages
  · intro i n here long
    rw [List.getElem?_map] at here
    obtain ⟨m, message, rfl⟩ := Option.map_eq_some_iff.mp here
    obtain ⟨inside, rfl⟩ := List.getElem?_eq_some_iff.mp message
    have listed : ms = ms.take i ++ ms[i] :: ms.drop (i + 1) := by
      rw [List.getElem_cons_drop inside, List.take_append_drop]
    have own := own_of_cut taken cut listed messages long
    rw [List.length_take, Nat.min_eq_left (Nat.le_of_lt inside), ← sum_frames] at own
    exact own

end

/-- Messages that are cut into reads of their lengths are handled like messages read one by one,
    whatever they say, exactly when every message that has room for a word has a read of its
    own; and no bytes lead beyond the buffer exactly when no read fills it without a NUL. -/
theorem reads_as_messages_iff (p : Props) :
    (∀ ms reads, Messages ms → Reads (frames ms) reads →
      (CutAsMessages p ms reads ↔ OwnReads (ms.map List.length) (reads.map List.length))) ∧
    ∀ r stream reads, Reads stream reads →
      ((readAll p r reads).isSome ↔ ∀ data ∈ reads, Ended data) := by
  constructor
  · intro ms reads messages taken
    constructor
    · intro cut
      exact ownReads_of_cut taken cut messages
    · intro own r ms' reads' messages' taken' lengths cuts
      rw [← lengths, ← cuts] at own
      exact sameActions_of_own p r messages' taken' own
  · intro r stream reads taken
    exact readAll_isSome_iff p r fun data member => (taken.sized data member).2

/-- The end of a dump and a block of the modem. -/
def dumpThenBlock : List Bytes := [DUMP_COMPLETE_TEXT, MODEM_BLOCK]

theorem block_lost_behind_dump :
    ¬ ∀ p r ms reads, Messages ms → Reads (frames ms) reads → SameActions p r ms reads := by
  intro always
  have messages : ∀ m ∈ dumpThenBlock, 0 ∉ m ∧ m.length < BUFFER_SIZE := by decide
  have taken : Reads (frames dumpThenBlock) [frames dumpThenBlock] := ⟨by decide, by decide⟩
  obtain ⟨r₁, r₂, done, split, one⟩ :=
    always {} {} dumpThenBlock [frames dumpThenBlock] messages taken
  have differ : (readAll {} {} [frames dumpThenBlock]).map Prod.snd ≠
      (readAll {} {} (dumpThenBlock.map frame)).map Prod.snd := by decide
  rw [split, one] at differ
  exact differ rfl

end ModemControl.ClientReads
