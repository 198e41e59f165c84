import Mathlib.Data.List.TakeWhile
import Mathlib.Data.List.Infix
import Mathlib.Algebra.Ring.Nat

/-! # NUL-terminated strings in byte buffers -/

namespace Foundation

abbrev Bytes := List UInt8

/-- The bytes of a literal, without the terminating NUL. -/
def bytes (literal : String) : Bytes :=
  literal.toList.map fun c => c.toNat.toUInt8

/-- What the string functions of C see at the start of a buffer. -/
def cstr (buf : Bytes) : Bytes :=
  buf.takeWhile (· != 0)

/-- `strstr(text, needle) != NULL`, both given without their NUL. -/
def strstr : Bytes → Bytes → Bool
  | [], needle => needle.isEmpty
  | c :: text, needle => needle.isPrefixOf (c :: text) || strstr text needle

/-- The text from the first occurrence on, as `strstr` points to it. -/
def findStr : Bytes → Bytes → Option Bytes
  | [], needle => if needle.isEmpty then some [] else none
  | c :: text, needle =>
      if needle.isPrefixOf (c :: text) then some (c :: text) else findStr text needle

/-- `isspace` in the C locale. -/
def isSpace (c : UInt8) : Bool := c == 32 || (9 ≤ c && c ≤ 13)

def isDigit (c : UInt8) : Bool := 48 ≤ c && c ≤ 57

/-- The value of the leading decimal digits, added to what is read so far. -/
def digitsValue : Bytes → Nat → Nat
  | [], value => value
  | c :: rest, value =>
      if isDigit c then digitsValue rest (10 * value + (c.toNat - 48)) else value

/-- The number that a text begins with. -/
def decimal (text : Bytes) : Int :=
  match text.dropWhile isSpace with
  | 45 :: digits => -(digitsValue digits 0)
  | 43 :: digits => digitsValue digits 0
  | digits => digitsValue digits 0

/-- `atoi`: what `strtol` makes of the text, which stays within a long, cut to an int. -/
def atoi (text : Bytes) : Int :=
  (BitVec.ofInt 32 (max (-0x8000000000000000) (min (decimal text) 0x7FFFFFFFFFFFFFFF))).toInt

/-- What is before a byte, when there is none of it in between. -/
theorem takeWhile_until {c : UInt8} {value : Bytes} (plain : c ∉ value) (rest : Bytes) :
    (value ++ c :: rest).takeWhile (· != c) = value := by
  have all : ∀ x ∈ value, (x != c) = true := by
    intro x member
    simpa using ne_of_mem_of_not_mem member plain
  rw [List.takeWhile_append_of_pos all]
  simp

theorem takeWhile_all {c : UInt8} {value : Bytes} (plain : c ∉ value) :
    value.takeWhile (· != c) = value := by
  rw [List.takeWhile_eq_self_iff]
  intro x member
  simpa using ne_of_mem_of_not_mem member plain

theorem cstr_append {m : Bytes} (clean : 0 ∉ m) (rest : Bytes) : cstr (m ++ 0 :: rest) = m :=
  takeWhile_until clean rest

@[simp] theorem cstr_nil : cstr [] = [] := rfl

@[simp] theorem cstr_zero (rest : Bytes) : cstr (0 :: rest) = [] := rfl

theorem cstr_cons {c : UInt8} (nonzero : c ≠ 0) (rest : Bytes) : cstr (c :: rest) = c :: cstr rest := by
  simp [cstr, nonzero]

/-- The text in a buffer, and what is behind its NUL. -/
theorem eq_cstr_append {buf : Bytes} (ended : 0 ∈ buf) :
    buf = cstr buf ++ 0 :: buf.drop ((cstr buf).length + 1) := by
  obtain ⟨text, rest, rfl, clean⟩ := List.eq_append_cons_of_mem ended
  simp [cstr_append clean]

theorem cstr_append_of_mem {text : Bytes} (ended : 0 ∈ text) (rest : Bytes) :
    cstr (text ++ rest) = cstr text := by
  obtain ⟨front, behind, rfl, clean⟩ := List.eq_append_cons_of_mem ended
  rw [List.append_assoc, List.cons_append, cstr_append clean, cstr_append clean]

/-- One string as `write(fd, text, strlen(text) + 1)` sends it. -/
def frame (m : Bytes) : Bytes := m ++ [0]

/-- The strings of a list, one after the other in a byte stream. -/
def frames (ms : List Bytes) : Bytes := ms.flatMap frame

@[simp] theorem frames_nil : frames [] = [] := rfl

@[simp] theorem frames_cons (m : Bytes) (ms : List Bytes) :
    frames (m :: ms) = m ++ 0 :: frames ms := by
  simp [frames, frame]

theorem frames_append (ms ns : List Bytes) : frames (ms ++ ns) = frames ms ++ frames ns := by
  simp only [frames, List.flatMap_append]

theorem frames_eq_nil {ms : List Bytes} : frames ms = [] ↔ ms = [] := by
  cases ms <;> simp

theorem length_frames (ms : List Bytes) :
    (frames ms).length = ((ms.map List.length).map (· + 1)).sum := by
  simp [frames, frame, List.length_flatMap, Function.comp_def]

/-- Bytes without a NUL that follow each other in a stream come from one string of it. -/
theorem inside_one_frame {ms : List Bytes} {front word back : Bytes}
    (stream : frames ms = front ++ word ++ back) (clean : 0 ∉ word) (some : word ≠ []) :
    ∃ before m after, ms = before ++ m :: after ∧ (frames before).length ≤ front.length ∧
      front.length + word.length ≤ (frames before).length + m.length := by
  induction ms generalizing front with
  | nil => simp_all
  | cons m rest ih =>
      rw [frames_cons, List.append_assoc, List.append_eq_append_iff] at stream
      rcases stream with ⟨later, rfl, tail⟩ | ⟨inner, rfl, tail⟩
      · cases later with
        | nil =>
            -- The word would start with the NUL behind this string.
            cases word with
            | nil => exact absurd rfl some
            | cons c word =>
                obtain ⟨rfl, -⟩ := List.cons.inj tail
                simp at clean
        | cons c later =>
            rw [List.cons_append, List.cons.injEq, ← List.append_assoc] at tail
            obtain ⟨before, n, after, rfl, low, high⟩ := ih tail.2
            refine ⟨m :: before, n, after, rfl, ?_, ?_⟩ <;>
              simp only [frames_cons, List.length_append, List.length_cons] <;> omega
      · refine ⟨[], _, rest, rfl, by simp, ?_⟩
        rw [List.append_eq_append_iff] at tail
        rcases tail with ⟨more, rfl, -⟩ | ⟨more, rfl, tail⟩
        · simp
        · cases more with
          | nil => simp
          | cons c more =>
              obtain ⟨rfl, -⟩ := List.cons.inj tail
              simp at clean

theorem cstr_frames {m : Bytes} (clean : 0 ∉ m) (ms : List Bytes) :
    cstr (frames (m :: ms)) = m := by
  rw [frames_cons, cstr_append clean]

end Foundation
