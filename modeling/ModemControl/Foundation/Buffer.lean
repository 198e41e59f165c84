import Mathlib.Data.List.Infix
import ModemControl.Foundation.CString

/-! # Reads inside a buffer

Every read is given with the value it has inside the buffer, and as an `Option` that is
nothing when it goes beyond the end. Numbers are little-endian.
-/

namespace Foundation

def leValue : Bytes → Nat
  | [] => 0
  | b :: rest => b.toNat + 256 * leValue rest

def u32 (buf : Bytes) (i : Nat) : BitVec 32 := BitVec.ofNat 32 (leValue ((buf.drop i).take 4))

def u64 (buf : Bytes) (i : Nat) : BitVec 64 := BitVec.ofNat 64 (leValue ((buf.drop i).take 8))

/-- The text from an address on, up to its NUL. -/
def text (buf : Bytes) (i : Nat) : Bytes := cstr (buf.drop i)

/-- There is a NUL at this address or behind it. -/
def Terminated (buf : Bytes) (i : Nat) : Prop := 0 ∈ buf.drop i

/-- The text at an address is this one. -/
def isText (buf : Bytes) (i : Nat) (literal : Bytes) : Bool :=
  (literal ++ [0]).isPrefixOf (buf.drop i)

instance (buf : Bytes) (i : Nat) : Decidable (Terminated buf i) :=
  inferInstanceAs (Decidable (0 ∈ buf.drop i))

def slice (buf : Bytes) (i n : Nat) : Option Bytes :=
  if i + n ≤ buf.length then some ((buf.drop i).take n) else none

def u32At (buf : Bytes) (i : Nat) : Option (BitVec 32) :=
  (slice buf i 4).map fun data => BitVec.ofNat 32 (leValue data)

def u64At (buf : Bytes) (i : Nat) : Option (BitVec 64) :=
  (slice buf i 8).map fun data => BitVec.ofNat 64 (leValue data)

/-- What `strlen` and `%s` read: bytes up to a NUL. -/
def textAt : Bytes → Nat → Option Bytes
  | [], _ => none
  | b :: rest, 0 => if b = 0 then some [] else (textAt rest 0).map (b :: ·)
  | _ :: rest, i + 1 => textAt rest i

/-- `strcmp` with a literal, as a test for equality: it reads up to the first difference. -/
def strcmpAt (buf : Bytes) : Nat → Bytes → Option Bool
  | i, [] => buf[i]?.map (· == 0)
  | i, c :: rest =>
      match buf[i]? with
      | none => none
      | some b => if b == c then strcmpAt buf (i + 1) rest else some false

theorem slice_inside {buf : Bytes} {i n : Nat} (inside : i + n ≤ buf.length) :
    slice buf i n = some ((buf.drop i).take n) :=
  if_pos inside

theorem slice_outside {buf : Bytes} {i n : Nat} (outside : buf.length < i + n) :
    slice buf i n = none :=
  if_neg (Nat.not_le_of_lt outside)

theorem slice_length {buf data : Bytes} {i n : Nat} (read : slice buf i n = some data) :
    data.length = n := by
  obtain ⟨inside, cut⟩ := Option.ite_none_right_eq_some.mp read
  obtain rfl := Option.some.inj cut
  simp only [List.length_take, List.length_drop]
  omega

theorem u32At_inside {buf : Bytes} {i : Nat} (inside : i + 4 ≤ buf.length) :
    u32At buf i = some (u32 buf i) := by
  rw [u32At, slice_inside inside]
  rfl

/-- A word is not changed by what is behind it. -/
theorem u32_take {buf : Bytes} {i n : Nat} (inside : i + 4 ≤ n) : u32 (buf.take n) i = u32 buf i := by
  have behind : min 4 (n - i) = 4 := by omega
  unfold u32
  rw [List.drop_take, List.take_take, behind]

theorem u32At_outside {buf : Bytes} {i : Nat} (outside : buf.length < i + 4) :
    u32At buf i = none := by
  rw [u32At, slice_outside outside]
  rfl

theorem u64At_inside {buf : Bytes} {i : Nat} (inside : i + 8 ≤ buf.length) :
    u64At buf i = some (u64 buf i) := by
  rw [u64At, slice_inside inside]
  rfl

theorem textAt_terminated {buf : Bytes} {i : Nat} (terminated : Terminated buf i) :
    textAt buf i = some (text buf i) := by
  unfold Terminated at terminated
  induction buf generalizing i with
  | nil => simp at terminated
  | cons b rest ih =>
      cases i with
      | succ i => exact ih terminated
      | zero =>
          unfold textAt
          by_cases ends : b = 0
          · subst ends
            rfl
          · have later : (0 : UInt8) ∈ rest.drop 0 := by
              rcases List.mem_cons.mp terminated with same | later
              · exact absurd same.symm ends
              · exact later
            rw [if_neg ends, ih later]
            simp [text, cstr, ends]

theorem textAt_unterminated {buf : Bytes} {i : Nat} (unterminated : ¬ Terminated buf i) :
    textAt buf i = none := by
  unfold Terminated at unterminated
  induction buf generalizing i with
  | nil => rfl
  | cons b rest ih =>
      cases i with
      | succ i => exact ih unterminated
      | zero =>
          have goesOn : b ≠ 0 ∧ (0 : UInt8) ∉ rest.drop 0 := by
            simpa [eq_comm] using unterminated
          rw [textAt, if_neg goesOn.1, ih goesOn.2]
          rfl

/-- A literal can be compared with any text that has as many bytes of the buffer behind
    its first one. -/
theorem strcmpAt_inside {buf literal : Bytes} {i : Nat} (inside : i + literal.length < buf.length) :
    strcmpAt buf i literal = some (isText buf i literal) := by
  induction literal generalizing i with
  | nil =>
      have first : i < buf.length := by simpa using inside
      unfold strcmpAt isText
      rw [List.getElem?_eq_getElem first, List.drop_eq_getElem_cons first, List.nil_append,
        List.isPrefixOf_cons_cons, Bool.beq_comm]
      simp
  | cons c rest ih =>
      rw [List.length_cons] at inside
      have first : i < buf.length := by omega
      unfold strcmpAt
      rw [List.getElem?_eq_getElem first]
      dsimp only
      split
      · rename_i same
        rw [ih (by omega), isText, isText, List.drop_eq_getElem_cons first]
        simp [eq_of_beq same]
      · rename_i other
        rw [isText, List.drop_eq_getElem_cons first]
        simp only [List.cons_append, List.isPrefixOf_cons_cons, Option.some.injEq]
        rw [Bool.beq_comm] at other
        simp [other]

theorem cstr_drop (buf : Bytes) (k : Nat) (inside : k ≤ (cstr buf).length) :
    cstr (buf.drop k) = (cstr buf).drop k := by
  induction buf generalizing k with
  | nil => simp
  | cons c rest ih =>
      cases k with
      | zero => rfl
      | succ k =>
          by_cases zero : c = 0
          · subst zero
            simp at inside
          · rw [cstr_cons zero] at inside ⊢
            exact ih k (Nat.le_of_succ_le_succ inside)

/-- Behind a text in the buffer there is its NUL. -/
theorem drop_eq_text {buf : Bytes} {i : Nat} (terminated : Terminated buf i) :
    buf.drop i = text buf i ++ 0 :: buf.drop (i + (text buf i).length + 1) := by
  have split := eq_cstr_append terminated
  rw [List.drop_drop, ← Nat.add_assoc] at split
  exact split

theorem text_clean (buf : Bytes) (i : Nat) : 0 ∉ text buf i := by
  intro member
  have nonzero := List.mem_takeWhile_imp member
  exact absurd nonzero (by decide)

theorem text_add {buf : Bytes} {i k : Nat} (inside : k ≤ (text buf i).length) :
    text buf (i + k) = (text buf i).drop k := by
  unfold text
  rw [← List.drop_drop]
  exact cstr_drop _ k inside

theorem terminated_add {buf : Bytes} {i k : Nat} (terminated : Terminated buf i)
    (inside : k ≤ (text buf i).length) : Terminated buf (i + k) := by
  rw [Terminated, ← List.drop_drop, drop_eq_text terminated, List.drop_append_of_le_length inside]
  simp

/-- A literal found at an address is the text there. -/
theorem text_of_isText {buf literal : Bytes} {i : Nat} (clean : 0 ∉ literal)
    (found : isText buf i literal = true) : text buf i = literal ∧ Terminated buf i := by
  obtain ⟨rest, split⟩ := List.isPrefixOf_iff_prefix.mp found
  unfold text Terminated
  rw [← split, List.append_assoc]
  exact ⟨cstr_append clean rest, by simp⟩

end Foundation
