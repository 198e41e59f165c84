import ModemControl.Foundation.CString

/-! # `strtoul` with base 0

The base is told by the text: hexadecimal behind `0x`, octal behind another leading zero,
decimal otherwise. An unsigned long has 64 bits.
-/

namespace Foundation

def ULONG_MAX : Nat := 0xFFFFFFFFFFFFFFFF

/-- The value of a digit, of any base up to 36. -/
def digit (c : UInt8) : Option Nat :=
  if 48 ≤ c && c ≤ 57 then some (c.toNat - 48)
  else if 97 ≤ c && c ≤ 122 then some (c.toNat - 87)
  else if 65 ≤ c && c ≤ 90 then some (c.toNat - 55)
  else none

/-- The leading digits of a text. -/
def digits (base : Nat) : Bytes → List Nat
  | [] => []
  | c :: rest =>
      match digit c with
      | some d => if d < base then d :: digits base rest else []
      | none => []

def ofDigits (base : Nat) (ds : List Nat) : Nat := ds.foldl (fun value d => base * value + d) 0

def isHex (c : UInt8) : Bool := (digit c).any (· < 16)

/-- The base, and the text from the first digit on. -/
def detectBase : Bytes → Nat × Bytes
  | 48 :: x :: c :: rest =>
      if (x == 120 || x == 88) && isHex c then (16, c :: rest) else (8, 48 :: x :: c :: rest)
  | 48 :: rest => (8, 48 :: rest)
  | text => (10, text)

def sign : Bytes → Bool × Bytes
  | 45 :: rest => (true, rest)
  | 43 :: rest => (false, rest)
  | text => (false, text)

/-- The result, whether `endptr` is behind the start of the text, and whether `errno` is
    set to ERANGE. -/
structure Strtoul where
  value : Nat
  moved : Bool
  overflow : Bool
  deriving Repr, DecidableEq

def strtoul (str : Bytes) : Strtoul :=
  let (negative, text) := sign (str.dropWhile isSpace)
  let (base, text) := detectBase text
  let ds := digits base text
  let value := ofDigits base ds
  if ULONG_MAX < value then ⟨ULONG_MAX, true, true⟩
  else ⟨if negative then (ULONG_MAX + 1 - value) % (ULONG_MAX + 1) else value, ds != [], false⟩

/-- The sign and the size of the number that a text begins with. -/
def leading (str : Bytes) : Option (Bool × Nat) :=
  let (negative, text) := sign (str.dropWhile isSpace)
  let (base, text) := detectBase text
  match digits base text with
  | [] => none
  | ds => some (negative, ofDigits base ds)

/-- There is nothing behind the number. -/
def endsWithDigits (str : Bytes) : Bool :=
  let (_, text) := sign (str.dropWhile isSpace)
  let (base, text) := detectBase text
  (digits base text).length == text.length

/-- The number that the whole of a text stands for; a negative one is none. -/
def denotes (str : Bytes) : Option Nat :=
  match leading str with
  | some (negative, n) =>
      if endsWithDigits str && (!negative || n == 0) then some n else none
  | none => none

theorem strtoul_leading (str : Bytes) :
    strtoul str =
      match leading str with
      | none => ⟨0, false, false⟩
      | some (negative, n) =>
          if ULONG_MAX < n then ⟨ULONG_MAX, true, true⟩
          else ⟨if negative then (ULONG_MAX + 1 - n) % (ULONG_MAX + 1) else n, true, false⟩ := by
  unfold strtoul leading
  dsimp only
  cases digits (detectBase (sign (str.dropWhile isSpace)).2).1
      (detectBase (sign (str.dropWhile isSpace)).2).2 with
  | nil => simp [ofDigits]
  | cons d ds => rfl

/-- The value of a text that consists of digits only. -/
def wholly (base : Nat) (text : Bytes) : Option Nat :=
  if text ≠ [] ∧ (digits base text).length = text.length then some (ofDigits base (digits base text))
  else none

/-- The value of a plain numeral: decimal without a leading zero, or hexadecimal behind 0x. -/
def numeral : Bytes → Option Nat
  | [48] => some 0
  | 48 :: x :: hex => if x == 120 || x == 88 then wholly 16 hex else none
  | text => wholly 10 text

theorem wholly_eq {base n : Nat} {text : Bytes} (whole : wholly base text = some n) :
    text ≠ [] ∧ digits base text ≠ [] ∧ ofDigits base (digits base text) = n := by
  obtain ⟨⟨some, length⟩, value⟩ := Option.ite_none_right_eq_some.mp whole
  refine ⟨some, ?_, Option.some.inj value⟩
  rw [← List.length_pos_iff, length, List.length_pos_iff]
  exact some

theorem digit_of_digits {base : Nat} {c : UInt8} {rest : Bytes}
    (some : digits base (c :: rest) ≠ []) : ∃ d, digit c = Option.some d ∧ d < base := by
  rw [digits] at some
  split at some
  · rename_i d found
    split at some
    · rename_i small
      exact ⟨d, found, small⟩
    · exact absurd rfl some
  · exact absurd rfl some

/-- A digit with a value below ten is a decimal one. -/
theorem decimal_of_digit {c : UInt8} {d : Nat} (found : digit c = some d) (small : d < 10) :
    48 ≤ c.toNat ∧ c.toNat ≤ 57 := by
  unfold digit at found
  simp only [UInt8.le_iff_toNat_le, Bool.and_eq_true, decide_eq_true_eq] at found
  simp only [UInt8.reduceToNat] at found
  split at found
  · assumption
  · split at found
    · have value : c.toNat - 87 = d := Option.some.inj found
      omega
    · split at found
      · have value : c.toNat - 55 = d := Option.some.inj found
        omega
      · cases found

theorem strtoul_digits {str text : Bytes} {base n : Nat} (start : str.dropWhile isSpace = str)
    (unsigned : sign str = (false, str)) (detected : detectBase str = (base, text))
    (whole : wholly base text = some n) (small : n ≤ ULONG_MAX) : strtoul str = ⟨n, true, false⟩ := by
  obtain ⟨_, some, value⟩ := wholly_eq whole
  unfold strtoul
  simp only [start, unsigned, detected, value, if_neg (Nat.not_lt_of_le small)]
  simp [some]

theorem strtoul_hex {x : UInt8} {hex : Bytes} {n : Nat} (behind : (x == 120 || x == 88) = true)
    (whole : wholly 16 hex = some n) (small : n ≤ ULONG_MAX) :
    strtoul (48 :: x :: hex) = ⟨n, true, false⟩ := by
  obtain ⟨nonempty, some, _⟩ := wholly_eq whole
  obtain ⟨c, rest, rfl⟩ := List.exists_cons_of_ne_nil nonempty
  obtain ⟨d, found, inBase⟩ := digit_of_digits some
  have first : isHex c = true := by simpa [isHex, found] using inBase
  refine strtoul_digits ?_ ?_ ?_ whole small
  · rfl
  · rfl
  · simp [detectBase, behind, first]

theorem strtoul_decimal {text : Bytes} {n : Nat} (nonzero : ∀ rest, text ≠ 48 :: rest)
    (whole : wholly 10 text = some n) (small : n ≤ ULONG_MAX) :
    strtoul text = ⟨n, true, false⟩ := by
  obtain ⟨nonempty, some, _⟩ := wholly_eq whole
  obtain ⟨c, rest, rfl⟩ := List.exists_cons_of_ne_nil nonempty
  obtain ⟨d, found, inBase⟩ := digit_of_digits some
  have decimal := decimal_of_digit found inBase
  have blank : isSpace c = false := by
    simp only [isSpace, Bool.or_eq_false_iff, Bool.and_eq_false_iff, beq_eq_false_iff_ne,
      decide_eq_false_iff_not, ne_eq, ← UInt8.toNat_inj, UInt8.le_iff_toNat_le, UInt8.reduceToNat]
    omega
  have minus : c ≠ 45 := by
    rintro rfl
    simp at decimal
  have plus : c ≠ 43 := by
    rintro rfl
    simp at decimal
  refine strtoul_digits ?_ ?_ ?_ whole small
  · simp [blank]
  · unfold sign
    split
    · rename_i same
      exact absurd (List.cons.inj same).1 minus
    · rename_i same
      exact absurd (List.cons.inj same).1 plus
    · rfl
  · unfold detectBase
    split
    · rename_i same
      exact absurd same (nonzero _)
    · rename_i same
      exact absurd same (nonzero _)
    · rfl

/-- `strtoul` reads a plain numeral to its end. -/
theorem strtoul_numeral {text : Bytes} {n : Nat} (plain : numeral text = some n)
    (small : n ≤ ULONG_MAX) : strtoul text = ⟨n, true, false⟩ := by
  unfold numeral at plain
  split at plain
  · obtain rfl := Option.some.inj plain
    rfl
  · split at plain
    · rename_i behind
      exact strtoul_hex behind plain small
    · cases plain
  · rename_i notZero notHex
    refine strtoul_decimal ?_ plain small
    intro rest start
    cases rest with
    | nil => exact notZero start
    | cons x hex => exact notHex x hex start

end Foundation
