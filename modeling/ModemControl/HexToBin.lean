import Mathlib.Data.List.GetD
import ModemControl.Foundation.Hex
import ModemControl.SecureVerify

/-! # HexToBin: secure_boot_load.c

The digits are taken in pairs, and the high half of a byte is written before its low one
is looked at.
-/

namespace ModemControl.HexToBin

open Foundation SecureVerify

/-- The value of a char, which may be a signed type. -/
def charValue (signed : Bool) (ch : UInt8) : Int :=
  if signed ∧ 128 ≤ ch then (ch.toNat : Int) - 256 else ch.toNat

/-- `(char)n`. -/
def toChar (n : Int) : UInt8 := UInt8.ofNat (n % 256).toNat

/-- The tests for one digit. -/
def digitOf (signed : Bool) (ch : UInt8) : Option Int :=
  let ch := charValue signed ch
  if ch ≥ 48 ∧ ch ≤ 57 then some (ch - 48)
  else if ch ≥ 97 ∧ ch ≤ 102 then some (ch - 97 + 10)
  else if ch ≥ 65 ∧ ch ≤ 70 then some (ch - 65 + 10)
  else none

/-- So many rounds of the loop, from `i` on and with `dest_ptr` so far behind `bin_ptr`. -/
def hexLoop (signed : Bool) (hex : Memory) : (rounds : Nat) → (i dest : Nat) → Memory → Int × Memory
  | 0, _, _, bin => (0, bin)
  | rounds + 1, i, dest, bin =>
      match digitOf signed (hex i) with
      | none => (-1, bin)
      | some high =>
          let bin := Function.update bin dest (toChar (high <<< (4 : Nat)))
          match digitOf signed (hex (i + 1)) with
          | none => (-1, bin)
          | some low =>
              hexLoop signed hex rounds (i + 2) (dest + 1)
                (Function.update bin dest (bin dest ||| toChar low))

/-- Nothing stands for NULL. -/
def hexToBin (signed : Bool) (hexPtr : Option Memory) (length : Int) (binPtr : Option Memory) :
    Int × Option Memory :=
  match hexPtr, binPtr with
  | some hex, some bin =>
      let (ret, bin) := hexLoop signed hex ((length + 1) / 2).toNat 0 0 bin
      (ret, some bin)
  | _, _ => (-1, binPtr)

/-- An array at the start of the memory; what is behind it may be anything. -/
def Holds (memory : Memory) (array : Bytes) : Prop :=
  ∀ i (inside : i < array.length), memory i = array[i]

/-- The byte that the digits at this place of the array stand for. -/
def byteOf (hex : Bytes) (i : Nat) : UInt8 := hexByte (hex.getD (2 * i) 0) (hex.getD (2 * i + 1) 0)

/-- The first character that is no digit. -/
structure FailsAt (hex : Bytes) (p : Nat) : Prop where
  inside : p < hex.length
  bad : isHex (hex.getD p 0) = false
  good : ∀ q < p, isHex (hex.getD q 0) = true

/-- The first bytes are those of the array. All others are as they were, apart from the one
    behind these. -/
structure Prefix (hex : Bytes) (n : Nat) (bin bin' : Memory) : Prop where
  bytes : ∀ i < n, bin' i = byteOf hex i
  rest : ∀ i > n, bin' i = bin i

/-- The result for an array of characters, with the bytes before and after the call. -/
structure Inverts (hex : Bytes) (bin : Memory) (ret : Int) (bin' : Memory) : Prop where
  accepts : ret = 0 ↔ ∀ c ∈ hex, isHex c = true
  rejects : ret ≠ 0 → ret = -1 ∧ ∃ p, FailsAt hex p
  decoded : ret = 0 → ∀ i < hex.length / 2,
    (bin' i).toNat = (16 * hexValue (hex.getD (2 * i) 0) + hexValue (hex.getD (2 * i + 1) 0)) % 256
  behind : ret = 0 → ∀ i ≥ hex.length / 2, bin' i = bin i
  /-- Any encoding of a byte string is decoded to that string. -/
  encoded : ∀ s, Encodes hex s → ret = 0 ∧ ∀ i (inside : i < s.length), bin' i = s[i]
  failed : ∀ p, FailsAt hex p → Prefix hex (p / 2) bin bin' ∧
    -- the byte is begun when its second digit is the bad one
    bin' (p / 2) = if p % 2 = 0 then bin (p / 2) else UInt8.ofNat (16 * hexValue (hex.getD (p - 1) 0))

theorem charValue_ascii {signed : Bool} {ch : UInt8} (ascii : ch.toNat < 128) :
    charValue signed ch = ch.toNat := by
  unfold charValue
  apply if_neg
  rintro ⟨_, high⟩
  exact absurd (UInt8.le_iff_toNat_le.mp high) (Nat.not_le.mpr ascii)

theorem charValue_high {signed : Bool} {ch : UInt8} (high : 128 ≤ ch.toNat) :
    charValue signed ch < 48 ∨ 102 < charValue signed ch := by
  have small := ch.toNat_lt
  unfold charValue
  split <;> omega

/-- Whether char is signed makes no difference for a digit. -/
theorem digitOf_eq (signed : Bool) (ch : UInt8) :
    digitOf signed ch = if isHex ch then some (hexValue ch : Int) else none := by
  by_cases ascii : ch.toNat < 128
  · simp only [digitOf, charValue_ascii ascii, isHex, hexValue, digit, Bool.and_eq_true,
      decide_eq_true_eq, UInt8.le_iff_toNat_le, UInt8.reduceToNat]
    generalize ch.toNat = n
    by_cases decimal : 48 ≤ n ∧ n ≤ 57
    · have signedly : (n : Int) ≥ 48 ∧ (n : Int) ≤ 57 := by omega
      have value : n - 48 < 16 := by omega
      rw [if_pos decimal, if_pos signedly, Option.any_some, Option.getD_some, decide_eq_true value,
        if_pos rfl]
      congr 1
      omega
    rw [if_neg decimal, if_neg (by omega)]
    by_cases lower : 97 ≤ n ∧ n ≤ 122
    · rw [if_pos lower, Option.any_some, Option.getD_some]
      by_cases hex : n ≤ 102
      · rw [if_pos (by omega), if_pos (by simp; omega)]
        congr 1
        omega
      · rw [if_neg (by omega), if_neg (by omega), if_neg (by simp; omega)]
    rw [if_neg lower, if_neg (by omega)]
    by_cases upper : 65 ≤ n ∧ n ≤ 90
    · rw [if_pos upper, Option.any_some, Option.getD_some]
      by_cases hex : n ≤ 70
      · rw [if_pos (by omega), if_pos (by simp; omega)]
        congr 1
        omega
      · rw [if_neg (by omega), if_neg (by simp; omega)]
    · rw [if_neg upper, if_neg (by omega), Option.any_none, if_neg Bool.false_ne_true]
  · have high := Nat.not_lt.mp ascii
    have other := @charValue_high signed ch high
    have none : digit ch = Option.none := by
      simp only [digit, Bool.and_eq_true, decide_eq_true_eq, UInt8.le_iff_toNat_le, UInt8.reduceToNat]
      rw [if_neg (by omega), if_neg (by omega), if_neg (by omega)]
    rw [isHex, none, Option.any_none, if_neg Bool.false_ne_true, digitOf]
    rw [if_neg (by omega), if_neg (by omega), if_neg (by omega)]

theorem toChar_high (n : Nat) : toChar ((n : Int) <<< (4 : Nat)) = UInt8.ofNat (16 * n) := by
  apply UInt8.toNat_inj.mp
  rw [toChar, Int.shiftLeft_eq, UInt8.toNat_ofNat', UInt8.toNat_ofNat']
  omega

theorem toChar_low (n : Nat) : toChar (n : Int) = UInt8.ofNat n := by
  apply UInt8.toNat_inj.mp
  rw [toChar, UInt8.toNat_ofNat', UInt8.toNat_ofNat']
  omega

theorem high_or_low (hi : UInt8) {lo : UInt8} (low : isHex lo = true) :
    toChar ((hexValue hi : Int) <<< (4 : Nat)) ||| toChar (hexValue lo) = hexByte hi lo := by
  have lowest := hexValue_lt low
  have joined : 16 * hexValue hi ||| hexValue lo = 16 * hexValue hi + hexValue lo := by
    have shifted : 16 * hexValue hi = hexValue hi <<< 4 := by
      rw [Nat.shiftLeft_eq]
      omega
    rw [shifted, ← Nat.shiftLeft_add_eq_or_of_lt lowest]
  rw [toChar_high, toChar_low, ← UInt8.ofNat_or, joined]
  rfl

/-- The bytes from `a` up to `b` are decoded. -/
def filled (hex : Memory) (a b : Nat) (bin : Memory) : Memory := fun j =>
  if a ≤ j ∧ j < b then hexByte (hex (2 * j)) (hex (2 * j + 1)) else bin j

/-- The bytes from `a` up to the character `p`, which is no digit. -/
def stopped (hex : Memory) (a p : Nat) (bin : Memory) : Memory :=
  if p % 2 = 0 then filled hex a (p / 2) bin
  else Function.update (filled hex a (p / 2) bin) (p / 2) (UInt8.ofNat (16 * hexValue (hex (p - 1))))

/-- How the loop ends that starts with byte `k`. -/
inductive HexRun (hex : Memory) (k rounds : Nat) (bin : Memory) : Int × Memory → Prop where
  | all (good : ∀ q, 2 * k ≤ q → q < 2 * (k + rounds) → isHex (hex q) = true) :
      HexRun hex k rounds bin (0, filled hex k (k + rounds) bin)
  | bad (p : Nat) (behind : 2 * k ≤ p) (inside : p < 2 * (k + rounds)) (bad : isHex (hex p) = false)
      (good : ∀ q, 2 * k ≤ q → q < p → isHex (hex q) = true) :
      HexRun hex k rounds bin (-1, stopped hex k p bin)

section

variable {hex bin : Memory} {k : Nat}

theorem filled_none : filled hex k k bin = bin := by
  funext j
  exact if_neg fun both => by omega

theorem filled_next {b : Nat} (more : k < b) :
    filled hex (k + 1) b (Function.update bin k (hexByte (hex (2 * k)) (hex (2 * k + 1)))) =
      filled hex k b bin := by
  funext j
  unfold filled
  by_cases here : j = k
  · subst here
    rw [if_neg (by omega), if_pos (by omega), Function.update_self]
  · rw [Function.update_of_ne here]
    congr 1
    rw [eq_iff_iff]
    omega

theorem stopped_next {p : Nat} (later : 2 * (k + 1) ≤ p) :
    stopped hex (k + 1) p (Function.update bin k (hexByte (hex (2 * k)) (hex (2 * k + 1)))) =
      stopped hex k p bin := by
  unfold stopped
  rw [filled_next (by omega)]

theorem hexLoop_run (signed : Bool) (hex : Memory) (rounds k : Nat) (bin : Memory) :
    HexRun hex k rounds bin (hexLoop signed hex rounds (2 * k) k bin) := by
  induction rounds generalizing k bin with
  | zero =>
      have run : HexRun hex k 0 bin (0, filled hex k (k + 0) bin) := .all fun q _ _ => by omega
      rwa [Nat.add_zero, filled_none] at run
  | succ rounds ih =>
      rw [hexLoop, digitOf_eq]
      cases high : isHex (hex (2 * k)) with
      | false =>
          have run : HexRun hex k (rounds + 1) bin (-1, stopped hex k (2 * k) bin) :=
            .bad (2 * k) (Nat.le_refl _) (by omega) high fun q _ _ => by omega
          have none : stopped hex k (2 * k) bin = bin := by
            rw [stopped, if_pos (by omega), Nat.mul_div_cancel_left k (by decide), filled_none]
          rwa [none] at run
      | true =>
          rw [if_pos rfl, digitOf_eq]
          cases low : isHex (hex (2 * k + 1)) with
          | false =>
              have run : HexRun hex k (rounds + 1) bin (-1, stopped hex k (2 * k + 1) bin) := by
                refine .bad (2 * k + 1) (by omega) (by omega) low fun q from_ before => ?_
                obtain rfl : q = 2 * k := by omega
                exact high
              have half : stopped hex k (2 * k + 1) bin =
                  Function.update bin k (toChar ((hexValue (hex (2 * k)) : Int) <<< (4 : Nat))) := by
                have place : (2 * k + 1) / 2 = k := by omega
                rw [stopped, if_neg (by omega), place, filled_none, Nat.add_sub_cancel, toChar_high]
              rwa [half] at run
          | true =>
              rw [if_pos rfl]
              dsimp only
              rw [Function.update_self, high_or_low _ low, Function.update_idem]
              have here : ∀ q, 2 * k ≤ q → q < 2 * (k + 1) → isHex (hex q) = true := by
                intro q from_ before
                rcases (by omega : q = 2 * k ∨ q = 2 * k + 1) with rfl | rfl
                · exact high
                · exact low
              have later := ih (k + 1) (Function.update bin k (hexByte (hex (2 * k)) (hex (2 * k + 1))))
              have digits (q : Nat) (good : 2 * (k + 1) ≤ q → isHex (hex q) = true) (from_ : 2 * k ≤ q) :
                  isHex (hex q) = true := by
                by_cases second : 2 * (k + 1) ≤ q
                · exact good second
                · exact here q from_ (by omega)
              rw [Nat.mul_add, Nat.mul_one] at later
              generalize hexLoop signed hex rounds (2 * k + 2) (k + 1) _ = result at later ⊢
              cases later with
              | all good =>
                  rw [filled_next (by omega)]
                  have same : k + 1 + rounds = k + (rounds + 1) := by omega
                  rw [same] at good ⊢
                  exact .all fun q from_ before => digits q (fun second => good q second before) from_
              | bad p behind inside bad good =>
                  rw [stopped_next behind]
                  exact .bad p (by omega) (by omega) bad fun q from_ before =>
                    digits q (fun second => good q second before) from_

end

section

variable {hex : Bytes} {memory bin : Memory}

theorem Holds.at (holds : Holds memory hex) {i : Nat} (inside : i < hex.length) :
    memory i = hex.getD i 0 := by
  rw [holds i inside, List.getD_eq_getElem hex 0 inside]

theorem hexToBin_even (signed : Bool) (even : hex.length % 2 = 0) :
    hexToBin signed (some memory) hex.length (some bin) =
      ((hexLoop signed memory (hex.length / 2) 0 0 bin).1,
        some (hexLoop signed memory (hex.length / 2) 0 0 bin).2) := by
  have rounds : (((hex.length : Int) + 1) / 2).toNat = hex.length / 2 := by omega
  rw [hexToBin, rounds]

theorem FailsAt.unique {p q : Nat} (first : FailsAt hex p) (second : FailsAt hex q) : p = q := by
  rcases Nat.lt_trichotomy p q with before | same | behind
  · exact absurd (second.good p before) (ne_of_eq_of_ne first.bad Bool.false_ne_true)
  · exact same
  · exact absurd (first.good q behind) (ne_of_eq_of_ne second.bad Bool.false_ne_true)

theorem filled_before (holds : Holds memory hex) {i n : Nat} (before : i < n)
    (inside : 2 * n ≤ hex.length) : filled memory 0 n bin i = byteOf hex i := by
  rw [filled, if_pos ⟨Nat.zero_le i, before⟩, holds.at (by omega), holds.at (by omega), byteOf]

theorem filled_behind {i n : Nat} (behind : n ≤ i) : filled memory 0 n bin i = bin i :=
  if_neg fun both => by omega

theorem prefix_stopped (holds : Holds memory hex) {p : Nat} (inside : p < hex.length) :
    Prefix hex (p / 2) bin (stopped memory 0 p bin) := by
  have others (i : Nat) (other : i ≠ p / 2) :
      stopped memory 0 p bin i = filled memory 0 (p / 2) bin i := by
    unfold stopped
    split
    · rfl
    · exact Function.update_of_ne other _ _
  constructor
  · intro i before
    rw [others i (by omega), filled_before holds before (by omega)]
  · intro i behind
    rw [others i (by omega), filled_behind (by omega)]

theorem stopped_begun (holds : Holds memory hex) {p : Nat} (inside : p < hex.length) :
    stopped memory 0 p bin (p / 2) =
      if p % 2 = 0 then bin (p / 2) else UInt8.ofNat (16 * hexValue (hex.getD (p - 1) 0)) := by
  unfold stopped
  split
  · exact filled_behind (Nat.le_refl _)
  · rw [Function.update_self, holds.at (by omega)]

/-- All characters are digits. -/
theorem inverts_all (holds : Holds memory hex) (even : hex.length % 2 = 0)
    (good : ∀ c ∈ hex, isHex c = true) :
    Inverts hex bin 0 (filled memory 0 (hex.length / 2) bin) := by
  have digit (p : Nat) (inside : p < hex.length) : isHex (hex.getD p 0) = true := by
    rw [List.getD_eq_getElem hex 0 inside]
    exact good _ (List.getElem_mem inside)
  constructor
  · exact iff_of_true rfl good
  · intro failed
    exact absurd rfl failed
  · intro _ i before
    rw [filled_before holds before (by omega), byteOf,
      hexByte_toNat (digit _ (by omega)) (digit _ (by omega))]
    have highest := hexValue_lt (digit (2 * i) (by omega))
    have lowest := hexValue_lt (digit (2 * i + 1) (by omega))
    omega
  · intro _ i behind
    exact filled_behind behind
  · intro s encodes
    have length := encodes.length_eq
    refine ⟨rfl, ?_⟩
    intro i inside
    rw [filled_before holds (by omega) (by omega), byteOf, encodes.byte inside]
  · intro p fails
    exact absurd (digit p fails.inside) (ne_of_eq_of_ne fails.bad Bool.false_ne_true)

theorem inverts_bad (holds : Holds memory hex) {p : Nat} (fails : FailsAt hex p) :
    Inverts hex bin (-1) (stopped memory 0 p bin) := by
  have refused : ¬ ∀ c ∈ hex, isHex c = true := by
    intro good
    have digit := good _ (List.getElem_mem fails.inside)
    rw [← List.getD_eq_getElem hex 0 fails.inside, fails.bad] at digit
    cases digit
  constructor
  · exact iff_of_false (by decide) refused
  · intro _
    exact ⟨rfl, p, fails⟩
  · intro accepted
    cases accepted
  · intro accepted
    cases accepted
  · intro s encodes
    exact absurd encodes.digits refused
  · intro q also
    obtain rfl := fails.unique also
    exact ⟨prefix_stopped holds fails.inside, stopped_begun holds fails.inside⟩

/-- The loop goes over all characters, or stops at the first that is no digit. -/
theorem hexToBin_ends (signed : Bool) (even : hex.length % 2 = 0) (holds : Holds memory hex) :
    ((∀ c ∈ hex, isHex c = true) ∧ hexToBin signed (some memory) hex.length (some bin) =
        (0, some (filled memory 0 (hex.length / 2) bin))) ∨
      ∃ p, FailsAt hex p ∧ hexToBin signed (some memory) hex.length (some bin) =
        (-1, some (stopped memory 0 p bin)) := by
  rw [hexToBin_even signed even]
  have run := hexLoop_run signed memory (hex.length / 2) 0 bin
  rw [Nat.mul_zero] at run
  generalize hexLoop signed memory (hex.length / 2) 0 0 bin = result at run ⊢
  cases run with
  | all good =>
      rw [Nat.zero_add] at good ⊢
      refine Or.inl ⟨?_, rfl⟩
      intro c member
      obtain ⟨i, inside, rfl⟩ := List.getElem_of_mem member
      rw [← holds i inside]
      exact good i (by omega) (by omega)
  | bad p behind inside bad good =>
      have within : p < hex.length := by omega
      refine Or.inr ⟨p, ⟨within, ?_, ?_⟩, rfl⟩
      · rw [← holds.at within]
        exact bad
      · intro q before
        rw [← holds.at (by omega)]
        exact good q (by omega) before

/-- For every array of an even number of characters, whatever is behind it and whether
    chars are signed or not: the call succeeds exactly on hexadecimal digits, with the
    bytes they stand for, and otherwise stops at the first other character. -/
theorem hexToBin_inverts (signed : Bool) (hex : Bytes) (even : hex.length % 2 = 0)
    (memory bin : Memory) (holds : Holds memory hex) :
    ∃ ret bin', hexToBin signed (some memory) hex.length (some bin) = (ret, some bin') ∧
      Inverts hex bin ret bin' := by
  rcases @hexToBin_ends hex memory bin signed even holds with ⟨good, decoded⟩ | ⟨p, fails, decoded⟩
  · exact ⟨_, _, decoded, inverts_all holds even good⟩
  · exact ⟨_, _, decoded, inverts_bad holds fails⟩

/-- The four digits `0aFf`, behind which no digit is. -/
theorem hexToBin_inverts_mixed :
    ∃ ret bin', hexToBin true (some fun i => (bytes "0aFf").getD i 0) 4 (some fun _ => 7) =
      (ret, some bin') ∧ Inverts (bytes "0aFf") (fun _ => 7) ret bin' := by
  apply hexToBin_inverts true (bytes "0aFf") (by decide)
  intro i inside
  exact List.getD_eq_getElem _ 0 inside

end

end ModemControl.HexToBin
