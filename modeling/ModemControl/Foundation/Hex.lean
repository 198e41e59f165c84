import ModemControl.Foundation.Strtoul

/-! # Bytes written in hexadecimal

Two digits make a byte. A text may write its digits in either case, so a byte string has
many encodings, but an encoding stands for one byte string only.
-/

namespace Foundation

/-- The value of a hexadecimal digit. -/
def hexValue (c : UInt8) : Nat := (digit c).getD 0

/-- The byte that two digits stand for. -/
def hexByte (hi lo : UInt8) : UInt8 := UInt8.ofNat (16 * hexValue hi + hexValue lo)

/-- A text is an encoding of a byte string. -/
inductive Encodes : Bytes → Bytes → Prop where
  | nil : Encodes [] []
  | cons {hi lo b : UInt8} {hex s : Bytes} (high : isHex hi ∧ hexValue hi = b.toNat / 16)
      (low : isHex lo ∧ hexValue lo = b.toNat % 16) (rest : Encodes hex s) :
      Encodes (hi :: lo :: hex) (b :: s)

theorem hexValue_lt {c : UInt8} (hex : isHex c = true) : hexValue c < 16 := by
  unfold isHex at hex
  unfold hexValue
  cases found : digit c with
  | none => simp [found] at hex
  | some d => simpa [found] using hex

theorem hexByte_toNat {hi lo : UInt8} (high : isHex hi = true) (low : isHex lo = true) :
    (hexByte hi lo).toNat = 16 * hexValue hi + hexValue lo := by
  have highest := hexValue_lt high
  have lowest := hexValue_lt low
  rw [hexByte, UInt8.toNat_ofNat']
  omega

theorem hexByte_of_halves {hi lo b : UInt8} (high : hexValue hi = b.toNat / 16)
    (low : hexValue lo = b.toNat % 16) : hexByte hi lo = b := by
  have whole : 16 * hexValue hi + hexValue lo = b.toNat := by omega
  rw [hexByte, whole, UInt8.ofNat_toNat]

namespace Encodes

variable {hex s : Bytes}

theorem digits (encodes : Encodes hex s) : ∀ c ∈ hex, isHex c = true := by
  induction encodes with
  | nil => simp
  | cons high low _ ih => simpa only [List.forall_mem_cons] using ⟨high.1, low.1, ih⟩

theorem length_eq (encodes : Encodes hex s) : hex.length = 2 * s.length := by
  induction encodes with
  | nil => rfl
  | cons _ _ _ ih =>
      simp only [List.length_cons, ih]
      omega

theorem byte (encodes : Encodes hex s) {i : Nat} (inside : i < s.length) :
    hexByte (hex.getD (2 * i) 0) (hex.getD (2 * i + 1) 0) = s[i] := by
  induction encodes generalizing i with
  | nil => cases inside
  | cons high low _ ih =>
      cases i with
      | zero => exact hexByte_of_halves high.2 low.2
      | succ i => exact ih (Nat.lt_of_succ_lt_succ inside)

end Encodes

end Foundation
