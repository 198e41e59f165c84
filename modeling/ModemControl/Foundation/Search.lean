import Mathlib.Data.List.Infix
import ModemControl.Foundation.CString

/-! # Where a text occurs in another

`strstr` points to the first place. It is given by its position here, and by the text from
there on in `findStr`.
-/

namespace Foundation

/-- The position `strstr` points to. -/
def indexOf (needle : Bytes) : Bytes → Option Nat
  | [] => if needle.isEmpty then some 0 else none
  | c :: text =>
      if needle.isPrefixOf (c :: text) then some 0 else (indexOf needle text).map (· + 1)

theorem strstr_iff {text needle : Bytes} : strstr text needle = true ↔ needle <:+: text := by
  induction text with
  | nil => simp [strstr]
  | cons c text ih => simp [strstr, ih, List.infix_cons_iff]

/-- A text with this word in it has every part of the word in it. -/
theorem strstr_of_part {text word part : Bytes} (inside : part <:+: word)
    (found : strstr text word = true) : strstr text part = true :=
  strstr_iff.mpr (inside.trans (strstr_iff.mp found))

/-- Both searches find the same place. -/
theorem findStr_eq (text needle : Bytes) :
    findStr text needle = (indexOf needle text).map fun i => text.drop i := by
  induction text with
  | nil => cases needle <;> rfl
  | cons c text ih =>
      rw [indexOf, findStr]
      split
      · rfl
      · rw [ih, Option.map_map]
        rfl

theorem indexOf_le {text needle : Bytes} {i : Nat} (found : indexOf needle text = some i) :
    i + needle.length ≤ text.length := by
  induction text generalizing i with
  | nil =>
      cases needle with
      | nil =>
          obtain rfl : 0 = i := by simpa [indexOf] using found
          rfl
      | cons c needle => cases found
  | cons c text ih =>
      rw [indexOf] at found
      split at found
      · rename_i here
        obtain rfl := Option.some.inj found
        have short := (List.isPrefixOf_iff_prefix.mp here).length_le
        omega
      · obtain ⟨j, later, rfl⟩ := Option.map_eq_some_iff.mp found
        have inside := ih later
        rw [List.length_cons]
        omega

/-- The first place is not changed by what is behind the text. -/
theorem indexOf_append {needle text : Bytes} {i : Nat} (found : indexOf needle text = some i)
    (rest : Bytes) : indexOf needle (text ++ rest) = some i := by
  induction text generalizing i with
  | nil =>
      cases needle with
      | nil =>
          obtain rfl : 0 = i := by simpa [indexOf] using found
          cases rest <;> rfl
      | cons c needle => cases found
  | cons c text ih =>
      rw [indexOf] at found
      rw [List.cons_append, indexOf]
      split at found
      · rename_i here
        obtain rfl := Option.some.inj found
        have still : needle.isPrefixOf (c :: (text ++ rest)) = true := by
          rw [List.isPrefixOf_iff_prefix] at here ⊢
          exact here.trans (List.prefix_append (c :: text) rest)
        rw [if_pos still]
      · rename_i other
        obtain ⟨j, later, rfl⟩ := Option.map_eq_some_iff.mp found
        have inside := indexOf_le later
        have still : ¬ needle.isPrefixOf (c :: (text ++ rest)) = true := by
          intro here
          rw [List.isPrefixOf_iff_prefix] at here other
          apply other
          apply List.prefix_of_prefix_length_le here (List.prefix_append (c :: text) rest)
          rw [List.length_cons]
          omega
        rw [if_neg still, ih later]
        rfl

/-- A text that does not begin earlier is found where it is. -/
theorem findStr_of_first {needle before rest : Bytes} (here : needle <+: rest)
    (first : ∀ i < before.length, ¬ needle <+: (before ++ rest).drop i) :
    findStr (before ++ rest) needle = some rest := by
  induction before with
  | nil =>
      cases rest with
      | nil =>
          obtain rfl := List.prefix_nil.mp here
          rfl
      | cons c rest => exact if_pos (List.isPrefixOf_iff_prefix.mpr here)
  | cons c before ih =>
      have later : ¬ needle.isPrefixOf (c :: (before ++ rest)) = true := by
        rw [List.isPrefixOf_iff_prefix]
        exact first 0 (Nat.zero_lt_succ _)
      rw [List.cons_append, findStr, if_neg later]
      apply ih
      intro i inside
      exact first (i + 1) (Nat.succ_lt_succ inside)

end Foundation
