import Mathlib.Algebra.BigOperators.Group.List.Basic
import Mathlib.Data.Nat.ModEq

/-! # Sums with end-around carry

Words below a base are added with the carry brought back in at the low end. Such a sum is
the plain sum modulo one less than the base, where only the sum of zeros is zero. A plain
sum is brought below the base by folding what is above the low word into it.
-/

namespace Foundation.OnesComplement

/-- What is above the low word is added to it. -/
def fold (base x : Nat) : Nat := x / base + x % base

def addCarry (base a b : Nat) : Nat := fold base (a + b)

/-- The end-around-carry sum of words. -/
def carrySum (base : Nat) (words : List Nat) : Nat := words.foldl (addCarry base) 0

/-- The number below the base that stands for a sum. -/
def residue (base x : Nat) : Nat := if x = 0 then 0 else (x - 1) % (base - 1) + 1

variable {base : Nat}

theorem residue_eq_zero {x : Nat} : residue base x = 0 ↔ x = 0 := by
  unfold residue
  split
  · rename_i zero
    exact iff_of_true rfl zero
  · rename_i nonzero
    exact iff_of_false (Nat.succ_ne_zero _) nonzero

theorem residue_lt (two : 2 ≤ base) (x : Nat) : residue base x < base := by
  unfold residue
  split
  · omega
  · have below := Nat.mod_lt (x - 1) (show 0 < base - 1 by omega)
    omega

theorem residue_modEq (x : Nat) : residue base x ≡ x [MOD base - 1] := by
  unfold residue
  split
  · rename_i zero
    rw [zero]
  · rename_i nonzero
    have next : x - 1 + 1 = x := Nat.succ_pred_eq_of_ne_zero nonzero
    calc
      (x - 1) % (base - 1) + 1 ≡ x - 1 + 1 [MOD base - 1] := (Nat.mod_modEq _ _).add_right 1
      _ = x := next

/-- Nothing else below the base stands for the same sum. -/
theorem eq_residue {r x : Nat} (small : r < base) (zero : r = 0 ↔ x = 0)
    (same : r ≡ x [MOD base - 1]) : r = residue base x := by
  unfold residue
  split
  · rename_i none
    exact zero.mpr none
  · rename_i nonzero
    have positive : 0 < r := Nat.pos_of_ne_zero fun none => nonzero (zero.mp none)
    have before : r - 1 ≡ x - 1 [MOD base - 1] := by
      apply Nat.ModEq.add_right_cancel' 1
      have next : x - 1 + 1 = x := Nat.succ_pred_eq_of_ne_zero nonzero
      rw [Nat.sub_add_cancel positive, next]
      exact same
    have reduced : (r - 1) % (base - 1) = (x - 1) % (base - 1) := before
    rw [Nat.mod_eq_of_lt (by omega)] at reduced
    omega

theorem residue_congr (two : 2 ≤ base) {x y : Nat} (zero : x = 0 ↔ y = 0)
    (same : x ≡ y [MOD base - 1]) : residue base x = residue base y :=
  eq_residue (residue_lt two x) (residue_eq_zero.trans zero) ((residue_modEq x).trans same)

theorem residue_eq_iff (two : 2 ≤ base) {x y : Nat} :
    residue base x = residue base y ↔ (x = 0 ↔ y = 0) ∧ x ≡ y [MOD base - 1] := by
  constructor
  · intro same
    constructor
    · calc
        x = 0 ↔ residue base x = 0 := residue_eq_zero.symm
        _ ↔ residue base y = 0 := by rw [same]
        _ ↔ y = 0 := residue_eq_zero
    · calc
        x ≡ residue base x [MOD base - 1] := (residue_modEq x).symm
        _ = residue base y := same
        _ ≡ y [MOD base - 1] := residue_modEq y
  · rintro ⟨zero, same⟩
    exact residue_congr two zero same

theorem residue_of_lt {x : Nat} (small : x < base) : residue base x = x :=
  (eq_residue small Iff.rfl Nat.ModEq.rfl).symm

theorem fold_of_lt {x : Nat} (small : x < base) : fold base x = x := by
  rw [fold, Nat.div_eq_of_lt small, Nat.mod_eq_of_lt small, Nat.zero_add]

theorem fold_eq_zero {x : Nat} : fold base x = 0 ↔ x = 0 := by
  constructor
  · intro zero
    obtain ⟨quotient, rest⟩ := Nat.add_eq_zero_iff.mp zero
    rw [← Nat.div_add_mod x base, quotient, rest, Nat.mul_zero]
  · intro zero
    rw [fold, zero, Nat.zero_div, Nat.zero_mod]

theorem fold_modEq (two : 2 ≤ base) (x : Nat) : fold base x ≡ x [MOD base - 1] := by
  have one : base ≡ 1 [MOD base - 1] := by
    have above : base = base - 1 + 1 := by omega
    calc
      base = base - 1 + 1 := above
      _ ≡ 0 + 1 [MOD base - 1] := (Nat.modEq_zero_iff_dvd.mpr dvd_rfl).add_right 1
      _ = 1 := Nat.zero_add 1
  calc
    fold base x = 1 * (x / base) + x % base := by rw [fold, Nat.one_mul]
    _ ≡ base * (x / base) + x % base [MOD base - 1] := (one.symm.mul_right _).add_right _
    _ = x := Nat.div_add_mod x base

theorem residue_fold (two : 2 ≤ base) (x : Nat) : residue base (fold base x) = residue base x :=
  residue_congr two fold_eq_zero (fold_modEq two x)

/-- The low word after a fold whose carry is one at most: the carry that is lost is missing
    from what stands for the sum. -/
theorem mod_eq_residue (two : 2 ≤ base) {x : Nat} (carry : x < 2 * base - 1) :
    x % base = if x < base then residue base x else residue base x - 1 := by
  split
  · rename_i small
    rw [Nat.mod_eq_of_lt small, residue_of_lt small]
  · rename_i large
    have lost : x - base + 1 = residue base x := by
      apply eq_residue
      · omega
      · omega
      · have above : x = x - base + 1 + (base - 1) := by omega
        calc
          x - base + 1 ≡ x - base + 1 + (base - 1) [MOD base - 1] := (Nat.add_modEq_right).symm
          _ = x := above.symm
    rw [← lost, Nat.mod_eq_sub_mod (by omega), Nat.mod_eq_of_lt (by omega)]
    omega

theorem addCarry_lt {a b : Nat} (smallA : a < base) (smallB : b < base) : addCarry base a b < base := by
  unfold addCarry
  by_cases small : a + b < base
  · rw [fold_of_lt small]
    exact small
  · have rest : (a + b) % base = a + b - base := by
      rw [Nat.mod_eq_sub_mod (by omega), Nat.mod_eq_of_lt (by omega)]
    have one : (a + b) / base = 1 := Nat.div_eq_of_lt_le (by omega) (by omega)
    rw [fold, rest, one]
    omega

theorem foldl_addCarry (two : 2 ≤ base) {words : List Nat} (small : ∀ w ∈ words, w < base) {a : Nat}
    (start : a < base) : words.foldl (addCarry base) a = residue base (a + words.sum) := by
  induction words generalizing a with
  | nil => exact (residue_of_lt start).symm
  | cons w rest ih =>
      obtain ⟨first, later⟩ := List.forall_mem_cons.mp small
      rw [List.foldl_cons, ih later (addCarry_lt start first), List.sum_cons, ← Nat.add_assoc]
      apply residue_congr two
      · rw [addCarry, Nat.add_eq_zero_iff, fold_eq_zero, ← Nat.add_eq_zero_iff]
      · exact (fold_modEq two (a + w)).add_right _

theorem carrySum_eq_residue (two : 2 ≤ base) {words : List Nat} (small : ∀ w ∈ words, w < base) :
    carrySum base words = residue base words.sum := by
  rw [carrySum, foldl_addCarry two small (by omega), Nat.zero_add]

end Foundation.OnesComplement
