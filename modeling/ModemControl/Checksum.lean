import ModemControl.Foundation.OnesComplement
import ModemControl.NvRead

/-! # The two checksums of nv_read.c

Both add the little-endian words of a buffer and fold the sum twice; they differ in the
width of the accumulator. What they should be is the complement of the end-around-carry
sum of the words. Two folds are enough for a sum of 32 bits. A longer buffer has larger
sums, on some of which the second fold carries once more, and that carry is dropped.
-/

namespace ModemControl.Nv

open Foundation OnesComplement

def RUNNV_SIZE : Nat := 2 * 1024 * 1024

/-- The little-endian words of a buffer; an odd last byte is a word. -/
def words : Bytes → List Nat
  | lo :: hi :: rest => (lo.toNat + 256 * hi.toNat) :: words rest
  | [last] => [last.toNat]
  | [] => []

def total (dat : Bytes) : Nat := (words dat).sum

/-- What the checksums are meant to be. -/
def onesComplementSum (dat : Bytes) : Nat := 65535 - carrySum 65536 (words dat)

/-- The second fold of a sum carries out of its 16 bits. -/
def CarryLost (chkSum : Nat) : Prop := 65536 ≤ fold 65536 (fold 65536 chkSum)

instance (chkSum : Nat) : Decidable (CarryLost chkSum) :=
  inferInstanceAs (Decidable (65536 ≤ fold 65536 (fold 65536 chkSum)))

theorem total_cons (lo hi : UInt8) (rest : Bytes) :
    total (lo :: hi :: rest) = lo.toNat + 256 * hi.toNat + total rest :=
  List.sum_cons

theorem total_last (last : UInt8) : total [last] = last.toNat :=
  List.sum_singleton

theorem words_lt (dat : Bytes) : ∀ w ∈ words dat, w < 65536 := by
  induction dat using words.induct with
  | case1 lo hi rest ih =>
      have low := lo.toNat_lt
      have high := hi.toNat_lt
      exact List.forall_mem_cons.mpr ⟨by omega, ih⟩
  | case2 last =>
      have small := last.toNat_lt
      exact List.forall_mem_singleton.mpr (by omega)
  | case3 => exact List.forall_mem_nil _

theorem total_le (dat : Bytes) : total dat ≤ 65535 * (dat.length / 2) + 255 * (dat.length % 2) := by
  induction dat using words.induct with
  | case1 lo hi rest ih =>
      have low := lo.toNat_lt
      have high := hi.toNat_lt
      rw [total_cons, List.length_cons, List.length_cons]
      omega
  | case2 last =>
      have small := last.toNat_lt
      rw [total_last, List.length_singleton]
      omega
  | case3 => exact Nat.zero_le _

theorem total_lt_of_fits {dat : Bytes} (fits : dat.length ≤ RUNNV_SIZE) : total dat < 0x1000000000 := by
  have bound := total_le dat
  unfold RUNNV_SIZE at fits
  omega

theorem total_lt_of_short {dat : Bytes} (short : dat.length ≤ 131074) : total dat < 0x100000000 := by
  have bound := total_le dat
  omega

theorem wordSum_eq {modulus chkSum : Nat} (start : chkSum < modulus) (dat : Bytes) :
    wordSum modulus chkSum dat = (chkSum + total dat) % modulus := by
  induction dat using words.induct generalizing chkSum with
  | case1 lo hi rest ih =>
      rw [wordSum, ih (Nat.mod_lt _ (by omega)), Nat.mod_add_mod, total_cons, Nat.add_assoc chkSum]
  | case2 last => rw [wordSum, total_last]
  | case3 => exact (Nat.mod_eq_of_lt start).symm

/-- The accumulator has room for the second fold. -/
theorem foldSum_eq {modulus chkSum : Nat} (room : 2 * fold 65536 chkSum < modulus) :
    foldSum modulus chkSum = 65535 - fold 65536 (fold 65536 chkSum) % 65536 := by
  have first : (chkSum / 65536 + chkSum % 65536) % modulus = fold 65536 chkSum :=
    Nat.mod_eq_of_lt (by rw [← fold]; omega)
  have second : (fold 65536 chkSum + fold 65536 chkSum / 65536) % modulus =
      fold 65536 chkSum + fold 65536 chkSum / 65536 := Nat.mod_eq_of_lt (by omega)
  have low : (fold 65536 chkSum + fold 65536 chkSum / 65536) % 65536 =
      fold 65536 (fold 65536 chkSum) % 65536 := by
    rw [fold.eq_def 65536 (fold 65536 chkSum)]
    omega
  dsimp only [foldSum]
  rw [first, second, low]

/-- What two folds leave of a sum of less than 36 bits. -/
theorem fold_fold_mod {chkSum : Nat} (bound : chkSum < 0x1000000000) :
    fold 65536 (fold 65536 chkSum) % 65536 =
      if CarryLost chkSum then residue 65536 chkSum - 1 else residue 65536 chkSum := by
  have small : fold 65536 (fold 65536 chkSum) < 2 * 65536 - 1 := by
    unfold fold
    omega
  rw [mod_eq_residue (by omega) small, residue_fold (by omega), residue_fold (by omega)]
  by_cases lost : CarryLost chkSum
  · rw [if_pos lost, if_neg (Nat.not_lt_of_le lost)]
  · rw [if_neg lost, if_pos (Nat.lt_of_not_le lost)]

theorem not_carryLost {chkSum : Nat} (bound : chkSum < 0x100000000) : ¬ CarryLost chkSum := by
  unfold CarryLost fold
  omega

theorem calcChecksum_eq (dat : Bytes) :
    calcChecksum dat = 65535 - residue 65536 (total dat % 0x100000000) := by
  have bound : total dat % 0x100000000 < 0x100000000 := Nat.mod_lt _ (by omega)
  have room : 2 * fold 65536 (total dat % 0x100000000) < 0x100000000 := by
    unfold fold
    omega
  rw [calcChecksum, wordSum_eq (by omega), Nat.zero_add, foldSum_eq room, fold_fold_mod (by omega),
    if_neg (not_carryLost bound)]

theorem calcChecksum64_eq {dat : Bytes} (fits : dat.length ≤ RUNNV_SIZE) :
    calcChecksum64 dat =
      65535 - if CarryLost (total dat) then residue 65536 (total dat) - 1 else residue 65536 (total dat) := by
  have bound := total_lt_of_fits fits
  have room : 2 * fold 65536 (total dat) < 0x10000000000000000 := by
    unfold fold
    omega
  rw [calcChecksum64, wordSum_eq (by omega), Nat.zero_add, Nat.mod_eq_of_lt (by omega),
    foldSum_eq room, fold_fold_mod bound]

theorem onesComplementSum_eq (dat : Bytes) :
    onesComplementSum dat = 65535 - residue 65536 (total dat) := by
  rw [onesComplementSum, carrySum_eq_residue (by omega) (words_lt dat), total]

theorem residue_le (chkSum : Nat) : residue 65536 chkSum ≤ 65535 :=
  Nat.le_of_lt_succ (residue_lt (by omega) chkSum)

theorem residue_pos {chkSum : Nat} (lost : CarryLost chkSum) : 0 < residue 65536 chkSum := by
  apply Nat.pos_of_ne_zero
  intro zero
  rw [residue_eq_zero] at zero
  subst zero
  exact absurd lost (by decide)

/-- The 64-bit checksum is the complement of the end-around-carry sum exactly when no carry
    is lost. -/
theorem calcChecksum64_iff (dat : Bytes) (fits : dat.length ≤ RUNNV_SIZE) :
    calcChecksum64 dat = onesComplementSum dat ↔ ¬ CarryLost (total dat) := by
  rw [calcChecksum64_eq fits, onesComplementSum_eq]
  have bound := residue_le (total dat)
  split
  · rename_i lost
    have positive := residue_pos lost
    refine iff_of_false ?_ (not_not_intro lost)
    omega
  · rename_i kept
    exact iff_of_true rfl kept

/-- A buffer of words 0xFFFF, and what follows them. -/
def ones (count : Nat) (rest : Bytes) : Bytes := List.replicate (2 * count) 0xFF ++ rest

theorem ones_length (count : Nat) (rest : Bytes) :
    (ones count rest).length = 2 * count + rest.length := by
  rw [ones, List.length_append, List.length_replicate]

theorem total_ones (count : Nat) (rest : Bytes) :
    total (ones count rest) = 65535 * count + total rest := by
  induction count with
  | zero => rw [ones, List.replicate_zero, List.nil_append, Nat.mul_zero, Nat.zero_add]
  | succ count ih =>
      have byte : (0xFF : UInt8).toNat = 255 := rfl
      have step : ones (count + 1) rest = 0xFF :: 0xFF :: ones count rest := rfl
      rw [step, total_cons, ih, byte]
      omega

/-- A byte 1 behind 65538 words 0xFFFF: the second fold of their sum carries. -/
theorem calcChecksum64_loses_carry :
    ¬ ∀ dat : Bytes, dat.length ≤ RUNNV_SIZE → calcChecksum64 dat = onesComplementSum dat := by
  intro always
  have fits : (ones 65538 [1]).length ≤ RUNNV_SIZE := by
    rw [ones_length]
    decide
  have lost : CarryLost (total (ones 65538 [1])) := by
    rw [total_ones]
    decide
  have same := always _ fits
  rw [calcChecksum64_eq fits, if_pos lost, onesComplementSum_eq, total_ones] at same
  exact absurd same (by decide)

/-- A buffer of two words, which has nothing to carry. -/
theorem calcChecksum64_two_words : calcChecksum64 [1, 2, 3, 4] = onesComplementSum [1, 2, 3, 4] :=
  (calcChecksum64_iff [1, 2, 3, 4] (by decide)).mpr (by decide)

/-- The two checksums agree up to 131074 bytes, and no further. -/
theorem checksums_agree :
    (∀ dat : Bytes, dat.length ≤ 131074 →
      calcChecksum dat = calcChecksum64 dat ∧ calcChecksum64 dat = onesComplementSum dat) ∧
    ∃ dat : Bytes, dat.length = 131075 ∧ calcChecksum dat ≠ calcChecksum64 dat := by
  constructor
  · intro dat short
    have bound := total_lt_of_short short
    have fits : dat.length ≤ RUNNV_SIZE := Nat.le_trans short (by decide)
    have kept := not_carryLost bound
    rw [calcChecksum_eq, calcChecksum64_eq fits, if_neg kept, Nat.mod_eq_of_lt bound,
      onesComplementSum_eq]
    exact ⟨rfl, rfl⟩
  · refine ⟨ones 65537 [1], ones_length 65537 [1], ?_⟩
    have fits : (ones 65537 [1]).length ≤ RUNNV_SIZE := by
      rw [ones_length]
      decide
    rw [calcChecksum_eq, calcChecksum64_eq fits, total_ones]
    decide

theorem checksums_agree_three :
    calcChecksum [1, 2, 3] = calcChecksum64 [1, 2, 3] ∧
      calcChecksum64 [1, 2, 3] = onesComplementSum [1, 2, 3] :=
  checksums_agree.1 [1, 2, 3] (by decide)

end ModemControl.Nv
