import ModemControl.Checksum

/-! # One corrupted byte of an NV payload

A copy is accepted when either checksum is the stored one. Replacing a byte changes the
sum of the words by less than a full turn of the end-around sum, so neither checksum can
stay what it was. The payload can move from matching the one to matching the other, when
the sum is of more than 32 bits.
-/

namespace ModemControl.Nv

open Foundation OnesComplement

/-- What the 32-bit accumulator makes of a sum of words. -/
def value32 (sum : Nat) : Nat := residue 65536 (sum % 0x100000000)

/-- What the 64-bit accumulator makes of it. -/
def value64 (sum : Nat) : Nat :=
  if CarryLost sum then residue 65536 sum - 1 else residue 65536 sum

/-- Sums before and after the replacement of one byte. -/
structure Near (s t : Nat) : Prop where
  other : s ≠ t
  below : s ≤ t + 65280
  above : t ≤ s + 65280
  small : s < 0x1000000000
  small' : t < 0x1000000000

theorem Near.symm {s t : Nat} (near : Near s t) : Near t s :=
  ⟨near.other.symm, near.above, near.below, near.small', near.small⟩

/-- The low 32 bits of `s` make the same of it as two folds do of `t`: that is less than
    `s` by what the accumulator dropped, and by one less if a carry is lost. -/
def Crosses (s t : Nat) : Prop :=
  if CarryLost t then
    t = s - s / 0x100000000 + 1 ∧ (0x100000000 ∣ s ∨ ¬ 65535 ∣ s - s / 0x100000000)
  else t = s - s / 0x100000000 ∧ ¬ 0x100000000 ∣ s

instance (s t : Nat) : Decidable (Crosses s t) :=
  inferInstanceAs (Decidable (if CarryLost t then _ else _))

theorem residue_eq {x y : Nat} :
    residue 65536 x = residue 65536 y ↔ (x = 0 ↔ y = 0) ∧ x % 65535 = y % 65535 :=
  residue_eq_iff (by omega)

/-- Near sums that stand for the same number, one of them one lower, differ by that one. -/
theorem Near.pred {s t : Nat} (near : Near s t) (zero : t ≠ 0)
    (same : residue 65536 s - 1 = residue 65536 t) : s = t + 1 ∧ 2 ≤ residue 65536 s := by
  obtain ⟨other, below, above, small, small'⟩ := near
  unfold residue at same ⊢
  split_ifs at same ⊢
  omega

theorem carryLost_pred {t : Nat} (carries : 65537 ≤ fold 65536 (fold 65536 (t + 1))) : CarryLost t := by
  simp only [CarryLost, fold] at *
  omega

theorem value32_ne {s t : Nat} (near : Near s t) : value32 s ≠ value32 t := by
  obtain ⟨other, below, above, small, small'⟩ := near
  unfold value32
  rw [Ne, residue_eq]
  rintro ⟨zero, same⟩
  have turns := Nat.div_add_mod s 0x100000000
  have turns' := Nat.div_add_mod t 0x100000000
  have low := Nat.mod_lt s (show 0 < 0x100000000 by omega)
  have low' := Nat.mod_lt t (show 0 < 0x100000000 by omega)
  generalize s % 0x100000000 = r at *
  generalize t % 0x100000000 = r' at *
  generalize s / 0x100000000 = k at *
  generalize t / 0x100000000 = k' at *
  have close : k = k' ∨ k = k' + 1 ∨ k' = k + 1 := by omega
  rcases close with rfl | rfl | rfl
  · omega
  · omega
  · omega

/-- Where a carry is lost, the second fold tells what the sum stands for. -/
theorem fold_fold_of_lost {sum : Nat} (bound : sum < 0x1000000000) (lost : CarryLost sum) :
    fold 65536 (fold 65536 sum) = 65535 + residue 65536 sum := by
  have low := fold_fold_mod bound
  have positive := residue_pos lost
  have below := residue_le sum
  have small : fold 65536 (fold 65536 sum) < 131071 := by
    simp only [fold]
    omega
  rw [if_pos lost] at low
  unfold CarryLost at lost
  omega

/-- The carry is lost of a sum and not of a near one: they do not stand for the same. -/
theorem lost_ne {s t : Nat} (near : Near s t) (lost : CarryLost s) (kept : ¬ CarryLost t) :
    residue 65536 s - 1 ≠ residue 65536 t := by
  intro same
  have large : 0x100000000 ≤ s := by
    by_contra small
    exact not_carryLost (Nat.lt_of_not_le small) lost
  have below := near.below
  obtain ⟨rfl, two⟩ := near.pred (by omega) same
  apply kept
  apply carryLost_pred
  rw [fold_fold_of_lost near.small lost]
  omega

theorem value64_ne {s t : Nat} (near : Near s t) : value64 s ≠ value64 t := by
  have same : residue 65536 s ≠ residue 65536 t := by
    obtain ⟨other, below, above, small, small'⟩ := near
    rw [Ne, residue_eq]
    omega
  unfold value64
  split_ifs with lostS lostT lostT
  · have positive := residue_pos lostS
    have positive' := residue_pos lostT
    omega
  · exact lost_ne near lostS lostT
  · exact (lost_ne near.symm lostT lostS).symm
  · exact same

theorem value32_eq_value64_iff {s t : Nat} (near : Near s t) : value32 s = value64 t ↔ Crosses s t := by
  obtain ⟨other, below, above, small, small'⟩ := near
  unfold value32 value64 Crosses
  split_ifs with lost
  · have large : 0x100000000 ≤ t := by
      by_contra small
      exact not_carryLost (Nat.lt_of_not_le small) lost
    have turns := Nat.div_add_mod s 0x100000000
    have low := Nat.mod_lt s (show 0 < 0x100000000 by omega)
    rw [Nat.dvd_iff_mod_eq_zero]
    generalize s % 0x100000000 = r at *
    generalize s / 0x100000000 = k at *
    unfold residue
    split_ifs
    · omega
    · omega
    · omega
    · omega
  · rw [residue_eq]
    omega

/-- What a byte at an index counts in its word. -/
def place (i : Nat) : Nat := if i % 2 = 0 then 1 else 256

theorem place_zero : place 0 = 1 := rfl

theorem place_one : place 1 = 256 := rfl

theorem place_add_two (i : Nat) : place (i + 2) = place i := by
  rw [place, place, Nat.add_mod_right]

theorem total_set (dat : Bytes) (i : Nat) (inside : i < dat.length) (b : UInt8) :
    total (dat.set i b) + place i * dat[i].toNat = total dat + place i * b.toNat := by
  induction dat using words.induct generalizing i with
  | case1 lo hi rest ih =>
      cases i with
      | zero =>
          simp only [List.set_cons_zero, total_cons, List.getElem_cons_zero, place_zero]
          omega
      | succ i =>
          cases i with
          | zero =>
              simp only [Nat.zero_add, List.set_cons_succ, List.set_cons_zero, total_cons,
                List.getElem_cons_succ, List.getElem_cons_zero, place_one]
              omega
          | succ i =>
              have later := ih i (by simpa using inside)
              simp only [List.set_cons_succ, total_cons, List.getElem_cons_succ, place_add_two]
              omega
  | case2 last =>
      obtain rfl : i = 0 := by simpa using inside
      simp only [List.set_cons_zero, total_last, List.getElem_cons_zero, place_zero]
      omega
  | case3 => exact absurd inside (Nat.not_lt_zero i)

theorem near_set {dat : Bytes} (fits : dat.length ≤ RUNNV_SIZE) {i : Nat} (inside : i < dat.length)
    {b : UInt8} (other : b ≠ dat[i]) : Near (total dat) (total (dat.set i b)) := by
  have change := total_set dat i inside b
  have byte := b.toNat_lt
  have byte' := dat[i].toNat_lt
  have differs : b.toNat ≠ dat[i].toNat := fun same => other (UInt8.toNat_inj.mp same)
  have small := total_lt_of_fits fits
  have small' : total (dat.set i b) < 0x1000000000 :=
    total_lt_of_fits (Nat.le_trans (Nat.le_of_eq List.length_set) fits)
  unfold place at change
  split at change
  · exact ⟨by omega, by omega, by omega, small, small'⟩
  · exact ⟨by omega, by omega, by omega, small, small'⟩

theorem calcChecksum_value32 (dat : Bytes) : calcChecksum dat = 65535 - value32 (total dat) :=
  calcChecksum_eq dat

theorem calcChecksum64_value64 {dat : Bytes} (fits : dat.length ≤ RUNNV_SIZE) :
    calcChecksum64 dat = 65535 - value64 (total dat) :=
  calcChecksum64_eq fits

theorem value32_le (sum : Nat) : value32 sum ≤ 65535 := residue_le _

theorem value64_le (sum : Nat) : value64 sum ≤ 65535 := by
  have bound := residue_le sum
  unfold value64
  split <;> omega

/-- The payload matches one checksum, and matches the other with the byte replaced. -/
def MovesBetween (header payload : Bytes) (i : Nat) (b : UInt8) : Prop :=
  (nvHeader header).checksum = calcChecksum payload ∧
      Crosses (total payload) (total (payload.set i b)) ∨
    (nvHeader header).checksum = calcChecksum64 payload ∧
      Crosses (total (payload.set i b)) (total payload)

instance (header payload : Bytes) (i : Nat) (b : UInt8) :
    Decidable (MovesBetween header payload i b) :=
  inferInstanceAs (Decidable (_ ∧ _ ∨ _ ∧ _))

theorem checks_iff (header buf : Bytes) :
    checks header buf = true ↔ (nvHeader header).magic = MAGIC ∧
      (calcChecksum buf = (nvHeader header).checksum ∨
        calcChecksum64 buf = (nvHeader header).checksum) := by
  simp only [checks, Bool.and_eq_true, Bool.or_eq_true, beq_iff_eq]

/-- A copy that is accepted is no longer accepted with one byte of its payload replaced,
    unless this moves the payload between the two checksums. -/
theorem corruption_detected_iff (header payload : Bytes) (accepted : checks header payload = true)
    (fits : payload.length ≤ RUNNV_SIZE) (i : Nat) (inside : i < payload.length) (b : UInt8)
    (other : b ≠ payload[i]) :
    checks header (payload.set i b) = false ↔ ¬ MovesBetween header payload i b := by
  have near := near_set fits inside other
  have fits' : (payload.set i b).length ≤ RUNNV_SIZE :=
    Nat.le_trans (Nat.le_of_eq List.length_set) fits
  obtain ⟨magic, stored⟩ := (checks_iff header payload).mp accepted
  rw [← Bool.not_eq_true, not_iff_not, checks_iff, MovesBetween, ← value32_eq_value64_iff near,
    ← value32_eq_value64_iff near.symm]
  have other32 := value32_ne near
  have other64 := value64_ne near
  simp only [calcChecksum_value32, calcChecksum64_value64 fits, calcChecksum64_value64 fits'] at *
  have le₁ := value32_le (total payload)
  have le₂ := value64_le (total payload)
  have le₃ := value32_le (total (payload.set i b))
  have le₄ := value64_le (total (payload.set i b))
  omega

/-- The header sector of a payload with this length and this checksum. -/
def headerSector (len checksum : Bytes) : Bytes :=
  [0x56, 0x4e, 0, 0] ++ len ++ checksum ++ List.replicate 500 0

/-- In a payload of two bytes a replaced one is noticed. -/
theorem corruption_detected_two_bytes :
    checks (headerSector [2, 0, 0, 0] [0xFE, 0xFD, 0, 0]) ([1, 2].set 0 5) = false :=
  (corruption_detected_iff (headerSector [2, 0, 0, 0] [0xFE, 0xFD, 0, 0]) [1, 2] (by decide) (by decide)
    0 (by decide) 5 (by decide)).mpr (by decide)

/-- Where two last bytes are accepted, the change of one to the other goes unnoticed. -/
theorem ones_unnoticed {header : Bytes} {count : Nat} {last b : UInt8} (other : b ≠ last)
    (accepted : checks header (ones count [b]) = true) :
    ¬ ∀ (i : Nat) (inside : i < (ones count [last]).length) (b : UInt8), b ≠ (ones count [last])[i] →
      checks header ((ones count [last]).set i b) = false := by
  intro always
  have inside : 2 * count < (ones count [last]).length := by
    rw [ones_length, List.length_singleton]
    omega
  have here : (ones count [last])[2 * count] = last := by
    simp [ones, List.getElem_append_right]
  have moved : (ones count [last]).set (2 * count) b = ones count [b] := by
    simp [ones, List.set_append_right]
  have rejected := always (2 * count) inside b (by rw [here]; exact other)
  rw [moved, accepted] at rejected
  cases rejected

theorem ones_fits (last : UInt8) : (ones 65537 [last]).length ≤ RUNNV_SIZE := by
  rw [ones_length, List.length_singleton]
  decide

/-- The header of a payload of 131075 bytes with the checksum 0xFFFE. -/
def longHeader : Bytes := headerSector [3, 0, 2, 0] [0xFE, 0xFF, 0, 0]

theorem checks_two : checks longHeader (ones 65537 [2]) = true := by
  refine (checks_iff _ _).mpr ⟨rfl, Or.inl ?_⟩
  rw [calcChecksum_value32, total_ones]
  decide

theorem checks_one : checks longHeader (ones 65537 [1]) = true := by
  refine (checks_iff _ _).mpr ⟨rfl, Or.inr ?_⟩
  rw [calcChecksum64_value64 (ones_fits 1), total_ones]
  decide

/-- The words 0xFFFF and then a byte 2 overflow the 32-bit accumulator by one. With a byte 1
    there the 64-bit checksum is what the 32-bit one was. -/
theorem corruption_accepted :
    ¬ ∀ header payload : Bytes, checks header payload = true → payload.length ≤ RUNNV_SIZE →
      ∀ (i : Nat) (inside : i < payload.length) (b : UInt8), b ≠ payload[i] →
        checks header (payload.set i b) = false := by
  intro always
  exact ones_unnoticed (by decide) checks_one (always longHeader _ checks_two (ones_fits 2))

end ModemControl.Nv
