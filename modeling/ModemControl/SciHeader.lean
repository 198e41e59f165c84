import ModemControl.ImgInfo

/-! # What get_modem_img_info finds in the headers

The loop keeps two sentinels. Without a last header, without a modem header before it, or
where a value comes out as the sentinel, it ends with outputs that nothing has assigned.
-/

namespace ModemControl.ImgInfo

open Foundation Load

/-- The first last header is `l`, and the last modem header up to it is `m`. -/
structure Layout (hdrBuf : Bytes) (m l : Nat) : Prop where
  inside : l < HDR_NUM
  isLast : (header hdrBuf l).isLast = true
  first : ∀ j, 1 ≤ j → j < l → (header hdrBuf j).isLast = false
  from_ : 1 ≤ m
  upTo : m ≤ l
  isModemBin : (header hdrBuf m).isModemBin = true
  none : ∀ j, m < j → j ≤ l → (header hdrBuf j).isModemBin = false

/-- What the headers from `i` to `stop` make of the variables for the executable. -/
def TookBins (hdrBuf : Bytes) (i stop : Nat) (s s' : Scan) : Prop :=
  (∃ m, i ≤ m ∧ m ≤ stop ∧ (header hdrBuf m).isModemBin = true ∧
      (∀ j, m < j → j ≤ stop → (header hdrBuf j).isModemBin = false) ∧
      s'.modemOffset = (header hdrBuf m).modemOffset ∧
      s'.modemExeSize = some (header hdrBuf m).modemExeSize) ∨
    (∀ j, i ≤ j → j ≤ stop → (header hdrBuf j).isModemBin = false) ∧
      s'.modemOffset = s.modemOffset ∧ s'.modemExeSize = s.modemExeSize

/-- Where the loop from header `i` on ends: at the first last header, or at the end. -/
inductive Ends (hdrBuf : Bytes) (i : Nat) (s s' : Scan) (stop : Nat) : Prop where
  | last (from_ : i ≤ stop) (inside : stop < HDR_NUM)
      (isLast : (header hdrBuf stop).isLast = true)
      (first : ∀ j, i ≤ j → j < stop → (header hdrBuf j).isLast = false)
      (len : s'.imageLen = (header hdrBuf stop).imageLen)
  | all (stop_eq : stop + 1 = HDR_NUM)
      (none : ∀ j, i ≤ j → j < HDR_NUM → (header hdrBuf j).isLast = false)
      (len : s'.imageLen = s.imageLen)

/-- What the loop from header `i` on leaves. -/
def Scanned (hdrBuf : Bytes) (i : Nat) (s s' : Scan) : Prop :=
  ∃ stop, Ends hdrBuf i s s' stop ∧ TookBins hdrBuf i stop s s'

section

variable {hdrBuf : Bytes}

theorem takeModemBin_imageLen (h : DataBlockHeader) (s : Scan) :
    (takeModemBin h s).imageLen = s.imageLen := by
  unfold takeModemBin
  split <;> rfl

/-- One header alone. -/
theorem tookBins_one (i : Nat) (s : Scan) :
    TookBins hdrBuf i i s (takeModemBin (header hdrBuf i) s) := by
  unfold takeModemBin
  cases bin : (header hdrBuf i).isModemBin with
  | true =>
      refine Or.inl ⟨i, Nat.le_refl i, Nat.le_refl i, bin, ?_, rfl, rfl⟩
      intro j above upTo
      omega
  | false =>
      refine Or.inr ⟨?_, rfl, rfl⟩
      intro j from_ upTo
      obtain rfl : j = i := by omega
      exact bin

/-- No header. -/
theorem tookBins_none {i stop : Nat} (below : stop < i) (s : Scan) : TookBins hdrBuf i stop s s := by
  refine Or.inr ⟨?_, rfl, rfl⟩
  intro j from_ upTo
  omega

/-- One header and then the others. -/
theorem tookBins_cons {i stop : Nat} (more : i ≤ stop) {s s' : Scan}
    (later : TookBins hdrBuf (i + 1) stop (takeModemBin (header hdrBuf i) s) s') :
    TookBins hdrBuf i stop s s' := by
  rcases later with ⟨m, from_, upTo, bin, none, offset, size⟩ | ⟨none, offset, size⟩
  · exact Or.inl ⟨m, by omega, upTo, bin, none, offset, size⟩
  · rcases tookBins_one i s with ⟨m, from_, upTo, bin, _, first⟩ | ⟨not, first⟩
    · obtain rfl : m = i := by omega
      exact Or.inl ⟨m, Nat.le_refl m, by omega, bin, none, offset.trans first.1, size.trans first.2⟩
    · refine Or.inr ⟨?_, offset.trans first.1, size.trans first.2⟩
      intro j from_ upTo
      rcases Nat.eq_or_lt_of_le from_ with rfl | above
      · exact not i (Nat.le_refl i) (Nat.le_refl i)
      · exact none j above upTo

/-- One header that is not the last one, and then the others. -/
theorem ends_cons {i stop : Nat} {s s' : Scan} (not : (header hdrBuf i).isLast = false)
    (later : Ends hdrBuf (i + 1) (takeModemBin (header hdrBuf i) s) s' stop) :
    Ends hdrBuf i s s' stop := by
  cases later with
  | last from_ inside isLast first len =>
      refine .last (by omega) inside isLast ?_ len
      intro j fromJ before
      rcases Nat.eq_or_lt_of_le fromJ with rfl | above
      · exact not
      · exact first j above before
  | all stop_eq none len =>
      refine .all stop_eq ?_ (len.trans (takeModemBin_imageLen _ s))
      intro j fromJ inside
      rcases Nat.eq_or_lt_of_le fromJ with rfl | above
      · exact not
      · exact none j above inside

theorem Ends.from_le {i stop : Nat} {s s' : Scan} (ends : Ends hdrBuf i s s' stop)
    (inside : i < HDR_NUM) : i ≤ stop := by
  cases ends with
  | last from_ => exact from_
  | all stop_eq => omega

theorem scanHeaders_scanned {left i : Nat} (room : left + i = HDR_NUM) (s : Scan) :
    Scanned hdrBuf i s (scanHeaders hdrBuf left i s) := by
  induction left generalizing i s with
  | zero =>
      refine ⟨HDR_NUM - 1, .all rfl ?_ rfl, tookBins_none (by simp only [HDR_NUM] at *; omega) s⟩
      intro j from_ inside
      omega
  | succ left ih =>
      rw [scanHeaders]
      cases last : (header hdrBuf i).isLast with
      | true =>
          refine ⟨i, .last (Nat.le_refl i) (by omega) last ?_ rfl, tookBins_one i s⟩
          intro j from_ before
          omega
      | false =>
          have next : left + (i + 1) = HDR_NUM := by omega
          rw [if_neg Bool.false_ne_true]
          obtain ⟨stop, ends, bins⟩ := ih next (takeModemBin (header hdrBuf i) s)
          have all := ends_cons last ends
          exact ⟨stop, all, tookBins_cons (all.from_le (by omega)) bins⟩

/-- The variables after the loop over all headers. -/
def scanned (hdrBuf : Bytes) : Scan := scanHeaders hdrBuf (HDR_NUM - 1) 1 {}

theorem scanned_spec (hdrBuf : Bytes) : Scanned hdrBuf 1 {} (scanned hdrBuf) := by
  have all : HDR_NUM - 1 + 1 = HDR_NUM := rfl
  exact scanHeaders_scanned all {}

theorem sciInfo_eq (hdrBuf : Bytes) :
    sciInfo hdrBuf =
      if (scanned hdrBuf).modemOffset = -1 then ⟨0, some 1, none, (scanned hdrBuf).modemExeSize⟩
      else if (scanned hdrBuf).imageLen = -1 then ⟨0, some 1, none, (scanned hdrBuf).modemExeSize⟩
      else ⟨(scanned hdrBuf).modemOffset, some 1, some ((scanned hdrBuf).imageLen.signExtend 64),
        (scanned hdrBuf).modemExeSize⟩ :=
  rfl

theorem sciInfo_modemExeSize (hdrBuf : Bytes) :
    (sciInfo hdrBuf).modemExeSize = (scanned hdrBuf).modemExeSize := by
  rw [sciInfo_eq]
  split_ifs <;> rfl

theorem scanned_layout {m l : Nat} (layout : Layout hdrBuf m l) :
    (scanned hdrBuf).imageLen = (header hdrBuf l).imageLen ∧
      (scanned hdrBuf).modemOffset = (header hdrBuf m).modemOffset ∧
      (scanned hdrBuf).modemExeSize = some (header hdrBuf m).modemExeSize := by
  have fromL := layout.from_
  have upTo := layout.upTo
  obtain ⟨stop, ends, bins⟩ := scanned_spec hdrBuf
  cases ends with
  | last from_ inside isLast first len =>
      obtain rfl : stop = l := by
        apply Nat.le_antisymm
        · by_contra after
          have not := first l (by omega) (by omega)
          exact Bool.false_ne_true (not.symm.trans layout.isLast)
        · by_contra before
          have not := layout.first stop from_ (by omega)
          exact Bool.false_ne_true (not.symm.trans isLast)
      refine ⟨len, ?_⟩
      rcases bins with ⟨m', fromM, upToM, bin, none, took⟩ | ⟨none, _⟩
      · obtain rfl : m' = m := by
          apply Nat.le_antisymm
          · by_contra after
            have not := layout.none m' (by omega) upToM
            exact Bool.false_ne_true (not.symm.trans bin)
          · by_contra before
            have not := none m (by omega) upTo
            exact Bool.false_ne_true (not.symm.trans layout.isModemBin)
        exact took
      · have not := none m fromL upTo
        exact absurd (not.symm.trans layout.isModemBin) Bool.false_ne_true
  | all _ none _ =>
      have not := none l (by omega) layout.inside
      exact absurd (not.symm.trans layout.isLast) Bool.false_ne_true

/-- Both sentinels are gone only when there is a modem header up to a last one. -/
theorem layout_of_scanned (offset : (scanned hdrBuf).modemOffset ≠ -1)
    (len : (scanned hdrBuf).imageLen ≠ -1) : ∃ m l, Layout hdrBuf m l := by
  obtain ⟨stop, ends, bins⟩ := scanned_spec hdrBuf
  cases ends with
  | last from_ inside isLast first _ =>
      rcases bins with ⟨m, fromM, upToM, bin, none, _⟩ | ⟨_, same, _⟩
      · exact ⟨m, stop, inside, isLast, first, fromM, upToM, bin, none⟩
      · exact absurd same offset
  | all _ _ same => exact absurd same len

/-- The loop comes to a header: there is no last one before it. -/
structure Reached (hdrBuf : Bytes) (i : Nat) : Prop where
  from_ : 1 ≤ i
  inside : i < HDR_NUM
  open_ : ∀ j, 1 ≤ j → j < i → (header hdrBuf j).isLast = false

/-- The last modem header the loop comes to. -/
structure LastBin (hdrBuf : Bytes) (m : Nat) : Prop where
  reached : Reached hdrBuf m
  isModemBin : (header hdrBuf m).isModemBin = true
  none : ∀ j, m < j → Reached hdrBuf j → (header hdrBuf j).isModemBin = false

theorem reached_iff {s s' : Scan} {stop i : Nat} (ends : Ends hdrBuf 1 s s' stop) :
    Reached hdrBuf i ↔ 1 ≤ i ∧ i ≤ stop := by
  constructor
  · intro reached
    refine ⟨reached.from_, ?_⟩
    cases ends with
    | last from_ _ isLast =>
        by_contra beyond
        have not := reached.open_ stop from_ (by omega)
        exact Bool.false_ne_true (not.symm.trans isLast)
    | all stop_eq =>
        have inside := reached.inside
        omega
  · intro between
    cases ends with
    | last _ inside _ first =>
        exact ⟨between.1, by omega, fun j from_ before => first j from_ (by omega)⟩
    | all stop_eq none =>
        exact ⟨between.1, by omega, fun j from_ before => none j from_ (by omega)⟩

/-- The size is that of the last modem header the loop comes to, and without one it is not
    assigned. -/
theorem scanned_modemExeSize (hdrBuf : Bytes) :
    (∃ m, LastBin hdrBuf m ∧ (scanned hdrBuf).modemExeSize = some (header hdrBuf m).modemExeSize) ∨
      (∀ m, ¬ LastBin hdrBuf m) ∧ (scanned hdrBuf).modemExeSize = none := by
  obtain ⟨stop, ends, bins⟩ := scanned_spec hdrBuf
  have reached : ∀ i, Reached hdrBuf i ↔ 1 ≤ i ∧ i ≤ stop := fun i => reached_iff ends
  rcases bins with ⟨m, from_, upTo, bin, none, _, size⟩ | ⟨none, _, size⟩
  · refine Or.inl ⟨m, ⟨(reached m).mpr ⟨from_, upTo⟩, bin, ?_⟩, size⟩
    intro j behind there
    exact none j behind ((reached j).mp there).2
  · refine Or.inr ⟨?_, size⟩
    intro m last
    have between := (reached m).mp last.reached
    exact Bool.false_ne_true ((none m between.1 between.2).symm.trans last.isModemBin)

theorem lastBin_unique {m m' : Nat} (last : LastBin hdrBuf m) (last' : LastBin hdrBuf m') :
    m = m' := by
  apply Nat.le_antisymm
  · by_contra after
    have not := last'.none m (by omega) last.reached
    exact Bool.false_ne_true (not.symm.trans last.isModemBin)
  · by_contra before
    have not := last.none m' (by omega) last'.reached
    exact Bool.false_ne_true (not.symm.trans last'.isModemBin)

/-- Neither value comes out as the sentinel. -/
structure Apart (hdrBuf : Bytes) (m l : Nat) : Prop where
  offset : (header hdrBuf m).modemOffset ≠ -1
  len : (header hdrBuf l).imageLen ≠ -1

theorem sciInfo_apart {m l : Nat} (layout : Layout hdrBuf m l) (apart : Apart hdrBuf m l) :
    sciInfo hdrBuf = ⟨(header hdrBuf m).modemOffset, some 1,
      some ((header hdrBuf l).imageLen.signExtend 64), some (header hdrBuf m).modemExeSize⟩ := by
  obtain ⟨len, offset, size⟩ := scanned_layout layout
  rw [sciInfo_eq, len, offset, size, if_neg apart.offset, if_neg apart.len]

/-- Without all this the length of the image is not assigned. -/
theorem sciInfo_totalLen (not : ∀ m l, Layout hdrBuf m l → ¬ Apart hdrBuf m l) :
    (sciInfo hdrBuf).totalLen = none := by
  rw [sciInfo_eq]
  split_ifs with offset len
  · rfl
  · rfl
  · obtain ⟨m, l, layout⟩ := layout_of_scanned offset len
    obtain ⟨sameLen, sameOffset, _⟩ := scanned_layout layout
    exact absurd ⟨sameOffset ▸ offset, sameLen ▸ len⟩ (not m l layout)

end

end ModemControl.ImgInfo
