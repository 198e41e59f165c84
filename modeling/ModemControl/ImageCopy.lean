import ModemControl.ImageFiles

/-! # The copy of an image

What `modem_load_image` has copied when it returns, whatever reads and writes come to. The
loop takes what was read off its counter, not what was written.
-/

namespace ModemControl.LoadFiles

open Foundation Load

/-- These bytes were read and handed to the writes, which may have dropped some of them. -/
structure Moved (s s' : Files) (data : Bytes) : Prop where
  input : s'.input = s.input
  inPos : s'.pos .fdin = s.pos .fdin + data.length
  ahead : data <+: s.ahead
  seekFailed : s'.seekFailed = s.seekFailed
  most : s'.written.length ≤ s.written.length + data.length
  short : s'.short .fdout = true →
    s.short .fdout = true ∨ s'.written.length < s.written.length + data.length
  put : Put .fdout s s' data
  log : s'.short .fdout = false → s'.written = s.written ++ data.zipIdx (s.pos .fdout)

section

variable {s s₁ s' : Files} {x y data : Bytes}

theorem Moved.ahead_eq (moved : Moved s s' data) : s'.ahead = s.ahead.drop data.length := by
  unfold Files.ahead Files.content
  rw [moved.input, moved.inPos, List.drop_drop]

theorem Moved.trans (first : Moved s s₁ x) (second : Moved s₁ s' y) : Moved s s' (x ++ y) where
  input := second.input.trans first.input
  inPos := by rw [second.inPos, first.inPos, List.length_append, Nat.add_assoc]
  ahead := by
    obtain ⟨rest, whole⟩ := first.ahead
    have behind := second.ahead
    rw [first.ahead_eq, ← whole, List.drop_left] at behind
    rw [← whole]
    exact (List.prefix_append_right_inj x).mpr behind
  seekFailed := second.seekFailed.trans first.seekFailed
  most := by
    have firstMost := first.most
    have secondMost := second.most
    rw [List.length_append]
    omega
  short := by
    intro short
    have firstMost := first.most
    have secondMost := second.most
    rw [List.length_append]
    rcases second.short short with before | fewer
    · rcases first.short before with start | fewer
      · exact Or.inl start
      · exact Or.inr (by omega)
    · exact Or.inr (by omega)
  put := first.put.trans second.put
  log := by
    intro complete
    obtain ⟨middle, _, _⟩ := second.put complete
    obtain ⟨_, pos, _⟩ := first.put middle
    rw [second.log complete, first.log middle, pos, List.zipIdx_append, List.append_assoc]

theorem moved_nil (input : s'.input = s.input) (pos : s'.pos = s.pos)
    (seekFailed : s'.seekFailed = s.seekFailed) (written : s'.written = s.written)
    (short : s'.short = s.short) (region : s'.region = s.region) : Moved s s' [] where
  input := input
  inPos := by rw [pos]; rfl
  ahead := List.nil_prefix
  seekFailed := seekFailed
  most := by rw [written]; exact Nat.le_refl _
  short := by
    intro shortAfter
    rw [short] at shortAfter
    exact Or.inl shortAfter
  put := put_nil pos short region
  log := by
    intro _
    rw [written]
    exact (List.append_nil _).symm

/-- A read and the write of what it got. -/
theorem moved_one {data : Bytes} {count : Int} (some : 0 < data.length)
    (ahead : data <+: s.ahead) (bound : count ≤ data.length) :
    Moved s ((s.moveTo .fdin (s.pos .fdin + data.length)).wrote .fdout data count) data where
  input := rfl
  inPos := Function.update_self Fd.fdin _ s.pos
  ahead := ahead
  seekFailed := rfl
  most := by
    simp only [Files.wrote, Files.moveTo, if_true, List.length_append, List.length_zipIdx,
      List.length_take]
    omega
  short := by
    simp only [Files.wrote, Files.moveTo, if_true, List.length_append, List.length_zipIdx,
      List.length_take, Function.update_self, Bool.or_eq_true, bne_iff_ne]
    intro short
    rcases short with before | fewer
    · exact Or.inl before
    · exact Or.inr (by omega)
  put := by
    intro complete
    obtain ⟨start, pos, region⟩ := put_wrote _ _ _ _ complete
    exact ⟨start, pos, region⟩
  log := by
    intro complete
    rw [wrote_short_eq, Bool.or_eq_false_iff, bne_eq_false_iff_eq] at complete
    obtain ⟨_, rfl⟩ := complete
    simp only [Files.wrote, Int.toNat_natCast, List.take_length]
    rfl

end

/-- How the loop ends: with all bytes, at the end of the file, or where a call failed. -/
structure Finished (size : Nat) (ret : Int) (s' : Files) (data : Bytes) : Prop where
  result : ret = 0 ∨ ret = -1
  fits : data.length ≤ size
  success : ret = 0 → data.length = size
  stopped : data.length = size ∨ s'.ahead = [] ∨ s'.readFailed = true ∨ s'.short .fdout = true

/-- The round before counts as well. -/
theorem Finished.after {size left : Nat} {ret : Int} {s' : Files} {data first : Bytes}
    (finished : Finished left ret s' data) (same : left = size - first.length)
    (fits : first.length ≤ size) : Finished size ret s' (first ++ data) := by
  have behind := finished.fits
  refine ⟨finished.result, ?_, ?_, ?_⟩
  · rw [List.length_append]
    omega
  · intro zero
    rw [List.length_append, finished.success zero]
    omega
  · rcases finished.stopped with all | rest
    · refine Or.inl ?_
      rw [List.length_append, all]
      omega
    · exact Or.inr rest

section

variable {ok : (op : FileOp) → op.Res → Prop} (answers : Answers ok)

include answers

theorem ends_copyLoop {bufSize : BitVec 32} (room : 0 < bufSize.toNat) {rounds : Nat}
    {size : BitVec 32} (some : 0 < size.toNat) (small : size.toNat < 0x80000000)
    (enough : size.toNat ≤ rounds) (s : Files) :
    Prog.Ends (Allowed ok) (copyLoop bufSize rounds size)
      (fun ret s' => ∃ data, Moved s s' data ∧ Finished size.toNat ret s' data) s := by
  induction rounds generalizing s size with
  | zero => omega
  | succ rounds ih =>
      unfold copyLoop
      generalize chunk : (if size < bufSize then size else bufSize) = rsize
      have positive : 0 < rsize.toNat := by
        subst chunk
        split
        · exact some
        · exact room
      have within : rsize.toNat ≤ size.toNat := by
        subst chunk
        split
        · exact Nat.le_refl _
        · rename_i not
          bv_omega
      have count : rsize.toInt.toNat = rsize.toNat := by
        rw [BitVec.toInt_eq_toNat_of_lt (by omega), Int.toNat_natCast]
      refine (ends_op answers (.read .fdin rsize.toInt) (by simp) (by simp) s).bind ?_
      intro got s₁ answered
      obtain ⟨step, _⟩ := answered
      rcases step with ⟨rfl, rfl⟩ | ⟨data, rfl, _, part, atEnd, rfl⟩
      · refine ⟨[], moved_nil rfl rfl rfl rfl rfl rfl, ?_⟩
        exact ⟨Or.inr rfl, Nat.zero_le _, fun zero => absurd zero (by decide),
          Or.inr (Or.inr (Or.inl rfl))⟩
      · cases data with
        | nil =>
            have none : s.ahead = [] := by
              rcases List.take_eq_nil_iff.mp (atEnd rfl) with zero | nil
              · omega
              · exact nil
            refine ⟨[], moved_nil rfl (Function.update_eq_self Fd.fdin s.pos) rfl rfl rfl rfl, ?_⟩
            exact ⟨Or.inr rfl, Nat.zero_le _, fun zero => absurd zero (by decide),
              Or.inr (Or.inl none)⟩
        | cons byte rest =>
            have ahead : byte :: rest <+: s.ahead := part.trans (List.take_prefix _ _)
            have fits : (byte :: rest).length ≤ rsize.toNat := by
              have bound := part.length_le
              rw [List.length_take] at bound
              omega
            refine (ends_op answers (.write .fdout (byte :: rest)) (by simp) (by simp) _).bind ?_
            intro wsize s₂ answered
            obtain ⟨⟨_, most, rfl⟩, _⟩ := answered
            have nonempty : 0 < (byte :: rest).length := Nat.succ_pos _
            have round := moved_one nonempty ahead most
            have left : (size - BitVec.ofNat 32 (byte :: rest).length).toNat =
                size.toNat - (byte :: rest).length := by
              bv_omega
            split
            · rename_i nothing
              refine ⟨_, round, Or.inr rfl, by omega, fun zero => absurd zero (by decide), ?_⟩
              exact Or.inr (Or.inr (Or.inr (wrote_short (by omega))))
            · split
              · rename_i more
                have more' : 0 < size.toNat - (byte :: rest).length := by
                  rw [← left]
                  exact more
                refine (ih (by omega) (by omega) (by omega) _).mono ?_
                intro ret s' rounds
                obtain ⟨data, moved, finished⟩ := rounds
                exact ⟨_, round.trans moved, finished.after left (by omega)⟩
              · rename_i done
                have done' : ¬ 0 < size.toNat - (byte :: rest).length := by
                  rw [← left]
                  exact done
                have all : (byte :: rest).length = size.toNat := by omega
                exact ⟨_, round, Or.inl rfl, Nat.le_of_eq all, fun _ => all, Or.inl all⟩

end

end ModemControl.LoadFiles
