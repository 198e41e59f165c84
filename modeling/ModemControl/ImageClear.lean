import ModemControl.ImageFiles

/-! # The clearing of a region

`modem_clear_region` writes zeros from the beginning of a region on, through a descriptor of
its own.
-/

namespace ModemControl.LoadFiles

open Foundation Load

/-- Nothing but the region and the state of `fd` has changed. -/
structure Beside (s s' : Files) : Prop where
  input : s'.input = s.input
  written : s'.written = s.written
  short : s'.short .fdout = s.short .fdout

theorem Beside.refl (s : Files) : Beside s s := ⟨rfl, rfl, rfl⟩

theorem Beside.trans {s s₁ s' : Files} (first : Beside s s₁) (second : Beside s₁ s') :
    Beside s s' :=
  ⟨second.input.trans first.input, second.written.trans first.written,
    second.short.trans first.short⟩

theorem beside_wrote (s : Files) (data : Bytes) (count : Int) :
    Beside s (s.wrote .fd data count) :=
  ⟨rfl, rfl, rfl⟩

section

variable {ok : (op : FileOp) → op.Res → Prop} (answers : Answers ok)

include answers

theorem ends_clearLoop {rounds : Nat} {size : BitVec 32} (some : 0 < size.toNat)
    (enough : size.toNat ≤ rounds) (s : Files) :
    Prog.Ends (Allowed ok) (clearLoop rounds size)
      (fun _ s' => Beside s s' ∧ Put .fd s s' (List.replicate size.toNat 0)) s := by
  induction rounds generalizing s size with
  | zero => omega
  | succ rounds ih =>
      unfold clearLoop
      generalize chunk : (if size < 8 * 1024 then size else 8 * 1024) = wsize
      have positive : 0 < wsize.toNat := by
        subst chunk
        split
        · exact some
        · decide
      have within : wsize.toNat ≤ size.toNat := by
        subst chunk
        split
        · exact Nat.le_refl _
        · bv_omega
      have left : (size - wsize).toNat = size.toNat - wsize.toNat := by bv_omega
      refine (ends_op answers (.write .fd (List.replicate wsize.toNat 0)) (by simp) (by simp) s).bind ?_
      intro rval s₁ answered
      obtain ⟨⟨_, _, rfl⟩, _⟩ := answered
      have beside := beside_wrote s (List.replicate wsize.toNat 0) rval
      split
      · rename_i nothing
        refine ⟨beside, ?_⟩
        intro complete
        have part : rval ≠ (List.replicate wsize.toNat (0 : UInt8)).length := by
          rw [List.length_replicate]
          exact Int.ne_of_lt (Int.lt_of_le_of_lt nothing (Int.natCast_pos.mpr positive))
        rw [wrote_short part] at complete
        cases complete
      · have put := put_wrote .fd s (List.replicate wsize.toNat 0) rval
        split
        · rename_i more
          have more' : 0 < size.toNat - wsize.toNat := by
            rw [← left]
            exact more
          refine (ih (by omega) (by omega) _).mono ?_
          intro _ s' later
          obtain ⟨beside', put'⟩ := later
          refine ⟨beside.trans beside', ?_⟩
          have both := put.trans put'
          rw [List.replicate_append_replicate, left, Nat.add_sub_cancel' within] at both
          exact both
        · rename_i done
          have done' : ¬ 0 < size.toNat - wsize.toNat := by
            rw [← left]
            exact done
          have all : wsize.toNat = size.toNat := by omega
          rw [← all]
          exact ⟨beside, put⟩

/-- Where it can be opened, and nothing falls short, the region begins with zeros. -/
theorem ends_modemClearRegion {rounds : Nat} {size : BitVec 32} (some : 0 < size.toNat)
    (enough : size.toNat ≤ rounds) (fout : Bytes) (s : Files) :
    Prog.Ends (Allowed ok) (modemClearRegion rounds fout size)
      (fun _ s' => Beside s s' ∧ ∃ opened, ok (.open_ .fd fout) opened ∧
        (opened = true → s'.short .fd = false →
          s'.region = overwrite s.region 0 (List.replicate size.toNat 0))) s := by
  unfold modemClearRegion
  refine (ends_op answers (.open_ .fd fout) (by simp) (by simp) s).bind ?_
  intro opened s₁ answered
  obtain ⟨⟨_, rfl⟩, may⟩ := answered
  cases opened with
  | false => exact ⟨Beside.refl s, false, may, fun never => absurd never Bool.false_ne_true⟩
  | true =>
      refine (ends_clearLoop answers some enough (s.moveTo .fd 0)).bind ?_
      intro _ s₂ cleared
      obtain ⟨beside, put⟩ := cleared
      refine (ends_op answers (.close .fd) (by simp) (by simp) s₂).mono ?_
      intro _ s₃ closed
      obtain ⟨rfl, _⟩ := closed
      refine ⟨⟨beside.input, beside.written, beside.short⟩, true, may, ?_⟩
      intro _ complete
      exact (put complete).2.2

end

end ModemControl.LoadFiles
