import Mathlib.Logic.Relation
import ModemControl.NvDisk

/-! # The repair of the NV copies under faults and power loss

A run writes over one copy at most, and only when it has verified the other one; so
a power loss in the middle of it never costs the last good copy.
-/

namespace ModemControl.Nv

open Foundation

def WritesTo (f : NvFile) (trace : NvTrace) : Prop := ∃ e ∈ trace, ∃ data, e.op = .write f data

/-- A read of the file failed or was short. -/
def ReadFault (f : NvFile) (trace : NvTrace) : Prop :=
  ∃ (count : Nat) (got : Option Bytes),
    ⟨.read f count, some got⟩ ∈ trace ∧ readLength got ≠ count

/-- Writes go to these files only. -/
def MayWrite (fs : List NvFile) : NvOp → Prop
  | .write f _ => f ∈ fs
  | _ => True

theorem MayWrite.mono {few many : List NvFile} (more : few ⊆ many) (op : NvOp)
    (may : MayWrite few op) : MayWrite many op := by
  cases op with
  | write f data => exact more may
  | _ => trivial

theorem not_writesTo {fs : List NvFile} {trace : NvTrace} {f : NvFile} (outside : f ∉ fs)
    (may : ∀ e ∈ trace, MayWrite fs e.op) : ¬ WritesTo f trace := by
  rintro ⟨e, member, data, written⟩
  have here := may e member
  rw [written] at here
  exact outside here

theorem faulty_content {fs : List NvFile} {f : NvFile} {content : Bytes} (outside : f ∉ fs)
    (d : Disk) (op : NvOp) (r : op.Res) (d' : Disk) (may : MayWrite fs op)
    (before : (d f).content = content) (env : Faulty d op r d') : (d' f).content = content := by
  subst before
  cases op with
  | open_ g =>
      simp only [Faulty] at env
      subst env
      split
      · exact d.update_content g f _ rfl
      · rfl
  | read g count =>
      cases r with
      | some data => exact env.2 ▸ d.update_content g f _ rfl
      | none => exact congrArg (fun d => (d f).content) env
  | malloc size buf => exact congrArg (fun d => (d f).content) env.2
  | free buf => exact congrArg (fun d => (d f).content) env
  | lseek g =>
      cases env with
      | inl moved => exact moved ▸ d.update_content g f _ rfl
      | inr stayed => rw [stayed]
  | write g data =>
      obtain ⟨n, _, _, rfl⟩ := env
      have other : f ≠ g := fun same => outside (same ▸ may)
      rw [d.update_other other]
  | close g => exact congrArg (fun d => (d f).content) env
  | enableBusmonitor on => exact congrArg (fun d => (d f).content) env
  | enableDmcMpu on => exact congrArg (fun d => (d f).content) env

theorem torn_content {fs : List NvFile} {f : NvFile} {content : Bytes} (outside : f ∉ fs)
    (d : Disk) (op : NvOp) (d' : Disk) (may : MayWrite fs op)
    (before : (d f).content = content) (left : Torn d op d') : (d' f).content = content := by
  subst before
  cases op with
  | write g data =>
      obtain ⟨n, _, rfl⟩ := left
      have other : f ≠ g := fun same => outside (same ▸ may)
      rw [d.update_other other]
  | _ => exact congrArg (fun d => (d f).content) left

/-- A run leaves alone every file that it does not write. -/
theorem run_content {α : Type} {p : NvProg α} {d d' : Disk} {trace : NvTrace} {out : Option α}
    (runs : NvRuns p d trace d' out) {fs : List NvFile} {f : NvFile} (outside : f ∉ fs)
    (may : ∀ e ∈ trace, MayWrite fs e.op) : (d' f).content = (d f).content :=
  runs.keeps (faulty_content outside) (torn_content outside) may rfl

theorem calls_readPayload (f : NvFile) (head : Bytes) :
    Prog.Calls (MayWrite []) (readPayload f head) := by
  refine .bind ⟨trivial, fun _ => trivial⟩ fun allocated => ?_
  split
  · exact .bind ⟨trivial, fun _ => trivial⟩ fun got => trivial
  · trivial

theorem calls_readCopy (f : NvFile) : Prog.Calls (MayWrite []) (readCopy f) := by
  refine .bind ⟨trivial, fun _ => trivial⟩ fun opened => ?_
  split
  · refine .bind ⟨trivial, fun _ => trivial⟩ fun got => ?_
    split
    · exact calls_readPayload f _
    · trivial
  · trivial

/-- The file that the repair writes over, when one of the copies is good. -/
def repaired (org bak : Copy) : List NvFile :=
  if org.verified then if bak.verified then [] else [.bakPath]
  else if bak.verified then [.path] else []

theorem calls_restore (src : Copy) (dst : NvFile) : Prog.Calls (MayWrite [dst]) (restore src dst) := by
  have one (data : Bytes) : Prog.Calls (MayWrite [dst]) (write dst data) :=
    ⟨List.mem_singleton_self dst, fun _ => trivial⟩
  refine (one src.header).bind fun ret => ?_
  split
  · exact (one src.buf).bind fun _ => trivial
  · trivial

theorem calls_deliver (src : Copy) : Prog.Calls (MayWrite [.pathOut]) (deliver src) :=
  ⟨List.mem_singleton_self _, fun _ => trivial⟩

theorem calls_repair (org bak : Copy) :
    Prog.Calls (MayWrite (.pathOut :: repaired org bak)) (repair org bak) := by
  have delivers (src : Copy) (fs : List NvFile) :
      Prog.Calls (MayWrite (.pathOut :: fs)) (deliver src) :=
    (calls_deliver src).mono (MayWrite.mono (by simp))
  have restores (src : Copy) (dst : NvFile) :
      Prog.Calls (MayWrite [.pathOut, dst]) (restore src dst) :=
    (calls_restore src dst).mono (MayWrite.mono (by simp))
  cases good : org.verified <;> cases good' : bak.verified <;>
    simp only [repair, repaired, status, good, good', Bool.false_eq_true, if_false, if_true]
  · exact ⟨List.mem_cons_self, fun _ => trivial⟩
  · exact (restores bak .path).bind fun _ => delivers bak [.path]
  · exact (restores org .bakPath).bind fun _ => delivers org [.bakPath]
  · exact delivers org []

/-- Closing and freeing write nothing. -/
theorem calls_close {α : Type} {fs : List NvFile} (f : NvFile) {p : NvProg α}
    (rest : Prog.Calls (MayWrite fs) p) : Prog.Calls (MayWrite fs) (do close f; p) :=
  ⟨trivial, fun _ => rest⟩

theorem calls_free {α : Type} {fs : List NvFile} (f : NvFile) {p : NvProg α}
    (rest : Prog.Calls (MayWrite fs) p) : Prog.Calls (MayWrite fs) (do free f; p) :=
  ⟨trivial, fun _ => rest⟩

theorem calls_finish (org bak : Copy) :
    Prog.Calls (MayWrite (.pathOut :: repaired org bak)) (finish org bak) := by
  refine .bind ⟨trivial, fun _ => trivial⟩ fun _ => ?_
  refine .bind ⟨trivial, fun _ => trivial⟩ fun opened => ?_
  split
  · refine .bind ⟨trivial, fun _ => trivial⟩ fun _ => ?_
    refine .bind ⟨trivial, fun _ => trivial⟩ fun _ => ?_
    refine (calls_repair org bak).bind fun result => ?_
    refine ⟨trivial, fun _ => ⟨trivial, fun _ => ?_⟩⟩
    exact calls_close _ (calls_close _ (calls_close _ (calls_free _ (calls_free _ trivial))))
  · exact calls_close _ (calls_close _ (calls_free _ (calls_free _ trivial)))

theorem full_read {file : File} {count : Nat} {data : Bytes} (got : data <+: file.ahead count)
    (full : data.length = count) (start : file.offset ≤ file.content.length) :
    data = file.ahead count ∧ file.offset + count ≤ file.content.length := by
  have bound := got.length_le
  simp only [File.ahead, List.length_take, List.length_drop] at bound
  refine ⟨got.eq_of_length ?_, by omega⟩
  simp only [File.ahead, List.length_take, List.length_drop]
  omega

theorem readPayload_inv {d d' : Disk} {trace : NvTrace} {f : NvFile} {head : Bytes} {c : Copy}
    (runs : NvRuns (readPayload f head) d trace d' (some (.copy c))) {size : Int}
    (named : (nvHeader head).size = size) :
    0 ≤ size ∧ ∃ got,
      c = ⟨head, size, filled size got, readLength got = size && checks head (filled size got)⟩ ∧
      (∀ data, got = some data → data <+: (d f).ahead size.toNat) ∧
      ⟨.read f size.toNat, some got⟩ ∈ trace := by
  subst named
  simp only [readPayload, malloc, read, Prog.call_bind, Prog.ret_bind, Prog.pure_eq] at runs
  obtain ⟨allocated, d₁, trace₁, allocates, buffer, rfl⟩ := runs.call_inv
  cases allocated with
  | false => cases buffer.ret_inv.2.2
  | true =>
      simp only [if_true] at buffer
      obtain ⟨got, d₂, trace₂, reads, last, rfl⟩ := buffer.call_inv
      obtain ⟨granted, rfl⟩ := allocates
      refine ⟨granted rfl, got, ?_, ?_, by simp⟩
      · exact CopyRead.copy.inj (Option.some.inj last.ret_inv.2.2)
      · rintro data rfl
        exact reads.1

/-- A copy comes from a whole header sector, an allocation, and one read behind it. -/
theorem readCopy_inv {d d' : Disk} {trace : NvTrace} {f : NvFile} {c : Copy}
    (runs : NvRuns (readCopy f) d trace d' (some (.copy c))) {size : Int}
    (named : (headerOf (d f).content).size = size) :
    RAMNV_SECT_SIZE ≤ (d f).content.length ∧ 0 ≤ size ∧ ∃ got,
      c = ⟨header (d f).content, size, filled size got,
        readLength got = size && checks (header (d f).content) (filled size got)⟩ ∧
      (∀ data, got = some data →
        data <+: ((d f).content.drop RAMNV_SECT_SIZE).take size.toNat) ∧
      ⟨.read f size.toNat, some got⟩ ∈ trace := by
  simp only [readCopy, open_, read, Prog.call_bind, Prog.ret_bind, Prog.pure_eq] at runs
  obtain ⟨opened, d₁, trace₁, opens, opening, rfl⟩ := runs.call_inv
  cases opened with
  | false => cases opening.ret_inv.2.2
  | true =>
      simp only [if_true] at opening
      obtain ⟨got, d₂, trace₂, reads, sector, rfl⟩ := opening.call_inv
      by_cases full : readLength got = RAMNV_SECT_SIZE
      · obtain ⟨head, rfl, length⟩ := readLength_eq full
        simp only [full, if_true, filled_full full] at sector
        obtain rfl : d₁ = d.update f File.rewind := by simpa only [Faulty, if_true] using opens
        obtain ⟨part, rfl⟩ := reads
        rw [Disk.update_same] at part
        obtain ⟨rfl, whole⟩ := full_read part length (Nat.zero_le _)
        have same : (d f).rewind.ahead RAMNV_SECT_SIZE = header (d f).content := rfl
        rw [same] at sector length
        obtain ⟨allocated, got, rfl, part, member⟩ := readPayload_inv sector named
        refine ⟨by simpa [File.rewind] using whole, allocated, got, rfl, ?_, ?_⟩
        · simpa [File.ahead, File.advance, File.rewind, length] using part
        · exact List.mem_cons_of_mem _ (List.mem_cons_of_mem _ member)
      · simp only [full, if_false] at sector
        cases sector.ret_inv.2.2

/-- A copy is verified only when its file is valid; a valid file is not verified only
    because of a read fault. -/
theorem readCopy_finds {d d' : Disk} {trace : NvTrace} {f : NvFile} {c : Copy}
    (runs : NvRuns (readCopy f) d trace d' (some (.copy c))) :
    (c.verified = true → Valid (d f).content) ∧
    (Valid (d f).content → c.verified = true ∨ ReadFault f trace) := by
  obtain ⟨sector, allocated, got, rfl, part, member⟩ := readCopy_inv runs rfl
  by_cases full : readLength got = (headerOf (d f).content).size
  · obtain ⟨data, rfl, length⟩ : ∃ data, got = some data ∧
        data.length = (headerOf (d f).content).size.toNat := readLength_eq (by omega)
    have found := part data rfl
    have bound := found.length_le
    simp only [List.length_take, List.length_drop] at bound
    have same := found.eq_of_length (by simp only [List.length_take, List.length_drop]; omega)
    have exact := verified_iff_valid sector allocated same
    exact ⟨exact.mp, fun valid => Or.inl (exact.mpr valid)⟩
  · simp only [full, decide_false, Bool.false_and, Bool.false_eq_true, false_implies, true_and,
      false_or]
    intro _
    exact ⟨_, got, member, by omega⟩

theorem ReadFault.mono {f : NvFile} {few many : NvTrace} (more : few ⊆ many)
    (fault : ReadFault f few) : ReadFault f many := by
  obtain ⟨count, got, member, short⟩ := fault
  exact ⟨count, got, more member, short⟩

/-- A trace that writes nothing may write anywhere. -/
theorem quiet_mono {trace : NvTrace} (quiet : ∀ e ∈ trace, MayWrite [] e.op) (fs : List NvFile) :
    ∀ e ∈ trace, MayWrite fs e.op :=
  fun e member => MayWrite.mono (List.nil_subset fs) e.op (quiet e member)

/-- What reading the copy in `f` has told about the file, faults of the run included. -/
def Told (d : Disk) (f : NvFile) (c : Copy) (trace : NvTrace) : Prop :=
  (c.verified = true → Valid (d f).content) ∧
  (Valid (d f).content → c.verified = true ∨ ReadFault f trace)

theorem Told.mono {d : Disk} {f : NvFile} {c : Copy} {few many : NvTrace} (more : few ⊆ many)
    (told : Told d f c few) : Told d f c many := by
  refine ⟨told.1, fun valid => ?_⟩
  cases told.2 valid with
  | inl verified => exact Or.inl verified
  | inr fault => exact Or.inr (fault.mono more)

theorem readBackup_writes {org : Copy} {d d' : Disk} {trace : NvTrace} {out : Option Int}
    (runs : NvRuns (readBackup org) d trace d' out) :
    (∀ e ∈ trace, MayWrite [.pathOut] e.op) ∨
    ∃ bak, Told d .bakPath bak trace ∧
      ∀ e ∈ trace, MayWrite (.pathOut :: repaired org bak) e.op := by
  have seek (f : NvFile) : Prog.Calls (MayWrite []) (lseek f) := ⟨trivial, fun _ => trivial⟩
  rcases runs.bind_inv with ⟨inside, -⟩ | ⟨_, d₁, first, rest, sought, runs₁, rfl⟩
  · exact Or.inl (quiet_mono (inside.allowed (seek .path)) _)
  · have silent := sought.allowed (seek .path)
    have content := run_content sought (List.not_mem_nil (a := NvFile.bakPath)) silent
    rcases runs₁.bind_inv with ⟨inside, -⟩ | ⟨found, d₂, second, third, reading, tail, rfl⟩
    · refine Or.inl (List.forall_mem_append.mpr ⟨quiet_mono silent _, ?_⟩)
      exact quiet_mono (inside.allowed (calls_readCopy .bakPath)) _
    · have silent' := reading.allowed (calls_readCopy .bakPath)
      have upTo (fs : List NvFile) (after : ∀ e ∈ third, MayWrite fs e.op) :
          ∀ e ∈ first ++ (second ++ third), MayWrite fs e.op :=
        List.forall_mem_append.mpr ⟨quiet_mono silent _,
          List.forall_mem_append.mpr ⟨quiet_mono silent' _, after⟩⟩
      cases found with
      | notOpened =>
          exact Or.inl (upTo _ (tail.allowed (calls_close _ (calls_free _ trivial))))
      | noBuffer =>
          exact Or.inl (upTo _ (tail.allowed (calls_close _ (calls_close _ (calls_free _ trivial)))))
      | copy bak =>
          refine Or.inr ⟨bak, ?_, upTo _ (tail.allowed (calls_finish org bak))⟩
          have told := readCopy_finds reading
          rw [content] at told
          apply Told.mono _ told
          intro e member
          simp [member]

theorem readNvPartition_writes {d d' : Disk} {trace : NvTrace} {out : Option Int}
    (runs : NvRuns readNvPartition d trace d' out) :
    (∀ e ∈ trace, MayWrite [.pathOut] e.op) ∨
    ∃ org bak, Told d .path org trace ∧ Told d .bakPath bak trace ∧
      ∀ e ∈ trace, MayWrite (.pathOut :: repaired org bak) e.op := by
  rcases runs.bind_inv with ⟨inside, -⟩ | ⟨found, d₁, first, rest, reading, tail, rfl⟩
  · exact Or.inl (quiet_mono (inside.allowed (calls_readCopy .path)) _)
  · have silent := reading.allowed (calls_readCopy .path)
    have upTo (fs : List NvFile) (after : ∀ e ∈ rest, MayWrite fs e.op) :
        ∀ e ∈ first ++ rest, MayWrite fs e.op :=
      List.forall_mem_append.mpr ⟨quiet_mono silent _, after⟩
    cases found with
    | notOpened => exact Or.inl (upTo _ (tail.allowed trivial))
    | noBuffer => exact Or.inl (upTo _ (tail.allowed ⟨trivial, fun _ => trivial⟩))
    | copy org =>
        have told := readCopy_finds reading
        have content := run_content reading (List.not_mem_nil (a := NvFile.bakPath)) silent
        cases readBackup_writes tail with
        | inl few => exact Or.inl (upTo _ few)
        | inr backup =>
            obtain ⟨bak, told', may⟩ := backup
            refine Or.inr ⟨org, bak, Told.mono (by simp) told, ?_, upTo _ may⟩
            simp only [Told, content] at told'
            exact Told.mono (by simp) told'

/-- A run writes to no copy, or to one copy only: then the other one is valid, and
    the copy it writes over was not valid or could not be read. -/
theorem repairs_one {d d' : Disk} {trace : NvTrace} {out : Option Int}
    (runs : NvRuns readNvPartition d trace d' out) :
    (∀ e ∈ trace, MayWrite [.pathOut] e.op) ∨
    ∃ f : NvFile, f.IsCopy ∧ Valid (d f.other).content ∧
      (Valid (d f).content → ReadFault f trace) ∧ ∀ e ∈ trace, MayWrite [.pathOut, f] e.op := by
  cases readNvPartition_writes runs with
  | inl few => exact Or.inl few
  | inr both =>
      obtain ⟨org, bak, toldOrg, toldBak, may⟩ := both
      cases good : org.verified <;> cases good' : bak.verified <;>
        simp only [repaired, good, good', Bool.false_eq_true, if_false, if_true] at may
      · exact Or.inl may
      · refine Or.inr ⟨.path, by decide, toldBak.1 good', fun valid => ?_, may⟩
        exact (toldOrg.2 valid).resolve_left (by simp [good])
      · refine Or.inr ⟨.bakPath, by decide, toldOrg.1 good, fun valid => ?_, may⟩
        exact (toldBak.2 valid).resolve_left (by simp [good'])
      · exact Or.inl may

/-- What one run, however it ends, does to the two copies. -/
structure Harmless (d : Disk) (trace : NvTrace) (d' : Disk) : Prop where
  untouched : ∀ f, ¬ WritesTo f trace → (d' f).content = (d f).content
  oneOnly : ∀ f g : NvFile, f.IsCopy → g.IsCopy → WritesTo f trace → WritesTo g trace → f = g
  otherValid : ∀ f : NvFile, f.IsCopy → WritesTo f trace →
    Valid (d f.other).content ∧ (d' f.other).content = (d f.other).content
  validKept : ∀ f : NvFile, f.IsCopy → Valid (d f).content →
    (d' f).content = (d f).content ∨ ReadFault f trace

theorem run_untouched {α : Type} {p : NvProg α} {d d' : Disk} {trace : NvTrace} {out : Option α}
    (runs : NvRuns p d trace d' out) {f : NvFile} (silent : ¬ WritesTo f trace) :
    (d' f).content = (d f).content := by
  have may : ∀ e ∈ trace, MayWrite ([.path, .bakPath, .pathOut].filter (· ≠ f)) e.op := by
    intro e member
    cases op : e.op with
    | write g data =>
        have other : g ≠ f := fun same => silent ⟨e, member, data, same ▸ op⟩
        cases g <;> simpa [MayWrite] using other
    | _ => trivial
  exact run_content runs (by simp) may

theorem run_harmless {d d' : Disk} {trace : NvTrace} {out : Option Int}
    (runs : NvRuns readNvPartition d trace d' out) : Harmless d trace d' := by
  cases repairs_one runs with
  | inl few =>
      have silent {f : NvFile} (copy : f.IsCopy) : ¬ WritesTo f trace :=
        not_writesTo (by simpa [NvFile.IsCopy] using copy) few
      constructor
      · exact fun f => run_untouched runs
      · exact fun f g copy _ written => absurd written (silent copy)
      · exact fun f copy written => absurd written (silent copy)
      · exact fun f copy _ => Or.inl (run_untouched runs (silent copy))
  | inr repaired =>
      obtain ⟨f, copy, good, fault, may⟩ := repaired
      have silent {g : NvFile} (copy' : g.IsCopy) (other : g ≠ f) : ¬ WritesTo g trace :=
        not_writesTo (by simpa [NvFile.IsCopy, other] using copy') may
      have target {g : NvFile} (copy' : g.IsCopy) (written : WritesTo g trace) : g = f := by
        by_contra other
        exact silent copy' other written
      have otherCopy : f.other.IsCopy := by cases f <;> simp_all [NvFile.IsCopy, NvFile.other]
      constructor
      · exact fun g => run_untouched runs
      · intro g h copyG copyH writtenG writtenH
        exact (target copyG writtenG).trans (target copyH writtenH).symm
      · intro g copyG written
        obtain rfl := target copyG written
        exact ⟨good, run_untouched runs (silent otherCopy copyG.other_ne)⟩
      · intro g copyG valid
        by_cases same : g = f
        · subst same
          exact Or.inr (fault valid)
        · exact Or.inl (run_untouched runs (silent copyG same))

/-- One start of `read_nv_partition`, finished or cut off anywhere. -/
def Boot (d d' : Disk) : Prop := ∃ trace out, NvRuns readNvPartition d trace d' out

def SomeValid (d : Disk) : Prop := Valid (d .path).content ∨ Valid (d .bakPath).content

theorem someValid_of {d : Disk} {f : NvFile} (copy : f.IsCopy) (valid : Valid (d f).content) :
    SomeValid d := by
  cases f with
  | path => exact Or.inl valid
  | bakPath => exact Or.inr valid
  | pathOut => exact absurd rfl copy

theorem boot_someValid {d d' : Disk} (boot : Boot d d') (before : SomeValid d) : SomeValid d' := by
  obtain ⟨trace, out, runs⟩ := boot
  have harmless := run_harmless runs
  obtain ⟨f, copy, valid⟩ : ∃ f : NvFile, f.IsCopy ∧ Valid (d f).content := by
    cases before with
    | inl valid => exact ⟨.path, by decide, valid⟩
    | inr valid => exact ⟨.bakPath, by decide, valid⟩
  have otherCopy : f.other.IsCopy := by cases f <;> simp_all [NvFile.IsCopy, NvFile.other]
  by_cases written : WritesTo f trace
  · obtain ⟨good, kept⟩ := harmless.otherValid f copy written
    exact someValid_of otherCopy (kept ▸ good)
  · exact someValid_of copy (harmless.untouched f written ▸ valid)

/-- A run writes over one copy at most, and only while the other one is valid and stays
    as it is; so however many runs fail or are cut off, a valid copy remains. -/
theorem repair_never_harms_good_copy :
    (∀ d trace d' out, NvRuns readNvPartition d trace d' out → Harmless d trace d') ∧
    ∀ d d', Relation.ReflTransGen Boot d d' → SomeValid d → SomeValid d' := by
  refine ⟨fun d trace d' out runs => run_harmless runs, ?_⟩
  intro d d' boots start
  induction boots with
  | refl => exact start
  | tail earlier last ih => exact boot_someValid last ih

/-- A zeroed primary is written over, and the backup it was repaired from stays. -/
theorem repair_never_harms_good_copy_zeroed_primary :
    SomeValid (readNvPartition.run allGranted.answer
      (diskOf (List.replicate 512 0) goodFile)).2.1 :=
  repair_never_harms_good_copy.2 (diskOf (List.replicate 512 0) goodFile) _
    (.single ⟨_, _, runs_world allGranted readNvPartition _⟩) (Or.inr (by decide +kernel))

end ModemControl.Nv
