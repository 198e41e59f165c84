import ModemControl.NvRepair

/-! # Recovering the NV data from the better copy

What a run of `read_nv_partition` comes to when its reads and writes are full: a
function of the three files, of the files that open and of the buffers that are
granted. The program is shown to compute this function, and what it delivers and
repairs is then read off the function alone.
-/

namespace ModemControl.Nv

open Foundation

/-- The header sector is there and a buffer for the size it names is granted. -/
def World.Buffers (w : World) (f : NvFile) (content : Bytes) : Prop :=
  RAMNV_SECT_SIZE ≤ content.length ∧ 0 ≤ (headerOf content).size ∧
    w.allocates f (headerOf content).size.toNat = true

instance (w : World) (f : NvFile) (content : Bytes) : Decidable (w.Buffers f content) := by
  unfold World.Buffers; infer_instance

/-- The part of a valid file that a repair carries over. -/
def image (content : Bytes) : Bytes := header content ++ payload content

/-- A file after `data` is written at its start. -/
def written (data old : Bytes) : Bytes := data ++ old.drop data.length

structure Recovery where
  result : Int
  /-- What is written to `path_out`, call by call. -/
  delivered : List Bytes
  path : Bytes
  bakPath : Bytes
  pathOut : Bytes
  deriving Repr, DecidableEq

/-- The better copy is delivered, and the other one repaired from it. -/
def settle (path bak out : Bytes) : Recovery :=
  if Valid path then
    ⟨1, [payload path], path, if Valid bak then bak else written (image path) bak,
      written (payload path) out⟩
  else if Valid bak then
    ⟨1, [payload bak], written (image bak) path, bak, written (payload bak) out⟩
  else
    let zerobuf := List.replicate (RAMNV_SECT_SIZE * 2) 0
    ⟨0, [zerobuf], path, bak, written zerobuf out⟩

/-- The run gets to the switch on `status`. -/
def World.Ready (w : World) (path bak : Bytes) : Prop :=
  w.opens .path = true ∧ w.Buffers .path path ∧ w.opens .bakPath = true ∧
    w.Buffers .bakPath bak ∧ w.opens .pathOut = true

instance (w : World) (path bak : Bytes) : Decidable (w.Ready path bak) := by
  unfold World.Ready; infer_instance

def World.recover (w : World) (path bak out : Bytes) : Recovery :=
  if w.Ready path bak then settle path bak out else ⟨0, [], path, bak, out⟩

def delivered (trace : NvTrace) : List Bytes :=
  trace.filterMap fun e => match e.op with
    | .write .pathOut data => some data
    | _ => none

/-- What a finished run leaves. -/
def outcome (ran : NvTrace × Disk × Int) : Recovery where
  result := ran.2.2
  delivered := delivered ran.1
  path := (ran.2.1 .path).content
  bakPath := (ran.2.1 .bakPath).content
  pathOut := (ran.2.1 .pathOut).content

theorem delivered_quiet {trace : NvTrace} (quiet : ∀ e ∈ trace, MayWrite [] e.op) :
    delivered trace = [] := by
  apply List.filterMap_eq_nil_iff.mpr
  intro e member
  have may := quiet e member
  cases op : e.op with
  | write f data =>
      rw [op] at may
      exact absurd may List.not_mem_nil
  | _ => rfl

theorem delivered_append (first rest : NvTrace) :
    delivered (first ++ rest) = delivered first ++ delivered rest :=
  List.filterMap_append

theorem File.put_start (content data : Bytes) :
    (File.mk content 0).put data = ⟨written data content, data.length⟩ := by
  simp only [File.put, written, List.take_zero, Nat.zero_sub, List.replicate_zero, List.nil_append,
    Nat.zero_add]

theorem File.put_next (content first second : Bytes) :
    (File.mk (written first content) first.length).put second =
      ⟨written (first ++ second) content, (first ++ second).length⟩ := by
  have pad : first.length - (written first content).length = 0 := by
    simp only [written, List.length_append]
    omega
  have tail : (written first content).drop (first.length + second.length) =
      content.drop (first.length + second.length) := by
    rw [written, List.drop_append, List.drop_of_length_le (by omega), List.nil_append,
      List.drop_drop, Nat.add_sub_cancel_left]
  have front : (written first content).take first.length = first := by
    rw [written, List.take_left]
  simp only [File.put, pad, tail, front, List.replicate_zero, List.append_nil,
    List.length_append]
  rw [written, List.length_append]

/-- The copy that full reads make of a file. -/
def copyOf (content : Bytes) : Copy where
  header := header content
  size := (headerOf content).size
  buf := filled (headerOf content).size (some (payload content))
  verified := Valid content

def World.found (w : World) (f : NvFile) (content : Bytes) : CopyRead :=
  if w.opens f then if w.Buffers f content then .copy (copyOf content) else .noBuffer
  else .notOpened

theorem run_readPayload (w : World) (f : NvFile) (d : Disk) {content : Bytes}
    (sector : RAMNV_SECT_SIZE ≤ content.length) (here : d f = ⟨content, RAMNV_SECT_SIZE⟩) :
    ∃ trace offset, (readPayload f (header content)).run w.answer d =
      (trace, d.update f (fun file => ⟨file.content, offset⟩),
        if w.Buffers f content then .copy (copyOf content) else .noBuffer) := by
  simp only [readPayload, malloc, read, Prog.call_bind, Prog.ret_bind, Prog.pure_eq,
    Prog.run_call, World.answer]
  by_cases granted : w.Buffers f content
  · have ok : (decide (0 ≤ (headerOf content).size) && w.allocates f (headerOf content).size.toNat) = true := by
      simpa using granted.2
    have same := (payload_size granted.2.1).1
    have got : (d f).ahead (headerOf content).size.toNat = payload content := by
      rw [here, File.ahead, same]
    have verified := Bool.eq_iff_iff.mpr
      ((verified_iff_valid sector granted.2.1 same.symm).trans decide_eq_true_iff.symm)
    simp only [ok, if_true, Prog.run_call, Prog.run_ret, World.answer, got, verified, granted,
      copyOf]
    exact ⟨_, RAMNV_SECT_SIZE + (payload content).length,
      by rw [Disk.update_eq here _ (fun file => ⟨file.content, _⟩) rfl]⟩
  · have refused : (decide (0 ≤ (headerOf content).size) && w.allocates f (headerOf content).size.toNat) = false := by
      simpa [World.Buffers, sector] using granted
    simp only [refused, Bool.false_eq_true, if_false, Prog.run_ret, granted]
    exact ⟨_, (d f).offset, by rw [Disk.update_offset]⟩

theorem run_readCopy (w : World) (f : NvFile) (d : Disk) :
    ∃ trace offset, (readCopy f).run w.answer d =
      (trace, d.update f (fun file => ⟨file.content, offset⟩), w.found f (d f).content) := by
  simp only [readCopy, open_, read, Prog.call_bind, Prog.ret_bind, Prog.pure_eq, Prog.run_call,
    World.answer, World.found]
  by_cases opened : w.opens f = true
  · simp only [opened, if_true, Prog.run_call, World.answer, Disk.update_same, Disk.update_update]
    have got : (d f).rewind.ahead RAMNV_SECT_SIZE = header (d f).content := rfl
    rw [got]
    by_cases sector : RAMNV_SECT_SIZE ≤ (d f).content.length
    · have length : (header (d f).content).length = RAMNV_SECT_SIZE := by
        rw [header, List.length_take, Nat.min_eq_left sector]
      have full : readLength (some (header (d f).content)) = RAMNV_SECT_SIZE :=
        congrArg Int.ofNat length
      have here : d.update f ((·.advance (header (d f).content).length) ∘ File.rewind) f =
          ⟨(d f).content, RAMNV_SECT_SIZE⟩ := by
        rw [Disk.update_same, length]
        exact congrArg (File.mk (d f).content) (Nat.zero_add _)
      obtain ⟨trace, offset, ran⟩ := run_readPayload w f _ sector here
      rw [if_pos full, filled_full full, ran]
      exact ⟨_, offset, by rw [Disk.update_update]; rfl⟩
    · have short : readLength (some (header (d f).content)) ≠ RAMNV_SECT_SIZE := by
        simp only [readLength, header, List.length_take]
        omega
      have noBuffer : ¬ w.Buffers f (d f).content := fun granted => sector granted.1
      simp only [if_neg short, if_neg noBuffer, Prog.run_ret]
      exact ⟨_, 0 + (header (d f).content).length, rfl⟩
  · simp only [opened, Bool.false_eq_true, if_false, Prog.run_ret]
    exact ⟨_, (d f).offset, by rw [Disk.update_offset]⟩

theorem delivered_cons {e : Event NvOp NvOp.Res} {trace : NvTrace}
    (quiet : MayWrite [.path, .bakPath] e.op) : delivered (e :: trace) = delivered trace := by
  obtain ⟨op, res⟩ := e
  cases op with
  | write f data =>
      cases f with
      | path => rfl
      | bakPath => rfl
      | pathOut => exact absurd quiet (by simp [MayWrite])
  | _ => rfl

theorem run_deliver (w : World) (d : Disk) {src : Copy} (whole : src.size = src.buf.length) :
    (deliver src).run w.answer d =
      ([⟨.write .pathOut src.buf, some (src.buf.length : Int)⟩],
        d.update .pathOut (·.put src.buf), 1) := by
  simp only [deliver, write, Prog.call_bind, Prog.ret_bind, Prog.pure_eq, Prog.run_call,
    Prog.run_ret, World.answer, whole, if_true]

theorem run_restore (w : World) (d : Disk) (dst : NvFile) {src : Copy}
    (sector : src.header.length = RAMNV_SECT_SIZE) :
    (restore src dst).run w.answer d =
      ([⟨.write dst src.header, some (src.header.length : Int)⟩,
          ⟨.write dst src.buf, some (src.buf.length : Int)⟩],
        d.update dst ((·.put src.buf) ∘ (·.put src.header)), ()) := by
  simp only [restore, write, Prog.call_bind, Prog.ret_bind, Prog.pure_eq, Prog.run_call,
    World.answer, sector, if_true, Prog.run_ret, Disk.update_update]

/-- The repair has to do with the copies only through what makes their files valid. -/
theorem repair_copyOf (path bak : Bytes) :
    repair (copyOf path) (copyOf bak) =
      if Valid path then
        if Valid bak then deliver (copyOf path)
        else restore (copyOf path) .bakPath >>= fun _ => deliver (copyOf path)
      else if Valid bak then restore (copyOf bak) .path >>= fun _ => deliver (copyOf bak)
      else write .pathOut (List.replicate (RAMNV_SECT_SIZE * 2) 0) >>= fun _ => pure 0 := by
  by_cases good : Valid path <;> by_cases good' : Valid bak <;>
    simp [repair, status, copyOf, good, good']

theorem copyOf_valid {content : Bytes} (valid : Valid content)
    (allocated : 0 ≤ (headerOf content).size) :
    (copyOf content).buf = payload content ∧
      (copyOf content).header ++ (copyOf content).buf = image content ∧
      (copyOf content).size = (copyOf content).buf.length ∧
      (copyOf content).header.length = RAMNV_SECT_SIZE := by
  have whole := valid.whole
  have length := (payload_length content).mpr (by omega)
  have size : ((payload content).length : Int) = (headerOf content).size := by
    rw [(payload_size allocated).2, length]
  have buf : (copyOf content).buf = payload content := filled_full size
  refine ⟨buf, ?_, ?_, ?_⟩
  · rw [buf]
    rfl
  · rw [buf]
    exact size.symm
  · simp only [copyOf, header, List.length_take]
    omega

/-- What the files hold, with `path_out` at its start. -/
structure Holds (d : Disk) (path bak out : Bytes) : Prop where
  path : (d .path).content = path
  bakPath : (d .bakPath).content = bak
  pathOut : d .pathOut = ⟨out, 0⟩

theorem outcome_deliver (w : World) {d : Disk} {path bak out : Bytes} (holds : Holds d path bak out)
    {src : Copy} (whole : src.size = src.buf.length) :
    outcome ((deliver src).run w.answer d) = ⟨1, [src.buf], path, bak, written src.buf out⟩ := by
  have other : NvFile.path ≠ .pathOut := by decide
  have other' : NvFile.bakPath ≠ .pathOut := by decide
  rw [run_deliver w d whole]
  simp only [outcome, Disk.update_same, d.update_other other, d.update_other other', holds.path,
    holds.bakPath, holds.pathOut, File.put_start, delivered, List.filterMap_cons,
    List.filterMap_nil]

/-- The repair of the other copy shows in that copy's file only. -/
theorem outcome_restore (w : World) {d : Disk} {dst : NvFile} (copy : dst.IsCopy) {src : Copy}
    (sector : src.header.length = RAMNV_SECT_SIZE) {img : Bytes}
    (same : src.header ++ src.buf = img) {content : Bytes} (start : d dst = ⟨content, 0⟩) :
    outcome ((restore src dst >>= fun _ => deliver src).run w.answer d) =
      outcome ((deliver src).run w.answer
        (d.update dst fun _ => ⟨written img content, img.length⟩)) := by
  subst same
  have restored : d.update dst ((·.put src.buf) ∘ (·.put src.header)) =
      d.update dst fun _ =>
        ⟨written (src.header ++ src.buf) content, (src.header ++ src.buf).length⟩ := by
    apply Disk.update_eq start
    simp only [Function.comp, File.put_start, File.put_next]
  have quiet (data : Bytes) : MayWrite [.path, .bakPath] (.write dst data) := by
    cases dst with
    | pathOut => exact absurd rfl copy
    | _ => simp [MayWrite]
  rw [Prog.run_bind, run_restore w d dst sector, restored]
  simp only [outcome, List.cons_append, List.nil_append]
  rw [delivered_cons (quiet _), delivered_cons (quiet _)]

theorem outcome_repair (w : World) {d : Disk} {path bak out : Bytes} (holds : Holds d path bak out)
    (start : d .path = ⟨path, 0⟩) (start' : d .bakPath = ⟨bak, 0⟩)
    (allocated : 0 ≤ (headerOf path).size) (allocated' : 0 ≤ (headerOf bak).size) :
    outcome ((repair (copyOf path) (copyOf bak)).run w.answer d) = settle path bak out := by
  rw [repair_copyOf]
  by_cases good : Valid path
  · obtain ⟨buf, same, whole, sector⟩ := copyOf_valid good allocated
    by_cases good' : Valid bak
    · simp only [good, good', if_true, settle]
      rw [outcome_deliver w holds whole, buf]
    · simp only [good, good', if_true, if_false, settle]
      have after : Holds (d.update .bakPath fun _ =>
          ⟨written (image path) bak, (image path).length⟩) path
          (written (image path) bak) out :=
        ⟨holds.path, by rw [Disk.update_same], holds.pathOut⟩
      rw [outcome_restore w (by decide) sector same start', outcome_deliver w after whole, buf]
  · by_cases good' : Valid bak
    · obtain ⟨buf, same, whole, sector⟩ := copyOf_valid good' allocated'
      simp only [good, good', if_true, if_false, settle]
      have after : Holds (d.update .path fun _ =>
          ⟨written (image bak) path, (image bak).length⟩)
          (written (image bak) path) bak out :=
        ⟨by rw [Disk.update_same], holds.bakPath, holds.pathOut⟩
      rw [outcome_restore w (by decide) sector same start, outcome_deliver w after whole, buf]
    · simp only [good, good', if_false, settle]
      have other : NvFile.path ≠ .pathOut := by decide
      have other' : NvFile.bakPath ≠ .pathOut := by decide
      simp only [write, Prog.call_bind, Prog.ret_bind, Prog.pure_eq, Prog.run_call, Prog.run_ret,
        World.answer, outcome, Disk.update_same, d.update_other other, d.update_other other',
        holds.path, holds.bakPath, holds.pathOut, File.put_start, delivered,
        List.filterMap_cons, List.filterMap_nil]

/-- The rest of the run only closes files and frees buffers. -/
theorem outcome_finish (w : World) {d : Disk} {path bak out : Bytes}
    (start : d .path = ⟨path, 0⟩) (bakContent : (d .bakPath).content = bak)
    (outContent : (d .pathOut).content = out)
    (allocated : 0 ≤ (headerOf path).size) (allocated' : 0 ≤ (headerOf bak).size) :
    outcome ((finish (copyOf path) (copyOf bak)).run w.answer d) =
      if w.opens .pathOut then settle path bak out else ⟨0, [], path, bak, out⟩ := by
  simp only [finish, lseek, open_, enableBusmonitor, enableDmcMpu, close, free, Prog.call_bind,
    Prog.ret_bind, Prog.pure_eq, Prog.run_call, World.answer]
  by_cases opened : w.opens .pathOut = true
  · have holds : Holds ((d.update .bakPath File.rewind).update .pathOut File.rewind) path bak out := by
      constructor
      · exact congrArg File.content start
      · exact bakContent
      · exact congrArg (File.mk · 0) outContent
    have repaired := outcome_repair w holds start (congrArg (File.mk · 0) bakContent)
      allocated allocated'
    simp only [opened, if_true, Prog.run_call, World.answer, Prog.run_bind, Prog.run_ret]
    rw [← repaired]
    simp only [outcome, delivered, List.filterMap_cons, List.filterMap_append, List.filterMap_nil,
      List.append_nil]
  · simp only [opened, Bool.false_eq_true, if_false, Prog.run_call, Prog.run_ret, World.answer]
    simp only [outcome, delivered, List.filterMap_cons, List.filterMap_nil,
      d.update_content .bakPath _ File.rewind rfl, start, bakContent, outContent]

theorem outcome_quiet {trace : NvTrace} (quiet : ∀ e ∈ trace, MayWrite [] e.op)
    (ran : NvTrace × Disk × Int) : outcome (trace ++ ran.1, ran.2) = outcome ran := by
  simp only [outcome, delivered_append, delivered_quiet quiet, List.nil_append]

/-- Reading a copy moves one offset and tells what is in the file. -/
theorem reads_copy (w : World) (f : NvFile) (d : Disk) :
    ∃ trace offset, (∀ e ∈ trace, MayWrite [] e.op) ∧ (readCopy f).run w.answer d =
      (trace, d.update f (fun file => ⟨file.content, offset⟩), w.found f (d f).content) := by
  obtain ⟨trace, offset, ran⟩ := run_readCopy w f d
  have runs := runs_world w (readCopy f) d
  rw [ran] at runs
  exact ⟨trace, offset, runs.allowed (calls_readCopy f), ran⟩

theorem outcome_readBackup (w : World) {d : Disk} {path bak out : Bytes}
    (pathContent : (d .path).content = path) (bakContent : (d .bakPath).content = bak)
    (outContent : (d .pathOut).content = out) (allocated : 0 ≤ (headerOf path).size) :
    outcome ((readBackup (copyOf path)).run w.answer d) =
      if w.opens .bakPath = true ∧ w.Buffers .bakPath bak ∧ w.opens .pathOut = true then
        settle path bak out
      else ⟨0, [], path, bak, out⟩ := by
  obtain ⟨trace, offset, quiet, ran⟩ := reads_copy w .bakPath (d.update .path File.rewind)
  have sought : (lseek .path).run w.answer d =
      ([⟨.lseek .path, some ()⟩], d.update .path File.rewind, ()) := rfl
  have bakContent' : (d.update .path File.rewind .bakPath).content = bak := bakContent
  rw [bakContent'] at ran
  rw [readBackup, Prog.run_bind, sought, outcome_quiet (by simp [MayWrite]), Prog.run_bind, ran,
    outcome_quiet quiet]
  by_cases opened : w.opens .bakPath = true
  · by_cases granted : w.Buffers .bakPath bak
    · have start : (d.update .path File.rewind).update .bakPath (fun file => ⟨file.content, offset⟩)
          .path = ⟨path, 0⟩ := congrArg (File.mk · 0) pathContent
      simp only [World.found, opened, granted, if_true, true_and]
      exact outcome_finish w start bakContent outContent allocated granted.2.1
    · simp only [World.found, opened, granted, if_true, if_false, false_and, and_false, close,
        free, Prog.call_bind, Prog.ret_bind, Prog.pure_eq, Prog.run_call, Prog.run_ret, World.answer]
      rw [← pathContent, ← bakContent, ← outContent]
      rfl
  · simp only [World.found, opened, Bool.false_eq_true, if_false, false_and, close, free,
      Prog.call_bind, Prog.ret_bind, Prog.pure_eq, Prog.run_call, Prog.run_ret, World.answer]
    rw [← pathContent, ← bakContent, ← outContent]
    rfl

theorem outcome_readNvPartition (w : World) (d : Disk) :
    outcome (readNvPartition.run w.answer d) =
      w.recover (d .path).content (d .bakPath).content (d .pathOut).content := by
  obtain ⟨trace, offset, quiet, ran⟩ := reads_copy w .path d
  rw [readNvPartition, Prog.run_bind, ran, outcome_quiet quiet]
  by_cases opened : w.opens .path = true
  · by_cases granted : w.Buffers .path (d .path).content
    · simp only [World.found, opened, granted, if_true]
      have rest := @outcome_readBackup w (d.update .path fun file => ⟨file.content, offset⟩)
        (d .path).content _ _ rfl rfl rfl granted.2.1
      rw [rest]
      simp only [World.recover, World.Ready, opened, granted, true_and]
      rfl
    · simp only [World.found, opened, granted, if_true, if_false, close, Prog.call_bind,
        Prog.ret_bind, Prog.pure_eq, Prog.run_call, Prog.run_ret, World.answer]
      simp only [World.recover, World.Ready, granted, false_and, and_false, if_false]
      rfl
  · simp only [World.found, opened, Bool.false_eq_true, if_false]
    simp only [World.recover, World.Ready, opened, Bool.false_eq_true, false_and, if_false]
    rfl

/-- The payload that is to be recovered: the primary's when that is valid. -/
def better (d : Disk) : Bytes :=
  payload (if Valid (d .path).content then (d .path).content else (d .bakPath).content)

/-- `read_nv_partition` returns 1 and the output starts with the better payload. -/
def Recovers (w : World) (d : Disk) : Prop :=
  let ran := readNvPartition.run w.answer d
  ran.2.2 = 1 ∧ better d <+: (ran.2.1 .pathOut).content

instance (w : World) (d : Disk) : Decidable (Recovers w d) := by
  unfold Recovers; infer_instance

theorem settle_recovers {path bak : Bytes} (one : Valid path ∨ Valid bak) (out : Bytes) :
    (settle path bak out).result = 1 ∧
      payload (if Valid path then path else bak) <+: (settle path bak out).pathOut := by
  by_cases good : Valid path
  · simp only [settle, good, if_true]
    exact ⟨trivial, List.prefix_append _ _⟩
  · have good' := one.resolve_left good
    simp only [settle, good, good', if_true, if_false]
    exact ⟨trivial, List.prefix_append _ _⟩

/-- With one valid copy, and all files open: the run recovers it exactly when both
    files hold a header sector and both buffers that the headers ask for are granted. -/
theorem recovers_iff (w : World) (d : Disk) (opens : ∀ f, w.opens f = true) (one : SomeValid d) :
    Recovers w d ↔
      w.Buffers .path (d .path).content ∧ w.Buffers .bakPath (d .bakPath).content := by
  have computed := outcome_readNvPartition w d
  have result := congrArg Recovery.result computed
  have output := congrArg Recovery.pathOut computed
  simp only [outcome, World.recover, World.Ready, opens, true_and, and_true] at result output
  simp only [Recovers, result, output]
  by_cases granted : w.Buffers .path (d .path).content ∧ w.Buffers .bakPath (d .bakPath).content
  · rw [if_pos granted]
    exact iff_of_true (settle_recovers one _) granted
  · rw [if_neg granted]
    exact iff_of_false (fun both => absurd both.1 (by simp)) granted

/-- The primary is a header sector of zeros, and the backup is recovered. -/
theorem recovers_from_backup :
    Recovers allGranted (diskOf (List.replicate 512 0) goodFile) :=
  (recovers_iff allGranted _ (fun _ => rfl) (Or.inr (by decide +kernel))).mpr (by decide +kernel)

/-- The backup is empty, and the valid primary is not delivered. -/
theorem short_backup_not_recovered :
    (∀ f, allGranted.opens f = true) ∧ (∀ f n, allGranted.allocates f n = true) ∧
    Valid (diskOf goodFile [] .path).content ∧ ¬ Recovers allGranted (diskOf goodFile []) := by
  refine ⟨fun _ => rfl, fun _ _ => rfl, ?_, ?_⟩ <;> decide +kernel

theorem header_written {src : Bytes} (valid : Valid src) (old : Bytes) :
    header (written (image src) old) = header src := by
  have whole := valid.whole
  have sector : (header src).length = RAMNV_SECT_SIZE := by
    rw [header, List.length_take]
    omega
  rw [written, image, List.append_assoc, header_append sector]

/-- A file that was repaired from a valid one is valid and holds the same payload. -/
theorem valid_written {src : Bytes} (valid : Valid src) (old : Bytes) :
    Valid (written (image src) old) ∧ payload (written (image src) old) = payload src := by
  have whole := valid.whole
  have sector : (header src).length = RAMNV_SECT_SIZE := by
    rw [header, List.length_take]
    omega
  have length := (payload_length src).mpr (by omega)
  exact ⟨valid_append sector length valid.checks _, payload_append sector length _⟩

theorem buffers_written {w : World} {src : Bytes} (valid : Valid src)
    (allocated : 0 ≤ (headerOf src).size) (grants : ∀ f n, w.allocates f n = true) (f : NvFile)
    (old : Bytes) : w.Buffers f (written (image src) old) := by
  have whole := (valid_written valid old).1.whole
  refine ⟨by omega, ?_, grants f _⟩
  rw [headerOf, header_written valid]
  exact allocated

/-- When a run has delivered a payload, both files are valid, and a second run finds
    the same payload and nothing to repair. -/
theorem recover_again {w later : World} {path bak out : Bytes}
    (opens : ∀ f, later.opens f = true) (grants : ∀ f n, later.allocates f n = true)
    (done : (w.recover path bak out).result = 1) (out' : Bytes) :
    ∃ src, (src = path ∨ src = bak) ∧ Valid src ∧
      (w.recover path bak out).delivered = [payload src] ∧
      Valid (w.recover path bak out).path ∧ Valid (w.recover path bak out).bakPath ∧
      later.recover (w.recover path bak out).path (w.recover path bak out).bakPath out' =
        ⟨1, [payload src], (w.recover path bak out).path, (w.recover path bak out).bakPath,
          written (payload src) out'⟩ := by
  by_cases ready : w.Ready path bak
  · have again {path bak : Bytes} (good : Valid path) (good' : Valid bak)
        (buffers : later.Buffers .path path) (buffers' : later.Buffers .bakPath bak) :
        later.recover path bak out' =
          ⟨1, [payload path], path, bak, written (payload path) out'⟩ := by
      have ready : later.Ready path bak := ⟨opens _, buffers, opens _, buffers', opens _⟩
      simp only [World.recover, ready, settle, good, good', if_true]
    have here : w.recover path bak out = settle path bak out := if_pos ready
    rw [here] at done ⊢
    obtain ⟨-, ⟨sector, size, -⟩, -, ⟨sector', size', -⟩, -⟩ := ready
    by_cases good : Valid path
    · refine ⟨path, Or.inl rfl, good, ?_⟩
      by_cases good' : Valid bak
      · simp only [settle, good, good', if_true, true_and]
        exact again good good' ⟨sector, size, grants _ _⟩ ⟨sector', size', grants _ _⟩
      · have repaired := valid_written good bak
        simp only [settle, good, good', if_true, if_false, true_and, repaired.1]
        exact again good repaired.1 ⟨sector, size, grants _ _⟩
          (buffers_written good size grants _ bak)
    · by_cases good' : Valid bak
      · have repaired := valid_written good' path
        refine ⟨bak, Or.inr rfl, good', ?_⟩
        simp only [settle, good, good', if_true, if_false, true_and, repaired.1]
        have second := again repaired.1 good' (buffers_written good' size' grants _ path)
          ⟨sector', size', grants _ _⟩
        rw [repaired.2] at second
        exact second
      · simp only [settle, good, good', if_false] at done
        exact absurd done (by decide)
  · simp only [World.recover, if_neg ready] at done
    exact absurd done (by decide)

/-- When a run with full reads and writes returns 1, it has delivered the payload of a
    copy that was valid, both copies are valid, and the next run with nothing failing
    returns 1, delivers the same and leaves both copies as they are. -/
theorem repair_converges (w later : World) (d : Disk)
    (done : (readNvPartition.run w.answer d).2.2 = 1)
    (opens : ∀ f, later.opens f = true) (grants : ∀ f n, later.allocates f n = true) :
    let first := readNvPartition.run w.answer d
    let second := readNvPartition.run later.answer first.2.1
    (∃ f : NvFile, f.IsCopy ∧ Valid (d f).content ∧ delivered first.1 = [payload (d f).content]) ∧
    Valid (first.2.1 .path).content ∧ Valid (first.2.1 .bakPath).content ∧
    second.2.2 = 1 ∧ delivered second.1 = delivered first.1 ∧
    (second.2.1 .path).content = (first.2.1 .path).content ∧
    (second.2.1 .bakPath).content = (first.2.1 .bakPath).content := by
  intro first second
  have computed : outcome first = _ := outcome_readNvPartition w d
  have computed' : outcome second = _ := outcome_readNvPartition later first.2.1
  have result : (w.recover (d .path).content (d .bakPath).content (d .pathOut).content).result = 1 := by
    rw [← computed]
    exact done
  obtain ⟨src, from_, valid, sent, good, good', again⟩ :=
    recover_again opens grants result (first.2.1 .pathOut).content
  rw [← computed] at sent good good' again
  have second_run := computed'.trans again
  refine ⟨?_, good, good', ?_, ?_, ?_, ?_⟩
  · cases from_ with
    | inl primary => exact ⟨.path, by decide, primary ▸ valid, primary ▸ sent⟩
    | inr backup => exact ⟨.bakPath, by decide, backup ▸ valid, backup ▸ sent⟩
  · exact congrArg Recovery.result second_run
  · exact (congrArg Recovery.delivered second_run).trans sent.symm
  · exact congrArg Recovery.path second_run
  · exact congrArg Recovery.bakPath second_run

/-- A zeroed primary is repaired from the backup, and then left alone. -/
theorem repair_converges_from_backup :
    let first := readNvPartition.run allGranted.answer (diskOf (List.replicate 512 0) goodFile)
    let second := readNvPartition.run allGranted.answer first.2.1
    (second.2.1 .path).content = (first.2.1 .path).content :=
  (repair_converges allGranted allGranted (diskOf (List.replicate 512 0) goodFile)
    (by decide +kernel) (fun _ => rfl) (fun _ _ => rfl)).2.2.2.2.2.1

end ModemControl.Nv
