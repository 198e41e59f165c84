import ModemControl.ImageClear
import ModemControl.ImageCopy
import ModemControl.LoadReports

/-! # What modem_load_image leaves

Every run comes to an end. When it returns 0, the region has been given the bytes of the
image without gaps only if no write of the copy loop fell short; where all writes are
complete, a region that is cleared first holds no stale bytes whatever else fails.
-/

namespace ModemControl.LoadFiles

open Foundation Load

/-- No byte has moved. -/
structure Idle (s s' : Files) : Prop where
  input : s'.input = s.input
  region : s'.region = s.region
  written : s'.written = s.written
  short : s'.short = s.short

theorem Idle.trans {s s₁ s' : Files} (first : Idle s s₁) (second : Idle s₁ s') : Idle s s' :=
  ⟨second.input.trans first.input, second.region.trans first.region,
    second.written.trans first.written, second.short.trans first.short⟩

theorem idle_moveTo (s : Files) (f : Fd) (pos : Nat) : Idle s (s.moveTo f pos) :=
  ⟨rfl, rfl, rfl, rfl⟩

/-- A descriptor stands at the offset, or the `lseek` to -1 was taken for a success. -/
def At (pos : Nat) (offset : Int) : Prop := pos = offset.toNat ∧ (0 ≤ offset ∨ offset = -1)

/-- What becomes of the image behind the clearing. -/
inductive CopyPhase (ok : (op : FileOp) → op.Res → Prop) (img : ImageLoad)
    (offsetin offsetout size : BitVec 32) (s : Files) (ret : Int) (s' : Files) : Prop where
  | unopened (failed : ret = -1) (idle : Idle s s')
      (which : s.input = none ∨ ok (.open_ .fdout img.pathW) false)
  | unsought (failed : ret = -1) (idle : Idle s s') (seekFailed : s'.seekFailed = true)
  | copied (from_ : Files) (data : Bytes) (idle : Idle s from_)
      (inPos : At (from_.pos .fdin) offsetin.toInt) (outPos : At (from_.pos .fdout) offsetout.toInt)
      (moved : Moved from_ s' data) (finished : Finished size.toNat ret s' data)

theorem CopyPhase.behind {ok : (op : FileOp) → op.Res → Prop} {img : ImageLoad}
    {offsetin offsetout size : BitVec 32} {s s₁ s' : Files} {ret : Int} (first : Idle s s₁)
    (phase : CopyPhase ok img offsetin offsetout size s₁ ret s') :
    CopyPhase ok img offsetin offsetout size s ret s' := by
  cases phase with
  | unopened failed idle which =>
      rw [first.input] at which
      exact .unopened failed (first.trans idle) which
  | unsought failed idle seekFailed => exact .unsought failed (first.trans idle) seekFailed
  | copied from_ data idle inPos outPos moved finished =>
      exact .copied from_ data (first.trans idle) inPos outPos moved finished

/-- The calls that concern neither file. -/
def FileOp.quiet : FileOp → Bool
  | .malloc _ | .free | .close _ | .enableBusmonitor _ | .enableDmcMpu _ => true
  | _ => false

theorem step_quiet {op : FileOp} (quiet : op.quiet = true) {s s' : Files} {r : op.Res}
    (step : s.Step op r s') : s' = s := by
  cases op with
  | malloc | free | close | enableBusmonitor | enableDmcMpu => exact step
  | _ => cases quiet

section

variable {ok : (op : FileOp) → op.Res → Prop} (answers : Answers ok)

include answers

/-- A call that leaves the files alone. -/
theorem ends_quiet {α : Type} {op : FileOp} (quiet : op.quiet = true) {f : op.Res → FileProg α}
    {post : α → Files → Prop} {s : Files}
    (rest : ∀ r, ok op r → Prog.Ends (Allowed ok) (f r) post s) :
    Prog.Ends (Allowed ok) (Prog.call op .ret >>= f) post s := by
  have fault : op ≠ .fault := by
    rintro rfl
    cases quiet
  have more : op ≠ .more := by
    rintro rfl
    cases quiet
  refine (ends_op answers op fault more s).bind ?_
  intro r s' answered
  obtain rfl := step_quiet quiet answered.1
  exact rest r answered.2

theorem ends_lseek (f : Fd) (offset : Int) {s : Files} (start : s.pos f = 0) :
    Prog.Ends (Allowed ok) (lseek f offset .set)
      (fun moved s' => Idle s s' ∧ (∀ g, g ≠ f → s'.pos g = s.pos g) ∧
        (moved = offset → At (s'.pos f) offset) ∧ (moved ≠ offset → s'.seekFailed = true)) s := by
  refine (ends_op answers (.lseek f offset .set) (by simp) (by simp) s).mono ?_
  intro moved s' answered
  rcases answered.1 with ⟨same, valid, rfl⟩ | ⟨failed, rfl⟩
  · refine ⟨⟨rfl, rfl, rfl, rfl⟩, ?_, ?_, fun other => absurd same other⟩
    · intro g other
      exact Function.update_of_ne other _ s.pos
    · intro _
      exact ⟨Function.update_self f _ s.pos, Or.inl valid⟩
  · refine ⟨⟨rfl, rfl, rfl, rfl⟩, fun _ _ => rfl, ?_, fun _ => rfl⟩
    intro same
    obtain rfl : offset = -1 := same.symm.trans failed
    exact ⟨start, Or.inr rfl⟩

theorem ends_copyImage {bufSize : BitVec 32} (room : 0 < bufSize.toNat) {rounds : Nat}
    {size : BitVec 32} (some : 0 < size.toNat) (small : size.toNat < 0x80000000)
    (enough : size.toNat ≤ rounds) (img : ImageLoad) (offsetin offsetout : BitVec 32) {s : Files}
    (startIn : s.pos .fdin = 0) (startOut : s.pos .fdout = 0) :
    Prog.Ends (Allowed ok) (copyImage rounds offsetin offsetout bufSize size)
      (CopyPhase ok img offsetin offsetout size s) s := by
  unfold copyImage
  refine (ends_lseek answers .fdin offsetin.toInt startIn).bind ?_
  intro moved s₁ answered
  obtain ⟨idle₁, others₁, there₁, failed₁⟩ := answered
  split
  · rename_i failed
    exact .unsought rfl idle₁ (failed₁ failed)
  · rename_i inThere
    have startOut₁ : s₁.pos .fdout = 0 := (others₁ .fdout (by decide)).trans startOut
    refine (ends_lseek answers .fdout offsetout.toInt startOut₁).bind ?_
    intro moved s₂ answered
    obtain ⟨idle₂, others₂, there₂, failed₂⟩ := answered
    have idle := idle₁.trans idle₂
    split
    · rename_i failed
      exact .unsought rfl idle (failed₂ failed)
    · rename_i outThere
      refine (ends_copyLoop answers room some small enough s₂).mono ?_
      intro ret s' copied
      obtain ⟨data, moved, finished⟩ := copied
      have inPos := there₁ (not_not.mp inThere)
      rw [← others₂ .fdin (by decide)] at inPos
      exact .copied s₂ data idle inPos (there₂ (not_not.mp outThere)) moved finished

theorem ends_imageBuffer {size : BitVec 32} (some : 0 < size.toNat) (s : Files) :
    Prog.Ends (Allowed ok) (imageBuffer size) (fun buf s' => 0 < buf.1.toNat ∧ s' = s) s := by
  unfold imageBuffer
  split
  · refine ends_quiet answers rfl ?_
    intro allocated _
    split
    · exact ⟨some, rfl⟩
    · exact ⟨by decide, rfl⟩
  · exact ⟨by decide, rfl⟩

/-- The whole function, with what is known of the clearing. -/
theorem ends_modemLoadImage {rounds : Nat} {img : ImageLoad} {offsetin offsetout size : BitVec 32}
    (some : 0 < size.toNat) (small : size.toNat < 0x80000000) (enough : size.toNat ≤ rounds)
    {s : Files} {Clear : Files → Prop}
    (clears : Prog.Ends (Allowed ok)
      (Prog.when (getFlag img.flag CLR_FLAG) (modemClearRegion rounds img.pathW size))
      (fun _ s₁ => Clear s₁) s) :
    Prog.Ends (Allowed ok) (modemLoadImage rounds img offsetin offsetout size)
      (fun ret s' => ∃ s₁, Clear s₁ ∧ CopyPhase ok img offsetin offsetout size s₁ ret s') s := by
  unfold modemLoadImage
  refine (ends_imageBuffer answers some s).bind ?_
  intro buf _ buffer
  obtain ⟨room, rfl⟩ := buffer
  refine ends_quiet answers rfl fun _ _ => ?_
  refine ends_quiet answers rfl fun _ _ => ?_
  refine clears.bind ?_
  intro _ s₁ cleared
  refine (ends_op answers (.open_ .fdin img.pathR) (by simp) (by simp) s₁).bind ?_
  intro opened s₂ answered
  obtain ⟨⟨present, rfl⟩, _⟩ := answered
  cases opened with
  | false =>
      have none : s₁.input = none := Option.not_isSome_iff_eq_none.mp (by
        rw [← present rfl]
        exact Bool.false_ne_true)
      refine ends_quiet answers rfl fun _ _ => ?_
      refine ends_quiet answers rfl fun _ _ => ?_
      exact ⟨s₁, cleared, .unopened rfl ⟨rfl, rfl, rfl, rfl⟩ (Or.inl none)⟩
  | true =>
      have idleIn := idle_moveTo s₁ .fdin 0
      refine (ends_op answers (.open_ .fdout img.pathW) (by simp) (by simp) _).bind ?_
      intro opened s₂ answered
      obtain ⟨⟨_, rfl⟩, may⟩ := answered
      cases opened with
      | false =>
          refine ends_quiet answers rfl fun _ _ => ?_
          refine ends_quiet answers rfl fun _ _ => ?_
          refine ends_quiet answers rfl fun _ _ => ?_
          exact ⟨s₁, cleared, .unopened rfl idleIn (Or.inr may)⟩
      | true =>
          have idle := idleIn.trans (idle_moveTo (s₁.moveTo .fdin 0) .fdout 0)
          refine (ends_copyImage answers room some small enough img offsetin offsetout rfl rfl).bind ?_
          intro res s₃ phase
          refine ends_quiet answers rfl fun _ _ => ?_
          refine ends_quiet answers rfl fun _ _ => ?_
          have freed : Prog.Ends (Allowed ok) (Prog.when buf.2 free) (fun _ s' => s' = s₃) s₃ :=
            .when (fun _ => (ends_op answers .free (by simp) (by simp) s₃).mono fun _ _ => And.left)
              fun _ => rfl
          refine freed.bind ?_
          rintro _ _ rfl
          refine ends_quiet answers rfl fun _ _ => ?_
          refine ends_quiet answers rfl fun _ _ => ?_
          exact ⟨s₁, cleared, phase.behind idle⟩

end

/-- A load that returns does so with 0 or -1. -/
theorem CopyPhase.result {ok : (op : FileOp) → op.Res → Prop} {img : ImageLoad}
    {offsetin offsetout size : BitVec 32} {s s' : Files} {ret : Int}
    (phase : CopyPhase ok img offsetin offsetout size s ret s') : ret = 0 ∨ ret = -1 := by
  cases phase with
  | unopened failed => exact Or.inr failed
  | unsought failed => exact Or.inr failed
  | copied _ _ _ _ _ _ finished => exact finished.result

/-- What the loader takes for granted of a load: a run that finishes returns 0 or -1. -/
theorem modemLoadImage_returns {torn : Files → FileOp → Files → Prop} {rounds : Nat}
    {img : ImageLoad} {offsetin offsetout size : BitVec 32} {s s' : Files}
    {trace : List (Event FileOp FileOp.Res)} {ret : Int} (some : 0 < size.toNat)
    (small : size.toNat < 0x80000000) (enough : size.toNat ≤ rounds)
    (runs : Prog.Runs (Allowed fun _ _ => True) torn
      (modemLoadImage rounds img offsetin offsetout size) s trace s' (Option.some ret)) :
    (LoadOp.modemLoadImage img offsetin offsetout size).Returns ret := by
  have clears : Prog.Ends (Allowed fun _ _ => True)
      (Prog.when (getFlag img.flag CLR_FLAG) (modemClearRegion rounds img.pathW size))
      (fun _ _ => True) s := by
    refine .when (fun _ => ?_) fun _ => trivial
    exact (ends_modemClearRegion answers_any some enough img.pathW s).mono fun _ _ _ => trivial
  obtain ⟨_, _, phase⟩ := (ends_modemLoadImage answers_any some small enough clears).runs runs
  exact phase.result

/-- The world in which a plain image of a size that is an int is loaded by the calls of
    `modem_load_image`. -/
def loading (rounds : Nat) (world : Files → (op : LoadOp) → op.Res → Files → Prop) (s : Files) :
    (op : LoadOp) → op.Res → Files → Prop
  | .modemLoadImage img offsetin offsetout size, ret, s' =>
      0 < size.toNat ∧ size.toNat < 0x80000000 ∧ size.toNat ≤ rounds ∧
        ∃ trace, Prog.Runs (Allowed fun _ _ => True) (fun _ _ _ => False)
          (modemLoadImage rounds img offsetin offsetout size) s trace s' (Option.some ret)
  | op, r, s' => op.Returns r ∧ world s op r s'

theorem loading_returns {rounds : Nat} {world : Files → (op : LoadOp) → op.Res → Files → Prop}
    (s : Files) (op : LoadOp) (r : op.Res) (s' : Files) (answered : loading rounds world s op r s') :
    op.Returns r := by
  cases op with
  | modemLoadImage img offsetin offsetout size =>
      obtain ⟨some, small, enough, _, runs⟩ := answered
      exact modemLoadImage_returns some small enough runs
  | _ => exact answered.1

/-- There a pass says whether all images were loaded, without a word about their results. -/
theorem pass_of_loads {rounds : Nat} {world : Files → (op : LoadOp) → op.Res → Files → Prop}
    {torn : Files → LoadOp → Files → Prop} {b : Build} {load : LoadValue}
    {loadFlag skipFlag : BitVec 32} {s s' : Files} {trace : List (Event LoadOp LoadOp.Res)} {ret : Int}
    (runs : Prog.Runs (loading rounds world) torn (loadImgFromTable b load loadFlag skipFlag) s trace
      s' (Option.some ret)) :
    ret = 0 ↔ ∀ a ∈ attempts trace, a.image = true → a.Succeeded :=
  pass_zero_iff (loadImgFromTable_pass runs) (runs.answered loading_returns)

/-- Before the call: nothing has been opened, written or gone wrong. -/
def fresh (input : Option Bytes) (region : Nat → UInt8) : Files where
  input := input
  region := region
  pos := fun _ => 0
  written := []
  short := fun _ => false
  readFailed := false
  seekFailed := false

/-- What was written are the bytes of the input from `offsetin` on, in order, at the addresses
    from `offsetout` on. -/
def CopiedAll (content : Bytes) (offsetin offsetout size : BitVec 32) (s' : Files) : Prop :=
  ∃ i o : Nat, offsetin.toInt = i ∧ offsetout.toInt = o ∧ i + size.toNat ≤ content.length ∧
    s'.written = ((content.drop i).take size.toNat).zipIdx o

section

variable {img : ImageLoad} {offsetin offsetout size : BitVec 32}

theorem toInt_of_at {pos : Nat} {offset : BitVec 32} (there : At pos offset.toInt)
    (valid : offset ≠ -1) : offset.toInt = pos := by
  obtain ⟨rfl, positive | minus⟩ := there
  · exact (Int.toNat_of_nonneg positive).symm
  · exact absurd (BitVec.eq_of_toInt_eq minus) valid

theorem ne_of_toInt {offset : BitVec 32} {i : Nat} (valid : offset.toInt = i) : offset ≠ -1 := by
  intro minus
  have value : offset.toInt = -1 := by rw [minus]; rfl
  omega

theorem eq_take_of_prefix {data available : Bytes} {n : Nat} (part : data <+: available)
    (all : data.length = n) : data = available.take n := by
  rw [← all]
  exact List.prefix_iff_eq_take.mp part

/-- A copy loop that ends well has copied everything exactly when nothing fell short. -/
theorem copiedAll_iff {s s' : Files} {data : Bytes} (some : 0 < size.toNat)
    (moved : Moved s s' data) (all : data.length = size.toNat) (written : s.written = []) (short : s.short .fdout = false)
    (inPos : At (s.pos .fdin) offsetin.toInt) (outPos : At (s.pos .fdout) offsetout.toInt) :
    CopiedAll s.content offsetin offsetout size s' ↔
      s'.short .fdout = false ∧ offsetin ≠ -1 ∧ offsetout ≠ -1 := by
  have whole : data = s.ahead.take size.toNat := eq_take_of_prefix moved.ahead all
  constructor
  · intro copied
    obtain ⟨i, o, offIn, offOut, room, log⟩ := copied
    refine ⟨?_, ?_, ?_⟩
    · cases fell : s'.short .fdout with
      | false => rfl
      | true =>
          rcases moved.short fell with before | fewer
          · exact before.symm.trans short
          · rw [log, written, List.length_zipIdx, List.length_take, List.length_drop,
              List.length_nil] at fewer
            omega
    · exact ne_of_toInt offIn
    · exact ne_of_toInt offOut
  · intro complete
    obtain ⟨full, validIn, validOut⟩ := complete
    refine ⟨s.pos .fdin, s.pos .fdout, toInt_of_at inPos validIn, toInt_of_at outPos validOut, ?_, ?_⟩
    · have bound := moved.ahead.length_le
      rw [Files.ahead, List.length_drop] at bound
      omega
    · rw [moved.log full, written, whole]
      rfl

/-- Every load comes to an end, and when it returns 0, the image was copied without gaps
    exactly if no write of the copy fell short, and neither offset is the -1 with which
    `lseek` reports a failure. -/
theorem modemLoadImage_copies_iff (some : 0 < size.toNat) (small : size.toNat < 0x80000000)
    {rounds : Nat} (enough : size.toNat ≤ rounds) (img : ImageLoad)
    (offsetin offsetout : BitVec 32) (input : Option Bytes) (region : Nat → UInt8) :
    Prog.Ends (Allowed fun _ _ => True) (modemLoadImage rounds img offsetin offsetout size)
      (fun ret s' => ret = 0 →
        (CopiedAll (input.getD []) offsetin offsetout size s' ↔
          s'.short .fdout = false ∧ offsetin ≠ -1 ∧ offsetout ≠ -1))
      (fresh input region) := by
  have clears : Prog.Ends (Allowed fun _ _ => True)
      (Prog.when (getFlag img.flag CLR_FLAG) (modemClearRegion rounds img.pathW size))
      (fun _ s₁ => Beside (fresh input region) s₁) (fresh input region) := by
    refine .when (fun _ => ?_) fun _ => Beside.refl _
    exact (ends_modemClearRegion answers_any some enough img.pathW _).mono fun _ _ => And.left
  refine (ends_modemLoadImage answers_any some small enough clears).mono ?_
  intro ret s' ended zero
  obtain ⟨s₁, beside, phase⟩ := ended
  cases phase with
  | unopened failed => exact absurd (failed.symm.trans zero) (by decide)
  | unsought failed => exact absurd (failed.symm.trans zero) (by decide)
  | copied from_ data idle inPos outPos moved finished =>
      have input' : from_.input = input := idle.input.trans beside.input
      have content : from_.content = input.getD [] := congrArg (·.getD []) input'
      rw [← content]
      refine copiedAll_iff some moved (finished.success zero) ?_ ?_ inPos outPos
      · exact idle.written.trans beside.written
      · exact (congrFun idle.short .fdout).trans beside.short

end

def plainImg : ImageLoad := ⟨bytes "/proc/cptl/modem", bytes "/dev/modem", bytes "modem", 0, 4, 0⟩

def fourBytes : Files := fresh (some [1, 2, 3, 4]) fun _ => 0xAA

theorem modemLoadImage_copies_fourBytes :
    Prog.Ends (Allowed fun _ _ => True) (modemLoadImage 4 plainImg 0 0 4)
      (fun ret s' => ret = 0 →
        (CopiedAll [1, 2, 3, 4] 0 0 4 s' ↔
          s'.short .fdout = false ∧ (0 : BitVec 32) ≠ -1 ∧ (0 : BitVec 32) ≠ -1))
      fourBytes :=
  modemLoadImage_copies_iff (by decide) (by decide) (by decide) plainImg 0 0
    (some [1, 2, 3, 4]) fun _ => 0xAA

/-- All four bytes are read and two of them written, and the load has succeeded. -/
theorem modemLoadImage_leaves_gap :
    ¬ Prog.Ends (Allowed fun _ _ => True) (modemLoadImage 4 plainImg 0 0 4)
      (fun ret s' => ret = 0 → CopiedAll [1, 2, 3, 4] 0 0 4 s') fourBytes := by
  intro ends
  have ends := (ends.answer () ⟨rfl, trivial⟩).answer () ⟨rfl, trivial⟩
  have ends := ends.answer true ⟨⟨fun _ => rfl, rfl⟩, trivial⟩
  have ends := ends.answer true ⟨⟨fun _ => rfl, rfl⟩, trivial⟩
  have ends := ends.answer (0 : Int) ⟨Or.inl ⟨rfl, Int.le_refl 0, rfl⟩, trivial⟩
  have ends := ends.answer (0 : Int) ⟨Or.inl ⟨rfl, Int.le_refl 0, rfl⟩, trivial⟩
  have ends := ends.answer (some [1, 2, 3, 4])
    ⟨Or.inr ⟨_, rfl, rfl, ⟨[], rfl⟩, fun none => absurd none (List.cons_ne_nil _ _), rfl⟩, trivial⟩
  have ends := ends.answer (2 : Int) ⟨⟨by decide, by decide, rfl⟩, trivial⟩
  have ends := (ends.answer () ⟨rfl, trivial⟩).answer () ⟨rfl, trivial⟩
  have ends := (ends.answer () ⟨rfl, trivial⟩).answer () ⟨rfl, trivial⟩
  obtain ⟨i, o, _, _, room, written⟩ := ends rfl
  have length := congrArg List.length written
  rw [List.length_zipIdx, List.length_take, List.length_drop] at length
  have two : 2 = min 4 (4 - i) := length
  have four : i + 4 ≤ 4 := room
  omega

/-- The region can be opened, and writes are complete. -/
def Reliable : (op : FileOp) → op.Res → Prop
  | .open_ f _, opened => f ≠ .fdin → opened = true
  | .write _ data, count => count = data.length
  | _, _ => True

theorem answers_reliable : Answers Reliable := by
  intro s op fault more
  cases op with
  | open_ f path =>
      cases f with
      | fdin => exact ⟨s.input.isSome, _, ⟨fun _ => rfl, rfl⟩, fun other => absurd rfl other⟩
      | fd => exact ⟨true, _, ⟨fun other => absurd other (by decide), rfl⟩, fun _ => rfl⟩
      | fdout => exact ⟨true, _, ⟨fun other => absurd other (by decide), rfl⟩, fun _ => rfl⟩
  | write f data =>
      have bound : (-1 : Int) ≤ data.length := by omega
      exact ⟨(data.length : Int), _, ⟨bound, Int.le_refl _, rfl⟩, rfl⟩
  | fault => exact absurd rfl fault
  | more => exact absurd rfl more
  | lseek | read | addSpukCmdline | malloc | close | free | enableBusmonitor | enableDmcMpu =>
      obtain ⟨r, s', step, _⟩ := answers_any s _ fault more
      exact ⟨r, s', step, trivial⟩

/-- Nothing has fallen short. -/
def Complete (s : Files) : Prop := ∀ f, s.short f = false

theorem complete_step {s s' : Files} (op : FileOp) (r : op.Res) (complete : Complete s)
    (answered : Allowed Reliable s op r s') : Complete s' := by
  obtain ⟨step, reliable⟩ := answered
  cases op with
  | open_ f path =>
      obtain ⟨_, rfl⟩ := step
      split
      · exact complete
      · exact complete
  | lseek f offset whence =>
      rcases step with ⟨_, _, rfl⟩ | ⟨_, rfl⟩
      · exact complete
      · exact complete
  | read f count =>
      rcases step with ⟨_, rfl⟩ | ⟨_, _, _, _, _, rfl⟩
      · exact complete
      · exact complete
  | write f data =>
      obtain ⟨_, _, rfl⟩ := step
      intro g
      by_cases same : g = f
      · subst same
        rw [wrote_short_eq, complete g, bne_eq_false_iff_eq.mpr reliable, Bool.false_or]
      · exact (Function.update_of_ne same _ s.short).trans (complete g)
  | fault => exact Empty.elim r
  | more => exact Empty.elim r
  | addSpukCmdline | malloc | close | free | enableBusmonitor | enableDmcMpu =>
      obtain rfl := step
      exact complete

/-- The region begins with `size` bytes, first some of what there is to read and then zeros;
    it is all there is unless a read or an `lseek` failed. What is behind is unchanged. -/
structure NoStale (available : Bytes) (size : Nat) (region : Nat → UInt8) (s' : Files)
    (data : Bytes) : Prop where
  part : data <+: available.take size
  all : s'.readFailed = false → s'.seekFailed = false → data = available.take size
  region : s'.region = overwrite region 0 (data ++ List.replicate (size - data.length) 0)

/-- What is behind the size is what was there before. -/
theorem NoStale.behind {available : Bytes} {size : Nat} {region : Nat → UInt8} {s' : Files}
    {data : Bytes} (noStale : NoStale available size region s' data) {a : Nat} (past : size ≤ a) :
    s'.region a = region a := by
  have fits := noStale.part.length_le
  rw [List.length_take] at fits
  rw [noStale.region, overwrite_behind]
  rw [List.length_append, List.length_replicate]
  omega

theorem overwrite_zeros (region : Nat → UInt8) {data : Bytes} {size : Nat}
    (fits : data.length ≤ size) :
    overwrite (overwrite region 0 (List.replicate size 0)) 0 data =
      overwrite region 0 (data ++ List.replicate (size - data.length) 0) := by
  funext a
  unfold overwrite
  rw [if_pos (Nat.zero_le a), if_pos (Nat.zero_le a), if_pos (Nat.zero_le a), Nat.sub_zero]
  rcases Nat.lt_or_ge a data.length with inData | behind
  · rw [List.getElem?_append_left inData, List.getElem?_eq_getElem inData]
    rfl
  · have out : data[a]? = none := List.getElem?_eq_none behind
    rw [out, Option.getD_none, List.getElem?_append_right behind, List.getElem?_replicate,
      List.getElem?_replicate]
    by_cases inside : a < size
    · rw [if_pos inside, if_pos (by omega)]
    · rw [if_neg inside, if_neg (by omega)]

section

variable {img : ImageLoad} {offsetin size : BitVec 32} {region : Nat → UInt8}

/-- Nothing was copied. -/
theorem noStale_nil {available : Bytes} {n : Nat} {s' : Files}
    (all : s'.readFailed = false → s'.seekFailed = false → available.take n = [])
    (zeros : s'.region = overwrite region 0 (List.replicate n 0)) :
    NoStale available n region s' [] :=
  ⟨List.nil_prefix, fun read seek => (all read seek).symm, zeros⟩

theorem noStale_copied {s s' : Files} {data : Bytes} {ret : Int} (moved : Moved s s' data)
    (finished : Finished size.toNat ret s' data) (complete : s'.short .fdout = false)
    (outPos : s.pos .fdout = 0)
    (zeros : s.region = overwrite region 0 (List.replicate size.toNat 0)) :
    NoStale s.ahead size.toNat region s' data where
  part := List.prefix_take_iff.mpr ⟨moved.ahead, finished.fits⟩
  all := by
    intro read seek
    rcases finished.stopped with whole | nothing | failed | fell
    · exact eq_take_of_prefix moved.ahead whole
    · have fits := finished.fits
      have bound := moved.ahead.length_le
      rw [moved.ahead_eq, List.drop_eq_nil_iff] at nothing
      have same : data = s.ahead := moved.ahead.eq_of_length (by omega)
      rw [← same, List.take_of_length_le fits]
    · exact absurd (read.symm.trans failed) Bool.false_ne_true
    · exact absurd (complete.symm.trans fell) Bool.false_ne_true
  region := by
    obtain ⟨_, _, put⟩ := moved.put complete
    rw [put, outPos, zeros, overwrite_zeros region finished.fits]

/-- A region that is cleared first holds no stale bytes after the load, whatever of the input
    can be opened and read, as long as what is written goes out completely. -/
theorem modemLoadImage_noStale (clear : getFlag img.flag CLR_FLAG = true) (some : 0 < size.toNat)
    (small : size.toNat < 0x80000000) {rounds : Nat} (enough : size.toNat ≤ rounds)
    (offsetin : BitVec 32) (input : Option Bytes) (region : Nat → UInt8) :
    Prog.Ends (Allowed Reliable) (modemLoadImage rounds img offsetin 0 size)
      (fun _ s' => ∃ data, NoStale ((input.getD []).drop offsetin.toInt.toNat) size.toNat region s' data)
      (fresh input region) := by
  have keeps : ∀ s op r s', Complete s → Allowed Reliable s op r s' → Complete s' :=
    fun _ op r _ => complete_step op r
  have start : Complete (fresh input region) := fun _ => rfl
  have clears : Prog.Ends (Allowed Reliable)
      (Prog.when (getFlag img.flag CLR_FLAG) (modemClearRegion rounds img.pathW size))
      (fun _ s₁ => Beside (fresh input region) s₁ ∧
        s₁.region = overwrite region 0 (List.replicate size.toNat 0)) (fresh input region) := by
    rw [clear]
    have cleared := ends_modemClearRegion answers_reliable some enough img.pathW (fresh input region)
    refine (cleared.keeps keeps start).mono ?_
    intro _ s₁ ended
    obtain ⟨⟨beside, opened, may, zeroed⟩, complete⟩ := ended
    exact ⟨beside, zeroed (may (by decide)) (complete .fd)⟩
  refine ((ends_modemLoadImage answers_reliable some small enough clears).keeps keeps start).mono ?_
  intro ret s' ended
  obtain ⟨⟨s₁, ⟨beside, zeros⟩, phase⟩, complete⟩ := ended
  cases phase with
  | unopened _ idle which =>
      refine ⟨[], noStale_nil ?_ (idle.region.trans zeros)⟩
      rcases which with gone | closed
      · have absent : input = none := beside.input.symm.trans gone
        rw [absent]
        simp
      · exact absurd (closed (by decide)) Bool.false_ne_true
  | unsought _ idle failed =>
      refine ⟨[], noStale_nil ?_ (idle.region.trans zeros)⟩
      intro _ seek
      exact absurd (seek.symm.trans failed) Bool.false_ne_true
  | copied from_ data idle inPos outPos moved finished =>
      have input' : from_.input = input := idle.input.trans beside.input
      have ahead : from_.ahead = (input.getD []).drop offsetin.toInt.toNat := by
        rw [Files.ahead, Files.content, input', inPos.1]
      rw [← ahead]
      exact ⟨data, noStale_copied moved finished (complete .fdout) outPos.1 (idle.region.trans zeros)⟩

end

/-- Two bytes are there for a region of four. -/
def clearedImg : ImageLoad := { plainImg with flag := 0x80000000 }

theorem modemLoadImage_noStale_two :
    Prog.Ends (Allowed Reliable) (modemLoadImage 4 clearedImg 1 0 4)
      (fun _ s' => ∃ data, NoStale [2, 3] 4 (fun _ => 0xAA) s' data)
      (fresh (some [1, 2, 3]) fun _ => 0xAA) :=
  modemLoadImage_noStale (by decide) (by decide) (by decide) (by decide) 1 (some [1, 2, 3])
    fun _ => 0xAA

end ModemControl.LoadFiles
