import Mathlib.Algebra.BigOperators.Group.List.Basic
import Mathlib.Algebra.Ring.Int.Defs
import Mathlib.Data.List.Forall2
import ModemControl.Foundation.Monitor
import ModemControl.Load

/-! # What load_img_from_table reports

A pass attempts each selected entry once, in the order of the table. Its result is the
sum of the results of the plain and the secure images; what a command line, an NV or a
boot code entry returns is dropped.
-/

namespace ModemControl.Load

open Foundation

/-- The load of one entry, with its result. -/
abbrev Attempt : Type := LoadOp × Int

def attempt : (op : LoadOp) → op.Res → Option Attempt
  | .loadCpCmdline fin fout, r => some (.loadCpCmdline fin fout, r)
  | .readNvPartition path bakPath pathOut, r => some (.readNvPartition path bakPath pathOut, r)
  | .loadCpBootCode fout, r => some (.loadCpBootCode fout, r)
  | .secureBootLoadImg img, r => some (.secureBootLoadImg img, r)
  | .modemLoadImage img offsetin offsetout size, r =>
      some (.modemLoadImage img offsetin offsetout size, r)
  | _, _ => none

def attempts (trace : List (Event LoadOp LoadOp.Res)) : List Attempt :=
  trace.filterMap fun e => e.res.bind (attempt e.op)

/-- The call that loads an entry. -/
def Loads (b : Build) (img : ImageLoad) (op : LoadOp) : Prop :=
  if getFlag img.flag CMDLINE_FLAG then op = .loadCpCmdline (bytes "/proc/cmdline") img.pathW
  else if getFlag img.flag NV_FLAG then
    op = .readNvPartition ((img.pathR ++ bytes "1").take MAX_PATH_LEN)
      ((img.pathR ++ bytes "2").take MAX_PATH_LEN) img.pathW
  else if getFlag img.flag BOOT_CODE then op = .loadCpBootCode img.pathW
  else if b.secure && getFlag img.flag SECURE_FLAG then op = .secureBootLoadImg img
  else ∃ offset size, op = .modemLoadImage img offset 0 size

namespace Attempt

def image (a : Attempt) : Bool :=
  match a.1 with
  | .secureBootLoadImg _ | .modemLoadImage _ _ _ _ => true
  | _ => false

/-- What its result means: the bytes written of a command line or a boot code, 1 for an
    NV partition, 0 for an image. -/
def Succeeded (a : Attempt) : Prop :=
  match a.1 with
  | .loadCpCmdline _ _ | .loadCpBootCode _ => 0 < a.2
  | .readNvPartition _ _ _ => a.2 = 1
  | _ => a.2 = 0

/-- What it adds to the result of the pass. -/
def adds (a : Attempt) : Int := if a.image then a.2 else 0

theorem succeeded_image {a : Attempt} (isImage : a.image = true) : a.Succeeded ↔ a.2 = 0 := by
  obtain ⟨op, r⟩ := a
  cases op <;> first | rfl | cases isImage

theorem adds_eq_zero (a : Attempt) : a.adds = 0 ↔ (a.image = true → a.Succeeded) := by
  cases kind : a.image with
  | false => simp [adds, kind]
  | true => simp [adds, kind, succeeded_image kind]

end Attempt

/-- `modem_load_image` returns its `res`, which is 0 or -1, and `secure_boot_load_img`
    passes it on. -/
def LoadOp.Returns : (op : LoadOp) → op.Res → Prop
  | .modemLoadImage _ _ _ _, r => r = 0 ∨ r = -1
  | .secureBootLoadImg _, r => r = 0 ∨ r = -1
  | _, _ => True

/-- Remembers the attempts. -/
def attemptMonitor : Monitor LoadOp LoadOp.Res (List Attempt) where
  next := fun done op r => done ++ (attempt op r).toList
  ok := fun _ _ => True

theorem attemptMonitor_after (done : List Attempt) (trace : List (Event LoadOp LoadOp.Res)) :
    attemptMonitor.after done trace = done ++ attempts trace := by
  induction trace generalizing done with
  | nil => exact (List.append_nil done).symm
  | cons e rest ih =>
      obtain ⟨op, res⟩ := e
      rw [Monitor.after_cons, ih]
      cases res with
      | none => rfl
      | some r =>
          cases found : attempt op r with
          | none => simp [Monitor.step, attemptMonitor, attempts, found]
          | some a => simp [Monitor.step, attemptMonitor, attempts, found]

/-- One more attempt was made: the load of `img`, which adds `r`. -/
def Attempted (b : Build) (img : ImageLoad) (done : List Attempt) (r : Int)
    (done' : List Attempt) : Prop :=
  ∃ a : Attempt, done' = done ++ [a] ∧ Loads b img a.1 ∧ r = a.adds

theorem loadEntry_attempts (b : Build) (load : LoadValue) (i : Nat) (img : ImageLoad)
    (done : List Attempt) :
    (loadEntry b load i img).Meets attemptMonitor (Attempted b img done) done := by
  have region : (Prog.when load.ioctrlIsOk do
      let _ ← modemSetWriteRegion load.ioCtrl i).Meets attemptMonitor
        (fun _ done' => done' = done) done := by
    apply Prog.Meets.when
    · intro _
      exact ⟨trivial, fun _ => List.append_nil done⟩
    · intro _
      rfl
  apply region.bind
  rintro _ _ rfl
  cases cmdline : getFlag img.flag CMDLINE_FLAG with
  | true => exact ⟨trivial, fun r => ⟨_, rfl, by simp [Loads, cmdline], rfl⟩⟩
  | false =>
      cases nv : getFlag img.flag NV_FLAG with
      | true => exact ⟨trivial, fun r => ⟨_, rfl, by simp [Loads, cmdline, nv], rfl⟩⟩
      | false =>
          cases boot : getFlag img.flag BOOT_CODE with
          | true => exact ⟨trivial, fun r => ⟨_, rfl, by simp [Loads, cmdline, nv, boot], rfl⟩⟩
          | false =>
              cases secure : b.secure && getFlag img.flag SECURE_FLAG with
              | true =>
                  exact ⟨trivial, fun r =>
                    ⟨_, rfl, by simp [Loads, cmdline, nv, boot, secure], rfl⟩⟩
              | false =>
                  refine ⟨trivial, fun extent => ⟨trivial, fun r => ?_⟩⟩
                  refine ⟨(.modemLoadImage img extent.1 0 (extent.2.setWidth 32), r), ?_, ?_, rfl⟩
                  · exact congrArg (· ++ _) (List.append_nil _)
                  · simp [Loads, cmdline, nv, boot, secure]

/-- The attempts of a pass over `imgs`, which adds them up to `ret`. -/
structure Pass (b : Build) (imgs : List ImageLoad) (ret r : Int) (new : List Attempt) : Prop where
  inOrder : List.Forall₂ (fun img a => Loads b img a.1) imgs new
  total : r = ret + (new.map Attempt.adds).sum

theorem loadEntries_attempts (b : Build) (load : LoadValue) (loadFlag skipFlag : BitVec 32)
    (imgs : List ImageLoad) (i : Nat) (ret : Int) (done : List Attempt) :
    (loadEntries b load loadFlag skipFlag imgs i ret).Meets attemptMonitor
      (fun r done' => ∃ new, done' = done ++ new ∧
        Pass b (imgs.filter (selected loadFlag skipFlag)) ret r new) done := by
  induction imgs generalizing i ret done with
  | nil => exact ⟨[], (List.append_nil done).symm, .nil, (Int.add_zero ret).symm⟩
  | cons img imgs ih =>
      rw [loadEntries]
      cases chosen : selected loadFlag skipFlag img with
      | false => simpa [chosen] using ih (i + 1) ret done
      | true =>
          rw [if_pos rfl, List.filter_cons_of_pos chosen]
          apply (loadEntry_attempts b load i img done).bind
          rintro r _ ⟨a, rfl, loads, rfl⟩
          apply (ih (i + 1) (ret + a.adds) (done ++ [a])).mono
          rintro total _ ⟨new, rfl, pass⟩
          refine ⟨a :: new, List.append_assoc done [a] new, .cons loads pass.inOrder, ?_⟩
          rw [pass.total, List.map_cons, List.sum_cons, Int.add_assoc]

def Attempt.secureImage (a : Attempt) : Option ImageLoad :=
  match a.1 with
  | .secureBootLoadImg img => some img
  | _ => none

/-- The entry is loaded through `secure_boot_load_img`. -/
def secured (b : Build) (img : ImageLoad) : Bool :=
  b.secure && !special img && getFlag img.flag SECURE_FLAG

def secureImages (trace : List (Event LoadOp LoadOp.Res)) : List ImageLoad :=
  (attempts trace).filterMap Attempt.secureImage

theorem secureImage_of_loads {b : Build} {img : ImageLoad} {a : Attempt} (loads : Loads b img a.1) :
    a.secureImage = if secured b img then some img else none := by
  obtain ⟨op, r⟩ := a
  unfold Loads at loads
  unfold secured special
  grind [Attempt.secureImage]

theorem Pass.secureImages {b : Build} {imgs : List ImageLoad} {ret r : Int} {new : List Attempt}
    (pass : Pass b imgs ret r new) :
    new.filterMap Attempt.secureImage = imgs.filter (secured b) := by
  have inOrder := pass.inOrder
  clear pass
  induction inOrder with
  | nil => rfl
  | cons loads _ ih =>
      rw [List.filterMap_cons, List.filter_cons, secureImage_of_loads loads, ih]
      split
      · rename_i none
        grind
      · rename_i some
        grind

/-- The entries of a pass that are loaded through `secure_boot_load_img`, in order. -/
def securePass (b : Build) (load : LoadValue) (loadFlag skipFlag : BitVec 32) : List ImageLoad :=
  (load.loadTable.filter (selected loadFlag skipFlag)).filter (secured b)

theorem secureImages_run {σ : Type} {answer : σ → (op : LoadOp) → op.Res × σ} (b : Build)
    (load : LoadValue) (loadFlag skipFlag : BitVec 32) (s : σ) :
    secureImages ((loadImgFromTable b load loadFlag skipFlag).run answer s).1 =
      securePass b load loadFlag skipFlag := by
  have entries := loadEntries_attempts b load loadFlag skipFlag load.loadTable 0 0 []
  obtain ⟨new, same, pass⟩ := (entries.run s).2
  rw [attemptMonitor_after, List.nil_append, List.nil_append] at same
  subst same
  exact pass.secureImages

/-- A sum of zeros and minus ones is zero only if there is no minus one. -/
theorem sum_adds_eq_zero {new : List Attempt}
    (each : ∀ a ∈ new, a.adds = 0 ∨ a.adds = -1) :
    (new.map Attempt.adds).sum = 0 ↔ ∀ a ∈ new, a.adds = 0 := by
  have bound : ∀ new : List Attempt, (∀ a ∈ new, a.adds = 0 ∨ a.adds = -1) →
      (new.map Attempt.adds).sum ≤ 0 ∧
        ((new.map Attempt.adds).sum = 0 → ∀ a ∈ new, a.adds = 0) := by
    intro new each
    induction new with
    | nil => simp
    | cons a new ih =>
        obtain ⟨below, zero⟩ := ih fun a member => each a (List.mem_cons_of_mem _ member)
        have head := each a List.mem_cons_self
        rw [List.map_cons, List.sum_cons]
        constructor
        · omega
        · intro total
          have rest : (new.map Attempt.adds).sum = 0 := by omega
          have first : a.adds = 0 := by omega
          simpa [first] using zero rest
  constructor
  · exact (bound new each).2
  · intro zero
    apply List.sum_eq_zero
    intro x member
    obtain ⟨a, inNew, rfl⟩ := List.mem_map.mp member
    exact zero a inNew

theorem adds_returned {trace : List (Event LoadOp LoadOp.Res)}
    (returned : ∀ e ∈ trace, ∀ r, e.res = some r → e.op.Returns r) :
    ∀ a ∈ attempts trace, a.adds = 0 ∨ a.adds = -1 := by
  intro a member
  obtain ⟨⟨op, res⟩, inTrace, found⟩ := List.mem_filterMap.mp member
  obtain ⟨r, answered, made⟩ := Option.bind_eq_some_iff.mp found
  have result := returned _ inTrace r answered
  cases op with
  | modemLoadImage | secureBootLoadImg =>
      obtain rfl := Option.some.inj made
      exact result
  | loadCpCmdline | readNvPartition | loadCpBootCode =>
      obtain rfl := Option.some.inj made
      exact Or.inl rfl
  | _ => cases made

/-- The world in which image loads return what they can return. -/
def returning {σ : Type} (world : σ → (op : LoadOp) → op.Res → σ → Prop) (s : σ) (op : LoadOp)
    (r : op.Res) (s' : σ) : Prop :=
  op.Returns r ∧ world s op r s'

/-- A finished run is a pass over the selected entries. -/
theorem loadImgFromTable_pass {σ : Type} {env : σ → (op : LoadOp) → op.Res → σ → Prop}
    {torn : σ → LoadOp → σ → Prop} {b : Build} {load : LoadValue} {loadFlag skipFlag : BitVec 32}
    {s s' : σ} {trace : List (Event LoadOp LoadOp.Res)} {ret : Int}
    (runs : Prog.Runs env torn (loadImgFromTable b load loadFlag skipFlag) s trace s' (some ret)) :
    Pass b (load.loadTable.filter (selected loadFlag skipFlag)) 0 ret (attempts trace) := by
  have entries := loadEntries_attempts b load loadFlag skipFlag load.loadTable 0 0 []
  obtain ⟨new, same, pass⟩ := (entries.runs runs).2 ret rfl
  rw [attemptMonitor_after, List.nil_append, List.nil_append] at same
  subst same
  exact pass

/-- Where image loads return what they can return, a pass returns 0 if and only if every image
    was loaded. -/
theorem pass_zero_iff {b : Build} {imgs : List ImageLoad} {ret : Int}
    {trace : List (Event LoadOp LoadOp.Res)} (pass : Pass b imgs 0 ret (attempts trace))
    (returned : ∀ e ∈ trace, ∀ r, e.res = some r → e.op.Returns r) :
    ret = 0 ↔ ∀ a ∈ attempts trace, a.image = true → a.Succeeded := by
  rw [pass.total, Int.zero_add, sum_adds_eq_zero (adds_returned returned)]
  simp only [Attempt.adds_eq_zero]

/-- A pass attempts exactly the selected entries, each once and in order, and returns 0
    if and only if every image among them was loaded. -/
theorem loadImgFromTable_result {σ : Type} {world : σ → (op : LoadOp) → op.Res → σ → Prop}
    {torn : σ → LoadOp → σ → Prop} {b : Build} {load : LoadValue} {loadFlag skipFlag : BitVec 32}
    {s s' : σ} {trace : List (Event LoadOp LoadOp.Res)} {ret : Int}
    (runs : Prog.Runs (returning world) torn (loadImgFromTable b load loadFlag skipFlag) s trace s'
      (some ret)) :
    List.Forall₂ (fun img a => Loads b img a.1)
        (load.loadTable.filter (selected loadFlag skipFlag)) (attempts trace) ∧
      (ret = 0 ↔ ∀ a ∈ attempts trace, a.image = true → a.Succeeded) := by
  have pass := loadImgFromTable_pass runs
  exact ⟨pass.inOrder, pass_zero_iff pass (runs.answered fun _ _ _ _ => And.left)⟩

/-- The pass reports a failure if and only if there is one exactly when an image fails,
    or everything whose result is dropped was loaded. -/
theorem loadImgFromTable_reports_iff {σ : Type}
    {world : σ → (op : LoadOp) → op.Res → σ → Prop} {torn : σ → LoadOp → σ → Prop} {b : Build}
    {load : LoadValue} {loadFlag skipFlag : BitVec 32} {s s' : σ}
    {trace : List (Event LoadOp LoadOp.Res)} {ret : Int}
    (runs : Prog.Runs (returning world) torn (loadImgFromTable b load loadFlag skipFlag) s trace s'
      (some ret)) :
    List.Forall₂ (fun img a => Loads b img a.1)
        (load.loadTable.filter (selected loadFlag skipFlag)) (attempts trace) ∧
      ((ret = 0 ↔ ∀ a ∈ attempts trace, a.Succeeded) ↔
        (∃ a ∈ attempts trace, a.image = true ∧ ¬ a.Succeeded) ∨
          ∀ a ∈ attempts trace, a.image = false → a.Succeeded) := by
  obtain ⟨inOrder, zero⟩ := loadImgFromTable_result runs
  refine ⟨inOrder, ?_⟩
  rw [zero]
  constructor
  · intro truthful
    by_cases images : ∀ a ∈ attempts trace, a.image = true → a.Succeeded
    · exact Or.inr fun a member _ => truthful.mp images a member
    · grind
  · rintro (⟨a, member, isImage, failed⟩ | dropped)
    · exact iff_of_false (fun images => failed (images a member isImage))
        fun all => failed (all a member)
    · constructor
      · intro images a member
        cases kind : a.image with
        | true => exact images a member kind
        | false => exact dropped a member kind
      · intro all a member _
        exact all a member

/-- A table with one entry, which is an NV partition of the modem. -/
def nvOnly : LoadValue where
  loadTable := [⟨bytes "/dev/nv", bytes "/data/nv", bytes "nv", 0, 0x1000,
    MODEM_HEAD_IMG_FLAG ||| 1 <<< NV_FLAG⟩]
  drvIsOk := true

def nvCall : LoadOp := .readNvPartition (bytes "/data/nv1") (bytes "/data/nv2") (bytes "/dev/nv")

theorem nvOnly_runs (r : Int) :
    Prog.Runs (returning fun (_ : Unit) _ _ _ => True) (fun _ _ _ => False)
      (loadImgFromTable {} nvOnly MODEM_IMG_FLAG NONE_IMAG_FLAG) () [⟨nvCall, some r⟩] () (some 0) :=
  Prog.Runs.step ⟨trivial, trivial⟩ .done

/-- The partition is restored, and the pass says so. -/
theorem restored_nv_reported :
    (0 = (0 : Int) ↔ ∀ a ∈ attempts [⟨nvCall, some (1 : Int)⟩], a.Succeeded) := by
  apply (loadImgFromTable_reports_iff (nvOnly_runs 1)).2.mpr
  right
  intro a member _
  obtain rfl := List.mem_singleton.mp member
  rfl

/-- Neither copy of the partition can be used, and the pass returns 0 all the same. -/
theorem lost_nv_not_reported :
    Prog.Runs (returning fun (_ : Unit) _ _ _ => True) (fun _ _ _ => False)
        (loadImgFromTable {} nvOnly MODEM_IMG_FLAG NONE_IMAG_FLAG) () [⟨nvCall, some (0 : Int)⟩] ()
        (some 0) ∧
      ¬ (0 = (0 : Int) ↔ ∀ a ∈ attempts [⟨nvCall, some (0 : Int)⟩], a.Succeeded) := by
  refine ⟨nvOnly_runs 0, ?_⟩
  intro reported
  have restored := reported.mp rfl (nvCall, 0) (List.mem_singleton.mpr rfl)
  exact absurd (show (0 : Int) = 1 from restored) (by decide)

end ModemControl.Load
