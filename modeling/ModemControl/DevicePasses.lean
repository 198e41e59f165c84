import ModemControl.DeviceMemory
import ModemControl.RegionInfo

/-! # What a pass over a load table leaves

A pass that returns 0 without a fault has put each image that it selects into the region of its
own entry, and has left the regions of all other entries as they were. Behind the
initialisation these are the regions that the device was told of.
-/

namespace ModemControl.DeviceMemory

open Foundation Load LoadFiles ListenModem LoadCalls

/-- Where entry `i` is written. -/
def target (load : LoadValue) (s : Devices) (i : Nat) (img : ImageLoad) : Place :=
  (img.pathW, if load.ioctrlIsOk then i else s.region img.pathW)

/-- The two copies of an NV partition, which its recovery may write. -/
def nvPaths (img : ImageLoad) : List Bytes :=
  [(img.pathR ++ bytes "1").take MAX_PATH_LEN, (img.pathR ++ bytes "2").take MAX_PATH_LEN]

def isNv (img : ImageLoad) : Bool := getFlag img.flag NV_FLAG

/-- What may be found to be the offset and the size of an image in its file. -/
def Extent (c : Setup) (img : ImageLoad) (content : Option Bytes) :
    BitVec 32 × BitVec 64 → Prop :=
  if secured c.build img then
    Found content (LoadSizes.secureBootGetPatitonInfo c.build c.headers img)
  else Found content (ImgInfo.modemGetPatitonInfo img)

/-- The region has been given the image that the headers of its file tell of. -/
def Filled (c : Setup) (img : ImageLoad) (content : Option Bytes) (before after : Nat → UInt8) :
    Prop :=
  ∃ offset size, Extent c img content (offset, size) ∧
    (Countable (size.setWidth 32) → PutInto content offset (size.setWidth 32) before after)

/-- The entries are written to places of their own, and no image is read from an NV partition
    of the table. -/
structure Separate (load : LoadValue) (loadFlag skipFlag : BitVec 32) : Prop where
  device : load.ioctrlIsOk = true → ∀ img ∈ load.loadTable, img.pathW = load.ioCtrl
  paths : load.ioctrlIsOk = false → ∀ (i j : Nat) (img other : ImageLoad),
    load.loadTable[i]? = some img → load.loadTable[j]? = some other →
    selected loadFlag skipFlag img = true → selected loadFlag skipFlag other = true →
    img.pathW = other.pathW → i = j
  sources : ∀ img ∈ load.loadTable, special img = false → ∀ nv ∈ load.loadTable, isNv nv = true →
    img.pathR ∉ nvPaths nv

section

variable {c : Setup} {load : LoadValue} {img : ImageLoad} {s s' : Devices} {ret : Int}
  {trace : List (Event LoadOp LoadOp.Res)}

/-- What the load of an entry does behind the selection of its region. -/
structure Loaded (c : Setup) (img : ImageLoad) (ret : Int) (s s' : Devices) : Prop where
  only : Only img.pathW s s'
  file : ∀ p, (isNv img = true → p ∉ nvPaths img) → s'.file p = s.file p
  result : ret = 0 ∨ ret = -1
  filled : special img = false → ret = 0 → s'.faults = false →
    Filled c img (s.file img.pathR) (s.memory (s.place img.pathW)) (s'.memory (s.place img.pathW))

theorem loaded_special (isSpecial : special img = true) (only : Only img.pathW s s')
    (file : ∀ p, (isNv img = true → p ∉ nvPaths img) → s'.file p = s.file p) :
    Loaded c img 0 s s' :=
  ⟨only, file, Or.inl rfl, fun plain => absurd (isSpecial.symm.trans plain) (by decide)⟩

theorem loaded_image {offset : BitVec 32} {size : BitVec 64}
    (extent : Extent c img (s.file img.pathR) (offset, size))
    (image : s.Image img offset 0 (size.setWidth 32) ret s') : Loaded c img ret s s' where
  only := by
    obtain ⟨_, _, wrote⟩ := image
    exact wrote.only
  file := by
    obtain ⟨_, _, wrote⟩ := image
    intro p _
    rw [wrote.file]
  result := image.result
  filled := by
    intro _ zero sound
    subst zero
    exact ⟨offset, size, extent, image.put sound⟩

/-- The body of the loop behind the selection of the region. -/
theorem loaded_body {s₁ : Devices}
    (runs : Prog.Runs (Step c) Uncut
      (if getFlag img.flag CMDLINE_FLAG then do
          let _ ← modemLoadCpCmdline (bytes "/proc/cmdline") img.pathW
          pure 0
        else if getFlag img.flag NV_FLAG then do
          modemLoadCpNv img.pathR img.pathW
          pure 0
        else if getFlag img.flag BOOT_CODE then do
          let _ ← modemLoadCpBootCode img.pathW
          pure 0
        else if c.build.secure && getFlag img.flag SECURE_FLAG then secureBootLoadImg img
        else do
          let (loadOffset, loadSize) ← modemGetPatitonInfo img
          modemLoadImage img loadOffset 0 (loadSize.setWidth 32)) s₁ trace s' (some ret)) :
    Loaded c img ret s₁ s' := by
  split at runs
  · rename_i cmdline
    obtain ⟨r, s₂, _, wrote, later, _⟩ := runs.call_inv
    obtain ⟨_, rfl, same⟩ := later.ret_inv
    obtain rfl := Option.some.inj same
    apply loaded_special
    · simp [special, cmdline]
    · exact wrote.only
    · intro p _
      rw [wrote.file]
  · rename_i noCmdline
    split at runs
    · rename_i nv
      obtain ⟨r, s₂, _, recovered, later, _⟩ := runs.call_inv
      obtain ⟨_, rfl, same⟩ := later.ret_inv
      obtain rfl := Option.some.inj same
      obtain ⟨file, f, kept, rfl⟩ := recovered
      have only := only_leave s₁ img.pathW f
      apply loaded_special
      · simp [special, nv]
      · exact ⟨only.region, only.memory, only.faults⟩
      · intro p other
        have other := other nv
        rw [nvPaths, List.mem_pair] at other
        exact kept p (fun first => other (Or.inl first)) fun second => other (Or.inr second)
    · rename_i noNv
      split at runs
      · rename_i boot
        obtain ⟨r, s₂, _, wrote, later, _⟩ := runs.call_inv
        obtain ⟨_, rfl, same⟩ := later.ret_inv
        obtain rfl := Option.some.inj same
        apply loaded_special
        · simp [special, boot]
        · exact wrote.only
        · intro p _
          rw [wrote.file]
      · rename_i noBoot
        have plain : special img = false := by simp [special, noCmdline, noNv, noBoot]
        split at runs
        · rename_i secure
          have isSecured : secured c.build img = true := by
            rw [Bool.and_eq_true] at secure
            simp [secured, plain, secure.1, secure.2]
          obtain ⟨r, s₂, _, ⟨offset, size, found, image⟩, later, _⟩ := runs.call_inv
          obtain ⟨_, rfl, same⟩ := later.ret_inv
          obtain rfl := Option.some.inj same
          apply loaded_image _ image
          rw [Extent, if_pos isSecured]
          exact found
        · rename_i notSecure
          have notSecured : ¬ secured c.build img = true := by
            intro isSecured
            rw [secured, Bool.and_assoc, Bool.and_eq_true, Bool.and_eq_true] at isSecured
            exact notSecure (Bool.and_eq_true_iff.mpr ⟨isSecured.1, isSecured.2.2⟩)
          obtain ⟨⟨offset, size⟩, s₂, _, ⟨found, rfl⟩, runs, _⟩ := runs.call_inv
          obtain ⟨r, s₃, _, image, later, _⟩ := runs.call_inv
          obtain ⟨_, rfl, same⟩ := later.ret_inv
          obtain rfl := Option.some.inj same
          apply loaded_image _ image
          rw [Extent, if_neg notSecured]
          exact found

/-- The load of entry `i`. -/
structure Entered (c : Setup) (load : LoadValue) (i : Nat) (img : ImageLoad) (ret : Int)
    (s s' : Devices) : Prop where
  faults : s.faults = false
  region : load.ioctrlIsOk = false → s'.region = s.region
  memory : ∀ place, place ≠ target load s i img → s'.memory place = s.memory place
  file : ∀ p, (isNv img = true → p ∉ nvPaths img) → s'.file p = s.file p
  result : ret = 0 ∨ ret = -1
  filled : special img = false → ret = 0 →
    Filled c img (s.file img.pathR) (s.memory (target load s i img)) (s'.memory (target load s i img))

/-- The region is selected, or there is nothing to be selected. -/
theorem select_run {i : Nat} {s₁ : Devices}
    (runs : Prog.Runs (Step c) Uncut
      (Prog.when load.ioctrlIsOk do
        let _ ← modemSetWriteRegion load.ioCtrl i) s trace s₁ (some ()))
    (sound : s₁.faults = false) :
    s₁ = if load.ioctrlIsOk then s.select load.ioCtrl i else s := by
  cases device : load.ioctrlIsOk with
  | false =>
      rw [device] at runs
      obtain ⟨_, rfl, _⟩ := runs.ret_inv
      rfl
  | true =>
      rw [device] at runs
      obtain ⟨r, s₂, _, selected, later, _⟩ := runs.call_inv
      obtain ⟨_, rfl, _⟩ := later.ret_inv
      rcases selected with ⟨_, rfl⟩ | ⟨_, rfl⟩
      · rfl
      · cases sound

theorem loadEntry_run {i : Nat} (device : load.ioctrlIsOk = true → img.pathW = load.ioCtrl)
    (runs : Prog.Runs (Step c) Uncut (loadEntry c.build load i img) s trace s' (some ret))
    (sound : s'.faults = false) : Entered c load i img ret s s' := by
  rcases runs.bind_inv with ⟨_, none⟩ | ⟨_, s₁, _, _, selects, body, _⟩
  · cases none
  · have loaded := loaded_body body
    have start := loaded.only.faults sound
    have same := select_run selects start
    have file : s₁.file = s.file := by
      rw [same]
      split <;> rfl
    have memory : s₁.memory = s.memory := by
      rw [same]
      split <;> rfl
    have faults : s₁.faults = s.faults := by
      rw [same]
      split <;> rfl
    have place : s₁.place img.pathW = target load s i img := by
      rw [same, target]
      split
      · rename_i isOk
        rw [device isOk]
        simp [Devices.place, Devices.select]
      · rfl
    have filled := loaded.filled
    have others := loaded.only.memory
    rw [place, file, memory] at filled
    rw [place, memory] at others
    refine ⟨faults.symm.trans start, ?_, others, ?_, loaded.result, ?_⟩
    · intro noDevice
      rw [loaded.only.region, same, if_neg (by simp [noDevice])]
    · intro p other
      rw [loaded.file p other, file]
    · intro plain zero
      exact filled plain zero sound

end

section

variable {c : Setup} {load : LoadValue} {loadFlag skipFlag : BitVec 32} {s s' : Devices} {ret : Int}
  {trace : List (Event LoadOp LoadOp.Res)}

theorem target_same (kept : load.ioctrlIsOk = false → s'.region = s.region) (i : Nat)
    (img : ImageLoad) : target load s' i img = target load s i img := by
  unfold target
  cases device : load.ioctrlIsOk with
  | true => rfl
  | false => rw [kept device]

/-- What the rest of a pass does, from entry `i` on. -/
structure PassedFrom (c : Setup) (load : LoadValue) (loadFlag skipFlag : BitVec 32)
    (table : List ImageLoad) (i : Nat) (acc ret : Int) (s s' : Devices) : Prop where
  faults : s.faults = false
  region : load.ioctrlIsOk = false → s'.region = s.region
  file : ∀ p, (∀ nv ∈ table, isNv nv = true → p ∉ nvPaths nv) → s'.file p = s.file p
  others : ∀ place, (∀ k img, table[k]? = some img → selected loadFlag skipFlag img = true →
    place ≠ target load s (i + k) img) → s'.memory place = s.memory place
  result : ret ≤ acc
  filled : ret = acc → ∀ k img, table[k]? = some img → selected loadFlag skipFlag img = true →
    special img = false →
    (∀ k' other, table[k']? = some other → selected loadFlag skipFlag other = true → k' ≠ k →
      target load s (i + k) img ≠ target load s (i + k') other) →
    (∀ nv ∈ table, isNv nv = true → img.pathR ∉ nvPaths nv) →
    Filled c img (s.file img.pathR) (s.memory (target load s (i + k) img))
      (s'.memory (target load s (i + k) img))

/-- An entry that is not selected. -/
theorem PassedFrom.skip {img : ImageLoad} {rest : List ImageLoad} {i : Nat} {acc : Int}
    (skipped : ¬ selected loadFlag skipFlag img = true)
    (later : PassedFrom c load loadFlag skipFlag rest (i + 1) acc ret s s') :
    PassedFrom c load loadFlag skipFlag (img :: rest) i acc ret s s' where
  faults := later.faults
  region := later.region
  file := by
    intro p other
    exact later.file p fun nv member => other nv (List.mem_cons_of_mem _ member)
  others := by
    intro place other
    apply later.others
    intro k img' found chosen
    rw [Nat.add_right_comm]
    exact other (k + 1) img' found chosen
  result := later.result
  filled := by
    intro all k img' found chosen plain own source
    cases k with
    | zero =>
        obtain rfl := Option.some.inj found
        exact absurd chosen skipped
    | succ k =>
        rw [← Nat.add_assoc, Nat.add_right_comm]
        apply later.filled all k img' found chosen plain
        · intro k' other found' chosen' ne
          have next := own (k' + 1) other found' chosen' (by omega)
          rwa [← Nat.add_assoc, ← Nat.add_assoc, Nat.add_right_comm i k, Nat.add_right_comm i k'] at next
        · intro nv member
          exact source nv (List.mem_cons_of_mem _ member)

/-- One that is, and the entries behind it. -/
theorem PassedFrom.enter {img : ImageLoad} {rest : List ImageLoad} {i : Nat} {acc r : Int}
    {s₁ : Devices} (entered : Entered c load i img r s s₁) (chosen : selected loadFlag skipFlag img = true)
    (later : PassedFrom c load loadFlag skipFlag rest (i + 1) (acc + r) ret s₁ s') :
    PassedFrom c load loadFlag skipFlag (img :: rest) i acc ret s s' := by
  have same (k : Nat) (other : ImageLoad) :
      target load s₁ (i + 1 + k) other = target load s (i + (k + 1)) other := by
    rw [target_same entered.region, Nat.add_right_comm]
    rfl
  have result := later.result
  have step := entered.result
  refine ⟨entered.faults, ?_, ?_, ?_, by omega, ?_⟩
  · intro noDevice
    rw [later.region noDevice, entered.region noDevice]
  · intro p other
    rw [later.file p fun nv member => other nv (List.mem_cons_of_mem _ member),
      entered.file p (other img List.mem_cons_self)]
  · intro place other
    rw [later.others place, entered.memory place (other 0 img rfl chosen)]
    intro k img' found chosen'
    rw [same]
    exact other (k + 1) img' found chosen'
  · intro all k img' found chosen' plain own source
    have none : r = 0 := by omega
    cases k with
    | zero =>
        obtain rfl := Option.some.inj found
        have filled := entered.filled plain none
        have kept : s'.memory (target load s i img) = s₁.memory (target load s i img) := by
          apply later.others
          intro k' other found' chosen''
          rw [same]
          exact own (k' + 1) other found' chosen'' (by omega)
        rw [← kept] at filled
        exact filled
    | succ k =>
        have filled := later.filled (by omega) k img' found chosen' plain
        rw [same] at filled
        have file : s₁.file img'.pathR = s.file img'.pathR :=
          entered.file _ fun nv => source img List.mem_cons_self nv
        have before : s₁.memory (target load s (i + (k + 1)) img') =
            s.memory (target load s (i + (k + 1)) img') :=
          entered.memory _ (own 0 img rfl chosen (by omega))
        rw [file, before] at filled
        apply filled
        · intro k' other found' chosen'' ne
          rw [same]
          exact own (k' + 1) other found' chosen'' (by omega)
        · intro nv member
          exact source nv (List.mem_cons_of_mem _ member)

theorem loadEntries_run {table : List ImageLoad} {i : Nat} {acc : Int}
    (device : load.ioctrlIsOk = true → ∀ img ∈ table, img.pathW = load.ioCtrl)
    (runs : Prog.Runs (Step c) Uncut (loadEntries c.build load loadFlag skipFlag table i acc) s trace
      s' (some ret)) (sound : s'.faults = false) :
    PassedFrom c load loadFlag skipFlag table i acc ret s s' := by
  induction table generalizing i acc s trace with
  | nil =>
      obtain ⟨_, rfl, same⟩ := runs.ret_inv
      obtain rfl := Option.some.inj same
      refine ⟨sound, fun _ => rfl, fun _ _ => rfl, fun _ _ => rfl, Int.le_refl _, ?_⟩
      intro _ k img found
      cases found
  | cons img rest ih =>
      have device' : load.ioctrlIsOk = true → ∀ img ∈ rest, img.pathW = load.ioCtrl :=
        fun isOk other member => device isOk other (List.mem_cons_of_mem _ member)
      unfold loadEntries at runs
      split at runs
      · rename_i chosen
        rcases runs.bind_inv with ⟨_, none⟩ | ⟨r, s₁, _, _, entry, later, _⟩
        · cases none
        · have after := ih device' later
          have entered := loadEntry_run (fun isOk => device isOk img List.mem_cons_self) entry
            after.faults
          exact .enter entered chosen after
      · rename_i skipped
        exact .skip skipped (ih device' runs)

theorem Separate.targets (separate : Separate load loadFlag skipFlag) {i j : Nat}
    {img other : ImageLoad} (found : load.loadTable[i]? = some img)
    (found' : load.loadTable[j]? = some other) (chosen : selected loadFlag skipFlag img = true)
    (chosen' : selected loadFlag skipFlag other = true) (ne : j ≠ i) :
    target load s i img ≠ target load s j other := by
  intro same
  obtain ⟨path, region⟩ := Prod.mk.inj same
  cases device : load.ioctrlIsOk with
  | true =>
      rw [device] at region
      exact ne region.symm
  | false => exact ne (separate.paths device i j img other found found' chosen chosen' path).symm

theorem pass_run (separate : Separate load loadFlag skipFlag)
    (runs : Prog.Runs (Step c) Uncut (loadImgFromTable c.build load loadFlag skipFlag) s trace s'
      (some ret)) (sound : s'.faults = false) :
    PassedFrom c load loadFlag skipFlag load.loadTable 0 0 ret s s' :=
  loadEntries_run separate.device runs sound

theorem PassedFrom.image (separate : Separate load loadFlag skipFlag)
    (passed : PassedFrom c load loadFlag skipFlag load.loadTable 0 0 0 s s') {i : Nat}
    {img : ImageLoad} (found : load.loadTable[i]? = some img)
    (chosen : selected loadFlag skipFlag img = true) (plain : special img = false) :
    Filled c img (s.file img.pathR) (s.memory (target load s i img))
      (s'.memory (target load s i img)) := by
  have filled := passed.filled rfl i img found chosen plain
  simp only [Nat.zero_add] at filled
  apply filled
  · intro j other found' chosen' ne
    exact separate.targets found found' chosen chosen' ne
  · intro nv member isNv
    exact separate.sources img (List.mem_of_getElem? found) plain nv member isNv

theorem PassedFrom.other (passed : PassedFrom c load loadFlag skipFlag load.loadTable 0 0 ret s s')
    {place : Place} (other : ∀ i img, load.loadTable[i]? = some img →
      selected loadFlag skipFlag img = true → place ≠ target load s i img) :
    s'.memory place = s.memory place := by
  apply passed.others
  intro i img found chosen
  rw [Nat.zero_add]
  exact other i img found chosen

end

def fourSetup : Setup where
  build := {}
  headers := ⟨0, fun _ => ⟨0, 0, 0⟩, 0⟩
  simlock := false
  modemImg := {}

def fourEntry : ImageLoad := RegionInfo.cpEntry 0x8B000000 4 0x200

def fourLoad : LoadValue where
  loadTable := [fourEntry]
  ioctrlIsOk := true
  ioCtrl := bytes "/dev/modem"
  start := bytes "start"
  stop := bytes "stop"

def fourDevices : Devices where
  file := fun _ => some [1, 2, 3, 4]
  region := fun _ => 0
  memory := fun _ _ => 0xAA
  faults := false

/-- The calls of the load, each with its answer. -/
theorem four_copied (region : Nat → UInt8) :
    Prog.Can (Allowed fun _ _ => True) Uncut (LoadFiles.modemLoadImage 4 fourEntry 0 0 4)
      (fun ret f => ret = 0 ∧ f.short .fdout = false) (fresh (some [1, 2, 3, 4]) region) := by
  apply Prog.can_call () ⟨rfl, trivial⟩
  apply Prog.can_call () ⟨rfl, trivial⟩
  apply Prog.can_call true ⟨⟨fun _ => rfl, rfl⟩, trivial⟩
  apply Prog.can_call true ⟨⟨fun _ => rfl, rfl⟩, trivial⟩
  apply Prog.can_call (0 : Int) ⟨Or.inl ⟨rfl, Int.le_refl 0, rfl⟩, trivial⟩
  apply Prog.can_call (0 : Int) ⟨Or.inl ⟨rfl, Int.le_refl 0, rfl⟩, trivial⟩
  apply Prog.can_call (some [1, 2, 3, 4])
    ⟨Or.inr ⟨_, rfl, rfl, ⟨[], rfl⟩, fun none => absurd none (List.cons_ne_nil _ _), rfl⟩, trivial⟩
  apply Prog.can_call (4 : Int) ⟨⟨by decide, by decide, rfl⟩, trivial⟩
  apply Prog.can_call () ⟨rfl, trivial⟩
  apply Prog.can_call () ⟨rfl, trivial⟩
  apply Prog.can_call () ⟨rfl, trivial⟩
  apply Prog.can_call () ⟨rfl, trivial⟩
  exact Prog.can_ret ⟨rfl, rfl⟩

theorem four_found (content : Option Bytes) :
    Found content (ImgInfo.modemGetPatitonInfo fourEntry) (0, 4) :=
  ⟨[], 0, .done⟩

/-- The pass selects the region, looks at the image, and loads it. -/
theorem four_passed :
    Prog.Can (Step fourSetup) Uncut (loadImgFromTable {} fourLoad MODEM_IMG_FLAG MODEM_HEAD_IMG_FLAG)
      (fun ret s' => ret = 0 ∧ s'.faults = false) fourDevices := by
  obtain ⟨_, f, _, runs, rfl, full⟩ := four_copied fun _ => 0xAA
  apply Prog.can_call (0 : Int) (Or.inl ⟨rfl, rfl⟩)
  apply Prog.can_call ((0 : BitVec 32), (4 : BitVec 64)) ⟨four_found _, rfl⟩
  apply Prog.can_call (0 : Int) ⟨4, Nat.le_refl _, _, f, runs, rfl⟩
  exact Prog.can_ret ⟨rfl, full⟩

end ModemControl.DeviceMemory
