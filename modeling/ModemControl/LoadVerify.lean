import ModemControl.Foundation.Separation
import ModemControl.LoadCalls
import ModemControl.LoadLocks
import ModemControl.LoadReports

/-! # Verification before the start

What was written through `secure_boot_load_img` should be verified before its subsystem
is started. The internal variant loads everything, verifies and starts. The external
variant starts the sp before it verifies, and verifies nothing of the dp and the cp.
-/

namespace ModemControl.LoadCalls

open Foundation Load ListenModem

/-- What `modem_load_start` starts. -/
def ImgType.started (v : Variant) (loadType : BitVec 32) : ImgType → Bool
  | .sp => anyBit loadType LOAD_SP_IMG
  | .dp => v == .external && anyBit loadType LOAD_DP_IMG
  | .cp => anyBit loadType (LOAD_MODEM_IMG ||| LOAD_MINIAP_IMG)

def Starts (v : Variant) (x : ImgType) (op : CallOp) : Prop :=
  ∃ loadType, op = .modemLoadStart loadType ∧ x.started v loadType = true

/-- A pass over the table of `x` that writes a secure image. -/
def WritesSecure (x : ImgType) (c : Call) : Prop :=
  (∃ loadFlag skipFlag, c.op = .loadImgFromTable x loadFlag skipFlag) ∧ secureImages c.inner ≠ []

/-- Between a secure image and the start of its subsystem everything is verified. -/
def VerifiedBeforeStart (v : Variant) (cs : List Call) : Prop :=
  ∀ x before written between start after,
    cs = before ++ written :: (between ++ start :: after) → WritesSecure x written →
      Starts v x start.op → ∃ c ∈ between, c.op = .secureBootVerifyAll

theorem ImgType.forall_iff {p : ImgType → Prop} : (∀ x, p x) ↔ p .sp ∧ p .dp ∧ p .cp := by
  constructor
  · intro all
    exact ⟨all .sp, all .dp, all .cp⟩
  · rintro ⟨sp, dp, cp⟩ x
    cases x
    · exact sp
    · exact dp
    · exact cp

section Parts

variable (v : Variant) (b : Build) (m : LoadInfo) {α β : Type}

/-- What the calls of a part are. -/
def ops (p : CallProg α) (o : Outcomes) : List CallOp :=
  (p.layers (handler v b m) Outcomes.answer o).map Layer.op

/-- What a part leaves of the outcomes, and its value. -/
abbrev leaves (p : CallProg α) (o : Outcomes) : Outcomes := after (p.interp (handler v b m)) o
abbrev yields (p : CallProg α) (o : Outcomes) : α := value (p.interp (handler v b m)) o

theorem ops_bind (p : CallProg α) (f : α → CallProg β) (o : Outcomes) :
    ops v b m (p >>= f) o =
      ops v b m p o ++ ops v b m (f (yields v b m p o)) (leaves v b m p o) := by
  rw [ops, Prog.layers_bind, List.map_append, yields, leaves, value, after, Prog.interp_run]
  rfl

theorem ops_events (p : CallProg α) (o : Outcomes) :
    ops v b m p o =
      (p.run (Prog.through (handler v b m) Outcomes.answer) o).1.map Event.op := by
  rw [ops, ← Prog.layers_events, List.map_map]
  rfl

theorem ops_allowed {ok : CallOp → Prop} {p : CallProg α} (calls : p.Calls ok) (o : Outcomes) :
    ∀ op ∈ ops v b m p o, ok op := by
  rw [ops_events]
  intro op member
  obtain ⟨e, inRun, rfl⟩ := List.mem_map.mp member
  exact Prog.run_allowed calls o e inRun

/-- A call that writes a secure image, by the table alone. -/
def Writes (x : ImgType) (op : CallOp) : Prop :=
  ∃ loadFlag skipFlag, op = .loadImgFromTable x loadFlag skipFlag ∧
    securePass b (loadValue m x) loadFlag skipFlag ≠ []

theorem verifiedBeforeStart_iff (loadType : BitVec 32) (o : Outcomes) :
    VerifiedBeforeStart v (calls v b m loadType o) ↔
      ∀ x, Separated (Writes b m x) (· = .secureBootVerifyAll) (Starts v x)
        (ops v b m (loadModemImg v b m loadType) o) := by
  have writes (x : ImgType) (c : Call) (member : c ∈ calls v b m loadType o) :
      WritesSecure x c ↔ Writes b m x c.op := by
    obtain ⟨s, inner⟩ := Prog.mem_layers member
    have images (loadFlag skipFlag : BitVec 32) (same : c.op = .loadImgFromTable x loadFlag skipFlag) :
        secureImages c.inner = securePass b (loadValue m x) loadFlag skipFlag := by
      rw [inner, same]
      exact secureImages_run b (loadValue m x) loadFlag skipFlag s
    constructor
    · rintro ⟨⟨loadFlag, skipFlag, same⟩, some⟩
      exact ⟨loadFlag, skipFlag, same, images loadFlag skipFlag same ▸ some⟩
    · rintro ⟨loadFlag, skipFlag, same, some⟩
      exact ⟨⟨loadFlag, skipFlag, same⟩, (images loadFlag skipFlag same).symm ▸ some⟩
  simp only [ops, separated_map]
  apply forall_congr'
  intro x
  exact separated_iff_split.symm.trans (separated_congr (writes x))

end Parts

theorem not_starts {v : Variant} {x : ImgType} {op : CallOp}
    (other : ∀ loadType, op ≠ .modemLoadStart loadType) : ¬ Starts v x op := by
  rintro ⟨loadType, same, _⟩
  exact other loadType same

theorem not_writes {b : Build} {m : LoadInfo} {x : ImgType} {op : CallOp}
    (other : ∀ x loadFlag skipFlag, op ≠ .loadImgFromTable x loadFlag skipFlag) :
    ¬ Writes b m x op := by
  rintro ⟨loadFlag, skipFlag, same, _⟩
  exact other x loadFlag skipFlag same

namespace Internal

/-- Up to the verification. -/
def prepare (b : Build) (m : LoadInfo) (loadType : BitVec 32) : CallProg Unit := do
  modemCtrlEnableWakeLock true
  Prog.when (b.sprdSecboot || b.vbootV2) do
    secureBootSetFlag loadType
    secureBootUnlockDdr
  modemLoadStop loadType
  modemCtrlSetModemState .loading
  Prog.when (anyBit loadType LOAD_SP_IMG) do
    Prog.when (present m.sp) do
      let _ ← loadImgFromTable .sp SP_IMG_FLAG NONE_IMAG_FLAG
  Prog.when (anyBit loadType LOAD_MODEM_IMG) do
    Prog.when (present m.cp) do
      let _ ← loadImgFromTable .cp MODEM_IMG_FLAG NONE_IMAG_FLAG

def finish (loadType : BitVec 32) : CallProg Int := do
  modemLoadStart loadType
  modemCtrlSetModemState .booting
  modemCtrlEnableWakeLock false
  pure 0

theorem loadModemImg_parts (b : Build) (m : LoadInfo) (loadType : BitVec 32) :
    loadModemImg b m loadType = (do
      prepare b m (requested b loadType)
      Prog.when b.secure secureBootVerifyAll
      finish (requested b loadType)) := by
  simp only [loadModemImg, prepare, finish, Prog.bind_assoc]

theorem prepare_calls (b : Build) (m : LoadInfo) (loadType : BitVec 32) :
    (prepare b m loadType).Calls fun op => ∀ t, op ≠ .modemLoadStart t := by
  refine Prog.Calls.call nofun fun _ => ?_
  apply Prog.Calls.bind
  · apply Prog.Calls.when
    exact ⟨nofun, fun _ => ⟨nofun, fun _ => trivial⟩⟩
  · intro _
    refine Prog.Calls.call nofun fun _ => Prog.Calls.call nofun fun _ => ?_
    apply Prog.Calls.bind
    · apply Prog.Calls.when
      apply Prog.Calls.when
      exact ⟨nofun, fun _ => trivial⟩
    · intro _
      apply Prog.Calls.when
      apply Prog.Calls.when
      exact ⟨nofun, fun _ => trivial⟩

theorem finish_calls (loadType : BitVec 32) :
    (finish loadType).Calls fun op => ∀ x f s, op ≠ .loadImgFromTable x f s :=
  ⟨nofun, fun _ => ⟨nofun, fun _ => ⟨nofun, fun _ => trivial⟩⟩⟩

theorem verified {b : Build} (secure : b.secure = true) (m : LoadInfo) (loadType : BitVec 32)
    (o : Outcomes) : VerifiedBeforeStart .internal (calls .internal b m loadType o) := by
  rw [verifiedBeforeStart_iff]
  intro x
  have parts : LoadCalls.loadModemImg .internal b m loadType = _ := loadModemImg_parts b m loadType
  rw [parts, secure, ops_bind, ops_bind, ← List.append_assoc, separated_append]
  have verify (o : Outcomes) : ops .internal b m (Prog.when true secureBootVerifyAll) o =
    [.secureBootVerifyAll] := rfl
  rw [verify]
  refine ⟨?_, ?_, ?_⟩
  · apply separated_of_no_last
    intro op member
    apply not_starts
    rcases List.mem_append.mp member with early | last
    · exact ops_allowed _ _ _ (prepare_calls b m _) o op early
    · obtain rfl := List.mem_singleton.mp last
      nofun
  · apply separated_of_no_first
    intro op member
    exact not_writes (ops_allowed _ _ _ (finish_calls _) _ op member)
  · rintro ⟨pending, _⟩
    apply not_pending_snoc _ _ pending
    · rfl
    · apply not_writes
      nofun

end Internal

namespace External

/-- The passes over load tables, in order. -/
abbrev Passes : Type := List (ImgType × BitVec 32 × BitVec 32)

def pass : CallOp → Option (ImgType × BitVec 32 × BitVec 32)
  | .loadImgFromTable x loadFlag skipFlag => some (x, loadFlag, skipFlag)
  | _ => none

/-- Remembers the passes; verifies and starts nothing. -/
def passMonitor : Monitor CallOp CallOp.Res Passes where
  next := fun done op _ =>
    match pass op with
    | some p => done ++ [p]
    | none => done
  ok := fun _ op => op ≠ .secureBootVerifyAll ∧ ∀ loadType, op ≠ .modemLoadStart loadType

/-- A call that verifies or starts. -/
def launches : CallOp → Bool
  | .secureBootVerifyAll | .modemLoadStart _ => true
  | _ => false

theorem lets {done : Passes} {op : CallOp} (other : launches op = false) : passMonitor.ok done op := by
  constructor
  · rintro rfl
    cases other
  · rintro loadType rfl
    cases other

def miniap (m : LoadInfo) (loadType : BitVec 32) : Bool :=
  anyBit loadType LOAD_MINIAP_IMG && m.cp.ioctrlIsOk

def dpPasses (m : LoadInfo) (loadType : BitVec 32) : Passes :=
  if anyBit loadType LOAD_DP_IMG && present m.dp then [(.dp, SP_IMG_FLAG, NONE_IMAG_FLAG)] else []

def splPasses (m : LoadInfo) (loadType : BitVec 32) : Passes :=
  if miniap m loadType then [(.cp, SPL_IMG_FLAG, NONE_IMAG_FLAG)] else []

def agdspPasses (loadType : BitVec 32) : Passes :=
  if anyBit loadType LOAD_AGDSP_IMG then [(.cp, AUDIO_IMG_FLAG, NONE_IMAG_FLAG)] else []

def miniapPasses (m : LoadInfo) (loadType : BitVec 32) : Passes :=
  if miniap m loadType then
    [(.cp, SML_IMG_FLAG ||| UBOOT_IMG_FLAG, NONE_IMAG_FLAG), (.cp, BOOT_IMG_FLAG, NONE_IMAG_FLAG),
      (.cp, MODEM_HEAD_IMG_FLAG, NONE_IMAG_FLAG)]
  else []

def modemPasses (loadType : BitVec 32) : Passes :=
  if anyBit loadType LOAD_MODEM_IMG then [(.cp, MODEM_IMG_FLAG, MODEM_HEAD_IMG_FLAG)] else []

/-- The passes over the cp table when the miniap, if it is asked for, comes up. -/
def cpPasses (m : LoadInfo) (loadType : BitVec 32) : Passes :=
  splPasses m loadType ++ agdspPasses loadType ++ miniapPasses m loadType ++ modemPasses loadType

/-- The masks are kept or cleared. -/
def Kept (masks masks' : Masks) : Prop := masks' = masks ∨ masks' = Masks.none

theorem loadDp_passes (m : LoadInfo) (loadType : BitVec 32) (done : Passes) :
    (Prog.when (anyBit loadType LOAD_DP_IMG) (loadDp m)).Meets passMonitor
      (fun _ done' => done' = done ++ dpPasses m loadType) done := by
  rw [dpPasses]
  apply Prog.Meets.when
  · intro asked
    rw [asked, Bool.true_and]
    apply Prog.Meets.when
    · intro there
      rw [if_pos there]
      exact ⟨lets rfl, fun _ => rfl⟩
    · intro missing
      simp [missing]
  · intro notAsked
    simp [notAsked]

theorem loadSpl_passes (m : LoadInfo) (masks : Masks) (done : Passes) :
    (loadSpl m masks).Meets passMonitor
      (fun masks' done' => Kept masks masks' ∧ done' = done ++ splPasses m masks.loadType) done := by
  rw [loadSpl, splPasses, miniap]
  cases asked : anyBit masks.loadType LOAD_MINIAP_IMG with
  | false =>
      split
      · refine Prog.Meets.call (lets rfl) fun _ => ?_
        exact ⟨Or.inl rfl, (List.append_nil done).symm⟩
      · exact ⟨Or.inl rfl, (List.append_nil done).symm⟩
  | true =>
      have some : masks.loadType ≠ 0 := by
        intro zero
        rw [zero, anyBit_zero] at asked
        cases asked
      cases m.cp.ioctrlIsOk with
      | false => exact ⟨Or.inl rfl, (List.append_nil done).symm⟩
      | true =>
          rw [Bool.true_and, bne_iff_ne.mpr some]
          refine Prog.Meets.call (lets rfl) fun _ => Prog.Meets.call (lets rfl) fun ret => ?_
          split
          · exact ⟨Or.inr rfl, rfl⟩
          · refine Prog.Meets.call (lets rfl) fun _ => Prog.Meets.call (lets rfl) fun ready => ?_
            cases ready with
            | true => exact ⟨Or.inl rfl, rfl⟩
            | false => exact ⟨Or.inr rfl, rfl⟩

theorem loadAgdsp_passes (masks : Masks) (done : Passes) :
    (loadAgdsp masks).Meets passMonitor
      (fun _ done' => done' = done ++ agdspPasses masks.loadType) done := by
  rw [agdspPasses]
  apply Prog.Meets.when
  · intro asked
    rw [if_pos asked]
    exact ⟨lets rfl, fun _ => rfl⟩
  · intro notAsked
    rw [notAsked]
    exact (List.append_nil done).symm

theorem loadAndTell_passes (loadFlag doneFlag : BitVec 32) (done : Passes) :
    (loadAndTell loadFlag doneFlag).Meets passMonitor
      (fun _ done' => done' = done ++ [(.cp, loadFlag, NONE_IMAG_FLAG)]) done := by
  refine Prog.Meets.call (lets rfl) fun ret => ?_
  split
  · exact ⟨lets rfl, fun _ => rfl⟩
  · rfl

theorem rescanEp_passes (masks : Masks) (done : Passes) :
    (rescanEp masks).Meets passMonitor
      (fun masks' done' => Kept masks masks' ∧ done' = done) done := by
  refine Prog.Meets.call (lets rfl) fun ready => ?_
  cases ready with
  | false => exact ⟨Or.inl rfl, rfl⟩
  | true =>
      refine Prog.Meets.call (lets rfl) fun failed => ?_
      split
      · exact ⟨Or.inr rfl, rfl⟩
      · exact ⟨lets rfl, fun _ => ⟨Or.inl rfl, rfl⟩⟩

theorem loadMiniap_passes (b : Build) (m : LoadInfo) (masks : Masks) (done : Passes) :
    (loadMiniap b m masks).Meets passMonitor
      (fun masks' done' => Kept masks masks' ∧ done' = done ++ miniapPasses m masks.loadType)
      done := by
  rw [loadMiniap, miniapPasses, miniap]
  split
  · apply (loadAndTell_passes _ _ done).bind
    rintro _ _ rfl
    apply (loadAndTell_passes _ _ _).bind
    rintro _ done₂ two
    have clear : (Prog.when b.pcieRescan do
        let _ ← modemClearRemoteFlag EP_SET_BAR_DONE_FLAG).Meets passMonitor
          (fun _ done' => done' = done₂) done₂ := by
      apply Prog.Meets.when
      · intro _
        exact ⟨lets rfl, fun _ => rfl⟩
      · intro _
        rfl
    apply clear.bind
    rintro _ _ rfl
    apply (loadAndTell_passes _ _ _).bind
    rintro head done₃ three
    have all : done₃ = done ++ [(.cp, SML_IMG_FLAG ||| UBOOT_IMG_FLAG, NONE_IMAG_FLAG),
        (.cp, BOOT_IMG_FLAG, NONE_IMAG_FLAG), (.cp, MODEM_HEAD_IMG_FLAG, NONE_IMAG_FLAG)] := by
      rw [three, two, List.append_assoc, List.append_assoc]
      rfl
    split
    · apply (rescanEp_passes masks done₃).mono
      rintro masks' _ ⟨kept, rfl⟩
      exact ⟨kept, all⟩
    · exact ⟨Or.inl rfl, all⟩
  · exact ⟨Or.inl rfl, (List.append_nil done).symm⟩

theorem loadModem_passes (m : LoadInfo) (masks : Masks) (done : Passes) :
    (loadModem m masks).Meets passMonitor
      (fun _ done' => done' = done ++ modemPasses masks.loadType) done := by
  rw [modemPasses]
  apply Prog.Meets.when
  · intro asked
    rw [if_pos asked]
    refine Prog.Meets.call (lets rfl) fun ret => ?_
    apply Prog.Meets.when
    · intro _
      exact ⟨lets rfl, fun _ => rfl⟩
    · intro _
      rfl
  · intro notAsked
    rw [notAsked]
    exact (List.append_nil done).symm

/-- The sp, which is loaded, started and verified on its own. -/
def prepare (b : Build) (m : LoadInfo) (loadType : BitVec 32) : CallProg Unit := do
  modemCtrlEnableWakeLock true
  modemCtrlSetModemState .loading
  Prog.when (anyBit loadType LOAD_SP_IMG) (loadSp b m)

/-- Everything else that is loaded. -/
def load (b : Build) (m : LoadInfo) (loadType : BitVec 32) : CallProg Masks := do
  modemLoadStop (startMask loadType)
  Prog.when (anyBit loadType LOAD_DP_IMG) (loadDp m)
  let masks ← loadSpl m ⟨loadType, startMask loadType⟩
  loadAgdsp masks
  let masks ← loadMiniap b m masks
  loadModem m masks
  pure masks

def finish (masks : Masks) : CallProg Int := do
  modemLoadStart masks.startImg
  modemCtrlSetModemState .booting
  modemCtrlEnableWakeLock false
  pure 0

theorem loadModemImg_parts (b : Build) (m : LoadInfo) (loadType : BitVec 32) :
    loadModemImg b m loadType = (do
      prepare b m (requested b loadType)
      let masks ← load b m (requested b loadType)
      finish masks) := by
  simp only [loadModemImg, prepare, load, finish, Prog.bind_assoc, Prog.pure_eq, Prog.ret_bind]

theorem load_passes (b : Build) (m : LoadInfo) (loadType : BitVec 32) :
    (load b m loadType).Meets passMonitor
      (fun masks done => masks = ⟨loadType, startMask loadType⟩ →
        done = dpPasses m loadType ++ cpPasses m loadType) [] := by
  refine Prog.Meets.call (lets rfl) fun _ => ?_
  apply (loadDp_passes m loadType []).bind
  rintro _ _ rfl
  apply (loadSpl_passes m _ _).bind
  rintro masks₁ _ ⟨kept₁, rfl⟩
  apply (loadAgdsp_passes masks₁ _).bind
  rintro _ _ rfl
  apply (loadMiniap_passes b m masks₁ _).bind
  rintro masks₂ _ ⟨kept₂, rfl⟩
  apply (loadModem_passes m masks₂ _).bind
  rintro _ _ rfl
  rintro rfl
  have same : masks₁ = ⟨loadType, startMask loadType⟩ := by
    rcases kept₁ with kept | cleared
    · exact kept
    · rcases kept₂ with kept | none
      · exact kept.symm
      · exact cleared.trans none.symm
  rw [same, cpPasses]
  simp only [List.nil_append, List.append_assoc]

section Parts

variable (b : Build) (m : LoadInfo) (loadType : BitVec 32) (o : Outcomes)

theorem after_passes (done : Passes) (cs : List Call) :
    passMonitor.after done (cs.map Layer.event) = done ++ (cs.map Layer.op).filterMap pass := by
  induction cs generalizing done with
  | nil => exact (List.append_nil done).symm
  | cons c cs ih =>
      have step : passMonitor.step done c.event = done ++ (pass c.op).toList := by
        cases found : pass c.op with
        | none => simp [Monitor.step, Layer.event, passMonitor, found]
        | some p => simp [Monitor.step, Layer.event, passMonitor, found]
      rw [List.map_cons, Monitor.after_cons, ih, step, List.map_cons, List.filterMap_cons]
      cases pass c.op <;> simp

theorem load_spec :
    (∀ op ∈ ops .external b m (load b m loadType) o,
      op ≠ .secureBootVerifyAll ∧ ∀ loadType, op ≠ .modemLoadStart loadType) ∧
    (yields .external b m (load b m loadType) o = ⟨loadType, startMask loadType⟩ →
      (ops .external b m (load b m loadType) o).filterMap pass =
        dpPasses m loadType ++ cpPasses m loadType) := by
  obtain ⟨accepts, passes⟩ := @Prog.Meets.run _ _ _ _ _ _ _ _
    (Prog.through (handler .external b m) Outcomes.answer) _ (load_passes b m loadType) o
  constructor
  · rw [ops_events]
    intro op member
    obtain ⟨e, inRun, rfl⟩ := List.mem_map.mp member
    exact accepts.all (fun _ _ => id) e inRun
  · rw [yields, value, Prog.interp_run]
    intro full
    have result := passes full
    rw [← Prog.layers_events, after_passes] at result
    exact result

theorem load_writes {x : ImgType} {passes : Passes}
    (made : (ops .external b m (load b m loadType) o).filterMap pass = passes) :
    (∃ op ∈ ops .external b m (load b m loadType) o, Writes b m x op) ↔
      ∃ p ∈ passes, p.1 = x ∧ securePass b (loadValue m x) p.2.1 p.2.2 ≠ [] := by
  subst made
  constructor
  · rintro ⟨_, member, loadFlag, skipFlag, rfl, some⟩
    exact ⟨(x, loadFlag, skipFlag), List.mem_filterMap.mpr ⟨_, member, rfl⟩, rfl, some⟩
  · rintro ⟨⟨_, loadFlag, skipFlag⟩, member, rfl, some⟩
    obtain ⟨op, inOps, found⟩ := List.mem_filterMap.mp member
    refine ⟨op, inOps, loadFlag, skipFlag, ?_, some⟩
    cases op with
    | loadImgFromTable => simpa [pass] using found
    | _ => cases found

/-- The calls for the sp, up to the verification of its image. -/
def spOps : List CallOp :=
  .secureBootSetFlag LOAD_SP_IMG :: .secureBootUnlockDdr :: .modemLoadStop LOAD_SP_IMG ::
    ((if present m.sp then [.loadImgFromTable .sp SP_IMG_FLAG NONE_IMAG_FLAG] else []) ++
      [.modemLoadStart LOAD_SP_IMG, .secureBootVerifyAll])

theorem ops_loadSp (vboot : b.vbootV2 = true) : ops .external b m (loadSp b m) o = spOps m := by
  have flags : (b.sprdSecboot || b.vbootV2) = true := by rw [vboot, Bool.or_true]
  have secure : b.secure = true := by rw [Build.secure, vboot, Bool.or_true]
  rw [loadSp, flags, secure, spOps]
  cases present m.sp <;> rfl

/-- The sp is started with a secure image that was not verified. -/
def SpUnverified : Prop :=
  anyBit loadType LOAD_SP_IMG = true ∧ present m.sp = true ∧
    securePass b m.sp SP_IMG_FLAG NONE_IMAG_FLAG ≠ []

/-- So is the dp, if it comes to its start. -/
def DpUnverified : Prop :=
  anyBit loadType LOAD_DP_IMG = true ∧ present m.dp = true ∧
    securePass b m.dp SP_IMG_FLAG NONE_IMAG_FLAG ≠ []

/-- And the cp. -/
def CpUnverified : Prop :=
  anyBit loadType (LOAD_MODEM_IMG ||| LOAD_MINIAP_IMG) = true ∧
    ∃ p ∈ cpPasses m loadType, securePass b m.cp p.2.1 p.2.2 ≠ []

theorem ops_prepare (vboot : b.vbootV2 = true) :
    ops .external b m (prepare b m loadType) o =
      .modemCtrlEnableWakeLock true :: .modemCtrlSetModemState .loading ::
        (if anyBit loadType LOAD_SP_IMG then spOps m else []) := by
  rw [← ops_loadSp b m o vboot, prepare]
  cases anyBit loadType LOAD_SP_IMG <;> rfl

theorem writes_sp {x : ImgType} :
    Writes b m x (.loadImgFromTable .sp SP_IMG_FLAG NONE_IMAG_FLAG) ↔
      x = .sp ∧ securePass b m.sp SP_IMG_FLAG NONE_IMAG_FLAG ≠ [] := by
  constructor
  · rintro ⟨_, _, same, some⟩
    obtain ⟨rfl, rfl, rfl⟩ := CallOp.loadImgFromTable.inj same
    exact ⟨rfl, some⟩
  · rintro ⟨rfl, some⟩
    exact ⟨_, _, rfl, some⟩

theorem prepare_separated (vboot : b.vbootV2 = true) (x : ImgType) :
    Separated (Writes b m x) (· = .secureBootVerifyAll) (Starts .external x)
        (ops .external b m (prepare b m loadType) o) ↔
      ¬ (x = .sp ∧ SpUnverified b m loadType) := by
  rw [ops_prepare b m loadType o vboot]
  have starts : Starts .external .sp (.modemLoadStart LOAD_SP_IMG) := ⟨LOAD_SP_IMG, rfl, by decide⟩
  have nothing {op : CallOp} (other : ∀ x f s, op ≠ .loadImgFromTable x f s) : ¬ Writes b m x op :=
    not_writes other
  cases asked : anyBit loadType LOAD_SP_IMG <;> cases there : present m.sp <;>
    simp [Separated, Early, nothing, writes_sp, SpUnverified, spOps, asked, there]
  constructor
  · intro clear isSp
    by_contra some
    exact (clear isSp some).1 (isSp ▸ starts)
  · intro none isSp some
    exact absurd (none isSp) some

/-- The sp is verified before anything else is loaded. -/
theorem prepare_clear (vboot : b.vbootV2 = true) (x : ImgType) :
    ¬ Pending (Writes b m x) (· = .secureBootVerifyAll)
      (ops .external b m (prepare b m loadType) o) := by
  have nothing {op : CallOp} (other : ∀ x f s, op ≠ .loadImgFromTable x f s) : ¬ Writes b m x op :=
    not_writes other
  rw [ops_prepare b m loadType o vboot, spOps]
  cases anyBit loadType LOAD_SP_IMG <;> cases present m.sp <;> simp [Pending, nothing]

/-- What is loaded after the sp leads to an unverified start exactly if it is written
    and started. -/
theorem rest_separated (masks : Masks) (x : ImgType) :
    Separated (Writes b m x) (· = .secureBootVerifyAll) (Starts .external x)
        (ops .external b m (load b m loadType) o ++
          [.modemLoadStart masks.startImg, .modemCtrlSetModemState .booting,
            .modemCtrlEnableWakeLock false]) ↔
      ¬ ((∃ op ∈ ops .external b m (load b m loadType) o, Writes b m x op) ∧
        x.started .external masks.startImg = true) := by
  have calls := (load_spec b m loadType o).1
  have loads : Separated (Writes b m x) (· = .secureBootVerifyAll) (Starts .external x)
      (ops .external b m (load b m loadType) o) :=
    separated_of_no_last fun op member => not_starts (calls op member).2
  have finishes : Separated (Writes b m x) (· = .secureBootVerifyAll) (Starts .external x)
      [.modemLoadStart masks.startImg, .modemCtrlSetModemState .booting,
        .modemCtrlEnableWakeLock false] := by
    apply separated_of_no_first
    intro op member
    apply not_writes
    rintro x f s rfl
    simp at member
  rw [separated_append, pending_iff fun op member => (calls op member).1, early_iff (by simp)]
  simp only [loads, finishes, true_and]
  simp [Starts]

theorem startMask_dp (loadType : BitVec 32) :
    anyBit (startMask loadType) LOAD_DP_IMG = anyBit loadType LOAD_DP_IMG :=
  startMask_other loadType (by decide)

/-- Everything that is loaded and not the sp, in the layer below. -/
theorem interp_load :
    (load b m loadType).interp (handler .external b m) = (do
      Load.modemLoadStop m (startMask loadType)
      Prog.when (anyBit loadType LOAD_DP_IMG) (Load.loadDp b m)
      let masks ← bringUp b m ⟨loadType, startMask loadType⟩
      Load.loadModem b m masks
      pure masks) := by
  simp [load, bringUp, loadDp, Load.loadDp, loadSpl, Load.loadSpl, loadAgdsp, Load.loadAgdsp,
    loadMiniap, Load.loadMiniap, loadModem, Load.loadModem, loadValue, present, RemoteWait.bit,
    Prog.bind_assoc]

theorem interp_prepare :
    (prepare b m loadType).interp (handler .external b m) = (do
      Load.modemCtrlEnableWakeLock true (bytes "load_modem_img")
      Load.modemCtrlSetModemState .loading
      Prog.when (anyBit loadType LOAD_SP_IMG) (Load.loadSp b m)) := by
  simp [prepare, loadSp, Load.loadSp, loadValue, present]

theorem yields_load :
    yields .external b m (load b m loadType) (leaves .external b m (prepare b m loadType) o) =
      value (bringUp b m ⟨loadType, startMask loadType⟩) (o.skip (auxBefore m loadType) 0) := by
  have wake (o : Outcomes) :
      after (Load.modemCtrlEnableWakeLock true (bytes "load_modem_img")) o = o := rfl
  have state (o : Outcomes) : after (Load.modemCtrlSetModemState .loading) o = o := rfl
  rw [yields, leaves, interp_load, interp_prepare]
  simp only [value_bind, after_bind, wake, state, Load.modemLoadStop, after_modemLoadRunAll,
    after_aux, Prog.pure_eq, value_ret]

/-- The masks are kept if the miniap, where it is asked for, comes up. -/
theorem yields_load_cases :
    ((Miniap m loadType → BroughtUp b m loadType (o.skip (auxBefore m loadType) 0)) ∧
        yields .external b m (load b m loadType) (leaves .external b m (prepare b m loadType) o) =
          ⟨loadType, startMask loadType⟩) ∨
      (¬ (Miniap m loadType → BroughtUp b m loadType (o.skip (auxBefore m loadType) 0)) ∧
        yields .external b m (load b m loadType) (leaves .external b m (prepare b m loadType) o) =
          Masks.none) := by
  rw [yields_load]
  by_cases miniap : Miniap m loadType
  · rcases @bringUp_keeps b m miniap.2 ⟨loadType, startMask loadType⟩ miniap.1
      (o.skip (auxBefore m loadType) 0) with ⟨up, same⟩ | ⟨down, none⟩
    · exact Or.inl ⟨fun _ => up, same⟩
    · exact Or.inr ⟨fun up => down (up miniap), none⟩
  · have other : (anyBit loadType LOAD_MINIAP_IMG && m.cp.ioctrlIsOk) = false := by
      simpa [Miniap] using miniap
    exact Or.inl ⟨fun asked => absurd asked miniap, bringUp_other b other _⟩

theorem cpPasses_cp : ∀ p ∈ cpPasses m loadType, p.1 = .cp := by
  intro p member
  simp only [cpPasses, splPasses, agdspPasses, miniapPasses, modemPasses, List.mem_append] at member
  grind

theorem dpPasses_dp : ∀ p ∈ dpPasses m loadType, p.1 = .dp := by
  intro p member
  simp only [dpPasses] at member
  grind

theorem dp_writes :
    (∃ p ∈ dpPasses m loadType ++ cpPasses m loadType,
        p.1 = .dp ∧ securePass b (loadValue m .dp) p.2.1 p.2.2 ≠ []) ∧
      ImgType.dp.started .external (startMask loadType) = true ↔ DpUnverified b m loadType := by
  have started : ImgType.dp.started .external (startMask loadType) = anyBit loadType LOAD_DP_IMG :=
    startMask_dp loadType
  rw [started, DpUnverified]
  constructor
  · rintro ⟨⟨p, member, isDp, some⟩, asked⟩
    rcases List.mem_append.mp member with dp | cp
    · simp only [dpPasses, asked, Bool.true_and] at dp
      split at dp
      · rename_i there
        obtain rfl := List.mem_singleton.mp dp
        exact ⟨asked, there, some⟩
      · cases dp
    · rw [cpPasses_cp m loadType p cp] at isDp
      cases isDp
  · rintro ⟨asked, there, some⟩
    refine ⟨⟨(.dp, SP_IMG_FLAG, NONE_IMAG_FLAG), ?_, rfl, some⟩, asked⟩
    simp [dpPasses, asked, there]

theorem cp_writes :
    (∃ p ∈ dpPasses m loadType ++ cpPasses m loadType,
        p.1 = .cp ∧ securePass b (loadValue m .cp) p.2.1 p.2.2 ≠ []) ∧
      ImgType.cp.started .external (startMask loadType) = true ↔ CpUnverified b m loadType := by
  have started : ImgType.cp.started .external (startMask loadType) =
      anyBit loadType (LOAD_MODEM_IMG ||| LOAD_MINIAP_IMG) := startMask_cp loadType
  rw [started, CpUnverified]
  constructor
  · rintro ⟨⟨p, member, isCp, some⟩, asked⟩
    rcases List.mem_append.mp member with dp | cp
    · rw [dpPasses_dp m loadType p dp] at isCp
      cases isCp
    · exact ⟨asked, p, cp, some⟩
  · rintro ⟨asked, p, cp, some⟩
    exact ⟨⟨p, List.mem_append_right _ cp, cpPasses_cp m loadType p cp, some⟩, asked⟩

theorem verified_iff (vboot : b.vbootV2 = true) :
    VerifiedBeforeStart .external (calls .external b m loadType o) ↔
      ¬ SpUnverified b m (requested b loadType) ∧
        ((Miniap m (requested b loadType) → BroughtUp b m (requested b loadType)
            (o.skip (auxBefore m (requested b loadType)) 0)) →
          ¬ DpUnverified b m (requested b loadType) ∧ ¬ CpUnverified b m (requested b loadType)) := by
  generalize asked : requested b loadType = t
  have parts : LoadCalls.loadModemImg .external b m loadType = _ := loadModemImg_parts b m loadType
  have finishes (masks : Masks) (o : Outcomes) : ops .external b m (finish masks) o =
      [.modemLoadStart masks.startImg, .modemCtrlSetModemState .booting,
        .modemCtrlEnableWakeLock false] := rfl
  have each (x : ImgType) : Separated (Writes b m x) (· = .secureBootVerifyAll) (Starts .external x)
      (ops .external b m (LoadCalls.loadModemImg .external b m loadType) o) ↔
      ¬ (x = .sp ∧ SpUnverified b m t) ∧
        ¬ ((∃ op ∈ ops .external b m (load b m t) (leaves .external b m (prepare b m t) o),
            Writes b m x op) ∧
          x.started .external (yields .external b m (load b m t)
            (leaves .external b m (prepare b m t) o)).startImg = true) := by
    rw [parts, asked, ops_bind, ops_bind, finishes, separated_append,
      prepare_separated b m t o vboot, rest_separated]
    simp only [prepare_clear b m t o vboot, false_and, not_false_eq_true, and_true]
  rw [verifiedBeforeStart_iff]
  simp only [each, ImgType.forall_iff]
  rcases yields_load_cases b m t o with ⟨up, full⟩ | ⟨down, none⟩
  · have made := (load_spec b m t _).2 full
    have sp : ImgType.sp.started .external (startMask t) = false := startMask_sp t
    simp only [full, load_writes b m t _ made, dp_writes, cp_writes, sp]
    grind
  · have sp : ImgType.sp.started .external Masks.none.startImg = false := rfl
    have dp : ImgType.dp.started .external Masks.none.startImg = false := rfl
    have cp : ImgType.cp.started .external Masks.none.startImg = false := rfl
    simp only [none, sp, dp, cp]
    grind

end Parts

end External

/-- The internal variant never starts a subsystem with a secure image that was not
    verified. The external one does not exactly if it writes no secure image of the sp,
    and none of the dp and the cp unless the miniap does not come up. -/
theorem verified_before_start_iff (b : Build) (vboot : b.vbootV2 = true) (m : LoadInfo)
    (loadType : BitVec 32) (o : Outcomes) :
    VerifiedBeforeStart .internal (calls .internal b m loadType o) ∧
      (VerifiedBeforeStart .external (calls .external b m loadType o) ↔
        ¬ External.SpUnverified b m (requested b loadType) ∧
          ((Miniap m (requested b loadType) → BroughtUp b m (requested b loadType)
              (o.skip (auxBefore m (requested b loadType)) 0)) →
            ¬ External.DpUnverified b m (requested b loadType) ∧
              ¬ External.CpUnverified b m (requested b loadType))) := by
  have secure : b.secure = true := by rw [Build.secure, vboot, Bool.or_true]
  exact ⟨Internal.verified secure m loadType o, External.verified_iff b m loadType o vboot⟩

/-- One secure image for the sp, and a cp without images. -/
def secureSp : LoadInfo where
  cp := {}
  sp := {
    loadTable := [⟨bytes "/proc/pmic/pm_sys", bytes "/data/pm_sys", bytes "pm_sys", 0, 0x10000,
      0x1000 ||| 1 <<< SECURE_FLAG⟩]
    drvIsOk := true }
  dp := {}

/-- A load of the modem alone leaves the sp alone. -/
theorem modem_alone_verified :
    VerifiedBeforeStart .external
      (calls .external { vbootV2 := true } secureSp LOAD_MODEM_IMG allFail) := by
  apply (verified_before_start_iff { vbootV2 := true } rfl secureSp LOAD_MODEM_IMG allFail).2.mpr
  constructor
  · rintro ⟨asked, _⟩
    exact absurd asked (by decide)
  · intro _
    constructor
    · rintro ⟨asked, _⟩
      exact absurd asked (by decide)
    · rintro ⟨_, p, _, some⟩
      exact some rfl

/-- Every image load succeeds. -/
def allLoaded : Outcomes := { allFail with images := Stream'.const 0 }

/-- The sp is loaded and started, and only then verified. -/
theorem sp_started_unverified :
    ¬ VerifiedBeforeStart .external
      (calls .external { vbootV2 := true } secureSp LOAD_SP_IMG allLoaded) := by
  intro verified
  have none := verified .sp [_, _, _, _, _] _ [] _ _ rfl ⟨⟨_, _, rfl⟩, by decide⟩
    ⟨_, rfl, by decide⟩
  obtain ⟨c, member, _⟩ := none
  cases member

end ModemControl.LoadCalls
