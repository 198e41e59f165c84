import ModemControl.LoadCalls

/-! # The passes over the load tables

Which passes over which table the loads of a build can make, and what holds of all of them.
-/

namespace ModemControl.LoadCalls

open Foundation Load ListenModem Prog

instance (op : CallOp) : Nonempty op.Res := by
  cases op <;> exact ⟨default⟩

instance (op : LoadOp) : Nonempty op.Res := by
  cases op with
  | iocmd cmd path => cases cmd <;> exact ⟨default⟩
  | _ => exact ⟨default⟩

/-- The flags to load and to skip. -/
structure Pass where
  loadFlag : BitVec 32
  skipFlag : BitVec 32
  deriving Repr, DecidableEq

def LOAD_ALL_IMG : BitVec 32 := 0x1F

/-- The passes of `load_modem_img`. -/
def runPasses : Variant → Build → ImgType → List Pass
  | _, _, .sp => [⟨SP_IMG_FLAG, NONE_IMAG_FLAG⟩]
  | .external, b, .dp => if b.removeSprdModem then [] else [⟨SP_IMG_FLAG, NONE_IMAG_FLAG⟩]
  | .external, b, .cp =>
      if b.removeSprdModem then []
      else [⟨SPL_IMG_FLAG, NONE_IMAG_FLAG⟩, ⟨AUDIO_IMG_FLAG, NONE_IMAG_FLAG⟩,
        ⟨SML_IMG_FLAG ||| UBOOT_IMG_FLAG, NONE_IMAG_FLAG⟩, ⟨BOOT_IMG_FLAG, NONE_IMAG_FLAG⟩,
        ⟨MODEM_HEAD_IMG_FLAG, NONE_IMAG_FLAG⟩, ⟨MODEM_IMG_FLAG, MODEM_HEAD_IMG_FLAG⟩]
  | .internal, _, .dp => []
  | .internal, b, .cp => if b.removeSprdModem then [] else [⟨MODEM_IMG_FLAG, NONE_IMAG_FLAG⟩]

/-- Those of `load_spl_img` too, which only the external variant has. -/
def passes (v : Variant) (b : Build) (img : ImgType) : List Pass :=
  runPasses v b img ++
    if v = .external ∧ img = .cp then [⟨SPL_IMG_FLAG, NONE_IMAG_FLAG⟩] else []

/-- A pass over the table of a subsystem with an ioctl device meets what is asked of it. -/
def OnDevice (m : LoadInfo) (asked : ImgType → Pass → Prop) : CallOp → Prop
  | .loadImgFromTable img loadFlag skipFlag =>
      (loadValue m img).ioctrlIsOk → asked img ⟨loadFlag, skipFlag⟩
  | _ => True

theorem loadSpl_returns (m : LoadInfo) (masks : Masks) : Returns (External.loadSpl m masks) masks := by
  unfold External.loadSpl
  split
  · refine ⟨0, ?_⟩
    split
    · exact ⟨0, 0, true, rfl⟩
    · rfl
  · rfl

theorem loadAndTell_returns (loadFlag doneFlag : BitVec 32) :
    Returns (External.loadAndTell loadFlag doneFlag) false :=
  ⟨1, rfl⟩

theorem loadMiniap_returns (b : Build) (m : LoadInfo) (masks : Masks) :
    Returns (External.loadMiniap b m masks) masks := by
  unfold External.loadMiniap
  split
  · apply returns_bind (loadAndTell_returns _ _)
    apply returns_bind (loadAndTell_returns _ _)
    apply returns_bind (returns_unit _)
    exact returns_bind (loadAndTell_returns _ _) rfl
  · rfl

section

variable {b : Build} {m : LoadInfo} {asked : ImgType → Pass → Prop}

theorem loadSp_calls (pass : (loadValue m .sp).ioctrlIsOk → asked .sp ⟨SP_IMG_FLAG, NONE_IMAG_FLAG⟩) :
    Calls (OnDevice m asked) (External.loadSp b m) := by
  unfold External.loadSp
  apply Calls.bind
  · exact Calls.when _ ⟨trivial, fun _ => ⟨trivial, fun _ => trivial⟩⟩
  · intro _
    apply Calls.call trivial
    intro _
    apply Calls.bind
    · exact Calls.when _ ⟨pass, fun _ => trivial⟩
    · intro _
      exact ⟨trivial, fun _ => Calls.when _ ⟨trivial, fun _ => trivial⟩⟩

theorem loadDp_calls (pass : (loadValue m .dp).ioctrlIsOk → asked .dp ⟨SP_IMG_FLAG, NONE_IMAG_FLAG⟩) :
    Calls (OnDevice m asked) (External.loadDp m) :=
  Calls.when _ ⟨pass, fun _ => trivial⟩

theorem loadAndTell_calls {loadFlag doneFlag : BitVec 32}
    (pass : (loadValue m .cp).ioctrlIsOk → asked .cp ⟨loadFlag, NONE_IMAG_FLAG⟩) :
    Calls (OnDevice m asked) (External.loadAndTell loadFlag doneFlag) := by
  apply Calls.call pass
  intro ret
  split
  · exact ⟨trivial, fun _ => trivial⟩
  · trivial

/-- All passes over the table of the cp. -/
def CpPasses (m : LoadInfo) (asked : ImgType → Pass → Prop) : Prop :=
  (loadValue m .cp).ioctrlIsOk → ∀ pass ∈ runPasses .external {} .cp, asked .cp pass

theorem loadSpl_calls (cp : CpPasses m asked) (masks : Masks) :
    Calls (OnDevice m asked) (External.loadSpl m masks) := by
  unfold External.loadSpl
  split
  · apply Calls.call trivial
    intro _
    split
    · apply Calls.call (fun device => cp device _ (by decide))
      intro ret
      split
      · trivial
      · apply Calls.call trivial
        intro _
        apply Calls.call trivial
        intro ready
        split <;> trivial
    · trivial
  · trivial

theorem loadMiniap_calls (cp : CpPasses m asked) (masks : Masks) :
    Calls (OnDevice m asked) (External.loadMiniap b m masks) := by
  unfold External.loadMiniap
  split
  · apply Calls.bind (loadAndTell_calls fun device => cp device _ (by decide))
    intro _
    apply Calls.bind (loadAndTell_calls fun device => cp device _ (by decide))
    intro _
    apply Calls.bind
    · exact Calls.when _ ⟨trivial, fun _ => trivial⟩
    · intro _
      apply Calls.bind (loadAndTell_calls fun device => cp device _ (by decide))
      intro head
      split
      · apply Calls.call trivial
        intro ready
        split
        · apply Calls.call trivial
          intro failed
          split
          · trivial
          · exact ⟨trivial, fun _ => trivial⟩
        · trivial
      · trivial
  · trivial

theorem loadAgdsp_calls (cp : CpPasses m asked) (masks : Masks) :
    Calls (OnDevice m asked) (External.loadAgdsp masks) :=
  Calls.when _ ⟨fun device => cp device _ (by decide), fun _ => trivial⟩

theorem loadModem_calls (cp : CpPasses m asked) (masks : Masks) :
    Calls (OnDevice m asked) (External.loadModem m masks) := by
  apply Calls.when
  apply Calls.call (fun device => cp device _ (by decide))
  intro ret
  exact Calls.when _ ⟨trivial, fun _ => trivial⟩

theorem loadSpl_sp (m : LoadInfo) (startImg : BitVec 32) :
    External.loadSpl m ⟨LOAD_SP_IMG, startImg⟩ =
      if m.cp.ioctrlIsOk && LOAD_SP_IMG != 0 then
        modemSetRemoteFlag REMOTE_CLEAR_FLAG >>= fun _ => pure ⟨LOAD_SP_IMG, startImg⟩
      else pure ⟨LOAD_SP_IMG, startImg⟩ := by
  have noMiniap : anyBit LOAD_SP_IMG LOAD_MINIAP_IMG = false := by decide
  simp [External.loadSpl, noMiniap]

theorem loadSpl_sp_calls (startImg : BitVec 32) :
    Calls (OnDevice m asked) (External.loadSpl m ⟨LOAD_SP_IMG, startImg⟩) := by
  rw [loadSpl_sp]
  split
  · exact ⟨trivial, fun _ => trivial⟩
  · trivial

theorem loadSpl_sp_returns {startImg : BitVec 32} {masks : Masks}
    (returned : Returns (External.loadSpl m ⟨LOAD_SP_IMG, startImg⟩) masks) :
    masks = ⟨LOAD_SP_IMG, startImg⟩ := by
  rw [loadSpl_sp] at returned
  split at returned
  · obtain ⟨_, same⟩ := returned
    exact same.symm
  · exact returned.symm

/-- Without the modem only the sp is loaded. -/
theorem external_removed (removed : b.removeSprdModem = true)
    (sp : (loadValue m .sp).ioctrlIsOk → asked .sp ⟨SP_IMG_FLAG, NONE_IMAG_FLAG⟩)
    (loadType : BitVec 32) :
    Calls (OnDevice m asked) (External.loadModemImg b m loadType) := by
  have only : requested b loadType = LOAD_SP_IMG := by rw [requested, removed, if_pos rfl]
  unfold External.loadModemImg
  rw [only]
  apply Calls.call trivial
  intro _
  apply Calls.call trivial
  intro _
  apply Calls.bind (Calls.when _ (loadSp_calls sp))
  intro _
  apply Calls.call trivial
  intro _
  apply Calls.bind
  · trivial
  · intro _
    apply calls_bind_iff.mpr
    refine ⟨loadSpl_sp_calls _, ?_⟩
    intro masks returned
    obtain rfl := loadSpl_sp_returns returned
    exact ⟨trivial, fun _ => ⟨trivial, fun _ => ⟨trivial, fun _ => trivial⟩⟩⟩

theorem external_all
    (sp : (loadValue m .sp).ioctrlIsOk → asked .sp ⟨SP_IMG_FLAG, NONE_IMAG_FLAG⟩)
    (dp : (loadValue m .dp).ioctrlIsOk → asked .dp ⟨SP_IMG_FLAG, NONE_IMAG_FLAG⟩)
    (cp : CpPasses m asked) (loadType : BitVec 32) :
    Calls (OnDevice m asked) (External.loadModemImg b m loadType) := by
  unfold External.loadModemImg
  apply Calls.call trivial
  intro _
  apply Calls.call trivial
  intro _
  apply Calls.bind (Calls.when _ (loadSp_calls sp))
  intro _
  apply Calls.call trivial
  intro _
  apply Calls.bind (Calls.when _ (loadDp_calls dp))
  intro _
  apply Calls.bind (loadSpl_calls cp _)
  intro masks
  apply Calls.bind (loadAgdsp_calls cp masks)
  intro _
  apply Calls.bind (loadMiniap_calls cp masks)
  intro masks
  apply Calls.bind (loadModem_calls cp masks)
  intro _
  exact ⟨trivial, fun _ => ⟨trivial, fun _ => ⟨trivial, fun _ => trivial⟩⟩⟩

theorem present_of_device {load : LoadValue} (device : load.ioctrlIsOk = true) : present load = true := by
  rw [present, device, Bool.or_true]

theorem loadSp_made (calls : Calls (OnDevice m asked) (External.loadSp b m))
    (device : (loadValue m .sp).ioctrlIsOk = true) : asked .sp ⟨SP_IMG_FLAG, NONE_IMAG_FLAG⟩ := by
  have there : present m.sp = true := present_of_device device
  have made := calls.rest.rest.first
  rw [there] at made
  exact made.1 device

theorem loadDp_made (calls : Calls (OnDevice m asked) (External.loadDp m))
    (device : (loadValue m .dp).ioctrlIsOk = true) : asked .dp ⟨SP_IMG_FLAG, NONE_IMAG_FLAG⟩ := by
  have there : present m.dp = true := present_of_device device
  rw [External.loadDp, there] at calls
  exact calls.1 device

theorem loadSpl_made {startImg : BitVec 32}
    (calls : Calls (OnDevice m asked) (External.loadSpl m ⟨LOAD_ALL_IMG, startImg⟩))
    (device : (loadValue m .cp).ioctrlIsOk = true) : asked .cp ⟨SPL_IMG_FLAG, NONE_IMAG_FLAG⟩ := by
  have here : (m.cp.ioctrlIsOk && LOAD_ALL_IMG != 0) = true := by
    rw [show m.cp.ioctrlIsOk = true from device]
    decide
  have miniap : anyBit LOAD_ALL_IMG LOAD_MINIAP_IMG = true := by decide
  simp only [External.loadSpl, here, miniap, if_true] at calls
  exact (calls.2 0).1 device

theorem loadAndTell_made {loadFlag doneFlag : BitVec 32}
    (calls : Calls (OnDevice m asked) (External.loadAndTell loadFlag doneFlag))
    (device : (loadValue m .cp).ioctrlIsOk = true) : asked .cp ⟨loadFlag, NONE_IMAG_FLAG⟩ :=
  calls.1 device

theorem loadMiniap_made {startImg : BitVec 32}
    (calls : Calls (OnDevice m asked) (External.loadMiniap b m ⟨LOAD_ALL_IMG, startImg⟩))
    (device : (loadValue m .cp).ioctrlIsOk = true) :
    asked .cp ⟨SML_IMG_FLAG ||| UBOOT_IMG_FLAG, NONE_IMAG_FLAG⟩ ∧
      asked .cp ⟨BOOT_IMG_FLAG, NONE_IMAG_FLAG⟩ ∧ asked .cp ⟨MODEM_HEAD_IMG_FLAG, NONE_IMAG_FLAG⟩ := by
  have here : (anyBit LOAD_ALL_IMG LOAD_MINIAP_IMG && m.cp.ioctrlIsOk) = true := by
    rw [show m.cp.ioctrlIsOk = true from device]
    decide
  rw [External.loadMiniap, if_pos here] at calls
  have uboot := loadAndTell_made calls.first device
  have calls := calls.behind (loadAndTell_returns _ _)
  have boot := loadAndTell_made calls.first device
  have calls := calls.behind (loadAndTell_returns _ _)
  have head := loadAndTell_made calls.rest.first device
  exact ⟨uboot, boot, head⟩

theorem external_made (kept : b.removeSprdModem = false)
    (calls : Calls (OnDevice m asked) (External.loadModemImg b m LOAD_ALL_IMG)) :
    ((loadValue m .sp).ioctrlIsOk → asked .sp ⟨SP_IMG_FLAG, NONE_IMAG_FLAG⟩) ∧
      ((loadValue m .dp).ioctrlIsOk → asked .dp ⟨SP_IMG_FLAG, NONE_IMAG_FLAG⟩) ∧
      CpPasses m asked := by
  have all : requested b LOAD_ALL_IMG = LOAD_ALL_IMG := by
    rw [requested, kept]
    rfl
  unfold External.loadModemImg at calls
  rw [all] at calls
  have calls := calls.rest.rest
  have sp : Calls (OnDevice m asked) (External.loadSp b m) := calls.first
  have calls := calls.rest.rest
  have dp : Calls (OnDevice m asked) (External.loadDp m) := calls.first
  have calls := calls.rest
  have spl := calls.first
  have calls := calls.behind (loadSpl_returns m _)
  have agdsp := calls.first
  have calls := calls.rest
  have miniap := calls.first
  have calls := calls.behind (loadMiniap_returns b m _)
  have modem := calls.first
  refine ⟨loadSp_made sp, loadDp_made dp, ?_⟩
  intro device
  obtain ⟨uboot, boot, head⟩ := loadMiniap_made miniap device
  intro pass member
  simp only [runPasses, Bool.false_eq_true, if_false, List.mem_cons, List.not_mem_nil, or_false]
    at member
  rcases member with rfl | rfl | rfl | rfl | rfl | rfl
  · exact loadSpl_made spl device
  · exact agdsp.1 device
  · exact uboot
  · exact boot
  · exact head
  · exact modem.1 device

theorem external_removed_made (removed : b.removeSprdModem = true)
    (calls : Calls (OnDevice m asked) (External.loadModemImg b m LOAD_ALL_IMG)) :
    (loadValue m .sp).ioctrlIsOk → asked .sp ⟨SP_IMG_FLAG, NONE_IMAG_FLAG⟩ := by
  have only : requested b LOAD_ALL_IMG = LOAD_SP_IMG := by rw [requested, removed, if_pos rfl]
  unfold External.loadModemImg at calls
  rw [only] at calls
  have sp : Calls (OnDevice m asked) (External.loadSp b m) := calls.rest.rest.first
  exact loadSp_made sp

theorem internal_calls (sp : (loadValue m .sp).ioctrlIsOk → asked .sp ⟨SP_IMG_FLAG, NONE_IMAG_FLAG⟩)
    (cp : b.removeSprdModem = false → (loadValue m .cp).ioctrlIsOk →
      asked .cp ⟨MODEM_IMG_FLAG, NONE_IMAG_FLAG⟩) (loadType : BitVec 32) :
    Calls (OnDevice m asked) (Internal.loadModemImg b m loadType) := by
  have modem : Calls (OnDevice m asked) (Prog.when (anyBit (requested b loadType) LOAD_MODEM_IMG) do
      Prog.when (present m.cp) do
        let _ ← loadImgFromTable .cp MODEM_IMG_FLAG NONE_IMAG_FLAG) := by
    cases removed : b.removeSprdModem with
    | true =>
        have none : anyBit (requested b loadType) LOAD_MODEM_IMG = false := by
          rw [requested, removed, if_pos rfl]
          decide
        rw [none]
        trivial
    | false => exact Calls.when _ (Calls.when _ ⟨cp removed, fun _ => trivial⟩)
  unfold Internal.loadModemImg
  apply Calls.call trivial
  intro _
  apply Calls.bind
  · exact Calls.when _ ⟨trivial, fun _ => ⟨trivial, fun _ => trivial⟩⟩
  · intro _
    apply Calls.call trivial
    intro _
    apply Calls.call trivial
    intro _
    apply Calls.bind
    · exact Calls.when _ (Calls.when _ ⟨sp, fun _ => trivial⟩)
    · intro _
      apply Calls.bind modem
      intro _
      apply Calls.bind
      · exact Calls.when _ ⟨trivial, fun _ => trivial⟩
      · intro _
        exact ⟨trivial, fun _ => ⟨trivial, fun _ => ⟨trivial, fun _ => trivial⟩⟩⟩

theorem internal_made (calls : Calls (OnDevice m asked) (Internal.loadModemImg b m LOAD_ALL_IMG)) :
    ((loadValue m .sp).ioctrlIsOk → asked .sp ⟨SP_IMG_FLAG, NONE_IMAG_FLAG⟩) ∧
      (b.removeSprdModem = false → (loadValue m .cp).ioctrlIsOk →
        asked .cp ⟨MODEM_IMG_FLAG, NONE_IMAG_FLAG⟩) := by
  have sp := calls.rest.rest.rest.rest.first
  have cp := calls.rest.rest.rest.rest.rest.first
  constructor
  · intro device
    have there : present m.sp = true := present_of_device device
    have loads : anyBit (requested b LOAD_ALL_IMG) LOAD_SP_IMG = true := by
      unfold requested
      split <;> decide
    rw [loads, there] at sp
    exact sp.1 device
  · intro kept device
    have there : present m.cp = true := present_of_device device
    have loads : anyBit (requested b LOAD_ALL_IMG) LOAD_MODEM_IMG = true := by
      rw [requested, kept]
      decide
    rw [loads, there] at cp
    exact cp.1 device

end

theorem external_calls_iff (b : Build) (m : LoadInfo) (asked : ImgType → Pass → Prop) :
    (∀ loadType, Calls (OnDevice m asked) (External.loadModemImg b m loadType)) ↔
      ∀ img, (loadValue m img).ioctrlIsOk → ∀ pass ∈ runPasses .external b img, asked img pass := by
  cases removed : b.removeSprdModem with
  | true =>
      constructor
      · intro calls img device pass member
        cases img <;> simp only [runPasses, removed, if_true, List.not_mem_nil,
          List.mem_singleton] at member
        rw [member]
        exact external_removed_made removed (calls LOAD_ALL_IMG) device
      · intro asks
        exact external_removed removed fun device => asks .sp device _ (by simp [runPasses])
  | false =>
      constructor
      · intro calls img device
        obtain ⟨sp, dp, cp⟩ := external_made removed (calls LOAD_ALL_IMG)
        cases img with
        | sp => simpa [runPasses] using sp device
        | dp => simpa [runPasses, removed] using dp device
        | cp =>
            simp only [runPasses, removed]
            exact cp device
      · intro asks
        apply external_all
        · exact fun device => asks .sp device _ (by simp [runPasses])
        · exact fun device => asks .dp device _ (by simp [runPasses, removed])
        · intro device
          have asks := asks .cp device
          simp only [runPasses, removed] at asks
          exact asks

theorem internal_calls_iff (b : Build) (m : LoadInfo) (asked : ImgType → Pass → Prop) :
    (∀ loadType, Calls (OnDevice m asked) (Internal.loadModemImg b m loadType)) ↔
      ∀ img, (loadValue m img).ioctrlIsOk → ∀ pass ∈ runPasses .internal b img, asked img pass := by
  constructor
  · intro calls img device
    obtain ⟨sp, cp⟩ := internal_made (calls LOAD_ALL_IMG)
    cases img with
    | sp => simpa [runPasses] using sp device
    | dp => simp [runPasses]
    | cp =>
        cases removed : b.removeSprdModem with
        | true => simp [runPasses, removed]
        | false => simpa [runPasses, removed] using cp removed device
  · intro asks
    apply internal_calls
    · exact fun device => asks .sp device _ (by simp [runPasses])
    · exact fun kept device => asks .cp device _ (by simp [runPasses, kept])

/-- What holds of every pass in every run is what holds of the passes of the build. -/
theorem loadModemImg_calls_iff (v : Variant) (b : Build) (m : LoadInfo)
    (asked : ImgType → Pass → Prop) :
    (∀ loadType, Calls (OnDevice m asked) (loadModemImg v b m loadType)) ↔
      ∀ img, (loadValue m img).ioctrlIsOk → ∀ pass ∈ runPasses v b img, asked img pass := by
  cases v with
  | external => exact external_calls_iff b m asked
  | internal => exact internal_calls_iff b m asked

end ModemControl.LoadCalls
