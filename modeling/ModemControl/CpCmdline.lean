import ModemControl.Foundation.Buffer
import ModemControl.Foundation.Search
import ModemControl.LoadFiles

/-! # The command line of the cp: modem_load.c, modem_simlock.c

`modem_load_cp_cmdline` in its buffer. Pointers into the buffer are addresses; one that was
computed from a search that failed is nothing, and so is all that comes of using it or of
writing beyond the buffer.
-/

namespace ModemControl.CpCmdline

open Foundation LoadFiles

def MODEM : Bytes := bytes "modem="
def CALIBRATION : Bytes := bytes "calibration="

/-- What the TEE answers: a result that is 0 for success, and the bytes of `cmd_data`. -/
structure TeeAnswer where
  ret : BitVec 32
  cmdData : BitVec 32
  deriving Repr, DecidableEq

/-- `EndianConvert` of four bytes. -/
def endianConvert (x : BitVec 32) : BitVec 32 :=
  x.extractLsb' 0 8 ++ x.extractLsb' 8 8 ++ x.extractLsb' 16 8 ++ x.extractLsb' 24 8

def spuk (tee : TeeAnswer) : BitVec 32 := if tee.ret ≠ 0 then 0 else endianConvert tee.cmdData

/-- A number as `%x` prints it. -/
def hex (n : BitVec 32) : Bytes := (Nat.toDigits 16 n.toNat).map fun c => c.toNat.toUInt8

/-- The text that is to be appended. -/
def spukText (tee : TeeAnswer) : Bytes := bytes " simlock.puk=0x" ++ hex (spuk tee)

/-- `spuk_str`, which has room for 63 characters. -/
def spukStr (tee : TeeAnswer) : Bytes := (spukText tee).take 63

/-- `strncat` of a short text, if there is room for it and its NUL. -/
def strncat (buf : Bytes) (str : Nat) (src : Bytes) : Option Bytes :=
  let e := str + (text buf str).length
  if e + src.length < buf.length then
    some (buf.take e ++ src ++ 0 :: buf.drop (e + src.length + 1))
  else none

def addSpukCmdline (tee : TeeAnswer) (buf : Bytes) (str : Nat) : Option Bytes :=
  strncat buf str (spukStr tee)

def strstrAt (buf : Bytes) (i : Nat) (needle : Bytes) : Option Nat :=
  (indexOf needle (text buf i)).map (i + ·)

def strchrAt (buf : Bytes) (i : Nat) (c : UInt8) : Option Nat :=
  ((text buf i).findIdx? (· == c)).map (i + ·)

/-- `cmdline` after the read. -/
def cmdlineBuf (data : Bytes) : Bytes := data ++ List.replicate (CPCMDLINE_SIZE - data.length) 0

/-- `str` behind both searches. -/
def searched (cmdline : Bytes) : Option Nat :=
  match strstrAt cmdline 0 MODEM with
  | some str => (strchrAt cmdline str 32).map (· + 1)
  | none => some 0

/-- The buffer behind the block under SIMLOCK_AP_READ_EFUSE, when the build has it. -/
def addSimlock (simlock : Option TeeAnswer) (cmdline : Bytes) (str : Option Nat) : Option Bytes :=
  match simlock with
  | some tee =>
      if strstr (text cmdline 0) CALIBRATION = false then str.bind (addSpukCmdline tee cmdline)
      else some cmdline
  | none => some cmdline

/-- Which files open, and what /proc/cmdline has for a read: nothing for -1. -/
structure Files where
  fdin : Bool := true
  fdout : Bool := true
  content : Option Bytes
  deriving Repr, DecidableEq

/-- The bytes that are read. -/
def Files.data (files : Files) : Bytes := (files.content.getD []).take (CPCMDLINE_SIZE - 1)

/-- What is written to `fout`, if it comes to that. -/
def modemLoadCpCmdline (simlock : Option TeeAnswer) (files : Files) : Option (Option Bytes) :=
  if files.fdin then do
    let cmdline := cmdlineBuf files.data
    let str := if files.data = [] then some 0 else searched cmdline
    let cmdline ← addSimlock simlock cmdline str
    if files.fdout then
      let str ← str
      return some (frame (text cmdline str))
    else return none
  else some none

/-- The text behind the first blank behind the first `modem=`. -/
def afterModem (line : Bytes) : Bytes :=
  match findStr line MODEM with
  | none => line
  | some str => (str.dropWhile (· != 32)).drop 1

def simlockText (simlock : Option TeeAnswer) (line : Bytes) : Bytes :=
  match simlock with
  | some tee => if strstr line CALIBRATION = false then spukText tee else []
  | none => []

/-- Whichever files open, no pointer is wrong and nothing is written beyond the buffer; and
    when both do, this text is handed over with one NUL. -/
def HandsOver (simlock : Option TeeAnswer) (content : Option Bytes) : Prop :=
  ∀ fdin fdout, ∃ written, modemLoadCpCmdline simlock ⟨fdin, fdout, content⟩ = some written ∧
    (fdin = true → fdout = true →
      let line := cstr (Files.data ⟨fdin, fdout, content⟩)
      written = some (frame (afterModem line ++ simlockText simlock line)))

/-- Behind `modem=` there is a blank. -/
def Delimited (line : Bytes) : Prop := ∀ str, findStr line MODEM = some str → 32 ∈ str

/-- With what is appended the line fits the buffer. -/
def Fits (simlock : Option TeeAnswer) (line : Bytes) : Prop :=
  line.length + (simlockText simlock line).length < CPCMDLINE_SIZE

instance (simlock : Option TeeAnswer) (line : Bytes) : Decidable (Fits simlock line) :=
  inferInstanceAs (Decidable (_ < _))

/-- The text that the calls of the function hand over is this one. -/
theorem afterModem_eq_some_iff {line str : Bytes} :
    LoadFiles.afterModem line = some str ↔ Delimited line ∧ afterModem line = str := by
  have word : bytes "modem=" = MODEM := rfl
  unfold LoadFiles.afterModem afterModem Delimited
  rw [word]
  cases findStr line MODEM with
  | none => simp
  | some found =>
      have blank : found.dropWhile (· != 32) = [] ↔ 32 ∉ found := by
        rw [List.dropWhile_eq_nil_iff]
        constructor
        · intro all member
          cases all 32 member
        · intro none c member
          simpa using ne_of_mem_of_not_mem member none
      simp only [Option.some.injEq, forall_eq']
      cases behind : found.dropWhile (· != 32) with
      | nil => simp [blank.mp behind]
      | cons c rest =>
          have member : 32 ∈ found := by
            refine Classical.byContradiction ?_
            intro none
            rw [blank.mpr none] at behind
            cases behind
          simp [member]

theorem length_hex (n : BitVec 32) : (hex n).length ≤ 8 := by
  rw [hex, List.length_map, Nat.length_toDigits_le_iff (by decide) (by decide)]
  exact n.isLt

theorem spukStr_eq (tee : TeeAnswer) : spukStr tee = spukText tee := by
  apply List.take_of_length_le
  have digits := length_hex (spuk tee)
  have front : (bytes " simlock.puk=0x").length = 15 := by decide
  rw [spukText, List.length_append, front]
  omega

theorem digits_clean (n : Nat) : ∀ c ∈ Nat.toDigits 16 n, c.toNat.toUInt8 ≠ 0 := by
  have digit : ∀ d < 16, (Nat.digitChar d).toNat.toUInt8 ≠ 0 := by decide
  induction n using Nat.strongRecOn with
  | ind n ih =>
      intro c member
      rw [Nat.toDigits_eq_if (by decide)] at member
      split at member
      · rename_i small
        obtain rfl := List.mem_singleton.mp member
        exact digit n small
      · rename_i large
        rcases List.mem_append.mp member with front | last
        · exact ih (n / 16) (by omega) c front
        · obtain rfl := List.mem_singleton.mp last
          exact digit _ (Nat.mod_lt n (by decide))

theorem spukText_clean (tee : TeeAnswer) : 0 ∉ spukText tee := by
  intro member
  rcases List.mem_append.mp member with front | number
  · exact absurd front (by decide)
  · obtain ⟨c, digit, zero⟩ := List.mem_map.mp number
    exact digits_clean _ c digit zero

theorem text_cmdlineBuf {data : Bytes} (fits : data.length < CPCMDLINE_SIZE) :
    text (cmdlineBuf data) 0 = cstr data := by
  obtain ⟨zeros, some⟩ := Nat.exists_eq_add_of_lt fits
  have room : CPCMDLINE_SIZE - data.length = zeros + 1 := by omega
  rw [text, List.drop_zero, cmdlineBuf, room, List.replicate_succ]
  by_cases ended : 0 ∈ data
  · exact cstr_append_of_mem ended _
  · rw [cstr_append ended]
    exact (takeWhile_all ended).symm

section

variable {buf line : Bytes}

theorem text_from (here : text buf 0 = line) {i : Nat} (inside : i ≤ line.length) :
    text buf i = line.drop i := by
  subst here
  exact cstr_drop buf i inside

theorem line_clean (here : text buf 0 = line) : 0 ∉ line :=
  here ▸ text_clean buf 0

theorem strncat_fits (here : text buf 0 = line) {i : Nat} (inside : i ≤ line.length) {src : Bytes}
    (clean : 0 ∉ src) (room : line.length + src.length < buf.length) :
    ∃ buf', strncat buf i src = some buf' ∧ text buf' i = line.drop i ++ src := by
  have e : i + (text buf i).length = line.length := by
    rw [text_from here inside, List.length_drop]
    omega
  have front : buf.take line.length = line := by
    subst here
    exact (List.prefix_iff_eq_take.mp (List.takeWhile_prefix _)).symm
  refine ⟨line ++ src ++ 0 :: buf.drop (line.length + src.length + 1), ?_, ?_⟩
  · simp only [strncat, e, front, room, if_true]
  · have whole : 0 ∉ line ++ src := by simp [line_clean here, clean]
    have start : text (line ++ src ++ 0 :: buf.drop (line.length + src.length + 1)) 0 = line ++ src :=
      cstr_append whole _
    rw [text_from start (by simp; omega), List.drop_append_of_le_length inside]

theorem strncat_full (here : text buf 0 = line) {i : Nat} (inside : i ≤ line.length) {src : Bytes}
    (full : buf.length ≤ line.length + src.length) : strncat buf i src = none := by
  have e : i + (text buf i).length = line.length := by
    rw [text_from here inside, List.length_drop]
    omega
  simp only [strncat, e]
  exact if_neg (Nat.not_lt_of_le full)

theorem strchrAt_of_mem (here : text buf 0 = line) {i : Nat} (inside : i ≤ line.length)
    (blank : 32 ∈ line.drop i) :
    ∃ j, strchrAt buf i 32 = some j ∧ j < line.length ∧
      line.drop j = (line.drop i).dropWhile (· != 32) := by
  have found := List.findIdx?_eq_some_of_exists (p := (· == 32)) ⟨32, blank, rfl⟩
  have short := List.findIdx_lt_length_of_exists (p := (· == 32)) ⟨32, blank, rfl⟩
  refine ⟨i + (line.drop i).findIdx (· == 32), ?_, ?_, ?_⟩
  · rw [strchrAt, text_from here inside, found]
    rfl
  · rw [List.length_drop] at short
    omega
  · rw [List.dropWhile_eq_drop_findIdx_not, List.drop_drop]
    simp [bne]

theorem strchrAt_of_not_mem (here : text buf 0 = line) {i : Nat} (inside : i ≤ line.length)
    (none : 32 ∉ line.drop i) : strchrAt buf i 32 = Option.none := by
  rw [strchrAt, text_from here inside, List.findIdx?_eq_none_iff.mpr]
  · rfl
  · intro c member
    simpa using ne_of_mem_of_not_mem member none

theorem searched_delimited (here : text buf 0 = line) (delimited : Delimited line) :
    ∃ i, searched buf = some i ∧ i ≤ line.length ∧ line.drop i = afterModem line := by
  unfold searched strstrAt afterModem
  rw [here, findStr_eq]
  cases found : indexOf MODEM line with
  | none => exact ⟨0, rfl, Nat.zero_le _, rfl⟩
  | some i =>
      have inside := indexOf_le found
      have blank : 32 ∈ line.drop i := delimited _ (by rw [findStr_eq, found]; rfl)
      obtain ⟨j, search, below, rest⟩ := strchrAt_of_mem here (by omega) blank
      refine ⟨j + 1, ?_, below, ?_⟩
      · simp [search]
      · rw [← List.drop_drop, rest]
        rfl

theorem searched_undelimited (here : text buf 0 = line) (open_ : ¬ Delimited line) :
    searched buf = none := by
  simp only [Delimited, Classical.not_forall] at open_
  obtain ⟨str, found, none⟩ := open_
  rw [findStr_eq] at found
  obtain ⟨i, search, rfl⟩ := Option.map_eq_some_iff.mp found
  have inside := indexOf_le search
  unfold searched strstrAt
  simp [here, search, strchrAt_of_not_mem here (by omega) none]

theorem addSimlock_fits (here : text buf 0 = line) (sized : buf.length = CPCMDLINE_SIZE) {i : Nat}
    (inside : i ≤ line.length) {simlock : Option TeeAnswer} (fits : Fits simlock line) :
    ∃ buf', addSimlock simlock buf (some i) = some buf' ∧
      text buf' i = line.drop i ++ simlockText simlock line := by
  unfold addSimlock
  unfold Fits simlockText at *
  cases simlock with
  | none => exact ⟨buf, rfl, by simp [text_from here inside]⟩
  | some tee =>
      dsimp only at fits ⊢
      rw [here]
      split at fits
      · rename_i plain
        simp only [plain, if_true, Option.bind_some, addSpukCmdline, spukStr_eq]
        exact strncat_fits here inside (spukText_clean tee) (by omega)
      · rename_i calibration
        rw [if_neg calibration, if_neg calibration]
        exact ⟨buf, rfl, by simp [text_from here inside]⟩

theorem addSimlock_full (here : text buf 0 = line) (sized : buf.length = CPCMDLINE_SIZE) {i : Nat}
    (inside : i ≤ line.length) (short : line.length < CPCMDLINE_SIZE) {simlock : Option TeeAnswer}
    (full : ¬ Fits simlock line) : addSimlock simlock buf (some i) = none := by
  unfold Fits simlockText at full
  cases simlock with
  | none => exact absurd short full
  | some tee =>
      dsimp only at full
      split at full
      · rename_i plain
        simp only [addSimlock, here, plain, if_true, Option.bind_some, addSpukCmdline, spukStr_eq]
        exact strncat_full here inside (by omega)
      · exact absurd short full

end

theorem length_cmdlineBuf {data : Bytes} (fits : data.length < CPCMDLINE_SIZE) :
    (cmdlineBuf data).length = CPCMDLINE_SIZE := by
  rw [cmdlineBuf, List.length_append, List.length_replicate]
  omega

theorem Files.data_short (files : Files) : files.data.length < CPCMDLINE_SIZE := by
  rw [Files.data, List.length_take]
  have positive : 0 < CPCMDLINE_SIZE := by decide
  omega

/-- Nothing is found in a buffer that nothing was read to. -/
theorem searched_data (data : Bytes) :
    (if data = [] then some 0 else searched (cmdlineBuf data)) = searched (cmdlineBuf data) := by
  split
  · rename_i empty
    subst empty
    have here : text (cmdlineBuf []) 0 = [] := text_cmdlineBuf (by decide)
    rw [searched, strstrAt, here]
    rfl
  · rfl

section

variable {simlock : Option TeeAnswer} {content : Option Bytes}

theorem modemLoadCpCmdline_fits (files : Files) (opens : files.fdin = true)
    (delimited : Delimited (cstr files.data)) (fits : Fits simlock (cstr files.data)) :
    modemLoadCpCmdline simlock files =
      some (if files.fdout then
        some (frame (afterModem (cstr files.data) ++ simlockText simlock (cstr files.data)))
      else none) := by
  have here := text_cmdlineBuf files.data_short
  have sized := length_cmdlineBuf files.data_short
  obtain ⟨i, search, inside, behind⟩ := searched_delimited here delimited
  obtain ⟨buf', appended, handed⟩ := addSimlock_fits here sized inside fits
  rw [behind] at handed
  simp only [modemLoadCpCmdline, opens, if_true, searched_data]
  rw [search, appended]
  simp only [Option.bind_eq_bind, Option.bind_some, handed]
  split <;> rfl

/-- A text that is too long does not get as far as the second open. -/
theorem modemLoadCpCmdline_full {files : Files} (opens : files.fdin = true)
    (delimited : Delimited (cstr files.data)) (full : ¬ Fits simlock (cstr files.data)) :
    modemLoadCpCmdline simlock files = none := by
  have here := text_cmdlineBuf files.data_short
  have sized := length_cmdlineBuf files.data_short
  have short : (cstr files.data).length < CPCMDLINE_SIZE :=
    Nat.lt_of_le_of_lt (List.takeWhile_prefix _).length_le files.data_short
  obtain ⟨i, search, inside, _⟩ := searched_delimited here delimited
  simp only [modemLoadCpCmdline, opens, if_true, searched_data]
  rw [search, addSimlock_full here sized inside short full]
  rfl

/-- A pointer that is wrong is used at the latest with `fout` open. -/
theorem modemLoadCpCmdline_undelimited {files : Files} (opens : files.fdin = true)
    (bad : ¬ Delimited (cstr files.data)) :
    modemLoadCpCmdline simlock files =
      if simlock.isSome && !strstr (cstr files.data) CALIBRATION || files.fdout then none
      else some none := by
  have here := text_cmdlineBuf files.data_short
  simp only [modemLoadCpCmdline, opens, if_true, searched_data]
  rw [searched_undelimited here bad]
  simp only [addSimlock, here]
  cases simlock with
  | none => rfl
  | some tee => cases strstr (cstr files.data) CALIBRATION <;> rfl

/-- With both files open, a pointer that is wrong or a text that is too long shows. -/
theorem modemLoadCpCmdline_faults {files : Files} (fdin : files.fdin = true)
    (fdout : files.fdout = true)
    (bad : ¬ (Delimited (cstr files.data) ∧ Fits simlock (cstr files.data))) :
    modemLoadCpCmdline simlock files = none := by
  by_cases delimited : Delimited (cstr files.data)
  · exact modemLoadCpCmdline_full fdin delimited fun fits => bad ⟨delimited, fits⟩
  · rw [modemLoadCpCmdline_undelimited fdin delimited, fdout, Bool.or_true]
    rfl

/-- The command line is handed over as it should be exactly when a blank follows the first
    `modem=`, if there is one, and what is to be appended fits the buffer. -/
theorem cmdline_handed_over_iff (simlock : Option TeeAnswer) (content : Option Bytes) :
    let line := cstr ((content.getD []).take (CPCMDLINE_SIZE - 1))
    HandsOver simlock content ↔ Delimited line ∧ Fits simlock line := by
  intro line
  constructor
  · intro handsOver
    obtain ⟨written, returned, -⟩ := handsOver true true
    refine Classical.byContradiction ?_
    intro bad
    have faults : modemLoadCpCmdline simlock ⟨true, true, content⟩ = none :=
      modemLoadCpCmdline_faults rfl rfl bad
    rw [faults] at returned
    cases returned
  · rintro ⟨delimited, fits⟩ fdin fdout
    cases fdin with
    | false => exact ⟨none, rfl, fun opens => absurd opens Bool.false_ne_true⟩
    | true =>
        refine ⟨_, modemLoadCpCmdline_fits ⟨true, fdout, content⟩ rfl delimited fits, ?_⟩
        rintro - rfl
        rfl

end

/-- The answers that the calls of the function get: those of the files and of the TEE, and of a
    `strncat` that does not come back when its text has no room. -/
def Files.answer (files : Files) (simlock : Option TeeAnswer) : (op : FileOp) → Option op.Res
  | .open_ .fdin _ => some files.fdin
  | .open_ _ _ => some files.fdout
  | .read _ count => some (files.content.map (·.take count.toNat))
  | .addSpukCmdline str => simlock.bind fun tee =>
      if (cstr files.data).length + (spukStr tee).length < CPCMDLINE_SIZE then
        some (str ++ spukStr tee)
      else none
  | .write _ data => some data.length
  | .lseek _ offset _ => some offset
  | .malloc _ => some true
  | .close _ | .free | .enableBusmonitor _ | .enableDmcMpu _ => some ()
  | .fault | .more => none

/-- What a run of the calls writes to `fout`, if it comes back. -/
def handed (run : List (Event FileOp FileOp.Res) × Option Int) : Option (Option Bytes) :=
  run.2.map fun _ => run.1.findSome? fun e =>
    match e.op with
    | .write .fdout data => some data
    | _ => none

section

variable {simlock : Option TeeAnswer} {files : Files}

/-- The switches of the monitors and the reads write nothing. -/
theorem handed_behind {op : FileOp} {r : op.Res} {next : op.Res → FileProg Int}
    (comes : files.answer simlock op = some r) (reads : ∀ data, op ≠ .write .fdout data) :
    handed ((Prog.call op next).attempt (files.answer simlock)) =
      handed ((next r).attempt (files.answer simlock)) := by
  rw [Prog.attempt_some next comes]
  cases op with
  | write f data =>
      cases f with
      | fdout => exact absurd rfl (reads data)
      | fd => rfl
      | fdin => rfl
  | _ => rfl

theorem handed_writeCmdline (fout : Bytes) (str : Option Bytes) :
    handed ((writeCmdline fout str).attempt (files.answer simlock)) =
      if files.fdout then str.map fun str => some (frame str) else some none := by
  unfold writeCmdline LoadFiles.open_
  rw [Prog.call_bind, handed_behind (r := files.fdout) rfl (by simp)]
  cases files.fdout with
  | false => rfl
  | true => cases str <;> rfl

theorem simlockText_eq (simlock : Option TeeAnswer) (line : Bytes) :
    (simlock.isSome && !strstr line CALIBRATION) = false → simlockText simlock line = [] := by
  intro plain
  unfold simlockText
  cases simlock with
  | none => rfl
  | some tee => exact if_neg (by simpa using plain)

theorem handed_addSimlock_none (fout : Bytes) :
    let line := cstr files.data
    handed ((LoadFiles.addSimlock simlock.isSome line none >>= writeCmdline fout).attempt
        (files.answer simlock)) =
      if simlock.isSome && !strstr line CALIBRATION || files.fdout then none else some none := by
  intro line
  have word : bytes "calibration=" = CALIBRATION := rfl
  unfold LoadFiles.addSimlock
  rw [word]
  cases simlock.isSome && !strstr line CALIBRATION with
  | false => exact handed_writeCmdline fout none
  | true => rfl

theorem handed_addSimlock (fout str : Bytes) :
    let line := cstr files.data
    handed ((LoadFiles.addSimlock simlock.isSome line (some str) >>= writeCmdline fout).attempt
        (files.answer simlock)) =
      if Fits simlock line then
        some (if files.fdout then some (frame (str ++ simlockText simlock line)) else none)
      else none := by
  intro line
  have word : bytes "calibration=" = CALIBRATION := rfl
  unfold LoadFiles.addSimlock
  rw [word]
  cases adds : simlock.isSome && !strstr line CALIBRATION with
  | false =>
      have short : line.length < CPCMDLINE_SIZE :=
        Nat.lt_of_le_of_lt (List.takeWhile_prefix _).length_le files.data_short
      have fits : Fits simlock line := by simpa [Fits, simlockText_eq simlock line adds] using short
      rw [if_pos fits, simlockText_eq simlock line adds, List.append_nil]
      refine (handed_writeCmdline fout (some str)).trans ?_
      cases files.fdout <;> rfl
  | true =>
      obtain ⟨build, plain⟩ := Bool.and_eq_true_iff.mp adds
      obtain ⟨tee, rfl⟩ := Option.isSome_iff_exists.mp build
      have text : simlockText (some tee) line = spukText tee := if_pos (by simpa using plain)
      have calls : files.answer (some tee) (.addSpukCmdline str) =
          if Fits (some tee) line then some (str ++ spukText tee) else none := by
        simp only [Files.answer, Option.bind_some, spukStr_eq, Fits, text]
        rfl
      unfold LoadFiles.addSpukCmdline
      by_cases fits : Fits (some tee) line
      · rw [if_pos fits] at calls
        rw [if_pos fits, text, if_pos rfl]
        dsimp only
        rw [Prog.call_bind, Prog.call_bind, handed_behind calls (by simp)]
        refine (handed_writeCmdline fout (some (str ++ spukText tee))).trans ?_
        cases files.fdout <;> rfl
      · rw [if_neg fits] at calls
        rw [if_neg fits, if_pos rfl]
        dsimp only
        rw [Prog.call_bind, Prog.call_bind, Prog.attempt_none _ calls]
        rfl

/-- The calls hand over what the buffer is left with, and do not come back where a pointer is
    wrong or a text too long. -/
theorem modemLoadCpCmdline_calls (simlock : Option TeeAnswer) (files : Files) (fin fout : Bytes) :
    handed ((LoadFiles.modemLoadCpCmdline simlock.isSome fin fout).attempt (files.answer simlock)) =
      modemLoadCpCmdline simlock files := by
  have got : (files.content.map (·.take (CPCMDLINE_SIZE - 1))).getD [] = files.data := by
    unfold Files.data
    cases files.content <;> rfl
  unfold LoadFiles.modemLoadCpCmdline enableBusmonitor enableDmcMpu LoadFiles.open_ LoadFiles.read
  rw [Prog.call_bind, handed_behind (r := ()) rfl (by simp), Prog.ret_bind]
  rw [Prog.call_bind, handed_behind (r := ()) rfl (by simp), Prog.ret_bind]
  rw [Prog.call_bind, handed_behind (r := files.fdin) rfl (by simp), Prog.ret_bind]
  cases opens : files.fdin with
  | false =>
      simp only [modemLoadCpCmdline, opens]
      rfl
  | true =>
      rw [if_pos rfl, Prog.call_bind,
        handed_behind (r := files.content.map (·.take (CPCMDLINE_SIZE - 1))) rfl (by simp)]
      rw [Prog.ret_bind]
      dsimp only
      rw [got]
      by_cases delimited : Delimited (cstr files.data)
      · rw [afterModem_eq_some_iff.mpr ⟨delimited, rfl⟩, handed_addSimlock]
        by_cases fits : Fits simlock (cstr files.data)
        · rw [if_pos fits, modemLoadCpCmdline_fits files opens delimited fits]
        · rw [if_neg fits, modemLoadCpCmdline_full opens delimited fits]
      · have wrong : LoadFiles.afterModem (cstr files.data) = none := by
          refine Option.eq_none_iff_forall_ne_some.mpr ?_
          intro str found
          exact delimited (afterModem_eq_some_iff.mp found).1
        rw [wrong, handed_addSimlock_none, modemLoadCpCmdline_undelimited opens delimited]

/-- So the calls write the text whole when both files open, and only then. -/
theorem calls_hand_over {simlock : Option TeeAnswer} {files : Files} (fin fout : Bytes)
    (opens : files.fdin = true) (delimited : Delimited (cstr files.data))
    (fits : Fits simlock (cstr files.data)) :
    handed ((LoadFiles.modemLoadCpCmdline simlock.isSome fin fout).attempt (files.answer simlock)) =
      some (if files.fdout then
        some (frame (afterModem (cstr files.data) ++ simlockText simlock (cstr files.data)))
      else none) := by
  rw [modemLoadCpCmdline_calls, modemLoadCpCmdline_fits files opens delimited fits]

end

/-- As the boot loader leaves it, with no parameter behind "modem=". -/
def lastModem : Bytes := bytes "quiet modem=shutdown\n"

theorem lastModem_not_handed_over : ¬ ∀ simlock content, HandsOver simlock content := by
  intro always
  obtain ⟨written, returned, -⟩ := always none (some lastModem) true true
  have faults : modemLoadCpCmdline none ⟨true, true, some lastModem⟩ = none := by
    apply modemLoadCpCmdline_faults rfl rfl
    rintro ⟨delimited, -⟩
    exact absurd (delimited (bytes "modem=shutdown\n") (by decide)) (by decide)
  rw [faults] at returned
  cases returned

end ModemControl.CpCmdline
