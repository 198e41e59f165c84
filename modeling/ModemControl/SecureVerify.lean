import ModemControl.Foundation.Separation
import ModemControl.Load
import ModemControl.NvRead

/-! # modem_verify.c, and secure_boot_load_img with SECURE_BOOT_ENABLE

`secure_boot_load_img` verifies an image and then loads it. The verification gives up
early where the image cannot be read and where its header is not a secure one, and it
hands over the addresses that the header names as they are. Nothing of this reaches the
load.
-/

namespace ModemControl.SecureVerify

open Foundation Load

def HEADER_NAME : Bytes := bytes "SPRD-SECUREFLAG"
def VLR_NAME : BitVec 32 := 0x3A524C56
def CODE_NAME : BitVec 32 := 0x45444F43
def MIN_UNIT : BitVec 32 := 512

/-- Memory from the start of a buffer on. -/
abbrev Memory : Type := Nat → UInt8

/-- `strcmp` of the string at an address with a literal, as a test for equality. -/
def strcmp (memory : Memory) : Nat → Bytes → Bool
  | i, [] => memory i == 0
  | i, c :: rest => memory i == c && strcmp memory (i + 1) rest

def uint32At (memory : Memory) (i : Nat) : BitVec 32 :=
  (memory (i + 3)).toBitVec ++ (memory (i + 2)).toBitVec ++ (memory (i + 1)).toBitVec ++
    (memory i).toBitVec

def secureHeaderParser (header : Memory) : Bool := strcmp header 0 HEADER_NAME

def tagsNumber (header : Memory) : BitVec 32 := uint32At header 20
def tagName (header : Memory) (i : Nat) : BitVec 32 := uint32At header (32 + 16 * i)
def tagOffset (header : Memory) (i : Nat) : BitVec 32 := uint32At header (32 + 16 * i + 4)

/-- The loop over the tags, from tag `i` on with so many to go: where the first of this
    name points to, as an offset from the header. The loop does not know that the header
    has room for three. -/
def findTag (header : Memory) (name : BitVec 32) : Nat → Nat → Option Nat
  | 0, _ => none
  | left + 1, i =>
      if tagName header i = name then some (tagOffset header i * MIN_UNIT).toNat
      else findTag header name left (i + 1)

def getCodeAddr (header : Memory) : Option Nat :=
  findTag header CODE_NAME (tagsNumber header).toNat 0

def getVlrAddr (header : Memory) : Option Nat :=
  findTag header VLR_NAME (tagsNumber header).toNat 0

/-- The calls. Addresses are offsets from the buffer that the image is read into. `fault`
    stands for the use of a NULL pointer. -/
inductive SecureOp where
  | getPatitonInfo (img : ImageLoad)
  | open_ (fin : Bytes)
  | lseek (offset : Int)
  | malloc (size : Nat)
  | read (count : Nat)
  | secureCheck (codeAddr : Option Nat) (length : BitVec 32) (vlrAddr : Nat) (puk : Bytes)
  | close
  | free
  | fault
  | modemLoadImage (img : ImageLoad) (offsetin offsetout size : BitVec 32)
  deriving Repr, DecidableEq

/-- `secure_boot_get_patiton_info` answers an offset and a size, `malloc` the memory
    behind the new block and nothing for NULL, `read` the bytes it got and nothing for -1. -/
abbrev SecureOp.Res : SecureOp → Type
  | .getPatitonInfo _ => BitVec 32 × BitVec 64
  | .open_ _ => Bool
  | .lseek _ => Int
  | .malloc _ => Option Memory
  | .read _ => Option Bytes
  | .fault => Empty
  | .modemLoadImage _ _ _ _ => Int
  | _ => Unit

abbrev SecureProg (α : Type) : Type := Prog SecureOp SecureOp.Res α

def getPatitonInfo (img : ImageLoad) : SecureProg (BitVec 32 × BitVec 64) :=
  .call (.getPatitonInfo img) .ret
def open_ (fin : Bytes) : SecureProg Bool := .call (.open_ fin) .ret
def lseek (offset : Int) : SecureProg Int := .call (.lseek offset) .ret
def malloc (size : Nat) : SecureProg (Option Memory) := .call (.malloc size) .ret
def read (count : Nat) : SecureProg (Option Bytes) := .call (.read count) .ret
def secureCheck (codeAddr : Option Nat) (length : BitVec 32) (vlrAddr : Nat) (puk : Bytes) :
    SecureProg Unit :=
  .call (.secureCheck codeAddr length vlrAddr puk) .ret
def close : SecureProg Unit := .call .close .ret
def free : SecureProg Unit := .call .free .ret
def fault {α : Type} : SecureProg α := .call .fault Empty.elim
def modemLoadImage (img : ImageLoad) (offsetin offsetout size : BitVec 32) : SecureProg Int :=
  .call (.modemLoadImage img offsetin offsetout size) .ret

/-- What comes from elsewhere: the size of the external `vlr_info_t` and its field `length`
    at an address, and the key `s_modem_puk`. -/
structure Keys where
  vlrSize : Nat
  vlrLength : Memory → Nat → BitVec 32
  modemPuk : Bytes

/-- An int as a size_t. -/
def sizeT (n : Int) : Nat := (n % 0x10000000000000000).toNat

def int (n : Int) : Int := (BitVec.ofInt 32 n).toInt

/-- The buffer of so many bytes, cleared and then read into, and the memory behind it. -/
def buffer (size : Nat) (behind : Memory) (data : Bytes) : Memory := fun i =>
  if i < data.length then data.getD i 0 else if i < size then 0 else behind (i - size)

def secureVerify (k : Keys) (data : Memory) : SecureProg Unit :=
  if secureHeaderParser data then
    match getVlrAddr data with
    | none => fault
    | some vlrAddr =>
        secureCheck (getCodeAddr data) (k.vlrLength data vlrAddr) vlrAddr k.modemPuk
  else return ()

/-- From the `lseek` on, up to the label `leave`. -/
def readAndVerify (k : Keys) (offsetin size : Int) : SecureProg Int := do
  let moved ← lseek offsetin
  if moved ≠ offsetin then return -1
  else
    match ← malloc (sizeT size) with
    | none => return -1
    | some behind =>
        let got ← read (sizeT size)
        let readsize := int (Nv.readLength got)
        if readsize ≤ 0 then return -1
        else
          secureVerify k (buffer (sizeT size) behind (got.getD []))
          return 0

def modemVerifyImage (k : Keys) (fin : Bytes) (offsetin size : Int) : SecureProg Int := do
  if ← open_ fin then
    let ret ← readAndVerify k offsetin size
    close
    free
    return ret
  else return -1

def secureBootLoadImg (k : Keys) (img : ImageLoad) : SecureProg Int := do
  let (loadOffset, loadSize) ← getPatitonInfo img
  let _ ← modemVerifyImage k img.pathR 0 (int loadSize.toNat)
  modemLoadImage img loadOffset 0 (loadSize.setWidth 32)

/-- How the calls for one image come out. A bad signature keeps `secure_check` from
    coming back. -/
structure Outcomes where
  loadOffset : BitVec 32
  loadSize : BitVec 64
  opens : Bool
  position : Int
  behind : Option Memory
  content : Option Bytes
  genuine : Bool
  loads : Int

def Outcomes.answer (o : Outcomes) : (op : SecureOp) → Option op.Res
  | .getPatitonInfo _ => some (o.loadOffset, o.loadSize)
  | .open_ _ => some o.opens
  | .lseek _ => some o.position
  | .malloc _ => some o.behind
  | .read _ => some o.content
  | .secureCheck _ _ _ _ => if o.genuine then some () else none
  | .close => some ()
  | .free => some ()
  | .fault => none
  | .modemLoadImage _ _ _ _ => some o.loads

/-- The calls made for an image. -/
def calls (k : Keys) (img : ImageLoad) (o : Outcomes) : List SecureOp :=
  ((secureBootLoadImg k img).attempt o.answer).1.map Event.op

/-- Some code, and a `vlr_info_t`, lie in this part of the image. -/
def Covers (k : Keys) (image : Bytes) (codeAddr : Nat) (length : BitVec 32) (vlrAddr : Nat) : Prop :=
  0 < length.toNat ∧ codeAddr + length.toNat ≤ image.length ∧ vlrAddr + k.vlrSize ≤ image.length

/-- A check of code that lies in what was read of the image. -/
def Checks (k : Keys) (o : Outcomes) : SecureOp → Prop
  | .secureCheck codeAddr length vlrAddr _ => ∃ code image,
      codeAddr = some code ∧ o.content = some image ∧ Covers k image code length vlrAddr
  | _ => False

def Loads : SecureOp → Prop
  | .modemLoadImage _ _ _ _ => True
  | _ => False

/-- The image is loaded only after a check of its contents. -/
def CheckedBeforeLoad (k : Keys) (o : Outcomes) (ops : List SecureOp) : Prop :=
  ∀ before op after, ops = before ++ op :: after → Loads op → ∃ c ∈ before, Checks k o c

/-- The header is a secure one. Where it names a `vlr_info_t`, and the signature is good, it
    names the code too, and both lie in what was read. -/
structure Sound (k : Keys) (genuine : Bool) (image : Bytes) (data : Memory) : Prop where
  magic : secureHeaderParser data = true
  covers : ∀ vlrAddr, getVlrAddr data = some vlrAddr → genuine = true →
    ∃ code, getCodeAddr data = some code ∧ Covers k image code (k.vlrLength data vlrAddr) vlrAddr

/-- The image could be read, and its header is sound. -/
structure Verified (k : Keys) (o : Outcomes) : Prop where
  opens : o.opens = true
  positioned : o.position = 0
  read : ∃ behind image, o.behind = some behind ∧ o.content = some image ∧
    0 < int image.length ∧
    Sound k o.genuine image (buffer (sizeT (int o.loadSize.toNat)) behind image)

theorem checkedBeforeLoad_iff {k : Keys} {o : Outcomes} {ops : List SecureOp} :
    CheckedBeforeLoad k o ops ↔ ¬ Early (Checks k o) Loads ops := by
  rw [early_iff_split]
  constructor
  · rintro checked ⟨before, op, after, split, loads, none⟩
    obtain ⟨c, member, checks⟩ := checked before op after split loads
    exact none c member checks
  · intro late before op after split loads
    by_contra none
    refine late ⟨before, op, after, split, loads, ?_⟩
    intro c member checks
    exact none ⟨c, member, checks⟩

section

variable {α β : Type} {k : Keys} {o : Outcomes}

/-- The program comes back, and has made no check. -/
def Bypasses (k : Keys) (o : Outcomes) : SecureProg α → Prop
  | .ret _ => True
  | .call op next =>
      match o.answer op with
      | none => False
      | some r => ¬ Checks k o op ∧ Bypasses k o (next r)

theorem bypasses_call {op : SecureOp} {r : op.Res} {next : op.Res → SecureProg α}
    (comes : o.answer op = some r) (other : ¬ Checks k o op) :
    Bypasses k o (.call op next) ↔ Bypasses k o (next r) := by
  simp only [Bypasses, comes, other, not_false_eq_true, true_and]

theorem bypasses_bind {p : SecureProg α} {f : α → SecureProg β} (rest : ∀ a, Bypasses k o (f a)) :
    Bypasses k o (p >>= f) ↔ Bypasses k o p := by
  induction p with
  | ret a => exact iff_of_true (rest a) trivial
  | call op next ih =>
      rw [Prog.call_bind, Bypasses, Bypasses]
      cases o.answer op with
      | none => rfl
      | some r => exact and_congr_right fun _ => ih r

/-- A load at the end is unchecked exactly when the program before it came back so. -/
theorem early_load_iff {p : SecureProg α} {img : ImageLoad} {offsetin offsetout size : BitVec 32}
    (quiet : p.Calls fun op => ¬ Loads op) :
    Early (Checks k o) Loads (((p >>= fun _ => modemLoadImage img offsetin offsetout size).attempt
      o.answer).1.map Event.op) ↔ Bypasses k o p := by
  induction p with
  | ret a => exact iff_of_true (Or.inl trivial) trivial
  | call op next ih =>
      rw [Prog.call_bind, Bypasses]
      cases comes : o.answer op with
      | none =>
          rw [Prog.attempt_none _ comes]
          simpa [Early] using quiet.1
      | some r =>
          rw [Prog.attempt_some _ comes, List.map_cons, Early, ih r (quiet.2 r)]
          simp only [quiet.1, false_or]

end

section

variable (k : Keys) (o : Outcomes)

/-- A NULL pointer and a bad signature end the run; every other way past the check is one
    around a sound header. -/
theorem secureVerify_bypasses {image : Bytes} (read : o.content = some image) (data : Memory) :
    Bypasses k o (secureVerify k data) ↔ ¬ Sound k o.genuine image data := by
  have sound : Sound k o.genuine image data ↔ secureHeaderParser data = true ∧
      ∀ vlrAddr, getVlrAddr data = some vlrAddr → o.genuine = true →
        ∃ code, getCodeAddr data = some code ∧
          Covers k image code (k.vlrLength data vlrAddr) vlrAddr :=
    ⟨fun s => ⟨s.magic, s.covers⟩, fun h => ⟨h.1, h.2⟩⟩
  rw [sound]
  unfold secureVerify
  cases secureHeaderParser data with
  | false => exact iff_of_true trivial (by simp)
  | true =>
      rw [if_pos rfl]
      cases getVlrAddr data with
      | none => simp [fault, Bypasses, Outcomes.answer]
      | some vlrAddr =>
          cases genuine : o.genuine with
          | false => simp [secureCheck, Bypasses, Outcomes.answer, genuine]
          | true => simp [secureCheck, Bypasses, Outcomes.answer, genuine, Checks, read]

theorem readAndVerify_bypasses (size : Int) :
    Bypasses k o (readAndVerify k 0 size) ↔ ¬ (o.position = 0 ∧
      ∃ behind image, o.behind = some behind ∧ o.content = some image ∧ 0 < int image.length ∧
        Sound k o.genuine image (buffer (sizeT size) behind image)) := by
  unfold readAndVerify lseek malloc read
  simp only [Prog.call_bind, Prog.ret_bind]
  rw [bypasses_call rfl (by exact id)]
  by_cases positioned : o.position = 0
  · rw [if_neg (not_not_intro positioned), bypasses_call rfl (by exact id)]
    simp only [positioned, true_and]
    cases o.behind with
    | none => exact iff_of_true trivial (by simp)
    | some behind =>
        dsimp only
        rw [bypasses_call rfl (by exact id)]
        cases got : o.content with
        | none => exact iff_of_true (by simp [Nv.readLength, int, Bypasses]) (by simp)
        | some image =>
            by_cases empty : int image.length ≤ 0
            · simp only [Nv.readLength, empty, if_true]
              refine iff_of_true trivial ?_
              rintro ⟨_, _, _, same, more, _⟩
              obtain rfl := Option.some.inj same
              omega
            · simp only [Nv.readLength, empty, if_false, Option.getD_some]
              have more : 0 < int image.length := Int.not_le.mp empty
              rw [bypasses_bind, secureVerify_bypasses k o got]
              · simp [more]
              · intro _
                trivial
  · rw [if_pos positioned]
    exact iff_of_true trivial fun both => positioned both.1

theorem modemVerifyImage_bypasses (fin : Bytes) :
    Bypasses k o (modemVerifyImage k fin 0 (int o.loadSize.toNat)) ↔ ¬ Verified k o := by
  have verified : Verified k o ↔ o.opens = true ∧ o.position = 0 ∧
      ∃ behind image, o.behind = some behind ∧ o.content = some image ∧ 0 < int image.length ∧
        Sound k o.genuine image (buffer (sizeT (int o.loadSize.toNat)) behind image) :=
    ⟨fun v => ⟨v.opens, v.positioned, v.read⟩, fun h => ⟨h.1, h.2.1, h.2.2⟩⟩
  unfold modemVerifyImage open_
  simp only [Prog.call_bind, Prog.ret_bind]
  rw [verified, bypasses_call rfl (by exact id)]
  cases o.opens with
  | false => exact iff_of_true trivial (by simp)
  | true =>
      rw [if_pos rfl, bypasses_bind, readAndVerify_bypasses]
      · simp only [true_and]
      · intro ret
        exact ⟨id, id, trivial⟩

end

theorem quiet_fault {α : Type} : (fault : SecureProg α).Calls fun op => ¬ Loads op :=
  ⟨id, Empty.rec⟩

theorem secureVerify_quiet (k : Keys) (data : Memory) :
    (secureVerify k data).Calls fun op => ¬ Loads op := by
  unfold secureVerify
  split
  · split
    · exact quiet_fault
    · exact ⟨id, fun _ => trivial⟩
  · trivial

theorem modemVerifyImage_quiet (k : Keys) (fin : Bytes) (offsetin size : Int) :
    (modemVerifyImage k fin offsetin size).Calls fun op => ¬ Loads op := by
  refine ⟨id, fun opened => ?_⟩
  dsimp only [Prog.bind]
  cases opened with
  | false => trivial
  | true =>
      apply Prog.Calls.bind
      · refine ⟨id, fun moved => ?_⟩
        dsimp only [Prog.bind]
        split
        · trivial
        · refine ⟨id, fun behind => ?_⟩
          cases behind with
          | none => trivial
          | some behind =>
              refine ⟨id, fun got => ?_⟩
              dsimp only [Prog.bind]
              split
              · trivial
              · exact (secureVerify_quiet k _).bind fun _ => trivial
      · intro ret
        exact ⟨id, fun _ => ⟨id, fun _ => trivial⟩⟩

theorem calls_eq (k : Keys) (img : ImageLoad) (o : Outcomes) :
    calls k img o = .getPatitonInfo img ::
      ((modemVerifyImage k img.pathR 0 (int o.loadSize.toNat) >>= fun _ =>
        modemLoadImage img o.loadOffset 0 (o.loadSize.setWidth 32)).attempt o.answer).1.map
          Event.op :=
  rfl

/-- An image is loaded only after a check of its contents exactly when it could be read and
    has a sound header: in every other case it is loaded without one. -/
theorem checkedBeforeLoad_iff_verified (k : Keys) (img : ImageLoad) (o : Outcomes) :
    CheckedBeforeLoad k o (calls k img o) ↔ Verified k o := by
  have bypassed : Early (Checks k o) Loads (calls k img o) ↔ ¬ Verified k o := by
    rw [← modemVerifyImage_bypasses k o img.pathR]
    rw [calls_eq, Early, early_load_iff (modemVerifyImage_quiet k img.pathR 0 _)]
    simp only [Loads, Checks, false_or, not_false_eq_true, true_and]
  rw [checkedBeforeLoad_iff, bypassed, not_not]

/-- An image with a header of zeros is read, found not to be secure, and loaded. -/
theorem not_checkedBeforeLoad_plain :
    ¬ ∀ (k : Keys) (img : ImageLoad) (o : Outcomes), CheckedBeforeLoad k o (calls k img o) := by
  intro always
  let img : ImageLoad := ⟨bytes "/dev/modem", bytes "/img", bytes "modem", 0, 4, 0⟩
  let o : Outcomes := ⟨0, 4, true, 0, some fun _ => 0, some [0, 0, 0, 0], false, 0⟩
  have checked := always ⟨512, fun _ _ => 0, []⟩ img o
    [.getPatitonInfo img, .open_ (bytes "/img"), .lseek 0, .malloc 4, .read 4, .close, .free]
    (.modemLoadImage img 0 0 4) [] rfl trivial
  simp [Checks] at checked

end ModemControl.SecureVerify
