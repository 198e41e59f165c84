import ModemControl.Foundation.Search
import ModemControl.HexToBin

/-! # The public key in the command line: secure_boot_load.c

`modem_parse_puk_cmdline` looks for `pubk=`, copies as many characters as a key has digits,
and does not ask what `HexToBin` made of them.
-/

namespace ModemControl.PukCmdline

open Foundation SecureVerify HexToBin

def CMDLINE_LENGTH : Nat := 2048
def CMD_PUKSTRING : Bytes := bytes "pubk="
def PUBKEY_LEN : Nat := 260

/-- `/proc/cmdline`. -/
inductive ProcCmdline where
  | openFailed
  | readFailed
  | read (content : Bytes)
  deriving Repr, DecidableEq

/-- The flag that is returned, the key buffer, and whether anything behind `cmdline` was
    read. -/
structure Parsed where
  flag : Int
  puk : Memory
  outside : Bool

/-- The array `cmdline` with what was read into it. -/
def cmdlineArray (content : Bytes) : Bytes :=
  content ++ List.replicate (CMDLINE_LENGTH - content.length) 0

/-- `puk_str` behind its memcpy. -/
def pukStr (stack : Bytes) (pStr : Nat) : Memory := fun j =>
  if j < PUBKEY_LEN * 2 then stack.getD (pStr + j) 0 else 0

/-- The stack behind `cmdline` is given up to a NUL. -/
def modemParsePukCmdline (signed : Bool) (proc : ProcCmdline) (behind : Bytes) (puk : Memory) :
    Parsed :=
  match proc with
  | .openFailed => ⟨0, puk, false⟩
  | .readFailed => ⟨0, puk, false⟩
  | .read content =>
      let cmdline := cmdlineArray content
      let stack := cmdline ++ behind
      -- the log and strstr go on up to the NUL
      let unterminated := !cmdline.contains 0
      match indexOf CMD_PUKSTRING (cstr stack) with
      | none => ⟨0, puk, unterminated⟩
      | some i =>
          let pStr := i + CMD_PUKSTRING.length
          let (_, bin) := hexToBin signed (some (pukStr stack pStr)) ↑(PUBKEY_LEN * 2) (some puk)
          ⟨1, bin.getD puk, unterminated || CMDLINE_LENGTH < pStr + PUBKEY_LEN * 2⟩

/-- The characters of the key that begins here, as far as the line goes. -/
def keyText (line : Bytes) (i : Nat) : Bytes :=
  (line.drop (i + CMD_PUKSTRING.length)).take (PUBKEY_LEN * 2)

/-- The first `pubk=` is here, and a whole key is behind it. -/
structure KeyAt (line : Bytes) (i : Nat) : Prop where
  found : indexOf CMD_PUKSTRING line = some i
  whole : (keyText line i).length = PUBKEY_LEN * 2
  digits : ∀ c ∈ keyText line i, isHex c = true

/-- The key is whole or rejected. -/
structure WholeOrRejected (content : Bytes) (puk : Memory) (o : Parsed) : Prop where
  flag : o.flag = 1 ↔ ∃ i, KeyAt (cstr content) i
  key : ∀ i, KeyAt (cstr content) i → ∀ j < PUBKEY_LEN, o.puk j = byteOf (keyText (cstr content) i) j
  rejected : (¬ ∃ i, KeyAt (cstr content) i) → o.flag = 0 ∧ o.outside = false ∧ o.puk = puk

/-- No key is asked for, and the array is not filled up. -/
structure NoKey (content : Bytes) : Prop where
  none : indexOf CMD_PUKSTRING (cstr content) = none
  ends : content.length < CMDLINE_LENGTH ∨ 0 ∈ content

section

variable {content : Bytes}

theorem contains_zero (content : Bytes) :
    (cmdlineArray content).contains 0 = true ↔ content.length < CMDLINE_LENGTH ∨ 0 ∈ content := by
  rw [List.contains_iff_mem, cmdlineArray, List.mem_append, List.mem_replicate, or_comm]
  apply or_congr_left
  simp only [and_true]
  omega

/-- The text of the array is the line. -/
theorem cstr_cmdline (ends : content.length < CMDLINE_LENGTH ∨ 0 ∈ content) (behind : Bytes) :
    cstr (cmdlineArray content ++ behind) = cstr content := by
  rw [cmdlineArray, List.append_assoc]
  by_cases mem : 0 ∈ content
  · exact cstr_append_of_mem mem _
  · have room : content.length < CMDLINE_LENGTH := ends.resolve_right mem
    obtain ⟨n, more⟩ := Nat.exists_eq_add_of_lt room
    have zeros : CMDLINE_LENGTH - content.length = n + 1 := by omega
    rw [zeros, List.replicate_succ, List.cons_append, cstr_append mem]
    exact (takeWhile_all mem).symm

/-- Behind a line that fills the array, the text goes on. -/
theorem prefix_cstr (content behind : Bytes) :
    cstr content <+: cstr (cmdlineArray content ++ behind) := by
  by_cases ends : content.length < CMDLINE_LENGTH ∨ 0 ∈ content
  · rw [cstr_cmdline ends]
  · rw [not_or] at ends
    have plain : cstr content = content := takeWhile_all ends.2
    have all : ∀ x ∈ content, (x != 0) = true := by
      intro x member
      simpa using ne_of_mem_of_not_mem member ends.2
    rw [cmdlineArray, List.append_assoc, cstr, cstr, List.takeWhile_append_of_pos all,
      List.takeWhile_eq_self_iff.mpr all]
    exact List.prefix_append content _

theorem KeyAt.inside {line : Bytes} {i : Nat} (key : KeyAt line i) :
    i + CMD_PUKSTRING.length + PUBKEY_LEN * 2 ≤ line.length := by
  have whole := key.whole
  have positive : 0 < PUBKEY_LEN * 2 := by decide
  rw [keyText, List.length_take, List.length_drop] at whole
  omega

/-- The characters that are copied are those of the line. -/
theorem pukStr_holds {stack line : Bytes} {i : Nat} (starts : line <+: stack) (key : KeyAt line i) :
    Holds (pukStr stack (i + CMD_PUKSTRING.length)) (keyText line i) := by
  intro j before
  have inside := key.inside
  rw [key.whole] at before
  obtain ⟨rest, rfl⟩ := starts
  rw [pukStr, if_pos before]
  simp only [keyText, List.getElem_take, List.getElem_drop]
  rw [List.getD_append _ _ _ _ (by omega), List.getD_eq_getElem line 0 (by omega)]

variable (signed : Bool) (behind : Bytes) (puk : Memory)

theorem parse_found {i : Nat} (found : indexOf CMD_PUKSTRING (cstr (cmdlineArray content ++ behind)) = some i) :
    (modemParsePukCmdline signed (.read content) behind puk).flag = 1 := by
  simp only [modemParsePukCmdline, found]

theorem parse_key {i : Nat} (key : KeyAt (cstr content) i) {j : Nat} (inside : j < PUBKEY_LEN) :
    (modemParsePukCmdline signed (.read content) behind puk).puk j =
      byteOf (keyText (cstr content) i) j := by
  obtain ⟨rest, split⟩ := prefix_cstr content behind
  have found := indexOf_append key.found rest
  rw [split] at found
  have starts : cstr content <+: cmdlineArray content ++ behind :=
    (prefix_cstr content behind).trans (List.takeWhile_prefix _)
  have whole := key.whole
  have holds := pukStr_holds starts key
  have even : (keyText (cstr content) i).length % 2 = 0 := by
    rw [whole]
    decide
  rcases @hexToBin_ends _ _ puk signed even holds with ⟨good, decoded⟩ | ⟨p, fails, _⟩
  · rw [whole] at decoded
    have same : (modemParsePukCmdline signed (.read content) behind puk).puk =
        filled (pukStr (cmdlineArray content ++ behind) (i + CMD_PUKSTRING.length)) 0 PUBKEY_LEN puk := by
      simp only [modemParsePukCmdline, found, decoded, Option.getD_some]
      rfl
    rw [same, filled_before holds inside (by omega)]
  · have digit := key.digits _ (List.getElem_mem fails.inside)
    rw [← List.getD_eq_getElem _ 0 fails.inside, fails.bad] at digit
    cases digit

theorem parse_none (none : NoKey content) :
    modemParsePukCmdline signed (.read content) behind puk = ⟨0, puk, false⟩ := by
  have terminated := (contains_zero content).mpr none.ends
  simp only [modemParsePukCmdline, cstr_cmdline none.ends, none.none, terminated, Bool.not_true]

end

/-- For every line, whatever lies behind the array: the key is whole or rejected exactly
    when it is whole, or when none is asked for in a line that does not fill the array. -/
theorem wholeOrRejected_iff (signed : Bool) (content behind : Bytes) (puk : Memory) :
    WholeOrRejected content puk (modemParsePukCmdline signed (.read content) behind puk) ↔
      (∃ i, KeyAt (cstr content) i) ∨ NoKey content := by
  constructor
  · intro clean
    by_cases whole : ∃ i, KeyAt (cstr content) i
    · exact Or.inl whole
    · obtain ⟨flag, outside, _⟩ := clean.rejected whole
      cases found : indexOf CMD_PUKSTRING (cstr (cmdlineArray content ++ behind)) with
      | some i =>
          rw [parse_found signed behind puk found] at flag
          cases flag
      | none =>
          have terminated : (cmdlineArray content).contains 0 = true := by
            simpa [modemParsePukCmdline, found] using outside
          have ends := (contains_zero content).mp terminated
          rw [cstr_cmdline ends] at found
          exact Or.inr ⟨found, ends⟩
  · rintro (⟨i, key⟩ | none)
    · obtain ⟨rest, split⟩ := prefix_cstr content behind
      have found := indexOf_append key.found rest
      rw [split] at found
      refine ⟨iff_of_true (parse_found signed behind puk found) ⟨i, key⟩, ?_, ?_⟩
      · intro i key j inside
        exact parse_key signed behind puk key inside
      · intro rejected
        exact absurd ⟨i, key⟩ rejected
    · have rejected : ¬ ∃ i, KeyAt (cstr content) i := by
        rintro ⟨i, key⟩
        have found := key.found
        rw [none.none] at found
        cases found
      rw [parse_none signed behind puk none]
      refine ⟨iff_of_false (show ¬ (0 : Int) = 1 by decide) rejected, ?_, fun _ => ⟨rfl, rfl, rfl⟩⟩
      intro i key
      exact absurd ⟨i, key⟩ rejected

/-- A key that is cut off is taken for a whole one. -/
theorem short_key_accepted : ¬ ∀ (signed : Bool) (content behind : Bytes) (puk : Memory),
    content.length ≤ CMDLINE_LENGTH →
      WholeOrRejected content puk (modemParsePukCmdline signed (.read content) behind puk) := by
  intro always
  have clean := always true (bytes "quiet pubk=12") [] (fun _ => 0) (by decide)
  have accepted := @parse_found (bytes "quiet pubk=12") true [] (fun _ => 0) 6
    (by rw [cstr_cmdline (Or.inl (by decide))]; decide)
  obtain ⟨i, key⟩ := clean.flag.mp accepted
  have found := key.found
  have place : indexOf CMD_PUKSTRING (cstr (bytes "quiet pubk=12")) = some 6 := by decide
  rw [place] at found
  obtain rfl := Option.some.inj found
  exact absurd key.whole (by decide)

end ModemControl.PukCmdline
