import ModemControl.Foundation.Search

/-! # The modem parameter of the kernel command line: modem_control.c

`modem_ctrl_parse_cmdline` compares a value with what is between "modem=" and the next
blank of /proc/cmdline. The line ends in a newline, which is no blank.
-/

namespace ModemControl.ParseCmdline

open Foundation

def MODEM : Bytes := bytes "modem="
def CPCMDLINE_SIZE : Nat := 0x1000

/-- Whether /proc/cmdline can be opened, and what a read that asks for enough would give:
    nothing for -1. -/
structure Cmdline where
  opens : Bool := true
  content : Option Bytes
  deriving Repr, DecidableEq

/-- The text behind "modem=", cut at the first blank. -/
def modemValue (cmdline : Bytes) : Option Bytes :=
  (findStr cmdline MODEM).map fun str => (str.drop MODEM.length).takeWhile (· != 32)

def modemCtrlParseCmdline (file : Cmdline) (cmdvalue : Option Bytes) : Int :=
  match cmdvalue with
  | none => -1
  | some cmdvalue =>
      if file.opens then
        let data := (file.content.getD []).take (CPCMDLINE_SIZE - 1)
        if data = [] then 0
        else
          match modemValue (cstr data) with
          | none => 0
          | some str => if cmdvalue = str then 1 else 0
      else 0

/-- Parameters with a blank behind each. -/
def followed (params : List Bytes) : Bytes := params.flatMap fun p => p ++ [32]

/-- Parameters with a blank before each. -/
def preceded (params : List Bytes) : Bytes := params.flatMap fun p => 32 :: p

/-- The line is made of parameters with a blank between any two and a newline behind them,
    `modem=value` is one of them, and the text is nowhere else in it. Blanks that are next to
    each other have an empty parameter between them. -/
structure HasModem (line : Bytes) (before : List Bytes) (value : Bytes) (after : List Bytes) :
    Prop where
  made : line = followed before ++ (MODEM ++ value ++ preceded after ++ [10])
  plain : ∀ p ∈ value :: before ++ after, 32 ∉ p ∧ 10 ∉ p ∧ 0 ∉ p
  once : ∀ i j, MODEM <+: line.drop i → MODEM <+: line.drop j → i = j
  short : line.length ≤ CPCMDLINE_SIZE - 1

/-- The result says whether the parameter has this value. -/
def Recognised (line value cmdvalue : Bytes) : Prop :=
  modemCtrlParseCmdline { content := some line } (some cmdvalue) = if value = cmdvalue then 1 else 0

theorem mem_followed {params : List Bytes} {c : UInt8} (member : c ∈ followed params) :
    c = 32 ∨ ∃ p ∈ params, c ∈ p := by
  obtain ⟨p, listed, inside⟩ := List.mem_flatMap.mp member
  rcases List.mem_append.mp inside with here | blank
  · exact Or.inr ⟨p, listed, here⟩
  · exact Or.inl (List.mem_singleton.mp blank)

theorem mem_preceded {params : List Bytes} {c : UInt8} (member : c ∈ preceded params) :
    c = 32 ∨ ∃ p ∈ params, c ∈ p := by
  obtain ⟨p, listed, inside⟩ := List.mem_flatMap.mp member
  rcases List.mem_cons.mp inside with blank | here
  · exact Or.inl blank
  · exact Or.inr ⟨p, listed, here⟩

section

variable {line value : Bytes} {before after : List Bytes}

theorem HasModem.clean (has : HasModem line before value after) : 0 ∉ line := by
  intro member
  rw [has.made] at member
  simp only [List.mem_append, List.mem_singleton] at member
  rcases member with first | ((word | inside) | last) | newline
  · rcases mem_followed first with blank | ⟨p, listed, inside⟩
    · exact absurd blank (by decide)
    · exact (has.plain p (by simp [listed])).2.2 inside
  · exact absurd word (by decide)
  · exact (has.plain value (by simp)).2.2 inside
  · rcases mem_preceded last with blank | ⟨p, listed, inside⟩
    · exact absurd blank (by decide)
    · exact (has.plain p (by simp [listed])).2.2 inside
  · exact absurd newline (by decide)

theorem HasModem.found (has : HasModem line before value after) :
    findStr line MODEM = some (MODEM ++ value ++ preceded after ++ [10]) := by
  rw [has.made]
  have here : MODEM <+: MODEM ++ value ++ preceded after ++ [10] := by
    simp only [List.append_assoc]
    exact List.prefix_append MODEM _
  apply findStr_of_first here
  intro i inside earlier
  have there : MODEM <+: line.drop (followed before).length := by
    rw [has.made, List.drop_left]
    exact here
  rw [← has.made] at earlier
  exact absurd (has.once i _ earlier there) (Nat.ne_of_lt inside)

/-- A parameter that is followed by another one ends at the blank between them; the last one
    goes on to the end of the line. -/
theorem HasModem.modemValue_eq (has : HasModem line before value after) :
    modemValue line = some (if after = [] then value ++ [10] else value) := by
  have blank := (has.plain value (by simp)).1
  rw [modemValue, has.found, Option.map_some]
  simp only [List.append_assoc, List.drop_left]
  cases after with
  | nil =>
      have plain : 32 ∉ value ++ [10] := by simp [blank]
      rw [if_pos rfl, preceded, List.flatMap_nil, List.nil_append, takeWhile_all plain]
  | cons p after =>
      rw [if_neg (List.cons_ne_nil _ _), preceded, List.flatMap_cons]
      simp only [List.cons_append]
      rw [takeWhile_until blank]

theorem HasModem.result (has : HasModem line before value after) (cmdvalue : Bytes) :
    modemCtrlParseCmdline { content := some line } (some cmdvalue) =
      if cmdvalue = (if after = [] then value ++ [10] else value) then 1 else 0 := by
  have nonempty : line ≠ [] := by
    rw [has.made]
    simp
  have whole : line.take (CPCMDLINE_SIZE - 1) = line := List.take_of_length_le has.short
  have text : cstr line = line := takeWhile_all has.clean
  simp only [modemCtrlParseCmdline, if_true, Option.getD_some, whole, nonempty, if_false, text,
    has.modemValue_eq]

/-- The parameter is recognised exactly when it is not the last one, or has another value. -/
theorem parseCmdline_recognised_iff (has : HasModem line before value after) {cmdvalue : Bytes}
    (ended : 10 ∉ cmdvalue) : Recognised line value cmdvalue ↔ after ≠ [] ∨ value ≠ cmdvalue := by
  unfold Recognised
  rw [has.result]
  by_cases last : after = []
  · have longer : cmdvalue ≠ value ++ [10] := by
      rintro rfl
      simp at ended
    rw [if_pos last, if_neg longer]
    split <;> simp_all
  · rw [if_neg last]
    simp [last, eq_comm]

end

def middle : Bytes := bytes "quiet modem=shutdown splash\n"

def last : Bytes := bytes "quiet modem=shutdown\n"

/-- So long a line has the text at one place only. -/
theorem once_of_all {line : Bytes} (k : Nat)
    (all : ∀ i ∈ List.range line.length, MODEM.isPrefixOf (line.drop i) = true → i = k) :
    ∀ i j, MODEM <+: line.drop i → MODEM <+: line.drop j → i = j := by
  have only : ∀ i, MODEM <+: line.drop i → i = k := by
    intro i here
    have room := here.length_le
    rw [List.length_drop] at room
    have word : MODEM.length = 6 := rfl
    exact all i (List.mem_range.mpr (by omega)) (List.isPrefixOf_iff_prefix.mpr here)
  intro i j first second
  rw [only i first, only j second]

theorem middle_hasModem : HasModem middle [bytes "quiet"] (bytes "shutdown") [bytes "splash"] where
  made := by decide
  plain := by decide
  once := once_of_all 6 (by decide)
  short := by decide

theorem last_hasModem : HasModem last [bytes "quiet"] (bytes "shutdown") [] where
  made := by decide
  plain := by decide
  once := once_of_all 6 (by decide)
  short := by decide

theorem middle_recognised : Recognised middle (bytes "shutdown") (bytes "shutdown") :=
  (parseCmdline_recognised_iff middle_hasModem (by decide)).mpr (Or.inl (by decide))

/-- As the last parameter, "shutdown" is compared with a newline behind it. -/
theorem last_not_recognised : ¬ ∀ line before value after cmdvalue,
    HasModem line before value after → cmdvalue ≠ [] → 32 ∉ cmdvalue → 10 ∉ cmdvalue →
      Recognised line value cmdvalue := by
  intro always
  have recognised := always last [bytes "quiet"] (bytes "shutdown") [] (bytes "shutdown")
    last_hasModem (by decide) (by decide) (by decide)
  exact absurd recognised (by unfold Recognised; decide)

end ModemControl.ParseCmdline
