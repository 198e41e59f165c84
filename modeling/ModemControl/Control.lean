import ModemControl.Foundation.CString

/-! # Texts and states of modem_control.h -/

namespace ModemControl

open Foundation

def MODEM_ALIVE : Bytes := bytes "Modem Alive"
def PREPARE_RESET : Bytes := bytes "Prepare Reset"
def MODEM_RESET : Bytes := bytes "Modem Reset"
def MODEM_ASSERT : Bytes := bytes "Modem Assert"
def MODEM_BLOCK : Bytes := bytes "Modem Blocked"

/-- `MAX_ASSERT_INFO_LEN`, the size of the buffer control messages are read into. -/
def MAX_ASSERT_INFO_LEN : Nat := 256

/-- The values of `g_modem_state`. -/
inductive ModemState where
  | init
  | loading
  | booting
  | alive
  | assert
  | block
  | reset
  | rebootExtModem
  | rebootSys
  deriving Repr, DecidableEq

/-- The messages threads of modem_control send each other through the control pipe. -/
inductive CtrlMsg where
  | modemBlocked
  | prepareReset
  | modemReset
  deriving Repr, DecidableEq

namespace CtrlMsg

def text : CtrlMsg → Bytes
  | .modemBlocked => MODEM_BLOCK
  | .prepareReset => PREPARE_RESET
  | .modemReset => MODEM_RESET

theorem text_clean (m : CtrlMsg) : 0 ∉ m.text := by
  cases m <;> decide

/-- A control message cut from the left is no control message any more. -/
theorem text_drop (m n : CtrlMsg) (k : Nat) (cut : 0 < k) : m.text.drop k ≠ n.text := by
  have short : ∀ m n : CtrlMsg, ∀ k ∈ List.range 14, 0 < k → m.text.drop k ≠ n.text := by
    intro m n
    cases m <;> cases n <;> decide
  by_cases inside : k < 14
  · exact short m n k (List.mem_range.mpr inside) cut
  · have bound : m.text.length ≤ 13 := by cases m <;> decide
    rw [List.drop_of_length_le (by omega)]
    cases n <;> decide

end CtrlMsg

end ModemControl
