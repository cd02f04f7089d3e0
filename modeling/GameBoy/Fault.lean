import GameBoy.Text.Hex

/-!
The conditions that stop a running machine.
-/

namespace GameBoy

/-- A select that no bank or clock register answers to, or an opcode that locks the processor up. -/
inductive Fault
  | invalidRamSelect (value : UInt8)
  | illegalOpcode (opcode : UInt8) (pc : UInt16)
deriving DecidableEq

def Fault.message : Fault → String
  | .invalidRamSelect value =>
    "MBC3 RAM/RTC select $" ++ Text.Hex.byte value ++ " is out of range"
  | .illegalOpcode opcode pc =>
    "illegal opcode $" ++ Text.Hex.byte opcode ++ " at $" ++ Text.Hex.word pc ++
      ", CPU locked up"

end GameBoy
