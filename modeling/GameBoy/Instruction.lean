import GameBoy.Registers

/-!
The instruction set.
-/

namespace GameBoy

/-- The conditions of jumps, calls and returns. -/
inductive Condition
  | nz | z | nc | c
deriving DecidableEq, Inhabited

/-- Whether the flags meet a condition. -/
def Flags.satisfies (f : Flags) : Condition → Bool
  | .nz => !f.z
  | .z => f.z
  | .nc => !f.c
  | .c => f.c

/-- Something that holds a byte and can be stored to: a register, or memory at an address. The forms
`indirectInc` and `indirectDec` address memory by HL and move HL; the `high` forms address the page
at 0xFF00. -/
inductive Place
  | register (r : Register)
  | indirect (p : Pair)
  | indirectInc
  | indirectDec
  | direct (address : UInt16)
  | highDirect (offset : UInt8)
  | highC
deriving DecidableEq, Inhabited

/-- Something that a byte can be loaded from. -/
inductive Source
  | place (p : Place)
  | immediate (v : UInt8)
deriving DecidableEq, Inhabited

/-- The operations between the accumulator and a byte, in the order of their codes. -/
inductive AluOp
  | add | adc | sub | sbc | and | xor | or | cp
deriving DecidableEq, Inhabited

/-- The rotations: by eight bits, or by nine bits through the carry flag. -/
inductive Rotation
  | rlc | rrc | rl | rr
deriving DecidableEq, Inhabited

/-- The rotations and shifts of any byte. -/
inductive ShiftOp
  | rotate (r : Rotation)
  | sla | sra | swap | srl
deriving DecidableEq, Inhabited

/-- An instruction with its operands. `stop` carries no operand, though a byte follows its opcode;
`illegal` stands for the opcodes that have no meaning. -/
inductive Instruction
  | nop
  | stop
  | halt
  | di
  | ei
  | daa
  | cpl
  | scf
  | ccf
  | load (target : Place) (source : Source)
  | loadPair (p : Pair) (v : UInt16)
  | storeSp (address : UInt16)
  | loadSpHl
  | loadHlSp (offset : UInt8)
  | addSp (offset : UInt8)
  | alu (op : AluOp) (source : Source)
  | inc (target : Place)
  | dec (target : Place)
  | incPair (p : Pair)
  | decPair (p : Pair)
  | addHl (p : Pair)
  | push (p : Pair)
  | pop (p : Pair)
  | rotateA (r : Rotation)
  | shift (op : ShiftOp) (target : Place)
  | bit (index : Fin 8) (target : Place)
  | res (index : Fin 8) (target : Place)
  | set (index : Fin 8) (target : Place)
  | jump (condition : Option Condition) (address : UInt16)
  | jumpHl
  | jumpRelative (condition : Option Condition) (offset : UInt8)
  | call (condition : Option Condition) (address : UInt16)
  | ret (condition : Option Condition)
  | reti
  | rst (vector : UInt8)
  | illegal (opcode : UInt8)
deriving DecidableEq, Inhabited

/-- The bytes of an instruction that encode a place. -/
def Place.size : Place → Nat
  | .direct _ => 2
  | .highDirect _ => 1
  | _ => 0

/-- The bytes of an instruction that encode a source. -/
def Source.size : Source → Nat
  | .place p => p.size
  | .immediate _ => 1

namespace Instruction

/-- The bytes of an instruction after its opcode. A STOP carries a byte that is ignored. -/
def operandSize : Instruction → Nat
  | .load target source => target.size + source.size
  | .alu _ source => source.size
  | .loadPair _ _ | .storeSp _ | .jump _ _ | .call _ _ => 2
  | .stop | .loadHlSp _ | .addSp _ | .jumpRelative _ _ => 1
  | .shift _ _ | .bit _ _ | .res _ _ | .set _ _ => 1
  | _ => 0

/-- The bytes of memory that an instruction is encoded in. -/
def size (i : Instruction) : Nat := 1 + i.operandSize

end Instruction

end GameBoy
