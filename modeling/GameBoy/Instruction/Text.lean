import GameBoy.Instruction
import GameBoy.Text.Hex

/-!
Instructions as assembly text.
-/

namespace GameBoy

open Text

namespace Text

/-- A byte as two's complement decimal text. -/
def signed (b : UInt8) : String :=
  if b < 0x80 then toString b.toNat else "-" ++ toString (256 - b.toNat)

/-- A byte as two's complement decimal text that always carries a sign. -/
def withSign (b : UInt8) : String := if b < 0x80 then "+" ++ signed b else signed b

end Text

def Register.text : Register → String
  | .a => "a"
  | .b => "b"
  | .c => "c"
  | .d => "d"
  | .e => "e"
  | .h => "h"
  | .l => "l"

def Pair.text : Pair → String
  | .af => "af"
  | .bc => "bc"
  | .de => "de"
  | .hl => "hl"
  | .sp => "sp"

def Condition.text : Condition → String
  | .nz => "nz"
  | .z => "z"
  | .nc => "nc"
  | .c => "c"

def Place.text : Place → String
  | .register r => r.text
  | .indirect p => "[" ++ p.text ++ "]"
  | .indirectInc => "[hl+]"
  | .indirectDec => "[hl-]"
  | .direct address => "[$" ++ Hex.word address ++ "]"
  | .highDirect offset => "[$ff00+$" ++ Hex.byte offset ++ "]"
  | .highC => "[$ff00+c]"

def Source.text : Source → String
  | .place p => p.text
  | .immediate v => "$" ++ Hex.byte v

/-- The operation and what stands before its operand; some name the accumulator, some do not. -/
def AluOp.text : AluOp → String
  | .add => "add a, "
  | .adc => "adc a, "
  | .sub => "sub a, "
  | .sbc => "sbc a, "
  | .and => "and "
  | .xor => "xor a, "
  | .or => "or "
  | .cp => "cp "

def Rotation.text : Rotation → String
  | .rlc => "rlc"
  | .rrc => "rrc"
  | .rl => "rl"
  | .rr => "rr"

def ShiftOp.text : ShiftOp → String
  | .rotate r => r.text
  | .sla => "sla"
  | .sra => "sra"
  | .swap => "swap"
  | .srl => "srl"

/-- A mnemonic, a condition if there is one, and a target. -/
def branchText (mnemonic : String) (condition : Option Condition) (target : String) : String :=
  match condition with
  | none => mnemonic ++ " " ++ target
  | some cc => mnemonic ++ " " ++ cc.text ++ ", " ++ target

/-- A mnemonic with a bit number and a place. -/
def bitText (mnemonic : String) (index : Fin 8) (target : Place) : String :=
  mnemonic ++ " " ++ toString index.val ++ ", " ++ target.text

def Instruction.text : Instruction → String
  | .nop => "nop"
  | .stop => "stop"
  | .halt => "halt"
  | .di => "di"
  | .ei => "ei"
  | .daa => "daa"
  | .cpl => "cpl"
  | .scf => "scf"
  | .ccf => "ccf"
  | .load target source => "ld " ++ target.text ++ ", " ++ source.text
  | .loadPair p v => "ld " ++ p.text ++ ", $" ++ Hex.word v
  | .storeSp address => "ld [$" ++ Hex.word address ++ "], sp"
  | .loadSpHl => "ld sp, hl"
  | .loadHlSp offset => "ld hl, sp" ++ withSign offset
  | .addSp offset => "add sp, " ++ signed offset
  | .alu op source => op.text ++ source.text
  | .inc target => "inc " ++ target.text
  | .dec target => "dec " ++ target.text
  | .incPair p => "inc " ++ p.text
  | .decPair p => "dec " ++ p.text
  | .addHl p => "add hl, " ++ p.text
  | .push p => "push " ++ p.text
  | .pop p => "pop " ++ p.text
  | .rotateA r => r.text ++ "a"
  | .shift op target => op.text ++ " " ++ target.text
  | .bit index target => bitText "bit" index target
  | .res index target => bitText "res" index target
  | .set index target => bitText "set" index target
  | .jump condition address => branchText "jp" condition ("$" ++ Hex.word address)
  | .jumpHl => "jp hl"
  | .jumpRelative condition offset => branchText "jr" condition (signed offset)
  | .call condition address => branchText "call" condition ("$" ++ Hex.word address)
  | .ret none => "ret"
  | .ret (some cc) => "ret " ++ cc.text
  | .reti => "reti"
  | .rst vector => "rst $" ++ Hex.byte vector
  | .illegal opcode => "illegal $" ++ Hex.byte opcode

end GameBoy
