import GameBoy.Instruction

/-!
Decoding. An opcode splits into a quadrant, a row and a column, and says by itself how many bytes
follow it. `decode` takes its bytes from any source: the processor at work, or memory that is only
being looked at.
-/

namespace GameBoy

/-- What an opcode says: the instruction, or how the byte or word after it completes it. -/
inductive Encoding
  | complete (i : Instruction)
  | withByte (f : UInt8 → Instruction)
  | withWord (f : UInt16 → Instruction)

namespace Opcode

/-- The highest two bits. -/
def quadrant (op : UInt8) : Fin 4 := ⟨op.toNat / 64, by have := op.toNat_lt; omega⟩

/-- The middle three bits. -/
def row (op : UInt8) : Fin 8 := ⟨op.toNat / 8 % 8, by omega⟩

/-- The lowest three bits. -/
def column (op : UInt8) : Fin 8 := ⟨op.toNat % 8, by omega⟩

/-- The byte operand with a three-bit code. -/
def place : Fin 8 → Place
  | 0 => .register .b
  | 1 => .register .c
  | 2 => .register .d
  | 3 => .register .e
  | 4 => .register .h
  | 5 => .register .l
  | 6 => .indirect .hl
  | 7 => .register .a

/-- The register pair that a row stands for. -/
def pair : Fin 8 → Pair
  | 0 | 1 => .bc
  | 2 | 3 => .de
  | 4 | 5 => .hl
  | 6 | 7 => .sp

/-- The register pair of a push or pop, where AF stands in for SP. -/
def stackPair : Fin 8 → Pair
  | 0 | 1 => .bc
  | 2 | 3 => .de
  | 4 | 5 => .hl
  | 6 | 7 => .af

/-- The memory operand of the loads between the accumulator and memory. -/
def pointer : Fin 8 → Place
  | 0 | 1 => .indirect .bc
  | 2 | 3 => .indirect .de
  | 4 | 5 => .indirectInc
  | 6 | 7 => .indirectDec

def condition : Fin 8 → Condition
  | 0 | 4 => .nz
  | 1 | 5 => .z
  | 2 | 6 => .nc
  | 3 | 7 => .c

def aluOp : Fin 8 → AluOp
  | 0 => .add
  | 1 => .adc
  | 2 => .sub
  | 3 => .sbc
  | 4 => .and
  | 5 => .xor
  | 6 => .or
  | 7 => .cp

def shiftOp : Fin 8 → ShiftOp
  | 0 => .rotate .rlc
  | 1 => .rotate .rrc
  | 2 => .rotate .rl
  | 3 => .rotate .rr
  | 4 => .sla
  | 5 => .sra
  | 6 => .swap
  | 7 => .srl

/-- The instruction that follows the opcode 0xCB. -/
def extended (op : UInt8) : Instruction :=
  let target := place (column op)
  match quadrant op with
  | 0 => .shift (shiftOp (row op)) target
  | 1 => .bit (row op) target
  | 2 => .res (row op) target
  | 3 => .set (row op) target

/-- The operations on the accumulator and flags alone. -/
def accumulatorOp : Fin 8 → Instruction
  | 0 => .rotateA .rlc
  | 1 => .rotateA .rrc
  | 2 => .rotateA .rl
  | 3 => .rotateA .rr
  | 4 => .daa
  | 5 => .cpl
  | 6 => .scf
  | 7 => .ccf

/-- The first quadrant: relative jumps, register pairs, increments and immediate loads. -/
def firstQuadrant (row column : Fin 8) : Encoding :=
  let even := row.val % 2 = 0
  match column with
  | 0 =>
    match row with
    | 0 => .complete .nop
    | 1 => .withWord .storeSp
    | 2 => .complete .stop
    | 3 => .withByte (.jumpRelative none)
    | _ => .withByte (.jumpRelative (some (condition row)))
  | 1 => if even then .withWord (.loadPair (pair row)) else .complete (.addHl (pair row))
  | 2 =>
    if even then .complete (.load (pointer row) (.place (.register .a)))
    else .complete (.load (.register .a) (.place (pointer row)))
  | 3 => if even then .complete (.incPair (pair row)) else .complete (.decPair (pair row))
  | 4 => .complete (.inc (place row))
  | 5 => .complete (.dec (place row))
  | 6 => .withByte fun v => .load (place row) (.immediate v)
  | 7 => .complete (accumulatorOp row)

/-- The last quadrant: control flow, the stack, and the accumulator with the page at 0xFF00. The
opcodes that are missing here are illegal. -/
def lastQuadrant (op : UInt8) (row column : Fin 8) : Encoding :=
  let illegal : Encoding := .complete (.illegal op)
  match column with
  | 0 =>
    match row with
    | 4 => .withByte fun n => .load (.highDirect n) (.place (.register .a))
    | 5 => .withByte .addSp
    | 6 => .withByte fun n => .load (.register .a) (.place (.highDirect n))
    | 7 => .withByte .loadHlSp
    | _ => .complete (.ret (some (condition row)))
  | 1 =>
    match row with
    | 1 => .complete (.ret none)
    | 3 => .complete .reti
    | 5 => .complete .jumpHl
    | 7 => .complete .loadSpHl
    | _ => .complete (.pop (stackPair row))
  | 2 =>
    match row with
    | 4 => .complete (.load .highC (.place (.register .a)))
    | 5 => .withWord fun address => .load (.direct address) (.place (.register .a))
    | 6 => .complete (.load (.register .a) (.place .highC))
    | 7 => .withWord fun address => .load (.register .a) (.place (.direct address))
    | _ => .withWord (.jump (some (condition row)))
  | 3 =>
    match row with
    | 0 => .withWord (.jump none)
    | 1 => .withByte extended
    | 6 => .complete .di
    | 7 => .complete .ei
    | _ => illegal
  | 4 => if row < 4 then .withWord (.call (some (condition row))) else illegal
  | 5 =>
    if row.val % 2 = 0 then .complete (.push (stackPair row))
    else if row = 1 then .withWord (.call none)
    else illegal
  | 6 => .withByte fun v => .alu (aluOp row) (.immediate v)
  | 7 => .complete (.rst (op - 0xC7))

end Opcode

open Opcode

/-- What an opcode says. HALT stands where a load from [hl] to [hl] would. -/
def Encoding.ofOpcode (op : UInt8) : Encoding :=
  match quadrant op with
  | 0 => firstQuadrant (row op) (column op)
  | 1 =>
    if op = 0x76 then .complete .halt
    else .complete (.load (place (row op)) (.place (place (column op))))
  | 2 => .complete (.alu (aluOp (row op)) (.place (place (column op))))
  | 3 => lastQuadrant op (row op) (column op)

namespace Instruction

/-- Decodes one instruction, taking its bytes from a source in turn. -/
def decode [Monad m] (fetch : m UInt8) : m Instruction := do
  match Encoding.ofOpcode (← fetch) with
  | .complete i => return i
  | .withByte f => return f (← fetch)
  | .withWord f => do
    let low ← fetch
    let high ← fetch
    return f (Word.join high low)

/-- Takes the next byte of a memory. -/
def nextByte (bytes : Nat → UInt8) : StateM Nat UInt8 :=
  modifyGet fun position => (bytes position, position + 1)

/-- Decodes the instruction at an offset, and says where the bytes taken end. -/
def decodeAt (bytes : Nat → UInt8) (offset : Nat) : Instruction × Nat :=
  (decode (nextByte bytes)).run offset

end Instruction

end GameBoy
