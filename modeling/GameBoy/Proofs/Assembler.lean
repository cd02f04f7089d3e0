import GameBoy.Proofs.Decoding

/-!
Assembling: from an instruction back to the bytes that it is decoded from. Main statement:
`run_decode_noted`, which says that decoding takes the bytes that encode the instruction, whatever
the source that they are taken from.
-/

namespace GameBoy

namespace Opcode

/-- The opcode with a quadrant, a row and a column. -/
def ofParts (quadrant row column : Nat) : UInt8 :=
  UInt8.ofNat (64 * quadrant + 8 * row + column)

theorem ofParts_parts {op : UInt8} {part : Fin 4} (found : quadrant op = part) :
    ofParts part (row op) (column op) = op := by
  have parts : 64 * (op.toNat / 64) + 8 * (op.toNat / 8 % 8) + op.toNat % 8 = op.toNat := by omega
  rw [← found, ofParts, quadrant, row, column, parts, UInt8.ofNat_toNat]

end Opcode

/-- The three bits of an opcode that stand for a common place. -/
def Place.code : Place → Nat
  | .register .b => 0
  | .register .c => 1
  | .register .d => 2
  | .register .e => 3
  | .register .h => 4
  | .register .l => 5
  | .register .a => 7
  | _ => 6

/-- The lower of the two rows that stand for a pair. -/
def Pair.row : Pair → Nat
  | .bc => 0
  | .de => 2
  | .hl => 4
  | .sp | .af => 6

def Condition.code : Condition → Nat
  | .nz => 0
  | .z => 1
  | .nc => 2
  | .c => 3

def AluOp.code : AluOp → Nat
  | .add => 0
  | .adc => 1
  | .sub => 2
  | .sbc => 3
  | .and => 4
  | .xor => 5
  | .or => 6
  | .cp => 7

def Rotation.code : Rotation → Nat
  | .rlc => 0
  | .rrc => 1
  | .rl => 2
  | .rr => 3

def ShiftOp.code : ShiftOp → Nat
  | .rotate r => r.code
  | .sla => 4
  | .sra => 5
  | .swap => 6
  | .srl => 7

namespace Instruction

open Opcode

/-- An opcode with a word operand. -/
def encodeWord (op : UInt8) (v : UInt16) : List UInt8 := [op, Word.low v, Word.high v]

/-- The encodings of the loads of a byte. -/
def encodeLoad : Place → Source → List UInt8
  | .direct address, _ => encodeWord 0xEA address
  | .highDirect offset, _ => [0xE0, offset]
  | .highC, _ => [0xE2]
  | .indirect .bc, _ => [0x02]
  | .indirect .de, _ => [0x12]
  | .indirectInc, _ => [0x22]
  | .indirectDec, _ => [0x32]
  | _, .place (.direct address) => encodeWord 0xFA address
  | _, .place (.highDirect offset) => [0xF0, offset]
  | _, .place .highC => [0xF2]
  | _, .place (.indirect .bc) => [0x0A]
  | _, .place (.indirect .de) => [0x1A]
  | _, .place .indirectInc => [0x2A]
  | _, .place .indirectDec => [0x3A]
  | target, .place source => [ofParts 1 target.code source.code]
  | target, .immediate v => [ofParts 0 target.code 6, v]

/-- The bytes that an instruction is decoded from. -/
def encode : Instruction → List UInt8
  | .nop => [0x00]
  | .stop => [0x10]
  | .halt => [0x76]
  | .di => [0xF3]
  | .ei => [0xFB]
  | .daa => [0x27]
  | .cpl => [0x2F]
  | .scf => [0x37]
  | .ccf => [0x3F]
  | .load target source => encodeLoad target source
  | .loadPair p v => encodeWord (ofParts 0 p.row 1) v
  | .storeSp address => encodeWord 0x08 address
  | .loadSpHl => [0xF9]
  | .loadHlSp offset => [0xF8, offset]
  | .addSp offset => [0xE8, offset]
  | .alu op (.place p) => [ofParts 2 op.code p.code]
  | .alu op (.immediate v) => [ofParts 3 op.code 6, v]
  | .inc target => [ofParts 0 target.code 4]
  | .dec target => [ofParts 0 target.code 5]
  | .incPair p => [ofParts 0 p.row 3]
  | .decPair p => [ofParts 0 (p.row + 1) 3]
  | .addHl p => [ofParts 0 (p.row + 1) 1]
  | .push p => [ofParts 3 p.row 5]
  | .pop p => [ofParts 3 p.row 1]
  | .rotateA r => [ofParts 0 r.code 7]
  | .shift op target => [0xCB, ofParts 0 op.code target.code]
  | .bit index target => [0xCB, ofParts 1 index target.code]
  | .res index target => [0xCB, ofParts 2 index target.code]
  | .set index target => [0xCB, ofParts 3 index target.code]
  | .jump none address => encodeWord 0xC3 address
  | .jump (some cc) address => encodeWord (ofParts 3 cc.code 2) address
  | .jumpHl => [0xE9]
  | .jumpRelative none offset => [0x18, offset]
  | .jumpRelative (some cc) offset => [ofParts 0 (cc.code + 4) 0, offset]
  | .call none address => encodeWord 0xCD address
  | .call (some cc) address => encodeWord (ofParts 3 cc.code 4) address
  | .ret none => [0xC9]
  | .ret (some cc) => [ofParts 3 cc.code 0]
  | .reti => [0xD9]
  | .rst vector => [0xC7 + vector]
  | .illegal opcode => [opcode]

end Instruction

/-- Every instruction that an opcode stands for is encoded as the opcode and its operand. -/
def Encoding.Assembles (op : UInt8) : Encoding → Prop
  | .complete i => i.encode = [op]
  | .withByte f => ∀ v, (f v).encode = [op, v]
  | .withWord f => ∀ v, (f v).encode = [op, Word.low v, Word.high v]

namespace Opcode

theorem code_place : ∀ code : Fin 8, (place code).code = code := by decide

theorem code_aluOp : ∀ code : Fin 8, (aluOp code).code = code := by decide

theorem code_shiftOp : ∀ code : Fin 8, (shiftOp code).code = code := by decide

/-- A load between common places is encoded by their codes. -/
theorem encodeLoad_place (target source : Fin 8) :
    Instruction.encodeLoad (place target) (.place (place source)) = [ofParts 1 target source] := by
  revert target source
  decide

theorem encode_extended (op : UInt8) : (extended op).encode = [0xCB, op] := by
  unfold extended
  split
  all_goals
    rename_i quadrant
    simp only [Instruction.encode, code_place, code_shiftOp]
    exact congrArg (fun code => [0xCB, code]) (ofParts_parts quadrant)

theorem assembles_firstQuadrant (row column : Fin 8) :
    (firstQuadrant row column).Assembles (ofParts 0 row column) := by
  fin_cases column <;> fin_cases row <;> first | rfl | exact fun _ => rfl

theorem assembles_lastQuadrant (row column : Fin 8) :
    (lastQuadrant (ofParts 3 row column) row column).Assembles (ofParts 3 row column) := by
  fin_cases column <;> fin_cases row <;>
    first | rfl | exact fun _ => rfl | exact encode_extended

end Opcode

open Opcode in
theorem Encoding.assembles_ofOpcode (op : UInt8) : (ofOpcode op).Assembles op := by
  unfold ofOpcode
  split
  · have parts : ofParts 0 (row op) (column op) = op := ofParts_parts ‹_›
    have assembles := assembles_firstQuadrant (row op) (column op)
    rwa [parts] at assembles
  · have parts : ofParts 1 (row op) (column op) = op := ofParts_parts ‹_›
    split
    · rename_i halt
      rw [halt]
      rfl
    · show Instruction.encodeLoad _ _ = _
      rw [encodeLoad_place, parts]
  · have parts : ofParts 2 (row op) (column op) = op := ofParts_parts ‹_›
    show [ofParts 2 _ _] = _
    rw [code_aluOp, code_place, parts]
  · have parts : ofParts 3 (row op) (column op) = op := ofParts_parts ‹_›
    have assembles := assembles_lastQuadrant (row op) (column op)
    rwa [parts] at assembles

namespace Instruction

/-- A source that notes the bytes it gives. -/
def noted (fetch : StateM ρ UInt8) : StateM (ρ × List UInt8) UInt8 := fun (s, taken) =>
  let (v, s) := fetch.run s
  (v, s, taken ++ [v])

variable {ρ : Type}

theorem run_noted (fetch : StateM ρ UInt8) (s : ρ) (taken : List UInt8) :
    (noted fetch).run (s, taken) =
      ((fetch.run s).1, (fetch.run s).2, taken ++ [(fetch.run s).1]) := rfl

/-- Noting the bytes does not change what is decoded, and the bytes that are noted are the ones that
encode it. -/
theorem run_decode_noted (fetch : StateM ρ UInt8) (s : ρ) (taken : List UInt8) :
    (decode (noted fetch)).run (s, taken) =
      (((decode fetch).run s).1, ((decode fetch).run s).2,
        taken ++ ((decode fetch).run s).1.encode) := by
  have given (s : ρ) : fetch.run s = ((fetch.run s).1, (fetch.run s).2) := rfl
  have encodes := Encoding.assembles_ofOpcode (fetch.run s).1
  cases encoding : Encoding.ofOpcode (fetch.run s).1 with
  | complete i =>
    rw [encoding] at encodes
    rw [run_decode_complete (run_noted fetch s taken) encoding,
      run_decode_complete (given s) encoding, show i.encode = _ from encodes]
  | withByte f =>
    rw [encoding] at encodes
    rw [run_decode_withByte (run_noted fetch s taken) encoding (run_noted ..),
      run_decode_withByte (given s) encoding (given _), encodes, List.append_assoc,
      List.singleton_append]
  | withWord f =>
    rw [encoding] at encodes
    rw [run_decode_withWord (run_noted fetch s taken) encoding (run_noted ..) (run_noted ..),
      run_decode_withWord (given s) encoding (given _) (given _), encodes, Word.low_join,
      Word.high_join]
    simp only [List.append_assoc, List.cons_append, List.nil_append]

/-- The bytes that are taken from a source when an instruction is decoded. -/
def consumed (fetch : StateM ρ UInt8) (s : ρ) : List UInt8 :=
  ((decode (noted fetch)).run (s, [])).2.2

theorem consumed_eq_encode (fetch : StateM ρ UInt8) (s : ρ) :
    consumed fetch s = ((decode fetch).run s).1.encode := by
  rw [consumed, run_decode_noted, List.nil_append]

end Instruction

end GameBoy
