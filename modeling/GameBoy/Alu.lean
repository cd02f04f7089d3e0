import GameBoy.Instruction

/-!
Arithmetic and logic. Each operation gives a result together with the flags that it leaves.
-/

namespace GameBoy.Alu

/-- Adds two bytes and a carry. -/
def add (a v : UInt8) (carry : Bool) : UInt8 × Flags :=
  let result := a + v + carry.toUInt8
  (result,
    { z := result = 0
      n := false
      h := 15 < a.toNat % 16 + v.toNat % 16 + carry.toNat
      c := 255 < a.toNat + v.toNat + carry.toNat })

/-- Subtracts a byte and a borrow. -/
def sub (a v : UInt8) (borrow : Bool) : UInt8 × Flags :=
  let result := a - v - borrow.toUInt8
  (result,
    { z := result = 0
      n := true
      h := a.toNat % 16 < v.toNat % 16 + borrow.toNat
      c := a.toNat < v.toNat + borrow.toNat })

/-- The flags of a bitwise operation. -/
def logicFlags (result : UInt8) (halfCarry : Bool) : Flags :=
  { z := result = 0, n := false, h := halfCarry, c := false }

/-- An operation between the accumulator and a byte. A comparison is a subtraction whose result is
dropped. -/
def apply (op : AluOp) (a v : UInt8) (f : Flags) : UInt8 × Flags :=
  match op with
  | .add => add a v false
  | .adc => add a v f.c
  | .sub => sub a v false
  | .sbc => sub a v f.c
  | .and => (a &&& v, logicFlags (a &&& v) true)
  | .xor => (a ^^^ v, logicFlags (a ^^^ v) false)
  | .or => (a ||| v, logicFlags (a ||| v) false)
  | .cp => (a, (sub a v false).2)

/-- Increments a byte; carry stays as it was. -/
def inc (v : UInt8) (f : Flags) : UInt8 × Flags :=
  let result := v + 1
  (result, { z := result = 0, n := false, h := result % 16 = 0, c := f.c })

/-- Decrements a byte; carry stays as it was. -/
def dec (v : UInt8) (f : Flags) : UInt8 × Flags :=
  let result := v - 1
  (result, { z := result = 0, n := true, h := result % 16 = 15, c := f.c })

/-- Mends a sum or difference of packed decimal bytes into packed decimal again. -/
def decimalAdjust (a : UInt8) (f : Flags) : UInt8 × Flags :=
  let high := f.c || (!f.n && decide (0x99 < a))
  let a' := if high then (if f.n then a - 0x60 else a + 0x60) else a
  let low := f.h || (!f.n && decide (9 < a' % 16))
  let a'' := if low then (if f.n then a' - 0x06 else a' + 0x06) else a'
  (a'', { z := a'' = 0, n := f.n, h := false, c := high })

/-- Whether the highest bit is set. -/
def topBit (v : UInt8) : Bool := 0x80 ≤ v

/-- Whether the lowest bit is set. -/
def lowBit (v : UInt8) : Bool := v % 2 = 1

/-- Rotates a byte; the second component is the bit that left it. -/
def rotate (r : Rotation) (v : UInt8) (carry : Bool) : UInt8 × Bool :=
  match r with
  | .rlc => (v * 2 + (topBit v).toUInt8, topBit v)
  | .rrc => (v / 2 + (lowBit v).toUInt8 * 0x80, lowBit v)
  | .rl => (v * 2 + carry.toUInt8, topBit v)
  | .rr => (v / 2 + carry.toUInt8 * 0x80, lowBit v)

/-- Rotates or shifts a byte; the second component is the bit that left it. SWAP exchanges the two
halves of a byte, and nothing leaves it. -/
def shift (op : ShiftOp) (v : UInt8) (carry : Bool) : UInt8 × Bool :=
  match op with
  | .rotate r => rotate r v carry
  | .sla => (v * 2, topBit v)
  | .sra => (v / 2 + (topBit v).toUInt8 * 0x80, lowBit v)
  | .swap => (v / 16 + v * 16, false)
  | .srl => (v / 2, lowBit v)

/-- The flags of a rotation or shift. -/
def shiftFlags (zero carry : Bool) : Flags := { z := zero, n := false, h := false, c := carry }

/-- The byte with one bit set. -/
def bitMask (index : Fin 8) : UInt8 := 1 <<< UInt8.ofNat index.val

/-- The flags of a bit test; carry stays as it was. -/
def testBit (index : Fin 8) (v : UInt8) (f : Flags) : Flags :=
  { z := v &&& bitMask index = 0, n := false, h := true, c := f.c }

/-- Adds two words; the zero flag stays as it was. -/
def addWords (a v : UInt16) (f : Flags) : UInt16 × Flags :=
  (a + v,
    { z := f.z
      n := false
      h := 0xFFF < a.toNat % 0x1000 + v.toNat % 0x1000
      c := 0xFFFF < a.toNat + v.toNat })

/-- Adds a signed byte to a word. Half carry and carry are those of the unsigned sum of the low
bytes. -/
def addOffset (a : UInt16) (offset : UInt8) : UInt16 × Flags :=
  (a + Word.signExtend offset,
    { z := false
      n := false
      h := 15 < a.toNat % 16 + offset.toNat % 16
      c := 255 < a.toNat % 256 + offset.toNat })

end GameBoy.Alu
