import GameBoy.Word

/-!
The processor's registers. Main statements: `Flags.unpack_pack` says that the flags survive being
packed into a byte, and `getPair_setPair` that a register pair holds what was put into it.
-/

namespace GameBoy

/-- The arithmetic flags: zero, subtract, half carry and carry. -/
structure Flags where
  z : Bool
  n : Bool
  h : Bool
  c : Bool
deriving DecidableEq, Inhabited

namespace Flags

/-- All flags clear. -/
def clear : Flags := { z := false, n := false, h := false, c := false }

/-- The flags as the register F: four high bits, the low ones do not exist and are zero. -/
def pack (f : Flags) : UInt8 :=
  (if f.z then 0x80 else 0) + (if f.n then 0x40 else 0) + (if f.h then 0x20 else 0) +
    (if f.c then 0x10 else 0)

/-- The flags that a byte stored to F leaves; its low four bits are dropped. -/
def unpack (b : UInt8) : Flags :=
  { z := b / 0x80 % 2 = 1, n := b / 0x40 % 2 = 1, h := b / 0x20 % 2 = 1, c := b / 0x10 % 2 = 1 }

@[simp] theorem unpack_pack (f : Flags) : unpack f.pack = f := by
  obtain ⟨z, n, h, c⟩ := f
  revert z n h c
  decide

end Flags

/-- The eight-bit registers that instructions name. -/
inductive Register
  | a | b | c | d | e | h | l
deriving DecidableEq, Inhabited

/-- The sixteen-bit registers: the stack pointer, and pairs of eight-bit registers. -/
inductive Pair
  | af | bc | de | hl | sp
deriving DecidableEq, Inhabited

/-- The processor: its registers, the interrupt master enable, and whether it is halted. An enable
is pending between EI and the end of the instruction after it. -/
structure Cpu where
  a : UInt8 := 0
  b : UInt8 := 0
  c : UInt8 := 0
  d : UInt8 := 0
  e : UInt8 := 0
  f : Flags := .clear
  h : UInt8 := 0
  l : UInt8 := 0
  pc : UInt16 := 0
  sp : UInt16 := 0
  ime : Bool := false
  imePending : Bool := false
  halted : Bool := false
deriving DecidableEq, Inhabited

namespace Cpu

/-- The byte in a register. -/
def get (cpu : Cpu) : Register → UInt8
  | .a => cpu.a
  | .b => cpu.b
  | .c => cpu.c
  | .d => cpu.d
  | .e => cpu.e
  | .h => cpu.h
  | .l => cpu.l

/-- Puts a byte into a register. -/
def set (cpu : Cpu) (r : Register) (v : UInt8) : Cpu :=
  match r with
  | .a => { cpu with a := v }
  | .b => { cpu with b := v }
  | .c => { cpu with c := v }
  | .d => { cpu with d := v }
  | .e => { cpu with e := v }
  | .h => { cpu with h := v }
  | .l => { cpu with l := v }

/-- The word in a register pair, the first register in its high byte. -/
def getPair (cpu : Cpu) : Pair → UInt16
  | .af => Word.join cpu.a cpu.f.pack
  | .bc => Word.join cpu.b cpu.c
  | .de => Word.join cpu.d cpu.e
  | .hl => Word.join cpu.h cpu.l
  | .sp => cpu.sp

/-- Puts a word into a register pair. F takes only the bits that it has. -/
def setPair (cpu : Cpu) (p : Pair) (w : UInt16) : Cpu :=
  match p with
  | .af => { cpu with a := Word.high w, f := .unpack (Word.low w) }
  | .bc => { cpu with b := Word.high w, c := Word.low w }
  | .de => { cpu with d := Word.high w, e := Word.low w }
  | .hl => { cpu with h := Word.high w, l := Word.low w }
  | .sp => { cpu with sp := w }

@[simp] theorem get_set (cpu : Cpu) (r : Register) (v : UInt8) : (cpu.set r v).get r = v := by
  cases r <;> rfl

/-- A pair holds the word that was put into it; only F cannot hold every byte. -/
theorem getPair_setPair (cpu : Cpu) {p : Pair} (notFlags : p ≠ .af) (w : UInt16) :
    (cpu.setPair p w).getPair p = w := by
  cases p <;> simp_all [setPair, getPair]

end Cpu

end GameBoy
