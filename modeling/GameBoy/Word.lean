/-!
Sixteen-bit words as pairs of bytes. Main statements: `high_join`, `low_join` and `join_high_low`
say that joining two bytes and splitting a word undo each other.
-/

namespace GameBoy.Word

/-- The word made of a high and a low byte. -/
def join (high low : UInt8) : UInt16 := high.toUInt16 * 256 + low.toUInt16

/-- The high byte of a word. -/
def high (w : UInt16) : UInt8 := (w / 256).toUInt8

/-- The low byte of a word. -/
def low (w : UInt16) : UInt8 := w.toUInt8

/-- A byte read as a two's complement number, widened to a word. -/
def signExtend (b : UInt8) : UInt16 :=
  if b < 0x80 then b.toUInt16 else b.toUInt16 + 0xFF00

theorem toNat_join (h l : UInt8) : (join h l).toNat = h.toNat * 256 + l.toNat := by
  have hh := h.toNat_lt
  have hl := l.toNat_lt
  simp only [join, UInt16.toNat_add, UInt16.toNat_mul, UInt8.toNat_toUInt16, UInt16.reduceToNat]
  omega

theorem toNat_high (w : UInt16) : (high w).toNat = w.toNat / 256 := by
  have hw := w.toNat_lt
  simp only [high, UInt16.toNat_toUInt8, UInt16.toNat_div, UInt16.reduceToNat]
  omega

theorem toNat_low (w : UInt16) : (low w).toNat = w.toNat % 256 := by
  simp [low]

@[simp] theorem high_join (h l : UInt8) : high (join h l) = h := by
  have hl := l.toNat_lt
  apply UInt8.toNat.inj
  rw [toNat_high, toNat_join]
  omega

@[simp] theorem low_join (h l : UInt8) : low (join h l) = l := by
  have hl := l.toNat_lt
  apply UInt8.toNat.inj
  rw [toNat_low, toNat_join]
  omega

@[simp] theorem join_high_low (w : UInt16) : join (high w) (low w) = w := by
  apply UInt16.toNat.inj
  rw [toNat_join, toNat_high, toNat_low]
  omega

end GameBoy.Word
