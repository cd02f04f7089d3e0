/-!
Lower-case hexadecimal text.
-/

namespace GameBoy.Text.Hex

/-- The lowest `width` hexadecimal digits of a number, most significant first. -/
def digits : Nat → Nat → List Char
  | 0, _ => []
  | width + 1, n => digits width (n / 16) ++ [Nat.digitChar (n % 16)]

/-- A byte as two digits. -/
def byte (b : UInt8) : String := String.ofList (digits 2 b.toNat)

/-- A word as four digits. -/
def word (w : UInt16) : String := String.ofList (digits 4 w.toNat)

/-- A number in as few digits as it needs. -/
def number (n : Nat) : String := String.ofList (Nat.toDigits 16 n)

@[simp] theorem length_digits (width n : Nat) : (digits width n).length = width := by
  induction width generalizing n with
  | zero => rfl
  | succ width ih => simp [digits, ih]

end GameBoy.Text.Hex
