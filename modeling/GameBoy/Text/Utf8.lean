/-!
Where a sequence of bytes stops being UTF-8 text.
-/

namespace GameBoy.Text.Utf8

/-- The place where bytes stop being text. `length` is the number of bytes that cannot begin a
character together with what follows them; there is none if the bytes end within a character. -/
structure Fault where
  index : Nat
  length : Option Nat
deriving DecidableEq, Inhabited

def Fault.message : Fault → String
  | { index, length := some n } =>
    "invalid utf-8 sequence of " ++ toString n ++ " bytes from index " ++ toString index
  | { index, length := none } => "incomplete utf-8 byte sequence from index " ++ toString index

/-- What a character's first byte says: how many bytes follow it, and the range of the next one. -/
structure Lead where
  tails : Nat
  low : UInt8 := 0x80
  high : UInt8 := 0xBF

/-- The ranges after some first bytes leave out long forms of short characters, surrogates, and
numbers beyond the last character. -/
def lead? (b : UInt8) : Option Lead :=
  if b < 0x80 then some { tails := 0 }
  else if 0xC2 ≤ b ∧ b ≤ 0xDF then some { tails := 1 }
  else if b = 0xE0 then some { tails := 2, low := 0xA0 }
  else if b = 0xED then some { tails := 2, high := 0x9F }
  else if 0xE1 ≤ b ∧ b ≤ 0xEF then some { tails := 2 }
  else if b = 0xF0 then some { tails := 3, low := 0x90 }
  else if 0xF1 ≤ b ∧ b ≤ 0xF3 then some { tails := 3 }
  else if b = 0xF4 then some { tails := 3, high := 0x8F }
  else none

/-- Scans bytes. `index` is where the current character begins, `seen` how many of its bytes have
been read, and `owed` what its next byte must be like. -/
def scan (index seen : Nat) (owed : Lead) : List UInt8 → Option Fault
  | [] => if owed.tails = 0 then none else some { index, length := none }
  | b :: rest =>
    if owed.tails = 0 then
      match lead? b with
      | none => some { index := index + seen, length := some 1 }
      | some lead => scan (index + seen) 1 lead rest
    else if owed.low ≤ b ∧ b ≤ owed.high then
      scan index (seen + 1) { tails := owed.tails - 1 } rest
    else some { index, length := some seen }

/-- The first place where bytes stop being text. -/
def fault? (bytes : List UInt8) : Option Fault := scan 0 0 { tails := 0 } bytes

end GameBoy.Text.Utf8
