import GameBoy.Memory
import GameBoy.Text.Hex
import GameBoy.Text.Utf8

/-!
Layouts of values in bytes. Numbers have a fixed width and their lowest byte first; blobs and texts
are preceded by their length in eight bytes. A layout reads a value from the front of a list of
bytes and leaves the rest.
-/

namespace GameBoy

/-- Why bytes are not what a layout says. -/
inductive Damage
  | endOfInput
  | shortBlob
  | badBool (found : UInt8)
  | badVariant (found : UInt32)
  | blobSize (expected actual : Nat)
  | badText (fault : Text.Utf8.Fault)
deriving DecidableEq

def Damage.message : Damage → String
  | .endOfInput => "io error: unexpected end of file"
  | .shortBlob => "io error: "
  | .badBool found =>
    "invalid u8 while decoding bool, expected 0 or 1, found " ++ toString found.toNat
  | .badVariant found =>
    "invalid value: integer `" ++ toString found.toNat ++ "`, expected variant index 0 <= i < 2"
  | .blobSize expected actual =>
    "expected byte array of " ++ Text.Hex.number expected ++ ", but this is " ++
      Text.Hex.number actual
  | .badText fault => "string is not valid utf8: " ++ fault.message

/-- How values of a type are written as bytes, and read back. -/
structure Layout (α : Type) where
  write : α → List UInt8
  read : List UInt8 → Except Damage (α × List UInt8)

namespace Layout

/-- A number in the given number of bytes. -/
def writeNumber : Nat → Nat → List UInt8
  | 0, _ => []
  | width + 1, n => UInt8.ofNat n :: writeNumber width (n / 256)

/-- Reads a number from the given number of bytes. -/
def readNumber : Nat → List UInt8 → Except Damage (Nat × List UInt8)
  | 0, bytes => .ok (0, bytes)
  | _ + 1, [] => .error .endOfInput
  | width + 1, b :: bytes =>
    match readNumber width bytes with
    | .error damage => .error damage
    | .ok (n, rest) => .ok (b.toNat + 256 * n, rest)

/-- A value that is written as a number of fixed width. -/
def number (width : Nat) (toNat : α → Nat) (ofNat : Nat → α) : Layout α where
  write a := writeNumber width (toNat a)
  read bytes :=
    match readNumber width bytes with
    | .error damage => .error damage
    | .ok (n, rest) => .ok (ofNat n, rest)

def uint8 : Layout UInt8 := number 1 UInt8.toNat UInt8.ofNat

def uint16 : Layout UInt16 := number 2 UInt16.toNat UInt16.ofNat

def uint32 : Layout UInt32 := number 4 UInt32.toNat UInt32.ofNat

def uint64 : Layout UInt64 := number 8 UInt64.toNat UInt64.ofNat

/-- Two values, one after the other. -/
def pair (first : Layout α) (second : Layout β) : Layout (α × β) where
  write := fun (a, b) => first.write a ++ second.write b
  read bytes :=
    match first.read bytes with
    | .error damage => .error damage
    | .ok (a, rest) =>
      match second.read rest with
      | .error damage => .error damage
      | .ok (b, rest) => .ok ((a, b), rest)

/-- A layout for a type whose values stand for those of another. -/
def convert (l : Layout α) (get : β → α) (make : α → β) : Layout β where
  write b := l.write (get b)
  read bytes :=
    match l.read bytes with
    | .error damage => .error damage
    | .ok (a, rest) => .ok (make a, rest)

/-- A layout for those values that pass a test. -/
def refine (l : Layout α) (get : β → α) (make : α → Except Damage β) : Layout β where
  write b := l.write (get b)
  read bytes :=
    match l.read bytes with
    | .error damage => .error damage
    | .ok (a, rest) =>
      match make a with
      | .error damage => .error damage
      | .ok b => .ok (b, rest)

/-- A truth value is a byte that is zero or one. -/
def bool : Layout Bool :=
  uint8.refine Bool.toUInt8 fun b =>
    if b = 0 then .ok false else if b = 1 then .ok true else .error (.badBool b)

/-- Bytes, preceded by their number. -/
def blob : Layout (List UInt8) where
  write bytes := writeNumber 8 bytes.length ++ bytes
  read bytes :=
    match readNumber 8 bytes with
    | .error damage => .error damage
    | .ok (length, rest) =>
      if rest.length < length then .error .shortBlob
      else .ok (rest.take length, rest.drop length)

/-- A memory of any size is a blob. -/
def memory : Layout Memory := blob.convert Memory.toList Memory.ofList

/-- A memory of fixed size is written with its size all the same. -/
def segment (length : Nat) : Layout (Segment length) :=
  memory.refine Segment.memory fun m =>
    if size_eq : m.size = length then .ok { memory := m, size_eq }
    else .error (.blobSize length m.size)

/-- The damage of bytes that are no text. -/
def textDamage (bytes : List UInt8) : Damage :=
  .badText ((Text.Utf8.fault? bytes).getD { index := bytes.length, length := none })

/-- Text is a blob of UTF-8. -/
def text : Layout String :=
  blob.refine (fun s => s.toUTF8.data.toList) fun bytes =>
    match String.fromUTF8? ⟨bytes.toArray⟩ with
    | some s => .ok s
    | none => .error (textDamage bytes)

end Layout

end GameBoy
