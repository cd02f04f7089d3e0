import GameBoy.Cartridge
import GameBoy.Text.Hex

/-!
Reading a cartridge from its image. The header says which controller is on the cartridge, how many
ROM banks it carries, how much RAM, and whether that RAM is battery backed.
-/

namespace GameBoy

/-- Why an image is refused. -/
inductive LoadError
  | headerTooShort (size : Nat)
  | unsupportedType (code : UInt8)
  | invalidRomSize (code : UInt8)
  | invalidRamSize (code : UInt8)
  | truncated (expected actual : Nat)
deriving DecidableEq

def LoadError.message : LoadError → String
  | .headerTooShort size =>
    "ROM is only " ++ toString size ++ " bytes, too short to contain a cartridge header"
  | .unsupportedType code => "unsupported cartridge type $" ++ Text.Hex.byte code
  | .invalidRomSize code => "unsupported ROM size code $" ++ Text.Hex.byte code
  | .invalidRamSize code => "unsupported RAM size code $" ++ Text.Hex.byte code
  | .truncated expected actual =>
    "ROM header declares " ++ toString expected ++ " bytes but image is " ++ toString actual ++
      " bytes"

namespace Header

/-- The first address after the header. -/
def size : Nat := 0x150

def colorSupport (image : Memory) : ColorSupport :=
  let flag := image.read 0x143
  if flag = 0x80 then .compatible else if flag = 0xC0 then .required else .none

/-- The title's bytes. A header that knows the color model uses the last of them as its flag. -/
def titleBytes (image : Memory) : List UInt8 :=
  let room := if colorSupport image = .none then 16 else 15
  (image.slice 0x134 room).toList.takeWhile (· ≠ 0)

/-- The title up to its first zero byte, if that is text. -/
def title (image : Memory) : String :=
  (String.fromUTF8? ⟨(titleBytes image).toArray⟩).getD "UNKNOWN"

def controller? (code : UInt8) : Option Controller :=
  if code = 0x00 ∨ code = 0x08 ∨ code = 0x09 then some .fixed
  else if 0x01 ≤ code ∧ code ≤ 0x03 then some .mbc1
  else if code = 0x05 ∨ code = 0x06 then some .mbc2
  else if 0x0F ≤ code ∧ code ≤ 0x13 then some .mbc3
  else if 0x19 ≤ code ∧ code ≤ 0x1E then some .mbc5
  else none

/-- The cartridge types that keep their RAM alive without the console. -/
def batteryTypes : List UInt8 := [0x03, 0x06, 0x09, 0x0F, 0x10, 0x13, 0x1B, 0x1E]

/-- The cartridge types with a real-time clock. -/
def clockTypes : List UInt8 := [0x0F, 0x10]

def romBanks? (code : UInt8) : Option Nat :=
  if code ≤ 8 then some (2 <<< code.toNat)
  else if code = 0x52 then some 72
  else if code = 0x53 then some 80
  else if code = 0x54 then some 96
  else none

def ramSize? (code : UInt8) : Option Nat :=
  if code = 0 then some 0
  else if code = 1 then some 0x800
  else if code = 2 then some ramBankSize
  else if code = 3 then some (ramBankSize * 4)
  else if code = 4 then some (ramBankSize * 16)
  else if code = 5 then some (ramBankSize * 8)
  else none

/-- The MBC2 has RAM of its own, whatever the header says. -/
def mbc2RamSize : Nat := 0x200

end Header

namespace Cartridge

open Header

/-- The RAM on a cartridge with the given controller and size code. -/
def ramSizeFor? (controller : Controller) (code : UInt8) : Option Nat :=
  if controller = .mbc2 then some mbc2RamSize else ramSize? code

/-- Reads a cartridge from its image. A longer image than the header declares is accepted. -/
def ofImage (image : Memory) : Except LoadError Cartridge :=
  if image.size < Header.size then .error (.headerTooShort image.size) else
  let type := image.read 0x147
  let romCode := image.read 0x148
  let ramCode := image.read 0x149
  match controller? type with
  | none => .error (.unsupportedType type)
  | some controller =>
  match romBanks? romCode with
  | none => .error (.invalidRomSize romCode)
  | some romBanks =>
  match ramSizeFor? controller ramCode with
  | none => .error (.invalidRamSize ramCode)
  | some ramSize =>
  if image.size < romBanks * romBankSize then
    .error (.truncated (romBanks * romBankSize) image.size)
  else
    .ok
      { image
        title := Header.title image
        colorSupport := Header.colorSupport image
        controller
        hasBattery := batteryTypes.contains type
        hasClock := clockTypes.contains type
        romBanks
        ramSize
        checksum := (image.read 0x14E).toUInt16 * 256 + (image.read 0x14F).toUInt16 }

end Cartridge

end GameBoy
