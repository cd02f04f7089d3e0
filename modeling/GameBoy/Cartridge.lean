import GameBoy.Memory

/-!
Cartridges: a ROM image together with what its header says about the chips beside it.
-/

namespace GameBoy

/-- The size of one ROM bank, and of each of the two windows onto ROM. -/
def romBankSize : Nat := 0x4000

/-- The size of one cartridge RAM bank, and of the window onto cartridge RAM. -/
def ramBankSize : Nat := 0x2000

/-- The two generations of the console. The color model has more video and work RAM, block
transfers into video RAM, and a double-speed mode. -/
inductive Model
  | monochrome
  | color
deriving DecidableEq, Inhabited

/-- The chip that decides which banks of a cartridge are visible. A `fixed` cartridge has none. -/
inductive Controller
  | fixed
  | mbc1
  | mbc2
  | mbc3
  | mbc5
deriving DecidableEq, Inhabited

/-- What a header says about the color model. -/
inductive ColorSupport
  | none
  | compatible
  | required
deriving DecidableEq, Inhabited

/-- The model that a cartridge is played on when nobody picks another. -/
def ColorSupport.preferred : ColorSupport → Model
  | .none => .monochrome
  | .compatible | .required => .color

/-- A short fingerprint of a cartridge, which a snapshot carries in place of the ROM. -/
structure Identity where
  title : String
  checksum : UInt16
  romBanks : UInt32
deriving DecidableEq, Inhabited

/-- A cartridge: its image, and what the header in the image says. -/
structure Cartridge where
  image : Memory
  title : String
  colorSupport : ColorSupport
  controller : Controller
  hasBattery : Bool
  hasClock : Bool
  romBanks : Nat
  ramSize : Nat
  checksum : UInt16
deriving DecidableEq, Inhabited

namespace Cartridge

/-- The fingerprint of a cartridge. -/
def identity (c : Cartridge) : Identity :=
  { title := c.title, checksum := c.checksum, romBanks := UInt32.ofNat c.romBanks }

/-- One ROM bank; bank numbers wrap around the number of banks on the cartridge. -/
def bank (c : Cartridge) (number : Nat) : Memory :=
  c.image.slice (number % c.romBanks * romBankSize) romBankSize

end Cartridge

end GameBoy
