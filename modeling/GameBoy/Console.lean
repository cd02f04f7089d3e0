import GameBoy.Cartridge.Header
import GameBoy.Fault
import GameBoy.Interrupt

/-!
A console: hardware with a cartridge in its slot. This module holds what the cartridge's chips do
with the windows that belong to them.
-/

namespace GameBoy

/-- Hardware, the inserted cartridge, and the fault that waits to be reported. The cartridge and the
fault are no part of a snapshot. -/
structure Console where
  hw : Hardware
  cart : Cartridge
  fault : Option Fault := none
deriving Inhabited

namespace Console

/-- A console that has just been switched on with a cartridge in it. -/
def powerOn (cart : Cartridge) (model : Model) : Console := { hw := .powerOn cart model, cart }

/-- Records a fault. Only the first is kept until it is reported. -/
def raise (c : Console) (fault : Fault) : Console :=
  { c with fault := c.fault.or (some fault) }

def mapBanks (c : Console) (f : Banks → Banks) : Console :=
  { c with hw := { c.hw with banks := f c.hw.banks } }

def mapClock (c : Console) (f : Clock → Clock) : Console :=
  { c with hw := { c.hw with clock := f c.hw.clock } }

/-- Where an address of the ROM windows lies in the image. Sums wrap at 64 bits. -/
def romIndex (c : Console) (address : UInt16) : Nat :=
  if address.toNat < romBankSize then (c.hw.banks.rom0Offset + address.toUInt64).toNat
  else (c.hw.banks.rom1Offset + UInt64.ofNat (address.toNat - romBankSize)).toNat

/-- Reads the ROM windows. -/
def readRom (c : Console) (address : UInt16) : UInt8 := c.cart.image.read (c.romIndex address)

/-- The part of the cartridge that answers in the RAM window. -/
inductive RamTarget
  | closed
  | nibble (index : Nat)
  | clock (register : Nat)
  | cell (index : Nat)
deriving DecidableEq

/-- What answers at an offset into the RAM window. The RAM inside an MBC2 repeats throughout the
window; an MBC3 can show a register of its clock in place of RAM. -/
def ramTarget (c : Console) (offset : Nat) : RamTarget :=
  let banks := c.hw.banks
  if !banks.ramEnabled then .closed
  else if c.cart.controller = .mbc2 then .nibble (offset % Header.mbc2RamSize)
  else if c.cart.controller = .mbc3 ∧ 8 ≤ banks.ramSelect then
    .clock (banks.ramSelect.toNat - 8)
  else .cell (banks.ramOffset + UInt64.ofNat offset).toNat

/-- Reads cartridge RAM. The high half of a byte from an MBC2 does not exist and reads as ones. -/
def readRam (c : Console) (offset : Nat) : UInt8 :=
  match c.ramTarget offset with
  | .closed => openBus
  | .nibble index => 0xF0 ||| c.hw.cartRam.read index
  | .clock register => c.hw.clock.readRegister register
  | .cell index => c.hw.cartRam.read index

/-- Stores a byte of cartridge RAM; battery-backed RAM is now dirty. -/
def storeRam (c : Console) (index : Nat) (v : UInt8) : Console :=
  { c with
    hw :=
      { c.hw with
        cartRam := c.hw.cartRam.write index v
        batteryDirty := c.hw.batteryDirty || c.hw.hasBattery } }

/-- Writes cartridge RAM. A cell beyond its end stores nothing. -/
def writeRam (c : Console) (offset : Nat) (v : UInt8) : Console :=
  match c.ramTarget offset with
  | .closed => c
  | .nibble index => c.storeRam index (v % 16)
  | .clock register => c.mapClock (·.writeRegister register v)
  | .cell index => if index < c.hw.cartRam.size then c.storeRam index v else c

/-- The RAM select latch of an MBC3 takes a RAM bank or a clock register; anything else faults. -/
def mbc3Select (c : Console) (v : UInt8) : Console :=
  if v < 0x08 then
    c.mapBanks fun b => { b with ramSelect := v }.selectRam c.hw.ramBanks v.toNat
  else if v ≤ 0x0C then c.mapBanks fun b => { b with ramSelect := v }
  else c.raise (.invalidRamSelect v)

/-- A write to the ROM windows never reaches ROM: it is a command to the controller. -/
def writeRom (c : Console) (address : UInt16) (v : UInt8) : Console :=
  let romBanks := c.hw.romBanks.toNat
  match c.cart.controller with
  | .fixed => c
  | .mbc1 => c.mapBanks (·.mbc1Write romBanks c.hw.ramBanks address v)
  | .mbc2 => c.mapBanks (·.mbc2Write romBanks address v)
  | .mbc3 =>
    if address < 0x4000 then c.mapBanks (·.mbc3Write romBanks address v)
    else if address < 0x6000 then c.mbc3Select v
    else c.mapClock (·.latch v)
  | .mbc5 => c.mapBanks (·.mbc5Write romBanks c.hw.ramBanks address v)

/-- One base clock tick of the cartridge, which matters only to a clock on it. -/
def tickCartridge (c : Console) : Console :=
  if c.cart.controller = .mbc3 ∧ c.hw.hasClock then c.mapClock (·.tick) else c

/-- Puts a saved copy back into cartridge RAM, as far as both reach. -/
def loadBattery (c : Console) (saved : Memory) : Console :=
  { c with hw := { c.hw with cartRam := c.hw.cartRam.overlay saved } }

end Console

end GameBoy
