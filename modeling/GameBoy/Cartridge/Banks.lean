import GameBoy.Cartridge

/-!
Bank selection. A controller's writes set select latches, and the latches resolve to the offsets
at which ROM and cartridge RAM appear in their windows.
-/

namespace GameBoy

/-- The select latches of a controller and the offsets that they resolve to. -/
structure Banks where
  rom0Offset : UInt64 := 0
  rom1Offset : UInt64 := 0
  ramOffset : UInt64 := 0
  romSelectLow : UInt8 := 0
  romSelectHigh : UInt8 := 0
  ramSelect : UInt8 := 0
  mode : Bool := false
  ramEnabled : Bool := false
deriving DecidableEq, Inhabited

namespace Banks

/-- The offset of a ROM bank; bank numbers wrap around the number of banks. -/
def romOffsetOf (romBanks bank : Nat) : UInt64 := UInt64.ofNat (bank % romBanks * romBankSize)

/-- The offset of a RAM bank; RAM smaller than a bank counts as one. -/
def ramOffsetOf (ramBanks bank : Nat) : UInt64 :=
  UInt64.ofNat (bank % max ramBanks 1 * ramBankSize)

def selectRom (b : Banks) (romBanks bank : Nat) : Banks :=
  { b with rom1Offset := romOffsetOf romBanks bank }

def selectRam (b : Banks) (ramBanks bank : Nat) : Banks :=
  { b with ramOffset := ramOffsetOf ramBanks bank }

/-- RAM answers only after ten has been written to the low half of the enable latch. -/
def enableRam (b : Banks) (v : UInt8) : Banks := { b with ramEnabled := v % 16 = 0x0A }

/-- The bank that an MBC1 shows in the upper window. Zero cannot be selected there, and only the
low latch is looked at, so banks 0x20, 0x40 and 0x60 cannot be selected either. -/
def mbc1Bank (b : Banks) : Nat :=
  (b.romSelectHigh.toNat * 32) ||| max b.romSelectLow.toNat 1

/-- Resolves the latches of an MBC1. In its second mode the high latch applies to the lower ROM
window and to RAM as well. -/
def mbc1Resolve (b : Banks) (romBanks ramBanks : Nat) : Banks :=
  let high := if b.mode then b.romSelectHigh.toNat else 0
  { b with
    rom0Offset := romOffsetOf romBanks (high * 32)
    rom1Offset := romOffsetOf romBanks b.mbc1Bank
    ramOffset := ramOffsetOf ramBanks high }

def mbc1Latch (b : Banks) (address : UInt16) (v : UInt8) : Banks :=
  if address < 0x2000 then b.enableRam v
  else if address < 0x4000 then { b with romSelectLow := v % 32 }
  else if address < 0x6000 then { b with romSelectHigh := v % 4 }
  else { b with mode := v % 2 = 1 }

def mbc1Write (b : Banks) (romBanks ramBanks : Nat) (address : UInt16) (v : UInt8) : Banks :=
  (b.mbc1Latch address v).mbc1Resolve romBanks ramBanks

/-- Bit 8 of the address decides which of an MBC2's two latches is written. -/
def mbc2Write (b : Banks) (romBanks : Nat) (address : UInt16) (v : UInt8) : Banks :=
  if 0x4000 ≤ address then b
  else if address / 0x100 % 2 = 0 then b.enableRam v
  else
    let bank := max (v % 16) 1
    { b with romSelectLow := bank }.selectRom romBanks bank.toNat

/-- The writes to an MBC3 below 0x4000. -/
def mbc3Write (b : Banks) (romBanks : Nat) (address : UInt16) (v : UInt8) : Banks :=
  if address < 0x2000 then b.enableRam v
  else
    let bank := max (v % 128) 1
    { b with romSelectLow := bank }.selectRom romBanks bank.toNat

/-- The bank that an MBC5 shows in the upper window. Bank zero can be selected. -/
def mbc5Bank (b : Banks) : Nat := b.romSelectHigh.toNat * 256 + b.romSelectLow.toNat

def mbc5Write (b : Banks) (romBanks ramBanks : Nat) (address : UInt16) (v : UInt8) : Banks :=
  if address < 0x2000 then (b.enableRam v).selectRom romBanks b.mbc5Bank
  else if address < 0x3000 then
    let b := { b with romSelectLow := v }
    b.selectRom romBanks b.mbc5Bank
  else if address < 0x4000 then
    let b := { b with romSelectHigh := v % 2 }
    b.selectRom romBanks b.mbc5Bank
  else if address < 0x6000 then
    { b with ramSelect := v % 16 }.selectRam ramBanks (v % 16).toNat
  else b

end Banks

end GameBoy
