import GameBoy.Console

/-!
The memory map: which part of the console answers at each address, and what it answers when nothing
is hidden and no device has taken the address over. Transfers read memory this way.
-/

namespace GameBoy

/-- The parts of the address space. Work RAM appears a second time at 0xE000, without its last
pages. -/
inductive Region
  | rom
  | vram
  | cartRam
  | wramFixed
  | wramBanked
  | oam
  | unusable
  | io
  | hram
  | interruptEnable
deriving DecidableEq, Inhabited

/-- The part that an address belongs to. -/
def Region.ofAddress (address : UInt16) : Region :=
  if address < 0x8000 then .rom
  else if address < 0xA000 then .vram
  else if address < 0xC000 then .cartRam
  else if address < 0xD000 then .wramFixed
  else if address < 0xE000 then .wramBanked
  else if address < 0xF000 then .wramFixed
  else if address < 0xFE00 then .wramBanked
  else if address < 0xFEA0 then .oam
  else if address < 0xFF00 then .unusable
  else if address < 0xFF80 then .io
  else if address < 0xFFFF then .hram
  else .interruptEnable

/-- Where the addresses of a region lie. -/
def Region.Spans (region : Region) (address : UInt16) : Prop :=
  match region with
  | .rom => address.toNat < 0x8000
  | .vram => 0x8000 ≤ address.toNat ∧ address.toNat < 0xA000
  | .cartRam => 0xA000 ≤ address.toNat ∧ address.toNat < 0xC000
  | .wramFixed | .wramBanked => 0xC000 ≤ address.toNat ∧ address.toNat < 0xFE00
  | .oam => 0xFE00 ≤ address.toNat ∧ address.toNat < 0xFEA0
  | .unusable => 0xFEA0 ≤ address.toNat ∧ address.toNat < 0xFF00
  | .io => 0xFF00 ≤ address.toNat ∧ address.toNat < 0xFF80
  | .hram => 0xFF80 ≤ address.toNat ∧ address.toNat < 0xFFFF
  | .interruptEnable => address.toNat = 0xFFFF

private theorem Region.spans_ite [Decidable p] {first second : Region}
    (yes : p → first.Spans address) (no : ¬p → second.Spans address) :
    (if p then first else second).Spans address := by
  split
  · exact yes ‹p›
  · exact no ‹¬p›

theorem Region.spans_ofAddress (address : UInt16) : (Region.ofAddress address).Spans address := by
  have bound := address.toNat_lt
  unfold ofAddress
  simp only [UInt16.lt_iff_toNat_lt, UInt16.reduceToNat]
  repeat' refine Region.spans_ite (fun below => ?_) fun above => ?_
  all_goals
    simp only [Spans]
    omega

instance : (region : Region) → Decidable (region.Spans address)
  | .rom => inferInstanceAs (Decidable (_ < _))
  | .vram | .cartRam | .wramFixed | .wramBanked | .oam | .unusable | .io | .hram =>
    inferInstanceAs (Decidable (_ ∧ _))
  | .interruptEnable => inferInstanceAs (Decidable (_ = _))

theorem Region.spans_vram_iff :
    Region.vram.Spans address ↔ 0x8000 ≤ address ∧ address ≤ 0x9FFF := by
  simp only [Spans, UInt16.le_iff_toNat_le, UInt16.reduceToNat]
  omega

theorem Region.spans_oam_iff :
    Region.oam.Spans address ↔ 0xFE00 ≤ address ∧ address ≤ 0xFE9F := by
  simp only [Spans, UInt16.le_iff_toNat_le, UInt16.reduceToNat]
  omega

/-- Nothing but video RAM lies where video RAM does. -/
theorem Region.ofAddress_vram (inside : Region.vram.Spans address) : ofAddress address = .vram := by
  have spans := spans_ofAddress address
  generalize ofAddress address = region at spans
  cases region with
  | vram => rfl
  | _ =>
    simp only [Spans] at inside spans
    omega

/-- Nothing but sprite memory lies where sprite memory does. -/
theorem Region.ofAddress_oam (inside : Region.oam.Spans address) : ofAddress address = .oam := by
  have spans := spans_ofAddress address
  generalize ofAddress address = region at spans
  cases region with
  | oam => rfl
  | _ =>
    simp only [Spans] at inside spans
    omega

/-- The I/O registers with a meaning of their own; every other one is a plain byte. -/
inductive IoRegister
  | div
  | tima
  | tma
  | tac
  | interruptFlag
  | oamDma
  | speed
  | vramBank
  | vramSourceHigh
  | vramSourceLow
  | vramDestinationHigh
  | vramDestinationLow
  | vramControl
  | wramBank
  | plain
deriving DecidableEq, Inhabited

/-- The I/O register at an address. Those of the color model are plain bytes on the other one. -/
def IoRegister.ofAddress (color : Bool) (address : UInt16) : IoRegister :=
  if address = 0xFF04 then .div
  else if address = 0xFF05 then .tima
  else if address = 0xFF06 then .tma
  else if address = 0xFF07 then .tac
  else if address = 0xFF0F then .interruptFlag
  else if address = 0xFF46 then .oamDma
  else if !color then .plain
  else if address = 0xFF4D then .speed
  else if address = 0xFF4F then .vramBank
  else if address = 0xFF51 then .vramSourceHigh
  else if address = 0xFF52 then .vramSourceLow
  else if address = 0xFF53 then .vramDestinationHigh
  else if address = 0xFF54 then .vramDestinationLow
  else if address = 0xFF55 then .vramControl
  else if address = 0xFF70 then .wramBank
  else .plain

/-- Where an address of the I/O region lies in I/O memory. -/
def ioIndex (address : UInt16) : Nat := address.toNat % 0x80

namespace Hardware

/-- Where an address of the video RAM window lies in video RAM. -/
def vramIndex (hw : Hardware) (address : UInt16) : Nat :=
  hw.vramOffset + address.toNat % vramBankSize

/-- Where an address of the switchable work RAM window lies in work RAM. -/
def wramIndex (hw : Hardware) (address : UInt16) : Nat :=
  hw.wramOffset + address.toNat % wramBankSize

/-- Reads an I/O register. Bits that do not exist read as one. -/
def readIo (hw : Hardware) (address : UInt16) : UInt8 :=
  match IoRegister.ofAddress hw.isColor address with
  | .div => hw.timer.readDiv
  | .tima => hw.timer.tima
  | .tma => hw.timer.tma
  | .tac => hw.timer.readTac
  | .interruptFlag => 0xE0 ||| hw.requested
  | .oamDma => hw.oamDma.register
  | .speed => (if hw.doubleSpeed then 0xFE else 0x7E) ||| hw.io.read Io.speed
  | .vramBank => 0xFE ||| hw.io.read Io.vramBank
  | .vramSourceHigh | .vramSourceLow | .vramDestinationHigh | .vramDestinationLow => openBus
  | .vramControl => hw.vramDma.readControl
  | .wramBank => 0xF8 ||| hw.io.read Io.wramBank
  | .plain => hw.io.read (ioIndex address)

end Hardware

namespace Console

/-- Reads an address as part of a region. Sprite memory cannot be read while a transfer writes
it. -/
def readRegion (c : Console) (region : Region) (address : UInt16) : UInt8 :=
  match region with
  | .rom => c.readRom address
  | .vram => c.hw.vram.read (c.hw.vramIndex address)
  | .cartRam => c.readRam (address.toNat % ramBankSize)
  | .wramFixed => c.hw.wram.read (address.toNat % wramBankSize)
  | .wramBanked => c.hw.wram.read (c.hw.wramIndex address)
  | .oam => if c.hw.oamDma.active then openBus else c.hw.oam.read (address.toNat - 0xFE00)
  | .unusable => openBus
  | .io => c.hw.readIo address
  | .hram => c.hw.hram.read (address.toNat - 0xFF80)
  | .interruptEnable => c.hw.ie

/-- The byte at an address as the memory is wired, which is what a transfer reads. -/
def wired (c : Console) (address : UInt16) : UInt8 :=
  c.readRegion (.ofAddress address) address

end Console

end GameBoy
