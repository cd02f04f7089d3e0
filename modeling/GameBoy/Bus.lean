import GameBoy.Transfer.Engine

/-!
The bus: a console with the devices around it. Every address leads somewhere, so reads and writes
cannot fail. A display hides video RAM and sprite memory while it uses them, and a device can take
over single addresses; such an address stays the device's, hidden or not.
-/

namespace GameBoy

namespace Console

/-- Writes an I/O register. -/
def writeIo (c : Console) (address : UInt16) (v : UInt8) : Console :=
  let hw := c.hw
  match IoRegister.ofAddress hw.isColor address with
  | .div => { c with hw := { hw with timer := hw.timer.resetDiv } }
  | .tima => { c with hw := { hw with timer := hw.timer.writeTima v } }
  | .tma => { c with hw := { hw with timer := hw.timer.writeTma v } }
  | .tac => { c with hw := { hw with timer := hw.timer.writeTac v } }
  | .interruptFlag => { c with hw := hw.setRequested (v % 0x20) }
  | .oamDma => { c with hw := { hw with oamDma := .start v } }
  | .speed => { c with hw := { hw with io := hw.io.write Io.speed (v % 2) } }
  | .vramBank => { c with hw := { hw with io := hw.io.write Io.vramBank (v % 2) } }
  | .vramSourceHigh => c.mapVramDma (·.writeSourceHigh v)
  | .vramSourceLow => c.mapVramDma (·.writeSourceLow v)
  | .vramDestinationHigh => c.mapVramDma (·.writeDestinationHigh v)
  | .vramDestinationLow => c.mapVramDma (·.writeDestinationLow v)
  | .vramControl => c.writeVramControl v
  | .wramBank => { c with hw := { hw with io := hw.io.write Io.wramBank (v % 8) } }
  | .plain => { c with hw := { hw with io := hw.io.write (ioIndex address) v } }

/-- Writes an address as part of a region. Sprite memory cannot be written while a transfer writes
it. -/
def writeRegion (c : Console) (region : Region) (address : UInt16) (v : UInt8) : Console :=
  match region with
  | .rom => c.writeRom address v
  | .vram =>
    { c with hw := { c.hw with vram := c.hw.vram.write (c.hw.vramIndex address) v } }
  | .cartRam => c.writeRam (address.toNat % ramBankSize) v
  | .wramFixed =>
    { c with hw := { c.hw with wram := c.hw.wram.write (address.toNat % wramBankSize) v } }
  | .wramBanked =>
    { c with hw := { c.hw with wram := c.hw.wram.write (c.hw.wramIndex address) v } }
  | .oam =>
    if c.hw.oamDma.active then c
    else { c with hw := { c.hw with oam := c.hw.oam.write (address.toNat - 0xFE00) v } }
  | .unusable => c
  | .io => c.writeIo address v
  | .hram => { c with hw := { c.hw with hram := c.hw.hram.write (address.toNat - 0xFF80) v } }
  | .interruptEnable => { c with hw := { c.hw with ie := v } }

end Console

/-- What a device does when an address that it has taken over is read or written. All devices share
one state of type `σ`. A read cannot change the console. -/
structure Handler (σ : Type) where
  read : Console → UInt16 → σ → UInt8 × σ
  write : Console → UInt16 → UInt8 → σ → Console × σ

/-- Where an access of an address goes. -/
inductive Route (σ : Type)
  | memory (region : Region)
  | hidden
  | handler (handler : Handler σ)

/-- A console on its bus. `vramVisible` and `oamVisible` say whether the bus leads to video RAM and
to sprite memory; `handlers` holds the addresses taken over, the latest first. -/
structure Machine (σ : Type) where
  console : Console
  vramVisible : Bool := true
  oamVisible : Bool := true
  handlers : List (UInt16 × Handler σ) := []
  devices : σ

namespace Machine

/-- A console that has just been switched on with a cartridge in it, on the model asked for or the
one that the cartridge prefers. -/
def powerOn (cart : Cartridge) (model : Option Model) (devices : σ) : Machine σ :=
  { console := .powerOn cart (model.getD cart.colorSupport.preferred), devices }

/-- Changes the console and leaves the bus as it is. -/
def mapConsole (m : Machine σ) (f : Console → Console) : Machine σ :=
  { m with console := f m.console }

/-- Changes the hardware and leaves the bus as it is. -/
def mapHardware (m : Machine σ) (f : Hardware → Hardware) : Machine σ :=
  { m with console := { m.console with hw := f m.console.hw } }

/-- Lets a device take over an address. -/
def attach (m : Machine σ) (address : UInt16) (handler : Handler σ) : Machine σ :=
  { m with handlers := (address, handler) :: m.handlers }

/-- Whether the bus leads to a region at all. -/
def shows (m : Machine σ) (region : Region) : Bool :=
  match region with
  | .vram => m.vramVisible
  | .oam => m.oamVisible
  | _ => true

/-- Where an address leads. A handler goes before everything else. -/
def route (m : Machine σ) (address : UInt16) : Route σ :=
  match m.handlers.lookup address with
  | some handler => .handler handler
  | none =>
    let region := Region.ofAddress address
    if m.shows region then .memory region else .hidden

/-- Reads an address. -/
def read (m : Machine σ) (address : UInt16) : UInt8 × Machine σ :=
  match m.route address with
  | .memory region => (m.console.readRegion region address, m)
  | .hidden => (openBus, m)
  | .handler handler =>
    let (v, devices) := handler.read m.console address m.devices
    (v, { m with devices })

/-- Writes an address. -/
def write (m : Machine σ) (address : UInt16) (v : UInt8) : Machine σ :=
  match m.route address with
  | .memory region => m.mapConsole (·.writeRegion region address v)
  | .hidden => m
  | .handler handler =>
    let (console, devices) := handler.write m.console address v m.devices
    { m with console, devices }

/-- The display begins or ends its use of video RAM. -/
def setVramAccessible (m : Machine σ) (accessible : Bool) : Machine σ :=
  { m.mapHardware fun hw => { hw with vramAccessible := accessible } with
    vramVisible := accessible }

/-- The display begins or ends its use of sprite memory. -/
def setOamAccessible (m : Machine σ) (accessible : Bool) : Machine σ :=
  { m.mapHardware fun hw => { hw with oamAccessible := accessible } with
    oamVisible := accessible }

/-- Makes the bus agree with what the hardware says is accessible. -/
def sync (m : Machine σ) : Machine σ :=
  { m with
    vramVisible := m.console.hw.vramAccessible
    oamVisible := m.console.hw.oamAccessible }

end Machine

end GameBoy
