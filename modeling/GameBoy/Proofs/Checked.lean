import GameBoy.Schedule
import Mathlib.Algebra.Group.Nat.Defs

/-!
The machine with every index, sum, difference and modulus checked. A checked operation has no
result where an index lies outside its memory, where a number leaves the width it is kept in, or
where a bank number is divided by no banks at all. The operations of the machine itself wrap, and
read the open bus, in these places. The arithmetic on the processor's registers wraps by intent or
adds masked bits that cannot leave their width, so there is nothing to check in it.
-/

namespace GameBoy

/-- A number that has to fit into the given number of bits. -/
def fit? (width n : Nat) : Option Nat := if n < 2 ^ width then some n else none

/-- A difference that must not be negative. -/
def minus? (n k : Nat) : Option Nat := if k ≤ n then some (n - k) else none

/-- The byte at an address that has to exist. -/
def Memory.get? (m : Memory) (address : Nat) : Option UInt8 :=
  if address < m.size then some (m.read address) else none

/-- Stores a byte at an address that has to exist. -/
def Memory.set? (m : Memory) (address : Nat) (v : UInt8) : Option Memory :=
  if address < m.size then some (m.write address v) else none

def Segment.get? (s : Segment length) (address : Nat) : Option UInt8 :=
  if address < length then some (s.read address) else none

def Segment.set? (s : Segment length) (address : Nat) (v : UInt8) : Option (Segment length) :=
  if address < length then some (s.write address v) else none

theorem fit?_eq (fits : n < 2 ^ width) : fit? width n = some n := if_pos fits

theorem minus?_eq (less : k ≤ n) : minus? n k = some (n - k) := if_pos less

theorem Memory.get?_eq {m : Memory} (inside : address < m.size) :
    m.get? address = some (m.read address) := if_pos inside

theorem Memory.set?_eq {m : Memory} (inside : address < m.size) (v : UInt8) :
    m.set? address v = some (m.write address v) := if_pos inside

theorem Segment.get?_eq (s : Segment length) (inside : address < length) :
    s.get? address = some (s.read address) := if_pos inside

theorem Segment.set?_eq (s : Segment length) (inside : address < length) (v : UInt8) :
    s.set? address v = some (s.write address v) := if_pos inside

namespace ClockTime

def nextHour? (t : ClockTime) : Option ClockTime := do
  let hours ← fit? 8 (t.hours.toNat + 1)
  if hours % 32 = 24 then return { t with hours := 0 }.nextDay
  else return { t with hours := UInt8.ofNat (hours % 32) }

def nextMinute? (t : ClockTime) : Option ClockTime := do
  let minutes ← fit? 8 (t.minutes.toNat + 1)
  if minutes % 64 = 60 then nextHour? { t with minutes := 0 }
  else return { t with minutes := UInt8.ofNat (minutes % 64) }

def nextSecond? (t : ClockTime) : Option ClockTime := do
  let seconds ← fit? 8 (t.seconds.toNat + 1)
  if seconds % 64 = 60 then nextMinute? { t with seconds := 0 }
  else return { t with seconds := UInt8.ofNat (seconds % 64) }

end ClockTime

def Clock.tick? (c : Clock) : Option Clock :=
  if c.live.halted then some c
  else do
    let subsecond ← fit? 32 (c.subsecond.toNat + 1)
    if subsecond < Clock.ticksPerSecond.toNat then
      return { c with subsecond := UInt32.ofNat subsecond }
    else return { c with subsecond := 0, live := ← c.live.nextSecond? }

namespace Console

def romIndex? (c : Console) (address : UInt16) : Option Nat :=
  if address.toNat < romBankSize then fit? 64 (c.hw.banks.rom0Offset.toNat + address.toNat)
  else do minus? (← fit? 64 (c.hw.banks.rom1Offset.toNat + address.toNat)) romBankSize

def readRom? (c : Console) (address : UInt16) : Option UInt8 := do
  c.cart.image.get? (← c.romIndex? address)

/-- The clock has five registers. A cell beyond the end of cartridge RAM may be read. -/
def readRam? (c : Console) (offset : Nat) : Option UInt8 :=
  match c.ramTarget offset with
  | .closed => some openBus
  | .nibble index => do return 0xF0 ||| (← c.hw.cartRam.get? index)
  | .clock register => if register < 5 then some (c.hw.clock.readRegister register) else none
  | .cell _ => do return c.hw.cartRam.read (← fit? 64 (c.hw.banks.ramOffset.toNat + offset))

def writeRam? (c : Console) (offset : Nat) (v : UInt8) : Option Console :=
  match c.ramTarget offset with
  | .closed => some c
  | .nibble index => if index < c.hw.cartRam.size then some (c.storeRam index (v % 16)) else none
  | .clock register => some (c.mapClock (·.writeRegister register v))
  | .cell _ => do
    let index ← fit? 64 (c.hw.banks.ramOffset.toNat + offset)
    if index < c.hw.cartRam.size then return c.storeRam index v else return c

/-- Whether a command to the controller makes it take a bank number modulo the ROM banks. -/
def dividesByBanks (c : Console) (address : UInt16) : Bool :=
  match c.cart.controller with
  | .fixed => false
  | .mbc1 => true
  | .mbc2 => address < 0x4000 ∧ address / 0x100 % 2 ≠ 0
  | .mbc3 => 0x2000 ≤ address ∧ address < 0x4000
  | .mbc5 => address < 0x4000

def writeRom? (c : Console) (address : UInt16) (v : UInt8) : Option Console :=
  if c.dividesByBanks address ∧ c.hw.romBanks = 0 then none else some (c.writeRom address v)

def readRegion? (c : Console) (region : Region) (address : UInt16) : Option UInt8 :=
  match region with
  | .rom => c.readRom? address
  | .vram => do c.hw.vram.get? (c.hw.vramOffset + (← minus? address.toNat 0x8000))
  | .cartRam => do c.readRam? (← minus? address.toNat 0xA000)
  | .wramFixed => c.hw.wram.get? (address.toNat % wramBankSize)
  | .wramBanked => c.hw.wram.get? (c.hw.wramOffset + address.toNat % wramBankSize)
  | .oam =>
    if c.hw.oamDma.active then some openBus
    else do c.hw.oam.get? (← minus? address.toNat 0xFE00)
  | .unusable => some openBus
  | .io => some (c.hw.readIo address)
  | .hram => do c.hw.hram.get? (← minus? address.toNat 0xFF80)
  | .interruptEnable => some c.hw.ie

def wired? (c : Console) (address : UInt16) : Option UInt8 :=
  c.readRegion? (.ofAddress address) address

def copyOamByte? (c : Console) : Option Console := do
  let dma := c.hw.oamDma
  let source ← fit? 16 (dma.source.toNat + dma.bytes.toNat)
  let v ← c.wired? (UInt16.ofNat source)
  let oam ← c.hw.oam.set? dma.bytes.toNat v
  let bytes := UInt8.ofNat (← fit? 8 (dma.bytes.toNat + 1))
  return { c with
    hw := { c.hw with oam, oamDma := { dma with bytes, active := bytes ≠ OamDma.length } } }

def clockOamDma? (c : Console) : Option Console :=
  if c.hw.oamDma.active then do
    let ticks := UInt16.ofNat (← fit? 16 (c.hw.oamDma.ticks.toNat + 1))
    let c := { c with hw := { c.hw with oamDma := { c.hw.oamDma with ticks } } }
    if ticks % OamDma.ticksPerByte = 0 then c.copyOamByte? else return c
  else some c

def copyVramByte? (c : Console) (index : UInt16) : Option Console := do
  let v ← c.wired? (c.hw.vramDma.source + index)
  let destination ← fit? 16 (c.hw.vramDma.destination.toNat + index.toNat)
  let vram ← c.hw.vram.set? (c.hw.vramOffset + destination % vramBankSize) v
  return { c with hw := { c.hw with vram } }

def copyVramBytes? (c : Console) : Nat → Option Console
  | 0 => some c
  | count + 1 => do (← c.copyVramBytes? count).copyVramByte? (UInt16.ofNat count)

def copyVramBlock? (c : Console) : Option Console := do
  let c ← c.copyVramBytes? VramDma.blockSize.toNat
  let stall ← fit? 32 (c.hw.stall.toNat + if c.hw.doubleSpeed then 16 else 8)
  let dma := c.hw.vramDma
  let vramDma :=
    { dma with
      source := dma.source + VramDma.blockSize
      destination := VramDma.destinationOf (dma.destination + VramDma.blockSize) }
  return { c with hw := { c.hw with vramDma, stall := UInt32.ofNat stall } }

def copyVramBlocks? (c : Console) : Nat → Option Console
  | 0 => some c
  | count + 1 => do (← c.copyVramBlocks? count).copyVramBlock?

def writeVramControl? (c : Console) (v : UInt8) : Option Console :=
  let blocks := v % 128 + 1
  if v < 0x80 ∧ !c.hw.vramDma.active then do
    let copied ← (c.mapVramDma fun dma => { dma with blocks }).copyVramBlocks? blocks.toNat
    return copied.mapVramDma fun dma => { dma with blocks := 0 }
  else some (c.writeVramControl v)

def hblank? (c : Console) : Option Console :=
  if c.hw.vramDma.active then do
    let c ← c.copyVramBlock?
    let blocks := UInt8.ofNat (← minus? c.hw.vramDma.blocks.toNat 1)
    return c.mapVramDma fun dma => { dma with blocks, active := blocks ≠ 0 }
  else some c

def writeIo? (c : Console) (address : UInt16) (v : UInt8) : Option Console :=
  match IoRegister.ofAddress c.hw.isColor address with
  | .vramControl => c.writeVramControl? v
  | _ => some (c.writeIo address v)

def writeRegion? (c : Console) (region : Region) (address : UInt16) (v : UInt8) :
    Option Console :=
  match region with
  | .rom => c.writeRom? address v
  | .vram => do
    let vram ← c.hw.vram.set? (c.hw.vramOffset + (← minus? address.toNat 0x8000)) v
    return { c with hw := { c.hw with vram } }
  | .cartRam => do c.writeRam? (← minus? address.toNat 0xA000) v
  | .wramFixed => do
    let wram ← c.hw.wram.set? (address.toNat % wramBankSize) v
    return { c with hw := { c.hw with wram } }
  | .wramBanked => do
    let wram ← c.hw.wram.set? (c.hw.wramOffset + address.toNat % wramBankSize) v
    return { c with hw := { c.hw with wram } }
  | .oam =>
    if c.hw.oamDma.active then some c
    else do
      let oam ← c.hw.oam.set? (← minus? address.toNat 0xFE00) v
      return { c with hw := { c.hw with oam } }
  | .unusable => some c
  | .io => c.writeIo? address v
  | .hram => do
    let hram ← c.hw.hram.set? (← minus? address.toNat 0xFF80) v
    return { c with hw := { c.hw with hram } }
  | .interruptEnable => some { c with hw := { c.hw with ie := v } }

def tickCartridge? (c : Console) : Option Console :=
  if c.cart.controller = .mbc3 ∧ c.hw.hasClock then do
    let clock ← c.hw.clock.tick?
    return { c with hw := { c.hw with clock } }
  else some c

end Console

/-- A device that passes every access on to the memory behind it, and remembers whether all of them
were in order. Where the bus leads nowhere there is nothing to check. -/
def Handler.watch (shows : Region → Bool) : Handler Bool where
  read c address inOrder :=
    let region := Region.ofAddress address
    if shows region then
      (c.readRegion region address, inOrder && (c.readRegion? region address).isSome)
    else (openBus, inOrder)
  write c address v inOrder :=
    let region := Region.ofAddress address
    if shows region then
      (c.writeRegion region address v, inOrder && (c.writeRegion? region address v).isSome)
    else (c, inOrder)

/-- A device at every address. -/
@[irreducible]
def Handler.everywhere (handler : Handler σ) : List (UInt16 × Handler σ) :=
  (List.range 0x10000).map fun address => (UInt16.ofNat address, handler)

namespace Machine

/-- The machine with a watching device at every address. -/
def watched (m : Machine σ) : Machine Bool :=
  { console := m.console
    vramVisible := m.vramVisible
    oamVisible := m.oamVisible
    handlers := (Handler.watch m.shows).everywhere
    devices := true }

/-- Reads an address. What a device does with an access is not checked. -/
def read? (m : Machine σ) (address : UInt16) : Option (UInt8 × Machine σ) :=
  match m.route address with
  | .memory region => do return (← m.console.readRegion? region address, m)
  | _ => some (m.read address)

def write? (m : Machine σ) (address : UInt16) (v : UInt8) : Option (Machine σ) :=
  match m.route address with
  | .memory region => do return { m with console := ← m.console.writeRegion? region address v }
  | _ => some (m.write address v)

/-- Runs one instruction, if all its accesses are in order. -/
def step? (m : Machine σ) : Option (UInt32 × Machine σ) :=
  let (clocks, watched) := m.watched.step
  if watched.devices then some (clocks, { m with console := watched.console }) else none

def dispatch? (m : Machine σ) (line : Interrupt) : Option (Machine σ) := do
  let cpu := m.console.hw.cpu
  let m ← m.write? (cpu.sp - 1) (Word.high cpu.pc)
  let m ← m.write? (cpu.sp - 2) (Word.low cpu.pc)
  return m.mapHardware fun hw =>
    { hw.acknowledge line with
      cpu := { hw.cpu with sp := cpu.sp - 2, ime := false, pc := line.handler }
      cyclesPending := dispatchClocks }

def serveInterrupts? (m : Machine σ) : Option (Machine σ) :=
  if m.console.hw.cyclesPending = 0 then
    match m.console.hw.nextInterrupt? with
    | none => some m
    | some line => if m.console.hw.cpu.ime then m.wake.dispatch? line else some m.wake
  else some m

def beginInstruction? (m : Machine σ) : Option (Machine σ) :=
  if m.console.hw.cyclesPending = 0 then do
    let (clocks, m) ← m.step?
    let pending ← fit? 32 (clocks.toNat + m.console.hw.stall.toNat)
    return m.mapHardware fun hw =>
      { hw with cyclesPending := UInt32.ofNat pending, stall := 0 }
  else some m

def clock? (m : Machine σ) : Option (Machine σ) := do
  let m := m.mapHardware (·.clockTimer)
  let m := { m with console := ← m.console.clockOamDma? }
  let m ← m.serveInterrupts?
  let m ← m.beginInstruction?
  let pending ← minus? m.console.hw.cyclesPending.toNat 1
  return m.mapHardware fun hw => { hw with cyclesPending := UInt32.ofNat pending }

def clocksOfTick? (m : Machine σ) : Option (Machine σ) := do
  if m.console.hw.doubleSpeed then (← m.clock?).clock? else m.clock?

def tick? (m : Machine σ) : Option (Tick σ) := do
  let m ← m.clocksOfTick?
  let m := { m with console := ← m.console.tickCartridge? }
  let hw := m.console.hw
  let cycleCount := UInt64.ofNat (← fit? 64 (hw.cycleCount.toNat + 1))
  let console := { m.console with hw := { hw with cycleCount, batteryDirty := false }, fault := none }
  return {
    machine := { m with console }
    saved := if hw.batteryDirty then some hw.cartRam else none
    fault := m.console.fault }

def run? : Nat → Machine σ → Journal → Option (Run σ)
  | 0, machine, journal => some { machine, journal, fault := none }
  | count + 1, m, journal => do
    let t ← m.tick?
    let journal := journal.record t.saved
    match t.fault with
    | some fault => return { machine := t.machine, journal, fault := some fault }
    | none => run? count t.machine journal

end Machine

end GameBoy
