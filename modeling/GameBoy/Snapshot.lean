import GameBoy.Bus
import GameBoy.Layout

/-!
Snapshots. A snapshot is the hardware written field by field behind a short header:

* four bytes that mark a snapshot,
* the version of the format, in two bytes,
* the length of the rest, in four bytes.

ROM is no part of it. A fingerprint of the cartridge is, and a snapshot taken with another cartridge
is refused.
-/

namespace GameBoy

namespace Layout

def model : Layout Model :=
  uint32.refine (fun | .monochrome => 0 | .color => 1) fun n =>
    if n = 0 then .ok .monochrome else if n = 1 then .ok .color else .error (.badVariant n)

def identity : Layout Identity :=
  (text.pair (uint16.pair uint32)).convert (fun i => (i.title, i.checksum, i.romBanks))
    fun (title, checksum, romBanks) => { title, checksum, romBanks }

def flags : Layout Flags :=
  (bool.pair (bool.pair (bool.pair bool))).convert (fun f => (f.z, f.n, f.h, f.c))
    fun (z, n, h, c) => { z, n, h, c }

def cpu : Layout Cpu :=
  (uint8.pair (uint8.pair (uint8.pair (uint8.pair (uint8.pair (flags.pair (uint8.pair (uint8.pair
    (uint16.pair (uint16.pair (bool.pair (bool.pair bool)))))))))))).convert
    (fun r =>
      (r.a, r.b, r.c, r.d, r.e, r.f, r.h, r.l, r.pc, r.sp, r.ime, r.imePending, r.halted))
    fun (a, b, c, d, e, f, h, l, pc, sp, ime, imePending, halted) =>
      { a, b, c, d, e, f, h, l, pc, sp, ime, imePending, halted }

def banks : Layout Banks :=
  (uint64.pair (uint64.pair (uint64.pair (uint8.pair (uint8.pair (uint8.pair
    (bool.pair bool))))))).convert
    (fun b =>
      (b.rom0Offset, b.rom1Offset, b.ramOffset, b.romSelectLow, b.romSelectHigh, b.ramSelect,
        b.mode, b.ramEnabled))
    fun (rom0Offset, rom1Offset, ramOffset, romSelectLow, romSelectHigh, ramSelect, mode,
        ramEnabled) =>
      { rom0Offset, rom1Offset, ramOffset, romSelectLow, romSelectHigh, ramSelect, mode,
        ramEnabled }

def clockTime : Layout ClockTime :=
  (uint8.pair (uint8.pair (uint8.pair (uint8.pair uint8)))).convert
    (fun t => (t.seconds, t.minutes, t.hours, t.dayLow, t.dayHigh))
    fun (seconds, minutes, hours, dayLow, dayHigh) => { seconds, minutes, hours, dayLow, dayHigh }

def clock : Layout Clock :=
  (clockTime.pair (clockTime.pair (bool.pair uint32))).convert
    (fun c => (c.live, c.latched, c.latchArmed, c.subsecond))
    fun (live, latched, latchArmed, subsecond) => { live, latched, latchArmed, subsecond }

def timer : Layout Timer :=
  (uint16.pair (uint8.pair (uint8.pair (uint8.pair uint8)))).convert
    (fun t => (t.div, t.tima, t.tma, t.tac, t.reloadDelay))
    fun (div, tima, tma, tac, reloadDelay) => { div, tima, tma, tac, reloadDelay }

def oamDma : Layout OamDma :=
  (uint8.pair (bool.pair (uint16.pair (uint16.pair uint8)))).convert
    (fun t => (t.register, t.active, t.source, t.ticks, t.bytes))
    fun (register, active, source, ticks, bytes) => { register, active, source, ticks, bytes }

def vramDma : Layout VramDma :=
  (uint16.pair (uint16.pair (uint8.pair (bool.pair bool)))).convert
    (fun t => (t.source, t.destination, t.blocks, t.hblank, t.active))
    fun (source, destination, blocks, hblank, active) =>
      { source, destination, blocks, hblank, active }

/-- The whole hardware, in the order of its fields. -/
def hardware : Layout Hardware :=
  (model.pair (identity.pair (cpu.pair (uint64.pair (memory.pair (bool.pair (bool.pair
    (memory.pair (memory.pair ((segment 0xA0).pair ((segment 0x80).pair ((segment 0x7F).pair
    (uint8.pair (banks.pair (clock.pair (timer.pair (oamDma.pair (vramDma.pair (bool.pair
    (bool.pair (bool.pair (uint32.pair (uint32.pair (uint64.pair bool
    )))))))))))))))))))))))).convert
    (fun hw =>
      (hw.model, hw.identity, hw.cpu, hw.romBanks, hw.cartRam, hw.hasBattery, hw.hasClock,
        hw.vram, hw.wram, hw.oam, hw.io, hw.hram, hw.ie, hw.banks, hw.clock, hw.timer, hw.oamDma,
        hw.vramDma, hw.doubleSpeed, hw.vramAccessible, hw.oamAccessible, hw.cyclesPending,
        hw.stall, hw.cycleCount, hw.batteryDirty))
    fun (model, identity, cpu, romBanks, cartRam, hasBattery, hasClock, vram, wram, oam, io, hram,
        ie, banks, clock, timer, oamDma, vramDma, doubleSpeed, vramAccessible, oamAccessible,
        cyclesPending, stall, cycleCount, batteryDirty) =>
      { model, identity, cpu, romBanks, cartRam, hasBattery, hasClock, vram, wram, oam, io, hram,
        ie, banks, clock, timer, oamDma, vramDma, doubleSpeed, vramAccessible, oamAccessible,
        cyclesPending, stall, cycleCount, batteryDirty }

end Layout

/-- What a machine relies on and a snapshot fails to give. -/
inductive Inconsistency
  | vramSize
  | wramSize
  | cartRamSize
  | romOffset
  | ramOffset
  | ramSelect
  | oamDmaProgress
deriving DecidableEq

def Inconsistency.message : Inconsistency → String
  | .vramSize => "video RAM size doesn't match model"
  | .wramSize => "work RAM size doesn't match model"
  | .cartRamSize => "cartridge RAM size doesn't match cartridge"
  | .romOffset => "ROM bank offset out of range"
  | .ramOffset => "RAM bank offset out of range"
  | .ramSelect => "RAM/RTC select out of range"
  | .oamDmaProgress => "OAM DMA progress out of range"

/-- Why a snapshot is refused. -/
inductive SnapshotError
  | badMagic
  | unsupportedVersion (version : UInt16)
  | truncated
  | differentCartridge
  | inconsistent (reason : Inconsistency)
  | corrupt (damage : Damage)
deriving DecidableEq

def SnapshotError.message : SnapshotError → String
  | .badMagic => "not a save state (bad magic)"
  | .unsupportedVersion version => "unsupported save state version " ++ toString version.toNat
  | .truncated => "save state is truncated"
  | .differentCartridge => "save state was taken with a different cartridge"
  | .inconsistent reason => "save state is inconsistent: " ++ reason.message
  | .corrupt damage => "save state payload is corrupt: " ++ damage.message

/-- The messages of an error and of what is behind it. Damage is a cause of its own. -/
def SnapshotError.causes : SnapshotError → List String
  | .corrupt damage => [(SnapshotError.corrupt damage).message, damage.message]
  | e => [e.message]

namespace Snapshot

/-- The bytes that mark a snapshot. -/
def magic : List UInt8 := [0x4C, 0x52, 0x33, 0x35]

/-- The version of the format. -/
def version : UInt16 := 1

/-- The size of the header. -/
def headerSize : Nat := 10

/-- Writes a snapshot. -/
def write (hw : Hardware) : List UInt8 :=
  let payload := Layout.hardware.write hw
  magic ++ Layout.uint16.write version ++ Layout.uint32.write (UInt32.ofNat payload.length) ++
    payload

/-- The part of a snapshot behind its header. What follows the declared length is ignored. -/
def payload (bytes : List UInt8) : Except SnapshotError (List UInt8) :=
  if magic.length ≤ bytes.length ∧ bytes.take magic.length ≠ magic then .error .badMagic
  else
    match (Layout.uint16.pair Layout.uint32).read (bytes.drop magic.length) with
    | .error _ => .error .truncated
    | .ok ((found, length), rest) =>
      if found ≠ version then .error (.unsupportedVersion found)
      else if rest.length < length.toNat then .error .truncated
      else .ok (rest.take length.toNat)

/-- Reads the hardware from a snapshot. -/
def read (bytes : List UInt8) : Except SnapshotError Hardware :=
  match payload bytes with
  | .error e => .error e
  | .ok body =>
    match Layout.hardware.read body with
    | .error damage => .error (.corrupt damage)
    | .ok (hw, _) => .ok hw

end Snapshot

namespace Console

/-- What a console would miss in the hardware of a snapshot: the sizes of its memories, and offsets
that lie inside them. -/
def inconsistency? (c : Console) (hw : Hardware) : Option Inconsistency :=
  let banks := hw.banks
  let romSize := c.cart.image.size
  let window := UInt64.ofNat romBankSize
  if hw.vram.size ≠ hw.model.vramSize then some .vramSize
  else if hw.wram.size ≠ hw.model.wramSize then some .wramSize
  else if hw.cartRam.size ≠ c.hw.cartRam.size then some .cartRamSize
  else if romSize < (banks.rom0Offset + window).toNat ∨
      romSize < (banks.rom1Offset + window).toNat then
    some .romOffset
  else if 0 < banks.ramOffset ∧ hw.cartRam.size ≤ banks.ramOffset.toNat then some .ramOffset
  else if 0x0C < banks.ramSelect then some .ramSelect
  else if hw.oamDma.active ∧ OamDma.length ≤ hw.oamDma.bytes then some .oamDmaProgress
  else none

/-- Restores a snapshot. The cartridge stays, and a fault that waits is forgotten. -/
def load (c : Console) (bytes : List UInt8) : Except SnapshotError Console :=
  match Snapshot.read bytes with
  | .error e => .error e
  | .ok hw =>
    if hw.identity ≠ c.hw.identity then .error .differentCartridge
    else
      match c.inconsistency? hw with
      | some reason => .error (.inconsistent reason)
      | none => .ok { hw, cart := c.cart }

end Console

namespace Machine

/-- Writes a snapshot of a machine. -/
def save (m : Machine σ) : List UInt8 := Snapshot.write m.console.hw

/-- Restores a snapshot into a machine, and makes the bus agree with it. -/
def load (m : Machine σ) (bytes : List UInt8) : Except SnapshotError (Machine σ) :=
  match m.console.load bytes with
  | .error e => .error e
  | .ok console => .ok { m with console }.sync

end Machine

end GameBoy
