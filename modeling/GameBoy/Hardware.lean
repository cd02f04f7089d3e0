import GameBoy.Cartridge.Banks
import GameBoy.Cartridge.Clock
import GameBoy.Transfer
import GameBoy.Registers
import GameBoy.Timer

/-!
The hardware: everything in a running machine that changes, and that a snapshot therefore holds.
-/

namespace GameBoy

/-! The bytes of I/O memory that the machine itself uses, by their offset from 0xFF00. -/
namespace Io

def joypad : Nat := 0x00
def interruptFlag : Nat := 0x0F
def displayControl : Nat := 0x40
def backgroundPalette : Nat := 0x47
def speed : Nat := 0x4D
def vramBank : Nat := 0x4F
def wramBank : Nat := 0x70

end Io

/-- The size of one video RAM bank. -/
def vramBankSize : Nat := 0x2000

/-- The size of one work RAM bank. -/
def wramBankSize : Nat := 0x1000

/-- Video RAM on a model. -/
def Model.vramSize : Model → Nat
  | .monochrome => vramBankSize
  | .color => 2 * vramBankSize

/-- Work RAM on a model. -/
def Model.wramSize : Model → Nat
  | .monochrome => 2 * wramBankSize
  | .color => 8 * wramBankSize

/-- The state of the machine. `cyclesPending` counts the clocks before the processor fetches its
next instruction, `stall` the clocks that video RAM transfers have taken from it, and `cycleCount`
the base clock ticks since power-on. `batteryDirty` says that battery-backed RAM was written during
the current tick. -/
structure Hardware where
  model : Model
  identity : Identity
  cpu : Cpu
  romBanks : UInt64
  cartRam : Memory
  hasBattery : Bool
  hasClock : Bool
  vram : Memory
  wram : Memory
  oam : Segment 0xA0
  io : Segment 0x80
  hram : Segment 0x7F
  ie : UInt8
  banks : Banks
  clock : Clock
  timer : Timer
  oamDma : OamDma
  vramDma : VramDma
  doubleSpeed : Bool
  vramAccessible : Bool
  oamAccessible : Bool
  cyclesPending : UInt32
  stall : UInt32
  cycleCount : UInt64
  batteryDirty : Bool
deriving DecidableEq, Inhabited

/-- The registers as the boot program leaves them. -/
def Cpu.afterBoot (model : Model) : Cpu :=
  let cpu : Cpu := { pc := 0x0100, sp := 0xFFFE }
  match model with
  | .monochrome =>
    (((cpu.setPair .af 0x01B0).setPair .bc 0x0013).setPair .de 0x00D8).setPair .hl 0x014D
  | .color =>
    (((cpu.setPair .af 0x1180).setPair .bc 0x0000).setPair .de 0xFF56).setPair .hl 0x000D

/-- The I/O registers as the boot program leaves them: no button pressed, the vertical blank
interrupt requested, the display on. -/
def ioAfterBoot (model : Model) : Segment 0x80 :=
  let io := (((Segment.zeros 0x80).write Io.joypad 0xCF).write Io.interruptFlag 0x01).write
    Io.displayControl 0x91 |>.write Io.backgroundPalette 0xFC
  match model with
  | .monochrome => io
  | .color => io.write Io.wramBank 0x01

namespace Hardware

/-- A machine that has just handed control to a cartridge. RAM on a cartridge without a controller
has no enable latch, so it always answers. -/
def powerOn (cart : Cartridge) (model : Model) : Hardware :=
  { model
    identity := cart.identity
    cpu := .afterBoot model
    romBanks := UInt64.ofNat cart.romBanks
    cartRam := .zeros cart.ramSize
    hasBattery := cart.hasBattery
    hasClock := cart.hasClock
    vram := .zeros model.vramSize
    wram := .zeros model.wramSize
    oam := .zeros 0xA0
    io := ioAfterBoot model
    hram := .zeros 0x7F
    ie := 0
    banks :=
      { rom1Offset := UInt64.ofNat romBankSize
        romSelectLow := 1
        ramEnabled := cart.controller = .fixed }
    clock := {}
    timer := { div := 0xABCC }
    oamDma := {}
    vramDma := { destination := 0x8000 }
    doubleSpeed := false
    vramAccessible := true
    oamAccessible := true
    cyclesPending := 0
    stall := 0
    cycleCount := 0
    batteryDirty := false }

/-- Whether this is the color model. -/
def isColor (hw : Hardware) : Bool := hw.model = .color

/-- The offset of the video RAM bank that is visible. -/
def vramOffset (hw : Hardware) : Nat :=
  if hw.isColor then (hw.io.read Io.vramBank % 2).toNat * vramBankSize else 0

/-- The offset of the work RAM bank that is visible in the switchable window. Bank zero is always
visible below it, and selecting it here selects the next one. -/
def wramOffset (hw : Hardware) : Nat :=
  if hw.isColor then max (hw.io.read Io.wramBank % 8).toNat 1 * wramBankSize else wramBankSize

/-- The number of cartridge RAM banks; a part of a bank counts as one. -/
def ramBanks (hw : Hardware) : Nat := (hw.cartRam.size + ramBankSize - 1) / ramBankSize

end Hardware

end GameBoy
