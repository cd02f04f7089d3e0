import GameBoy.Hardware

/-!
Interrupt lines. A request is a bit of the register at 0xFF0F, and an enabled line a bit of the
register at 0xFFFF.
-/

namespace GameBoy

/-- The interrupt lines, by what requests them. -/
inductive Interrupt
  | vblank
  | stat
  | timer
  | serial
  | joypad
deriving DecidableEq, Inhabited

namespace Interrupt

/-- All lines, the most urgent first. -/
def all : List Interrupt := [.vblank, .stat, .timer, .serial, .joypad]

/-- The bit of a line in the request and enable registers. -/
def mask : Interrupt → UInt8
  | .vblank => 0x01
  | .stat => 0x02
  | .timer => 0x04
  | .serial => 0x08
  | .joypad => 0x10

/-- Where the processor continues when a line is served. -/
def handler : Interrupt → UInt16
  | .vblank => 0x40
  | .stat => 0x48
  | .timer => 0x50
  | .serial => 0x58
  | .joypad => 0x60

end Interrupt

namespace Hardware

/-- The register of requests. -/
def requested (hw : Hardware) : UInt8 := hw.io.read Io.interruptFlag

/-- Replaces the register of requests. -/
def setRequested (hw : Hardware) (flags : UInt8) : Hardware :=
  { hw with io := hw.io.write Io.interruptFlag flags }

theorem requested_setRequested (hw : Hardware) (flags : UInt8) :
    (hw.setRequested flags).requested = flags := Segment.read_write_same _ (by decide) _

theorem setRequested_setRequested (hw : Hardware) (first last : UInt8) :
    (hw.setRequested first).setRequested last = hw.setRequested last :=
  congrArg (fun io => { hw with io }) (Segment.write_write ..)

/-- Requests a line. -/
def request (hw : Hardware) (line : Interrupt) : Hardware :=
  hw.setRequested (hw.requested ||| line.mask)

/-- A request that has been made is not made again. -/
theorem request_request (hw : Hardware) (line : Interrupt) :
    (hw.request line).request line = hw.request line := by
  have flags : (hw.request line).requested ||| line.mask = hw.requested ||| line.mask := by
    rw [request, requested_setRequested, UInt8.or_assoc, UInt8.or_self]
  rw [request, flags]
  exact setRequested_setRequested hw _ _

/-- Takes a request back. -/
def acknowledge (hw : Hardware) (line : Interrupt) : Hardware :=
  hw.setRequested (hw.requested &&& ~~~line.mask)

/-- The lines that are both requested and enabled. -/
def pendingMask (hw : Hardware) : UInt8 := hw.ie &&& hw.requested &&& 0x1F

/-- The most urgent line that is both requested and enabled. -/
def nextInterrupt? (hw : Hardware) : Option Interrupt :=
  let pending := hw.pendingMask
  Interrupt.all.find? fun line => pending &&& line.mask ≠ 0

/-- One clock of the timer, which may request its interrupt. -/
def clockTimer (hw : Hardware) : Hardware :=
  let next := { hw with timer := hw.timer.clock }
  if hw.timer.reloads then next.request .timer else next

end Hardware

end GameBoy
