/-!
The registers of the two transfer engines. One copies 160 bytes into sprite memory, a byte every
four clocks; the other copies blocks of 16 bytes into video RAM, all at once or one block in each
horizontal blank.
-/

namespace GameBoy

/-- The transfer into sprite memory. -/
structure OamDma where
  register : UInt8 := 0
  active : Bool := false
  source : UInt16 := 0
  ticks : UInt16 := 0
  bytes : UInt8 := 0
deriving DecidableEq, Inhabited

namespace OamDma

/-- The number of bytes in a transfer. -/
def length : UInt8 := 160

/-- Clocks for each byte. -/
def ticksPerByte : UInt16 := 4

/-- The page that a transfer reads from. The two highest pages are read 0x20 pages lower. -/
def sourcePage (v : UInt8) : UInt8 := if 0xFE ≤ v then v - 0x20 else v

/-- The register is being written: a transfer from the given page begins, or begins again. -/
def start (v : UInt8) : OamDma :=
  { register := v, active := true, source := (sourcePage v).toUInt16 * 256 }

end OamDma

/-- The transfer into video RAM. -/
structure VramDma where
  source : UInt16 := 0
  destination : UInt16 := 0
  blocks : UInt8 := 0
  hblank : Bool := false
  active : Bool := false
deriving DecidableEq, Inhabited

namespace VramDma

/-- The number of bytes in a block. -/
def blockSize : UInt16 := 16

/-- A destination lies in video RAM, at a multiple of 16. -/
def destinationOf (address : UInt16) : UInt16 := 0x8000 ||| (address &&& 0x1FF0)

/-- The source and destination registers can be written only while no transfer runs. -/
def writeSourceHigh (t : VramDma) (v : UInt8) : VramDma :=
  if t.active then t else { t with source := v.toUInt16 * 256 + t.source % 256 }

def writeSourceLow (t : VramDma) (v : UInt8) : VramDma :=
  if t.active then t else { t with source := t.source / 256 * 256 + (v &&& 0xF0).toUInt16 }

def writeDestinationHigh (t : VramDma) (v : UInt8) : VramDma :=
  if t.active then t
  else { t with destination := destinationOf (v.toUInt16 * 256 + (t.destination &&& 0xF0)) }

def writeDestinationLow (t : VramDma) (v : UInt8) : VramDma :=
  if t.active then t
  else
    { t with destination := destinationOf ((t.destination &&& 0x1F00) + (v &&& 0xF0).toUInt16) }

/-- The blocks left, less one, while a transfer runs. -/
def readControl (t : VramDma) : UInt8 := if t.active then (t.blocks - 1) % 128 else 0xFF

end VramDma

end GameBoy
