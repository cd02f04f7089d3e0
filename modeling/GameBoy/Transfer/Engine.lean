import GameBoy.MemoryMap

/-!
The transfer engines at work.
-/

namespace GameBoy.Console

/-- Copies the next byte of the transfer into sprite memory. -/
def copyOamByte (c : Console) : Console :=
  let dma := c.hw.oamDma
  let v := c.wired (dma.source + dma.bytes.toUInt16)
  let bytes := dma.bytes + 1
  { c with
    hw :=
      { c.hw with
        oam := c.hw.oam.write dma.bytes.toNat v
        oamDma := { dma with bytes, active := bytes ≠ OamDma.length } } }

/-- One processor clock of the transfer into sprite memory. -/
def clockOamDma (c : Console) : Console :=
  if c.hw.oamDma.active then
    let ticks := c.hw.oamDma.ticks + 1
    let c := { c with hw := { c.hw with oamDma := { c.hw.oamDma with ticks } } }
    if ticks % OamDma.ticksPerByte = 0 then c.copyOamByte else c
  else c

/-- Copies one byte of a block into the visible bank of video RAM. -/
def copyVramByte (c : Console) (index : UInt16) : Console :=
  let dma := c.hw.vramDma
  let v := c.wired (dma.source + index)
  let target := c.hw.vramIndex (dma.destination + index)
  { c with hw := { c.hw with vram := c.hw.vram.write target v } }

/-- Copies the first bytes of a block, the lowest address first. -/
def copyVramBytes (c : Console) : Nat → Console
  | 0 => c
  | count + 1 => (c.copyVramBytes count).copyVramByte (UInt16.ofNat count)

/-- Copies a block into video RAM and takes its time from the processor. A transfer takes the same
real time at either speed. -/
def copyVramBlock (c : Console) : Console :=
  let c := c.copyVramBytes VramDma.blockSize.toNat
  let dma := c.hw.vramDma
  { c with
    hw :=
      { c.hw with
        vramDma :=
          { dma with
            source := dma.source + VramDma.blockSize
            destination := VramDma.destinationOf (dma.destination + VramDma.blockSize) }
        stall := c.hw.stall + (if c.hw.doubleSpeed then 16 else 8) } }

/-- Copies blocks into video RAM. -/
def copyVramBlocks (c : Console) : Nat → Console
  | 0 => c
  | count + 1 => (c.copyVramBlocks count).copyVramBlock

def mapVramDma (c : Console) (f : VramDma → VramDma) : Console :=
  { c with hw := { c.hw with vramDma := f c.hw.vramDma } }

/-- A write to the control register. Its low bits are the number of blocks less one; its high bit
asks for one block in each horizontal blank. Clearing that bit while such a transfer runs ends
it. -/
def writeVramControl (c : Console) (v : UInt8) : Console :=
  let blocks := v % 128 + 1
  if v < 0x80 then
    if c.hw.vramDma.active then c.mapVramDma fun dma => { dma with active := false }
    else
      ((c.mapVramDma fun dma => { dma with blocks }).copyVramBlocks blocks.toNat).mapVramDma
        fun dma => { dma with blocks := 0 }
  else c.mapVramDma fun dma => { dma with blocks, hblank := true, active := true }

/-- The display enters horizontal blank: a running transfer copies its next block. -/
def hblank (c : Console) : Console :=
  if c.hw.vramDma.active then
    c.copyVramBlock.mapVramDma fun dma =>
      let blocks := dma.blocks - 1
      { dma with blocks, active := blocks ≠ 0 }
  else c

end GameBoy.Console
