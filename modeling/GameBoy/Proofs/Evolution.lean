import GameBoy.Proofs.Processor
import GameBoy.Schedule
import Mathlib.Logic.Relation

/-!
What can happen to each part of a console while a machine runs without devices. Every access, clock
and tick is an `Evolves`: the cartridge and all sizes stay, and the registers of each part move by
steps of their own. What every step of a part keeps, every run keeps.
-/

namespace GameBoy

open Relation

/-- What can happen to the timer. -/
inductive Timer.Step : Timer → Timer → Prop
  | clock : Step t t.clock
  | resetDiv : Step t t.resetDiv
  | writeTima (v : UInt8) : Step t (t.writeTima v)
  | writeTma (v : UInt8) : Step t (t.writeTma v)
  | writeTac (v : UInt8) : Step t (t.writeTac v)

/-- What can happen to the clock on a cartridge. -/
inductive Clock.Step : Clock → Clock → Prop
  | tick : Step c c.tick
  | latch (v : UInt8) : Step c (c.latch v)
  | writeRegister (register : Nat) (v : UInt8) : Step c (c.writeRegister register v)

/-- The registers of a running transfer into sprite memory after a clock. -/
def OamDma.advance (t : OamDma) : OamDma :=
  if (t.ticks + 1) % OamDma.ticksPerByte = 0 then
    { t with ticks := t.ticks + 1, bytes := t.bytes + 1, active := t.bytes + 1 ≠ OamDma.length }
  else { t with ticks := t.ticks + 1 }

/-- What can happen to the transfer into sprite memory. -/
inductive OamDma.Step : OamDma → OamDma → Prop
  | start (v : UInt8) : Step t (.start v)
  | advance (running : t.active = true) : Step t t.advance

/-- The registers of a transfer into video RAM after a block. -/
def VramDma.copied (t : VramDma) : VramDma :=
  { t with
    source := t.source + VramDma.blockSize
    destination := VramDma.destinationOf (t.destination + VramDma.blockSize) }

/-- One block less. -/
def VramDma.countDown (t : VramDma) : VramDma :=
  { t with blocks := t.blocks - 1, active := t.blocks - 1 ≠ 0 }

/-- What can happen to the transfer into video RAM. The number of blocks is set freely only while
none is running. -/
inductive VramDma.Step : VramDma → VramDma → Prop
  | sourceHigh (v : UInt8) : Step t (t.writeSourceHigh v)
  | sourceLow (v : UInt8) : Step t (t.writeSourceLow v)
  | destinationHigh (v : UInt8) : Step t (t.writeDestinationHigh v)
  | destinationLow (v : UInt8) : Step t (t.writeDestinationLow v)
  | cancel : Step t { t with active := false }
  | blocks (idle : t.active = false) (blocks : UInt8) : Step t { t with blocks }
  | copied : Step t t.copied
  | start (v : UInt8) : Step t { t with blocks := v % 128 + 1, hblank := true, active := true }
  | countDown (running : t.active = true) : Step t t.countDown

/-- What a controller can do to its latches. -/
inductive Banks.Step (romBanks ramBanks : Nat) : Controller → Banks → Banks → Prop
  | mbc1 (address : UInt16) (v : UInt8) :
    Step romBanks ramBanks .mbc1 b (b.mbc1Write romBanks ramBanks address v)
  | mbc2 (address : UInt16) (v : UInt8) :
    Step romBanks ramBanks .mbc2 b (b.mbc2Write romBanks address v)
  | mbc3 (address : UInt16) (v : UInt8) :
    Step romBanks ramBanks .mbc3 b (b.mbc3Write romBanks address v)
  | mbc3Ram (v : UInt8) (bank : v < 0x08) :
    Step romBanks ramBanks .mbc3 b ({ b with ramSelect := v }.selectRam ramBanks v.toNat)
  | mbc3Clock (v : UInt8) (register : v ≤ 0x0C) :
    Step romBanks ramBanks .mbc3 b { b with ramSelect := v }
  | mbc5 (address : UInt16) (v : UInt8) :
    Step romBanks ramBanks .mbc5 b (b.mbc5Write romBanks ramBanks address v)

/-- The steps that the latches of an inserted cartridge can make. -/
def Console.BanksStep (c : Console) : Banks → Banks → Prop :=
  Banks.Step c.hw.romBanks.toNat c.hw.ramBanks c.cart.controller

/-- How a console can move in a number of base clock ticks. Only five bits of the requests exist, and
each block of a transfer takes eight or sixteen clocks from the processor. -/
structure Console.Evolves (ticks : Nat) (c d : Console) : Prop where
  cart : d.cart = c.cart
  model : d.hw.model = c.hw.model
  identity : d.hw.identity = c.hw.identity
  romBanks : d.hw.romBanks = c.hw.romBanks
  hasBattery : d.hw.hasBattery = c.hw.hasBattery
  hasClock : d.hw.hasClock = c.hw.hasClock
  cartRam : d.hw.cartRam.size = c.hw.cartRam.size
  vram : d.hw.vram.size = c.hw.vram.size
  wram : d.hw.wram.size = c.hw.wram.size
  vramAccessible : d.hw.vramAccessible = c.hw.vramAccessible
  oamAccessible : d.hw.oamAccessible = c.hw.oamAccessible
  banks : ReflTransGen c.BanksStep c.hw.banks d.hw.banks
  clock : ReflTransGen Clock.Step c.hw.clock d.hw.clock
  timer : ReflTransGen Timer.Step c.hw.timer d.hw.timer
  oamDma : ReflTransGen OamDma.Step c.hw.oamDma d.hw.oamDma
  vramDma : ReflTransGen VramDma.Step c.hw.vramDma d.hw.vramDma
  requested : c.hw.requested < 0x20 → d.hw.requested < 0x20
  stall : c.hw.stall.toNat % 8 = 0 → d.hw.stall.toNat % 8 = 0
  cycleCount : d.hw.cycleCount = c.hw.cycleCount + UInt64.ofNat ticks

namespace Console

namespace Evolves

theorem refl (c : Console) : c.Evolves 0 c where
  cart := rfl
  model := rfl
  identity := rfl
  romBanks := rfl
  hasBattery := rfl
  hasClock := rfl
  cartRam := rfl
  vram := rfl
  wram := rfl
  vramAccessible := rfl
  oamAccessible := rfl
  banks := .refl
  clock := .refl
  timer := .refl
  oamDma := .refl
  vramDma := .refl
  requested := id
  stall := id
  cycleCount := (UInt64.add_zero _).symm

theorem banksStep (e : Evolves ticks c d) : d.BanksStep = c.BanksStep := by
  simp only [BanksStep, Hardware.ramBanks, e.cart, e.romBanks, e.cartRam]

theorem trans (first : Evolves before c d) (second : Evolves after d e) :
    c.Evolves (before + after) e where
  cart := second.cart.trans first.cart
  model := second.model.trans first.model
  identity := second.identity.trans first.identity
  romBanks := second.romBanks.trans first.romBanks
  hasBattery := second.hasBattery.trans first.hasBattery
  hasClock := second.hasClock.trans first.hasClock
  cartRam := second.cartRam.trans first.cartRam
  vram := second.vram.trans first.vram
  wram := second.wram.trans first.wram
  vramAccessible := second.vramAccessible.trans first.vramAccessible
  oamAccessible := second.oamAccessible.trans first.oamAccessible
  banks := first.banks.trans (first.banksStep ▸ second.banks)
  clock := first.clock.trans second.clock
  timer := first.timer.trans second.timer
  oamDma := first.oamDma.trans second.oamDma
  vramDma := first.vramDma.trans second.vramDma
  requested := second.requested ∘ first.requested
  stall := second.stall ∘ first.stall
  cycleCount := by rw [second.cycleCount, first.cycleCount, UInt64.ofNat_add, UInt64.add_assoc]

end Evolves

/-! Cartridges. -/

theorem raise_evolves (c : Console) (fault : Fault) : c.Evolves 0 (c.raise fault) :=
  { Evolves.refl c with }

theorem mapClock_evolves (c : Console) (step : Clock.Step c.hw.clock (f c.hw.clock)) :
    c.Evolves 0 (c.mapClock f) :=
  { Evolves.refl c with clock := .single step }

theorem mapBanks_evolves (c : Console) (step : c.BanksStep c.hw.banks (f c.hw.banks)) :
    c.Evolves 0 (c.mapBanks f) :=
  { Evolves.refl c with banks := .single step }

theorem mbc3Select_evolves (c : Console) (mbc3 : c.cart.controller = .mbc3) (v : UInt8) :
    c.Evolves 0 (c.mbc3Select v) := by
  unfold mbc3Select
  split
  · rename_i bank
    apply c.mapBanks_evolves
    rw [BanksStep, mbc3]
    exact .mbc3Ram v bank
  · split
    · rename_i register
      apply c.mapBanks_evolves
      rw [BanksStep, mbc3]
      exact .mbc3Clock v register
    · exact c.raise_evolves _

theorem writeRom_evolves (c : Console) (address : UInt16) (v : UInt8) :
    c.Evolves 0 (c.writeRom address v) := by
  unfold writeRom
  cases controller : c.cart.controller with
  | fixed => exact .refl c
  | mbc1 =>
    apply c.mapBanks_evolves
    rw [BanksStep, controller]
    exact .mbc1 address v
  | mbc2 =>
    apply c.mapBanks_evolves
    rw [BanksStep, controller]
    exact .mbc2 address v
  | mbc3 =>
    dsimp only
    split
    · apply c.mapBanks_evolves
      rw [BanksStep, controller]
      exact .mbc3 address v
    · split
      · exact c.mbc3Select_evolves controller v
      · exact c.mapClock_evolves (.latch v)
  | mbc5 =>
    apply c.mapBanks_evolves
    rw [BanksStep, controller]
    exact .mbc5 address v

theorem storeRam_evolves (c : Console) (index : Nat) (v : UInt8) :
    c.Evolves 0 (c.storeRam index v) :=
  { Evolves.refl c with cartRam := Memory.size_write .. }

theorem writeRam_evolves (c : Console) (offset : Nat) (v : UInt8) :
    c.Evolves 0 (c.writeRam offset v) := by
  unfold writeRam
  cases c.ramTarget offset with
  | closed => exact .refl c
  | nibble index => exact c.storeRam_evolves index _
  | clock register => exact c.mapClock_evolves (.writeRegister register v)
  | cell index =>
    dsimp only
    split
    · exact c.storeRam_evolves index v
    · exact .refl c

theorem tickCartridge_evolves (c : Console) : c.Evolves 0 c.tickCartridge := by
  unfold tickCartridge
  split
  · exact c.mapClock_evolves .tick
  · exact .refl c

theorem loadBattery_evolves (c : Console) (saved : Memory) : c.Evolves 0 (c.loadBattery saved) :=
  { Evolves.refl c with cartRam := Memory.size_overlay .. }

/-! Transfers. -/

theorem clockOamDma_eq (c : Console) (running : c.hw.oamDma.active = true) :
    ∃ oam, c.clockOamDma = { c with hw := { c.hw with oam, oamDma := c.hw.oamDma.advance } } := by
  rw [clockOamDma, if_pos running, OamDma.advance]
  dsimp only
  split
  · exact ⟨_, rfl⟩
  · exact ⟨_, rfl⟩

theorem clockOamDma_evolves (c : Console) : c.Evolves 0 c.clockOamDma := by
  by_cases running : c.hw.oamDma.active = true
  · obtain ⟨oam, clocked⟩ := c.clockOamDma_eq running
    rw [clocked]
    exact { Evolves.refl c with oamDma := .single (.advance running) }
  · rw [clockOamDma, if_neg running]
    exact .refl c

/-- The bytes of a block change nothing but video RAM. -/
theorem copyVramBytes_eq (c : Console) (count : Nat) :
    ∃ vram : Memory, vram.size = c.hw.vram.size ∧
      c.copyVramBytes count = { c with hw := { c.hw with vram } } := by
  induction count with
  | zero => exact ⟨c.hw.vram, rfl, rfl⟩
  | succ count ih =>
    obtain ⟨vram, size, copied⟩ := ih
    refine ⟨_, ?_, by rw [copyVramBytes, copied, copyVramByte]⟩
    rw [Memory.size_write, size]

/-- The clocks that one block takes from the processor. -/
def blockStall (c : Console) : UInt32 := if c.hw.doubleSpeed then 16 else 8

theorem copyVramBlock_eq (c : Console) :
    ∃ vram : Memory, vram.size = c.hw.vram.size ∧
      c.copyVramBlock =
        { c with
          hw :=
            { c.hw with
              vram, vramDma := c.hw.vramDma.copied, stall := c.hw.stall + c.blockStall } } := by
  obtain ⟨vram, size, copied⟩ := c.copyVramBytes_eq VramDma.blockSize.toNat
  exact ⟨vram, size, by rw [copyVramBlock, copied]; rfl⟩

theorem copyVramBlock_evolves (c : Console) : c.Evolves 0 c.copyVramBlock := by
  obtain ⟨vram, size, copied⟩ := c.copyVramBlock_eq
  have stall : c.hw.stall.toNat % 8 = 0 → (c.hw.stall + c.blockStall).toNat % 8 = 0 := by
    intro whole
    unfold blockStall
    split <;> simp only [UInt32.toNat_add, UInt32.reduceToNat] <;> omega
  rw [copied]
  exact { Evolves.refl c with vram := size, vramDma := .single .copied, stall }

theorem copyVramBlock_active (c : Console) :
    c.copyVramBlock.hw.vramDma.active = c.hw.vramDma.active := by
  obtain ⟨vram, size, copied⟩ := c.copyVramBlock_eq
  rw [copied]
  rfl

theorem copyVramBlocks_evolves (c : Console) (count : Nat) :
    c.Evolves 0 (c.copyVramBlocks count) := by
  induction count with
  | zero => exact .refl c
  | succ count ih =>
    rw [copyVramBlocks]
    exact ih.trans (copyVramBlock_evolves _)

theorem copyVramBlocks_active (c : Console) (count : Nat) :
    (c.copyVramBlocks count).hw.vramDma.active = c.hw.vramDma.active := by
  induction count with
  | zero => rfl
  | succ count ih =>
    rw [copyVramBlocks]
    exact (copyVramBlock_active _).trans ih

theorem mapVramDma_evolves (c : Console) (step : VramDma.Step c.hw.vramDma (f c.hw.vramDma)) :
    c.Evolves 0 (c.mapVramDma f) :=
  { Evolves.refl c with vramDma := .single step }

theorem writeVramControl_evolves (c : Console) (v : UInt8) :
    c.Evolves 0 (c.writeVramControl v) := by
  rw [writeVramControl]
  split
  · split
    · exact c.mapVramDma_evolves .cancel
    · -- No block is counted while the transfer runs at once, so the count is set freely.
      rename_i idle
      have idle := Bool.eq_false_iff.mpr idle
      generalize v % 128 + 1 = blocks
      have begun : c.Evolves 0 (c.mapVramDma fun dma => { dma with blocks }) :=
        c.mapVramDma_evolves (.blocks idle blocks)
      refine (begun.trans (copyVramBlocks_evolves _ blocks.toNat)).trans
        (mapVramDma_evolves _ (.blocks ?_ 0))
      exact (copyVramBlocks_active _ _).trans idle
  · exact c.mapVramDma_evolves (.start v)

theorem hblank_evolves (c : Console) : c.Evolves 0 c.hblank := by
  unfold hblank
  split
  · rename_i running
    refine c.copyVramBlock_evolves.trans (mapVramDma_evolves _ (.countDown ?_))
    exact c.copyVramBlock_active.trans running
  · exact .refl c

/-! Accesses. -/

/-- The other bytes of I/O memory have nothing to do with the requests. -/
theorem writePlainIo_evolves (c : Console) {index : Nat} (other : index ≠ Io.interruptFlag)
    (v : UInt8) : c.Evolves 0 { c with hw := { c.hw with io := c.hw.io.write index v } } := by
  refine { Evolves.refl c with requested := ?_ }
  simp only [Hardware.requested, Segment.read_write_ne _ other]
  exact id

theorem setRequested_evolves (c : Console) (kept : c.hw.requested < 0x20 → flags < 0x20) :
    c.Evolves 0 { c with hw := c.hw.setRequested flags } := by
  refine { Evolves.refl c with requested := ?_ }
  simp only [Hardware.requested, Hardware.setRequested,
    Segment.read_write_same _ (show Io.interruptFlag < 0x80 by decide)]
  exact kept

theorem request_evolves (c : Console) (line : Interrupt) :
    c.Evolves 0 { c with hw := c.hw.request line } := by
  refine c.setRequested_evolves fun fits => ?_
  rw [UInt8.lt_iff_toNat_lt] at fits ⊢
  rw [UInt8.toNat_or]
  refine Nat.or_lt_two_pow (n := 5) fits ?_
  cases line <;> decide

theorem acknowledge_evolves (c : Console) (line : Interrupt) :
    c.Evolves 0 { c with hw := c.hw.acknowledge line } := by
  refine c.setRequested_evolves fun fits => ?_
  rw [UInt8.lt_iff_toNat_lt] at fits ⊢
  rw [UInt8.toNat_and]
  exact Nat.lt_of_le_of_lt Nat.and_le_left fits

theorem plain_other (region : Region.io.Spans address)
    (plain : IoRegister.ofAddress color address = .plain) : ioIndex address ≠ Io.interruptFlag := by
  intro same
  have flag : address = 0xFF0F := by
    apply UInt16.toNat.inj
    obtain ⟨above, below⟩ := region
    simp only [ioIndex, Io.interruptFlag] at same
    simp only [UInt16.reduceToNat]
    omega
  subst flag
  simp [IoRegister.ofAddress] at plain

theorem writeIo_evolves (c : Console) (region : Region.io.Spans address) (v : UInt8) :
    c.Evolves 0 (c.writeIo address v) := by
  unfold writeIo
  dsimp only
  cases register : IoRegister.ofAddress c.hw.isColor address with
  | div => exact { Evolves.refl c with timer := .single .resetDiv }
  | tima => exact { Evolves.refl c with timer := .single (.writeTima v) }
  | tma => exact { Evolves.refl c with timer := .single (.writeTma v) }
  | tac => exact { Evolves.refl c with timer := .single (.writeTac v) }
  | interruptFlag =>
    refine c.setRequested_evolves fun _ => ?_
    rw [UInt8.lt_iff_toNat_lt]
    simp only [UInt8.toNat_mod, UInt8.reduceToNat]
    omega
  | oamDma => exact { Evolves.refl c with oamDma := .single (.start v) }
  | speed | vramBank | wramBank => exact c.writePlainIo_evolves (by decide) _
  | vramSourceHigh => exact c.mapVramDma_evolves (.sourceHigh v)
  | vramSourceLow => exact c.mapVramDma_evolves (.sourceLow v)
  | vramDestinationHigh => exact c.mapVramDma_evolves (.destinationHigh v)
  | vramDestinationLow => exact c.mapVramDma_evolves (.destinationLow v)
  | vramControl => exact c.writeVramControl_evolves v
  | plain => exact c.writePlainIo_evolves (plain_other region register) v

theorem setSpriteMemory_evolves (c : Console) (oam : Segment 0xA0) :
    c.Evolves 0 { c with hw := { c.hw with oam } } :=
  { Evolves.refl c with }

theorem setHighRam_evolves (c : Console) (hram : Segment 0x7F) :
    c.Evolves 0 { c with hw := { c.hw with hram } } :=
  { Evolves.refl c with }

theorem writeRegion_evolves (c : Console) (spans : region.Spans address) (v : UInt8) :
    c.Evolves 0 (c.writeRegion region address v) := by
  cases region with
  | rom => exact c.writeRom_evolves address v
  | vram => exact { Evolves.refl c with vram := Memory.size_write .. }
  | cartRam => exact c.writeRam_evolves _ v
  | wramFixed | wramBanked => exact { Evolves.refl c with wram := Memory.size_write .. }
  | oam =>
    rw [writeRegion]
    split
    · exact .refl c
    · exact c.setSpriteMemory_evolves _
  | unusable => exact .refl c
  | io => exact c.writeIo_evolves spans v
  | hram => exact c.setHighRam_evolves _
  | interruptEnable => exact { Evolves.refl c with }

/-! The processor and the timer. -/

theorem clockTimer_evolves (c : Console) : c.Evolves 0 { c with hw := c.hw.clockTimer } := by
  have clocked : c.Evolves 0 { c with hw := { c.hw with timer := c.hw.timer.clock } } :=
    { Evolves.refl c with timer := .single .clock }
  rw [Hardware.clockTimer]
  split
  · exact clocked.trans (request_evolves _ .timer)
  · exact clocked

theorem switchSpeed_evolves (c : Console) : c.Evolves 0 { c with hw := c.hw.switchSpeed } := by
  rw [Hardware.switchSpeed]
  split
  · have switched : c.Evolves 0 { c with
        hw := { c.hw with doubleSpeed := !c.hw.doubleSpeed, timer := c.hw.timer.resetDiv } } :=
      { Evolves.refl c with timer := .single .resetDiv }
    exact switched.trans (writePlainIo_evolves _ (show Io.speed ≠ Io.interruptFlag by decide) _)
  · exact .refl c

end Console

end GameBoy
