import GameBoy.Proofs.Evolution

/-!
What accesses of the bus, and the chips that work beside the processor, leave alone: the processor
and the clocks that it waits for, and also the controller on the cartridge unless it is told
something. Main statement: `writeRegion_written`, which lists what a write can do to a console.
-/

namespace GameBoy.Console

/-- The processor is as before: its registers, its speed, and the clocks before its next
instruction. -/
structure Aside (c d : Console) : Prop where
  cpu : d.hw.cpu = c.hw.cpu
  doubleSpeed : d.hw.doubleSpeed = c.hw.doubleSpeed
  cyclesPending : d.hw.cyclesPending = c.hw.cyclesPending

/-- The processor is as before, and so is the controller. -/
structure Apart (c d : Console) : Prop extends c.Aside d where
  latches : d.hw.banks = c.hw.banks

/-- Also the enabled interrupts, the time that transfers have taken, and the fault that waits are as
before. -/
structure Beside (c d : Console) : Prop extends c.Apart d where
  ie : d.hw.ie = c.hw.ie
  stall : d.hw.stall = c.hw.stall
  fault : d.fault = c.fault

theorem Apart.refl (c : Console) : c.Apart c := ⟨⟨rfl, rfl, rfl⟩, rfl⟩

theorem Apart.trans (first : Apart c d) (second : Apart d e) : c.Apart e where
  cpu := second.cpu.trans first.cpu
  doubleSpeed := second.doubleSpeed.trans first.doubleSpeed
  cyclesPending := second.cyclesPending.trans first.cyclesPending
  latches := second.latches.trans first.latches

theorem Beside.refl (c : Console) : c.Beside c := ⟨.refl c, rfl, rfl, rfl⟩

theorem Beside.trans (first : Beside c d) (second : Beside d e) : c.Beside e where
  toApart := first.toApart.trans second.toApart
  ie := second.ie.trans first.ie
  stall := second.stall.trans first.stall
  fault := second.fault.trans first.fault

/-! The chips. -/

theorem clockTimer_beside (c : Console) : c.Beside { c with hw := c.hw.clockTimer } := by
  unfold Hardware.clockTimer
  split <;> exact { Beside.refl c with }

theorem tickCartridge_beside (c : Console) : c.Beside c.tickCartridge := by
  unfold tickCartridge
  split
  · exact { Beside.refl c with }
  · exact .refl c

theorem clockOamDma_beside (c : Console) : c.Beside c.clockOamDma := by
  by_cases running : c.hw.oamDma.active = true
  · obtain ⟨oam, clocked⟩ := c.clockOamDma_eq running
    rw [clocked]
    exact { Beside.refl c with }
  · rw [clockOamDma, if_neg running]
    exact .refl c

/-! Transfers into video RAM change nothing else. -/

theorem copyVramBlocks_eq (c : Console) (count : Nat) :
    ∃ vram vramDma stall,
      c.copyVramBlocks count = { c with hw := { c.hw with vram, vramDma, stall } } := by
  induction count with
  | zero => exact ⟨c.hw.vram, c.hw.vramDma, c.hw.stall, rfl⟩
  | succ count ih =>
    obtain ⟨vram, vramDma, stall, copied⟩ := ih
    obtain ⟨next, -, block⟩ := (c.copyVramBlocks count).copyVramBlock_eq
    rw [copied] at block
    exact ⟨_, _, _, by rw [copyVramBlocks, copied, block]⟩

theorem writeVramControl_eq (c : Console) (v : UInt8) :
    ∃ vram vramDma stall,
      c.writeVramControl v = { c with hw := { c.hw with vram, vramDma, stall } } := by
  rw [writeVramControl]
  split
  · split
    · exact ⟨_, _, _, rfl⟩
    · generalize v % 128 + 1 = blocks
      obtain ⟨vram, vramDma, stall, copied⟩ :=
        (c.mapVramDma fun dma => { dma with blocks }).copyVramBlocks_eq blocks.toNat
      rw [copied]
      exact ⟨_, _, _, rfl⟩
  · exact ⟨_, _, _, rfl⟩

theorem hblank_eq (c : Console) :
    ∃ vram vramDma stall, c.hblank = { c with hw := { c.hw with vram, vramDma, stall } } := by
  unfold hblank
  split
  · obtain ⟨vram, -, copied⟩ := c.copyVramBlock_eq
    rw [copied]
    exact ⟨_, _, _, rfl⟩
  · exact ⟨_, _, _, rfl⟩

theorem hblank_apart (c : Console) : c.Apart c.hblank := by
  obtain ⟨vram, vramDma, stall, copied⟩ := c.hblank_eq
  rw [copied]
  exact { Apart.refl c with }

/-! What reaches the cartridge changes nothing else. -/

theorem writeRom_eq (c : Console) (address : UInt16) (v : UInt8) :
    ∃ banks clock fault,
      c.writeRom address v = { c with hw := { c.hw with banks, clock }, fault } := by
  unfold writeRom mbc3Select
  cases c.cart.controller with
  | fixed => exact ⟨_, _, _, rfl⟩
  | mbc1 | mbc2 | mbc5 => exact ⟨_, _, _, rfl⟩
  | mbc3 =>
    dsimp only
    repeat' split
    all_goals exact ⟨_, _, _, rfl⟩

theorem writeRam_eq (c : Console) (offset : Nat) (v : UInt8) :
    ∃ cartRam clock batteryDirty,
      c.writeRam offset v = { c with hw := { c.hw with cartRam, clock, batteryDirty } } := by
  unfold writeRam
  cases c.ramTarget offset with
  | closed => exact ⟨_, _, _, rfl⟩
  | nibble index => exact ⟨_, _, _, rfl⟩
  | clock register => exact ⟨_, _, _, rfl⟩
  | cell index =>
    dsimp only
    split
    · exact ⟨_, _, _, rfl⟩
    · exact ⟨_, _, _, rfl⟩

/-! Writes. -/

/-- What a write of an address as part of a region can do to a console: it reaches one part. Only
commands to the controller reach its latches, sprite memory is written only while no transfer runs,
and a single register begins a transfer. -/
inductive Written (c : Console) (region : Region) (address : UInt16) : Console → Prop
  | nothing : Written c region address c
  | fault (fault : Fault) : Written c region address (c.raise fault)
  | banks (rom : region = .rom) (banks : Banks) :
    Written c region address { c with hw := { c.hw with banks } }
  | clock (clock : Clock) : Written c region address { c with hw := { c.hw with clock } }
  | cartRam (index : Nat) (v : UInt8) : Written c region address (c.storeRam index v)
  | vram (vram : Memory) : Written c region address { c with hw := { c.hw with vram } }
  | wram (wram : Memory) : Written c region address { c with hw := { c.hw with wram } }
  | oam (idle : ¬c.hw.oamDma.active = true) (oam : Segment 0xA0) :
    Written c region address { c with hw := { c.hw with oam } }
  | timer (timer : Timer) : Written c region address { c with hw := { c.hw with timer } }
  | io (io : Segment 0x80) : Written c region address { c with hw := { c.hw with io } }
  | oamDma (register : address = 0xFF46) (oamDma : OamDma) :
    Written c region address { c with hw := { c.hw with oamDma } }
  | vramDma (vram : Memory) (vramDma : VramDma) (stall : UInt32) :
    Written c region address { c with hw := { c.hw with vram, vramDma, stall } }
  | hram (hram : Segment 0x7F) : Written c region address { c with hw := { c.hw with hram } }
  | ie (ie : UInt8) : Written c region address { c with hw := { c.hw with ie } }

theorem writeRom_written (c : Console) (address : UInt16) (v : UInt8) :
    c.Written .rom address (c.writeRom address v) := by
  unfold writeRom mbc3Select
  cases c.cart.controller with
  | fixed => exact .nothing
  | mbc1 | mbc2 | mbc5 => exact .banks rfl _
  | mbc3 =>
    dsimp only
    repeat' split
    · exact .banks rfl _
    · exact .banks rfl _
    · exact .banks rfl _
    · exact .fault _
    · exact .clock _

theorem writeRam_written (c : Console) (address : UInt16) (offset : Nat) (v : UInt8) :
    c.Written .cartRam address (c.writeRam offset v) := by
  unfold writeRam
  cases c.ramTarget offset with
  | closed => exact .nothing
  | nibble index => exact .cartRam index _
  | clock register => exact .clock _
  | cell index =>
    dsimp only
    split
    · exact .cartRam index v
    · exact .nothing

theorem eq_of_ofAddress_oamDma (register : IoRegister.ofAddress color address = .oamDma) :
    address = 0xFF46 := by
  refine Decidable.byContradiction fun other => ?_
  simp [IoRegister.ofAddress, other, apply_ite (· = IoRegister.oamDma)] at register

theorem writeIo_written (c : Console) (address : UInt16) (v : UInt8) :
    c.Written .io address (c.writeIo address v) := by
  unfold writeIo
  dsimp only
  cases register : IoRegister.ofAddress c.hw.isColor address with
  | div | tima | tma | tac => exact .timer _
  | interruptFlag | speed | vramBank | wramBank | plain => exact .io _
  | oamDma => exact .oamDma (eq_of_ofAddress_oamDma register) _
  | vramSourceHigh | vramSourceLow | vramDestinationHigh | vramDestinationLow =>
    exact .vramDma _ _ _
  | vramControl =>
    obtain ⟨vram, vramDma, stall, written⟩ := c.writeVramControl_eq v
    dsimp only
    rw [written]
    exact .vramDma vram vramDma stall

theorem writeRegion_written (c : Console) (region : Region) (address : UInt16) (v : UInt8) :
    c.Written region address (c.writeRegion region address v) := by
  cases region with
  | rom => exact c.writeRom_written address v
  | vram => exact .vram _
  | cartRam => exact c.writeRam_written address _ v
  | wramFixed | wramBanked => exact .wram _
  | oam =>
    rw [writeRegion]
    split
    · exact .nothing
    · next idle => exact .oam idle _
  | unusable => exact .nothing
  | io => exact c.writeIo_written address v
  | hram => exact .hram _
  | interruptEnable => exact .ie v

theorem Written.aside {c d : Console} (written : c.Written region address d) : c.Aside d := by
  cases written with
  | nothing => exact (Apart.refl c).toAside
  | _ => exact { Apart.refl c with }

/-- Only writes to the ROM windows reach the controller. -/
theorem writeRegion_apart (c : Console) (other : region ≠ .rom) (address : UInt16) (v : UInt8) :
    c.Apart (c.writeRegion region address v) := by
  have written := c.writeRegion_written region address v
  refine { written.aside with latches := ?_ }
  generalize c.writeRegion region address v = d at written
  cases written with
  | banks rom => exact absurd rom other
  | _ => rfl

theorem writeRegion_aside (c : Console) (region : Region) (address : UInt16) (v : UInt8) :
    c.Aside (c.writeRegion region address v) := (c.writeRegion_written region address v).aside

/-! What a console does by itself. -/

/-- How a console moves when nothing is told to its controller. -/
structure Moves (ticks : Nat) (c d : Console) : Prop extends c.Evolves ticks d where
  latches : d.hw.banks = c.hw.banks

theorem Moves.refl (c : Console) : c.Moves 0 c := ⟨.refl c, rfl⟩

theorem raise_moves (c : Console) (fault : Fault) : c.Moves 0 (c.raise fault) :=
  ⟨c.raise_evolves fault, rfl⟩

theorem request_moves (c : Console) (line : Interrupt) :
    c.Moves 0 { c with hw := c.hw.request line } := ⟨c.request_evolves line, rfl⟩

theorem acknowledge_moves (c : Console) (line : Interrupt) :
    c.Moves 0 { c with hw := c.hw.acknowledge line } := ⟨c.acknowledge_evolves line, rfl⟩

theorem loadBattery_moves (c : Console) (saved : Memory) : c.Moves 0 (c.loadBattery saved) :=
  ⟨c.loadBattery_evolves saved, rfl⟩

theorem clockTimer_moves (c : Console) : c.Moves 0 { c with hw := c.hw.clockTimer } :=
  ⟨c.clockTimer_evolves, c.clockTimer_beside.latches⟩

theorem tickCartridge_moves (c : Console) : c.Moves 0 c.tickCartridge :=
  ⟨c.tickCartridge_evolves, c.tickCartridge_beside.latches⟩

theorem clockOamDma_moves (c : Console) : c.Moves 0 c.clockOamDma :=
  ⟨c.clockOamDma_evolves, c.clockOamDma_beside.latches⟩

theorem hblank_moves (c : Console) : c.Moves 0 c.hblank :=
  ⟨c.hblank_evolves, c.hblank_apart.latches⟩

theorem switchSpeed_moves (c : Console) : c.Moves 0 { c with hw := c.hw.switchSpeed } := by
  refine ⟨c.switchSpeed_evolves, ?_⟩
  unfold Hardware.switchSpeed
  split <;> rfl

end GameBoy.Console
