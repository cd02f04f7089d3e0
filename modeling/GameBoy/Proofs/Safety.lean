import GameBoy.Proofs.Checked
import GameBoy.Proofs.Invariant

/-!
A sound console never leaves its memories and never counts beyond the width of a number: every
checked operation succeeds and does what the operation itself does.
-/

namespace GameBoy

/-! The clock. -/

namespace ClockTime

variable {t : ClockTime}

private theorem toNat_succ_mod {v : UInt8} (fits : v.toNat ≤ 0xFE) (modulus : UInt8) :
    ((v + 1) % modulus).toNat = (v.toNat + 1) % modulus.toNat := by
  have more : (v + 1).toNat = v.toNat + 1 := by
    simp only [UInt8.toNat_add, UInt8.reduceToNat]
    omega
  rw [UInt8.toNat_mod, more]

/-- A counter that fits is counted as the wrapping one. -/
private theorem counter_cases {v : UInt8} (fits : v.toNat ≤ 0xFE) (modulus last : UInt8) :
    fit? 8 (v.toNat + 1) = some (v.toNat + 1) ∧
      UInt8.ofNat ((v.toNat + 1) % modulus.toNat) = (v + 1) % modulus ∧
      ((v.toNat + 1) % modulus.toNat = last.toNat ↔ (v + 1) % modulus = last) := by
  refine ⟨fit?_eq (by omega), ?_, ?_⟩
  · rw [← toNat_succ_mod fits, UInt8.ofNat_toNat]
  · rw [← toNat_succ_mod fits, UInt8.toNat_inj]

theorem nextHour?_eq (fits : t.hours.toNat ≤ 0xFE) : t.nextHour? = some t.nextHour := by
  obtain ⟨counted, next, last⟩ := counter_cases fits 32 24
  simp only [UInt8.reduceToNat] at next last
  rw [nextHour?, counted, Option.bind_eq_bind, Option.bind_some, nextHour]
  by_cases full : (t.hours + 1) % 32 = 24
  · rw [if_pos (last.mpr full), if_pos full]
    rfl
  · rw [if_neg (mt last.mp full), if_neg full, ← next]
    rfl

theorem nextMinute?_eq (fits : t.minutes.toNat ≤ 0xFE) (hours : t.hours.toNat ≤ 0xFE) :
    t.nextMinute? = some t.nextMinute := by
  obtain ⟨counted, next, last⟩ := counter_cases fits 64 60
  simp only [UInt8.reduceToNat] at next last
  rw [nextMinute?, counted, Option.bind_eq_bind, Option.bind_some, nextMinute]
  by_cases full : (t.minutes + 1) % 64 = 60
  · rw [if_pos (last.mpr full), if_pos full]
    exact nextHour?_eq hours
  · rw [if_neg (mt last.mp full), if_neg full, ← next]
    rfl

theorem nextSecond?_eq (fits : t.Within 0xFE 0xFE) : t.nextSecond? = some t.nextSecond := by
  obtain ⟨counted, next, last⟩ := counter_cases fits.seconds 64 60
  simp only [UInt8.reduceToNat] at next last
  rw [nextSecond?, counted, Option.bind_eq_bind, Option.bind_some, nextSecond]
  by_cases full : (t.seconds + 1) % 64 = 60
  · rw [if_pos (last.mpr full), if_pos full]
    exact nextMinute?_eq fits.minutes fits.hours
  · rw [if_neg (mt last.mp full), if_neg full, ← next]
    rfl

end ClockTime

theorem Clock.Sound.tick?_eq {c : Clock} (sound : c.Sound) : c.tick? = some c.tick := by
  have subsecond := sound.subsecond
  rw [tick?, tick]
  by_cases halted : c.live.halted
  · rw [if_pos halted, if_pos halted]
  · have more : (c.subsecond + 1).toNat = c.subsecond.toNat + 1 := by
      simp only [UInt32.toNat_add, UInt32.reduceToNat]
      omega
    rw [if_neg halted, if_neg halted, fit?_eq (by omega), Option.bind_eq_bind, Option.bind_some,
      ← more, UInt32.ofNat_toNat]
    by_cases below : c.subsecond + 1 < ticksPerSecond
    · rw [if_pos below, if_pos (UInt32.lt_iff_toNat_lt.mp below)]
      rfl
    · rw [if_neg below, if_neg (mt UInt32.lt_iff_toNat_lt.mpr below),
        ClockTime.nextSecond?_eq sound.live]
      rfl

/-- Video RAM begins at a multiple of its window. -/
theorem Region.vramOffset_eq (spans : Region.vram.Spans address) :
    address.toNat - 0x8000 = address.toNat % vramBankSize := by
  obtain ⟨above, below⟩ := spans
  rw [vramBankSize]
  omega

/-- So does cartridge RAM. -/
theorem Region.cartRamOffset_eq (spans : Region.cartRam.Spans address) :
    address.toNat - 0xA000 = address.toNat % ramBankSize := by
  obtain ⟨above, below⟩ := spans
  rw [ramBankSize]
  omega

namespace Console

variable {c : Console}

theorem Readable.readRom?_eq (readable : c.Readable) (below : address.toNat < 0x8000) :
    c.readRom? address = some (c.readRom address) := by
  obtain ⟨inside0, addable0⟩ := readable.banks.rom0
  obtain ⟨inside1, addable1⟩ := readable.banks.rom1
  rw [romBankSize] at *
  have index : c.romIndex? address = some (c.romIndex address) ∧
      c.romIndex address < c.cart.image.size := by
    unfold romIndex? romIndex
    rw [romBankSize]
    split
    · have index : (c.hw.banks.rom0Offset + address.toUInt64).toNat =
          c.hw.banks.rom0Offset.toNat + address.toNat := by
        rw [UInt64.toNat_add, UInt16.toNat_toUInt64]
        omega
      rw [index, fit?_eq (by omega)]
      exact ⟨rfl, by omega⟩
    · have index : (c.hw.banks.rom1Offset + UInt64.ofNat (address.toNat - 0x4000)).toNat =
          c.hw.banks.rom1Offset.toNat + address.toNat - 0x4000 := by
        rw [UInt64.toNat_add, UInt64.toNat_ofNat']
        omega
      rw [index, fit?_eq (by omega), Option.bind_eq_bind, Option.bind_some, minus?_eq (by omega)]
      exact ⟨rfl, by omega⟩
  rw [readRom?, index.1, Option.bind_eq_bind, Option.bind_some, Memory.get?_eq index.2, readRom]

/-! Cartridge RAM. -/

theorem ramTarget_nibble (target : c.ramTarget offset = .nibble index) :
    c.cart.controller = .mbc2 ∧ index = offset % Header.mbc2RamSize := by
  unfold ramTarget at target
  dsimp only at target
  split at target
  · cases target
  · split at target
    · rename_i mbc2
      cases target
      exact ⟨mbc2, rfl⟩
    · split at target <;> cases target

theorem ramTarget_clock (target : c.ramTarget offset = .clock register) :
    c.cart.controller = .mbc3 ∧ register = c.hw.banks.ramSelect.toNat - 8 := by
  unfold ramTarget at target
  dsimp only at target
  split at target
  · cases target
  · split at target
    · cases target
    · split at target
      · rename_i mbc3
        cases target
        exact ⟨mbc3.1, rfl⟩
      · cases target

theorem ramTarget_cell (target : c.ramTarget offset = .cell index) :
    index = (c.hw.banks.ramOffset + UInt64.ofNat offset).toNat := by
  unfold ramTarget at target
  dsimp only at target
  split at target
  · cases target
  · split at target
    · cases target
    · split at target
      · cases target
      · cases target
        rfl

/-- The bytes of an MBC2 are all there. -/
theorem Fits.nibble_lt (fits : c.Fits) (target : c.ramTarget offset = .nibble index) :
    index < c.hw.cartRam.size := by
  obtain ⟨mbc2, rfl⟩ := ramTarget_nibble target
  rw [fits.cartRam, fits.cart.mbc2 mbc2]
  exact Nat.mod_lt _ (by decide)

/-- The clock of an MBC3 has the register that is selected. -/
theorem Readable.register_lt (readable : c.Readable)
    (target : c.ramTarget offset = .clock register) : register < 5 := by
  obtain ⟨mbc3, rfl⟩ := ramTarget_clock target
  have select := readable.ramSelect mbc3
  omega

/-- A cell of the window can be addressed, though it may lie beyond the end of RAM. -/
theorem Readable.cell?_eq (readable : c.Readable) (window : offset < 0x2000)
    (target : c.ramTarget offset = .cell index) :
    fit? 64 (c.hw.banks.ramOffset.toNat + offset) = some index := by
  have small : c.hw.banks.ramOffset.toNat ≤ 0x20000 := by
    rcases readable.banks.ram with zero | inside
    · rw [zero]
      decide
    · have ram := readable.cart.ram
      rw [readable.cartRam] at inside
      omega
  rw [ramTarget_cell target, UInt64.toNat_add, UInt64.toNat_ofNat', fit?_eq (by omega)]
  congr 1
  omega

theorem Readable.readRam?_eq (readable : c.Readable) (window : offset < 0x2000) :
    c.readRam? offset = some (c.readRam offset) := by
  unfold readRam? readRam
  cases target : c.ramTarget offset with
  | closed => rfl
  | nibble index => simp [Memory.get?_eq (readable.nibble_lt target)]
  | clock register => exact if_pos (readable.register_lt target)
  | cell index => simp [readable.cell?_eq window target]

theorem Readable.writeRam?_eq (readable : c.Readable) (window : offset < 0x2000) (v : UInt8) :
    c.writeRam? offset v = some (c.writeRam offset v) := by
  unfold writeRam? writeRam
  cases target : c.ramTarget offset with
  | closed => rfl
  | nibble index => exact if_pos (readable.nibble_lt target)
  | clock register => rfl
  | cell index =>
    dsimp only
    rw [readable.cell?_eq window target, Option.bind_eq_bind, Option.bind_some]
    split <;> rfl

/-- A controller that takes a bank number modulo the ROM banks has some. -/
theorem Fits.writeRom?_eq (fits : c.Fits) (address : UInt16) (v : UInt8) :
    c.writeRom? address v = some (c.writeRom address v) := by
  refine if_neg fun divides => ?_
  have banks := fits.cart.banks
  rw [← fits.toNat_romBanks, divides.2] at banks
  exact absurd banks (by decide)

/-! Video and work RAM. -/

theorem Fits.vramIndex_lt (fits : c.Fits) (address : UInt16) :
    c.hw.vramIndex address < c.hw.vram.size := by
  have bank : (c.hw.io.read Io.vramBank % 2).toNat < 2 := by
    simp only [UInt8.toNat_mod, UInt8.reduceToNat]
    omega
  rw [fits.vram, Hardware.vramIndex, Hardware.vramOffset, Hardware.isColor, vramBankSize]
  cases c.hw.model with
  | monochrome =>
    simp only [Model.vramSize, vramBankSize]
    simp
    omega
  | color =>
    simp only [Model.vramSize, vramBankSize]
    simp
    omega

theorem Fits.wramFixed_lt (fits : c.Fits) (address : UInt16) :
    address.toNat % wramBankSize < c.hw.wram.size := by
  rw [fits.wram, wramBankSize]
  cases c.hw.model <;> simp only [Model.wramSize, wramBankSize] <;> omega

theorem Fits.wramIndex_lt (fits : c.Fits) (address : UInt16) :
    c.hw.wramIndex address < c.hw.wram.size := by
  have bank : (c.hw.io.read Io.wramBank % 8).toNat < 8 := by
    simp only [UInt8.toNat_mod, UInt8.reduceToNat]
    omega
  rw [fits.wram, Hardware.wramIndex, Hardware.wramOffset, Hardware.isColor, wramBankSize]
  cases c.hw.model with
  | monochrome =>
    simp only [Model.wramSize, wramBankSize]
    simp
    omega
  | color =>
    simp only [Model.wramSize, wramBankSize]
    simp
    omega

theorem Readable.readRegion?_eq (readable : c.Readable) (spans : region.Spans address) :
    c.readRegion? region address = some (c.readRegion region address) := by
  cases region with
  | rom => exact readable.readRom?_eq spans
  | vram =>
    rw [readRegion?, minus?_eq spans.1, Option.bind_eq_bind, Option.bind_some,
      Region.vramOffset_eq spans]
    exact Memory.get?_eq (readable.vramIndex_lt address)
  | cartRam =>
    rw [readRegion?, minus?_eq spans.1, Option.bind_eq_bind, Option.bind_some,
      Region.cartRamOffset_eq spans]
    exact readable.readRam?_eq (Nat.mod_lt _ (by decide))
  | wramFixed => exact Memory.get?_eq (readable.wramFixed_lt address)
  | wramBanked => exact Memory.get?_eq (readable.wramIndex_lt address)
  | oam =>
    rw [readRegion?, readRegion]
    split
    · rfl
    · rw [minus?_eq spans.1, Option.bind_eq_bind, Option.bind_some]
      have := spans.2
      exact Segment.get?_eq _ (by omega)
  | unusable => rfl
  | io => rfl
  | hram =>
    rw [readRegion?, minus?_eq spans.1, Option.bind_eq_bind, Option.bind_some]
    have := spans.2
    exact Segment.get?_eq _ (by omega)
  | interruptEnable => rfl

/-- Wherever a transfer reads, there is a byte. -/
theorem Readable.wired?_eq (readable : c.Readable) (address : UInt16) :
    c.wired? address = some (c.wired address) :=
  readable.readRegion?_eq (Region.spans_ofAddress address)

/-! Transfers. -/

theorem Readable.setOamDma (readable : c.Readable) (oamDma : OamDma) :
    Readable { c with hw := { c.hw with oamDma } } where
  cart := readable.cart
  identity := readable.identity
  romBanks := readable.romBanks
  cartRam := readable.cartRam
  vram := readable.vram
  wram := readable.wram
  banks := readable.banks
  ramSelect := readable.ramSelect

theorem Readable.copyOamByte?_eq (readable : c.Readable) (bytes : c.hw.oamDma.bytes.toNat < 160)
    (source : c.hw.oamDma.source.toNat + 159 ≤ 0xFFFF) :
    c.copyOamByte? = some c.copyOamByte := by
  have address : (c.hw.oamDma.source + c.hw.oamDma.bytes.toUInt16).toNat =
      c.hw.oamDma.source.toNat + c.hw.oamDma.bytes.toNat := by
    simp only [UInt16.toNat_add, UInt8.toNat_toUInt16]
    omega
  have copied : (c.hw.oamDma.bytes + 1).toNat = c.hw.oamDma.bytes.toNat + 1 := by
    simp only [UInt8.toNat_add, UInt8.reduceToNat]
    omega
  rw [copyOamByte?, fit?_eq (by omega), fit?_eq (by omega), ← address, ← copied]
  simp only [Option.bind_eq_bind, Option.bind_some, UInt16.ofNat_toNat, UInt8.ofNat_toNat,
    readable.wired?_eq, Segment.set?_eq _ bytes]
  rfl

theorem Sound.clockOamDma?_eq (sound : c.Sound) : c.clockOamDma? = some c.clockOamDma := by
  unfold clockOamDma? clockOamDma
  by_cases running : c.hw.oamDma.active = true
  · have bytes := sound.oamDma.bytes running
    have ticks := sound.oamDma.ticks running
    have ticked : (c.hw.oamDma.ticks + 1).toNat = c.hw.oamDma.ticks.toNat + 1 := by
      simp only [UInt16.toNat_add, UInt16.reduceToNat]
      omega
    rw [if_pos running, if_pos running, fit?_eq (by omega), ← ticked, Option.bind_eq_bind,
      Option.bind_some, UInt16.ofNat_toNat]
    dsimp only
    split
    · exact (sound.setOamDma _).copyOamByte?_eq bytes (sound.oamDma.source running)
    · rfl
  · rw [if_neg running, if_neg running]

/-- Within a block the source wraps, and the destination stays in video RAM. -/
theorem Readable.copyVramByte?_eq (readable : c.Readable)
    (below : c.hw.vramDma.destination.toNat ≤ 0x9FF0) (within : index.toNat < 16) :
    c.copyVramByte? index = some (c.copyVramByte index) := by
  have address : (c.hw.vramDma.destination + index).toNat =
      c.hw.vramDma.destination.toNat + index.toNat := by
    rw [UInt16.toNat_add]
    omega
  have inside := readable.vramIndex_lt (c.hw.vramDma.destination + index)
  rw [Hardware.vramIndex] at inside
  rw [copyVramByte?, fit?_eq (by omega), ← address]
  simp only [Option.bind_eq_bind, Option.bind_some, readable.wired?_eq, Memory.set?_eq inside]
  rfl

theorem Sound.copyVramBytes?_eq (sound : c.Sound) (within : count ≤ 16) :
    c.copyVramBytes? count = some (c.copyVramBytes count) := by
  induction count with
  | zero => rfl
  | succ count ih =>
    -- The bytes copied so far have changed nothing that the next one looks at.
    obtain ⟨vram, size, copied⟩ := c.copyVramBytes_eq count
    have evolved : c.Evolves 0 (c.copyVramBytes count) := by
      rw [copied]
      exact { Evolves.refl c with vram := size }
    have below : (c.copyVramBytes count).hw.vramDma.destination.toNat ≤ 0x9FF0 := by
      rw [copied]
      exact sound.vramDma.below
    have index : (UInt16.ofNat count).toNat < 16 := by
      rw [UInt16.toNat_ofNat']
      omega
    rw [copyVramBytes?, ih (by omega), Option.bind_eq_bind, Option.bind_some, copyVramBytes]
    exact (sound.toReadable.evolves evolved).copyVramByte?_eq below index

theorem blockStall_le (c : Console) : c.blockStall.toNat ≤ 16 := by
  unfold blockStall
  split <;> decide

theorem Sound.copyVramBlock?_eq (sound : c.Sound) (room : c.hw.stall.toNat + 16 < 2 ^ 32) :
    c.copyVramBlock? = some c.copyVramBlock := by
  obtain ⟨vram, size, copied⟩ := c.copyVramBytes_eq VramDma.blockSize.toNat
  have time : (if c.hw.doubleSpeed then 16 else 8) = c.blockStall.toNat := by
    unfold blockStall
    split <;> rfl
  have charged : (c.hw.stall + c.blockStall).toNat = c.hw.stall.toNat + c.blockStall.toNat := by
    have := c.blockStall_le
    rw [UInt32.toNat_add]
    omega
  have fits : fit? 32 (c.hw.stall.toNat + if c.hw.doubleSpeed then 16 else 8) =
      some (c.hw.stall + c.blockStall).toNat := by
    have := c.blockStall_le
    rw [time, charged, fit?_eq (by omega)]
  rw [copyVramBlock?, sound.copyVramBytes?_eq (show VramDma.blockSize.toNat ≤ 16 by decide),
    Option.bind_eq_bind, Option.bind_some, copyVramBlock, copied]
  dsimp only
  rw [fits, Option.bind_eq_bind, Option.bind_some, UInt32.ofNat_toNat]
  rfl

theorem stall_copyVramBlock_le (c : Console) (room : c.hw.stall.toNat + 16 < 2 ^ 32) :
    c.copyVramBlock.hw.stall.toNat ≤ c.hw.stall.toNat + 16 := by
  obtain ⟨vram, size, copied⟩ := c.copyVramBlock_eq
  have := c.blockStall_le
  rw [copied]
  simp only [UInt32.toNat_add]
  omega

theorem stall_copyVramBlocks_le (c : Console) (count : Nat)
    (room : c.hw.stall.toNat + 16 * count < 2 ^ 32) :
    (c.copyVramBlocks count).hw.stall.toNat ≤ c.hw.stall.toNat + 16 * count := by
  induction count with
  | zero => exact Nat.le_refl _
  | succ count ih =>
    have before := ih (by omega)
    have last := (c.copyVramBlocks count).stall_copyVramBlock_le (by omega)
    rw [copyVramBlocks]
    omega

theorem Sound.copyVramBlocks?_eq (sound : c.Sound) (count : Nat)
    (room : c.hw.stall.toNat + 16 * count < 2 ^ 32) :
    c.copyVramBlocks? count = some (c.copyVramBlocks count) := by
  induction count with
  | zero => rfl
  | succ count ih =>
    have before := c.stall_copyVramBlocks_le count (by omega)
    rw [copyVramBlocks?, ih (by omega), Option.bind_eq_bind, Option.bind_some, copyVramBlocks]
    exact (sound.evolves (c.copyVramBlocks_evolves count)).copyVramBlock?_eq (by omega)

theorem blocks_le (v : UInt8) : (v % 128 + 1).toNat ≤ 128 := by
  simp only [UInt8.toNat_add, UInt8.toNat_mod, UInt8.reduceToNat]
  omega

theorem Sound.writeVramControl?_eq (sound : c.Sound) (v : UInt8)
    (room : c.hw.stall.toNat + 2048 < 2 ^ 32) :
    c.writeVramControl? v = some (c.writeVramControl v) := by
  have most := blocks_le v
  unfold writeVramControl? writeVramControl
  dsimp only
  generalize v % 128 + 1 = blocks at most ⊢
  by_cases low : v < 0x80
  · by_cases running : c.hw.vramDma.active = true
    · simp [low, running]
    · have idle := Bool.eq_false_iff.mpr running
      have begun : c.Evolves 0 (c.mapVramDma fun dma => { dma with blocks }) :=
        c.mapVramDma_evolves (.blocks idle blocks)
      have copied := (sound.evolves begun).copyVramBlocks?_eq blocks.toNat
        (show c.hw.stall.toNat + 16 * blocks.toNat < 2 ^ 32 by omega)
      simp [low, idle, copied]
  · simp [low]

theorem stall_writeVramControl_le (c : Console) (v : UInt8)
    (room : c.hw.stall.toNat + 2048 < 2 ^ 32) :
    (c.writeVramControl v).hw.stall.toNat ≤ c.hw.stall.toNat + 2048 := by
  have most := blocks_le v
  unfold writeVramControl
  dsimp only
  generalize v % 128 + 1 = blocks at most ⊢
  split
  · split
    · exact Nat.le_add_right ..
    · have copied := (c.mapVramDma fun dma => { dma with blocks }).stall_copyVramBlocks_le
        blocks.toNat (show c.hw.stall.toNat + 16 * blocks.toNat < 2 ^ 32 by omega)
      refine Nat.le_trans copied ?_
      show c.hw.stall.toNat + 16 * blocks.toNat ≤ _
      omega
  · exact Nat.le_add_right ..

theorem Sound.hblank?_eq (sound : c.Sound) (room : c.hw.stall.toNat + 16 < 2 ^ 32) :
    c.hblank? = some c.hblank := by
  unfold hblank? hblank
  by_cases running : c.hw.vramDma.active = true
  · have blocks := sound.vramDma.blocks running
    obtain ⟨vram, size, copied⟩ := c.copyVramBlock_eq
    have left : 1 ≤ c.copyVramBlock.hw.vramDma.blocks.toNat := by
      rw [copied]
      exact blocks
    have fewer : UInt8.ofNat (c.copyVramBlock.hw.vramDma.blocks.toNat - 1) =
        c.copyVramBlock.hw.vramDma.blocks - 1 := by
      rw [UInt8.ofNat_sub left, UInt8.ofNat_toNat]
      rfl
    rw [if_pos running, if_pos running, sound.copyVramBlock?_eq room, Option.bind_eq_bind,
      Option.bind_some, minus?_eq left, Option.bind_eq_bind, Option.bind_some, fewer]
    rfl
  · rw [if_neg running, if_neg running]

/-! Writes. -/

theorem Sound.writeIo?_eq (sound : c.Sound) (address : UInt16) (v : UInt8)
    (room : c.hw.stall.toNat + 2048 < 2 ^ 32) :
    c.writeIo? address v = some (c.writeIo address v) := by
  unfold writeIo? writeIo
  dsimp only
  cases IoRegister.ofAddress c.hw.isColor address with
  | vramControl => exact sound.writeVramControl?_eq v room
  | _ => rfl

theorem Sound.writeRegion?_eq (sound : c.Sound) (spans : region.Spans address) (v : UInt8)
    (room : c.hw.stall.toNat + 2048 < 2 ^ 32) :
    c.writeRegion? region address v = some (c.writeRegion region address v) := by
  cases region with
  | rom => exact sound.writeRom?_eq address v
  | vram =>
    have inside := sound.vramIndex_lt address
    rw [Hardware.vramIndex] at inside
    rw [writeRegion?, minus?_eq spans.1, Option.bind_eq_bind, Option.bind_some,
      Region.vramOffset_eq spans, Memory.set?_eq inside]
    rfl
  | cartRam =>
    rw [writeRegion?, minus?_eq spans.1, Option.bind_eq_bind, Option.bind_some,
      Region.cartRamOffset_eq spans]
    exact sound.writeRam?_eq (Nat.mod_lt _ (by decide)) v
  | wramFixed =>
    rw [writeRegion?, Memory.set?_eq (sound.wramFixed_lt address)]
    rfl
  | wramBanked =>
    have inside := sound.wramIndex_lt address
    rw [Hardware.wramIndex] at inside
    rw [writeRegion?, Memory.set?_eq inside]
    rfl
  | oam =>
    rw [writeRegion?, writeRegion]
    split
    · rfl
    · have := spans.2
      rw [minus?_eq spans.1, Option.bind_eq_bind, Option.bind_some, Segment.set?_eq _ (by omega)]
      rfl
  | unusable => rfl
  | io => exact sound.writeIo?_eq address v room
  | hram =>
    have := spans.2
    rw [writeRegion?, minus?_eq spans.1, Option.bind_eq_bind, Option.bind_some,
      Segment.set?_eq _ (by omega)]
    rfl
  | interruptEnable => rfl

theorem stall_writeRom (c : Console) (address : UInt16) (v : UInt8) :
    (c.writeRom address v).hw.stall = c.hw.stall := by
  unfold writeRom mbc3Select
  dsimp only
  repeat' split
  all_goals rfl

theorem stall_writeRam (c : Console) (offset : Nat) (v : UInt8) :
    (c.writeRam offset v).hw.stall = c.hw.stall := by
  unfold writeRam
  repeat' split
  all_goals rfl

private theorem stall_setSpriteMemory_le (c : Console) (oam : Segment 0xA0) :
    ({ c with hw := { c.hw with oam } } : Console).hw.stall.toNat ≤ c.hw.stall.toNat + 2048 :=
  Nat.le_add_right ..

private theorem stall_setHighRam_le (c : Console) (hram : Segment 0x7F) :
    ({ c with hw := { c.hw with hram } } : Console).hw.stall.toNat ≤ c.hw.stall.toNat + 2048 :=
  Nat.le_add_right ..

/-- Only the control register of the transfer into video RAM takes time from the processor. -/
theorem stall_writeRegion_le (c : Console) (region : Region) (address : UInt16) (v : UInt8)
    (room : c.hw.stall.toNat + 2048 < 2 ^ 32) :
    (c.writeRegion region address v).hw.stall.toNat ≤ c.hw.stall.toNat + 2048 := by
  cases region with
  | rom =>
    rw [writeRegion, stall_writeRom]
    exact Nat.le_add_right ..
  | cartRam =>
    rw [writeRegion, stall_writeRam]
    exact Nat.le_add_right ..
  | oam =>
    rw [writeRegion]
    split
    · exact Nat.le_add_right ..
    · exact c.stall_setSpriteMemory_le _
  | hram => exact c.stall_setHighRam_le _
  | io =>
    rw [writeRegion, writeIo]
    cases IoRegister.ofAddress c.hw.isColor address with
    | vramControl => exact c.stall_writeVramControl_le v room
    | _ => exact Nat.le_add_right ..
  | _ => exact Nat.le_add_right ..

theorem Sound.tickCartridge?_eq (sound : c.Sound) :
    c.tickCartridge? = some c.tickCartridge := by
  unfold tickCartridge? tickCartridge
  split
  · rw [sound.clock.tick?_eq]
    rfl
  · rfl

end Console

end GameBoy
