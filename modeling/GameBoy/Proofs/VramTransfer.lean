import GameBoy.Proofs.Ledger

/-!
Transfers into video RAM that happen at once. Every byte of the source is copied into the visible
bank, where the destination goes round, and nothing else in memory changes. Main statement:
`vram_copied`.
-/

namespace GameBoy

namespace VramDma

/-- The registers when a number of bytes has been copied. The source goes round the address space,
and the destination goes round video RAM. -/
def past (t : VramDma) (bytes : Nat) : VramDma :=
  { t with
    source := t.source + UInt16.ofNat bytes
    destination :=
      UInt16.ofNat (0x8000 + (t.destination.toNat - 0x8000 + bytes) % vramBankSize) }

/-- A destination is where blocks can begin. -/
structure Aligned (t : VramDma) : Prop where
  above : 0x8000 ≤ t.destination.toNat
  below : t.destination.toNat ≤ 0x9FF0
  whole : t.destination.toNat % 16 = 0

/-- A multiple of 16 loses only what lies above video RAM. -/
private theorem and_window {address : Nat} (whole : address % 16 = 0) :
    address &&& 0x1FF0 = address % 0x2000 := by
  obtain ⟨block, rfl⟩ := Nat.dvd_of_mod_eq_zero whole
  have shifted : 16 * block &&& 0x1FF0 = 16 * (block &&& 0x1FF) := by
    have distrib : (block &&& 0x1FF) <<< 4 = block <<< 4 &&& 0x1FF <<< 4 :=
      Nat.shiftLeft_and_distrib
    rw [Nat.mul_comm, Nat.mul_comm 16, ← Nat.shiftLeft_eq block 4, ← Nat.shiftLeft_eq _ 4, distrib]
    rfl
  have window : block &&& 0x1FF = block % 2 ^ 9 := Nat.and_two_pow_sub_one_eq_mod block 9
  rw [shifted, window]
  omega

theorem past_zero {t : VramDma} (aligned : t.Aligned) : t.past 0 = t := by
  obtain ⟨above, below, -⟩ := aligned
  have same : 0x8000 + (t.destination.toNat - 0x8000 + 0) % vramBankSize =
      t.destination.toNat := by
    rw [vramBankSize]
    omega
  rw [past, same, UInt16.ofNat_toNat]
  simp

theorem toNat_destination_past (t : VramDma) (bytes : Nat) :
    (t.past bytes).destination.toNat =
      0x8000 + (t.destination.toNat - 0x8000 + bytes) % vramBankSize := by
  simp only [past, UInt16.toNat_ofNat', vramBankSize]
  omega

/-- Each block moves the registers on by its size. -/
theorem copied_past {t : VramDma} (aligned : t.Aligned) (blocks : Nat) :
    (t.past (16 * blocks)).copied = t.past (16 * (blocks + 1)) := by
  obtain ⟨above, below, whole⟩ := aligned
  have destination := t.toNat_destination_past (16 * blocks)
  have next : ((t.past (16 * blocks)).destination + blockSize).toNat =
      (t.past (16 * blocks)).destination.toNat + 16 := by
    rw [UInt16.toNat_add, destination, vramBankSize]
    simp only [blockSize, UInt16.reduceToNat]
    omega
  have source : t.source + UInt16.ofNat (16 * blocks) + blockSize =
      t.source + UInt16.ofNat (16 * (blocks + 1)) := by
    rw [UInt16.add_assoc, Nat.mul_succ, UInt16.ofNat_add]
    rfl
  have moved : destinationOf ((t.past (16 * blocks)).destination + blockSize) =
      (t.past (16 * (blocks + 1))).destination := by
    apply UInt16.toNat.inj
    rw [toNat_destinationOf, and_window (by rw [next, destination, vramBankSize]; omega), next,
      destination, toNat_destination_past, vramBankSize]
    omega
  rw [copied, moved]
  simp only [past, source]

/-- The control register holds one block less than it asks for. -/
theorem toNat_blocks {v : UInt8} (low : v < 0x80) : (v % 128 + 1).toNat = v.toNat + 1 := by
  have small : v.toNat < 0x80 := UInt8.lt_iff_toNat_lt.mp low
  simp only [UInt8.toNat_add, UInt8.toNat_mod, UInt8.reduceToNat]
  omega

end VramDma

namespace Console

/-- Where a byte of a transfer goes: into the visible bank, from the destination on and round. -/
def vramTarget (c : Console) (index : Nat) : Nat :=
  c.hw.vramOffset + (c.hw.vramDma.destination.toNat - 0x8000 + index) % vramBankSize

/-- Where a byte of a transfer comes from. -/
def vramOrigin (c : Console) (index : Nat) : UInt16 := c.hw.vramDma.source + UInt16.ofNat index

/-- Video RAM when a number of bytes has been copied into it: those are what the source held at the
start, and all others are as they were. -/
structure Transferred (c : Console) (count : Nat) (vram : Memory) : Prop where
  size : vram.size = c.hw.vram.size
  fresh : ∀ index < count, c.vramTarget index < vram.size →
    vram.read (c.vramTarget index) = c.wired (c.vramOrigin index)
  stale : ∀ address, (∀ index < count, address ≠ c.vramTarget index) →
    vram.read address = c.hw.vram.read address

/-- A transfer sees what it has copied only in video RAM, and how far it is only in its own control
register. -/
theorem wired_transfer (c : Console) {vram : Memory} {vramDma : VramDma} (stall : UInt32)
    (shown : Region.vram.Spans address → vram = c.hw.vram)
    (control : address = 0xFF55 → vramDma.readControl = c.hw.vramDma.readControl) :
    wired { c with hw := { c.hw with vram, vramDma, stall } } address = c.wired address := by
  have spans := Region.spans_ofAddress address
  unfold wired
  cases region : Region.ofAddress address with
  | vram =>
    rw [shown (region ▸ spans)]
    rfl
  | io =>
    have color : Hardware.isColor { c.hw with vram, vramDma, stall } = c.hw.isColor := rfl
    rw [readRegion, readRegion, Hardware.readIo, Hardware.readIo, color]
    cases register : IoRegister.ofAddress c.hw.isColor address with
    | vramControl => exact control (eq_of_ofAddress_vramControl register)
    | _ => rfl
  | _ => rfl

/-- Video RAM holds more than the longest transfer, so none comes round to its own first byte. -/
theorem vramTarget_ne (c : Console) {index later : Nat} (before : index < later)
    (round : later < vramBankSize) : c.vramTarget later ≠ c.vramTarget index := by
  simp only [vramTarget, vramBankSize] at round ⊢
  omega

theorem Transferred.zero (c : Console) : c.Transferred 0 c.hw.vram where
  size := rfl
  fresh := nofun
  stale _ _ := rfl

theorem Transferred.succ {c : Console} (copied : c.Transferred count vram)
    (round : count < vramBankSize) :
    c.Transferred (count + 1)
      (vram.write (c.vramTarget count) (c.wired (c.vramOrigin count))) where
  size := (Memory.size_write ..).trans copied.size
  fresh index inside fits := by
    rw [Memory.size_write] at fits
    rcases Nat.lt_succ_iff_lt_or_eq.mp inside with earlier | rfl
    · rw [Memory.read_write_ne _ (c.vramTarget_ne earlier round)]
      exact copied.fresh index earlier fits
    · exact Memory.read_write_same fits _
  stale address outside := by
    rw [Memory.read_write_ne _ (outside count (Nat.lt_succ_self _)).symm]
    exact copied.stale address fun index inside => outside index (Nat.lt_succ_of_lt inside)

variable {c : Console}

/-- The bytes of a block are the next ones of the whole transfer. -/
theorem vramIndex_past (aligned : c.hw.vramDma.Aligned) (blocks : Nat) {index : Nat}
    (_ : index < 16) :
    c.hw.vramIndex ((c.hw.vramDma.past (16 * blocks)).destination + UInt16.ofNat index) =
      c.vramTarget (16 * blocks + index) := by
  obtain ⟨above, below, whole⟩ := aligned
  have destination := c.hw.vramDma.toNat_destination_past (16 * blocks)
  simp only [Hardware.vramIndex, vramTarget, vramBankSize, UInt16.toNat_add, UInt16.toNat_ofNat']
    at destination ⊢
  omega

theorem source_past (t : VramDma) (bytes index : Nat) :
    (t.past bytes).source + UInt16.ofNat index = t.source + UInt16.ofNat (bytes + index) := by
  rw [UInt16.ofNat_add, ← UInt16.add_assoc]
  rfl

/-- A part of a block, from where the blocks before it have led. -/
theorem copyVramBytes_transfer (aligned : c.hw.vramDma.Aligned) {blocks : Nat}
    (copied : c.Transferred (16 * blocks) vram) (stall : UInt32) {count : Nat}
    (part : count ≤ 16) (round : 16 * blocks + count ≤ vramBankSize)
    (elsewhere : ∀ index < 16 * blocks + count, ¬Region.vram.Spans (c.vramOrigin index)) :
    let vramDma := c.hw.vramDma.past (16 * blocks)
    ∃ next, c.Transferred (16 * blocks + count) next ∧
      copyVramBytes { c with hw := { c.hw with vram, vramDma, stall } } count =
        { c with hw := { c.hw with vram := next, vramDma, stall } } := by
  intro vramDma
  induction count with
  | zero => exact ⟨vram, copied, rfl⟩
  | succ count ih =>
    obtain ⟨next, bytes, done⟩ := ih (by omega) (by omega) fun index inside =>
      elsewhere index (by omega)
    refine ⟨_, bytes.succ (by omega), ?_⟩
    have origin : vramDma.source + UInt16.ofNat count = c.vramOrigin (16 * blocks + count) :=
      source_past c.hw.vramDma (16 * blocks) count
    have target : c.hw.vramIndex (vramDma.destination + UInt16.ofNat count) =
        c.vramTarget (16 * blocks + count) := vramIndex_past aligned blocks part
    have byte : wired { c with hw := { c.hw with vram := next, vramDma, stall } }
        (vramDma.source + UInt16.ofNat count) = c.wired (c.vramOrigin (16 * blocks + count)) := by
      rw [origin]
      exact c.wired_transfer stall (fun inside => absurd inside (elsewhere _ (Nat.lt_succ_self _)))
        fun _ => rfl
    rw [copyVramBytes, done, copyVramByte]
    dsimp only
    rw [byte, ← target]
    rfl

/-- Whole blocks copy one stretch, and each takes its time. -/
theorem copyVramBlocks_transfer (aligned : c.hw.vramDma.Aligned) {count : Nat}
    (round : 16 * count ≤ vramBankSize)
    (elsewhere : ∀ index < 16 * count, ¬Region.vram.Spans (c.vramOrigin index)) :
    ∃ vram, c.Transferred (16 * count) vram ∧
      c.copyVramBlocks count =
        { c with
          hw :=
            { c.hw with
              vram, vramDma := c.hw.vramDma.past (16 * count)
              stall := c.hw.stall + UInt32.ofNat count * c.blockStall } } := by
  induction count with
  | zero =>
    refine ⟨c.hw.vram, .zero c, ?_⟩
    have none : UInt32.ofNat 0 * c.blockStall = 0 := UInt32.zero_mul
    rw [copyVramBlocks, VramDma.past_zero aligned, none, UInt32.add_zero]
  | succ count ih =>
    obtain ⟨vram, copied, done⟩ := ih (by omega) fun index inside => elsewhere index (by omega)
    obtain ⟨next, bytes, block⟩ := copyVramBytes_transfer aligned copied
      (c.hw.stall + UInt32.ofNat count * c.blockStall) (Nat.le_refl 16) (by omega) elsewhere
    refine ⟨next, bytes, ?_⟩
    have stall : c.hw.stall + UInt32.ofNat (count + 1) * c.blockStall =
        c.hw.stall + UInt32.ofNat count * c.blockStall + c.blockStall := by
      have one : UInt32.ofNat 1 * c.blockStall = c.blockStall := UInt32.one_mul _
      rw [UInt32.ofNat_add, UInt32.add_mul, one, UInt32.add_assoc]
    rw [copyVramBlocks, done, copyVramBlock, show VramDma.blockSize.toNat = 16 from rfl, block,
      ← VramDma.copied_past aligned, stall]
    rfl

end Console

namespace Machine

variable {m : Machine σ}

/-- Where an address leads that no device has taken over. -/
theorem route_io (free : m.handlers.lookup address = none)
    (region : Region.ofAddress address = .io) : m.route address = .memory .io := by
  rw [route, free]
  dsimp only
  rw [region]
  rfl

theorem ofAddress_vramControl (color : m.console.hw.model = .color) :
    IoRegister.ofAddress m.console.hw.isColor 0xFF55 = .vramControl := by
  rw [Hardware.isColor, color]
  rfl

theorem write_vramControl (color : m.console.hw.model = .color)
    (free : m.handlers.lookup 0xFF55 = none) (v : UInt8) :
    m.write 0xFF55 v = m.mapConsole (·.writeVramControl v) := by
  rw [write, route_io free (by decide)]
  simp only [mapConsole, Console.writeRegion, Console.writeIo, ofAddress_vramControl color]

/-- A transfer that happens at once copies the bytes that its source holds at the start, one after
the other into the visible bank and round from its end to its beginning. Nothing else changes but
the registers of the transfer, which point behind the last byte, and the time it takes, which is the
same at either speed. The source may go round the address space and lie anywhere outside video
RAM. -/
theorem vram_copied (color : m.console.hw.model = .color)
    (free : m.handlers.lookup 0xFF55 = none) (idle : m.console.hw.vramDma.active = false)
    (aligned : m.console.hw.vramDma.Aligned) {v : UInt8} (batch : v < 0x80)
    (elsewhere :
      ∀ index < 16 * (v.toNat + 1), ¬Region.vram.Spans (m.console.vramOrigin index)) :
    ∃ vram, m.console.Transferred (16 * (v.toNat + 1)) vram ∧
      m.write 0xFF55 v = m.mapHardware fun hw =>
        { hw with
          vram
          vramDma :=
            { hblank := hw.vramDma.hblank, active := false, blocks := 0
              source := hw.vramDma.source + UInt16.ofNat (16 * (v.toNat + 1))
              destination := UInt16.ofNat
                (0x8000 +
                  (hw.vramDma.destination.toNat - 0x8000 + 16 * (v.toNat + 1)) % 0x2000) }
          stall := hw.stall + UInt32.ofNat (v.toNat + 1) * if hw.doubleSpeed then 16 else 8 } := by
  have small : v.toNat < 0x80 := UInt8.lt_iff_toNat_lt.mp batch
  let begun := m.console.mapVramDma fun dma => { dma with blocks := v % 128 + 1 }
  have same (address : UInt16) : begun.wired address = m.console.wired address := by
    refine m.console.wired_transfer m.console.hw.stall (fun _ => rfl) fun _ => ?_
    simp only [VramDma.readControl, idle, Bool.false_eq_true, if_false]
  have round : 16 * (v.toNat + 1) ≤ vramBankSize := by
    rw [vramBankSize]
    omega
  obtain ⟨vram, copied, done⟩ := Console.copyVramBlocks_transfer (c := begun)
    ⟨aligned.above, aligned.below, aligned.whole⟩ round elsewhere
  refine ⟨vram, ⟨copied.size, fun index inside fits => ?_, copied.stale⟩, ?_⟩
  · exact (copied.fresh index inside fits).trans (same _)
  · have starts : m.console.mapVramDma (fun dma => { dma with blocks := v % 128 + 1 }) = begun := rfl
    rw [write_vramControl color free, mapConsole, Console.writeVramControl, if_pos batch, idle,
      if_neg Bool.false_ne_true, VramDma.toNat_blocks batch, starts, done, mapHardware]
    simp only [Console.mapVramDma, begun, VramDma.past, idle, Console.blockStall, vramBankSize]

/-- Two blocks of work RAM come to the start of video RAM. -/
theorem vram_copied_work_ram :
    ∃ cart, Cartridge.ofImage (Cartridge.blankImage 0x00 0) = .ok cart ∧
      let m := ((powerOn cart (some .color) ()).write 0xFF51 0xC0).write 0xC005 0x77
      let n := m.write 0xFF55 0x01
      n.console.hw.vram.read 5 = 0x77 ∧ n.console.hw.vramDma.source = 0xC020 ∧
        n.console.hw.stall = 16 := by
  obtain ⟨cart, accepted, -, -⟩ := Cartridge.ofImage_blank 0x00 0 rfl rfl
  refine ⟨cart, accepted, ?_⟩
  intro m n
  have source : m.console.hw.vramDma.source = 0xC000 := rfl
  have destination : m.console.hw.vramDma.destination = 0x8000 := rfl
  have aligned : m.console.hw.vramDma.Aligned := by
    constructor <;> rw [destination] <;> decide
  have elsewhere : ∀ index < 16 * ((0x01 : UInt8).toNat + 1),
      ¬Region.vram.Spans (m.console.vramOrigin index) := by
    intro index
    rw [Console.vramOrigin, source]
    revert index
    decide
  obtain ⟨vram, copied, done⟩ := vram_copied (m := m) rfl rfl rfl aligned (by decide) elsewhere
  have size : vram.size = Model.color.vramSize := copied.size.trans (Memory.size_zeros _)
  have bank : (ioAfterBoot .color).read Io.vramBank = 0 := by decide +kernel
  have offset : m.console.hw.vramOffset =
      ((ioAfterBoot .color).read Io.vramBank % 2).toNat * vramBankSize := rfl
  have target : m.console.vramTarget 5 = 5 := by
    rw [Console.vramTarget, destination, offset, bank]
    decide
  have origin : m.console.vramOrigin 5 = 0xC005 := by
    rw [Console.vramOrigin, source]
    decide
  have region : Region.ofAddress 0xC005 = .wramFixed := by decide
  have stored : m.console.wired 0xC005 = 0x77 := by
    let begun := (powerOn cart (some .color) ()).write 0xFF51 0xC0
    have written : m.console = begun.console.writeRegion .wramFixed 0xC005 0x77 := by
      show (begun.write 0xC005 0x77).console = _
      rw [Machine.write, route_bare _ rfl, region]
      rfl
    have kept {c : Console} (inside : 5 < c.hw.wram.size) :
        (c.writeRegion .wramFixed 0xC005 0x77).readRegion .wramFixed 0xC005 = 0x77 :=
      Memory.read_write_same inside 0x77
    have work : begun.console.hw.wram.size = Model.color.wramSize := Memory.size_zeros _
    rw [Console.wired, region, written]
    exact kept (by rw [work]; decide)
  have byte := copied.fresh 5 (by decide)
  rw [target, origin, stored, size] at byte
  rw [show n = _ from done]
  exact ⟨byte (by decide), rfl, rfl⟩

end Machine

end GameBoy
