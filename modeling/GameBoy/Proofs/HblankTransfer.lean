import GameBoy.Proofs.SessionLog
import GameBoy.Proofs.VramTransfer

/-!
Transfers into video RAM that copy one block in each horizontal blank. They copy what a transfer at
once copies, as long as none of them reads its own control register, and they can be ended after
every block. Main statement: `transfers_agree`.
-/

namespace GameBoy

/-- A write that begins a transfer in the horizontal blanks. -/
def BusWrite.StartsTransfer (w : BusWrite) : Prop := w.address = 0xFF55 ∧ 0x80 ≤ w.value

namespace Console

/-- The display enters horizontal blank a number of times. -/
def hblanks (c : Console) : Nat → Console
  | 0 => c
  | count + 1 => (c.hblanks count).hblank

/-- Sets how many blocks are left, and whether and how they are copied. -/
def setControl (c : Console) (blocks : UInt8) (hblank active : Bool) : Console :=
  c.mapVramDma fun dma => { dma with blocks, hblank, active }

variable {c : Console} {blocks : UInt8} {hblank active : Bool}

/-! What is left to copy does not matter for what is copied. -/

theorem copyVramByte_setControl {index : UInt16} (other : c.hw.vramDma.source + index ≠ 0xFF55) :
    (c.setControl blocks hblank active).copyVramByte index =
      (c.copyVramByte index).setControl blocks hblank active := by
  have byte : (c.setControl blocks hblank active).wired (c.hw.vramDma.source + index) =
      c.wired (c.hw.vramDma.source + index) :=
    c.wired_transfer c.hw.stall (fun _ => rfl) fun same => absurd same other
  simp only [copyVramByte]
  rw [show (c.setControl blocks hblank active).hw.vramDma.source = c.hw.vramDma.source from rfl,
    byte]
  rfl

theorem vramDma_copyVramBytes (c : Console) (count : Nat) :
    (c.copyVramBytes count).hw.vramDma = c.hw.vramDma := by
  obtain ⟨vram, -, copied⟩ := c.copyVramBytes_eq count
  rw [copied]

theorem copyVramBytes_setControl {count : Nat}
    (other : ∀ index < count, c.vramOrigin index ≠ 0xFF55) :
    (c.setControl blocks hblank active).copyVramBytes count =
      (c.copyVramBytes count).setControl blocks hblank active := by
  induction count with
  | zero => rfl
  | succ count ih =>
    rw [copyVramBytes, ih fun index inside => other index (Nat.lt_succ_of_lt inside),
      copyVramByte_setControl, copyVramBytes]
    rw [vramDma_copyVramBytes]
    exact other count (Nat.lt_succ_self count)

theorem copyVramBlock_setControl (other : ∀ index < 16, c.vramOrigin index ≠ 0xFF55) :
    (c.setControl blocks hblank active).copyVramBlock =
      c.copyVramBlock.setControl blocks hblank active := by
  rw [copyVramBlock, copyVramBlock, show VramDma.blockSize.toNat = 16 from rfl,
    copyVramBytes_setControl other]
  rfl

theorem source_copyVramBlocks (c : Console) (count : Nat) :
    (c.copyVramBlocks count).hw.vramDma.source =
      c.hw.vramDma.source + UInt16.ofNat (16 * count) := by
  induction count with
  | zero => exact (UInt16.add_zero _).symm
  | succ count ih =>
    obtain ⟨vram, -, copied⟩ := (c.copyVramBlocks count).copyVramBlock_eq
    rw [copyVramBlocks, copied, Nat.mul_succ, UInt16.ofNat_add, ← UInt16.add_assoc, ← ih]
    rfl

/-- The bytes of a later block come from behind those of the blocks before it. -/
theorem vramOrigin_copyVramBlocks (c : Console) (count index : Nat) :
    (c.copyVramBlocks count).vramOrigin index = c.vramOrigin (16 * count + index) := by
  rw [vramOrigin, source_copyVramBlocks, vramOrigin, UInt16.ofNat_add, UInt16.add_assoc]

/-- Each block takes the same time. -/
theorem stall_copyVramBlocks (c : Console) (count : Nat) :
    (c.copyVramBlocks count).hw.stall = c.hw.stall + UInt32.ofNat count * c.blockStall := by
  induction count with
  | zero =>
    have none : UInt32.ofNat 0 * c.blockStall = 0 := UInt32.zero_mul
    rw [none, UInt32.add_zero]
    rfl
  | succ count ih =>
    have one : UInt32.ofNat 1 * c.blockStall = c.blockStall := UInt32.one_mul _
    obtain ⟨vram, -, copied⟩ := (c.copyVramBlocks count).copyVramBlock_eq
    rw [copyVramBlocks, copied, UInt32.ofNat_add, UInt32.add_mul, one, ← UInt32.add_assoc, ← ih,
      ← c.blockStall_copyVramBlocks count]

theorem copyVramBlocks_setControl {count : Nat}
    (other : ∀ index < 16 * count, c.vramOrigin index ≠ 0xFF55) :
    (c.setControl blocks hblank active).copyVramBlocks count =
      (c.copyVramBlocks count).setControl blocks hblank active := by
  induction count with
  | zero => rfl
  | succ count ih =>
    rw [copyVramBlocks, ih fun index inside => other index (by omega), copyVramBlock_setControl,
      copyVramBlocks]
    intro index inside
    rw [vramOrigin_copyVramBlocks]
    exact other _ (by omega)

/-! Blocks in horizontal blanks. -/

/-- Without a transfer a horizontal blank passes unnoticed. -/
theorem hblank_idle (idle : c.hw.vramDma.active = false) : c.hblank = c := by
  rw [Console.hblank, idle, if_neg Bool.false_ne_true]

theorem hblanks_idle (idle : c.hw.vramDma.active = false) (count : Nat) : c.hblanks count = c := by
  induction count with
  | zero => rfl
  | succ count ih => rw [hblanks, ih, hblank_idle idle]

theorem hblank_running (running : c.hw.vramDma.active = true) :
    c.hblank = c.copyVramBlock.mapVramDma VramDma.countDown := if_pos running

theorem hblank_setControl (other : ∀ index < 16, c.vramOrigin index ≠ 0xFF55) :
    (c.setControl blocks hblank true).hblank =
      c.copyVramBlock.setControl (blocks - 1) hblank (decide (blocks - 1 ≠ 0)) := by
  have counted (d : Console) : (d.setControl blocks hblank true).mapVramDma VramDma.countDown =
      d.setControl (blocks - 1) hblank (decide (blocks - 1 ≠ 0)) := rfl
  rw [hblank_running rfl, copyVramBlock_setControl other, counted]

/-- Each horizontal blank copies the next block, and the transfer ends with the last one. -/
theorem hblanks_running {total count : Nat} (few : total ≤ 0x80) (part : count ≤ total)
    (other : ∀ index < 16 * count, c.vramOrigin index ≠ 0xFF55) (some : 0 < total) :
    (c.setControl (UInt8.ofNat total) true true).hblanks count =
      (c.copyVramBlocks count).setControl (UInt8.ofNat (total - count)) true
        (decide (count < total)) := by
  induction count with
  | zero =>
    rw [decide_eq_true some]
    rfl
  | succ count ih =>
    have next : ∀ index < 16, (c.copyVramBlocks count).vramOrigin index ≠ 0xFF55 := by
      intro index inside
      rw [vramOrigin_copyVramBlocks]
      exact other _ (by omega)
    have left : UInt8.ofNat (total - count) - 1 = UInt8.ofNat (total - (count + 1)) := by
      apply UInt8.toNat.inj
      simp only [UInt8.toNat_sub, UInt8.toNat_ofNat', UInt8.reduceToNat]
      omega
    have more : (UInt8.ofNat (total - (count + 1)) ≠ 0) = (count + 1 < total) := by
      rw [ne_eq, ← UInt8.toNat_inj, UInt8.toNat_ofNat', UInt8.toNat_zero, eq_iff_iff]
      omega
    rw [hblanks, ih (by omega) fun index inside => other index (by omega),
      decide_eq_true (show count < total from part), hblank_setControl next, copyVramBlocks, left]
    simp only [more]

theorem writeVramControl_start {v : UInt8} (low : v < 0x80) :
    c.writeVramControl (v ||| 0x80) = c.setControl (UInt8.ofNat (v.toNat + 1)) true true := by
  have small : v.toNat < 2 ^ 7 := UInt8.lt_iff_toNat_lt.mp low
  have bits : (v ||| 0x80).toNat = 0x80 + v.toNat := by
    rw [UInt8.toNat_or, Nat.or_comm]
    exact (Nat.two_pow_add_eq_or_of_lt small 1).symm
  have high : ¬v ||| 0x80 < 0x80 := by
    rw [UInt8.lt_iff_toNat_lt, bits]
    exact Nat.not_lt.mpr (Nat.le_add_right ..)
  have blocks : (v ||| 0x80) % 128 + 1 = UInt8.ofNat (v.toNat + 1) := by
    apply UInt8.toNat.inj
    simp only [UInt8.toNat_add, UInt8.toNat_mod, bits, UInt8.toNat_ofNat', UInt8.reduceToNat]
    omega
  rw [writeVramControl, if_neg high, blocks]
  rfl

theorem writeVramControl_atOnce (idle : c.hw.vramDma.active = false) {v : UInt8} (low : v < 0x80)
    (other : ∀ index < 16 * (v.toNat + 1), c.vramOrigin index ≠ 0xFF55) :
    c.writeVramControl v =
      (c.copyVramBlocks (v.toNat + 1)).setControl 0 c.hw.vramDma.hblank false := by
  have begun : (c.mapVramDma fun dma => { dma with blocks := v % 128 + 1 }) =
      c.setControl (v % 128 + 1) c.hw.vramDma.hblank false := by
    rw [← idle]
    rfl
  have ended (d : Console) (blocks : UInt8) (hblank : Bool) :
      ((d.setControl blocks hblank false).mapVramDma fun dma => { dma with blocks := 0 }) =
        d.setControl 0 hblank false := rfl
  rw [writeVramControl, if_pos low, idle, if_neg Bool.false_ne_true, VramDma.toNat_blocks low,
    begun, copyVramBlocks_setControl other, ended]

/-- Clearing the high bit ends a transfer that runs. -/
theorem writeVramControl_cancel {v : UInt8} (low : v < 0x80) :
    (c.setControl blocks hblank true).writeVramControl v = c.setControl blocks hblank false := by
  rw [writeVramControl, if_pos low]
  rfl

/-- A transfer that has been asked for, after some horizontal blanks. -/
theorem hblanks_started {v : UInt8} (low : v < 0x80)
    (other : ∀ index < 16 * (v.toNat + 1), c.vramOrigin index ≠ 0xFF55) {count : Nat}
    (part : count ≤ v.toNat + 1) :
    (c.writeVramControl (v ||| 0x80)).hblanks count =
      (c.copyVramBlocks count).setControl (UInt8.ofNat (v.toNat + 1 - count)) true
        (decide (count < v.toNat + 1)) := by
  have small : v.toNat < 0x80 := UInt8.lt_iff_toNat_lt.mp low
  rw [writeVramControl_start low]
  exact hblanks_running (by omega) part (fun index inside => other index (by omega)) (by omega)

/-! A transfer begins only when it is asked to. -/

theorem writeSource_active (t : VramDma) (v : UInt8) :
    (t.writeSourceHigh v).active = t.active ∧ (t.writeSourceLow v).active = t.active ∧
      (t.writeDestinationHigh v).active = t.active ∧
        (t.writeDestinationLow v).active = t.active := by
  refine ⟨?_, ?_, ?_, ?_⟩
  · unfold VramDma.writeSourceHigh
    split <;> rfl
  · unfold VramDma.writeSourceLow
    split <;> rfl
  · unfold VramDma.writeDestinationHigh
    split <;> rfl
  · unfold VramDma.writeDestinationLow
    split <;> rfl

theorem writeVramControl_idle (idle : c.hw.vramDma.active = false) {v : UInt8} (low : v < 0x80) :
    (c.writeVramControl v).hw.vramDma.active = false := by
  rw [writeVramControl, if_pos low, idle, if_neg Bool.false_ne_true]
  exact (copyVramBlocks_active _ _).trans idle

theorem writeRegion_idle (idle : c.hw.vramDma.active = false) {address : UInt16} {v : UInt8}
    (quiet : ¬BusWrite.StartsTransfer { met := c, address, value := v }) :
    (c.writeRegion (.ofAddress address) address v).hw.vramDma.active = false := by
  cases Region.ofAddress address with
  | rom =>
    obtain ⟨banks, clock, fault, written⟩ := c.writeRom_eq address v
    rw [writeRegion, written]
    exact idle
  | cartRam =>
    obtain ⟨cartRam, clock, dirty, written⟩ := c.writeRam_eq (address.toNat % ramBankSize) v
    rw [writeRegion, written]
    exact idle
  | oam =>
    have stored (oam : Segment 0xA0) :
        ({ c with hw := { c.hw with oam } } : Console).hw.vramDma = c.hw.vramDma := rfl
    rw [writeRegion]
    split
    · exact idle
    · rw [stored, idle]
  | hram =>
    have stored (hram : Segment 0x7F) :
        ({ c with hw := { c.hw with hram } } : Console).hw.vramDma = c.hw.vramDma := rfl
    rw [writeRegion, stored, idle]
  | io =>
    obtain ⟨sourceHigh, sourceLow, destinationHigh, destinationLow⟩ :=
      writeSource_active c.hw.vramDma v
    rw [writeRegion, writeIo]
    cases register : IoRegister.ofAddress c.hw.isColor address with
    | vramSourceHigh => exact sourceHigh.trans idle
    | vramSourceLow => exact sourceLow.trans idle
    | vramDestinationHigh => exact destinationHigh.trans idle
    | vramDestinationLow => exact destinationLow.trans idle
    | vramControl =>
      refine writeVramControl_idle idle (UInt8.not_le.mp fun high => ?_)
      exact quiet ⟨eq_of_ofAddress_vramControl register, high⟩
    | _ => exact idle
  | _ => exact idle

/-- Unless a transfer has been asked for, none runs. -/
def IdleUnlessStarted (log : List BusWrite) (c : Console) : Prop :=
  (∀ w ∈ log, ¬w.StartsTransfer) → c.hw.vramDma.active = false

theorem idle_invariant : SessionInvariant IdleUnlessStarted where
  inward idle inward quiet := by rw [inward.vramDma, idle quiet]
  write idle address v quiet := by
    obtain ⟨before, last⟩ := List.forall_mem_append.mp quiet
    exact writeRegion_idle (idle before) (last _ List.mem_cons_self)
  lost idle _ v quiet := idle (List.forall_mem_append.mp quiet).1
  own idle own quiet := by
    have idle := idle quiet
    cases own with
    | tickCartridge =>
      unfold tickCartridge
      split <;> exact idle
    | hblank => rw [hblank_idle idle, idle]
    | _ => exact idle

end Console

namespace Machine

/-- No transfer into video RAM runs. -/
def Idle (m : Machine σ) : Prop := m.console.hw.vramDma.active = false

variable {m : Machine σ}

/-- Whatever a session does, a transfer begins only when a write asks for it. -/
theorem after_idle (bare : m.handlers = []) (idle : m.Idle) {operations : List Operation}
    (quiet : ∀ w ∈ m.sessionWrites operations, ¬w.StartsTransfer) : (m.after operations).Idle := by
  have started : Console.IdleUnlessStarted [] m.console := fun _ => idle
  exact after_invariant Console.idle_invariant bare started operations quiet

/-! The registers on the bus. -/

theorem read_vramControl (color : m.console.hw.model = .color)
    (free : m.handlers.lookup 0xFF55 = none) :
    m.read 0xFF55 = (m.console.hw.vramDma.readControl, m) := by
  rw [read, route_io free (by decide)]
  simp only [Console.readRegion, Hardware.readIo, ofAddress_vramControl color]

/-- A running transfer keeps its addresses. -/
theorem write_running (color : m.console.hw.model = .color) {address : UInt16}
    (free : m.handlers.lookup address = none) (running : m.console.hw.vramDma.active = true)
    (first : 0xFF51 ≤ address) (last : address ≤ 0xFF54) (v : UInt8) : m.write address v = m := by
  have colors : m.console.hw.isColor = true := by rw [Hardware.isColor, color]; rfl
  have kept {f : VramDma → VramDma} (same : f m.console.hw.vramDma = m.console.hw.vramDma) :
      m.console.mapVramDma f = m.console := by rw [Console.mapVramDma, same]
  have registers : address = 0xFF51 ∨ address = 0xFF52 ∨ address = 0xFF53 ∨ address = 0xFF54 := by
    simp only [UInt16.le_iff_toNat_le, ← UInt16.toNat_inj, UInt16.reduceToNat] at first last ⊢
    omega
  have none : m.console.writeIo address v = m.console := by
    rw [Console.writeIo, colors]
    rcases registers with rfl | rfl | rfl | rfl <;> exact kept (if_pos running)
  have region : Region.ofAddress address = .io := by
    rcases registers with rfl | rfl | rfl | rfl <;> decide
  rw [write, route_io free region]
  simp only [mapConsole, Console.writeRegion, none]

/-- The machine when some blocks of a transfer have been copied in horizontal blanks. -/
def partway (m : Machine σ) (copied : Nat) (left : UInt8) (active : Bool) : Machine σ :=
  m.mapConsole fun c => (c.copyVramBlocks copied).setControl left true active

theorem model_partway (m : Machine σ) (copied : Nat) (left : UInt8) (active : Bool) :
    (m.partway copied left active).console.hw.model = m.console.hw.model :=
  (m.console.copyVramBlocks_evolves copied).model

theorem stall_partway (m : Machine σ) (copied : Nat) (left : UInt8) (active : Bool) :
    (m.partway copied left active).console.hw.stall =
      m.console.hw.stall + UInt32.ofNat copied * m.console.blockStall :=
  m.console.stall_copyVramBlocks copied

theorem read_partway (color : m.console.hw.model = .color)
    (free : m.handlers.lookup 0xFF55 = none) (copied : Nat) (left : UInt8) :
    (m.partway copied left true).read 0xFF55 = ((left - 1) % 128, m.partway copied left true) := by
  have control (d : Console) :
      (d.setControl left true true).hw.vramDma.readControl = (left - 1) % 128 := if_pos rfl
  have reads : (m.partway copied left true).read 0xFF55 = (_, m.partway copied left true) :=
    read_vramControl ((m.model_partway copied left true).trans color) free
  rw [reads]
  exact congrArg (·, _) (control _)

theorem write_partway (color : m.console.hw.model = .color)
    (free : m.handlers.lookup 0xFF55 = none) (copied : Nat) (left : UInt8) {v : UInt8}
    (low : v < 0x80) :
    (m.partway copied left true).write 0xFF55 v = m.partway copied left false := by
  have cancels : (m.partway copied left true).write 0xFF55 v =
      (m.partway copied left true).mapConsole (·.writeVramControl v) :=
    write_vramControl ((m.model_partway copied left true).trans color) free v
  rw [cancels]
  simp only [partway, mapConsole, Console.writeVramControl_cancel low]

/-- A transfer that has been asked for, after some horizontal blanks. -/
theorem mapConsole_hblanks (color : m.console.hw.model = .color)
    (free : m.handlers.lookup 0xFF55 = none) {v : UInt8} (low : v < 0x80)
    (other : ∀ index < 16 * (v.toNat + 1), m.console.vramOrigin index ≠ 0xFF55) {count : Nat}
    (part : count ≤ v.toNat + 1) :
    (m.write 0xFF55 (v ||| 0x80)).mapConsole (·.hblanks count) =
      m.partway count (UInt8.ofNat (v.toNat + 1 - count)) (decide (count < v.toNat + 1)) := by
  rw [write_vramControl color free]
  simp only [mapConsole, partway, Console.hblanks_started low other part]

/-- A transfer that has happened at once, but for how it was asked for. -/
theorem write_atOnce (color : m.console.hw.model = .color)
    (free : m.handlers.lookup 0xFF55 = none) (idle : m.Idle) {v : UInt8} (low : v < 0x80)
    (other : ∀ index < 16 * (v.toNat + 1), m.console.vramOrigin index ≠ 0xFF55) :
    (m.write 0xFF55 v).mapConsole (·.mapVramDma fun dma => { dma with hblank := true }) =
      m.partway (v.toNat + 1) 0 false := by
  have marked (d : Console) (hblank : Bool) :
      (d.setControl 0 hblank false).mapVramDma (fun dma => { dma with hblank := true }) =
        d.setControl 0 true false := rfl
  rw [write_vramControl color free]
  simp only [mapConsole, partway, Console.writeVramControl_atOnce idle low other, marked]

/-- A transfer in the horizontal blanks copies what a transfer at once copies, even where it reads
what it has copied before, and takes the same time. While it runs its control register tells how
many blocks are left, and its addresses stay as they are; when it is ended, the blocks copied so far
have been copied, and no horizontal blank copies another one until a transfer is asked for
again. -/
theorem transfers_agree (color : m.console.hw.model = .color)
    (free : ∀ address, 0xFF51 ≤ address → address ≤ 0xFF55 → m.handlers.lookup address = none)
    (idle : m.console.hw.vramDma.active = false) {v : UInt8} (low : v < 0x80)
    (other : ∀ index < 16 * (v.toNat + 1), m.console.vramOrigin index ≠ 0xFF55) :
    let running count := (m.write 0xFF55 (v ||| 0x80)).mapConsole (·.hblanks count)
    running (v.toNat + 1) = (m.write 0xFF55 v).mapConsole
        (·.mapVramDma fun dma => { dma with hblank := true }) ∧
    ∀ count ≤ v.toNat,
      (running count).read 0xFF55 = (UInt8.ofNat (v.toNat - count), running count) ∧
      (∀ address, 0xFF51 ≤ address → address ≤ 0xFF54 →
        ∀ w, (running count).write address w = running count) ∧
      ∀ w < 0x80,
        let ended := (running count).write 0xFF55 w
        (ended = m.mapConsole fun c => (c.copyVramBlocks count).mapVramDma fun dma =>
          { dma with
            blocks := UInt8.ofNat (v.toNat + 1 - count), hblank := true, active := false }) ∧
        ended.console.hw.stall =
          m.console.hw.stall + UInt32.ofNat count * m.console.blockStall ∧
        (∀ later, ended.mapConsole (·.hblanks later) = ended) ∧
        (m.handlers = [] → ∀ operations, (∀ w ∈ ended.sessionWrites operations, ¬w.StartsTransfer) →
          (ended.after operations).mapConsole (·.hblank) = ended.after operations) := by
  intro running
  have control := free 0xFF55 (by decide) (by decide)
  have small : v.toNat < 0x80 := UInt8.lt_iff_toNat_lt.mp low
  refine ⟨?_, fun count part => ?_⟩
  · have last : running (v.toNat + 1) = m.partway (v.toNat + 1) _ _ :=
      mapConsole_hblanks color control low other (Nat.le_refl _)
    rw [last, write_atOnce color control idle low other, Nat.sub_self,
      decide_eq_false (Nat.lt_irrefl _)]
    rfl
  · have few : count < v.toNat + 1 := Nat.lt_succ_of_le part
    have now : running count = m.partway count _ _ :=
      mapConsole_hblanks color control low other (Nat.le_of_lt few)
    rw [now, decide_eq_true few]
    refine ⟨?_, fun address first last w => ?_, fun w cleared => ?_⟩
    · have left : (UInt8.ofNat (v.toNat + 1 - count) - 1) % 128 =
          UInt8.ofNat (v.toNat - count) := by
        apply UInt8.toNat.inj
        simp only [UInt8.toNat_mod, UInt8.toNat_sub, UInt8.toNat_ofNat', UInt8.reduceToNat]
        omega
      rw [read_partway color control, left]
    · exact write_running ((m.model_partway ..).trans color)
        (free address first (UInt16.le_trans last (by decide))) rfl first last w
    · intro ended
      have cancelled : ended = m.partway count _ false := write_partway color control _ _ cleared
      have ceased : ended.Idle := by rw [cancelled]; rfl
      refine ⟨cancelled, ?_, fun later => ?_, fun bare operations quiet => ?_⟩
      · rw [cancelled, stall_partway]
      · exact congrArg (fun console => { ended with console }) (Console.hblanks_idle ceased later)
      · have bareEnded : ended.handlers = [] := by rw [cancelled]; exact bare
        exact congrArg (fun console => { ended.after operations with console })
          (Console.hblank_idle (after_idle bareEnded ceased quiet))

/-- A transfer that reads what it has copied before, and is ended after the first of its two
blocks. -/
theorem transfers_agree_overlapping :
    ∃ cart, Cartridge.ofImage (Cartridge.blankImage 0x00 0) = .ok cart ∧
      let m := ((powerOn cart (some .color) ()).write 0xFF51 0x80).write 0xFF54 0x10
      let running count := (m.write 0xFF55 (0x01 ||| 0x80)).mapConsole (·.hblanks count)
      m.console.hw.vramDma.source = 0x8000 ∧ m.console.hw.vramDma.destination = 0x8010 ∧
        (running 2).console.hw.vram = (m.write 0xFF55 0x01).console.hw.vram ∧
        ((running 1).read 0xFF55).1 = 0 ∧
        let ended := (running 1).write 0xFF55 0x00
        let later := ended.after [.write 0xFF51 0xC0, .write 0xFF55 0x00]
        ended.console.hw.stall = 8 ∧ later.mapConsole (·.hblank) = later := by
  obtain ⟨cart, accepted, -, -⟩ := Cartridge.ofImage_blank 0x00 0 rfl rfl
  refine ⟨cart, accepted, ?_⟩
  intro m running
  have source : m.console.hw.vramDma.source = 0x8000 := rfl
  have destination : m.console.hw.vramDma.destination =
      VramDma.destinationOf ((0x8000 &&& 0x1F00) + ((0x10 : UInt8) &&& 0xF0).toUInt16) := rfl
  have other : ∀ index < 16 * ((0x01 : UInt8).toNat + 1), m.console.vramOrigin index ≠ 0xFF55 := by
    intro index
    rw [Console.vramOrigin, source]
    revert index
    decide
  obtain ⟨agree, midway⟩ :=
    transfers_agree (m := m) (v := 0x01) rfl (fun _ _ _ => rfl) rfl (by decide) other
  obtain ⟨left, -, cancel⟩ := midway 1 (by decide)
  obtain ⟨-, stall, -, quiet⟩ := cancel 0x00 (by decide)
  refine ⟨source, destination.trans (by decide +kernel), ?_, ?_, ?_, ?_⟩
  · have kept (n : Machine Unit) (f : VramDma → VramDma) :
        (n.mapConsole (·.mapVramDma f)).console.hw.vram = n.console.hw.vram := rfl
    have agree : running 2 = _ := agree
    rw [agree, kept]
  · exact congrArg Prod.fst left
  · exact stall
  · refine quiet rfl _ fun w written => ?_
    simp only [sessionWrites, writesOf, List.append_nil, List.mem_append, List.mem_singleton]
      at written
    have elsewhere : (0xFF51 : UInt16) ≠ 0xFF55 := by decide
    have cleared : ¬(0x80 : UInt8) ≤ 0x00 := by decide
    rcases written with rfl | rfl
    · exact fun starts => elsewhere starts.1
    · exact fun starts => cleared starts.2

end Machine

end GameBoy
