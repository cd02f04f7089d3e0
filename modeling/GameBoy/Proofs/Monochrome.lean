import GameBoy.Proofs.HblankTransfer
import GameBoy.Proofs.Requests

/-!
The color model's own features on the other model. No write begins a transfer into video RAM,
selects a bank or prepares another speed, and the registers of these features are plain bytes there.
Main statement: `color_features_unused`.
-/

namespace GameBoy

/-- The registers that belong to features of the color model. -/
def colorRegisters : List UInt16 :=
  [0xFF4D, 0xFF4F, 0xFF51, 0xFF52, 0xFF53, 0xFF54, 0xFF55, 0xFF70]

theorem forall_colorRegister {p : UInt16 → Prop} :
    (∀ a ∈ colorRegisters, p a) ↔
      p 0xFF4D ∧ p 0xFF4F ∧ p 0xFF51 ∧ p 0xFF52 ∧ p 0xFF53 ∧ p 0xFF54 ∧ p 0xFF55 ∧ p 0xFF70 := by
  simp [colorRegisters]

theorem ofAddress_colorRegister : ∀ a ∈ colorRegisters, Region.ofAddress a = .io :=
  forall_colorRegister.mpr (by decide)

theorem plain_colorRegister : ∀ a ∈ colorRegisters, IoRegister.ofAddress false a = .plain :=
  forall_colorRegister.mpr (by decide)

theorem ioIndex_colorRegister : ∀ a ∈ colorRegisters, ioIndex a ≠ Io.interruptFlag :=
  forall_colorRegister.mpr (by decide)

/-- I/O memory holds a byte for each address of its region. -/
theorem ioIndex_injective {a b : UInt16} (left : Region.io.Spans a) (right : Region.io.Spans b)
    (same : ioIndex a = ioIndex b) : a = b := by
  simp only [Region.Spans, ioIndex] at left right same
  apply UInt16.toNat_inj.mp
  omega

/-- The value that was last written to an address. -/
def BusWrite.latest (address : UInt16) (log : List BusWrite) (initial : UInt8) : UInt8 :=
  log.foldl (fun v w => if w.address = address then w.value else v) initial

theorem BusWrite.latest_append (address : UInt16) (log : List BusWrite) (w : BusWrite)
    (initial : UInt8) :
    latest address (log ++ [w]) initial =
      if w.address = address then w.value else latest address log initial := by
  simp only [latest, List.foldl_append, List.foldl_cons, List.foldl_nil]

namespace Hardware

/-- This is not the color model, and nothing has begun that belongs to that one. -/
structure ColorUnused (hw : Hardware) : Prop where
  monochrome : hw.isColor = false
  doubleSpeed : hw.doubleSpeed = false
  vramDma : hw.vramDma = { destination := 0x8000 }
  stall : hw.stall = 0

variable {hw : Hardware}

theorem ColorUnused.vramOffset (unused : hw.ColorUnused) : hw.vramOffset = 0 := by
  rw [Hardware.vramOffset, unused.monochrome]
  rfl

theorem ColorUnused.wramOffset (unused : hw.ColorUnused) : hw.wramOffset = 0x1000 := by
  rw [Hardware.wramOffset, unused.monochrome]
  rfl

theorem ColorUnused.powerOn (cart : Cartridge) :
    (Hardware.powerOn cart .monochrome).ColorUnused := ⟨rfl, rfl, rfl, rfl⟩

theorem powerOn_colorRegister (cart : Cartridge) :
    ∀ a ∈ colorRegisters, (powerOn cart .monochrome).io.read (ioIndex a) = 0 := by
  have zero : ∀ a ∈ colorRegisters, (ioAfterBoot .monochrome).read (ioIndex a) = 0 :=
    forall_colorRegister.mpr (by decide +kernel)
  exact zero

end Hardware

/-- The registers of the color model's features. -/
def IoRegister.isColor : IoRegister → Bool
  | .speed | .vramBank | .wramBank | .vramControl => true
  | .vramSourceHigh | .vramSourceLow | .vramDestinationHigh | .vramDestinationLow => true
  | _ => false

theorem IoRegister.isColor_ofAddress (address : UInt16) :
    (ofAddress false address).isColor = false := by
  simp only [ofAddress, Bool.not_false, if_true]
  split_ifs <;> rfl

namespace Console

open Hardware

variable {c d : Console}

theorem colorUnused_inward (unused : c.hw.ColorUnused) (inward : c.Inward d) :
    d.hw.ColorUnused where
  monochrome := inward.isColor.trans unused.monochrome
  doubleSpeed := (inward.speed unused.monochrome).trans unused.doubleSpeed
  vramDma := inward.vramDma.trans unused.vramDma
  stall := inward.stall unused.stall

/-- A write to an I/O register begins nothing that belongs to the color model, and leaves video RAM
alone. -/
theorem colorUnused_writeIo (unused : c.hw.ColorUnused) (address : UInt16) (v : UInt8) :
    (c.writeIo address v).hw.ColorUnused ∧ (c.writeIo address v).hw.vram = c.hw.vram := by
  have other := IoRegister.isColor_ofAddress address
  rw [writeIo, unused.monochrome]
  cases register : IoRegister.ofAddress false address with
  | div | tima | tma | tac | interruptFlag | oamDma | plain => exact ⟨{ unused with }, rfl⟩
  | _ =>
    rw [register] at other
    cases other

/-- Nor does any other write, and video RAM is written in its own window only. -/
theorem colorUnused_writeRegion (unused : c.hw.ColorUnused) (region : Region) (address : UInt16)
    (v : UInt8) :
    (c.writeRegion region address v).hw.ColorUnused ∧
      (region ≠ .vram → (c.writeRegion region address v).hw.vram = c.hw.vram) := by
  cases region with
  | rom =>
    obtain ⟨banks, clock, fault, written⟩ := c.writeRom_eq address v
    rw [writeRegion, written]
    exact ⟨{ unused with }, fun _ => rfl⟩
  | cartRam =>
    obtain ⟨cartRam, clock, dirty, written⟩ := c.writeRam_eq (address.toNat % ramBankSize) v
    rw [writeRegion, written]
    exact ⟨{ unused with }, fun _ => rfl⟩
  | oam =>
    have stored (oam : Segment 0xA0) : ({ c.hw with oam } : Hardware).ColorUnused ∧
        (Region.oam ≠ .vram → ({ c.hw with oam } : Hardware).vram = c.hw.vram) :=
      ⟨{ unused with }, fun _ => rfl⟩
    rw [writeRegion]
    split
    · exact ⟨unused, fun _ => rfl⟩
    · exact stored _
  | hram =>
    have stored (hram : Segment 0x7F) : ({ c.hw with hram } : Hardware).ColorUnused ∧
        (Region.hram ≠ .vram → ({ c.hw with hram } : Hardware).vram = c.hw.vram) :=
      ⟨{ unused with }, fun _ => rfl⟩
    exact stored _
  | io =>
    obtain ⟨still, vram⟩ := colorUnused_writeIo unused address v
    exact ⟨still, fun _ => vram⟩
  | vram => exact ⟨{ unused with }, fun other => absurd rfl other⟩
  | _ => exact ⟨{ unused with }, fun _ => rfl⟩

/-- A byte of video RAM is changed by writes to its own address only. -/
theorem vram_writeRegion (unused : c.hw.ColorUnused) {address : UInt16}
    (other : address.toNat ≠ 0x8000 + index) (v : UInt8) :
    (c.writeRegion (.ofAddress address) address v).hw.vram.read index = c.hw.vram.read index := by
  have spans := Region.spans_ofAddress address
  by_cases inVram : Region.ofAddress address = .vram
  · rw [inVram] at spans ⊢
    simp only [Region.Spans] at spans
    apply Memory.read_write_ne
    rw [vramIndex, unused.vramOffset, vramBankSize]
    omega
  · rw [(colorUnused_writeRegion unused _ address v).2 inVram]

/-- The registers of the color model's features store what is written to them. -/
theorem io_writeRegion_color (unused : c.hw.ColorUnused) (among : a ∈ colorRegisters)
    (address : UInt16) (v : UInt8) :
    (c.writeRegion (.ofAddress address) address v).hw.io.read (ioIndex a) =
      if address = a then v else c.hw.io.read (ioIndex a) := by
  have spansRegister := Region.spans_ofAddress a
  rw [ofAddress_colorRegister a among] at spansRegister
  by_cases region : Region.ofAddress address = .io
  · have spans := Region.spans_ofAddress address
    rw [region] at spans ⊢
    rw [writeRegion, writeIo, unused.monochrome]
    split_ifs with same
    · rw [same, plain_colorRegister a among]
      exact Segment.read_write_same _ (Nat.mod_lt _ (by decide)) v
    · have color := IoRegister.isColor_ofAddress address
      cases register : IoRegister.ofAddress false address with
      | div | tima | tma | tac | oamDma => rfl
      | interruptFlag => exact Segment.read_write_ne _ (ioIndex_colorRegister a among).symm _
      | plain =>
        have apart : ioIndex address ≠ ioIndex a := fun index =>
          same (ioIndex_injective spans spansRegister index)
        exact Segment.read_write_ne _ apart _
      | _ =>
        rw [register] at color
        cases color
  · rw [c.io_writeRegion region, if_neg]
    rintro rfl
    exact region (ofAddress_colorRegister _ among)

/-- What has become of the color model's features since some console, given what has been
written. -/
structure ColorStill (start : Console) (log : List BusWrite) (c : Console) : Prop where
  met : ∀ w ∈ log, w.met.hw.ColorUnused
  unused : c.hw.ColorUnused
  vram : (∀ w ∈ log, w.address.toNat ≠ 0x8000 + index) →
    c.hw.vram.read index = start.hw.vram.read index
  plain : a ∈ colorRegisters →
    c.hw.io.read (ioIndex a) = BusWrite.latest a log (start.hw.io.read (ioIndex a))

theorem ColorStill.refl (unused : c.hw.ColorUnused) : ColorStill c [] c where
  met := List.forall_mem_nil _
  unused := unused
  vram _ := rfl
  plain _ := by simp only [BusWrite.latest, List.foldl_nil]

/-- As long as nothing is written. -/
theorem ColorStill.silent (still : ColorStill start log c) (unused : d.hw.ColorUnused)
    (vram : d.hw.vram = c.hw.vram)
    (io : ∀ index, index ≠ Io.interruptFlag → d.hw.io.read index = c.hw.io.read index) :
    ColorStill start log d where
  met := still.met
  unused := unused
  vram quiet := by
    rw [vram]
    exact still.vram quiet
  plain among := by
    rw [io _ (ioIndex_colorRegister _ among)]
    exact still.plain among

theorem colorStill_own (still : ColorStill start log c) (own : c.Own d) :
    ColorStill start log d := by
  have unused := still.unused
  have kept (flags : UInt8) (index : Nat) (other : index ≠ Io.interruptFlag) :
      (c.hw.setRequested flags).io.read index = c.hw.io.read index :=
    Segment.read_write_ne _ other.symm _
  cases own with
  | tickCartridge =>
    rw [tickCartridge]
    split
    · exact still.silent { unused with } rfl fun _ _ => rfl
    · exact still
  | hblank =>
    rw [hblank_idle (by rw [unused.vramDma])]
    exact still
  | request line => exact still.silent { unused with } rfl (kept _)
  | acknowledge line => exact still.silent { unused with } rfl (kept _)
  | endTick | setAccessible | loadBattery =>
    exact still.silent { unused with } rfl fun _ _ => rfl

theorem colorStill_invariant (start : Console) : SessionInvariant (ColorStill start) where
  inward still inward :=
    still.silent (colorUnused_inward still.unused inward) inward.vram fun _ other =>
      inward.io other (.inl still.unused.monochrome)
  write {log c} still address v :=
    { met := List.forall_mem_append.mpr ⟨still.met, List.forall_mem_singleton.mpr still.unused⟩
      unused := (colorUnused_writeRegion still.unused _ address v).1
      vram := fun quiet => by
        obtain ⟨before, last⟩ := List.forall_mem_append.mp quiet
        rw [vram_writeRegion still.unused (last _ List.mem_cons_self)]
        exact still.vram before
      plain := fun among => by
        rw [io_writeRegion_color still.unused among, BusWrite.latest_append, still.plain among] }
  lost {log c address} still hidden v :=
    { met := List.forall_mem_append.mpr ⟨still.met, List.forall_mem_singleton.mpr still.unused⟩
      unused := still.unused
      vram := fun quiet => still.vram (List.forall_mem_append.mp quiet).1
      plain := fun {a} among => by
        have elsewhere : address ≠ a := by
          rintro rfl
          simp [ofAddress_colorRegister _ among] at hidden
        rw [BusWrite.latest_append, if_neg elsewhere]
        exact still.plain among }
  own := colorStill_own

end Console

namespace Cartridge

/-- An image with a program whose header demands the color model. -/
def colorImage (a b c : UInt8) : Memory := (programImage a b c).write 0x143 0xC0

theorem ofImage_color (a b c : UInt8) :
    ∃ cart, ofImage (colorImage a b c) = .ok cart ∧ cart.colorSupport = .required := by
  have size : (colorImage a b c).size = 0x8000 := by
    rw [colorImage, Memory.size_write, size_programImage]
  have empty (address : Nat) (first : 0x147 ≤ address) (last : address < 0x14A) :
      (colorImage a b c).read address = 0 := by
    rw [colorImage, Memory.read_write_ne _ (by omega)]
    exact read_programImage (by omega) (by omega)
  have flag : (colorImage a b c).read 0x143 = 0xC0 := by
    apply Memory.read_write_same
    rw [size_programImage]
    decide
  obtain ⟨cart, accepted, -⟩ := ofImage_empty size empty
  refine ⟨cart, accepted, ?_⟩
  rw [(ofImage_header accepted).2, Header.colorSupport, flag]
  rfl

end Cartridge

namespace Machine

open Console

/-- On the monochrome model these registers are read as they are stored. -/
theorem read_colorRegister {m : Machine σ} (bare : m.handlers = [])
    (unused : m.console.hw.ColorUnused) (among : a ∈ colorRegisters) :
    (m.read a).1 = m.console.hw.io.read (ioIndex a) := by
  rw [read, m.route_bare bare, ofAddress_colorRegister a among]
  show m.console.hw.readIo a = _
  rw [Hardware.readIo, unused.monochrome, plain_colorRegister a among]

/-- On the monochrome model nothing comes of the color model's features, whatever the cartridge and
whatever happens. Before every write of a session and at its end, the speed, the transfer into video
RAM and the time it takes are as at power-on, and the windows of video RAM and work RAM show the
same banks. A byte of video RAM stays what it is until its address is written over the bus. The
registers of these features hold what was last written to them. -/
theorem color_features_unused (cart : Cartridge) (devices : σ) (operations more : List Operation) :
    let start := powerOn cart (some .monochrome) devices
    let m := start.after operations
    (∀ hw, hw = m.console.hw ∨ hw ∈ (start.sessionWrites operations).map (·.met.hw) →
      hw.doubleSpeed = false ∧ hw.vramDma = start.console.hw.vramDma ∧
        hw.stall = start.console.hw.stall ∧ hw.vramOffset = 0 ∧ hw.wramOffset = 0x1000) ∧
    (∀ index, (∀ w ∈ m.sessionWrites more, w.address.toNat ≠ 0x8000 + index) →
      (m.after more).console.hw.vram.read index = m.console.hw.vram.read index) ∧
    ∀ a ∈ colorRegisters,
      (m.read a).1 = BusWrite.latest a (start.sessionWrites operations) 0 := by
  intro start m
  have unused : start.console.hw.ColorUnused := .powerOn cart
  have still : ColorStill start.console (start.sessionWrites operations) m.console :=
    after_invariant (colorStill_invariant _) rfl (.refl unused) operations
  have bare : m.handlers = [] := (start.after_keeps rfl operations).handlers
  refine ⟨?_, ?_, ?_⟩
  · intro hw seen
    have unused : hw.ColorUnused := by
      rcases seen with rfl | met
      · exact still.unused
      · obtain ⟨w, written, rfl⟩ := List.mem_map.mp met
        exact still.met w written
    exact ⟨unused.doubleSpeed, unused.vramDma, unused.stall, unused.vramOffset,
      unused.wramOffset⟩
  · intro index quiet
    have later := after_invariant (colorStill_invariant m.console) bare (.refl still.unused) more
    exact later.vram quiet
  · intro a among
    rw [read_colorRegister bare still.unused among, still.plain among]
    exact congrArg _ (Hardware.powerOn_colorRegister cart a among)

/-- A cartridge for the color model only, whose program stops the processor. A change of speed is
prepared before it runs; a transfer in the horizontal blanks is asked for, and one is entered. -/
theorem color_features_unused_required :
    ∃ cart, Cartridge.ofImage (Cartridge.colorImage 0x10 0x00 0x00) = .ok cart ∧
      cart.colorSupport = .required ∧
      let start := powerOn cart (some .monochrome) ()
      let m := start.after [.write 0xFF4D 0x01, .write 0xFF55 0x80]
      (m.read 0xFF4D).1 = 0x01 ∧ (m.read 0xFF55).1 = 0x80 ∧
        (m.after [.hblank]).console.hw.vram.read 0 = m.console.hw.vram.read 0 ∧
        (start.after [.write 0xFF4D 0x01, .run 4]).console.hw.doubleSpeed = false := by
  obtain ⟨cart, accepted, required⟩ := Cartridge.ofImage_color 0x10 0x00 0x00
  obtain ⟨-, vram, plain⟩ := color_features_unused cart ()
    [.write 0xFF4D 0x01, .write 0xFF55 0x80] [.hblank]
  obtain ⟨unused, -, -⟩ := color_features_unused cart () [.write 0xFF4D 0x01, .run 4] []
  have speed := plain 0xFF4D (by decide)
  have control := plain 0xFF55 (by decide)
  refine ⟨cart, accepted, required, ?_, ?_, ?_, (unused _ (.inl rfl)).1⟩
  · rw [speed]
    rfl
  · rw [control]
    rfl
  · exact vram 0 (by simp [sessionWrites, writesOf, clocksOf])

end Machine

end GameBoy
