import GameBoy.Proofs.Simulation

/-!
Relations between a machine and what becomes of it. A relation that lasts through accesses of the
bus, and through what the processor and the chips beside it do by themselves, lasts through whole
clocks: `Frame.clocksOfTick`. Unlike a simulation, a frame may look at memories, and devices may be
around.
-/

namespace GameBoy

namespace Console

/-- What the processor and the chips beside it do without the bus: they change their own registers,
the requests of interrupts, sprite memory, and the fault that waits. The speed, with the I/O
register that prepares for it, is theirs on the color model only. -/
structure Inward (c d : Console) : Prop where
  cart : d.cart = c.cart
  model : d.hw.model = c.hw.model
  identity : d.hw.identity = c.hw.identity
  romBanks : d.hw.romBanks = c.hw.romBanks
  cartRam : d.hw.cartRam = c.hw.cartRam
  hasBattery : d.hw.hasBattery = c.hw.hasBattery
  hasClock : d.hw.hasClock = c.hw.hasClock
  vram : d.hw.vram = c.hw.vram
  wram : d.hw.wram = c.hw.wram
  hram : d.hw.hram = c.hw.hram
  ie : d.hw.ie = c.hw.ie
  banks : d.hw.banks = c.hw.banks
  clock : d.hw.clock = c.hw.clock
  vramDma : d.hw.vramDma = c.hw.vramDma
  vramAccessible : d.hw.vramAccessible = c.hw.vramAccessible
  oamAccessible : d.hw.oamAccessible = c.hw.oamAccessible
  cycleCount : d.hw.cycleCount = c.hw.cycleCount
  batteryDirty : d.hw.batteryDirty = c.hw.batteryDirty
  stall : c.hw.stall = 0 → d.hw.stall = 0
  speed : c.hw.isColor = false → d.hw.doubleSpeed = c.hw.doubleSpeed
  io : index ≠ Io.interruptFlag → (c.hw.isColor = false ∨ index ≠ Io.speed) →
    d.hw.io.read index = c.hw.io.read index

theorem Inward.refl (c : Console) : c.Inward c :=
  ⟨rfl, rfl, rfl, rfl, rfl, rfl, rfl, rfl, rfl, rfl, rfl, rfl, rfl, rfl, rfl, rfl, rfl, rfl,
    fun still => still, fun _ => rfl, fun _ _ => rfl⟩

theorem Inward.isColor (inward : Inward c d) : d.hw.isColor = c.hw.isColor := by
  rw [Hardware.isColor, inward.model, Hardware.isColor]

theorem Inward.trans (first : Inward c d) (second : Inward d e) : c.Inward e := by
  have color := first.isColor
  cases first
  cases second
  constructor <;> simp_all

theorem raise_inward (c : Console) (fault : Fault) : c.Inward (c.raise fault) :=
  { Inward.refl c with }

theorem switchSpeed_inward (c : Console) : c.Inward { c with hw := c.hw.switchSpeed } := by
  unfold Hardware.switchSpeed
  split
  · rename_i switches
    have color : c.hw.isColor ≠ false := by simp_all
    exact { Inward.refl c with
      speed := fun monochrome => absurd monochrome color
      io := fun _ other => Segment.read_write_ne _ (other.resolve_left color).symm _ }
  · exact .refl c

theorem setRequested_inward (c : Console) (flags : UInt8) :
    c.Inward { c with hw := c.hw.setRequested flags } :=
  { Inward.refl c with io := fun other _ => Segment.read_write_ne _ other.symm _ }

theorem clockTimer_inward (c : Console) : c.Inward { c with hw := c.hw.clockTimer } := by
  unfold Hardware.clockTimer
  split
  · exact { c.setRequested_inward _ with }
  · exact { Inward.refl c with }

theorem clockOamDma_inward (c : Console) : c.Inward c.clockOamDma := by
  by_cases running : c.hw.oamDma.active = true
  · obtain ⟨oam, clocked⟩ := c.clockOamDma_eq running
    rw [clocked]
    exact { Inward.refl c with }
  · rw [clockOamDma, if_neg running]
    exact .refl c

end Console

namespace Machine

theorem clockChips_inward (m : Machine σ) : m.console.Inward m.clockChips.console :=
  m.console.clockTimer_inward.trans (Console.clockOamDma_inward _)

/-- A relation between machines before and after some work that lasts through all that a machine
does in a clock. -/
structure Frame (P : Machine σ → Machine σ → Prop) : Prop where
  refl (m : Machine σ) : P m m
  trans {m n k : Machine σ} : P m n → P n k → P m k
  read (m : Machine σ) (address : UInt16) : P m (m.read address).2
  write (m : Machine σ) (address : UInt16) (v : UInt8) : P m (m.write address v)
  inward (m : Machine σ) {f : Console → Console} : (∀ c : Console, c.Inward (f c)) →
    P m (m.mapConsole f)

namespace Frame

variable {P : Machine σ → Machine σ → Prop}

theorem mapHardware (frame : Frame P) (m : Machine σ) {f : Hardware → Hardware}
    (inward : ∀ c : Console, c.Inward { c with hw := f c.hw }) : P m (m.mapHardware f) :=
  frame.inward m (f := fun c => { c with hw := f c.hw }) inward

private theorem exec_congruence (frame : Frame P) :
    Exec.Congruence fun _ _ x (_ : Exec σ _) =>
      ∀ s : Step σ, P s.machine (x.run s).2.machine where
  pure _ := fun s => frame.refl s.machine
  bind first second := fun s => frame.trans (first s) (second _ _)
  weaken kept _ := kept
  idle := fun s => frame.refl s.machine
  readByte address := fun s => frame.read s.machine address
  writeByte address v := fun s => frame.write s.machine address v
  hardware := fun s => frame.refl s.machine
  processor f _ := fun s =>
    frame.mapHardware s.machine (f := fun hw => { hw with cpu := f hw })
      fun c => { Console.Inward.refl c with }
  switchSpeed := fun s => frame.mapHardware s.machine Console.switchSpeed_inward
  raise fault := fun s => frame.inward s.machine (·.raise_inward fault)

theorem step (frame : Frame P) (m : Machine σ) : P m m.step.2 :=
  frame.exec_congruence.step { machine := m }

theorem wake (frame : Frame P) (m : Machine σ) : P m m.wake :=
  frame.mapHardware m fun c => { Console.Inward.refl c with }

theorem dispatch (frame : Frame P) (m : Machine σ) (line : Interrupt) : P m (m.dispatch line) := by
  have pushed (high below : UInt16) (v w : UInt8) : P m ((m.write high v).write below w) :=
    frame.trans (frame.write m high v) (frame.write _ below w)
  unfold Machine.dispatch
  refine frame.trans (pushed _ _ _ _) (frame.mapHardware _ fun c => ?_)
  exact { c.setRequested_inward _ with }

theorem serveInterrupts (frame : Frame P) (m : Machine σ) : P m m.serveInterrupts := by
  unfold Machine.serveInterrupts
  split
  · split
    · exact frame.refl m
    · split
      · exact frame.trans (frame.wake m) (frame.dispatch _ _)
      · exact frame.wake m
  · exact frame.refl m

theorem beginInstruction (frame : Frame P) (m : Machine σ) : P m m.beginInstruction := by
  unfold Machine.beginInstruction
  split
  · exact frame.trans (frame.step m)
      (frame.mapHardware _ fun c => { Console.Inward.refl c with stall := fun _ => rfl })
  · exact frame.refl m

theorem clockChips (frame : Frame P) (m : Machine σ) : P m m.clockChips :=
  frame.trans (frame.mapHardware m Console.clockTimer_inward)
    (frame.inward _ Console.clockOamDma_inward)

theorem clock (frame : Frame P) (m : Machine σ) : P m m.clock :=
  frame.trans (frame.trans (frame.clockChips m) (frame.serveInterrupts _))
    (frame.trans (frame.beginInstruction _)
      (frame.mapHardware _ (f := fun hw => { hw with cyclesPending := hw.cyclesPending - 1 })
        fun c => { Console.Inward.refl c with }))

theorem clocksOfTick (frame : Frame P) (m : Machine σ) : P m m.clocksOfTick := by
  unfold Machine.clocksOfTick
  split
  · exact frame.trans (frame.clock m) (frame.clock _)
  · exact frame.clock m

end Frame

end Machine

end GameBoy
