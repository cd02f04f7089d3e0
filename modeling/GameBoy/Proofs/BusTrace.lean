import GameBoy.Proofs.Frame
import GameBoy.Proofs.SafeRun

/-!
What a machine reads and writes over its bus, in order. A device at every address notes each access
and passes it on, so that nothing else changes. Main statements: `step_traced`, and
`read_withCpu` and `write_withCpu`, which say that the bus does not know the registers.
-/

namespace GameBoy

namespace Console

/-- The console with other registers. -/
def withCpu (c : Console) (cpu : Cpu) : Console := { c with hw := { c.hw with cpu } }

variable (c : Console) (cpu : Cpu)

theorem readRegion_withCpu (region : Region) (address : UInt16) :
    (c.withCpu cpu).readRegion region address = c.readRegion region address := by
  cases region <;> rfl

theorem copyVramBytes_withCpu (count : Nat) :
    (c.withCpu cpu).copyVramBytes count = (c.copyVramBytes count).withCpu cpu := by
  induction count with
  | zero => rfl
  | succ count ih =>
    rw [copyVramBytes, ih, copyVramBytes, copyVramByte, wired, readRegion_withCpu]
    rfl

theorem copyVramBlocks_withCpu (count : Nat) :
    (c.withCpu cpu).copyVramBlocks count = (c.copyVramBlocks count).withCpu cpu := by
  induction count with
  | zero => rfl
  | succ count ih =>
    rw [copyVramBlocks, ih, copyVramBlocks, copyVramBlock, copyVramBytes_withCpu]
    rfl

theorem writeVramControl_withCpu (v : UInt8) :
    (c.withCpu cpu).writeVramControl v = (c.writeVramControl v).withCpu cpu := by
  unfold writeVramControl
  dsimp only
  show (if v < 0x80 then if c.hw.vramDma.active then _ else
    (((c.mapVramDma fun dma => { dma with blocks := v % 128 + 1 }).withCpu cpu).copyVramBlocks
      (v % 128 + 1).toNat).mapVramDma _ else _) = _
  rw [copyVramBlocks_withCpu]
  split
  · split <;> rfl
  · rfl

theorem writeIo_withCpu (address : UInt16) (v : UInt8) :
    (c.withCpu cpu).writeIo address v = (c.writeIo address v).withCpu cpu := by
  have color : (c.withCpu cpu).hw.isColor = c.hw.isColor := rfl
  unfold writeIo
  dsimp only
  rw [color]
  cases IoRegister.ofAddress c.hw.isColor address with
  | vramControl => exact c.writeVramControl_withCpu cpu v
  | _ => rfl

theorem writeRom_withCpu (address : UInt16) (v : UInt8) :
    (c.withCpu cpu).writeRom address v = (c.writeRom address v).withCpu cpu := by
  have cart : (c.withCpu cpu).cart = c.cart := rfl
  unfold writeRom mbc3Select
  dsimp only
  rw [cart]
  cases c.cart.controller with
  | mbc3 =>
    dsimp only
    repeat' split
    all_goals rfl
  | _ => rfl

theorem writeRam_withCpu (offset : Nat) (v : UInt8) :
    (c.withCpu cpu).writeRam offset v = (c.writeRam offset v).withCpu cpu := by
  have target : (c.withCpu cpu).ramTarget offset = c.ramTarget offset := rfl
  have size : (c.withCpu cpu).hw.cartRam.size = c.hw.cartRam.size := rfl
  unfold writeRam
  rw [target, size]
  cases c.ramTarget offset with
  | cell index =>
    dsimp only
    split <;> rfl
  | _ => rfl

theorem writeRegion_withCpu (region : Region) (address : UInt16) (v : UInt8) :
    (c.withCpu cpu).writeRegion region address v =
      (c.writeRegion region address v).withCpu cpu := by
  cases region with
  | rom => exact c.writeRom_withCpu cpu address v
  | cartRam => exact c.writeRam_withCpu cpu _ v
  | oam =>
    show (if c.hw.oamDma.active then _ else _) = withCpu (if c.hw.oamDma.active then _ else _) cpu
    split <;> rfl
  | io => exact c.writeIo_withCpu cpu address v
  | _ => rfl

end Console

/-- An access of the bus. -/
inductive BusAccess
  | read (address : UInt16)
  | write (address : UInt16) (value : UInt8)
deriving DecidableEq

/-- A device that passes every access on to the memory behind it, and notes it. -/
def Handler.tracer (shows : Region → Bool) : Handler (List BusAccess) where
  read c address trace :=
    let region := Region.ofAddress address
    (if shows region then c.readRegion region address else openBus, trace ++ [.read address])
  write c address v trace :=
    let region := Region.ofAddress address
    (if shows region then c.writeRegion region address v else c, trace ++ [.write address v])

namespace Machine

/-- The machine with a trace of its accesses. -/
def traced (m : Machine σ) (trace : List BusAccess) : Machine (List BusAccess) :=
  { console := m.console
    vramVisible := m.vramVisible
    oamVisible := m.oamVisible
    handlers := (Handler.tracer m.shows).everywhere
    devices := trace }

/-- The byte that a read of an address gives. -/
def peek (m : Machine σ) (address : UInt16) : UInt8 := (m.read address).1

variable {m : Machine σ}

theorem read_eq_peek (bare : m.handlers = []) (address : UInt16) :
    m.read address = (m.peek address, m) :=
  Prod.ext rfl (m.read_bare bare address)

/-- The machine with other registers. -/
def withCpu (m : Machine σ) (cpu : Cpu) : Machine σ := m.mapHardware fun hw => { hw with cpu }

theorem read_withCpu (bare : m.handlers = []) (cpu : Cpu) (address : UInt16) :
    (m.withCpu cpu).read address = (m.peek address, m.withCpu cpu) := by
  have bareHere : (m.withCpu cpu).handlers = [] := bare
  refine Prod.ext ?_ ((m.withCpu cpu).read_bare bareHere address)
  show ((m.withCpu cpu).read address).1 = (m.read address).1
  rw [read, route_bare _ bareHere, read, m.route_bare bare]
  by_cases shown : m.shows (.ofAddress address)
  · rw [if_pos shown, if_pos (show (m.withCpu cpu).shows (.ofAddress address) from shown)]
    exact m.console.readRegion_withCpu cpu _ address
  · rw [if_neg shown, if_neg (show ¬(m.withCpu cpu).shows (.ofAddress address) from shown)]

theorem peek_withCpu (bare : m.handlers = []) (cpu : Cpu) (address : UInt16) :
    (m.withCpu cpu).peek address = m.peek address := by
  rw [peek, read_withCpu bare]

theorem write_withCpu (bare : m.handlers = []) (cpu : Cpu) (address : UInt16) (v : UInt8) :
    (m.withCpu cpu).write address v = (m.write address v).withCpu cpu := by
  have bareHere : (m.withCpu cpu).handlers = [] := bare
  rw [write, route_bare _ bareHere, write, m.route_bare bare]
  by_cases shown : m.shows (.ofAddress address)
  · rw [if_pos shown, if_pos (show (m.withCpu cpu).shows (.ofAddress address) from shown)]
    exact congrArg (fun console => { m with console })
      (m.console.writeRegion_withCpu cpu _ address v)
  · rw [if_neg shown, if_neg (show ¬(m.withCpu cpu).shows (.ofAddress address) from shown)]

theorem route_traced (m : Machine σ) (trace : List BusAccess) (address : UInt16) :
    (m.traced trace).route address = .handler (.tracer m.shows) :=
  route_of_lookup (lookup_everywhere _ _)

theorem read_traced (bare : m.handlers = []) (trace : List BusAccess) (address : UInt16) :
    (m.traced trace).read address = (m.peek address, m.traced (trace ++ [.read address])) := by
  rw [read, route_traced, peek, read, m.route_bare bare]
  by_cases shown : m.shows (.ofAddress address)
  · simp only [Handler.tracer, shown, if_true]
    rfl
  · simp only [Handler.tracer, shown]
    rfl

theorem write_traced (bare : m.handlers = []) (trace : List BusAccess) (address : UInt16)
    (v : UInt8) :
    (m.traced trace).write address v =
      (m.write address v).traced (trace ++ [.write address v]) := by
  rw [write, route_traced, write, m.route_bare bare]
  by_cases shown : m.shows (.ofAddress address)
  · simp only [Handler.tracer, shown, if_true]
    rfl
  · simp only [Handler.tracer, shown]
    rfl

/-- A machine without devices beside itself with some trace. -/
def Traced (_ : Nat) (m : Machine σ) (n : Machine (List BusAccess)) : Prop :=
  m.handlers = [] ∧ ∃ trace, n = m.traced trace

/-- A trace does not disturb what it traces. -/
theorem traced_simulation : Simulation (Traced (σ := σ)) where
  console := by
    rintro _ m _ ⟨-, trace, rfl⟩
    rfl
  own := by
    rintro _ m _ _ f ⟨bare, trace, rfl⟩ -
    exact ⟨bare, trace, rfl⟩
  read := by
    rintro _ m _ ⟨bare, trace, rfl⟩ address
    rw [read_traced bare, read_eq_peek bare]
    exact ⟨rfl, bare, _, rfl⟩
  write := by
    rintro _ m _ ⟨bare, trace, rfl⟩ address v
    rw [write_traced bare]
    exact ⟨(m.write_evolves bare address v).bare bare, _, rfl⟩

/-- What the next instruction reads and writes over the bus. -/
def stepAccesses (m : Machine σ) : List BusAccess := (m.traced []).step.2.devices

theorem step_traced (bare : m.handlers = []) :
    (m.traced []).step = (m.step.1, m.step.2.traced m.stepAccesses) := by
  have start : Traced 0 m (m.traced []) := ⟨bare, [], rfl⟩
  obtain ⟨clocks, -, trace, stepped⟩ := traced_simulation.step start
  have noted : m.stepAccesses = trace := congrArg devices stepped
  rw [noted]
  exact Prod.ext clocks stepped

end Machine

end GameBoy
