import GameBoy.Proofs.Activity

/-!
How a program on a cartridge without a controller runs, one instruction after another, and how an
interrupt gets in between. Main statements: `Plays.step_complete`, which says what an instruction of
a single byte does, and `Stands.dispatch`, which says what a line that is served does.
-/

namespace GameBoy

/-- An opcode that is an instruction by itself takes no other byte. -/
theorem Instruction.run_decode_complete {fetch : StateM ρ UInt8} {s t : ρ}
    (fetched : fetch.run s = (op, t)) (complete : Encoding.ofOpcode op = .complete i) :
    (Instruction.decode fetch).run s = (i, t) := by
  unfold Instruction.decode
  rw [StateT.run_bind, fetched]
  show ((pure (op, t) : Id (UInt8 × ρ)) >>= _) = _
  rw [pure_bind, complete]
  rfl

namespace Cartridge

/-- An image without a controller whose program is three bytes long. -/
def programImage (a b c : UInt8) : Memory :=
  (((blankImage 0 0).write 0x100 a).write 0x101 b).write 0x102 c

theorem size_blankImage (type ramCode : UInt8) : (blankImage type ramCode).size = 0x8000 := by
  rw [blankImage, Memory.size_write, Memory.size_write, Memory.size_zeros]

variable {a b c : UInt8}

/-- Outside the program the image is empty. -/
theorem read_programImage {address : Nat} (inside : address < 0x8000)
    (elsewhere : address < 0x100 ∨ 0x103 ≤ address) :
    (programImage a b c).read address = 0 := by
  have cleared : (blankImage 0 0).toList = List.replicate 0x8000 0 := by
    rw [blankImage, Memory.toList_write, Memory.toList_write, Memory.toList_zeros,
      List.set_replicate_self, List.set_replicate_self]
  rw [programImage, Memory.read_write_ne _ (by omega), Memory.read_write_ne _ (by omega),
    Memory.read_write_ne _ (by omega), Memory.read_eq_getD, cleared, List.getD_eq_getElem?_getD,
    List.getElem?_replicate_of_lt inside]
  rfl

theorem programImage_first : (programImage a b c).read 0x100 = a := by
  rw [programImage, Memory.read_write_ne _ (by decide), Memory.read_write_ne _ (by decide),
    Memory.read_write_same]
  rw [size_blankImage]
  decide

theorem programImage_second : (programImage a b c).read 0x101 = b := by
  rw [programImage, Memory.read_write_ne _ (by decide), Memory.read_write_same]
  rw [Memory.size_write, size_blankImage]
  decide

theorem programImage_third : (programImage a b c).read 0x102 = c := by
  rw [programImage, Memory.read_write_same]
  rw [Memory.size_write, Memory.size_write, size_blankImage]
  decide

variable (a b c)

theorem size_programImage : (programImage a b c).size = 0x8000 := by
  rw [programImage, Memory.size_write, Memory.size_write, Memory.size_write, size_blankImage]

/-- A header of zeros stands for two banks of ROM and nothing else. -/
theorem ofImage_empty {image : Memory} (size : image.size = 0x8000)
    (empty : ∀ address, 0x147 ≤ address → address < 0x14A → image.read address = 0) :
    ∃ cart, ofImage image = .ok cart ∧ cart.controller = .fixed := by
  have chip : Header.controller? (image.read 0x147) = some .fixed := by
    rw [empty _ (by decide) (by decide)]
    rfl
  have ram : ramSizeFor? .fixed (image.read 0x149) = some 0 := by
    rw [empty _ (by decide) (by decide)]
    rfl
  obtain ⟨cart, accepted, controller, -⟩ :=
    ofImage_twoBanks size (empty _ (by decide) (by decide)) chip ram
  exact ⟨cart, accepted, controller⟩

theorem ofImage_program :
    ∃ cart, ofImage (programImage a b c) = .ok cart ∧ cart.controller = .fixed :=
  ofImage_empty (size_programImage a b c) fun _ _ _ => read_programImage (by omega) (by omega)

end Cartridge

namespace Console

/-- Without a controller the latches never change. -/
theorem Evolves.latches_fixed {c d : Console} (e : c.Evolves ticks d)
    (fixed : c.cart.controller = .fixed) : d.hw.banks = c.hw.banks := by
  have steps := e.banks
  rw [BanksStep, fixed] at steps
  generalize d.hw.banks = after at steps ⊢
  cases steps with
  | refl => rfl
  | tail _ last => cases last

end Console

namespace Machine

/-- A machine without devices that has a program on a cartridge without a controller. -/
structure Plays (rom : Memory) (m : Machine σ) : Prop where
  bare : m.handlers = []
  image : m.console.cart.image = rom
  fixed : m.console.cart.controller = .fixed
  first : m.console.hw.banks.rom0Offset = 0

/-- The machine with PC behind a byte. -/
def advanced (m : Machine σ) : Machine σ :=
  m.mapHardware fun hw => { hw with cpu := { hw.cpu with pc := hw.cpu.pc + 1 } }

theorem advanced_evolves (m : Machine σ) : m.Evolves 0 m.advanced :=
  m.mapHardware_evolves _ { Console.Evolves.refl m.console with }

namespace Plays

variable {rom : Memory} {m n : Machine σ}

theorem evolves {ticks : Nat} (plays : m.Plays rom) (e : m.Evolves ticks n) : n.Plays rom where
  bare := e.bare plays.bare
  image := (congrArg Cartridge.image e.console.cart).trans plays.image
  fixed := (congrArg Cartridge.controller e.console.cart).trans plays.fixed
  first := (congrArg Banks.rom0Offset (e.console.latches_fixed plays.fixed)).trans plays.first

theorem read (plays : m.Plays rom) {address : UInt16} (low : address.toNat < 0x4000) :
    m.read address = (rom.read address.toNat, m) := by
  have region : Region.ofAddress address = .rom := by
    refine if_pos (UInt16.lt_iff_toNat_lt.mpr ?_)
    exact Nat.lt_trans low (by decide)
  have index : m.console.romIndex address = address.toNat := by
    rw [Console.romIndex, if_pos (show address.toNat < romBankSize from low), plays.first,
      UInt64.zero_add, UInt16.toNat_toUInt64]
  rw [Machine.read, m.route_bare plays.bare, region]
  show (m.console.cart.image.read (m.console.romIndex address), m) = _
  rw [plays.image, index]

theorem run_fetch (plays : m.Plays rom) (low : m.console.hw.cpu.pc.toNat < 0x4000)
    (clocks : UInt32) :
    Exec.fetch.run { machine := m, clocks } =
      (rom.read m.console.hw.cpu.pc.toNat, { machine := m.advanced, clocks := clocks + 4 }) := by
  show ((m.advanced.read m.console.hw.cpu.pc).1,
    ({ machine := (m.advanced.read m.console.hw.cpu.pc).2, clocks := clocks + 4 } : Step σ)) = _
  rw [(plays.evolves m.advanced_evolves).read low]

/-- An opcode that is an instruction by itself. -/
theorem run_decode (plays : m.Plays rom) (low : m.console.hw.cpu.pc.toNat < 0x4000)
    (complete : Encoding.ofOpcode (rom.read m.console.hw.cpu.pc.toNat) = .complete i) :
    (Instruction.decode (Exec.fetch (σ := σ))).run { machine := m } =
      (i, { machine := m.advanced, clocks := 4 }) := by
  exact Instruction.run_decode_complete (plays.run_fetch low 0) complete

theorem upcoming_complete (plays : m.Plays rom) (low : m.console.hw.cpu.pc.toNat < 0x4000)
    (running : m.console.hw.cpu.halted = false)
    (complete : Encoding.ofOpcode (rom.read m.console.hw.cpu.pc.toNat) = .complete i) :
    m.upcoming = .executes i := by
  rw [upcoming, running, plays.run_decode low complete]
  rfl

/-- An instruction of a single byte is run with PC behind it. -/
theorem step_complete (plays : m.Plays rom) (low : m.console.hw.cpu.pc.toNat < 0x4000)
    (running : m.console.hw.cpu.halted = false)
    (complete : Encoding.ofOpcode (rom.read m.console.hw.cpu.pc.toNat) = .complete i) :
    let executed := (Exec.execute m.console.hw.cpu.pc i).run { machine := m.advanced, clocks := 4 }
    let settled := (Exec.settleEnable m.console.hw.cpu.imePending).run executed.2
    m.step = (settled.2.clocks, settled.2.machine) := by
  have ran := m.run_step running
  rw [plays.run_decode low complete] at ran
  exact congrArg (fun r : Unit × Step σ => (r.2.clocks, r.2.machine)) ran

end Plays

/-- The end of a tick takes the fault that waits, and leaves the processor alone. -/
theorem tick_beside (m : Machine σ) :
    Console.Beside { m.clocksOfTick.console with fault := none } m.tick.machine.console :=
  { Console.tickCartridge_beside m.clocksOfTick.console with fault := rfl }

theorem tick_fault (m : Machine σ) : m.tick.fault = m.clocksOfTick.console.fault :=
  (Console.tickCartridge_beside _).fault

theorem clocksOfTick_normal (m : Machine σ) (normal : m.console.hw.doubleSpeed = false) :
    m.clocksOfTick = m.clock := by
  rw [clocksOfTick, normal]
  rfl

theorem clocksOfTick_double (m : Machine σ) (double : m.console.hw.doubleSpeed = true) :
    m.clocksOfTick = m.clock.clock := by
  rw [clocksOfTick, double]
  rfl

/-- The transfer into sprite memory leaves the I/O registers alone. -/
theorem io_clockChips (m : Machine σ) :
    m.clockChips.console.hw.io = m.console.hw.clockTimer.io := by
  show ({ m.console with hw := m.console.hw.clockTimer } : Console).clockOamDma.hw.io = _
  generalize m.console.hw.clockTimer = hw
  by_cases running : hw.oamDma.active = true
  · obtain ⟨oam, clocked⟩ := ({ m.console with hw } : Console).clockOamDma_eq running
    rw [clocked]
  · rw [Console.clockOamDma, if_neg running]

end Machine

namespace Hardware

/-- No line is served that is not enabled. -/
theorem nextInterrupt?_disabled {hw : Hardware} (disabled : hw.ie = 0) :
    hw.nextInterrupt? = none := by
  rw [nextInterrupt?, pendingMask, disabled, UInt8.zero_and, UInt8.zero_and]
  decide

/-- A line is requested. -/
def Requests (hw : Hardware) (line : Interrupt) : Prop := hw.requested ||| line.mask = hw.requested

theorem request_requests (hw : Hardware) (line : Interrupt) : (hw.request line).Requests line := by
  rw [Requests, request, requested_setRequested, UInt8.or_assoc, UInt8.or_self]

/-- A request stays while others are made. -/
theorem Requests.request {hw : Hardware} (requests : hw.Requests line) (other : Interrupt) :
    (hw.request other).Requests line := by
  rw [Requests, Hardware.request, requested_setRequested, UInt8.or_assoc,
    UInt8.or_comm other.mask, ← UInt8.or_assoc, requests]

theorem Requests.clockTimer {hw : Hardware} (requests : hw.Requests line) :
    hw.clockTimer.Requests line := by
  unfold Hardware.clockTimer
  split
  · have timed : Requests { hw with timer := hw.timer.clock } line := requests
    exact timed.request .timer
  · exact requests

/-- A line that is the only enabled one is served when it is requested. -/
theorem Requests.nextInterrupt? {hw : Hardware} (requests : hw.Requests line)
    (alone : hw.ie = line.mask) : hw.nextInterrupt? = some line := by
  have absorbed : line.mask &&& hw.requested = line.mask := by
    rw [← requests]
    apply UInt8.toBitVec_inj.mp
    ext i inside
    simp only [UInt8.toBitVec_and, UInt8.toBitVec_or, BitVec.getElem_and, BitVec.getElem_or]
    cases line.mask.toBitVec[i] <;> simp
  rw [Hardware.nextInterrupt?, pendingMask, alone, absorbed]
  cases line <;> decide

theorem Requests.clockChips {m : Machine σ} (requests : m.console.hw.Requests line) :
    m.clockChips.console.hw.Requests line := by
  rw [Requests, requested, m.io_clockChips]
  exact requests.clockTimer

end Hardware

namespace Machine

/-- A number of clocks that is not zero, and one less. -/
theorem clocks_succ {k : Nat} (small : k + 1 < 2 ^ 32) :
    UInt32.ofNat (k + 1) ≠ 0 ∧ UInt32.ofNat (k + 1) - 1 = UInt32.ofNat k := by
  constructor
  · intro zero
    have zero := congrArg UInt32.toNat zero
    simp only [UInt32.toNat_ofNat', UInt32.reduceToNat] at zero
    omega
  · rw [UInt32.ofNat_add]
    exact UInt32.add_sub_cancel ..

/-- A machine that plays a program at normal speed, with the processor in a known state. -/
structure Stands (rom : Memory) (cpu : Cpu) (ie : UInt8) (left : UInt32) (m : Machine σ) : Prop
    extends m.Plays rom where
  cpu : m.console.hw.cpu = cpu
  ie : m.console.hw.ie = ie
  normal : m.console.hw.doubleSpeed = false
  left : m.console.hw.cyclesPending = left

/-- A machine that has just been switched on. -/
theorem powerOn_stands (accepted : Cartridge.ofImage rom = .ok cart)
    (fixed : cart.controller = .fixed) (model : Model) :
    (powerOn cart (some model) ()).Stands rom (.afterBoot model) 0 0 where
  bare := rfl
  image := (Cartridge.ofImage_wellFormed accepted).2
  fixed := fixed
  first := rfl
  cpu := rfl
  ie := rfl
  normal := rfl
  left := rfl

namespace Stands

variable {rom : Memory} {cpu : Cpu} {ie : UInt8} {left : UInt32} {m : Machine σ}

/-- The chips leave the processor alone. -/
theorem chips (stands : m.Stands rom cpu ie left) : m.clockChips.Stands rom cpu ie left where
  toPlays := stands.toPlays.evolves m.clockChips_evolves
  cpu := m.clockChips_beside.cpu.trans stands.cpu
  ie := m.clockChips_beside.ie.trans stands.ie
  normal := m.clockChips_beside.doubleSpeed.trans stands.normal
  left := m.clockChips_beside.cyclesPending.trans stands.left

theorem countDown (stands : m.Stands rom cpu ie left) :
    m.countDown.Stands rom cpu ie (left - 1) :=
  { stands with left := congrArg (· - 1) stands.left }

theorem request (stands : m.Stands rom cpu ie left) (line : Interrupt) :
    (m.mapHardware (·.request line)).Stands rom cpu ie left :=
  { stands with }

/-- A write to the register of enabled lines changes nothing else. -/
theorem enable (stands : m.Stands rom cpu ie left) (lines : UInt8) :
    (m.write 0xFFFF lines).Stands rom cpu lines left := by
  rw [write, m.route_bare stands.bare]
  exact { stands with ie := rfl }

/-- The rest of a tick leaves the processor alone. -/
theorem endTick (stands : m.Stands rom cpu ie left) (clocked : m.clock.Stands rom cpu' ie' left') :
    m.tick.machine.Stands rom cpu' ie' left' ∧
      m.tick.machine.console.hw.stall = m.clock.console.hw.stall := by
  have ended := m.tick_beside
  rw [m.clocksOfTick_normal stands.normal] at ended
  have moved := m.tick_evolves stands.bare
  refine ⟨?_, ended.stall⟩
  exact
    { toPlays := stands.toPlays.evolves moved
      cpu := ended.cpu.trans clocked.cpu
      ie := ended.ie.trans clocked.ie
      normal := ended.doubleSpeed.trans clocked.normal
      left := ended.cyclesPending.trans clocked.left }

theorem wait (stands : m.Stands rom cpu ie left) (waiting : left ≠ 0) :
    m.tick.machine.Stands rom cpu ie (left - 1) ∧
      m.tick.machine.console.hw.stall = m.console.hw.stall := by
  obtain ⟨-, clocked⟩ := m.clock_waiting (by rw [stands.left]; exact waiting)
  have after : m.clock.Stands rom cpu ie (left - 1) := by
    rw [clocked]
    exact stands.chips.countDown
  obtain ⟨ticked, stall⟩ := stands.endTick after
  refine ⟨ticked, stall.trans ?_⟩
  rw [clocked]
  exact m.clockChips_beside.stall

theorem waits {k : Nat} (stands : m.Stands rom cpu ie (UInt32.ofNat k)) (small : k < 2 ^ 32) :
    (m.ticks k).Stands rom cpu ie 0 ∧ (m.ticks k).console.hw.stall = m.console.hw.stall := by
  induction k generalizing m with
  | zero => exact ⟨stands, rfl⟩
  | succ k ih =>
    obtain ⟨waiting, fewer⟩ := clocks_succ small
    obtain ⟨ticked, stall⟩ := stands.wait waiting
    rw [fewer] at ticked
    rw [ticks_succ]
    obtain ⟨waited, stallAfter⟩ := ih ticked (by omega)
    exact ⟨waited, stallAfter.trans stall⟩

end Stands

end Machine

/-- The processor after an EI. -/
def Cpu.afterEi (cpu : Cpu) : Cpu :=
  if cpu.imePending then { cpu with pc := cpu.pc + 1, ime := true, imePending := false }
  else { cpu with pc := cpu.pc + 1, imePending := true }

/-- The processor when it enters the handler of a line. -/
def Cpu.entering (cpu : Cpu) (line : Interrupt) : Cpu :=
  { cpu with sp := cpu.sp - 2, ime := false, halted := false, pc := line.handler }

namespace Machine

theorem Plays.step_ei {m : Machine σ} (plays : m.Plays rom)
    (low : m.console.hw.cpu.pc.toNat < 0x4000) (running : m.console.hw.cpu.halted = false)
    (opcode : rom.read m.console.hw.cpu.pc.toNat = 0xFB) :
    m.step = (4, m.mapHardware fun hw => { hw with cpu := hw.cpu.afterEi }) := by
  have complete : Encoding.ofOpcode (rom.read m.console.hw.cpu.pc.toNat) = .complete .ei := by
    rw [opcode]
    rfl
  rw [plays.step_complete low running complete]
  refine Prod.ext rfl ?_
  show _ = { m with
    console := { m.console with hw := { m.console.hw with cpu := m.console.hw.cpu.afterEi } } }
  rw [Cpu.afterEi]
  cases m.console.hw.cpu.imePending with
  | false => rfl
  | true => rfl

/-- While no interrupt is enabled, what is next begins as soon as no clock is left. -/
theorem clock_between (m : Machine σ) (between : m.console.hw.cyclesPending = 0)
    (disabled : m.console.hw.ie = 0) :
    m.activity = m.clockChips.upcoming ∧ m.clock = m.clockChips.beginInstruction.countDown := by
  have chips := m.clockChips_beside
  have none := Hardware.nextInterrupt?_disabled (chips.ie.trans disabled)
  obtain ⟨n, turn, clocked⟩ := m.clock_cases
  generalize m.activity = activity at turn
  cases turn with
  | waits waiting => exact absurd (chips.cyclesPending.trans between) waiting
  | begins => exact ⟨rfl, clocked⟩
  | dispatches _ next | wakes _ next => exact nomatch none.symm.trans next

/-- An EI takes four ticks at normal speed. -/
theorem Stands.ei {rom : Memory} {cpu : Cpu} {m : Machine σ} (stands : m.Stands rom cpu 0 0)
    (calm : m.console.hw.stall = 0) (low : cpu.pc.toNat < 0x4000) (running : cpu.halted = false)
    (opcode : rom.read cpu.pc.toNat = 0xFB) :
    (m.ticks 4).Stands rom cpu.afterEi 0 0 ∧ (m.ticks 4).console.hw.stall = 0 := by
  have chips := stands.chips
  obtain ⟨-, clocked⟩ := m.clock_between stands.left stands.ie
  have stepped := chips.step_ei (by rwa [chips.cpu]) (by rwa [chips.cpu]) (by rwa [chips.cpu])
  have still := m.clockChips_beside.stall.trans calm
  rw [beginInstruction_eq _ chips.left, stepped] at clocked
  have after : m.clock.Stands rom cpu.afterEi 0 3 := by
    refine ⟨stands.toPlays.evolves (m.clock_evolves stands.bare), ?_, ?_, ?_, ?_⟩
    all_goals rw [clocked]
    · exact congrArg Cpu.afterEi chips.cpu
    · exact chips.ie
    · exact chips.normal
    · show 4 + m.clockChips.console.hw.stall - 1 = 3
      rw [still]
      rfl
  obtain ⟨ticked, stall⟩ := stands.endTick after
  have rested : m.tick.machine.Stands rom cpu.afterEi 0 (UInt32.ofNat 3) := ticked
  obtain ⟨waited, stallAfter⟩ := rested.waits (by decide)
  rw [ticks_succ]
  refine ⟨waited, stallAfter.trans (stall.trans ?_)⟩
  rw [clocked]
  rfl

/-- An enabled interrupt is served as soon as no clock is left. -/
theorem Stands.dispatch {rom : Memory} {cpu : Cpu} {ie : UInt8} {m : Machine σ}
    (stands : m.Stands rom cpu ie 0) (enabled : cpu.ime = true)
    (next : m.clockChips.console.hw.nextInterrupt? = some line) :
    m.activity = .dispatches line ∧
      ∃ ie, m.tick.machine.Stands rom (cpu.entering line) ie 19 := by
  have chips := stands.chips
  have enabledChips : m.clockChips.console.hw.cpu.ime = true := by rwa [chips.cpu]
  obtain ⟨n, turn, clocked⟩ := m.clock_cases
  generalize m.activity = activity at turn
  cases turn with
  | waits waiting => exact absurd chips.left waiting
  | begins _ unserved => exact nomatch unserved.symm.trans next
  | wakes _ _ disabled => exact Bool.noConfusion (disabled.symm.trans enabledChips)
  | dispatches _ found =>
    cases found.symm.trans next
    obtain ⟨entered, normal⟩ := m.clockChips.wake.cpu_dispatch chips.bare line
    have after : m.clock.Stands rom (cpu.entering line) m.clock.console.hw.ie 19 := by
      refine ⟨stands.toPlays.evolves (m.clock_evolves stands.bare), ?_, rfl, ?_, ?_⟩
      all_goals rw [clocked]
      · rw [← chips.cpu]
        exact entered
      · exact normal.trans chips.normal
      · show dispatchClocks - 1 = 19
        decide
    exact ⟨rfl, _, (stands.endTick after).1⟩

/-- While interrupts are disabled, what is next begins as soon as no clock is left. -/
theorem Stands.upcoming {rom : Memory} {cpu : Cpu} {ie : UInt8} {m : Machine σ}
    (stands : m.Stands rom cpu ie 0) (disabled : cpu.ime = false) (low : cpu.pc.toNat < 0x4000)
    (running : cpu.halted = false)
    (complete : Encoding.ofOpcode (rom.read cpu.pc.toNat) = .complete i) :
    m.activity = .executes i := by
  have chips := stands.chips
  obtain ⟨n, turn, -⟩ := m.clock_cases
  generalize m.activity = activity at turn
  cases turn with
  | waits waiting => exact absurd chips.left waiting
  | dispatches _ _ enabled =>
    rw [chips.cpu, disabled] at enabled
    cases enabled
  | begins =>
    exact chips.upcoming_complete (by rwa [chips.cpu]) (by rwa [chips.cpu]) (by rwa [chips.cpu])
  | wakes =>
    have woken := chips.toPlays.evolves m.clockChips.wake_evolves
    have pc : m.clockChips.wake.console.hw.cpu.pc = cpu.pc := by
      show m.clockChips.console.hw.cpu.pc = cpu.pc
      rw [chips.cpu]
    exact woken.upcoming_complete (by rwa [pc]) rfl (by rwa [pc])

end Machine

end GameBoy
