import GameBoy.Proofs.Programs

/-!
When an instruction ends at the end of a tick. A tick at double speed is two processor clocks, so a
processor that has an odd number of clocks left never comes to rest there. Main statement:
`runInstruction?_returns_iff`.
-/

namespace GameBoy

namespace Machine

/-- The processor can come to rest at the end of a tick. -/
def InStep (m : Machine σ) : Prop :=
  m.console.hw.doubleSpeed = true → m.console.hw.cyclesPending.toNat % 2 = 0

/-! What ticks do to the clocks that are left. -/

theorem clock_counts (m : Machine σ) (waiting : m.console.hw.cyclesPending ≠ 0) :
    m.clock.console.hw.cyclesPending = m.console.hw.cyclesPending - 1 ∧
      m.clock.console.hw.doubleSpeed = m.console.hw.doubleSpeed := by
  obtain ⟨-, clocked⟩ := m.clock_waiting waiting
  have chips := m.clockChips_beside
  rw [clocked]
  exact ⟨congrArg (· - 1) chips.cyclesPending, chips.doubleSpeed⟩

/-- The end of a tick leaves the clocks and the speed alone. -/
theorem tick_pace (m : Machine σ) :
    m.tick.machine.console.hw.cyclesPending = m.clocksOfTick.console.hw.cyclesPending ∧
      m.tick.machine.console.hw.doubleSpeed = m.clocksOfTick.console.hw.doubleSpeed :=
  ⟨m.tick_beside.cyclesPending, m.tick_beside.doubleSpeed⟩

/-- A tick in step leaves less clocks. -/
theorem tick_counts (m : Machine σ) (inStep : m.InStep) (waiting : m.console.hw.cyclesPending ≠ 0) :
    m.tick.machine.InStep ∧
      m.tick.machine.console.hw.cyclesPending.toNat < m.console.hw.cyclesPending.toNat := by
  obtain ⟨left, speedAfter⟩ := m.tick_pace
  obtain ⟨less, same⟩ := m.clock_counts waiting
  have some : m.console.hw.cyclesPending.toNat ≠ 0 := fun zero => waiting (UInt32.toNat.inj zero)
  have fewer := congrArg UInt32.toNat less
  simp only [UInt32.toNat_sub, UInt32.reduceToNat] at fewer
  rw [InStep, speedAfter, left]
  cases speed : m.console.hw.doubleSpeed with
  | false =>
    rw [m.clocksOfTick_normal speed, same, speed]
    exact ⟨nofun, by omega⟩
  | true =>
    have even := inStep speed
    have between : m.clock.console.hw.cyclesPending ≠ 0 := by
      intro zero
      have zero := congrArg UInt32.toNat zero
      simp only [UInt32.reduceToNat] at zero
      omega
    obtain ⟨lessAgain, -⟩ := m.clock.clock_counts between
    have fewerAgain := congrArg UInt32.toNat lessAgain
    simp only [UInt32.toNat_sub, UInt32.reduceToNat] at fewerAgain
    rw [m.clocksOfTick_double speed]
    exact ⟨fun _ => by omega, by omega⟩

/-- In step, the processor comes to rest. -/
theorem rests_of_inStep (m : Machine σ) (inStep : m.InStep) :
    ∃ n, (m.ticks n).console.hw.cyclesPending = 0 := by
  generalize left : m.console.hw.cyclesPending.toNat = clocks
  induction clocks using Nat.strongRecOn generalizing m with
  | ind clocks ih =>
    by_cases rest : m.console.hw.cyclesPending = 0
    · exact ⟨0, rest⟩
    · obtain ⟨inStepAfter, less⟩ := m.tick_counts inStep rest
      obtain ⟨n, rests⟩ := ih _ (left ▸ less) m.tick.machine inStepAfter rfl
      refine ⟨n + 1, ?_⟩
      rw [ticks_succ]
      exact rests

theorem inStep_of_rest {m : Machine σ} (rest : m.console.hw.cyclesPending = 0) : m.InStep := by
  intro _
  rw [rest]
  rfl

/-- The ticks of an instruction end with a fault or when the processor comes to rest. -/
theorem runInstruction?_returns_iff_rests (m : Machine σ) (journal : Journal) :
    (∃ limit r, runInstruction? limit m journal = some r) ↔
      ∃ n, (m.ticks n).tick.fault ≠ none ∨ (m.ticks (n + 1)).console.hw.cyclesPending = 0 := by
  constructor
  · rintro ⟨limit, r, returned⟩
    induction limit generalizing m journal with
    | zero => cases returned
    | succ limit ih =>
      rw [runInstruction?] at returned
      cases fault : m.tick.fault with
      | some f => exact ⟨0, .inl (fault ▸ Option.some_ne_none f)⟩
      | none =>
        rw [fault] at returned
        dsimp only at returned
        by_cases rest : m.tick.machine.console.hw.cyclesPending = 0
        · exact ⟨0, .inr rest⟩
        · rw [if_neg rest] at returned
          obtain ⟨n, ends⟩ := ih _ _ returned
          rw [← ticks_succ, ← ticks_succ] at ends
          exact ⟨n + 1, ends⟩
  · rintro ⟨n, ends⟩
    refine ⟨n + 1, ?_⟩
    induction n generalizing m journal with
    | zero =>
      rw [runInstruction?]
      cases fault : m.tick.fault with
      | some f => exact ⟨_, rfl⟩
      | none =>
        have rest : m.tick.machine.console.hw.cyclesPending = 0 :=
          ends.resolve_left fun found => found fault
        dsimp only
        rw [if_pos rest]
        exact ⟨_, rfl⟩
    | succ n ih =>
      rw [ticks_succ, ticks_succ] at ends
      rw [runInstruction?]
      cases fault : m.tick.fault with
      | some f => exact ⟨_, rfl⟩
      | none =>
        dsimp only
        split
        · exact ⟨_, rfl⟩
        · exact ih _ _ ends

/-- At the same speed a machine stays in step or out of step. -/
theorem inStep_tick (m : Machine σ) (bare : m.handlers = [])
    (whole : m.console.hw.stall.toNat % 8 = 0)
    (same : m.tick.machine.console.hw.doubleSpeed = m.console.hw.doubleSpeed) :
    m.tick.machine.InStep ↔ m.InStep := by
  unfold InStep
  rw [same, m.tick_pace.1]
  cases speed : m.console.hw.doubleSpeed with
  | false => exact ⟨nofun, nofun⟩
  | true =>
    have clocked := m.clock_evolves bare
    have first := m.parity_clock bare whole
    have second := m.clock.parity_clock (clocked.bare bare) (clocked.console.stall whole)
    rw [m.clocksOfTick_double speed]
    constructor
    · intro even _
      have even := even rfl
      omega
    · intro even _
      have even := even rfl
      omega

/-- An instruction that switches to double speed leaves the machine out of step: one of its clocks
has already passed in the tick that it began in. -/
theorem not_inStep_of_switch (m : Machine σ) (bare : m.handlers = [])
    (whole : m.console.hw.stall.toNat % 8 = 0) (normal : m.console.hw.doubleSpeed = false)
    (double : m.tick.machine.console.hw.doubleSpeed = true) : ¬m.tick.machine.InStep := by
  obtain ⟨left, speed⟩ := m.tick_pace
  rw [m.clocksOfTick_normal normal] at left speed
  rw [InStep, double, left]
  intro inStep
  have even := inStep rfl
  have parity := m.parity_clock bare whole
  by_cases between : m.console.hw.cyclesPending = 0
  · rw [between] at parity
    simp only [UInt32.reduceToNat] at parity
    omega
  · -- While clocks are left, the speed does not change.
    have same := (m.clock_counts between).2
    rw [← speed, double, normal] at same
    cases same

theorem ticks_evolves (m : Machine σ) (bare : m.handlers = []) (count : Nat) :
    m.Evolves count (m.ticks count) := by
  induction count with
  | zero => exact .refl m
  | succ count ih => exact ih.trans (tick_evolves _ (ih.bare bare))

/-! A program that switches to double speed and halts. -/

end Machine

/-- While no line is enabled, no request ends a halt. -/
theorem Hardware.halt_disabled (hw : Hardware) (disabled : hw.ie = 0) :
    hw.halt = { hw with cpu := { hw.cpu with halted := true } } := by
  rw [halt, nextInterrupt?_disabled disabled, Option.isSome_none, Bool.and_false]
  rfl

/-- A color model that has been prepared for it switches its speed, and goes on where it is. -/
theorem Hardware.switchSpeed_asked (hw : Hardware) (color : hw.model = .color)
    (asked : hw.io.read Io.speed = 1) :
    hw.switchSpeed.doubleSpeed = (!hw.doubleSpeed) ∧ hw.switchSpeed.ie = hw.ie ∧
      hw.switchSpeed.cpu = hw.cpu := by
  have prepared : (hw.isColor && decide (hw.io.read Io.speed % 2 = 1)) = true := by
    rw [isColor, color, asked]
    rfl
  rw [switchSpeed, if_pos prepared]
  exact ⟨rfl, rfl, rfl⟩

namespace Machine

/-- A machine at double speed that has halted or is about to. -/
structure Halts (rom : Memory) (m : Machine σ) : Prop extends m.Plays rom where
  ie : m.console.hw.ie = 0
  double : m.console.hw.doubleSpeed = true
  calm : m.console.fault = none
  halting : m.console.hw.cpu.halted = true ∨ m.console.hw.cpu.pc = 0x102

namespace Halts

variable {rom : Memory} {m : Machine σ}

theorem chips (halts : m.Halts rom) : m.clockChips.Halts rom where
  toPlays := halts.toPlays.evolves m.clockChips_evolves
  ie := m.clockChips_beside.ie.trans halts.ie
  double := m.clockChips_beside.doubleSpeed.trans halts.double
  calm := m.clockChips_beside.fault.trans halts.calm
  halting := by
    rw [m.clockChips_beside.cpu]
    exact halts.halting

theorem step (halts : m.Halts rom) (opcode : rom.read 0x102 = 0x76) : m.step.2.Halts rom := by
  have plays := halts.toPlays.evolves (m.step_evolves halts.bare)
  cases halted : m.console.hw.cpu.halted with
  | true =>
    have same : m.step.2 = m := congrArg (·.2.machine) (m.run_step_halted halted)
    rw [same]
    exact halts
  | false =>
    have pc : m.console.hw.cpu.pc = 0x102 :=
      halts.halting.resolve_left (by rw [halted]; exact Bool.false_ne_true)
    have complete : Encoding.ofOpcode (rom.read m.console.hw.cpu.pc.toNat) = .complete .halt := by
      rw [pc]
      show Encoding.ofOpcode (rom.read 0x102) = _
      rw [opcode]
      rfl
    have stepped := halts.step_complete (by rw [pc]; decide) halted complete
    let asleep := m.advanced.mapHardware fun hw => { hw with cpu := { hw.cpu with halted := true } }
    have executed : (Exec.execute m.console.hw.cpu.pc .halt).run
        { machine := m.advanced, clocks := 4 } = ((), { machine := asleep, clocks := 4 }) := by
      show ((), ({ machine := m.advanced.mapHardware .halt, clocks := 4 } : Step σ)) = _
      rw [mapHardware, m.advanced.console.hw.halt_disabled halts.ie]
      rfl
    rw [executed] at stepped
    rw [stepped] at plays ⊢
    refine ⟨plays, halts.ie, halts.double, halts.calm, .inl ?_⟩
    show Cpu.halted (if _ && m.console.hw.cpu.imePending then _ else _) = true
    split <;> rfl

theorem clock (halts : m.Halts rom) (opcode : rom.read 0x102 = 0x76) : m.clock.Halts rom := by
  have chips := halts.chips
  by_cases between : m.console.hw.cyclesPending = 0
  · have left := m.clockChips_beside.cyclesPending.trans between
    have stepped := chips.step opcode
    rw [(m.clock_between between halts.ie).2, beginInstruction_eq _ left]
    generalize m.clockChips.step = s at stepped ⊢
    exact { stepped with }
  · rw [(m.clock_waiting between).2]
    exact { chips with }

theorem tick (halts : m.Halts rom) (opcode : rom.read 0x102 = 0x76) :
    m.tick.fault = none ∧ m.tick.machine.Halts rom := by
  have clocked := (halts.clock opcode).clock opcode
  have ended := m.tick_beside
  rw [m.clocksOfTick_double halts.double] at ended
  rw [m.tick_fault, m.clocksOfTick_double halts.double]
  refine ⟨clocked.calm, ?_⟩
  exact
    { toPlays := halts.toPlays.evolves (m.tick_evolves halts.bare)
      ie := ended.ie.trans clocked.ie
      double := ended.doubleSpeed.trans clocked.double
      calm := ended.fault
      halting := by
        rw [ended.cpu]
        exact clocked.halting }

/-- A machine that halts out of step stays so. -/
theorem ticks (halts : m.Halts rom) (opcode : rom.read 0x102 = 0x76)
    (whole : m.console.hw.stall.toNat % 8 = 0) (outOfStep : ¬m.InStep) (n : Nat) :
    (m.ticks n).Halts rom ∧ ¬(m.ticks n).InStep := by
  have evolved := m.ticks_evolves halts.bare
  induction n with
  | zero => exact ⟨halts, outOfStep⟩
  | succ n ih =>
    obtain ⟨halts, outOfStep⟩ := ih
    have wholeNow := (evolved n).console.stall whole
    obtain ⟨-, ticked⟩ := halts.tick opcode
    have still := inStep_tick _ halts.bare wholeNow (ticked.double.trans halts.double.symm)
    exact ⟨ticked, fun inStep => outOfStep (still.mp inStep)⟩

end Halts

/-- A STOP reads the byte behind it, and switches the speed. -/
theorem Plays.step_stop {m : Machine σ} (plays : m.Plays rom)
    (low : m.console.hw.cpu.pc.toNat + 1 < 0x4000) (running : m.console.hw.cpu.halted = false)
    (calm : m.console.hw.cpu.imePending = false)
    (opcode : rom.read m.console.hw.cpu.pc.toNat = 0x10) :
    m.step = (8, m.advanced.advanced.mapHardware (·.switchSpeed)) := by
  have complete : Encoding.ofOpcode (rom.read m.console.hw.cpu.pc.toNat) = .complete .stop := by
    rw [opcode]
    rfl
  have next : m.advanced.console.hw.cpu.pc.toNat < 0x4000 := by
    show (m.console.hw.cpu.pc + 1).toNat < 0x4000
    simp only [UInt16.toNat_add, UInt16.reduceToNat]
    omega
  have fetched := (plays.evolves m.advanced_evolves).run_fetch next 4
  have executed : (Exec.execute m.console.hw.cpu.pc .stop).run
      { machine := m.advanced, clocks := 4 } =
        ((), { machine := m.advanced.advanced.mapHardware (·.switchSpeed), clocks := 8 }) := by
    show (Exec.modifyHardware .switchSpeed).run
      (Exec.fetch.run { machine := m.advanced, clocks := 4 }).2 = _
    rw [fetched]
    rfl
  rw [plays.step_complete (by omega) running complete, calm, executed]
  rfl

/-- The chips request interrupts, and leave all other I/O registers alone. -/
theorem clockChips_io (m : Machine σ) (other : Io.interruptFlag ≠ index) :
    m.clockChips.console.hw.io.read index = m.console.hw.io.read index := by
  rw [m.io_clockChips]
  unfold Hardware.clockTimer
  split
  · exact Segment.read_write_ne _ other _
  · rfl

/-- A color model is prepared to switch its speed. -/
theorem Stands.prepare {rom : Memory} {cpu : Cpu} {ie : UInt8} {left : UInt32} {m : Machine σ}
    (stands : m.Stands rom cpu ie left) (color : m.console.hw.model = .color) :
    (m.write 0xFF4D 1).Stands rom cpu ie left ∧
      (m.write 0xFF4D 1).console.hw.io.read Io.speed = 1 := by
  have speed : IoRegister.ofAddress m.console.hw.isColor 0xFF4D = .speed := by
    rw [Hardware.isColor, color]
    decide
  have prepared : m.write 0xFF4D 1 =
      m.mapHardware fun hw => { hw with io := hw.io.write Io.speed 1 } := by
    rw [write, m.route_bare stands.bare]
    show { m with console := m.console.writeIo 0xFF4D 1 } = _
    rw [Console.writeIo, speed]
    rfl
  rw [prepared]
  exact ⟨{ stands with }, Segment.read_write_same _ (by decide) _⟩

/-- A STOP at normal speed that a color model has been prepared for. -/
theorem Stands.stop {rom : Memory} {cpu : Cpu} {m : Machine σ} (stands : m.Stands rom cpu 0 0)
    (low : cpu.pc.toNat + 1 < 0x4000) (running : cpu.halted = false)
    (calm : cpu.imePending = false) (opcode : rom.read cpu.pc.toNat = 0x10)
    (color : m.console.hw.model = .color) (asked : m.console.hw.io.read Io.speed = 1) :
    m.clock.console.hw.doubleSpeed = true ∧ m.clock.console.hw.ie = 0 ∧
      m.clock.console.hw.cpu.pc = cpu.pc + 1 + 1 ∧ m.clock.console.fault = m.console.fault := by
  have chips := stands.chips
  have fault := m.clockChips_beside.fault
  have stillColor := m.clockChips_evolves.console.model.trans color
  have stillAsked := (m.clockChips_io (show Io.interruptFlag ≠ Io.speed by decide)).trans asked
  rw [(m.clock_between stands.left stands.ie).2]
  generalize m.clockChips = n at chips fault stillColor stillAsked ⊢
  have stepped := chips.step_stop (by rwa [chips.cpu]) (by rwa [chips.cpu]) (by rwa [chips.cpu])
    (by rwa [chips.cpu])
  obtain ⟨speed, ie, processor⟩ :=
    n.advanced.advanced.console.hw.switchSpeed_asked stillColor stillAsked
  have double : n.step.2.console.hw.doubleSpeed = true := by
    rw [stepped]
    exact speed.trans (congrArg not chips.normal)
  have disabled : n.step.2.console.hw.ie = 0 := by
    rw [stepped]
    exact ie.trans chips.ie
  have pc : n.step.2.console.hw.cpu.pc = cpu.pc + 1 + 1 := by
    rw [stepped, ← chips.cpu]
    exact congrArg Cpu.pc processor
  have faultAfter : n.step.2.console.fault = m.console.fault := by
    rw [stepped]
    exact fault
  rw [beginInstruction_eq _ chips.left]
  generalize n.step = s at double disabled pc faultAfter ⊢
  exact ⟨double, disabled, pc, faultAfter⟩

/-- The tick of a STOP that switches to double speed, in a program that halts behind it. -/
theorem Stands.tick_stop {rom : Memory} {cpu : Cpu} {m : Machine σ} (stands : m.Stands rom cpu 0 0)
    (start : cpu.pc = 0x100) (running : cpu.halted = false) (calm : cpu.imePending = false)
    (opcode : rom.read 0x100 = 0x10) (color : m.console.hw.model = .color)
    (asked : m.console.hw.io.read Io.speed = 1) (faultless : m.console.fault = none)
    (whole : m.console.hw.stall.toNat % 8 = 0) :
    m.tick.fault = none ∧ m.tick.machine.Halts rom ∧ ¬m.tick.machine.InStep := by
  have stop : rom.read cpu.pc.toNat = 0x10 := by
    rw [start]
    exact opcode
  obtain ⟨double, ie, pc, fault⟩ :=
    stands.stop (by rw [start]; decide) running calm stop color asked
  have ended := m.tick_beside
  rw [m.clocksOfTick_normal stands.normal] at ended
  have doubleAfter := ended.doubleSpeed.trans double
  rw [m.tick_fault, m.clocksOfTick_normal stands.normal]
  refine ⟨fault.trans faultless, ?_,
    m.not_inStep_of_switch stands.bare whole stands.normal doubleAfter⟩
  exact
    { toPlays := stands.toPlays.evolves (m.tick_evolves stands.bare)
      ie := ended.ie.trans ie
      double := doubleAfter
      calm := ended.fault
      halting := by
        rw [ended.cpu]
        exact .inr (pc.trans (by rw [start]; rfl)) }

/-- A machine that is out of step after a tick without a fault, and halts, never ends its
instruction. -/
theorem Halts.never_returns {rom : Memory} {m : Machine σ} (faultless : m.tick.fault = none)
    (halts : m.tick.machine.Halts rom) (opcode : rom.read 0x102 = 0x76)
    (whole : m.tick.machine.console.hw.stall.toNat % 8 = 0) (outOfStep : ¬m.tick.machine.InStep)
    (limit : Nat) (journal : Journal) : runInstruction? limit m journal = none := by
  cases returned : runInstruction? limit m journal with
  | none => rfl
  | some r =>
    obtain ⟨n, ends⟩ := (runInstruction?_returns_iff_rests m journal).mp ⟨limit, r, returned⟩
    have later := halts.ticks opcode whole outOfStep
    rcases ends with fault | rest
    · cases n with
      | zero => exact absurd faultless fault
      | succ n =>
        rw [ticks_succ] at fault
        exact absurd ((later n).1.tick opcode).1 fault
    · rw [ticks_succ] at rest
      exact absurd (inStep_of_rest rest) (later n).2

/-- A color model whose next instruction is a STOP that switches to double speed. -/
def prepared (cart : Cartridge) : Machine Unit :=
  (powerOn cart (some .color) ()).after [.write 0xFF4D 1]

/-- Running to the end of an instruction returns exactly if a tick reports a fault or leaves no
clocks, and so exactly if a tick reports a fault or leaves the machine in step. If transfers have
taken a multiple of eight clocks, as they do in a session, then a machine stays in step or out of
step while it keeps its speed, and a switch to double speed leaves it out of step. -/
theorem runInstruction?_returns_iff {m : Machine σ} (bare : m.handlers = []) (journal : Journal) :
    ((∃ limit r, runInstruction? limit m journal = some r) ↔
        ∃ n, (m.ticks n).tick.fault ≠ none ∨ (m.ticks (n + 1)).console.hw.cyclesPending = 0) ∧
      ((∃ limit r, runInstruction? limit m journal = some r) ↔
        ∃ n, (m.ticks n).tick.fault ≠ none ∨ (m.ticks (n + 1)).InStep) ∧
      (m.console.hw.stall.toNat % 8 = 0 →
        ∀ n,
          ((m.ticks (n + 1)).console.hw.doubleSpeed = (m.ticks n).console.hw.doubleSpeed →
            ((m.ticks (n + 1)).InStep ↔ (m.ticks n).InStep)) ∧
          ((m.ticks n).console.hw.doubleSpeed = false →
            (m.ticks (n + 1)).console.hw.doubleSpeed = true → ¬(m.ticks (n + 1)).InStep)) := by
  have returns := runInstruction?_returns_iff_rests m journal
  refine ⟨returns, returns.trans ⟨?_, ?_⟩, ?_⟩
  · rintro ⟨n, ends⟩
    exact ⟨n, ends.imp_right inStep_of_rest⟩
  · rintro ⟨n, fault | inStep⟩
    · exact ⟨n, .inl fault⟩
    · obtain ⟨more, rests⟩ := rests_of_inStep _ inStep
      refine ⟨n + more, .inr ?_⟩
      rw [← ticks_add, Nat.add_right_comm] at rests
      exact rests
  · intro whole n
    have evolved := m.ticks_evolves bare n
    have wholeAfter := evolved.console.stall whole
    exact ⟨inStep_tick _ (evolved.bare bare) wholeAfter,
      not_inStep_of_switch _ (evolved.bare bare) wholeAfter⟩

/-- A STOP that switches to double speed, and a HALT behind it. -/
theorem runInstruction?_returns_iff_stop :
    ∃ cart, Cartridge.ofImage (Cartridge.programImage 0x10 0x00 0x76) = .ok cart ∧
      let m := prepared cart
      m.handlers = [] ∧
        ((∃ limit r, runInstruction? limit m {} = some r) ↔
          ∃ n, (m.ticks n).tick.fault ≠ none ∨ (m.ticks (n + 1)).console.hw.cyclesPending = 0) ∧
        ((∃ limit r, runInstruction? limit m {} = some r) ↔
          ∃ n, (m.ticks n).tick.fault ≠ none ∨ (m.ticks (n + 1)).InStep) ∧
        ∀ n,
          ((m.ticks (n + 1)).console.hw.doubleSpeed = (m.ticks n).console.hw.doubleSpeed →
            ((m.ticks (n + 1)).InStep ↔ (m.ticks n).InStep)) ∧
          ((m.ticks n).console.hw.doubleSpeed = false →
            (m.ticks (n + 1)).console.hw.doubleSpeed = true → ¬(m.ticks (n + 1)).InStep) := by
  obtain ⟨cart, accepted, -⟩ := Cartridge.ofImage_program 0x10 0x00 0x76
  have keeps := (powerOn cart (some .color) ()).after_keeps rfl [.write 0xFF4D 1]
  obtain ⟨rests, inStep, paced⟩ := runInstruction?_returns_iff keeps.handlers {}
  exact ⟨cart, accepted, keeps.handlers, rests, inStep, paced (keeps.stall rfl)⟩

/-- After this STOP the processor never comes to rest at the end of a tick. -/
theorem stop_never_returns :
    ∃ cart, Cartridge.ofImage (Cartridge.programImage 0x10 0x00 0x76) = .ok cart ∧
      ∀ limit journal, runInstruction? limit (prepared cart) journal = none := by
  obtain ⟨cart, accepted, fixed⟩ := Cartridge.ofImage_program 0x10 0x00 0x76
  obtain ⟨stands, asked⟩ := (powerOn_stands accepted fixed .color).prepare rfl
  have keeps := (powerOn cart (some .color) ()).after_keeps rfl [.write 0xFF4D 1]
  have whole : (prepared cart).console.hw.stall.toNat % 8 = 0 := keeps.stall rfl
  have ticked := (prepared cart).tick_evolves stands.bare
  obtain ⟨faultless, halts, outOfStep⟩ :=
    stands.tick_stop rfl rfl rfl Cartridge.programImage_first keeps.shape.model asked rfl whole
  exact ⟨cart, accepted, halts.never_returns faultless Cartridge.programImage_third
    (ticked.console.stall whole) outOfStep⟩

end Machine

end GameBoy
