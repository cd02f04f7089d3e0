import GameBoy.Proofs.Access

/-!
Simulations: relations between two machines that last through all that the machines do, as long as
they last through accesses of the bus and through what the consoles do by themselves. A machine
without devices that is compared with itself in this way shows how it evolves.
-/

namespace GameBoy

/-- From related states, two pieces of work give the same and lead to related states. -/
def Agree (Q : ρ → ς → Prop) (x : StateM ρ α) (y : StateM ς α) : Prop :=
  ∀ s t, Q s t → (y.run t).1 = (x.run s).1 ∧ Q (x.run s).2 (y.run t).2

namespace Agree

theorem pure (a : α) : Agree Q (Pure.pure a) (Pure.pure a) := fun _ _ related => ⟨rfl, related⟩

theorem bind {f : α → StateM ρ β} {g : α → StateM ς β} (first : Agree Q x y)
    (second : ∀ a, Agree Q (f a) (g a)) : Agree Q (x >>= f) (y >>= g) := by
  intro s t related
  obtain ⟨same, after⟩ := first s t related
  show ((g (y.run t).1).run (y.run t).2).1 = ((f (x.run s).1).run (x.run s).2).1 ∧
    Q ((f (x.run s).1).run (x.run s).2).2 ((g (y.run t).1).run (y.run t).2).2
  rw [same]
  exact second _ _ _ after

/-- Sources that give the same bytes give the same instructions. -/
theorem decode (fetch : Agree Q x y) : Agree Q (Instruction.decode x) (Instruction.decode y) := by
  refine fetch.bind fun op => ?_
  cases Encoding.ofOpcode op with
  | complete i => exact pure i
  | withByte f => exact fetch.bind fun _ => pure _
  | withWord f => exact fetch.bind fun _ => fetch.bind fun _ => pure _

end Agree

namespace Machine

/-- A relation between machines, over the ticks gone by, that lasts through accesses and through what
consoles do by themselves. -/
structure Simulation (R : Nat → Machine σ → Machine τ → Prop) : Prop where
  console : R ticks m n → n.console = m.console
  own {f : Console → Console} : R ticks m n → (∀ c : Console, c.Moves more (f c)) →
    R (ticks + more) (m.mapConsole f) (n.mapConsole f)
  read : R ticks m n → ∀ address,
    (n.read address).1 = (m.read address).1 ∧ R ticks (m.read address).2 (n.read address).2
  write : R ticks m n → ∀ address v, R ticks (m.write address v) (n.write address v)

namespace Simulation

variable {R : Nat → Machine σ → Machine τ → Prop} {m : Machine σ} {n : Machine τ}

theorem mapConsole (sim : Simulation R) (related : R ticks m n) {f : Console → Console}
    (moves : ∀ c : Console, c.Moves 0 (f c)) : R ticks (m.mapConsole f) (n.mapConsole f) :=
  sim.own related moves

theorem mapHardware (sim : Simulation R) (related : R ticks m n) {f : Hardware → Hardware}
    (moves : ∀ c : Console, c.Moves 0 { c with hw := f c.hw }) :
    R ticks (m.mapHardware f) (n.mapHardware f) :=
  sim.mapConsole related (f := fun c => { c with hw := f c.hw }) moves

/-! Instructions. -/

/-- The machines are related in the middle of an instruction. -/
private def Amid (R : Nat → Machine σ → Machine τ → Prop) (ticks : Nat) (s : Step σ) (t : Step τ) :
    Prop :=
  t.clocks = s.clocks ∧ R ticks s.machine t.machine

private theorem agree_congruence (sim : Simulation R) (ticks : Nat) :
    Exec.Congruence fun _ _ x y => Agree (Amid R ticks) x y where
  pure a := .pure a
  bind first second := first.bind second
  weaken agree _ := agree
  idle := by
    rintro _ _ ⟨clocks, related⟩
    exact ⟨rfl, congrArg (· + 4) clocks, related⟩
  readByte address := by
    rintro _ _ ⟨clocks, related⟩
    obtain ⟨same, after⟩ := sim.read related address
    exact ⟨same, congrArg (· + 4) clocks, after⟩
  writeByte address v := by
    rintro _ _ ⟨clocks, related⟩
    exact ⟨rfl, congrArg (· + 4) clocks, sim.write related address v⟩
  hardware := by
    rintro _ _ ⟨clocks, related⟩
    exact ⟨congrArg Console.hw (sim.console related), clocks, related⟩
  processor f _ := by
    rintro _ _ ⟨clocks, related⟩
    refine ⟨rfl, clocks, sim.mapHardware related (f := fun hw => { hw with cpu := f hw }) ?_⟩
    intro c
    exact { Console.Moves.refl c with }
  switchSpeed := by
    rintro _ _ ⟨clocks, related⟩
    exact ⟨rfl, clocks, sim.mapHardware related Console.switchSpeed_moves⟩
  raise fault := by
    rintro _ _ ⟨clocks, related⟩
    exact ⟨rfl, clocks, sim.mapConsole related (·.raise_moves fault)⟩

theorem step (sim : Simulation R) (related : R ticks m n) :
    n.step.1 = m.step.1 ∧ R ticks m.step.2 n.step.2 :=
  ((sim.agree_congruence ticks).step { machine := m } { machine := n } ⟨rfl, related⟩).2

theorem dispatch (sim : Simulation R) (related : R ticks m n) (line : Interrupt) :
    R ticks (m.dispatch line) (n.dispatch line) := by
  have pushed := fun address high below low =>
    sim.write (sim.write related address high) below low
  simp only [Machine.dispatch, sim.console related]
  refine sim.mapHardware (pushed _ _ _ _) fun c => ⟨?_, rfl⟩
  show c.Evolves (0 + 0) _
  exact (c.acknowledge_evolves line).trans { Console.Evolves.refl _ with }

theorem wake (sim : Simulation R) (related : R ticks m n) : R ticks m.wake n.wake :=
  sim.mapHardware related fun c => { Console.Moves.refl c with }

theorem serveInterrupts (sim : Simulation R) (related : R ticks m n) :
    R ticks m.serveInterrupts n.serveInterrupts := by
  simp only [Machine.serveInterrupts, sim.console related]
  split
  · cases m.console.hw.nextInterrupt? with
    | none => exact related
    | some line =>
      dsimp only
      split
      · exact sim.dispatch (sim.wake related) line
      · exact sim.wake related
  · exact related

theorem beginInstruction (sim : Simulation R) (related : R ticks m n) :
    R ticks m.beginInstruction n.beginInstruction := by
  obtain ⟨clocks, stepped⟩ := sim.step related
  simp only [Machine.beginInstruction, sim.console related, clocks]
  split
  · exact sim.mapHardware stepped fun c => { Console.Moves.refl c with stall := fun _ => rfl }
  · exact related

theorem clock (sim : Simulation R) (related : R ticks m n) : R ticks m.clock n.clock := by
  have timer := sim.mapHardware related Console.clockTimer_moves
  have oamDma := sim.mapConsole timer Console.clockOamDma_moves
  have begun := sim.beginInstruction (sim.serveInterrupts oamDma)
  exact sim.mapHardware begun (f := fun hw => { hw with cyclesPending := hw.cyclesPending - 1 })
    fun c => { Console.Moves.refl c with }

theorem clocksOfTick (sim : Simulation R) (related : R ticks m n) :
    R ticks m.clocksOfTick n.clocksOfTick := by
  simp only [Machine.clocksOfTick, sim.console related]
  split
  · exact sim.clock (sim.clock related)
  · exact sim.clock related

/-- What ticks of related machines report is the same. -/
theorem tick (sim : Simulation R) (related : R ticks m n) :
    n.tick.saved = m.tick.saved ∧ n.tick.fault = m.tick.fault ∧
      R (ticks + 1) m.tick.machine n.tick.machine := by
  have clocked := sim.mapConsole (sim.clocksOfTick related) Console.tickCartridge_moves
  refine ⟨?_, ?_, ?_⟩
  · simp only [Machine.tick, sim.console clocked]
  · simp only [Machine.tick, sim.console clocked]
  · exact sim.own clocked
      (f := fun c =>
        { c with
          hw := { c.hw with cycleCount := c.hw.cycleCount + 1, batteryDirty := false }
          fault := none })
      fun c => { Console.Moves.refl c with cycleCount := rfl }

/-- Runs that report the same and end at related machines. -/
def Ends (R : Nat → Machine σ → Machine τ → Prop) (r : Run σ) (t : Run τ) : Prop :=
  t.journal = r.journal ∧ t.fault = r.fault ∧ ∃ ticks, R ticks r.machine t.machine

theorem run (sim : Simulation R) (related : R ticks m n) (count : Nat) (journal : Journal) :
    Ends R (Machine.run count m journal) (Machine.run count n journal) := by
  induction count generalizing ticks m n journal with
  | zero => exact ⟨rfl, rfl, ticks, related⟩
  | succ count ih =>
    obtain ⟨saved, fault, ticked⟩ := sim.tick related
    simp only [Machine.run, saved, fault]
    cases m.tick.fault with
    | none => exact ih ticked _
    | some fault => exact ⟨rfl, rfl, _, ticked⟩

theorem runInstruction? (sim : Simulation R) (related : R ticks m n) (limit : Nat)
    (journal : Journal) :
    Option.Rel (Ends R) (Machine.runInstruction? limit m journal)
      (Machine.runInstruction? limit n journal) := by
  induction limit generalizing ticks m n journal with
  | zero => exact .none
  | succ limit ih =>
    obtain ⟨saved, fault, ticked⟩ := sim.tick related
    simp only [Machine.runInstruction?, saved, fault, sim.console ticked]
    cases m.tick.fault with
    | none =>
      dsimp only
      split
      · exact .some ⟨rfl, rfl, _, ticked⟩
      · exact ih ticked _
    | some fault => exact .some ⟨rfl, rfl, _, ticked⟩

theorem run_nextByte (address : UInt16) (m : Machine σ) :
    nextByte.run (address, m) = ((m.read address).1, address + 1, (m.read address).2) := rfl

theorem disassemble_succ (count : Nat) (address : UInt16) (m : Machine σ) :
    Machine.disassemble (count + 1) address m =
      let decoded := (Instruction.decode (nextByte (σ := σ))).run (address, m)
      let rest := Machine.disassemble count (address + UInt16.ofNat decoded.1.size) decoded.2.2
      ((address, decoded.1) :: rest.1, rest.2) := rfl

theorem disassemble (sim : Simulation R) (related : R ticks m n) (count : Nat) (address : UInt16) :
    (Machine.disassemble count address n).1 = (Machine.disassemble count address m).1 ∧
      R ticks (Machine.disassemble count address m).2 (Machine.disassemble count address n).2 := by
  have fetch : Agree (fun (s : UInt16 × Machine σ) (t : UInt16 × Machine τ) =>
      t.1 = s.1 ∧ R ticks s.2 t.2) nextByte nextByte := by
    rintro ⟨address, m⟩ ⟨_, n⟩ ⟨rfl, related⟩
    rw [run_nextByte, run_nextByte]
    exact ⟨(sim.read related _).1, rfl, (sim.read related _).2⟩
  induction count generalizing m n address with
  | zero => exact ⟨rfl, related⟩
  | succ count ih =>
    obtain ⟨same, -, decoded⟩ := fetch.decode (address, m) (address, n) ⟨rfl, related⟩
    rw [disassemble_succ, disassemble_succ]
    dsimp only
    rw [same]
    obtain ⟨rest, listed⟩ := ih decoded _
    exact ⟨congrArg _ rest, listed⟩

end Simulation

/-! Evolution. -/

/-- How a machine without devices can move in a number of ticks: the bus is left as it is. -/
structure Evolves (ticks : Nat) (m n : Machine σ) : Prop where
  console : m.console.Evolves ticks n.console
  vramVisible : n.vramVisible = m.vramVisible
  oamVisible : n.oamVisible = m.oamVisible
  handlers : n.handlers = m.handlers
  devices : n.devices = m.devices

theorem Evolves.refl (m : Machine σ) : m.Evolves 0 m := ⟨.refl _, rfl, rfl, rfl, rfl⟩

theorem Evolves.trans {m n k : Machine σ} (first : m.Evolves before n)
    (second : n.Evolves after k) : m.Evolves (before + after) k where
  console := first.console.trans second.console
  vramVisible := second.vramVisible.trans first.vramVisible
  oamVisible := second.oamVisible.trans first.oamVisible
  handlers := second.handlers.trans first.handlers
  devices := second.devices.trans first.devices

theorem Evolves.bare {m n : Machine σ} (e : m.Evolves ticks n) (bare : m.handlers = []) :
    n.handlers = [] := e.handlers.trans bare

/-- Only the console moves. -/
theorem Evolves.eq {m n : Machine σ} (e : m.Evolves ticks n) :
    { m with console := n.console } = n := by
  cases n
  obtain ⟨-, vramVisible, oamVisible, handlers, devices⟩ := e
  simp only at vramVisible oamVisible handlers devices
  rw [vramVisible, oamVisible, handlers, devices]

theorem mapConsole_evolves (m : Machine σ) (e : m.console.Evolves ticks (f m.console)) :
    m.Evolves ticks (m.mapConsole f) := ⟨e, rfl, rfl, rfl, rfl⟩

theorem mapHardware_evolves (m : Machine σ) (f : Hardware → Hardware)
    (e : m.console.Evolves 0 { m.console with hw := f m.console.hw }) :
    m.Evolves 0 (m.mapHardware f) := ⟨e, rfl, rfl, rfl, rfl⟩

theorem route_bare (m : Machine σ) (bare : m.handlers = []) (address : UInt16) :
    m.route address =
      if m.shows (.ofAddress address) then .memory (.ofAddress address) else .hidden := by
  rw [route, bare]
  rfl

/-- Without devices nothing notices that it is read. -/
theorem read_bare (m : Machine σ) (bare : m.handlers = []) (address : UInt16) :
    (m.read address).2 = m := by
  rw [read, m.route_bare bare]
  by_cases shown : m.shows (.ofAddress address)
  · rw [if_pos shown]
  · rw [if_neg shown]

theorem disassemble_bare (m : Machine σ) (bare : m.handlers = []) (count : Nat) (address : UInt16) :
    (disassemble count address m).2 = m := by
  have fetch : Agree (fun (s t : UInt16 × Machine σ) => t = s ∧ s.2 = m) nextByte nextByte := by
    rintro ⟨address, _⟩ _ ⟨rfl, rfl⟩
    exact ⟨rfl, rfl, read_bare _ bare address⟩
  induction count generalizing address with
  | zero => rfl
  | succ count ih =>
    obtain ⟨-, -, still⟩ := fetch.decode (address, m) (address, m) ⟨rfl, rfl⟩
    rw [Simulation.disassemble_succ]
    dsimp only
    rw [still]
    exact ih _

theorem write_evolves (m : Machine σ) (bare : m.handlers = []) (address : UInt16) (v : UInt8) :
    m.Evolves 0 (m.write address v) := by
  rw [write, m.route_bare bare]
  by_cases shown : m.shows (.ofAddress address)
  · rw [if_pos shown]
    exact m.mapConsole_evolves (m.console.writeRegion_evolves (Region.spans_ofAddress address) v)
  · rw [if_neg shown]
    exact .refl m

/-- A machine without devices that is compared with itself evolves. -/
theorem evolves_simulation {start : Machine σ} (bare : start.handlers = []) :
    Simulation fun ticks m n => n = m ∧ start.Evolves ticks m where
  console same := congrArg console same.1
  own := by
    rintro _ _ _ more f ⟨rfl, evolved⟩ moves
    exact ⟨rfl, evolved.trans (mapConsole_evolves _ (moves _).toEvolves)⟩
  read := by
    rintro _ m _ ⟨rfl, evolved⟩ address
    refine ⟨rfl, rfl, ?_⟩
    rw [read_bare _ (evolved.bare bare)]
    exact evolved
  write := by
    rintro _ m _ ⟨rfl, evolved⟩ address v
    exact ⟨rfl, evolved.trans (write_evolves _ (evolved.bare bare) address v)⟩

theorem step_evolves (m : Machine σ) (bare : m.handlers = []) : m.Evolves 0 m.step.2 :=
  ((evolves_simulation bare).step ⟨rfl, .refl m⟩).2.2

theorem wake_evolves (m : Machine σ) : m.Evolves 0 m.wake :=
  m.mapHardware_evolves _ { Console.Evolves.refl m.console with }

theorem serveInterrupts_evolves (m : Machine σ) (bare : m.handlers = []) :
    m.Evolves 0 m.serveInterrupts :=
  ((evolves_simulation bare).serveInterrupts ⟨rfl, .refl m⟩).2

theorem clockTimer_evolves (m : Machine σ) : m.Evolves 0 (m.mapHardware (·.clockTimer)) :=
  m.mapHardware_evolves _ m.console.clockTimer_evolves

theorem clockOamDma_evolves (m : Machine σ) : m.Evolves 0 (m.mapConsole (·.clockOamDma)) :=
  m.mapConsole_evolves m.console.clockOamDma_evolves

/-- One clock of the chips beside the processor: the timer, and the transfer into sprite memory. -/
def clockChips (m : Machine σ) : Machine σ :=
  (m.mapHardware (·.clockTimer)).mapConsole (·.clockOamDma)

theorem clockChips_evolves (m : Machine σ) : m.Evolves 0 m.clockChips :=
  m.clockTimer_evolves.trans (clockOamDma_evolves _)

theorem clockChips_beside (m : Machine σ) : m.console.Beside m.clockChips.console :=
  m.console.clockTimer_beside.trans (Console.clockOamDma_beside _)

theorem clock_evolves (m : Machine σ) (bare : m.handlers = []) : m.Evolves 0 m.clock :=
  ((evolves_simulation bare).clock ⟨rfl, .refl m⟩).2

theorem clocksOfTick_evolves (m : Machine σ) (bare : m.handlers = []) :
    m.Evolves 0 m.clocksOfTick :=
  ((evolves_simulation bare).clocksOfTick ⟨rfl, .refl m⟩).2

theorem tick_evolves (m : Machine σ) (bare : m.handlers = []) : m.Evolves 1 m.tick.machine := by
  obtain ⟨-, evolved⟩ := ((evolves_simulation bare).tick ⟨rfl, .refl m⟩).2.2
  rwa [Nat.zero_add] at evolved

theorem run_evolves (count : Nat) (m : Machine σ) (bare : m.handlers = []) (journal : Journal) :
    ∃ ticks, m.Evolves ticks (run count m journal).machine := by
  obtain ⟨-, -, ticks, -, evolved⟩ := (evolves_simulation bare).run ⟨rfl, .refl m⟩ count journal
  exact ⟨ticks, evolved⟩

end Machine

end GameBoy
