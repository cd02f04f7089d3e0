import GameBoy.Proofs.Activity
import GameBoy.Proofs.Frame
import GameBoy.Proofs.SafeRun

/-!
What a machine writes over its bus. A device at every address logs the writes and passes them on, so
that nothing else changes, and a log tells how the console has come from one state to another. Main
statement: `clock_logged`, which says what a clock writes and what comes of it.
-/

namespace GameBoy

/-- A write over the bus, and the console that it met. -/
structure BusWrite where
  met : Console
  address : UInt16
  value : UInt8

/-- A device that passes every access on to the memory behind it, and logs the writes. -/
def Handler.logger (shows : Region → Bool) : Handler (List BusWrite) where
  read c address log :=
    let region := Region.ofAddress address
    (if shows region then c.readRegion region address else openBus, log)
  write c address v log :=
    let region := Region.ofAddress address
    (if shows region then c.writeRegion region address v else c,
      log ++ [{ met := c, address, value := v }])

/-- How a processor brings a console from one state to another, and what it writes meanwhile. -/
inductive Console.Course (shows : Region → Bool) (c : Console) : List BusWrite → Console → Prop
  | start : Course shows c [] c
  | cpu (before : Course shows c log d) (cpu : Cpu) :
    Course shows c log { d with hw := { d.hw with cpu } }
  | switchSpeed (before : Course shows c log d) :
    Course shows c log { d with hw := d.hw.switchSpeed }
  | raise (before : Course shows c log d) (fault : Fault) : Course shows c log (d.raise fault)
  | stored (before : Course shows c log d) (shown : shows (.ofAddress address) = true) :
    Course shows c (log ++ [{ met := d, address, value }])
      (d.writeRegion (.ofAddress address) address value)
  | lost (before : Course shows c log d) (hidden : shows (.ofAddress address) = false) :
    Course shows c (log ++ [{ met := d, address, value }]) d

theorem Console.Course.trans {c d e : Console} (first : Course shows c log d)
    (second : Course shows d more e) : Course shows c (log ++ more) e := by
  induction second with
  | start => rwa [List.append_nil]
  | cpu _ cpu ih => exact ih.cpu cpu
  | switchSpeed _ ih => exact ih.switchSpeed
  | raise _ fault ih => exact ih.raise fault
  | stored _ shown ih =>
    rw [← List.append_assoc]
    exact ih.stored shown
  | lost _ hidden ih =>
    rw [← List.append_assoc]
    exact ih.lost hidden

/-- A property of what has been written so far and of the console that it has led to. It lasts
through writes, through those that are lost because video memory is hidden, and through all that a
processor and the chips beside it do without the bus. -/
structure Console.LogInvariant (P : List BusWrite → Console → Prop) : Prop where
  inward : P log c → c.Inward d → P log d
  write : P log c → ∀ address v,
    P (log ++ [{ met := c, address, value := v }]) (c.writeRegion (.ofAddress address) address v)
  lost : P log c → Region.ofAddress address = .vram ∨ Region.ofAddress address = .oam →
    ∀ v, P (log ++ [{ met := c, address, value := v }]) c

theorem Console.LogInvariant.course (invariant : LogInvariant P) (holds : P log c)
    (course : Course shows c more d)
    (hides : ∀ region, shows region = false → region = .vram ∨ region = .oam) :
    P (log ++ more) d := by
  induction course with
  | start =>
    rw [List.append_nil]
    exact holds
  | cpu _ cpu ih => exact invariant.inward ih { Inward.refl _ with }
  | switchSpeed _ ih => exact invariant.inward ih (switchSpeed_inward _)
  | raise _ fault ih => exact invariant.inward ih (raise_inward _ fault)
  | stored _ _ ih =>
    rw [← List.append_assoc]
    exact invariant.write ih _ _
  | lost _ hidden ih =>
    rw [← List.append_assoc]
    exact invariant.lost ih (hides _ hidden) _

namespace Machine

/-- The machine with a log of its writes. -/
def logged (m : Machine σ) (log : List BusWrite) : Machine (List BusWrite) :=
  { console := m.console
    vramVisible := m.vramVisible
    oamVisible := m.oamVisible
    handlers := (Handler.logger m.shows).everywhere
    devices := log }

theorem route_logged (m : Machine σ) (log : List BusWrite) (address : UInt16) :
    (m.logged log).route address = .handler (.logger m.shows) :=
  route_of_lookup (lookup_everywhere _ _)

theorem read_logged (m : Machine σ) (bare : m.handlers = []) (log : List BusWrite)
    (address : UInt16) :
    (m.logged log).read address = ((m.read address).1, (m.read address).2.logged log) := by
  rw [m.read_bare bare, read, route_logged, read, m.route_bare bare]
  by_cases shown : m.shows (.ofAddress address)
  · simp [Handler.logger, shown, logged]
  · simp [Handler.logger, shown, logged]

/-- Every write is logged, and goes where it would go without the log. -/
theorem write_logged (m : Machine σ) (bare : m.handlers = []) (log : List BusWrite)
    (address : UInt16) (v : UInt8) :
    (m.logged log).write address v =
      (m.write address v).logged (log ++ [{ met := m.console, address, value := v }]) := by
  rw [write, route_logged, write, m.route_bare bare]
  by_cases shown : m.shows (.ofAddress address)
  · simp only [Handler.logger, shown, if_true]
    rfl
  · simp only [Handler.logger, shown]
    rfl

theorem write_course (m : Machine σ) (bare : m.handlers = []) (address : UInt16) (v : UInt8) :
    m.console.Course m.shows [{ met := m.console, address, value := v }]
      (m.write address v).console := by
  rw [write, m.route_bare bare]
  by_cases shown : m.shows (.ofAddress address)
  · rw [if_pos shown]
    exact Console.Course.start.stored shown
  · rw [if_neg shown]
    exact Console.Course.start.lost (Bool.eq_false_iff.mpr shown)

/-! Instructions. -/

theorem Evolves.shows {ticks : Nat} {m n : Machine σ} (e : m.Evolves ticks n) :
    n.shows = m.shows := by
  funext region
  unfold Machine.shows
  rw [e.vramVisible, e.oamVisible]

/-- Work that is the same with a log, and what comes of it. -/
private def Loggable (α : Type) (u : Usage) (x : Exec σ α) (y : Exec (List BusWrite) α) : Prop :=
  ∀ (s : Step σ) (log : List BusWrite), s.machine.handlers = [] →
    ∃ more, more.length ≤ u.writes ∧
      y.run ⟨s.machine.logged log, s.clocks⟩ =
        ((x.run s).1, ⟨(x.run s).2.machine.logged (log ++ more), (x.run s).2.clocks⟩) ∧
      s.machine.console.Course s.machine.shows more (x.run s).2.machine.console ∧
      s.machine.Evolves 0 (x.run s).2.machine

private theorem loggable_congruence : Exec.Congruence (Loggable (σ := σ)) where
  pure a := fun s log _ =>
    ⟨[], Nat.zero_le _, by rw [List.append_nil]; rfl, .start, .refl _⟩
  bind {_ _ u w x y f g} first second := fun s log bare => by
    obtain ⟨more, few, same, course, evolves⟩ := first s log bare
    obtain ⟨rest, fewRest, sameAfter, courseAfter, evolvesAfter⟩ :=
      second (x.run s).1 (x.run s).2 (log ++ more) (evolves.bare bare)
    rw [evolves.shows] at courseAfter
    refine ⟨more ++ rest, ?_, ?_, course.trans courseAfter, evolves.trans evolvesAfter⟩
    · rw [List.length_append]
      exact Nat.add_le_add few fewRest
    · rw [StateT.run_bind, same, ← List.append_assoc]
      exact sameAfter
  weaken related within := fun s log bare => by
    obtain ⟨more, few, rest⟩ := related s log bare
    exact ⟨more, Nat.le_trans few within.1, rest⟩
  idle := fun s log _ =>
    ⟨[], Nat.zero_le _, by rw [List.append_nil]; rfl, .start, .refl _⟩
  readByte address := fun ⟨m, clocks⟩ log bare => by
    have still : (m.read address).2 = m := m.read_bare bare address
    refine ⟨[], Nat.zero_le _, ?_, ?_, ?_⟩
    · rw [List.append_nil]
      exact congrArg (fun r => (r.1, (⟨r.2, clocks + 4⟩ : Step _))) (m.read_logged bare log address)
    · exact congrArg console still ▸ .start
    · exact (congrArg (m.Evolves 0) still).mpr (.refl m)
  writeByte address v := fun ⟨m, clocks⟩ log bare =>
    ⟨[{ met := m.console, address, value := v }], Nat.le_refl _,
      congrArg (fun n => ((), (⟨n, clocks + 4⟩ : Step _))) (m.write_logged bare log address v),
      m.write_course bare address v, m.write_evolves bare address v⟩
  hardware := fun s log _ =>
    ⟨[], Nat.zero_le _, by rw [List.append_nil]; rfl, .start, .refl _⟩
  processor f _ := fun s log _ =>
    ⟨[], Nat.zero_le _, by rw [List.append_nil]; rfl, .cpu .start _,
      s.machine.mapHardware_evolves (fun hw => { hw with cpu := f hw })
        { Console.Evolves.refl _ with }⟩
  switchSpeed := fun s log _ =>
    ⟨[], Nat.zero_le _, by rw [List.append_nil]; rfl, .switchSpeed .start,
      s.machine.mapHardware_evolves _ s.machine.console.switchSpeed_evolves⟩
  raise fault := fun s log _ =>
    ⟨[], Nat.zero_le _, by rw [List.append_nil]; rfl, .raise .start fault,
      s.machine.mapConsole_evolves (f := (·.raise fault)) (s.machine.console.raise_evolves fault)⟩

/-- An instruction makes two writes at most, and what comes of it is told by them. -/
theorem step_logged (m : Machine σ) (bare : m.handlers = []) (log : List BusWrite) :
    ∃ more, more.length ≤ 2 ∧
      (m.logged log).step = (m.step.1, m.step.2.logged (log ++ more)) ∧
      m.console.Course m.shows more m.step.2.console := by
  obtain ⟨more, few, same, course, -⟩ := loggable_congruence.step { machine := m } log bare
  exact ⟨more, few, congrArg (fun r => (r.2.clocks, r.2.machine)) same, course⟩

/-! Clocks. -/

/-- The machine when PC has been pushed. -/
def pushed (m : Machine σ) : Machine σ :=
  let cpu := m.console.hw.cpu
  (m.write (cpu.sp - 1) (Word.high cpu.pc)).write (cpu.sp - 2) (Word.low cpu.pc)

/-- What pushing PC writes. -/
def pushes (m : Machine σ) : List BusWrite :=
  let cpu := m.console.hw.cpu
  [{ met := m.console, address := cpu.sp - 1, value := Word.high cpu.pc },
    { met := (m.write (cpu.sp - 1) (Word.high cpu.pc)).console,
      address := cpu.sp - 2, value := Word.low cpu.pc }]

theorem pushes_course (m : Machine σ) (bare : m.handlers = []) :
    m.console.Course m.shows m.pushes m.pushed.console := by
  let cpu := m.console.hw.cpu
  have high := m.write_course bare (cpu.sp - 1) (Word.high cpu.pc)
  have evolves := m.write_evolves bare (cpu.sp - 1) (Word.high cpu.pc)
  have low := write_course _ (evolves.bare bare) (cpu.sp - 2) (Word.low cpu.pc)
  rw [evolves.shows] at low
  exact high.trans low

theorem dispatch_logged (m : Machine σ) (bare : m.handlers = []) (log : List BusWrite)
    (line : Interrupt) :
    (m.logged log).dispatch line = (m.dispatch line).logged (log ++ m.pushes) := by
  let cpu := m.console.hw.cpu
  have high := m.write_evolves bare (cpu.sp - 1) (Word.high cpu.pc)
  have written : (m.logged log).pushed = m.pushed.logged (log ++ m.pushes) := by
    show ((m.logged log).write (cpu.sp - 1) (Word.high cpu.pc)).write (cpu.sp - 2)
      (Word.low cpu.pc) = _
    rw [m.write_logged bare, write_logged _ (high.bare bare), List.append_assoc]
    rfl
  exact congrArg
    (fun n : Machine (List BusWrite) => n.mapHardware fun hw =>
      { hw.acknowledge line with
        cpu := { hw.cpu with sp := cpu.sp - 2, ime := false, pc := line.handler }
        cyclesPending := dispatchClocks }) written

/-- What the processor does in a clock, once the chips have had theirs, and what it writes. -/
inductive Works (m : Machine σ) : Activity → List BusWrite → Machine σ → Prop
  | waits (waiting : m.console.hw.cyclesPending ≠ 0) : Works m .waits [] m
  | dispatches (between : m.console.hw.cyclesPending = 0)
      (next : m.console.hw.nextInterrupt? = some line) (enabled : m.console.hw.cpu.ime = true) :
      Works m (.dispatches line) m.wake.pushes (m.wake.dispatch line)
  | begins (start : n = m ∨ n = m.wake) (served : m.serveInterrupts = n)
      (between : n.console.hw.cyclesPending = 0) (few : log.length ≤ 2)
      (course : n.console.Course m.shows log n.step.2.console) :
      Works m n.upcoming log n.beginInstruction

/-! What serving interrupts does. -/

theorem serveInterrupts_waiting {m : Machine σ} (waiting : m.console.hw.cyclesPending ≠ 0) :
    m.serveInterrupts = m := if_neg waiting

theorem serveInterrupts_none {m : Machine σ} (between : m.console.hw.cyclesPending = 0)
    (unserved : m.console.hw.nextInterrupt? = none) : m.serveInterrupts = m := by
  rw [serveInterrupts, if_pos between, unserved]

theorem serveInterrupts_enabled {m : Machine σ} (between : m.console.hw.cyclesPending = 0)
    (next : m.console.hw.nextInterrupt? = some line) (enabled : m.console.hw.cpu.ime = true) :
    m.serveInterrupts = m.wake.dispatch line := by
  rw [serveInterrupts, if_pos between, next]
  exact if_pos enabled

theorem serveInterrupts_disabled {m : Machine σ} (between : m.console.hw.cyclesPending = 0)
    (next : m.console.hw.nextInterrupt? = some line) (disabled : m.console.hw.cpu.ime = false) :
    m.serveInterrupts = m.wake := by
  rw [serveInterrupts, if_pos between, next]
  exact if_neg (Bool.not_eq_true _ ▸ disabled)

theorem beginInstruction_waiting {m : Machine σ} (waiting : m.console.hw.cyclesPending ≠ 0) :
    m.beginInstruction = m := if_neg waiting

/-- The writes of the next clock. -/
def clockWrites (m : Machine σ) : List BusWrite := (m.logged []).clock.devices

theorem beginInstruction_logged (m : Machine σ) (bare : m.handlers = [])
    (between : m.console.hw.cyclesPending = 0) :
    ∃ log, log.length ≤ 2 ∧ (m.logged []).beginInstruction = m.beginInstruction.logged log ∧
      m.console.Course m.shows log m.step.2.console := by
  obtain ⟨log, few, same, course⟩ := m.step_logged bare []
  refine ⟨log, few, ?_, course⟩
  rw [m.beginInstruction_eq between, (m.logged []).beginInstruction_eq between, same]
  rfl

/-- A clock is the same with a log, and its writes tell what comes of it. -/
theorem clock_logged (m : Machine σ) (bare : m.handlers = []) :
    ∃ n, m.clockChips.Works m.activity m.clockWrites n ∧ m.clock = n.countDown ∧
      (m.logged []).clock = m.clock.logged m.clockWrites := by
  have bareChips := m.clockChips_evolves.bare bare
  -- The log is known as soon as the logged clock is.
  suffices works : ∃ n log, m.clockChips.Works m.activity log n ∧ m.clock = n.countDown ∧
      (m.clockChips.logged []).serveInterrupts.beginInstruction = n.logged log by
    obtain ⟨n, log, works, clocked, logged⟩ := works
    have same : (m.logged []).clock = m.clock.logged log := by
      rw [clocked]
      exact congrArg countDown logged
    have writes : m.clockWrites = log := congrArg devices same
    rw [writes]
    exact ⟨n, works, clocked, same⟩
  obtain ⟨n, turn, clocked⟩ := m.clock_cases
  rw [clocked]
  generalize m.activity = activity at turn
  generalize m.clockChips = p at turn bareChips
  let bus := p.logged []
  cases turn with
  | waits waiting =>
    have served : bus.serveInterrupts = bus := serveInterrupts_waiting waiting
    refine ⟨_, _, .waits waiting, rfl, ?_⟩
    rw [served]
    exact beginInstruction_waiting waiting
  | @dispatches line between next enabled =>
    have served : bus.serveInterrupts = bus.wake.dispatch line :=
      serveInterrupts_enabled between next enabled
    refine ⟨_, _, .dispatches between next enabled, rfl, ?_⟩
    rw [served, show bus.wake = p.wake.logged [] from rfl, p.wake.dispatch_logged bareChips]
    rfl
  | begins between unserved =>
    have served : bus.serveInterrupts = bus := serveInterrupts_none between unserved
    obtain ⟨log, few, begun, course⟩ := p.beginInstruction_logged bareChips between
    have same : p.serveInterrupts = p := serveInterrupts_none between unserved
    refine ⟨_, log, .begins (.inl rfl) same between few course, rfl, ?_⟩
    rw [served]
    exact begun
  | wakes between next disabled =>
    have served : bus.serveInterrupts = bus.wake := serveInterrupts_disabled between next disabled
    obtain ⟨log, few, begun, course⟩ := p.wake.beginInstruction_logged bareChips between
    have woken : p.serveInterrupts = p.wake := serveInterrupts_disabled between next disabled
    refine ⟨_, log, .begins (.inr rfl) woken between few course, rfl, ?_⟩
    rw [served]
    exact begun

theorem mapHardware_inward (m : Machine σ) {f : Hardware → Hardware}
    (inward : ∀ c : Console, c.Inward { c with hw := f c.hw }) :
    m.console.Inward (m.mapHardware f).countDown.console :=
  (inward m.console).trans { Console.Inward.refl _ with }

theorem dispatch_inward (m : Machine σ) (line : Interrupt) :
    m.pushed.console.Inward (m.dispatch line).countDown.console :=
  mapHardware_inward m.pushed fun c => { c.setRequested_inward _ with }

/-- What a clock does to memory and to the cartridge is what its writes do. -/
theorem clock_course (m : Machine σ) (bare : m.handlers = []) :
    ∃ c d, m.console.Inward c ∧ c.Course m.shows m.clockWrites d ∧ d.Inward m.clock.console := by
  obtain ⟨n, works, clocked, -⟩ := m.clock_logged bare
  have bareChips := m.clockChips_evolves.bare bare
  rw [clocked, ← m.clockChips_evolves.shows]
  generalize m.activity = activity at works
  generalize m.clockWrites = log at works
  cases works with
  | waits => exact ⟨_, _, m.clockChips_inward, .start, { Console.Inward.refl _ with }⟩
  | dispatches =>
    refine ⟨_, _, ?_, m.clockChips.wake.pushes_course bareChips, dispatch_inward _ _⟩
    exact { m.clockChips_inward with }
  | @begins k _ start _ between _ course =>
    refine ⟨_, _, ?_, course, ?_⟩
    · rcases start with rfl | rfl
      · exact m.clockChips_inward
      · exact { m.clockChips_inward with }
    · rw [k.beginInstruction_eq between]
      exact mapHardware_inward _ fun c => { Console.Inward.refl c with stall := fun _ => rfl }

/-- A clock in which an interrupt is served enters its handler and does nothing else. -/
theorem clock_dispatches (m : Machine σ) (bare : m.handlers = [])
    (dispatches : m.activity = .dispatches line) :
    m.clockChips.console.hw.nextInterrupt? = some line ∧
      m.clock = (m.clockChips.wake.dispatch line).countDown ∧
      m.clockWrites = m.clockChips.wake.pushes := by
  obtain ⟨n, works, clocked, -⟩ := m.clock_logged bare
  rw [clocked]
  generalize m.activity = activity at works dispatches
  generalize m.clockWrites = log at works
  cases works with
  | waits => cases dispatches
  | dispatches between next enabled =>
    cases dispatches
    exact ⟨next, rfl, rfl⟩
  | begins => exact absurd dispatches (upcoming_ne _ _)

/-- Only video memory can be hidden. -/
theorem hides (m : Machine σ) (region : Region) (hidden : m.shows region = false) :
    region = .vram ∨ region = .oam := by
  cases region with
  | vram => exact .inl rfl
  | oam => exact .inr rfl
  | _ => cases hidden

theorem clock_invariant {m : Machine σ} (invariant : Console.LogInvariant P)
    (bare : m.handlers = []) (holds : P log m.console) :
    P (log ++ m.clockWrites) m.clock.console := by
  obtain ⟨c, d, before, course, after⟩ := m.clock_course bare
  exact invariant.inward (invariant.course (invariant.inward holds before) course m.hides) after

/-! Ticks. -/

/-- The machine at the beginning of each clock of the next tick. -/
def tickClocks (m : Machine σ) : List (Machine σ) :=
  if m.console.hw.doubleSpeed then [m, m.clock] else [m]

theorem tickClocks_cases (m : Machine σ) :
    (m.tickClocks = [m] ∧ m.clocksOfTick = m.clock) ∨
      (m.tickClocks = [m, m.clock] ∧ m.clocksOfTick = m.clock.clock) := by
  unfold tickClocks clocksOfTick
  split
  · exact .inr ⟨rfl, rfl⟩
  · exact .inl ⟨rfl, rfl⟩

theorem clocksOfTick_invariant {m : Machine σ} (invariant : Console.LogInvariant P)
    (bare : m.handlers = []) (holds : P log m.console) :
    P (log ++ m.tickClocks.flatMap clockWrites) m.clocksOfTick.console := by
  have first := clock_invariant invariant bare holds
  rcases m.tickClocks_cases with ⟨clocks, ended⟩ | ⟨clocks, ended⟩
  · rw [clocks, ended, List.flatMap_singleton]
    exact first
  · rw [clocks, ended, List.flatMap_cons, List.flatMap_singleton, ← List.append_assoc]
    exact clock_invariant invariant ((m.clock_evolves bare).bare bare) first

/-- The machine at the beginning of each clock of a run, which ends with the first tick that reports
a fault. -/
def runClocks : Nat → Machine σ → List (Machine σ)
  | 0, _ => []
  | count + 1, m =>
    m.tickClocks ++ if m.tick.fault = none then runClocks count m.tick.machine else []

end Machine

end GameBoy
