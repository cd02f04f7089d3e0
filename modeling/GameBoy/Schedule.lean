import GameBoy.Processor

/-!
The scheduler: how a machine moves through time. A base clock tick is one processor clock, or two at
double speed.
-/

namespace GameBoy

/-- What one base clock tick leads to: the machine after it, the battery-backed RAM if the tick
wrote to it, and the fault that the tick reports. -/
structure Tick (σ : Type) where
  machine : Machine σ
  saved : Option Memory
  fault : Option Fault

/-- What a run has reported: how often battery-backed RAM was written, and its latest contents. -/
structure Journal where
  saves : Nat := 0
  latest : Option Memory := none
deriving DecidableEq, Inhabited

/-- Notes what one tick has saved. -/
def Journal.record (j : Journal) (saved : Option Memory) : Journal :=
  match saved with
  | none => j
  | some ram => { saves := j.saves + 1, latest := some ram }

/-- What a run of several ticks leads to. -/
structure Run (σ : Type) where
  machine : Machine σ
  journal : Journal
  fault : Option Fault

namespace Machine

/-- The clocks it takes to enter an interrupt handler. -/
def dispatchClocks : UInt32 := 20

/-- Enters the handler of a line: PC is pushed, and the request is taken back. -/
def dispatch (m : Machine σ) (line : Interrupt) : Machine σ :=
  let cpu := m.console.hw.cpu
  let m := m.write (cpu.sp - 1) (Word.high cpu.pc)
  let m := m.write (cpu.sp - 2) (Word.low cpu.pc)
  m.mapHardware fun hw =>
    { hw.acknowledge line with
      cpu := { hw.cpu with sp := cpu.sp - 2, ime := false, pc := line.handler }
      cyclesPending := dispatchClocks }

/-- Ends a halt. -/
def wake (m : Machine σ) : Machine σ :=
  m.mapHardware fun hw => { hw with cpu := { hw.cpu with halted := false } }

/-- Looks for interrupts between instructions. A pending one wakes the processor even while
interrupts are disabled. -/
def serveInterrupts (m : Machine σ) : Machine σ :=
  if m.console.hw.cyclesPending = 0 then
    match m.console.hw.nextInterrupt? with
    | none => m
    | some line =>
      if m.console.hw.cpu.ime then m.wake.dispatch line else m.wake
  else m

/-- Runs the next instruction if the last one has used up its clocks. It is charged for the time
that video RAM transfers have taken. -/
def beginInstruction (m : Machine σ) : Machine σ :=
  if m.console.hw.cyclesPending = 0 then
    let (clocks, m) := m.step
    m.mapHardware fun hw => { hw with cyclesPending := clocks + hw.stall, stall := 0 }
  else m

/-- One processor clock. An interrupt that the timer requests now is seen before the next
instruction. -/
def clock (m : Machine σ) : Machine σ :=
  let m := m.mapHardware (·.clockTimer)
  let m := m.mapConsole (·.clockOamDma)
  let m := m.serveInterrupts.beginInstruction
  m.mapHardware fun hw => { hw with cyclesPending := hw.cyclesPending - 1 }

/-- The processor clocks of one base clock tick. -/
def clocksOfTick (m : Machine σ) : Machine σ :=
  if m.console.hw.doubleSpeed then m.clock.clock else m.clock

/-- One base clock tick. -/
def tick (m : Machine σ) : Tick σ :=
  let m := m.clocksOfTick.mapConsole (·.tickCartridge)
  let hw := m.console.hw
  { machine :=
      { m with
        console :=
          { m.console with
            hw := { hw with cycleCount := hw.cycleCount + 1, batteryDirty := false }
            fault := none } }
    saved := if hw.batteryDirty then some hw.cartRam else none
    fault := m.console.fault }

/-- Runs for a number of base clock ticks, or until a fault. -/
def run : Nat → Machine σ → Journal → Run σ
  | 0, machine, journal => { machine, journal, fault := none }
  | count + 1, m, journal =>
    let t := m.tick
    let journal := journal.record t.saved
    match t.fault with
    | some fault => { machine := t.machine, journal, fault := some fault }
    | none => run count t.machine journal

/-- Runs for a number of base clock ticks, or until a fault, and hands battery-backed RAM on after
every tick that wrote to it. -/
def runReporting [Monad μ] (report : Memory → μ Unit) :
    Nat → Machine σ → μ (Machine σ × Option Fault)
  | 0, machine => return (machine, none)
  | count + 1, m => do
    let t := m.tick
    if let some ram := t.saved then
      report ram
    match t.fault with
    | some fault => return (t.machine, some fault)
    | none => runReporting report count t.machine

/-- Runs until the processor is about to begin an instruction, or until a fault. Some machines never
come to rest at the end of a tick, so the number of ticks is limited. -/
def runInstruction? : Nat → Machine σ → Journal → Option (Run σ)
  | 0, _, _ => none
  | limit + 1, m, journal =>
    let t := m.tick
    let journal := journal.record t.saved
    match t.fault with
    | some fault => some { machine := t.machine, journal, fault := some fault }
    | none =>
      if t.machine.console.hw.cyclesPending = 0 then
        some { machine := t.machine, journal, fault := none }
      else runInstruction? limit t.machine journal

/-- Takes the next byte through the bus. -/
def nextByte : StateM (UInt16 × Machine σ) UInt8 := modifyGet fun (address, m) =>
  let (v, m) := m.read address
  (v, address + 1, m)

/-- Decodes instructions from an address on, without running them. The machine is returned because
devices notice that they are read. -/
def disassemble : Nat → UInt16 → Machine σ → List (UInt16 × Instruction) × Machine σ
  | 0, _, m => ([], m)
  | count + 1, address, m =>
    let (i, _, m) := (Instruction.decode (nextByte (σ := σ))).run (address, m)
    let (rest, m) := disassemble count (address + UInt16.ofNat i.size) m
    ((address, i) :: rest, m)

end Machine

end GameBoy
