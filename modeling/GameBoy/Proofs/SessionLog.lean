import GameBoy.Proofs.Ledger

/-!
What a session writes over the bus. A property of these writes and of the console behind the bus
that every write keeps, and everything else that happens to a console, lasts through whole sessions:
`after_invariant`.
-/

namespace GameBoy

namespace Console

/-- The end of a tick, when what was dirty has been saved and a fault has been reported. -/
def endTick (c : Console) : Console :=
  { c with
    hw := { c.hw with cycleCount := c.hw.cycleCount + 1, batteryDirty := false }
    fault := none }

/-- What happens to a console besides what its processor does: time passes on the cartridge and on
the display, and a session looks after it. -/
inductive Own (c : Console) : Console → Prop
  | tickCartridge : Own c c.tickCartridge
  | endTick : Own c c.endTick
  | hblank : Own c c.hblank
  | setAccessible (vramAccessible oamAccessible : Bool) :
    Own c { c with hw := { c.hw with vramAccessible, oamAccessible } }
  | request (line : Interrupt) : Own c { c with hw := c.hw.request line }
  | acknowledge (line : Interrupt) : Own c { c with hw := c.hw.acknowledge line }
  | loadBattery (saved : Memory) : Own c (c.loadBattery saved)

/-- A property of the writes of a session that also lasts through what happens besides. -/
structure SessionInvariant (P : List BusWrite → Console → Prop) : Prop
    extends LogInvariant P where
  own : P log c → c.Own d → P log d

end Console

namespace Machine

/-- What an operation writes over the bus, by itself or through the processor. -/
def writesOf (m : Machine σ) : Operation → List BusWrite
  | .write address value => [{ met := m.console, address, value }]
  | op => (m.clocksOf op).flatMap clockWrites

/-- What a session writes over the bus. -/
def sessionWrites (m : Machine σ) : List Operation → List BusWrite
  | [] => []
  | op :: rest => m.writesOf op ++ (m.perform op).2.sessionWrites rest

variable {m : Machine σ} {P : List BusWrite → Console → Prop} {log : List BusWrite}

theorem tick_invariant (invariant : Console.SessionInvariant P) (bare : m.handlers = [])
    (holds : P log m.console) :
    P (log ++ m.tickClocks.flatMap clockWrites) m.tick.machine.console := by
  have clocked := clocksOfTick_invariant invariant.toLogInvariant bare holds
  exact invariant.own (invariant.own clocked .tickCartridge) .endTick

theorem run_invariant (invariant : Console.SessionInvariant P) (count : Nat)
    (bare : m.handlers = []) (journal : Journal) (holds : P log m.console) :
    P (log ++ (runClocks count m).flatMap clockWrites) (run count m journal).machine.console := by
  induction count generalizing m journal log with
  | zero =>
    rw [runClocks, List.flatMap_nil, List.append_nil]
    exact holds
  | succ count ih =>
    have ticked := tick_invariant invariant bare holds
    rw [runClocks, run, List.flatMap_append, ← List.append_assoc]
    cases fault : m.tick.fault with
    | some fault => simpa using ticked
    | none => exact ih ((m.tick_evolves bare).bare bare) _ ticked

theorem perform_invariant (invariant : Console.SessionInvariant P) (bare : m.handlers = [])
    (holds : P log m.console) (op : Operation) :
    P (log ++ m.writesOf op) (m.perform op).2.console := by
  have silent {c : Console} (holds : P log c) : P (log ++ []) c := by rwa [List.append_nil]
  cases op with
  | tick => exact tick_invariant invariant bare holds
  | run count => exact run_invariant invariant count bare {} holds
  | read address =>
    have still : (m.perform (.read address)).2 = m := m.read_bare bare address
    rw [still]
    exact silent holds
  | write address v => exact invariant.course holds (m.write_course bare address v) m.hides
  | hblank => exact silent (invariant.own holds .hblank)
  | setVramAccessible | setOamAccessible =>
    exact silent (invariant.own holds (.setAccessible _ _))
  | request line => exact silent (invariant.own holds (.request line))
  | acknowledge line => exact silent (invariant.own holds (.acknowledge line))
  | loadBattery saved => exact silent (invariant.own holds (.loadBattery saved))

/-- What every write and everything else keeps, a session keeps. -/
theorem after_invariant (invariant : Console.SessionInvariant P) (bare : m.handlers = [])
    (holds : P log m.console) (operations : List Operation) :
    P (log ++ m.sessionWrites operations) (m.after operations).console := by
  induction operations generalizing m log with
  | nil =>
    rw [sessionWrites, List.append_nil]
    exact holds
  | cons op rest ih =>
    have performed := perform_invariant invariant bare holds op
    rw [sessionWrites, ← List.append_assoc]
    exact ih ((m.perform_keeps bare op).handlers.trans bare) performed

end Machine

end GameBoy
