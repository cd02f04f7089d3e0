import GameBoy.Proofs.Replay

/-!
What the processor does, clock by clock: it waits, enters the handler of an interrupt, idles, or runs
an instruction. Main statements: `clock_cases`, which says all that a clock can do, and
`enables_clock` and `parity_clock`, which say what a clock does to the enables and to the clocks that
are left.
-/

namespace GameBoy

/-- What the processor does in a clock. -/
inductive Activity
  | waits
  | dispatches (line : Interrupt)
  | idles
  | executes (i : Instruction)
deriving DecidableEq

namespace Machine

/-- One clock less to wait for. -/
def countDown (m : Machine σ) : Machine σ :=
  m.mapHardware fun hw => { hw with cyclesPending := hw.cyclesPending - 1 }

/-- What a processor does that begins something new and serves no interrupt. -/
def upcoming (m : Machine σ) : Activity :=
  if m.console.hw.cpu.halted then .idles
  else .executes ((Instruction.decode (Exec.fetch (σ := σ))).run { machine := m }).1

/-- What the processor does in the next clock. -/
def activity (m : Machine σ) : Activity :=
  let m := m.clockChips
  if m.console.hw.cyclesPending = 0 then
    match m.console.hw.nextInterrupt? with
    | none => m.upcoming
    | some line => if m.console.hw.cpu.ime then .dispatches line else m.wake.upcoming
  else .waits

theorem clock_eq (m : Machine σ) :
    m.clock = m.clockChips.serveInterrupts.beginInstruction.countDown := rfl

/-- What a clock can do, once the chips have had theirs. -/
inductive Turn (m : Machine σ) : Activity → Machine σ → Prop
  | waits (waiting : m.console.hw.cyclesPending ≠ 0) : Turn m .waits m
  | dispatches (between : m.console.hw.cyclesPending = 0)
      (next : m.console.hw.nextInterrupt? = some line) (enabled : m.console.hw.cpu.ime = true) :
      Turn m (.dispatches line) (m.wake.dispatch line)
  | begins (between : m.console.hw.cyclesPending = 0)
      (unserved : m.console.hw.nextInterrupt? = none) : Turn m m.upcoming m.beginInstruction
  | wakes (between : m.console.hw.cyclesPending = 0)
      (next : m.console.hw.nextInterrupt? = some line) (disabled : m.console.hw.cpu.ime = false) :
      Turn m m.wake.upcoming m.wake.beginInstruction

/-- Each clock is one of these turns. -/
theorem clock_cases (m : Machine σ) :
    ∃ n, m.clockChips.Turn m.activity n ∧ m.clock = n.countDown := by
  rw [clock_eq]
  unfold activity serveInterrupts
  generalize m.clockChips = p
  dsimp only
  by_cases between : p.console.hw.cyclesPending = 0
  · rw [if_pos between, if_pos between]
    cases next : p.console.hw.nextInterrupt? with
    | none => exact ⟨_, .begins between next, rfl⟩
    | some line =>
      dsimp only
      cases enabled : p.console.hw.cpu.ime with
      | false => exact ⟨_, .wakes between next enabled, rfl⟩
      | true =>
        refine ⟨_, .dispatches between next enabled, ?_⟩
        -- The clocks that it takes to enter the handler keep the next instruction waiting.
        rfl
  · rw [if_neg between, if_neg between]
    exact ⟨_, .waits between, by rw [beginInstruction, if_neg between]⟩

/-! Instructions. -/

theorem write_aside (m : Machine σ) (bare : m.handlers = []) (address : UInt16) (v : UInt8) :
    m.console.Aside (m.write address v).console := by
  rw [write, m.route_bare bare]
  by_cases shown : m.shows (.ofAddress address)
  · rw [if_pos shown]
    exact m.console.writeRegion_aside _ address v
  · rw [if_neg shown]
    exact (Console.Apart.refl _).toAside

/-- Work that leaves the enables alone, on a machine without devices. -/
private def KeepsEnables (α : Type) (_ : Usage) (x _ : Exec σ α) : Prop :=
  ∀ s : Step σ, s.machine.handlers = [] →
    (x.run s).2.machine.handlers = [] ∧
      (x.run s).2.machine.console.hw.cpu.enables = s.machine.console.hw.cpu.enables

private theorem keepsEnables_mild : Exec.Mild (KeepsEnables (σ := σ)) where
  pure a := fun s bare => ⟨bare, rfl⟩
  bind {_ _ _ _ x _ f _} first second := fun s bare => by
    obtain ⟨bareAfter, same⟩ := first s bare
    obtain ⟨bareEnd, sameAfter⟩ := second (x.run s).1 (x.run s).2 bareAfter
    exact ⟨bareEnd, sameAfter.trans same⟩
  weaken kept _ := kept
  idle := fun s bare => ⟨bare, rfl⟩
  readByte address := fun s bare => by
    have still := s.machine.read_bare bare address
    show (s.machine.read address).2.handlers = [] ∧
      (s.machine.read address).2.console.hw.cpu.enables = _
    rw [still]
    exact ⟨bare, rfl⟩
  writeByte address v := fun s bare =>
    ⟨(s.machine.write_evolves bare address v).bare bare,
      congrArg Cpu.enables (s.machine.write_aside bare address v).cpu⟩
  hardware := fun s bare => ⟨bare, rfl⟩
  processor f same := fun s bare => ⟨bare, same _⟩
  switchSpeed := fun s bare => by
    refine ⟨bare, ?_⟩
    show s.machine.console.hw.switchSpeed.cpu.enables = _
    unfold Hardware.switchSpeed
    split <;> rfl
  raise fault := fun s bare => ⟨bare, rfl⟩

end Machine

/-- What an instruction by itself does to the enables. -/
def Instruction.govern : Instruction → Enables → Enables
  | .di, _ => { master := false, pending := false }
  | .ei, e => { e with pending := true }
  | .reti, e => { e with master := true }
  | _, e => e

/-- What an instruction does to the enables, with the one that waits for its end. -/
def Instruction.enables (i : Instruction) (e : Enables) : Enables :=
  if e.pending && (i.govern e).pending then { master := true, pending := false } else i.govern e

/-- What a clock does to the enables. -/
def Activity.enables : Activity → Enables → Enables
  | .waits, e => e
  | .dispatches _, e => { e with master := false }
  | .idles, e => e
  | .executes i, e => i.enables e

namespace Machine

private theorem execute_enables (start : UInt16) (i : Instruction) (s : Step σ)
    (bare : s.machine.handlers = []) :
    ((Exec.execute start i).run s).2.machine.console.hw.cpu.enables =
      i.govern s.machine.console.hw.cpu.enables := by
  cases governs : i.governsInterrupts with
  | false =>
    have same : i.govern s.machine.console.hw.cpu.enables = s.machine.console.hw.cpu.enables := by
      cases i <;> first | rfl | cases governs
    rw [same]
    exact (keepsEnables_mild.execute start governs s bare).2
  | true =>
    cases i with
    | di | ei => rfl
    | reti =>
      let enabled : Step σ :=
        { s with
          machine := s.machine.mapHardware fun hw => { hw with cpu := { hw.cpu with ime := true } } }
      exact (keepsEnables_mild.returnPc enabled bare).2
    | _ => cases governs

private theorem settleEnable_enables (wasPending : Bool) (s : Step σ) :
    ((Exec.settleEnable wasPending).run s).2.machine.console.hw.cpu.enables =
      if wasPending && s.machine.console.hw.cpu.enables.pending then
        { master := true, pending := false }
      else s.machine.console.hw.cpu.enables := by
  generalize cpu : s.machine.console.hw.cpu = before
  show Cpu.enables (if wasPending && s.machine.console.hw.cpu.imePending then _ else _) = _
  rw [cpu]
  show _ = if wasPending && before.imePending then _ else _
  split <;> rfl

/-- A running processor fetches and decodes, runs what it has decoded, and settles the enable that
was pending. -/
theorem run_step (m : Machine σ) (running : m.console.hw.cpu.halted = false) :
    let decoded := (Instruction.decode (Exec.fetch (σ := σ))).run { machine := m }
    Exec.step.run { machine := m } =
      (Exec.settleEnable m.console.hw.cpu.imePending).run
        ((Exec.execute m.console.hw.cpu.pc decoded.1).run decoded.2).2 := by
  intro decoded
  show StateT.run (if m.console.hw.cpu.halted then Exec.idle else _) _ = _
  rw [running]
  rfl

theorem run_step_halted (m : Machine σ) (halted : m.console.hw.cpu.halted = true) :
    Exec.step.run { machine := m } = ((), ({ machine := m, clocks := 4 } : Step σ)) := by
  show StateT.run (if m.console.hw.cpu.halted then Exec.idle else _) _ = _
  rw [halted]
  rfl

theorem enables_step (m : Machine σ) (bare : m.handlers = []) :
    m.step.2.console.hw.cpu.enables = m.upcoming.enables m.console.hw.cpu.enables := by
  unfold upcoming
  cases halted : m.console.hw.cpu.halted with
  | true =>
    show (Exec.step.run ({ machine := m } : Step σ)).2.machine.console.hw.cpu.enables = _
    rw [m.run_step_halted halted]
    rfl
  | false =>
    obtain ⟨bareAfter, fetched⟩ := keepsEnables_mild.decode { machine := m } bare
    have executed := execute_enables m.console.hw.cpu.pc
      ((Instruction.decode (Exec.fetch (σ := σ))).run { machine := m }).1 _ bareAfter
    show (Exec.step.run ({ machine := m } : Step σ)).2.machine.console.hw.cpu.enables = _
    rw [m.run_step halted, settleEnable_enables, executed, fetched]
    rfl

/-- Work that takes a multiple of four clocks. -/
private def WholeAccesses (α : Type) (_ : Usage) (x _ : Exec σ α) : Prop :=
  ∀ s : Step σ, s.clocks.toNat % 4 = 0 → (x.run s).2.clocks.toNat % 4 = 0

private theorem whole_succ (clocks : UInt32) (whole : clocks.toNat % 4 = 0) :
    (clocks + 4).toNat % 4 = 0 := by
  simp only [UInt32.toNat_add, UInt32.reduceToNat]
  omega

private theorem wholeAccesses_congruence : Exec.Congruence (WholeAccesses (σ := σ)) where
  pure _ := fun _ whole => whole
  bind first second := fun s whole => second _ _ (first s whole)
  weaken whole _ := whole
  idle := fun s whole => whole_succ s.clocks whole
  readByte _ := fun s whole => whole_succ s.clocks whole
  writeByte _ _ := fun s whole => whole_succ s.clocks whole
  hardware := fun _ whole => whole
  processor _ _ := fun _ whole => whole
  switchSpeed := fun _ whole => whole
  raise _ := fun _ whole => whole

theorem clocks_step_whole (m : Machine σ) : m.step.1.toNat % 4 = 0 :=
  wholeAccesses_congruence.step { machine := m } rfl

/-! Clocks. -/

/-- What entering a handler pushes changes nothing else about the processor. -/
theorem cpu_dispatch (m : Machine σ) (bare : m.handlers = []) (line : Interrupt) :
    (m.dispatch line).console.hw.cpu =
        { m.console.hw.cpu with
          sp := m.console.hw.cpu.sp - 2, ime := false, pc := line.handler } ∧
      (m.dispatch line).console.hw.doubleSpeed = m.console.hw.doubleSpeed := by
  have high := m.write_aside bare (m.console.hw.cpu.sp - 1) (Word.high m.console.hw.cpu.pc)
  have pushed := m.write_evolves bare (m.console.hw.cpu.sp - 1) (Word.high m.console.hw.cpu.pc)
  have low := write_aside _ (pushed.bare bare) (m.console.hw.cpu.sp - 2)
    (Word.low m.console.hw.cpu.pc)
  constructor
  · exact congrArg
      (fun cpu : Cpu =>
        { cpu with sp := m.console.hw.cpu.sp - 2, ime := false, pc := line.handler })
      (low.cpu.trans high.cpu)
  · exact low.doubleSpeed.trans high.doubleSpeed

/-- Whatever begins now, the clocks of it are as many as its accesses take and transfers have
taken. -/
theorem beginInstruction_eq (m : Machine σ) (between : m.console.hw.cyclesPending = 0) :
    m.beginInstruction =
      m.step.2.mapHardware fun hw => { hw with cyclesPending := m.step.1 + hw.stall, stall := 0 } :=
  if_pos between

theorem enables_beginInstruction (m : Machine σ) (bare : m.handlers = [])
    (between : m.console.hw.cyclesPending = 0) :
    m.beginInstruction.console.hw.cpu.enables = m.upcoming.enables m.console.hw.cpu.enables := by
  rw [m.beginInstruction_eq between]
  exact m.enables_step bare

/-- What a clock does to the enables is a matter of what the processor does in it. -/
theorem enables_clock (m : Machine σ) (bare : m.handlers = []) :
    m.clock.console.hw.cpu.enables = m.activity.enables m.console.hw.cpu.enables := by
  obtain ⟨n, turn, clocked⟩ := m.clock_cases
  have bareChips := m.clockChips_evolves.bare bare
  rw [clocked, ← m.clockChips_beside.cpu]
  show n.console.hw.cpu.enables = _
  generalize m.activity = activity at turn ⊢
  cases turn with
  | waits => rfl
  | dispatches =>
    rw [(m.clockChips.wake.cpu_dispatch bareChips _).1]
    rfl
  | begins between => exact enables_beginInstruction _ bareChips between
  | wakes between => exact enables_beginInstruction _ bareChips between

theorem upcoming_ne (m : Machine σ) (line : Interrupt) :
    m.upcoming ≠ .dispatches line := by
  unfold upcoming
  split <;> nofun

/-- Interrupts are served only while they are enabled. -/
theorem enabled_of_dispatches (m : Machine σ) (dispatches : m.activity = .dispatches line) :
    m.console.hw.cpu.ime = true := by
  obtain ⟨n, turn, -⟩ := m.clock_cases
  rw [← m.clockChips_beside.cpu]
  generalize m.activity = activity at turn dispatches
  cases turn with
  | waits => cases dispatches
  | dispatches _ _ enabled => exact enabled
  | begins | wakes => exact absurd dispatches (upcoming_ne _ _)

/-- While clocks are left, the processor waits. -/
theorem clock_waiting (m : Machine σ) (waiting : m.console.hw.cyclesPending ≠ 0) :
    m.activity = .waits ∧ m.clock = m.clockChips.countDown := by
  have pending := m.clockChips_beside.cyclesPending
  obtain ⟨n, turn, clocked⟩ := m.clock_cases
  generalize m.activity = activity at turn
  cases turn with
  | waits => exact ⟨rfl, clocked⟩
  | dispatches between | begins between | wakes between =>
    exact absurd (pending.symm.trans between) waiting

private theorem parity_countDown (m : Machine σ) (even : m.console.hw.cyclesPending.toNat % 2 = 0) :
    m.countDown.console.hw.cyclesPending.toNat % 2 = 1 := by
  show (m.console.hw.cyclesPending - 1).toNat % 2 = 1
  simp only [UInt32.toNat_sub, UInt32.reduceToNat]
  omega

private theorem parity_beginInstruction (m : Machine σ) (bare : m.handlers = [])
    (between : m.console.hw.cyclesPending = 0) (whole : m.console.hw.stall.toNat % 8 = 0) :
    m.beginInstruction.console.hw.cyclesPending.toNat % 2 = 0 := by
  have accesses := m.clocks_step_whole
  have taken := (m.step_evolves bare).console.stall whole
  rw [m.beginInstruction_eq between]
  show (m.step.1 + m.step.2.console.hw.stall).toNat % 2 = 0
  simp only [UInt32.toNat_add]
  omega

/-- Every clock makes an even number of clocks to wait for odd, and an odd one even: what begins
takes a multiple of four clocks. -/
theorem parity_clock (m : Machine σ) (bare : m.handlers = [])
    (whole : m.console.hw.stall.toNat % 8 = 0) :
    (m.clock.console.hw.cyclesPending.toNat + m.console.hw.cyclesPending.toNat) % 2 = 1 := by
  have bareChips := m.clockChips_evolves.bare bare
  have wholeChips := m.clockChips_evolves.console.stall whole
  obtain ⟨n, turn, clocked⟩ := m.clock_cases
  rw [clocked, ← m.clockChips_beside.cyclesPending]
  have anew (between : m.clockChips.console.hw.cyclesPending = 0)
      (even : n.console.hw.cyclesPending.toNat % 2 = 0) :
      (n.countDown.console.hw.cyclesPending.toNat +
        m.clockChips.console.hw.cyclesPending.toNat) % 2 = 1 := by
    rw [between]
    exact parity_countDown n even
  generalize m.activity = activity at turn
  cases turn with
  | waits waiting =>
    have left : m.clockChips.console.hw.cyclesPending.toNat ≠ 0 :=
      fun zero => waiting (UInt32.toNat.inj zero)
    show ((m.clockChips.console.hw.cyclesPending - 1).toNat + _) % 2 = 1
    simp only [UInt32.toNat_sub, UInt32.reduceToNat]
    omega
  | dispatches between => exact anew between (show dispatchClocks.toNat % 2 = 0 by decide)
  | begins between => exact anew between (parity_beginInstruction _ bareChips between wholeChips)
  | wakes between =>
    exact anew between (parity_beginInstruction m.clockChips.wake bareChips between wholeChips)

end Machine

end GameBoy
