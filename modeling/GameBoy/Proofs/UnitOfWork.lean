import GameBoy.Proofs.BusLog
import GameBoy.Proofs.Footprint
import GameBoy.Proofs.Pace

/-!
What a request to run an instruction runs. A processor between instructions begins one thing, and
waits until its clocks are used up. Main statement: `one_unit_of_work`.
-/

namespace GameBoy

namespace Machine

/-- The clocks of what the processor does in the next clock, if it begins something: those for
entering a handler, or those that an instruction takes together with the time that transfers have
taken by its end. -/
def due (m : Machine σ) : UInt32 :=
  match m.activity with
  | .waits => 0
  | .dispatches _ => dispatchClocks
  | .idles | .executes _ =>
    let stepped := m.clockChips.serveInterrupts.step
    stepped.1 + stepped.2.console.hw.stall

/-- The processor clocks in a tick. -/
def pace (m : Machine σ) : Nat := if m.console.hw.doubleSpeed then 2 else 1

/-- The next instruction is no STOP that changes the speed. -/
def Steady (m : Machine σ) : Prop :=
  m.activity = .executes .stop →
    ¬(m.console.hw.isColor = true ∧ m.console.hw.io.read Io.speed % 2 = 1)

variable {m : Machine σ}

/-! The clock in which something begins. -/

theorem activity_ne_waits (between : m.console.hw.cyclesPending = 0) : m.activity ≠ .waits := by
  have pending := m.clockChips_beside.cyclesPending
  obtain ⟨n, turn, -⟩ := m.clock_cases
  intro waits
  generalize m.activity = activity at turn waits
  cases turn with
  | waits waiting => exact waiting (pending.trans between)
  | dispatches => cases waits
  | begins | wakes =>
    rcases upcoming_cases _ with ⟨-, idles⟩ | ⟨i, executes⟩
    · cases idles.symm.trans waits
    · cases executes.symm.trans waits

/-- What begins now has its clocks to wait for, less the one that it has begun with. -/
theorem cyclesPending_clock (between : m.console.hw.cyclesPending = 0) :
    m.clock.console.hw.cyclesPending = m.due - 1 := by
  have pending := m.clockChips_beside.cyclesPending.trans between
  have begun (n : Machine σ) (served : m.clockChips.serveInterrupts = n)
      (between : n.console.hw.cyclesPending = 0) (activity : m.activity = n.upcoming) :
      n.beginInstruction.console.hw.cyclesPending = m.due := by
    rw [due, activity, served, n.beginInstruction_eq between]
    rcases n.upcoming_cases with ⟨-, idles⟩ | ⟨i, executes⟩
    · rw [idles]
      rfl
    · rw [executes]
      rfl
  obtain ⟨n, turn, clocked⟩ := m.clock_cases
  rw [clocked]
  refine congrArg (· - 1) ?_
  generalize same : m.activity = activity at turn
  cases turn with
  | waits waiting => exact absurd pending waiting
  | dispatches =>
    rw [due, same]
    rfl
  | begins between unserved => exact begun _ (serveInterrupts_none between unserved) between same
  | wakes between next disabled =>
    exact begun _ (serveInterrupts_disabled between next disabled) between same

theorem doubleSpeed_begin {n : Machine σ} (bare : n.handlers = [])
    (between : n.console.hw.cyclesPending = 0)
    (steady : n.upcoming = .executes .stop →
      ¬(n.console.hw.isColor = true ∧ n.console.hw.io.read Io.speed % 2 = 1)) :
    n.beginInstruction.console.hw.doubleSpeed = n.console.hw.doubleSpeed := by
  rw [n.beginInstruction_eq between]
  exact doubleSpeed_step bare steady

theorem doubleSpeed_clock (bare : m.handlers = []) (steady : m.Steady) :
    m.clock.console.hw.doubleSpeed = m.console.hw.doubleSpeed := by
  have bareChips := m.clockChips_evolves.bare bare
  have model := m.clockChips_evolves.console.model
  have asked := m.clockChips_io (show Io.interruptFlag ≠ Io.speed by decide)
  have steadyChips (stop : m.activity = .executes .stop) :
      ¬(m.clockChips.console.hw.isColor = true ∧
        m.clockChips.console.hw.io.read Io.speed % 2 = 1) := by
    rw [Hardware.isColor, model, asked]
    exact steady stop
  obtain ⟨n, turn, clocked⟩ := m.clock_cases
  rw [clocked, ← m.clockChips_beside.doubleSpeed]
  show n.console.hw.doubleSpeed = _
  generalize m.activity = activity at turn steadyChips
  cases turn with
  | waits => rfl
  | dispatches => exact (m.clockChips.wake.cpu_dispatch bareChips _).2
  | begins between => exact doubleSpeed_begin bareChips between steadyChips
  | wakes between => exact doubleSpeed_begin bareChips between steadyChips

/-- Whatever begins, its clocks come in fours. -/
theorem due_whole (bare : m.handlers = []) (whole : m.console.hw.stall.toNat % 8 = 0) :
    m.due.toNat % 4 = 0 := by
  unfold due
  cases m.activity with
  | waits => rfl
  | dispatches =>
    show dispatchClocks.toNat % 4 = 0
    decide
  | idles | executes =>
    have served := m.clockChips_evolves.trans (m.clockChips.serveInterrupts_evolves
      (m.clockChips_evolves.bare bare))
    have accesses := m.clockChips.serveInterrupts.clocks_step_whole
    have stepped := (m.clockChips.serveInterrupts.step_evolves (served.bare bare)).console.stall
      (served.console.stall whole)
    simp only [UInt32.toNat_add]
    omega

theorem due_dispatches (dispatches : m.activity = .dispatches line) : m.due = dispatchClocks := by
  rw [due, dispatches]

theorem due_steps (between : m.console.hw.cyclesPending = 0)
    (unserved : ∀ line, m.activity ≠ .dispatches line) :
    m.due = m.clockChips.serveInterrupts.step.1 +
      m.clockChips.serveInterrupts.step.2.console.hw.stall := by
  have begins := activity_ne_waits between
  rw [due]
  cases activity : m.activity with
  | waits => exact absurd activity begins
  | dispatches line => exact absurd activity (unserved line)
  | idles | executes => rfl

/-! Clocks and ticks that go on. -/

/-- A clock in which the processor waits uses one up. -/
theorem clock_waits (waiting : m.console.hw.cyclesPending ≠ 0) :
    m.activity = .waits ∧ m.clock.console.fault = m.console.fault ∧
      m.clock.console.hw.cyclesPending.toNat + 1 = m.console.hw.cyclesPending.toNat := by
  obtain ⟨waits, clocked⟩ := m.clock_waiting waiting
  have some : m.console.hw.cyclesPending.toNat ≠ 0 := fun zero => waiting (UInt32.toNat.inj zero)
  have most := m.console.hw.cyclesPending.toNat_lt
  refine ⟨waits, ?_, ?_⟩
  · rw [clocked]
    exact m.clockChips_beside.fault
  · rw [(m.clock_counts waiting).1]
    simp only [UInt32.toNat_sub, UInt32.reduceToNat]
    omega

/-- What a tick does besides its first clock: at double speed it waits once more. -/
structure Spends (m : Machine σ) : Prop where
  fault : m.tick.fault = m.clock.console.fault
  pace : m.tick.machine.pace = m.pace
  left : m.tick.machine.console.hw.cyclesPending.toNat + m.pace =
    m.clock.console.hw.cyclesPending.toNat + 1
  activities : m.tickClocks.map activity = m.activity :: List.replicate (m.pace - 1) .waits

theorem pace_normal (normal : m.console.hw.doubleSpeed = false) : m.pace = 1 := by
  rw [pace, normal]
  rfl

theorem pace_double (double : m.console.hw.doubleSpeed = true) : m.pace = 2 := by
  rw [pace, double]
  rfl

theorem pace_pos (m : Machine σ) : 0 < m.pace := by
  unfold pace
  split <;> decide

theorem spends_normal (same : m.clock.console.hw.doubleSpeed = m.console.hw.doubleSpeed)
    (normal : m.console.hw.doubleSpeed = false) : m.Spends := by
  have once := m.clocksOfTick_normal normal
  obtain ⟨left, speed⟩ := m.tick_pace
  rw [once] at left speed
  refine ⟨?_, ?_, ?_, ?_⟩
  · rw [m.tick_fault, once]
  · rw [pace_normal (speed.trans (same.trans normal)), pace_normal normal]
  · rw [left, pace_normal normal]
  · rw [tickClocks, normal, pace_normal normal]
    rfl

theorem spends_double (same : m.clock.console.hw.doubleSpeed = m.console.hw.doubleSpeed)
    (double : m.console.hw.doubleSpeed = true) (waiting : m.clock.console.hw.cyclesPending ≠ 0) :
    m.Spends := by
  have twice := m.clocksOfTick_double double
  obtain ⟨left, speed⟩ := m.tick_pace
  obtain ⟨waits, fault, less⟩ := clock_waits waiting
  have still := (m.clock.clock_counts waiting).2
  rw [twice] at left speed
  refine ⟨?_, ?_, ?_, ?_⟩
  · rw [m.tick_fault, twice, fault]
  · rw [pace_double (speed.trans (still.trans (same.trans double))), pace_double double]
  · rw [left, pace_double double]
    omega
  · rw [tickClocks, double, pace_double double]
    simp [waits]

theorem spends (same : m.clock.console.hw.doubleSpeed = m.console.hw.doubleSpeed)
    (enough : m.pace ≤ m.clock.console.hw.cyclesPending.toNat + 1) : m.Spends := by
  cases double : m.console.hw.doubleSpeed with
  | false => exact spends_normal same double
  | true =>
    refine spends_double same double fun zero => ?_
    rw [pace_double double, zero] at enough
    exact absurd enough (by decide)

/-- A tick in which the processor only waits. -/
theorem spends_waiting (enough : m.pace ≤ m.console.hw.cyclesPending.toNat) :
    m.Spends ∧ m.activity = .waits ∧ m.clock.console.fault = m.console.fault ∧
      m.clock.console.hw.cyclesPending.toNat + 1 = m.console.hw.cyclesPending.toNat := by
  have waiting : m.console.hw.cyclesPending ≠ 0 := by
    intro zero
    rw [zero] at enough
    exact absurd (Nat.lt_of_lt_of_le m.pace_pos enough) (by decide)
  have clocked := clock_waits waiting
  refine ⟨spends (m.clock_counts waiting).2 ?_, clocked⟩
  rw [clocked.2.2]
  exact enough

/-! Runs. -/

/-- A tick that raises no fault and leaves the clocks of some whole ticks. -/
structure Owes (count : Nat) (m : Machine σ) : Prop where
  calm : m.tick.fault = none
  left : m.tick.machine.console.hw.cyclesPending.toNat = count * m.tick.machine.pace

namespace Owes

variable {count : Nat}

theorem busy (owes : m.Owes (count + 1)) : m.tick.machine.console.hw.cyclesPending ≠ 0 := by
  intro zero
  have left := owes.left
  have some := m.tick.machine.pace_pos
  rw [zero, UInt32.toNat_zero, Nat.succ_mul] at left
  omega

/-- In the next tick the processor waits, and one tick less is owed. -/
theorem next (owes : m.Owes (count + 1)) :
    m.tick.machine.Owes count ∧ m.tick.machine.tick.machine.pace = m.tick.machine.pace ∧
      m.tick.machine.tickClocks.map activity = List.replicate m.tick.machine.pace .waits := by
  have left := owes.left
  rw [Nat.succ_mul] at left
  have enough : m.tick.machine.pace ≤ m.tick.machine.console.hw.cyclesPending.toNat := by
    rw [left]
    exact Nat.le_add_left ..
  obtain ⟨spent, waits, fault, first⟩ := spends_waiting enough
  have spentLeft := spent.left
  refine ⟨⟨spent.fault.trans fault, ?_⟩, spent.pace, ?_⟩
  · rw [spent.pace]
    omega
  · rw [spent.activities, waits, ← List.replicate_succ,
      Nat.sub_add_cancel m.tick.machine.pace_pos]

/-- The processor waits for what is owed to be used up. -/
theorem activities (owes : m.Owes count) :
    (runClocks (count + 1) m).map activity =
      m.tickClocks.map activity ++ List.replicate (count * m.tick.machine.pace) .waits := by
  induction count generalizing m with
  | zero =>
    rw [runClocks, runClocks, if_pos owes.calm, Nat.zero_mul, List.append_nil]
    exact (List.append_nil _).symm
  | succ count ih =>
    obtain ⟨owesLess, pace, waits⟩ := owes.next
    rw [runClocks, if_pos owes.calm, List.map_append, ih owesLess, waits, pace,
      List.replicate_append_replicate, Nat.succ_mul, Nat.add_comm]

/-- When what is owed has been used up, the processor is about to begin something. -/
theorem rests (owes : m.Owes count) (journal : Journal) :
    (run (count + 1) m journal).fault = none ∧
      (run (count + 1) m journal).machine.console.hw.cyclesPending = 0 := by
  induction count generalizing m journal with
  | zero =>
    rw [run, owes.calm]
    exact ⟨rfl, UInt32.toNat.inj (owes.left.trans (Nat.zero_mul _))⟩
  | succ count ih =>
    rw [run, owes.calm]
    exact ih owes.next.1 _

/-- A request to run an instruction returns when what is owed has been used up. -/
theorem returns (owes : m.Owes count) (limit : Nat) (journal : Journal) :
    runInstruction? limit m journal =
      if count + 1 ≤ limit then some (run (count + 1) m journal) else none := by
  induction count generalizing m limit journal with
  | zero =>
    have rest : m.tick.machine.console.hw.cyclesPending = 0 :=
      UInt32.toNat.inj (owes.left.trans (Nat.zero_mul _))
    cases limit with
    | zero => rfl
    | succ limit =>
      rw [runInstruction?, run, owes.calm, if_pos (Nat.succ_le_succ (Nat.zero_le limit))]
      exact if_pos rest
  | succ count ih =>
    cases limit with
    | zero => rfl
    | succ limit =>
      rw [runInstruction?, run, owes.calm]
      dsimp only
      rw [if_neg owes.busy, ih owes.next.1]
      simp only [Nat.succ_le_succ_iff]

end Owes

/-- A request to run an instruction serves one interrupt or runs one instruction, never both and
never two, and a halted processor idles once. It returns when all its clocks are used up: twenty for
an interrupt, and otherwise what the instruction costs and what transfers have taken by its end. At
double speed these are two to a tick. If a fault is raised it returns after a single tick. Transfers
have always taken a multiple of eight clocks in a session. A STOP that changes the speed is left
out. -/
theorem one_unit_of_work (bare : m.handlers = []) (between : m.console.hw.cyclesPending = 0)
    (whole : m.console.hw.stall.toNat % 8 = 0) (steady : m.Steady) :
    let clocks := (m.due - 1).toNat + 1
    let ticks := if m.console.hw.doubleSpeed then clocks / 2 else clocks
    m.activity ≠ .waits ∧
    ((∃ line, m.activity = .dispatches line) → clocks = 20) ∧
    ((∀ line, m.activity ≠ .dispatches line) →
      let stepped := m.clockChips.serveInterrupts.step
      stepped.1.toNat + stepped.2.console.hw.stall.toNat ≤ 2 ^ 32 →
        clocks = stepped.1.toNat + stepped.2.console.hw.stall.toNat) ∧
    (m.clock.console.fault = none →
      (runClocks ticks m).map activity = m.activity :: List.replicate (clocks - 1) .waits ∧
      ∀ journal, (run ticks m journal).fault = none ∧
        (run ticks m journal).machine.console.hw.cyclesPending = 0 ∧
        ∀ limit, runInstruction? limit m journal =
          if ticks ≤ limit then some (run ticks m journal) else none) ∧
    ∀ fault, m.clock.console.fault = some fault → ∀ limit journal,
      runInstruction? (limit + 1) m journal =
        some
          { machine := m.tick.machine
            journal := journal.record m.tick.saved
            fault := some fault } := by
  intro clocks ticks
  have fours := due_whole bare whole
  have pending := cyclesPending_clock between
  have even : clocks % 2 = 0 := by
    show ((m.due - 1).toNat + 1) % 2 = 0
    simp only [UInt32.toNat_sub, UInt32.reduceToNat]
    omega
  have counted : ticks * m.pace = clocks := by
    show (if m.console.hw.doubleSpeed then clocks / 2 else clocks) *
      (if m.console.hw.doubleSpeed then 2 else 1) = clocks
    split
    · omega
    · exact Nat.mul_one _
  have positive : 0 < clocks := Nat.succ_pos _
  have left : m.clock.console.hw.cyclesPending.toNat + 1 = clocks := by rw [pending]
  have spent : m.Spends := by
    refine spends (doubleSpeed_clock bare steady) ?_
    rw [left]
    exact Nat.le_of_dvd positive ⟨ticks, by rw [← counted, Nat.mul_comm]⟩
  refine ⟨activity_ne_waits between, ?_, fun unserved => ?_, fun calm => ?_, ?_⟩
  · rintro ⟨line, dispatches⟩
    show (m.due - 1).toNat + 1 = 20
    rw [due_dispatches dispatches]
    decide
  · intro stepped fits
    have least : 4 ≤ stepped.1.toNat := m.clockChips.serveInterrupts.clocks_step.1
    have due : m.due = stepped.1 + stepped.2.console.hw.stall := due_steps between unserved
    show (m.due - 1).toNat + 1 = _
    rw [due]
    simp only [UInt32.toNat_sub, UInt32.toNat_add, UInt32.reduceToNat]
    omega
  · obtain ⟨n, more⟩ : ∃ n, ticks = n + 1 := by
      refine Nat.exists_eq_succ_of_ne_zero fun zero => ?_
      rw [zero, Nat.zero_mul] at counted
      exact absurd counted (Nat.ne_of_lt positive)
    rw [more, Nat.succ_mul] at counted
    have owes : m.Owes n := by
      have spentLeft := spent.left
      refine ⟨spent.fault.trans calm, ?_⟩
      rw [spent.pace]
      omega
    have rest : m.pace - 1 + n * m.pace = clocks - 1 := by
      have some := m.pace_pos
      omega
    rw [more]
    refine ⟨?_, fun journal => ?_⟩
    · rw [owes.activities, spent.activities, spent.pace, List.cons_append,
        List.replicate_append_replicate, rest]
    · obtain ⟨faultless, between⟩ := owes.rests journal
      exact ⟨faultless, between, fun limit => owes.returns limit journal⟩
  · intro fault raised limit journal
    rw [runInstruction?, spent.fault, raised]

/-- At double speed an interrupt is served in ten ticks. -/
theorem one_unit_of_work_dispatch :
    let m := (powerOn default (some .color) ()).mapHardware fun hw =>
      { hw with ie := 0x01, doubleSpeed := true, cpu := { hw.cpu with ime := true } }
    m.handlers = [] ∧ m.console.hw.cyclesPending = 0 ∧ m.console.hw.stall.toNat % 8 = 0 ∧
      m.Steady ∧ m.activity = .dispatches .vblank ∧
      (runClocks 10 m).map activity = .dispatches .vblank :: List.replicate 19 .waits ∧
      ∀ limit, runInstruction? limit m {} = if 10 ≤ limit then some (run 10 m {}) else none := by
  intro m
  have dispatches : m.activity = .dispatches .vblank := by decide +kernel
  have calm : m.clock.console.fault = none := by decide +kernel
  have steady : m.Steady := fun stop => nomatch dispatches.symm.trans stop
  obtain ⟨-, twenty, -, unit, -⟩ := one_unit_of_work (m := m) rfl rfl rfl steady
  have clocks := twenty ⟨.vblank, dispatches⟩
  obtain ⟨activities, returns⟩ := unit calm
  rw [clocks, dispatches] at activities
  rw [clocks] at returns
  obtain ⟨-, -, answers⟩ := returns {}
  exact ⟨rfl, rfl, rfl, steady, dispatches, activities, answers⟩

end Machine

end GameBoy
