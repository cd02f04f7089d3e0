import GameBoy.Proofs.Interrupts
import GameBoy.Proofs.Ledger
import GameBoy.Proofs.Requests
import GameBoy.Proofs.UnitOfWork

/-!
When an EI takes effect. What a clock begins is over before anything else begins, and between two
clocks of a session nothing reaches the processor, so an enable that was left by an EI waits for one
more instruction, and for no other. Main statement: `enable_delayed`.
-/

namespace GameBoy

namespace Hardware

variable {hw : Hardware}

/-- A line that is enabled is requested. -/
def Asked (hw : Hardware) : Prop := hw.ie &&& hw.requested ≠ 0

theorem asked_iff :
    hw.Asked ↔ ∃ i, hw.ie.toNat.testBit i = true ∧ hw.requested.toNat.testBit i = true := by
  have both (i : Nat) : (hw.ie &&& hw.requested).toNat.testBit i = true ↔
      hw.ie.toNat.testBit i = true ∧ hw.requested.toNat.testBit i = true := by
    rw [UInt8.toNat_and, Nat.testBit_and, Bool.and_eq_true]
  constructor
  · intro asked
    obtain ⟨i, bit⟩ := Nat.exists_testBit_of_ne_zero fun zero => asked (UInt8.toNat.inj zero)
    exact ⟨i, (both i).mp bit⟩
  · rintro ⟨i, bits⟩ none
    have bit := (both i).mpr bits
    rw [none] at bit
    simp at bit

/-- As long as only lines that exist are requested, one that is asked for is found. -/
theorem Asked.exists_line (asked : hw.Asked) (lines : hw.requested < 0x20) :
    ∃ line, hw.nextInterrupt? = some line := by
  obtain ⟨i, enabled, requested⟩ := asked_iff.mp asked
  have few : i < Interrupt.all.length :=
    (Nat.pow_lt_pow_iff_right (by decide : 1 < 2)).mp
      (Nat.lt_of_le_of_lt (Nat.ge_two_pow_of_testBit requested) (UInt8.lt_iff_toNat_lt.mp lines))
  refine Option.ne_none_iff_exists'.mp fun none => ?_
  have unasked := List.find?_eq_none.mp none _ (List.getElem_mem few)
  refine unasked (decide_eq_true ((hw.pendingMask_ne_zero_iff _).mpr ?_))
  rw [Interrupt.bit_all i few, UInt8.toNat_and, Nat.testBit_and, enabled, requested]
  rfl

end Hardware

namespace Machine

/-- The processor, and the clocks that it has left. -/
def processor (m : Machine σ) : Cpu × UInt32 := (m.console.hw.cpu, m.console.hw.cyclesPending)

theorem processor_fst (m : Machine σ) : m.processor.1 = m.console.hw.cpu := rfl

theorem processor_snd (m : Machine σ) : m.processor.2 = m.console.hw.cyclesPending := rfl

theorem eq_of_processor {m : Machine σ} (met : m.processor = (cpu, left)) :
    m.console.hw.cpu = cpu ∧ m.console.hw.cyclesPending = left := Prod.mk.injEq .. ▸ met

/-- A machine without devices, on which only lines that exist are requested. -/
structure Plain (m : Machine σ) : Prop where
  bare : m.handlers = []
  lines : m.console.hw.requested < 0x20

variable {m n : Machine σ}

theorem Evolves.plain {count : Nat} (e : m.Evolves count n) (plain : m.Plain) : n.Plain where
  bare := e.bare plain.bare
  lines := e.console.requested plain.lines

theorem Plain.clock (plain : m.Plain) : m.clock.Plain := (m.clock_evolves plain.bare).plain plain

theorem Plain.tick (plain : m.Plain) : m.tick.machine.Plain :=
  (m.tick_evolves plain.bare).plain plain

theorem Plain.perform (plain : m.Plain) (op : Operation) : (m.perform op).2.Plain := by
  cases op with
  | tick => exact plain.tick
  | run count =>
    obtain ⟨ticks, ran⟩ := run_evolves count m plain.bare {}
    exact ran.plain plain
  | read address =>
    show (m.read address).2.Plain
    rw [m.read_bare plain.bare]
    exact plain
  | write address v => exact (m.write_evolves plain.bare address v).plain plain
  | hblank => exact (m.mapConsole_evolves m.console.hblank_evolves).plain plain
  | setVramAccessible | setOamAccessible => exact ⟨plain.bare, plain.lines⟩
  | request line =>
    exact (m.mapHardware_evolves (·.request line) (m.console.request_evolves line)).plain plain
  | acknowledge line =>
    exact (m.mapHardware_evolves (·.acknowledge line)
      (m.console.acknowledge_evolves line)).plain plain
  | loadBattery saved =>
    exact (m.mapConsole_evolves (f := (·.loadBattery saved))
      (m.console.loadBattery_evolves saved)).plain plain

theorem asked_clockChips (asked : m.console.hw.Asked) : m.clockChips.console.hw.Asked := by
  obtain ⟨i, enabled, requested⟩ := Hardware.asked_iff.mp asked
  refine Hardware.asked_iff.mpr ⟨i, ?_, testBit_clockChips requested⟩
  rw [m.clockChips_beside.ie]
  exact enabled

/-! From clock to clock. -/

/-- Clocks that take the processor from one state to another. Between one and the next nothing
reaches it. -/
inductive Relay : Cpu × UInt32 → List (Machine σ) → Cpu × UInt32 → Prop
  | nil : Relay p [] p
  | cons {m : Machine σ} (plain : m.Plain) (met : m.processor = p)
    (rest : Relay m.clock.processor later q) : Relay p (m :: later) q

namespace Relay

variable {p q r : Cpu × UInt32} {before later : List (Machine σ)}

theorem append (first : Relay p before q) (second : Relay q later r) :
    Relay p (before ++ later) r := by
  induction first with
  | nil => exact second
  | cons plain met _ ih => exact .cons plain met (ih second)

theorem split (whole : Relay p (before ++ later) r) :
    ∃ q, Relay p before q ∧ Relay q later r := by
  induction before generalizing p with
  | nil => exact ⟨p, .nil, whole⟩
  | cons m before ih =>
    cases whole with
    | cons plain met rest =>
      obtain ⟨q, first, second⟩ := ih rest
      exact ⟨q, .cons plain met first, second⟩

theorem succession (relay : Relay p later q) :
    Succession p.1.enables (later.map moment) q.1.enables := by
  induction relay with
  | nil => exact .nil
  | @cons p later q m plain met rest ih =>
    subst met
    exact .cons (fun _ dispatches => m.enabled_of_dispatches dispatches)
      (m.enables_clock plain.bare) ih

end Relay

theorem tickClocks_relay (plain : m.Plain) :
    Relay m.processor m.tickClocks m.tick.machine.processor := by
  have same : m.tick.machine.processor = m.clocksOfTick.processor :=
    Prod.ext m.tick_beside.cpu m.tick_beside.cyclesPending
  rw [same]
  rcases m.tickClocks_cases with ⟨clocks, ended⟩ | ⟨clocks, ended⟩
  · rw [clocks, ended]
    exact .cons plain rfl .nil
  · rw [clocks, ended]
    exact .cons plain rfl (.cons plain.clock rfl .nil)

theorem runClocks_relay (count : Nat) (plain : m.Plain) (journal : Journal) :
    Relay m.processor (runClocks count m) (run count m journal).machine.processor := by
  induction count generalizing m journal with
  | zero => exact .nil
  | succ count ih =>
    rw [runClocks, run]
    refine (tickClocks_relay plain).append ?_
    cases m.tick.fault with
    | none => exact ih plain.tick _
    | some fault => exact .nil

theorem clocksOf_relay (plain : m.Plain) (op : Operation) :
    Relay m.processor (m.clocksOf op) (m.perform op).2.processor := by
  have aside {n : Machine σ} (cpu : n.console.hw.cpu = m.console.hw.cpu)
      (left : n.console.hw.cyclesPending = m.console.hw.cyclesPending) :
      Relay (σ := σ) m.processor [] n.processor := by
    rw [show n.processor = m.processor from Prod.ext cpu left]
    exact .nil
  cases op with
  | tick => exact tickClocks_relay plain
  | run count => exact runClocks_relay count plain {}
  | read address =>
    have still := m.read_bare plain.bare address
    exact aside (congrArg (·.console.hw.cpu) still) (congrArg (·.console.hw.cyclesPending) still)
  | write address v =>
    have written := m.write_aside plain.bare address v
    exact aside written.cpu written.cyclesPending
  | hblank => exact aside m.console.hblank_apart.cpu m.console.hblank_apart.cyclesPending
  | _ => exact aside rfl rfl

theorem sessionClocks_relay (plain : m.Plain) (operations : List Operation) :
    Relay m.processor (m.sessionClocks operations) (m.after operations).processor := by
  induction operations generalizing m with
  | nil => exact .nil
  | cons op rest ih => exact (clocksOf_relay plain op).append (ih (plain.perform op))

/-! What follows the beginning of something. -/

/-- The clocks in which the processor is busy with what it has begun. -/
def busy (m : Machine σ) (later : List (Machine σ)) : List (Machine σ) :=
  later.take m.clock.console.hw.cyclesPending.toNat

/-- The clocks after those. -/
def onward (m : Machine σ) (later : List (Machine σ)) : List (Machine σ) :=
  later.drop m.clock.console.hw.cyclesPending.toNat

/-- The processor waits until no clock is left, and is the same then. -/
theorem Relay.waits {later : List (Machine σ)} {count : Nat} (relay : Relay p later q)
    (left : p.2.toNat = count) :
    (∀ k ∈ later.take count, k.activity = .waits) ∧
      ∀ k rest, later.drop count = k :: rest → Relay (p.1, 0) (k :: rest) q := by
  induction relay generalizing count with
  | nil =>
    rw [List.take_nil, List.drop_nil]
    exact ⟨List.forall_mem_nil _, fun k rest none => absurd none.symm (List.cons_ne_nil k rest)⟩
  | @cons p later q m plain met rest ih =>
    cases count with
    | zero =>
      have none : p.2 = 0 := UInt32.toNat.inj left
      refine ⟨List.forall_mem_nil _, fun k more onward => ?_⟩
      rw [List.drop_zero] at onward
      rw [← onward, ← none]
      exact .cons plain met rest
    | succ count =>
      subst met
      rw [processor_snd] at left
      have waiting : m.console.hw.cyclesPending ≠ 0 := by
        intro zero
        rw [zero] at left
        exact Nat.succ_ne_zero count left.symm
      obtain ⟨waits, -, less⟩ := clock_waits waiting
      have same : m.clock.console.hw.cpu = m.console.hw.cpu := by
        rw [(m.clock_waiting waiting).2]
        exact m.clockChips_beside.cpu
      have leftAfter : m.clock.processor.2.toNat = count := by
        rw [processor_snd]
        omega
      obtain ⟨waitsLater, onward⟩ := ih leftAfter
      refine ⟨List.forall_mem_cons.mpr ⟨waits, waitsLater⟩, fun k more dropped => ?_⟩
      have next := onward k more dropped
      rwa [processor_fst, same, ← processor_fst] at next

theorem map_pushes (m : Machine σ) :
    (m.wake.pushes.map fun w => (w.address, w.value)) =
      [(m.console.hw.cpu.sp - 1, Word.high m.console.hw.cpu.pc),
        (m.console.hw.cpu.sp - 2, Word.low m.console.hw.cpu.pc)] := rfl

/-- A machine that is about to begin something, with the processor in a known state. -/
structure Poised (cpu : Cpu) (m : Machine σ) : Prop extends m.Plain where
  cpu : m.console.hw.cpu = cpu
  between : m.console.hw.cyclesPending = 0

/-- When what has begun is over, the next thing begins with the processor as it was left. -/
theorem Relay.onward {later : List (Machine σ)} (relay : Relay m.clock.processor later q) :
    (∀ k ∈ m.busy later, k.activity = .waits) ∧
      ∀ k rest, m.onward later = k :: rest →
        k.Poised m.clock.console.hw.cpu ∧ Relay k.clock.processor rest q := by
  obtain ⟨waits, onward⟩ := relay.waits rfl
  rw [processor_fst] at onward
  refine ⟨waits, fun k rest next => ?_⟩
  cases onward k rest next with
  | cons plain met later =>
    obtain ⟨cpu, between⟩ := eq_of_processor met
    exact ⟨⟨plain, cpu, between⟩, later⟩

namespace Poised

variable {cpu : Cpu}

/-- While interrupts are disabled, a processor that is not halted runs an instruction. -/
theorem executes (poised : m.Poised cpu) (disabled : cpu.ime = false)
    (running : cpu.halted = false) : ∃ i, m.activity = .executes i := by
  have chips := m.clockChips_beside
  have begun {n : Machine σ} (running : n.console.hw.cpu.halted = false) :
      ∃ i, n.upcoming = .executes i := by
    rcases n.upcoming_cases with ⟨halted, -⟩ | executes
    · exact Bool.noConfusion (halted.symm.trans running)
    · exact executes
  obtain ⟨n, turn, -⟩ := m.clock_cases
  generalize m.activity = activity at turn
  cases turn with
  | waits waiting => exact absurd (chips.cyclesPending.trans poised.between) waiting
  | dispatches _ _ enabled =>
    rw [chips.cpu, poised.cpu, disabled] at enabled
    cases enabled
  | begins =>
    refine begun ?_
    rw [chips.cpu, poised.cpu]
    exact running
  | wakes => exact begun rfl

/-- While interrupts are enabled, one that is asked for is served at once. -/
theorem dispatches (poised : m.Poised cpu) (enabled : cpu.ime = true)
    (asked : m.clockChips.console.hw.Asked) : ∃ line, m.activity = .dispatches line := by
  have chips := m.clockChips_beside
  have lines := (m.clockChips_evolves.plain poised.toPlain).lines
  obtain ⟨line, next⟩ := asked.exists_line lines
  obtain ⟨n, turn, -⟩ := m.clock_cases
  generalize m.activity = activity at turn
  cases turn with
  | waits waiting => exact absurd (chips.cyclesPending.trans poised.between) waiting
  | @dispatches line => exact ⟨line, rfl⟩
  | begins _ unserved => exact nomatch unserved.symm.trans next
  | wakes _ _ disabled =>
    rw [chips.cpu, poised.cpu, enabled] at disabled
    cases disabled

/-- The address that is pushed is where the processor would have gone on. -/
theorem pushes (poised : m.Poised cpu) (dispatches : m.activity = .dispatches line) :
    (m.clockWrites.map fun w => (w.address, w.value)) =
        [(cpu.sp - 1, Word.high cpu.pc), (cpu.sp - 2, Word.low cpu.pc)] ∧
      m.clock.console.hw.cpu = cpu.entering line := by
  have chips : m.clockChips.console.hw.cpu = cpu := m.clockChips_beside.cpu.trans poised.cpu
  have bareChips := m.clockChips_evolves.bare poised.bare
  obtain ⟨-, entered, written⟩ := m.clock_dispatches poised.bare dispatches
  have enters := (m.clockChips.wake.cpu_dispatch bareChips line).1
  constructor
  · rw [written, map_pushes, chips]
  · rw [entered, ← chips]
    exact enters

end Poised

theorem cpu_beginInstruction (between : n.console.hw.cyclesPending = 0) :
    n.beginInstruction.countDown.console.hw.cpu = n.step.2.console.hw.cpu := by
  rw [n.beginInstruction_eq between]
  rfl

/-- An instruction is run by a machine with the same registers. -/
theorem clock_executes (bare : m.handlers = []) (executes : m.activity = .executes i) :
    ∃ n : Machine σ, n.handlers = [] ∧ n.upcoming = .executes i ∧
      n.console.hw.cpu.pc = m.console.hw.cpu.pc ∧
      m.clock.console.hw.cpu = n.step.2.console.hw.cpu := by
  have bareChips := m.clockChips_evolves.bare bare
  have pc : m.clockChips.console.hw.cpu.pc = m.console.hw.cpu.pc :=
    congrArg Cpu.pc m.clockChips_beside.cpu
  obtain ⟨n, turn, clocked⟩ := m.clock_cases
  rw [clocked]
  generalize m.activity = activity at turn executes
  cases turn with
  | waits | dispatches => cases executes
  | begins between => exact ⟨_, bareChips, executes, pc, cpu_beginInstruction between⟩
  | wakes between =>
    exact ⟨m.clockChips.wake, bareChips, executes, pc, cpu_beginInstruction between⟩

theorem pc_clock (bare : m.handlers = []) (executes : m.activity = .executes i)
    (straight : i.branches = false) :
    m.clock.console.hw.cpu.pc = m.console.hw.cpu.pc + UInt16.ofNat i.size := by
  obtain ⟨n, bareNow, upcoming, pc, clocked⟩ := clock_executes bare executes
  rw [clocked, pc_step bareNow upcoming straight, pc]

/-- An EI does not halt the processor. -/
theorem running_clock_ei (bare : m.handlers = []) (ei : m.activity = .executes .ei) :
    m.clock.console.hw.cpu.halted = false := by
  have settled (wasPending : Bool) (cpu : Cpu) :
      (if wasPending && cpu.imePending then { cpu with ime := true, imePending := false }
        else cpu).halted = cpu.halted := by
    split <;> rfl
  obtain ⟨n, bareNow, upcoming, -, clocked⟩ := clock_executes bare ei
  obtain ⟨running, -⟩ := upcoming_executes upcoming
  obtain ⟨clocks, stepped⟩ := step_executes bareNow upcoming
  rw [clocked, stepped]
  exact (settled _ _).trans running

/-- An EI takes effect when the next instruction has been run. Until then no interrupt is served.
Afterwards interrupts are enabled, and one that is asked for by the time that something else could
begin is served then, with the address of the instruction after pushed, whatever that next
instruction was. Only a DI takes the EI back, and interrupts stay disabled until the next EI or
RETI. In a session no other lines than the five that exist are ever requested. -/
theorem enable_delayed {operations : List Operation} (bare : m.handlers = [])
    (lines : m.console.hw.requested < 0x20)
    (happened : m.sessionClocks operations = before ++ e :: later)
    (ei : e.activity = .executes .ei)
    (disabled : e.console.hw.cpu.enables = { master := false, pending := false }) :
    (∀ p ∈ e.busy later, p.activity = .waits) ∧
    ∀ k rest, e.onward later = k :: rest →
      k.console.hw.cpu.pc = e.console.hw.cpu.pc + 1 ∧
      (∀ p ∈ k.busy rest, p.activity = .waits) ∧
      ∃ i, k.activity = .executes i ∧
        (i = .di →
          k.clock.console.hw.cpu.enables = { master := false, pending := false } ∧
          ∀ held more, rest = held ++ more → (∀ p ∈ held, ¬p.moment.Enabling) →
            ∀ p ∈ held, p.moment.Undisturbed) ∧
        (i ≠ .di →
          let cpu := k.clock.console.hw.cpu
          cpu.enables = { master := true, pending := false } ∧
          (i.branches = false → cpu.pc = k.console.hw.cpu.pc + UInt16.ofNat i.size) ∧
          ∀ b more, k.onward rest = b :: more →
            b.console.hw.Asked ∨ b.clockChips.console.hw.Asked →
              ∃ line, b.activity = .dispatches line ∧
                (b.clockWrites.map fun w => (w.address, w.value)) =
                  [(cpu.sp - 1, Word.high cpu.pc), (cpu.sp - 2, Word.low cpu.pc)] ∧
                b.clock.console.hw.cpu = cpu.entering line) := by
  have relay := sessionClocks_relay ⟨bare, lines⟩ operations
  rw [happened] at relay
  obtain ⟨p, -, whole⟩ := relay.split
  cases whole with
  | cons plain met relayed =>
    -- The EI leaves an enable that waits.
    have enables := e.enables_clock plain.bare
    rw [ei, disabled] at enables
    obtain ⟨waits, next⟩ := relayed.onward
    refine ⟨waits, fun k rest onward => ?_⟩
    obtain ⟨poised, relayed⟩ := next k rest onward
    obtain ⟨i, executes⟩ := poised.executes (congrArg Enables.master enables)
      (running_clock_ei plain.bare ei)
    -- The next instruction settles it, whatever it is.
    have enablesNext := k.enables_clock poised.bare
    rw [executes, poised.cpu, enables] at enablesNext
    obtain ⟨waitsNext, nextBut⟩ := relayed.onward
    refine ⟨?_, waitsNext, i, executes, ?_, ?_⟩
    · rw [poised.cpu]
      exact pc_clock plain.bare ei rfl
    · rintro rfl
      refine ⟨enablesNext, fun held more split unasked => ?_⟩
      have succession := relayed.succession
      rw [processor_fst, enablesNext, split, List.map_append] at succession
      obtain ⟨f, undisturbed, -⟩ := succession.split
      exact List.forall_mem_map.mp (undisturbed.undisturbed (List.forall_mem_map.mpr unasked))
    · intro di cpu
      have enabled : cpu.enables = { master := true, pending := false } :=
        enablesNext.trans (Instruction.enables_pending di)
      refine ⟨enabled, pc_clock poised.bare executes, fun b more onward asked => ?_⟩
      obtain ⟨poised, -⟩ := nextBut b more onward
      have askedChips : b.clockChips.console.hw.Asked := asked.elim asked_clockChips id
      obtain ⟨line, dispatches⟩ := poised.dispatches (congrArg Enables.master enabled) askedChips
      exact ⟨line, dispatches, poised.pushes dispatches⟩

/-- A HALT follows the EI, and a vertical blank is requested all the time. It is served when the HALT
has been run, with the address behind the HALT pushed. -/
theorem enable_delayed_halt :
    let m := (powerOn default (some .monochrome) ()).mapHardware fun hw =>
      { hw with
        ie := 0x01, hram := (hw.hram.write 0 0xFB).write 1 0x76
        cpu := { hw.cpu with pc := 0xFF80 } }
    m.handlers = [] ∧ m.console.hw.requested < 0x20 ∧ m.activity = .executes .ei ∧
      m.console.hw.cpu.enables = { master := false, pending := false } ∧
      ∃ later k rest b more,
        m.sessionClocks [.run 9] = [] ++ m :: later ∧ m.onward later = k :: rest ∧
        k.activity = .executes .halt ∧ k.onward rest = b :: more ∧
        b.activity = .dispatches .vblank ∧ b.clockWrites.map BusWrite.value = [0xFF, 0x82] := by
  intro m
  let view (p : Machine Unit) :=
    (p.activity, p.clock.console.hw.cyclesPending, p.console.hw.ie &&& p.console.hw.requested)
  have seen : (m.sessionClocks [.run 9]).map view =
      [(.executes .ei, 3, 1), (.waits, 2, 1), (.waits, 1, 1), (.waits, 0, 1),
        (.executes .halt, 3, 1), (.waits, 2, 1), (.waits, 1, 1), (.waits, 0, 1),
        (.dispatches .vblank, 19, 1)] := by
    decide +kernel
  obtain ⟨e, later, happened, viewE, seen⟩ := List.map_eq_cons_iff.mp seen
  have first : m = e := (List.cons.inj happened).1
  subst first
  replace happened : m.sessionClocks [.run 9] = [] ++ m :: later := happened
  simp only [view, Prod.mk.injEq] at viewE
  obtain ⟨ei, pending, -⟩ := viewE
  have seenNext : (m.onward later).map view =
      [(.executes .halt, 3, 1), (.waits, 2, 1), (.waits, 1, 1), (.waits, 0, 1),
        (.dispatches .vblank, 19, 1)] := by
    rw [onward, pending, List.map_drop, seen]
    rfl
  obtain ⟨k, rest, onwardE, viewK, seen⟩ := List.map_eq_cons_iff.mp seenNext
  simp only [view, Prod.mk.injEq] at viewK
  obtain ⟨halt, pending, -⟩ := viewK
  have seenNext : (k.onward rest).map view = [(.dispatches .vblank, 19, 1)] := by
    rw [onward, pending, List.map_drop, seen]
    rfl
  obtain ⟨b, more, onwardK, viewB, -⟩ := List.map_eq_cons_iff.mp seenNext
  simp only [view, Prod.mk.injEq] at viewB
  obtain ⟨dispatches, -, requested⟩ := viewB
  have asked : b.console.hw.Asked := fun none => absurd (requested.symm.trans none) (by decide)
  have disabled : m.console.hw.cpu.enables = { master := false, pending := false } := rfl
  have lines : m.console.hw.requested < 0x20 := by decide +kernel
  obtain ⟨-, delayed⟩ := enable_delayed rfl lines happened ei disabled
  obtain ⟨pc, -, i, executes, -, enabled⟩ := delayed k rest onwardE
  cases executes.symm.trans halt
  obtain ⟨-, behind, served⟩ := enabled (by decide)
  obtain ⟨line, -, pushed, -⟩ := served b more onwardK (.inl asked)
  have start : m.console.hw.cpu.pc = 0xFF80 := rfl
  have behind : k.clock.console.hw.cpu.pc = 0xFF82 := by
    rw [behind rfl, pc, start]
    decide
  refine ⟨rfl, lines, ei, disabled, later, k, rest, b, more, happened, onwardE, halt, onwardK,
    dispatches, ?_⟩
  have values := congrArg (List.map Prod.snd) pushed
  rw [List.map_map, behind] at values
  exact values

end Machine

end GameBoy
