import GameBoy.Proofs.Programs

/-!
When the handler of an interrupt can be interrupted itself. A history tells what the processor did in
each clock of a session, and the enables after it. Main statement:
`undisturbed_iff`, which says when nothing disturbs a handler that does not ask for it.
-/

namespace GameBoy

/-- What the processor did in a clock, and the enables after it. -/
structure Moment where
  activity : Activity
  enables : Enables

/-- The instruction that was run. -/
def Moment.executed? (k : Moment) : Option Instruction :=
  match k.activity with
  | .executes i => some i
  | _ => none

/-- Interrupts are disabled, and none is served. -/
def Moment.Undisturbed (k : Moment) : Prop :=
  k.enables.master = false ∧ ∀ line, k.activity ≠ .dispatches line

/-- The instructions that a handler enables interrupts with. -/
def Moment.Enabling (k : Moment) : Prop :=
  k.activity = .executes .ei ∨ k.activity = .executes .reti

/-- The enables after some clocks. -/
def enablesAfter (start : Enables) (clocks : List Moment) : Enables :=
  (clocks.getLast?.map Moment.enables).getD start

namespace Machine

/-- The next clock. -/
def moment (m : Machine σ) : Moment :=
  { activity := m.activity, enables := m.clock.console.hw.cpu.enables }

/-- The clocks of the next tick. -/
def tickMoments (m : Machine σ) : List Moment :=
  if m.console.hw.doubleSpeed then [m.moment, m.clock.moment] else [m.moment]

/-- The clocks of a run, which ends with the first tick that reports a fault. -/
def runMoments : Nat → Machine σ → List Moment
  | 0, _ => []
  | count + 1, m =>
    m.tickMoments ++ if m.tick.fault = none then runMoments count m.tick.machine else []

/-- The clocks of an operation. -/
def moments (m : Machine σ) : Operation → List Moment
  | .tick => m.tickMoments
  | .run count => runMoments count m
  | _ => []

/-- The clocks of a session. -/
def history (m : Machine σ) : List Operation → List Moment
  | [] => []
  | op :: rest => m.moments op ++ (m.perform op).2.history rest

end Machine

/-- Clocks that follow one another: an interrupt is served only while interrupts are enabled, and the
enables change as the activities say. -/
inductive Succession : Enables → List Moment → Enables → Prop
  | nil {e : Enables} : Succession e [] e
  | cons {e f : Enables} {k : Moment} {later : List Moment}
      (enabled : ∀ line, k.activity = .dispatches line → e.master = true)
      (changed : k.enables = k.activity.enables e) (rest : Succession k.enables later f) :
      Succession e (k :: later) f

namespace Succession

theorem append (first : Succession e before f) (second : Succession f later g) :
    Succession e (before ++ later) g := by
  induction first with
  | nil => exact second
  | cons enabled changed _ ih => exact .cons enabled changed (ih second)

theorem split (whole : Succession e (before ++ later) g) :
    ∃ f, Succession e before f ∧ Succession f later g := by
  induction before generalizing e with
  | nil => exact ⟨e, .nil, whole⟩
  | cons k before ih =>
    cases whole with
    | cons enabled changed rest =>
      obtain ⟨f, first, second⟩ := ih rest
      exact ⟨f, .cons enabled changed first, second⟩

theorem last (succession : Succession e clocks f) : f = enablesAfter e clocks := by
  induction succession with
  | nil => rfl
  | cons enabled changed rest ih =>
    rw [ih, enablesAfter, enablesAfter, List.getLast?_cons]
    cases List.getLast? _ <;> rfl

end Succession

namespace Machine

theorem moment_succession (m : Machine σ) (bare : m.handlers = []) :
    Succession m.console.hw.cpu.enables [m.moment] m.clock.console.hw.cpu.enables :=
  .cons (fun _ dispatches => m.enabled_of_dispatches dispatches) (m.enables_clock bare) .nil

theorem cpu_tick (m : Machine σ) :
    m.tick.machine.console.hw.cpu = m.clocksOfTick.console.hw.cpu :=
  m.tick_beside.cpu

theorem tickMoments_succession (m : Machine σ) (bare : m.handlers = []) :
    Succession m.console.hw.cpu.enables m.tickMoments m.tick.machine.console.hw.cpu.enables := by
  have first := m.moment_succession bare
  have second := m.clock.moment_succession ((m.clock_evolves bare).bare bare)
  rw [cpu_tick, tickMoments, clocksOfTick]
  split
  · exact first.append second
  · exact first

theorem runMoments_succession (count : Nat) (m : Machine σ) (bare : m.handlers = [])
    (journal : Journal) :
    Succession m.console.hw.cpu.enables (runMoments count m)
      (run count m journal).machine.console.hw.cpu.enables := by
  induction count generalizing m journal with
  | zero => exact .nil
  | succ count ih =>
    have ticked := m.tickMoments_succession bare
    rw [runMoments, run]
    refine ticked.append ?_
    cases m.tick.fault with
    | none => exact ih m.tick.machine ((m.tick_evolves bare).bare bare) _
    | some fault => exact .nil

/-- What is not a matter of time leaves the processor alone. -/
theorem moments_succession (m : Machine σ) (bare : m.handlers = []) (op : Operation) :
    Succession m.console.hw.cpu.enables (m.moments op) (m.perform op).2.console.hw.cpu.enables := by
  cases op with
  | tick => exact m.tickMoments_succession bare
  | run count => exact runMoments_succession count m bare {}
  | read address =>
    show Succession _ [] (m.read address).2.console.hw.cpu.enables
    rw [m.read_bare bare]
    exact .nil
  | write address v =>
    show Succession _ [] (m.write address v).console.hw.cpu.enables
    rw [(m.write_aside bare address v).cpu]
    exact .nil
  | hblank =>
    show Succession _ [] m.console.hblank.hw.cpu.enables
    rw [m.console.hblank_apart.cpu]
    exact .nil
  | _ => exact .nil

theorem history_succession (m : Machine σ) (bare : m.handlers = []) (operations : List Operation) :
    Succession m.console.hw.cpu.enables (m.history operations)
      (m.after operations).console.hw.cpu.enables := by
  induction operations generalizing m with
  | nil => exact .nil
  | cons op rest ih =>
    have performed := m.perform_keeps bare op
    exact (m.moments_succession bare op).append (ih _ (performed.handlers.trans bare))

end Machine

/-! Handlers. -/

/-- Disabled interrupts stay disabled. -/
theorem Instruction.enables_disabled {i : Instruction} (ei : i ≠ .ei) (reti : i ≠ .reti) :
    i.enables { master := false, pending := false } = { master := false, pending := false } := by
  cases i <;> first | rfl | contradiction

/-- An enable that waits takes effect after any instruction that does not cancel it. -/
theorem Instruction.enables_pending {i : Instruction} (di : i ≠ .di) :
    i.enables { master := false, pending := true } = { master := true, pending := false } := by
  cases i <;> first | rfl | contradiction

/-- Only EI leaves an enable that waits. -/
theorem Instruction.eq_ei_of_pending {i : Instruction} (pending : (i.enables e).pending = true) :
    i = .ei := by
  obtain ⟨master, waiting⟩ := e
  cases waiting <;> cases i <;> first | rfl | cases pending

namespace Moment

theorem ne_of_not_enabling {k : Moment} (held : ¬k.Enabling) (executes : k.activity = .executes i) :
    i ≠ .ei ∧ i ≠ .reti :=
  ⟨fun ei => held (.inl (ei ▸ executes)), fun reti => held (.inr (reti ▸ executes))⟩

end Moment

namespace Succession

/-- While no enable waits, nothing disturbs a handler that does not enable interrupts. -/
theorem undisturbed (succession : Succession { master := false, pending := false } later f)
    (held : ∀ k ∈ later, ¬k.Enabling) : ∀ k ∈ later, k.Undisturbed := by
  induction later with
  | nil => exact List.forall_mem_nil _
  | cons k later ih =>
    obtain ⟨heldNow, heldLater⟩ := List.forall_mem_cons.mp held
    cases succession with
    | cons enabled changed rest =>
      have unserved : ∀ line, k.activity ≠ .dispatches line :=
        fun line served => Bool.noConfusion (enabled line served)
      have disabled : k.enables = { master := false, pending := false } := by
        rw [changed]
        cases activity : k.activity with
        | waits | idles => rfl
        | dispatches line => exact absurd activity (unserved line)
        | executes i =>
          obtain ⟨ei, reti⟩ := Moment.ne_of_not_enabling heldNow activity
          exact Instruction.enables_disabled ei reti
      rw [disabled] at rest
      refine List.forall_mem_cons.mpr ⟨⟨?_, unserved⟩, ih rest heldLater⟩
      exact congrArg Enables.master disabled

/-- An enable that waits disturbs a handler unless its first instruction is DI. -/
theorem undisturbed_iff_di (succession : Succession { master := false, pending := true } later f)
    (held : ∀ k ∈ later, ¬k.Enabling) :
    (∀ k ∈ later, k.Undisturbed) ↔ ∀ i, later.findSome? Moment.executed? = some i → i = .di := by
  induction later with
  | nil =>
    refine ⟨fun _ i found => ?_, fun _ => List.forall_mem_nil _⟩
    cases found
  | cons k later ih =>
    obtain ⟨-, heldLater⟩ := List.forall_mem_cons.mp held
    cases succession with
    | cons enabled changed rest =>
      rw [List.forall_mem_cons, List.findSome?_cons, Moment.executed?, Moment.Undisturbed, changed]
      rw [changed] at rest
      cases activity : k.activity with
      | dispatches line => exact Bool.noConfusion (enabled line activity)
      | waits | idles =>
        -- The enable goes on waiting.
        rw [activity] at rest
        have later := ih rest heldLater
        exact ⟨fun all => later.mp all.2, fun first => ⟨⟨rfl, nofun⟩, later.mpr first⟩⟩
      | executes i =>
        rw [activity] at rest
        by_cases di : i = .di
        · subst di
          exact ⟨fun _ j first => (Option.some.inj first).symm,
            fun _ => ⟨⟨rfl, nofun⟩, rest.undisturbed heldLater⟩⟩
        · have enabled : (i.enables { master := false, pending := true }).master = true :=
            congrArg Enables.master (Instruction.enables_pending di)
          rw [Activity.enables, enabled]
          exact ⟨fun all => absurd all.1.1 (by decide), fun first => absurd (first i rfl) di⟩

/-- An enable that waits was left by EI, and no instruction has been run since then. -/
theorem last_executed (succession : Succession e before f) (pending : f.pending = true) :
    before.reverse.findSome? Moment.executed? = some .ei ∨
      (before.reverse.findSome? Moment.executed? = none ∧ e.pending = true) := by
  induction succession with
  | nil => exact .inr ⟨rfl, pending⟩
  | @cons e f k later enabled changed rest ih =>
    rw [List.reverse_cons, List.findSome?_append]
    rcases ih pending with ei | ⟨none, waits⟩
    · exact .inl (by rw [ei]; rfl)
    · rw [none, Option.none_or, List.findSome?_singleton, Moment.executed?]
      rw [changed] at waits
      cases activity : k.activity with
      | waits | idles | dispatches line =>
        rw [activity] at waits
        exact .inr ⟨rfl, waits⟩
      | executes i =>
        rw [activity] at waits
        exact .inl (congrArg some (Instruction.eq_ei_of_pending waits))

end Succession

namespace Machine

/-! Histories at normal speed. -/

theorem history_append (m : Machine σ) (operations later : List Operation) :
    m.history (operations ++ later) =
      m.history operations ++ (m.after operations).history later := by
  induction operations generalizing m with
  | nil => rfl
  | cons op rest ih =>
    show m.moments op ++ (m.perform op).2.history (rest ++ later) = _
    rw [ih, ← List.append_assoc]
    rfl

theorem history_write (m : Machine σ) (address : UInt16) (v : UInt8) (rest : List Operation) :
    m.history (.write address v :: rest) = (m.write address v).history rest := rfl

theorem history_request (m : Machine σ) (line : Interrupt) (rest : List Operation) :
    m.history (.request line :: rest) = (m.mapHardware (·.request line)).history rest := rfl

theorem history_tick (m : Machine σ) (rest : List Operation) :
    m.history (.tick :: rest) = m.tickMoments ++ m.tick.machine.history rest := rfl

theorem after_ticks (m : Machine σ) (count : Nat) :
    m.after (List.replicate count .tick) = m.ticks count := by
  induction count generalizing m with
  | zero => rfl
  | succ count ih =>
    rw [ticks_succ, ← ih]
    rfl

namespace Stands

variable {rom : Memory} {cpu : Cpu} {ie : UInt8} {left : UInt32} {m : Machine σ}

theorem tickMoments (stands : m.Stands rom cpu ie left) :
    m.tickMoments = [{ activity := m.activity, enables := m.activity.enables cpu.enables }] := by
  rw [Machine.tickMoments, stands.normal, moment, m.enables_clock stands.bare, stands.cpu]
  rfl

theorem history_waits {k : Nat} (stands : m.Stands rom cpu ie (UInt32.ofNat k))
    (small : k < 2 ^ 32) :
    m.history (List.replicate k .tick) =
      List.replicate k { activity := .waits, enables := cpu.enables } := by
  induction k generalizing m with
  | zero => rfl
  | succ k ih =>
    obtain ⟨waiting, fewer⟩ := clocks_succ small
    obtain ⟨waits, -⟩ := m.clock_waiting (by rw [stands.left]; exact waiting)
    obtain ⟨ticked, -⟩ := stands.wait waiting
    rw [fewer] at ticked
    rw [List.replicate_succ, history_tick, stands.tickMoments, waits, ih ticked (by omega)]
    rfl

/-- Twenty ticks after an interrupt came, the first instruction of its handler is run. -/
theorem history_dispatch (stands : m.Stands rom cpu ie 0) (enabled : cpu.ime = true)
    (next : m.clockChips.console.hw.nextInterrupt? = some line)
    (complete : Encoding.ofOpcode (rom.read line.handler.toNat) = .complete i) :
    let entered : Enables := { master := false, pending := cpu.imePending }
    m.history (.tick :: (List.replicate 19 .tick ++ [.tick])) =
      { activity := .dispatches line, enables := entered } ::
        (List.replicate 19 { activity := .waits, enables := entered } ++
          [{ activity := .executes i, enables := i.enables entered }]) := by
  intro entered
  obtain ⟨dispatches, ie, enters⟩ := stands.dispatch enabled next
  obtain ⟨waited, -⟩ := enters.waits (k := 19) (by decide)
  have low : line.handler.toNat < 0x4000 := by cases line <;> decide
  have executes := waited.upcoming rfl low rfl complete
  rw [history_tick, stands.tickMoments, dispatches, history_append,
    enters.history_waits (k := 19) (by decide), after_ticks, history_tick, waited.tickMoments,
    executes]
  rfl

/-- A line that is enabled alone and requested between two instructions is served. -/
theorem history_served (stands : m.Stands rom cpu ie 0) (enabled : cpu.ime = true)
    (complete : Encoding.ofOpcode (rom.read line.handler.toNat) = .complete i) :
    let entered : Enables := { master := false, pending := cpu.imePending }
    m.history (.write 0xFFFF line.mask :: .request line :: .tick ::
        (List.replicate 19 .tick ++ [.tick])) =
      { activity := .dispatches line, enables := entered } ::
        (List.replicate 19 { activity := .waits, enables := entered } ++
          [{ activity := .executes i, enables := i.enables entered }]) := by
  have asks := (stands.enable line.mask).request line
  let asked := (m.write 0xFFFF line.mask).mapHardware (·.request line)
  have requests : asked.console.hw.Requests line := Hardware.request_requests _ line
  intro entered
  rw [history_write, history_request]
  exact asks.history_dispatch enabled (requests.clockChips.nextInterrupt? asks.chips.ie) complete

end Stands

/-- An interrupt comes when three instructions of four clocks have been run. -/
def disturbance : List Operation :=
  List.replicate 12 .tick ++
    .write 0xFFFF Interrupt.vblank.mask :: .request .vblank :: .tick ::
      (List.replicate 19 .tick ++ [.tick])

private theorem history_disturbance
    (accepted : Cartridge.ofImage (Cartridge.programImage 0xFB 0xFB 0xFB) = .ok cart)
    (fixed : cart.controller = .fixed) :
    ∃ before, (powerOn cart (some .monochrome) ()).history disturbance =
      before ++
        { activity := .dispatches .vblank, enables := { master := false, pending := true } } ::
          (List.replicate 19
              { activity := .waits, enables := { master := false, pending := true } } ++
            [{ activity := .executes .nop, enables := { master := true, pending := false } }]) := by
  have start := powerOn_stands accepted fixed .monochrome
  obtain ⟨first, calm⟩ := start.ei rfl (by decide) rfl Cartridge.programImage_first
  obtain ⟨second, calm⟩ := first.ei calm (by decide) rfl Cartridge.programImage_second
  obtain ⟨third, -⟩ := second.ei calm (by decide) rfl Cartridge.programImage_third
  rw [← ticks_add, ← ticks_add] at third
  have empty : (Cartridge.programImage 0xFB 0xFB 0xFB).read Interrupt.vblank.handler.toNat = 0 :=
    Cartridge.read_programImage (by decide) (.inl (by decide))
  have nop : Encoding.ofOpcode ((Cartridge.programImage 0xFB 0xFB 0xFB).read
      Interrupt.vblank.handler.toNat) = .complete .nop := by
    rw [empty]
    rfl
  have served := third.history_served rfl nop
  rw [disturbance, history_append, after_ticks, served]
  exact ⟨_, rfl⟩

/-- No clock that waits, and no NOP, asks for interrupts. -/
private theorem waiting_held {count : Nat} {e f : Enables} :
    ∀ k ∈ List.replicate count { activity := .waits, enables := e } ++
      [({ activity := .executes .nop, enables := f } : Moment)], ¬k.Enabling := by
  intro k happens
  rcases List.mem_append.mp happens with waits | executes
  · rw [(List.mem_replicate.mp waits).2]
    rintro (ei | reti)
    · cases ei
    · cases reti
  · rw [List.mem_singleton.mp executes]
    rintro (ei | reti)
    · cases ei
    · cases reti

/-- When an interrupt has been served, interrupts are disabled, and an enable that was waiting still
waits. As long as no EI and no RETI is run, interrupts stay disabled, and none is served, exactly if
no enable was waiting or the first instruction of the handler is DI. An enable waits then only if the
instruction before was EI. -/
theorem undisturbed_iff {m : Machine σ} (bare : m.handlers = [])
    (happened : m.history operations = before ++ d :: (later ++ rest))
    (dispatched : d.activity = .dispatches line) (held : ∀ k ∈ later, ¬k.Enabling) :
    d.enables.master = false ∧
      d.enables.pending = (enablesAfter m.console.hw.cpu.enables before).pending ∧
      ((∀ k ∈ later, k.Undisturbed) ↔
        d.enables.pending = false ∨
          ∀ i, later.findSome? Moment.executed? = some i → i = .di) ∧
      (m.console.hw.cpu.imePending = false → d.enables.pending = true →
        before.reverse.findSome? Moment.executed? = some .ei) := by
  have succession := m.history_succession bare operations
  rw [happened] at succession
  obtain ⟨e, first, second⟩ := succession.split
  cases second with
  | cons enabled changed third =>
    obtain ⟨f, handler, -⟩ := third.split
    rw [← first.last]
    obtain ⟨master, pending⟩ := e
    have now : d.enables = { master := false, pending } := by rw [changed, dispatched]; rfl
    rw [now] at handler ⊢
    refine ⟨rfl, rfl, ?_, ?_⟩
    · cases pending with
      | false => exact ⟨fun _ => .inl rfl, fun _ => handler.undisturbed held⟩
      | true =>
        have di := handler.undisturbed_iff_di held
        exact ⟨fun all => .inr (di.mp all), fun first => di.mpr (first.resolve_left nofun)⟩
    · intro calm waits
      rcases first.last_executed waits with ei | ⟨-, started⟩
      · exact ei
      · exact Bool.noConfusion (calm.symm.trans started)

/-- The last of three EIs leaves an enable that waits, and a handler that begins with NOP does not
cancel it. -/
theorem undisturbed_iff_nop :
    ∃ cart, Cartridge.ofImage (Cartridge.programImage 0xFB 0xFB 0xFB) = .ok cart ∧
      let m := powerOn cart (some .monochrome) ()
      ∃ before d later,
        m.handlers = [] ∧ m.history disturbance = before ++ d :: (later ++ []) ∧
        d.activity = .dispatches .vblank ∧ (∀ k ∈ later, ¬k.Enabling) ∧
        d.enables.pending = true ∧ d.enables.master = false ∧
        d.enables.pending = (enablesAfter m.console.hw.cpu.enables before).pending ∧
        ((∀ k ∈ later, k.Undisturbed) ↔
          d.enables.pending = false ∨
            ∀ i, later.findSome? Moment.executed? = some i → i = .di) ∧
        (m.console.hw.cpu.imePending = false → d.enables.pending = true →
          before.reverse.findSome? Moment.executed? = some .ei) := by
  obtain ⟨cart, accepted, fixed⟩ := Cartridge.ofImage_program 0xFB 0xFB 0xFB
  obtain ⟨before, happened⟩ := history_disturbance accepted fixed
  rw [← List.append_nil (List.replicate _ _ ++ _)] at happened
  exact ⟨cart, accepted, before, _, _, rfl, happened, rfl, waiting_held, rfl,
    undisturbed_iff rfl happened rfl waiting_held⟩

/-- A handler without EI and RETI in which interrupts are enabled again. -/
theorem handler_disturbed :
    ∃ cart, Cartridge.ofImage (Cartridge.programImage 0xFB 0xFB 0xFB) = .ok cart ∧
      ∃ before d later,
        (powerOn cart (some .monochrome) ()).history disturbance = before ++ d :: later ∧
          d.activity = .dispatches .vblank ∧ (∀ k ∈ later, ¬k.Enabling) ∧
          ∃ k ∈ later, k.enables.master = true := by
  obtain ⟨cart, accepted, fixed⟩ := Cartridge.ofImage_program 0xFB 0xFB 0xFB
  obtain ⟨before, happened⟩ := history_disturbance accepted fixed
  exact ⟨cart, accepted, before, _, _, happened, rfl, waiting_held, _,
    List.mem_append_right _ (List.mem_singleton.mpr rfl), rfl⟩

end Machine

end GameBoy
