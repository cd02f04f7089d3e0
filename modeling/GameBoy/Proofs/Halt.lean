import GameBoy.Proofs.ClockLatch
import GameBoy.Proofs.DelayedEnable
import GameBoy.Proofs.InstructionFrame
import GameBoy.Proofs.Requests
import GameBoy.Proofs.SpriteTransfer
import GameBoy.Proofs.TimerPeriod
import GameBoy.Proofs.UnitOfWork

/-!
Waiting for an interrupt. While a halted processor has nothing to wake up for, a tick is what the
chips do in it, each for itself, and so any number of ticks can be skipped. It wakes up in the very
clock that would begin an instruction and finds a line pending. Main statement: `halted_waits`.
-/

namespace GameBoy

namespace Hardware

/-- The clocks that a processor owes, one clock later, if it does nothing but idle: it begins to do
so for four clocks at a time, and is charged for the time that transfers into video RAM have
taken. -/
def idle (hw : Hardware) : Hardware :=
  if hw.cyclesPending = 0 then { hw with cyclesPending := 4 + hw.stall - 1, stall := 0 }
  else { hw with cyclesPending := hw.cyclesPending - 1 }

/-- A line is served exactly if one is pending. -/
theorem nextInterrupt?_eq_none_iff (hw : Hardware) :
    hw.nextInterrupt? = none ↔ hw.pendingMask = 0 := by
  rw [nextInterrupt?, List.find?_eq_none]
  constructor
  · intro unserved
    refine UInt8.toNat.inj (Nat.zero_of_testBit_eq_false fun i => ?_)
    rw [pendingMask, UInt8.toNat_and, Nat.testBit_and]
    by_cases line : i < Interrupt.all.length
    · have clear := unserved _ (List.getElem_mem line)
      rw [decide_eq_true_iff, pendingMask_ne_zero_iff, Interrupt.bit_all i line] at clear
      rw [Bool.eq_false_iff.mpr clear, Bool.false_and]
    · have none : (0x1F : UInt8).toNat < 2 ^ i :=
        Nat.lt_of_lt_of_le (by decide) (Nat.pow_le_pow_right Nat.two_pos (Nat.le_of_not_lt line))
      rw [Nat.testBit_lt_two_pow none, Bool.and_false]
  · intro clear line _
    rw [clear, UInt8.zero_and]
    decide

theorem idle_eq (hw : Hardware) :
    hw.idle = { hw with cyclesPending := hw.idle.cyclesPending, stall := hw.idle.stall } := by
  unfold idle
  split <;> rfl

theorem stall_idle_le (hw : Hardware) (count : Nat) :
    (idle^[count] hw).stall.toNat ≤ hw.stall.toNat := by
  induction count with
  | zero => exact Nat.le_refl _
  | succ count ih =>
    rw [Function.iterate_succ_apply']
    refine Nat.le_trans ?_ ih
    generalize idle^[count] hw = now
    unfold idle
    split
    · exact Nat.zero_le _
    · exact Nat.le_refl _

theorem idle_congr {a b : Hardware} (pending : a.cyclesPending = b.cyclesPending)
    (stall : a.stall = b.stall) :
    a.idle.cyclesPending = b.idle.cyclesPending ∧ a.idle.stall = b.idle.stall := by
  simp only [idle, pending, stall]
  split <;> exact ⟨rfl, rfl⟩

theorem clockTimer_eq (hw : Hardware) :
    hw.clockTimer = { hw with timer := hw.clockTimer.timer, io := hw.clockTimer.io } := by
  unfold clockTimer
  split <;> rfl

theorem clockTimer_congr {a b : Hardware} (timer : a.timer = b.timer) (io : a.io = b.io) :
    a.clockTimer.timer = b.clockTimer.timer ∧ a.clockTimer.io = b.clockTimer.io := by
  have left := a.clockTimer_with b.timer b.io
  have right := b.clockTimer_with b.timer b.io
  rw [← timer, ← io] at left
  rw [show a.clockTimer = _ from left, show b.clockTimer = _ from right, timer, io]
  exact ⟨rfl, rfl⟩

/-- The timer makes requests, and leaves all other I/O registers alone. -/
theorem io_clockTimer_iterate (hw : Hardware) (count : Nat) (other : index ≠ Io.interruptFlag) :
    (clockTimer^[count] hw).io.read index = hw.io.read index := by
  induction count with
  | zero => rfl
  | succ count ih =>
    rw [Function.iterate_succ_apply', ← ih, clockTimer]
    split
    · exact Segment.read_write_ne _ other.symm _
    · rfl

end Hardware

namespace Console

/-- One clock of all but the processor: the chips, and the time that goes by. -/
def waitClock (c : Console) : Console :=
  let c := clockOamDma { c with hw := c.hw.clockTimer }
  { c with hw := c.hw.idle }

/-- One tick of all but the processor. -/
def waitTick (c : Console) : Console :=
  (waitClock^[if c.hw.doubleSpeed then 2 else 1] c).tickCartridge.endTick

/-- A console after some clocks and ticks without the processor, if sprite memory and the transfer
into it are known. -/
def waited (c : Console) (clocks ticks : Nat) (oam : Segment 0xA0) (oamDma : OamDma) : Console :=
  { c with
    hw :=
      { c.hw with
        timer := (Hardware.clockTimer^[clocks] c.hw).timer
        io := (Hardware.clockTimer^[clocks] c.hw).io
        oam
        oamDma
        clock := (tickCartridge^[ticks] c).hw.clock
        cyclesPending := (Hardware.idle^[clocks] c.hw).cyclesPending
        stall := (Hardware.idle^[clocks] c.hw).stall
        cycleCount := c.hw.cycleCount + UInt64.ofNat ticks } }

/-! Each chip for itself. -/

theorem tickCartridge_eq (c : Console) :
    c.tickCartridge = { c with hw := { c.hw with clock := c.tickCartridge.hw.clock } } := by
  unfold tickCartridge
  split <;> rfl

theorem tickCartridge_iterate_eq (c : Console) (count : Nat) :
    tickCartridge^[count] c =
      { c with hw := { c.hw with clock := (tickCartridge^[count] c).hw.clock } } := by
  induction count with
  | zero => rfl
  | succ count ih =>
    rw [Function.iterate_succ_apply']
    generalize tickCartridge^[count] c = d at ih
    rw [d.tickCartridge_eq, ih]

theorem tickCartridge_congr {c d : Console} (cart : d.cart = c.cart)
    (present : d.hw.hasClock = c.hw.hasClock) (clock : d.hw.clock = c.hw.clock) :
    d.tickCartridge.hw.clock = c.tickCartridge.hw.clock := by
  unfold tickCartridge
  rw [cart, present]
  split
  · exact congrArg Clock.tick clock
  · exact clock

theorem latched_tickCartridge_iterate (c : Console) (count : Nat) :
    (tickCartridge^[count] c).hw.clock.latched = c.hw.clock.latched := by
  induction count with
  | zero => rfl
  | succ count ih =>
    rw [Function.iterate_succ_apply']
    exact (tickCartridge_sameLatch _).latched.trans ih

/-- What a transfer can read below sprite memory is the same, and so is what selects its banks. -/
structure SameSource (c d : Console) : Prop where
  cart : d.cart = c.cart
  model : d.hw.model = c.hw.model
  banks : d.hw.banks = c.hw.banks
  vram : d.hw.vram = c.hw.vram
  wram : d.hw.wram = c.hw.wram
  cartRam : d.hw.cartRam = c.hw.cartRam
  latched : d.hw.clock.latched = c.hw.clock.latched
  io : ∀ index, index ≠ Io.interruptFlag → d.hw.io.read index = c.hw.io.read index

namespace SameSource

variable {c d e : Console}

theorem trans (first : c.SameSource d) (second : d.SameSource e) : c.SameSource e where
  cart := second.cart.trans first.cart
  model := second.model.trans first.model
  banks := second.banks.trans first.banks
  vram := second.vram.trans first.vram
  wram := second.wram.trans first.wram
  cartRam := second.cartRam.trans first.cartRam
  latched := second.latched.trans first.latched
  io index other := (second.io index other).trans (first.io index other)

theorem symm (same : c.SameSource d) : d.SameSource c where
  cart := same.cart.symm
  model := same.model.symm
  banks := same.banks.symm
  vram := same.vram.symm
  wram := same.wram.symm
  cartRam := same.cartRam.symm
  latched := same.latched.symm
  io index other := (same.io index other).symm

theorem readRegister (same : c.SameSource d) (register : Nat) :
    d.hw.clock.readRegister register = c.hw.clock.readRegister register := by
  simp only [Clock.readRegister, same.latched]

theorem isColor (same : c.SameSource d) : d.hw.isColor = c.hw.isColor := by
  rw [Hardware.isColor, Hardware.isColor, same.model]

theorem wired (same : c.SameSource d) (below : address.toNat < 0xFE00) :
    d.wired address = c.wired address := by
  have spans := Region.spans_ofAddress address
  unfold Console.wired
  cases region : Region.ofAddress address with
  | oam | unusable | io | hram | interruptEnable =>
    rw [region] at spans
    simp only [Region.Spans] at spans
    omega
  | rom => simp only [readRegion, readRom, romIndex, same.cart, same.banks]
  | wramFixed => simp only [readRegion, same.wram]
  | vram =>
    have bank := same.io Io.vramBank (by decide)
    simp only [readRegion, Hardware.vramIndex, Hardware.vramOffset, same.vram, same.isColor, bank]
  | wramBanked =>
    have bank := same.io Io.wramBank (by decide)
    simp only [readRegion, Hardware.wramIndex, Hardware.wramOffset, same.wram, same.isColor, bank]
  | cartRam =>
    simp only [readRegion, readRam, ramTarget, same.cart, same.banks, same.cartRam,
      same.readRegister]

/-- A clock of the transfer depends on nothing but its source, and on where it is. -/
theorem clockOamDma (same : c.SameSource d) (oam : d.hw.oam = c.hw.oam)
    (oamDma : d.hw.oamDma = c.hw.oamDma) (low : c.hw.oamDma.source.toNat ≤ 0xFD00) :
    d.clockOamDma.hw.oam = c.clockOamDma.hw.oam ∧
      d.clockOamDma.hw.oamDma = c.clockOamDma.hw.oamDma := by
  by_cases running : c.hw.oamDma.active = true
  · by_cases due : (c.hw.oamDma.ticks + 1) % OamDma.ticksPerByte = 0
    · have below : (c.hw.oamDma.source + c.hw.oamDma.bytes.toUInt16).toNat < 0xFE00 := by
        have byte := c.hw.oamDma.bytes.toNat_lt
        rw [UInt16.toNat_add, UInt8.toNat_toUInt16]
        omega
      rw [c.clockOamDma_copies running due below,
        d.clockOamDma_copies (oamDma ▸ running) (oamDma ▸ due) (oamDma ▸ below), oam, oamDma,
        same.wired below]
      exact ⟨rfl, rfl⟩
    · rw [c.clockOamDma_waits running due,
        d.clockOamDma_waits (oamDma ▸ running) (oamDma ▸ due), oam, oamDma]
      exact ⟨rfl, rfl⟩
  · rw [Console.clockOamDma, Console.clockOamDma, if_neg running, if_neg (oamDma ▸ running)]
    exact ⟨oam, oamDma⟩

end SameSource

theorem clockOamDma_sameSource (c : Console) : c.SameSource c.clockOamDma := by
  obtain ⟨oam, oamDma, clocked⟩ := c.clockOamDma_sprites
  rw [clocked]
  exact ⟨rfl, rfl, rfl, rfl, rfl, rfl, rfl, fun _ _ => rfl⟩

theorem clockTimer_sameSource (c : Console) : c.SameSource { c with hw := c.hw.clockTimer } := by
  rw [c.hw.clockTimer_eq]
  exact ⟨rfl, rfl, rfl, rfl, rfl, rfl, rfl, fun _ => c.hw.io_clockTimer_iterate 1⟩

theorem source_clockOamDma (c : Console) :
    c.clockOamDma.hw.oamDma.source = c.hw.oamDma.source := by
  by_cases running : c.hw.oamDma.active = true
  · obtain ⟨oam, clocked⟩ := c.clockOamDma_eq running
    rw [clocked, OamDma.advance]
    split <;> rfl
  · rw [clockOamDma, if_neg running]

theorem clockOamDma_iterate (c : Console) (count : Nat) :
    c.SameSource (clockOamDma^[count] c) ∧
      (clockOamDma^[count] c).hw.oamDma.source = c.hw.oamDma.source := by
  induction count with
  | zero => exact ⟨⟨rfl, rfl, rfl, rfl, rfl, rfl, rfl, fun _ _ => rfl⟩, rfl⟩
  | succ count ih =>
    rw [Function.iterate_succ_apply']
    exact ⟨ih.1.trans (clockOamDma_sameSource _), (source_clockOamDma _).trans ih.2⟩

/-! All of them together. -/

theorem waitClock_eq (c : Console) :
    ∃ oam oamDma,
      clockOamDma { c with hw := c.hw.clockTimer } =
        { c with hw := { c.hw.clockTimer with oam, oamDma } } ∧
      c.waitClock =
        { c with
          hw :=
            { c.hw with
              timer := c.hw.clockTimer.timer
              io := c.hw.clockTimer.io
              oam
              oamDma
              cyclesPending := c.hw.idle.cyclesPending
              stall := c.hw.idle.stall } } := by
  obtain ⟨oam, oamDma, clocked⟩ := clockOamDma_sprites { c with hw := c.hw.clockTimer }
  refine ⟨oam, oamDma, clocked, ?_⟩
  rw [waitClock, clocked, c.hw.clockTimer_eq]
  dsimp only
  rw [Hardware.idle_eq]
  obtain ⟨pending, stall⟩ := Hardware.idle_congr
    (a := { c.hw with timer := c.hw.clockTimer.timer, io := c.hw.clockTimer.io, oam, oamDma })
    (b := c.hw) rfl rfl
  rw [pending, stall]

/-- What becomes of a console without its processor: each chip goes on for itself, and nothing else
changes. The transfer into sprite memory also does if it reads below sprite memory, as every
transfer does that is begun by its register. -/
structure Waits (c : Console) (clocks ticks : Nat) (d : Console) : Prop where
  rest : d = c.waited clocks ticks d.hw.oam d.hw.oamDma
  sprites : c.hw.oamDma.source.toNat ≤ 0xFD00 →
    d.hw.oam = (clockOamDma^[clocks] c).hw.oam ∧ d.hw.oamDma = (clockOamDma^[clocks] c).hw.oamDma

namespace Waits

variable {c d : Console}

theorem refl (c : Console) : c.Waits 0 0 c := by
  refine ⟨?_, fun _ => ⟨rfl, rfl⟩⟩
  show c = { c with hw := { c.hw with cycleCount := c.hw.cycleCount + 0 } }
  rw [UInt64.add_zero]

theorem cpu (waits : c.Waits clocks ticks d) : d.hw.cpu = c.hw.cpu :=
  congrArg (·.hw.cpu) waits.rest

theorem doubleSpeed (waits : c.Waits clocks ticks d) : d.hw.doubleSpeed = c.hw.doubleSpeed :=
  congrArg (·.hw.doubleSpeed) waits.rest

/-- Nothing is reported: no fault waits, and nothing is to be saved. -/
theorem silent (waits : c.Waits clocks ticks d) :
    d.fault = c.fault ∧ d.hw.batteryDirty = c.hw.batteryDirty :=
  ⟨congrArg (·.fault) waits.rest, congrArg (·.hw.batteryDirty) waits.rest⟩

theorem sameSource (waits : c.Waits clocks ticks d) : c.SameSource d := by
  rw [waits.rest]
  exact ⟨rfl, rfl, rfl, rfl, rfl, rfl, c.latched_tickCartridge_iterate ticks,
    fun _ => c.hw.io_clockTimer_iterate clocks⟩

theorem waitClock (waits : c.Waits clocks ticks d) : c.Waits (clocks + 1) ticks d.waitClock := by
  obtain ⟨oam, oamDma, chips, clocked⟩ := d.waitClock_eq
  constructor
  · obtain ⟨before, running, rfl⟩ : ∃ before running, d = c.waited clocks ticks before running :=
      ⟨_, _, waits.rest⟩
    obtain ⟨timer, io⟩ := Hardware.clockTimer_congr
      (a := (c.waited clocks ticks before running).hw) (b := Hardware.clockTimer^[clocks] c.hw)
      rfl rfl
    obtain ⟨pending, stall⟩ := Hardware.idle_congr
      (a := (c.waited clocks ticks before running).hw) (b := Hardware.idle^[clocks] c.hw) rfl rfl
    rw [clocked, timer, io, pending, stall]
    simp only [waited, Function.iterate_succ_apply']
  · intro low
    obtain ⟨sameOam, sameDma⟩ := waits.sprites low
    obtain ⟨source, kept⟩ := c.clockOamDma_iterate clocks
    have same := source.symm.trans (waits.sameSource.trans d.clockTimer_sameSource)
    have timed : d.hw.clockTimer.oam = d.hw.oam ∧ d.hw.clockTimer.oamDma = d.hw.oamDma := by
      rw [d.hw.clockTimer_eq]
      exact ⟨rfl, rfl⟩
    obtain ⟨alone, further⟩ := same.clockOamDma (timed.1.trans sameOam) (timed.2.trans sameDma)
      (kept ▸ low)
    rw [chips] at alone further
    rw [clocked, Function.iterate_succ_apply']
    exact ⟨alone, further⟩

theorem endTick (waits : c.Waits clocks ticks d) (calm : c.fault = none)
    (clean : c.hw.batteryDirty = false) :
    c.Waits clocks (ticks + 1) d.tickCartridge.endTick := by
  refine ⟨?_, ?_⟩
  · obtain ⟨oam, oamDma, rfl⟩ : ∃ oam oamDma, d = c.waited clocks ticks oam oamDma :=
      ⟨_, _, waits.rest⟩
    have alone := c.tickCartridge_iterate_eq ticks
    have clock := tickCartridge_congr (c := tickCartridge^[ticks] c)
      (d := c.waited clocks ticks oam oamDma) (congrArg cart alone).symm
      (congrArg (·.hw.hasClock) alone).symm rfl
    rw [tickCartridge_eq, clock]
    simp only [Console.endTick, waited, Function.iterate_succ_apply', UInt64.ofNat_add,
      UInt64.add_assoc, calm, clean]
    rfl
  · rw [d.tickCartridge_eq]
    exact waits.sprites

theorem waitTick (waits : c.Waits clocks ticks d) (calm : c.fault = none)
    (clean : c.hw.batteryDirty = false) :
    c.Waits (clocks + if c.hw.doubleSpeed then 2 else 1) (ticks + 1) d.waitTick := by
  rw [Console.waitTick, waits.doubleSpeed]
  cases c.hw.doubleSpeed with
  | false =>
    rw [if_neg Bool.false_ne_true, Function.iterate_one]
    exact waits.waitClock.endTick calm clean
  | true =>
    rw [if_pos rfl, Function.iterate_succ_apply, Function.iterate_one]
    exact waits.waitClock.waitClock.endTick calm clean

end Waits

theorem waits_ticks {c : Console} (calm : c.fault = none) (clean : c.hw.batteryDirty = false)
    (count : Nat) :
    c.Waits (count * if c.hw.doubleSpeed then 2 else 1) count (waitTick^[count] c) := by
  induction count with
  | zero =>
    rw [Nat.zero_mul]
    exact .refl c
  | succ count ih =>
    rw [Function.iterate_succ_apply', Nat.succ_mul]
    exact ih.waitTick calm clean

end Console

namespace Machine

variable {m p : Machine σ}

/-- The processor is between two instructions, and a line is pending by the time that it looks. -/
def Wakes (m : Machine σ) : Prop :=
  m.clockChips.console.hw.cyclesPending = 0 ∧ m.clockChips.console.hw.pendingMask ≠ 0

theorem clock_idle (halted : m.console.hw.cpu.halted = true) (quiet : ¬m.Wakes) :
    m.clock = { m with console := m.console.waitClock } := by
  have still : m.clockChips.console.hw.cpu.halted = true := by
    rw [m.clockChips_beside.cpu]
    exact halted
  show _ = m.clockChips.mapHardware Hardware.idle
  rw [clock_eq]
  unfold Wakes at quiet
  generalize m.clockChips = n at still quiet
  by_cases between : n.console.hw.cyclesPending = 0
  · have unserved : n.console.hw.nextInterrupt? = none :=
      n.console.hw.nextInterrupt?_eq_none_iff.mpr (not_not.mp fun due => quiet ⟨between, due⟩)
    rw [serveInterrupts_none between unserved, n.beginInstruction_eq between,
      (step_halted still).1]
    show n.mapHardware (fun hw => { hw with cyclesPending := 4 + hw.stall - 1, stall := 0 }) = _
    exact congrArg (fun hw => n.mapHardware fun _ => hw) (if_pos between).symm
  · have waits : n.serveInterrupts = n := if_neg between
    rw [waits, beginInstruction_waiting between]
    exact congrArg (fun hw => n.mapHardware fun _ => hw) (if_neg between).symm

/-- The clocks of a tick that does not wake the processor. -/
theorem clocksOfTick_idle (halted : m.console.hw.cpu.halted = true)
    (quiet : ∀ p ∈ m.tickClocks, ¬p.Wakes) :
    m.clocksOfTick =
      { m with
        console := Console.waitClock^[if m.console.hw.doubleSpeed then 2 else 1] m.console } := by
  unfold tickClocks at quiet
  cases speed : m.console.hw.doubleSpeed with
  | false =>
    rw [speed] at quiet
    rw [m.clocksOfTick_normal speed, clock_idle halted (quiet m (List.mem_singleton_self m))]
    rfl
  | true =>
    rw [speed] at quiet
    have first := clock_idle halted (quiet m List.mem_cons_self)
    have second := quiet m.clock (List.mem_cons_of_mem _ (List.mem_singleton_self _))
    have still : m.clock.console.hw.cpu.halted = true := by
      rw [first]
      exact (congrArg Cpu.halted (Console.Waits.refl m.console).waitClock.cpu).trans halted
    rw [m.clocksOfTick_double speed, clock_idle still second, first]
    rfl

theorem tick_idle (halted : m.console.hw.cpu.halted = true) (calm : m.console.fault = none)
    (clean : m.console.hw.batteryDirty = false) (quiet : ∀ p ∈ m.tickClocks, ¬p.Wakes) :
    m.tick =
      { machine := { m with console := m.console.waitTick }, saved := none, fault := none } := by
  let d := Console.waitClock^[if m.console.hw.doubleSpeed then 2 else 1] m.console
  have waits : ∃ clocks, m.console.Waits clocks 0 d := by
    unfold d
    cases m.console.hw.doubleSpeed with
    | false => exact ⟨_, (Console.Waits.refl m.console).waitClock⟩
    | true => exact ⟨_, (Console.Waits.refl m.console).waitClock.waitClock⟩
  obtain ⟨clocks, waits⟩ := waits
  have silent : d.tickCartridge.fault = none ∧ ¬d.tickCartridge.hw.batteryDirty = true := by
    rw [d.tickCartridge_eq]
    exact ⟨waits.silent.1.trans calm, Bool.eq_false_iff.mp (waits.silent.2.trans clean)⟩
  rw [tick, clocksOfTick_idle halted quiet]
  show Tick.mk { m with console := d.tickCartridge.endTick }
    (if d.tickCartridge.hw.batteryDirty then _ else _) d.tickCartridge.fault = _
  rw [silent.1, if_neg silent.2]
  rfl

/-- A halted machine that nothing wakes for some ticks, and that has nothing to report. -/
structure Dozes (count : Nat) (m : Machine σ) : Prop where
  halted : m.console.hw.cpu.halted = true
  calm : m.console.fault = none
  clean : m.console.hw.batteryDirty = false
  quiet : ∀ p ∈ runClocks count m, ¬p.Wakes

namespace Dozes

theorem tick (dozes : m.Dozes (count + 1)) :
    m.tick =
      { machine := { m with console := m.console.waitTick }, saved := none, fault := none } :=
  tick_idle dozes.halted dozes.calm dozes.clean fun p member =>
    dozes.quiet p (List.mem_append_left _ member)

theorem next (dozes : m.Dozes (count + 1)) :
    Dozes count { m with console := m.console.waitTick } := by
  have waits := (Console.Waits.refl m.console).waitTick dozes.calm dozes.clean
  obtain ⟨fault, dirty⟩ := waits.silent
  refine ⟨?_, fault.trans dozes.calm, dirty.trans dozes.clean, fun p member => ?_⟩
  · exact (congrArg Cpu.halted waits.cpu).trans dozes.halted
  · refine dozes.quiet p (List.mem_append_right _ ?_)
    rw [dozes.tick]
    exact member

theorem run (dozes : m.Dozes count) (journal : Journal) :
    run count m journal =
      { machine := { m with console := Console.waitTick^[count] m.console }
        journal
        fault := none } := by
  induction count generalizing m with
  | zero => rfl
  | succ count ih =>
    rw [Machine.run, dozes.tick]
    exact ih dozes.next

/-- There is room to count, and to pay for transfers, as long as the processor waits. -/
theorem hasRoomToRun (dozes : m.Dozes count)
    (counted : m.console.hw.cycleCount.toNat + count < 2 ^ 64)
    (stall : m.console.hw.stall.toNat < 2 ^ 32 - 2 ^ 13) : HasRoomToRun count m := by
  induction count generalizing m with
  | zero => trivial
  | succ count ih =>
    have waits := (Console.Waits.refl m.console).waitTick dozes.calm dozes.clean
    refine ⟨⟨by omega, stall⟩, fun _ => ?_⟩
    rw [dozes.tick]
    refine ih dozes.next ?_ ?_
    · have counts := congrArg (fun c : Console => c.hw.cycleCount.toNat) waits.rest
      have next : (m.console.hw.cycleCount + UInt64.ofNat 1).toNat =
          m.console.hw.cycleCount.toNat + 1 := by
        simp only [UInt64.toNat_add, UInt64.toNat_ofNat']
        omega
      rw [show m.console.waitTick.hw.cycleCount.toNat = _ from counts.trans next]
      omega
    · have left := congrArg (fun c : Console => c.hw.stall.toNat) waits.rest
      exact Nat.lt_of_le_of_lt (Nat.le_trans (Nat.le_of_eq left) (Hardware.stall_idle_le _ _)) stall

end Dozes

/-! Waking up. -/

/-- Whatever clock of a tick is the first that wakes the processor, it finds it as it was. -/
theorem tickClocks_undisturbed (halted : m.console.hw.cpu.halted = true)
    (split : m.tickClocks = before ++ p :: later) (quiet : ∀ q ∈ before, ¬q.Wakes) :
    p.handlers = m.handlers ∧ p.console.hw.cpu = m.console.hw.cpu := by
  cases before with
  | nil =>
    have first : p = m := by
      rcases m.tickClocks_cases with ⟨clocks, -⟩ | ⟨clocks, -⟩ <;>
        exact (List.cons.inj (clocks.symm.trans split)).1.symm
    rw [first]
    exact ⟨rfl, rfl⟩
  | cons q before =>
    rcases m.tickClocks_cases with ⟨clocks, -⟩ | ⟨clocks, -⟩
    · have none := (List.cons.inj (clocks.symm.trans split)).2
      exact absurd none.symm (List.append_ne_nil_of_right_ne_nil _ (List.cons_ne_nil _ _))
    · obtain ⟨rfl, rest⟩ := List.cons.inj (clocks.symm.trans split)
      have second : p = m.clock := by
        have last := List.mem_append_right before (List.mem_cons_self (a := p) (l := later))
        rw [show before ++ p :: later = [m.clock] from rest.symm] at last
        exact List.mem_singleton.mp last
      rw [second, clock_idle halted (quiet m List.mem_cons_self)]
      exact ⟨rfl, (Console.Waits.refl m.console).waitClock.cpu⟩

/-- The processor that has been woken is about to run the instruction at PC. -/
theorem upcoming_wake (bare : m.handlers = []) : m.wake.upcoming = .executes m.instruction := by
  have code : m.wake.code = m.code :=
    funext fun _ => peek_withCpu bare { m.console.hw.cpu with halted := false } _
  rw [upcoming_instruction (m := m.wake) bare rfl, instruction, code, instruction]

/-- Not even a HALT stops a processor while a line is pending and interrupts are disabled. -/
theorem halted_step_wake (bare : m.handlers = []) (disabled : m.console.hw.cpu.ime = false)
    (pending : m.console.hw.nextInterrupt? ≠ none) :
    m.wake.step.2.console.hw.cpu.halted = false := by
  obtain ⟨stepped, -⟩ := step_executed (m := m.wake) bare (upcoming_wake bare)
  rw [stepped]
  show ((m.instruction.registers m.wake).settle _).halted = false
  rw [Cpu.settle_eq]
  by_cases halt : m.instruction = .halt
  · have line : m.wake.console.hw.nextInterrupt?.isSome = true :=
      Option.isSome_iff_ne_none.mpr pending
    rw [halt]
    simp only [Instruction.registers, line, Cpu.halt]
    rw [if_pos (by rw [Bool.and_true, Bool.not_eq_true']; exact disabled)]
    rfl
  · exact Instruction.halted_registers m.wake halt

/-- A processor that is woken enters the handler of the most urgent line, or goes on at PC. -/
theorem clock_wakes (bare : p.handlers = []) (due : p.Wakes) :
    let cpu := p.console.hw.cpu
    p.clock.console.hw.cpu.halted = false ∧
      (cpu.ime = true → ∃ line, p.clockChips.console.hw.nextInterrupt? = some line ∧
        p.activity = .dispatches line ∧
        p.clock = (p.clockChips.wake.dispatch line).countDown ∧
        p.clock.console.hw.cpu =
          { cpu with halted := false, sp := cpu.sp - 2, ime := false, pc := line.handler }) ∧
      (cpu.ime = false → p.activity = .executes p.clockChips.instruction ∧
        p.clock = p.clockChips.wake.beginInstruction.countDown) := by
  intro cpu
  have bareChips := p.clockChips_evolves.bare bare
  have same : p.clockChips.console.hw.cpu = cpu := p.clockChips_beside.cpu
  have served : p.clockChips.console.hw.nextInterrupt? ≠ none :=
    mt p.clockChips.console.hw.nextInterrupt?_eq_none_iff.mp due.2
  obtain ⟨n, turn, clocked⟩ := p.clock_cases
  generalize p.activity = activity at turn ⊢
  rw [clocked]
  cases turn with
  | waits waiting => exact absurd due.1 waiting
  | begins _ unserved => exact absurd unserved served
  | @dispatches line between next enabled =>
    have entered : (p.clockChips.wake.dispatch line).console.hw.cpu =
        { cpu with halted := false, sp := cpu.sp - 2, ime := false, pc := line.handler } := by
      rw [(p.clockChips.wake.cpu_dispatch bareChips line).1, ← same]
      rfl
    refine ⟨congrArg Cpu.halted entered, fun _ => ⟨line, next, rfl, rfl, entered⟩, ?_⟩
    intro disabled
    rw [← same, enabled] at disabled
    cases disabled
  | wakes between next disabled =>
    refine ⟨?_, ?_, fun _ => ⟨upcoming_wake bareChips, rfl⟩⟩
    · rw [cpu_beginInstruction (n := p.clockChips.wake) between]
      exact halted_step_wake bareChips disabled served
    · intro enabled
      rw [← same, disabled] at enabled
      cases enabled

/-- A halted machine only waits, and never oversleeps. As long as no line is pending when the next
instruction would begin, a run of any length reports nothing and is what the chips do in it without
the processor: the timer with its requests and the transfer into sprite memory once a clock, the
clock of the cartridge once a tick. The ticks are counted, and nothing else changes. Each chip goes
on for itself, but for a transfer that a restored state lets read the registers, which sees the
timer count. In the first clock in which a line is pending then, the processor wakes up: it enters a
handler, with PC pushed, or goes on with the instruction at PC. -/
theorem halted_waits (m : Machine σ) (bare : m.handlers = [])
    (halted : m.console.hw.cpu.halted = true) (calm : m.console.fault = none)
    (clean : m.console.hw.batteryDirty = false) (ticks : Nat)
    (quiet : ∀ p ∈ runClocks ticks m, ¬p.Wakes) (journal : Journal) :
    let c := m.console
    let d := Console.waitTick^[ticks] c
    let clocks := ticks * m.pace
    let timers := Hardware.clockTimer^[clocks] c.hw
    let sprites := Console.clockOamDma^[clocks] c
    let left := Hardware.idle^[clocks] c.hw
    run ticks m journal = { machine := { m with console := d }, journal, fault := none } ∧
    (c.Sound → c.hw.cycleCount.toNat + ticks < 2 ^ 64 → c.hw.stall.toNat < 2 ^ 32 - 2 ^ 13 →
      run? ticks m journal = some (run ticks m journal)) ∧
    d =
      { c with
        hw :=
          { c.hw with
            timer := timers.timer
            io := timers.io
            oam := d.hw.oam
            oamDma := d.hw.oamDma
            clock := (Console.tickCartridge^[ticks] c).hw.clock
            cyclesPending := left.cyclesPending
            stall := left.stall
            cycleCount := c.hw.cycleCount + UInt64.ofNat ticks } } ∧
    (∀ index, index ≠ Io.interruptFlag → timers.io.read index = c.hw.io.read index) ∧
    (c.hw.oamDma.source.toNat ≤ 0xFD00 →
      d.hw.oam = sprites.hw.oam ∧ d.hw.oamDma = sprites.hw.oamDma) ∧
    ∀ before p later, ({ m with console := d } : Machine σ).tickClocks = before ++ p :: later →
      (∀ q ∈ before, ¬q.Wakes) → p.Wakes →
        let cpu := c.hw.cpu
        p.console.hw.cpu = cpu ∧ p.clock.console.hw.cpu.halted = false ∧
        (cpu.ime = true → ∃ line, p.clockChips.console.hw.nextInterrupt? = some line ∧
          p.activity = .dispatches line ∧
          p.clock = (p.clockChips.wake.dispatch line).countDown ∧
          p.clock.console.hw.cpu =
            { cpu with halted := false, sp := cpu.sp - 2, ime := false, pc := line.handler }) ∧
        (cpu.ime = false → p.activity = .executes p.clockChips.instruction ∧
          p.clock = p.clockChips.wake.beginInstruction.countDown) := by
  intro c d clocks timers sprites left
  have waits := Console.waits_ticks calm clean ticks
  have dozes : m.Dozes ticks := ⟨halted, calm, clean, quiet⟩
  refine ⟨dozes.run journal, ?_, waits.rest, ?_, waits.sprites, ?_⟩
  · intro sound counted stall
    exact run?_eq ticks m bare sound (dozes.hasRoomToRun counted stall) journal
  · exact fun index => c.hw.io_clockTimer_iterate clocks
  · intro before p later split undisturbed due cpu
    have still : d.hw.cpu = cpu := waits.cpu
    obtain ⟨handlers, same⟩ := tickClocks_undisturbed (m := { m with console := d })
      ((congrArg Cpu.halted still).trans halted) split undisturbed
    have wakes := clock_wakes (handlers.trans bare) due
    rw [same.trans still] at wakes
    exact ⟨same.trans still, wakes⟩

/-- A timer that has just overflowed makes its request while the processor idles, and wakes it up
four ticks later. -/
theorem halted_waits_timer :
    let m : Machine Unit := (powerOn default none ()).mapHardware fun hw =>
      { hw with
        cpu := { hw.cpu with ime := true, halted := true }
        ie := 0x04
        timer := { hw.timer with reloadDelay := 2 } }
    let ended := run 4 m {}
    ended.fault = none ∧ ended.machine.console.hw.cpu = m.console.hw.cpu ∧
      ended.machine.activity = .dispatches .timer ∧
      ended.machine.clock.console.hw.cpu.pc = 0x50 := by
  intro m ended
  have quiet : ∀ p ∈ runClocks 4 m, ¬p.Wakes := by
    unfold Wakes
    decide +kernel
  have due : ended.machine.Wakes := by
    unfold Wakes
    decide +kernel
  have normal : ¬ended.machine.console.hw.doubleSpeed = true := by decide +kernel
  have timer : ended.machine.clockChips.console.hw.nextInterrupt? = some .timer := by
    decide +kernel
  obtain ⟨ran : ended = _, -, -, -, -, wakes⟩ := halted_waits m rfl rfl rfl rfl 4 quiet {}
  clear_value ended
  subst ran
  obtain ⟨same, -, dispatches, -⟩ := wakes [] _ [] (if_neg normal) (List.forall_mem_nil _) due
  obtain ⟨line, next, activity, -, entered⟩ := dispatches rfl
  cases next.symm.trans timer
  refine ⟨rfl, same, activity, ?_⟩
  rw [entered]
  rfl

end Machine

end GameBoy
