import GameBoy.Proofs.BusLog
import GameBoy.Proofs.Programs
import Mathlib.Algebra.GroupWithZero.Nat

/-!
Where the processor's time goes. Every clock is owed before it is spent: to an instruction, to the
handler of an interrupt, or to a block that is copied into video RAM. Main statement:
`clocks_balance`.
-/

namespace GameBoy

/-- What is charged to the processor: the clocks that an instruction takes, entering the handler of
an interrupt, or a block that is copied into video RAM. -/
inductive Charge
  | instruction (clocks : Nat)
  | dispatch
  | block (doubleSpeed : Bool)
deriving DecidableEq

namespace Charge

/-- The clocks that are charged. -/
def clocks : Charge → Nat
  | .instruction clocks => clocks
  | .dispatch => 20
  | .block false => 8
  | .block true => 16

/-- The clocks of many charges. -/
def total (charges : List Charge) : Nat := (charges.map clocks).sum

theorem total_append (charges more : List Charge) :
    total (charges ++ more) = total charges + total more := by
  rw [total, List.map_append, List.sum_append]
  rfl

theorem total_replicate (count : Nat) (charge : Charge) :
    total (List.replicate count charge) = count * charge.clocks := by
  rw [total, List.map_replicate, List.sum_replicate_nat]

end Charge

namespace Console

/-- The charges for copying blocks now. -/
def blockCharges (c : Console) (count : Nat) : List Charge :=
  List.replicate count (.block c.hw.doubleSpeed)

/-- The blocks that a write makes the console copy. -/
def blocksStarted (c : Console) (address : UInt16) (v : UInt8) : Nat :=
  if IoRegister.ofAddress c.hw.isColor address = .vramControl ∧ v < 0x80 ∧
      c.hw.vramDma.active = false then
    (v % 128 + 1).toNat
  else 0

/-- The blocks that the console copies when the display enters horizontal blank. -/
def blocksDue (c : Console) : Nat := if c.hw.vramDma.active then 1 else 0

end Console

/-- What a write charges. -/
def BusWrite.charges (w : BusWrite) : List Charge :=
  w.met.blockCharges (w.met.blocksStarted w.address w.value)

/-- The charge for what the processor begins, if an instruction takes the given clocks. -/
def Activity.charges (clocks : Nat) : Activity → List Charge
  | .waits => []
  | .dispatches _ => [.dispatch]
  | .idles | .executes _ => [.instruction clocks]

namespace Machine

/-- The charges for blocks that are copied in the next clock. -/
def copied (m : Machine σ) : List Charge := m.clockWrites.flatMap BusWrite.charges

/-- The charges of the next clock. -/
def clockCharges (m : Machine σ) : List Charge :=
  m.activity.charges m.clockChips.serveInterrupts.step.1.toNat ++ m.copied

/-- The machine at the beginning of each clock of an operation. -/
def clocksOf (m : Machine σ) : Operation → List (Machine σ)
  | .tick => m.tickClocks
  | .run count => runClocks count m
  | _ => []

/-- What an operation charges by itself. -/
def outside (m : Machine σ) : Operation → List Charge
  | .write address v => m.console.blockCharges (m.console.blocksStarted address v)
  | .hblank => m.console.blockCharges m.console.blocksDue
  | _ => []

/-- The charges of an operation. -/
def charges (m : Machine σ) (op : Operation) : List Charge :=
  m.outside op ++ (m.clocksOf op).flatMap clockCharges

/-- The machine at the beginning of each clock of a session. -/
def sessionClocks (m : Machine σ) : List Operation → List (Machine σ)
  | [] => []
  | op :: rest => m.clocksOf op ++ (m.perform op).2.sessionClocks rest

/-- The charges of a session. -/
def sessionCharges (m : Machine σ) : List Operation → List Charge
  | [] => []
  | op :: rest => m.charges op ++ (m.perform op).2.sessionCharges rest

/-- The clocks that are owed: those before the next instruction, and those that it will be charged
with for transfers. -/
def owed (m : Machine σ) : Nat :=
  m.console.hw.cyclesPending.toNat + m.console.hw.stall.toNat

/-- The time that transfers take in the next clock fits into its counter, and so do the clocks that
an instruction is charged with. Those for entering a handler are not added to it. -/
structure ClockFits (m : Machine σ) : Prop where
  copied : m.console.hw.stall.toNat + Charge.total m.copied < 2 ^ 32
  charged : (∀ line, m.activity ≠ .dispatches line) →
    m.console.hw.stall.toNat + Charge.total m.clockCharges < 2 ^ 32

/-- All that an operation charges fits into its counters. -/
structure Fits (m : Machine σ) (op : Operation) : Prop where
  outside : m.console.hw.stall.toNat + Charge.total (m.outside op) < 2 ^ 32
  clocks : ∀ p ∈ m.clocksOf op, p.ClockFits

/-- All that a session charges fits into its counters. -/
def SessionFits (m : Machine σ) : List Operation → Prop
  | [] => True
  | op :: rest => m.Fits op ∧ (m.perform op).2.SessionFits rest

end Machine

/-! Blocks. -/

namespace Console

theorem toNat_blockStall (c : Console) :
    c.blockStall.toNat = (Charge.block c.hw.doubleSpeed).clocks := by
  unfold blockStall
  cases c.hw.doubleSpeed <;> rfl

theorem total_blockCharges (c : Console) (count : Nat) :
    Charge.total (c.blockCharges count) = count * c.blockStall.toNat := by
  rw [blockCharges, Charge.total_replicate, toNat_blockStall]

theorem blockStall_copyVramBlocks (c : Console) (count : Nat) :
    (c.copyVramBlocks count).blockStall = c.blockStall := by
  obtain ⟨vram, vramDma, stall, copied⟩ := c.copyVramBlocks_eq count
  rw [copied]
  rfl

/-- Each block takes its time from the processor. -/
theorem toNat_stall_copyVramBlocks (c : Console) (count : Nat)
    (fits : c.hw.stall.toNat + Charge.total (c.blockCharges count) < 2 ^ 32) :
    (c.copyVramBlocks count).hw.stall.toNat =
      c.hw.stall.toNat + Charge.total (c.blockCharges count) := by
  rw [total_blockCharges] at fits ⊢
  induction count with
  | zero => rw [Nat.zero_mul]; rfl
  | succ count ih =>
    have more : (count + 1) * c.blockStall.toNat =
        count * c.blockStall.toNat + c.blockStall.toNat := Nat.succ_mul ..
    have before := ih (by omega)
    obtain ⟨vram, -, block⟩ := (c.copyVramBlocks count).copyVramBlock_eq
    rw [copyVramBlocks, block]
    show ((c.copyVramBlocks count).hw.stall + (c.copyVramBlocks count).blockStall).toNat = _
    rw [blockStall_copyVramBlocks, UInt32.toNat_add, before, more]
    omega

theorem stall_mapVramDma (c : Console) (f : VramDma → VramDma) :
    (c.mapVramDma f).hw.stall = c.hw.stall := rfl

theorem toNat_stall_hblank (c : Console)
    (fits : c.hw.stall.toNat + Charge.total (c.blockCharges c.blocksDue) < 2 ^ 32) :
    c.hblank.hw.stall.toNat = c.hw.stall.toNat + Charge.total (c.blockCharges c.blocksDue) := by
  by_cases running : c.hw.vramDma.active = true
  · have due : c.blocksDue = 1 := if_pos running
    rw [due] at fits ⊢
    rw [hblank, if_pos running, stall_mapVramDma]
    exact c.toNat_stall_copyVramBlocks 1 fits
  · have due : c.blocksDue = 0 := if_neg running
    rw [hblank, if_neg running, due]
    rfl

theorem toNat_stall_writeVramControl (c : Console) (v : UInt8) {count : Nat}
    (blocks : count = if v < 0x80 ∧ c.hw.vramDma.active = false then (v % 128 + 1).toNat else 0)
    (fits : c.hw.stall.toNat + Charge.total (c.blockCharges count) < 2 ^ 32) :
    (c.writeVramControl v).hw.stall.toNat =
      c.hw.stall.toNat + Charge.total (c.blockCharges count) := by
  unfold writeVramControl
  by_cases atOnce : v < 0x80
  · rw [if_pos atOnce]
    cases active : c.hw.vramDma.active with
    | true =>
      rw [active, if_neg (fun idle => Bool.noConfusion idle.2)] at blocks
      rw [blocks]
      rfl
    | false =>
      rw [if_pos ⟨atOnce, active⟩] at blocks
      rw [if_neg Bool.false_ne_true, ← blocks]
      exact (c.mapVramDma fun dma => { dma with blocks := v % 128 + 1 }).toNat_stall_copyVramBlocks
        count fits
  · rw [if_neg (fun now => atOnce now.1)] at blocks
    rw [if_neg atOnce, blocks]
    rfl

/-- Writes elsewhere make the console copy nothing. -/
theorem stall_writeRegion (c : Console) (region : Region) (address : UInt16) (v : UInt8)
    (other : IoRegister.ofAddress c.hw.isColor address ≠ .vramControl) :
    (c.writeRegion region address v).hw.stall = c.hw.stall := by
  cases region with
  | rom => exact c.stall_writeRom address v
  | cartRam => exact c.stall_writeRam _ v
  | oam =>
    have stored (oam : Segment 0xA0) :
        ({ c with hw := { c.hw with oam } } : Console).hw.stall = c.hw.stall := rfl
    rw [writeRegion]
    split
    · rfl
    · exact stored _
  | hram =>
    have stored (hram : Segment 0x7F) :
        ({ c with hw := { c.hw with hram } } : Console).hw.stall = c.hw.stall := rfl
    exact stored _
  | io =>
    rw [writeRegion, writeIo]
    cases register : IoRegister.ofAddress c.hw.isColor address with
    | vramControl => exact absurd register other
    | _ => rfl
  | _ => rfl

theorem eq_of_ofAddress_vramControl
    (register : IoRegister.ofAddress color address = .vramControl) : address = 0xFF55 := by
  refine Decidable.byContradiction fun other => ?_
  simp [IoRegister.ofAddress, other, apply_ite (· = IoRegister.vramControl)] at register

/-- What a write charges is added to the time that transfers have taken. -/
theorem toNat_stall_writeRegion (c : Console) (address : UInt16) (v : UInt8)
    (fits : c.hw.stall.toNat + Charge.total (c.blockCharges (c.blocksStarted address v)) < 2 ^ 32) :
    (c.writeRegion (.ofAddress address) address v).hw.stall.toNat =
      c.hw.stall.toNat + Charge.total (c.blockCharges (c.blocksStarted address v)) := by
  by_cases register : IoRegister.ofAddress c.hw.isColor address = .vramControl
  · have region : Region.ofAddress address = .io := by
      rw [eq_of_ofAddress_vramControl register]
      decide
    have written : c.writeIo address v = c.writeVramControl v := by
      rw [writeIo, register]
    rw [region, writeRegion, written]
    refine c.toNat_stall_writeVramControl v ?_ fits
    simp only [blocksStarted, register, true_and]
  · have none : c.blocksStarted address v = 0 := if_neg fun started => register started.1
    rw [stall_writeRegion c _ address v register, none]
    rfl

/-- A write that the bus leads nowhere charges nothing. -/
theorem blocksStarted_elsewhere (c : Console) {address : UInt16} (v : UInt8)
    (elsewhere : Region.ofAddress address ≠ .io) : c.blocksStarted address v = 0 := by
  refine if_neg fun started => elsewhere ?_
  rw [eq_of_ofAddress_vramControl started.1]
  decide

/-- What the writes of a processor charge is added to the time that transfers have taken. -/
theorem Course.toNat_stall {c d : Console} (course : Course shows c log d)
    (io : shows .io = true)
    (fits : c.hw.stall.toNat + Charge.total (log.flatMap BusWrite.charges) < 2 ^ 32) :
    d.hw.stall.toNat = c.hw.stall.toNat + Charge.total (log.flatMap BusWrite.charges) := by
  induction course with
  | start => rfl
  | cpu _ _ ih => exact ih fits
  | @switchSpeed _ d _ ih =>
    have same : d.hw.switchSpeed.stall = d.hw.stall := by
      unfold Hardware.switchSpeed
      split <;> rfl
    exact (congrArg UInt32.toNat same).trans (ih fits)
  | raise _ _ ih => exact ih fits
  | stored _ _ ih =>
    rw [List.flatMap_append, List.flatMap_singleton, Charge.total_append] at fits ⊢
    have before := ih (by omega)
    rw [toNat_stall_writeRegion _ _ _ (before ▸ by rw [Nat.add_assoc]; exact fits), before]
    exact Nat.add_assoc ..
  | @lost _ d address v _ hidden ih =>
    have elsewhere : Region.ofAddress address ≠ .io := by
      intro region
      rw [region, io] at hidden
      cases hidden
    have free : BusWrite.charges { met := d, address, value := v } = [] := by
      rw [BusWrite.charges, blocksStarted_elsewhere d v elsewhere]
      rfl
    rw [List.flatMap_append, List.flatMap_singleton, free, List.append_nil] at fits ⊢
    exact ih fits

end Console

/-! Clocks. -/

namespace Machine

theorem charges_upcoming (m : Machine σ) (clocks : Nat) :
    m.upcoming.charges clocks = [.instruction clocks] := by
  unfold upcoming
  split <;> rfl

/-- One clock is spent. -/
theorem owed_countDown {m : Machine σ} (waiting : m.console.hw.cyclesPending ≠ 0) :
    1 + m.countDown.owed = m.owed := by
  have left : m.console.hw.cyclesPending.toNat ≠ 0 := fun zero => waiting (UInt32.toNat.inj zero)
  have below := m.console.hw.cyclesPending.toNat_lt
  show 1 + ((m.console.hw.cyclesPending - 1).toNat + m.console.hw.stall.toNat) =
    m.console.hw.cyclesPending.toNat + m.console.hw.stall.toNat
  simp only [UInt32.toNat_sub, UInt32.reduceToNat]
  omega

theorem owed_between {m : Machine σ} (between : m.console.hw.cyclesPending = 0) :
    m.owed = m.console.hw.stall.toNat := by
  rw [owed, between]
  exact Nat.zero_add _

/-- An instruction is charged with its own clocks and with those that transfers have taken. -/
theorem owed_beginInstruction (m : Machine σ) (between : m.console.hw.cyclesPending = 0)
    (course : m.console.Course m.shows log m.step.2.console)
    (fits : m.console.hw.stall.toNat +
      (m.step.1.toNat + Charge.total (log.flatMap BusWrite.charges)) < 2 ^ 32) :
    m.beginInstruction.console.hw.cyclesPending ≠ 0 ∧
      m.beginInstruction.owed =
        m.owed + (m.step.1.toNat + Charge.total (log.flatMap BusWrite.charges)) := by
  obtain ⟨least, -⟩ := m.clocks_step
  have taken := course.toNat_stall rfl (by omega)
  have pending : (m.step.1 + m.step.2.console.hw.stall).toNat =
      m.step.1.toNat + m.step.2.console.hw.stall.toNat := by
    rw [UInt32.toNat_add]
    omega
  rw [m.owed_between between, m.beginInstruction_eq between]
  constructor
  · intro zero
    have zero : m.step.1 + m.step.2.console.hw.stall = 0 := zero
    rw [zero] at pending
    simp only [UInt32.reduceToNat] at pending
    omega
  · show (m.step.1 + m.step.2.console.hw.stall).toNat + 0 = _
    omega

/-- Entering a handler is charged with its own clocks, and the time that transfers take while PC is
pushed stays owed. -/
theorem owed_dispatch (m : Machine σ) (bare : m.handlers = [])
    (between : m.console.hw.cyclesPending = 0) (line : Interrupt)
    (fits : m.console.hw.stall.toNat + Charge.total (m.pushes.flatMap BusWrite.charges) < 2 ^ 32) :
    (m.dispatch line).owed = m.owed + (20 + Charge.total (m.pushes.flatMap BusWrite.charges)) := by
  have taken := (m.pushes_course bare).toNat_stall rfl fits
  rw [m.owed_between between]
  show 20 + (m.dispatch line).console.hw.stall.toNat = _
  have same : (m.dispatch line).console.hw.stall = m.pushed.console.hw.stall := rfl
  rw [same, taken]
  omega

/-- What is owed after a clock, and the clock itself, is what was owed and what has been charged. -/
theorem clock_balance (m : Machine σ) (bare : m.handlers = []) (fits : m.ClockFits) :
    1 + m.clock.owed = m.owed + Charge.total m.clockCharges := by
  have bareChips := m.clockChips_evolves.bare bare
  have chips := m.clockChips_beside
  have sameOwed : m.clockChips.owed = m.owed := by
    rw [owed, chips.cyclesPending, chips.stall]
    rfl
  obtain ⟨n, works, clocked, -⟩ := m.clock_logged bare
  obtain ⟨copied, charged⟩ := fits
  unfold clockCharges Machine.copied at charged
  unfold Machine.copied at copied
  unfold clockCharges Machine.copied
  rw [← chips.stall] at copied charged
  rw [clocked, ← sameOwed, Charge.total_append]
  generalize m.activity = activity at works charged
  generalize m.clockWrites = log at works copied charged
  generalize m.clockChips = p at works copied charged bareChips
  cases works with
  | waits waiting =>
    rw [owed_countDown waiting]
    rfl
  | @dispatches line between next enabled =>
    have entered := p.wake.owed_dispatch bareChips between line copied
    rw [owed_countDown (show dispatchClocks ≠ 0 by decide), entered]
    rfl
  | @begins k _ start served between few course =>
    have same : k.owed = p.owed ∧ k.console.hw.stall = p.console.hw.stall ∧ k.shows = p.shows := by
      rcases start with rfl | rfl
      · exact ⟨rfl, rfl, rfl⟩
      · exact ⟨rfl, rfl, rfl⟩
    obtain ⟨sameOwed, sameStall, sameBus⟩ := same
    rw [← sameBus] at course
    have room := charged k.upcoming_ne
    rw [served, charges_upcoming, Charge.total_append, ← sameStall] at room
    obtain ⟨waiting, begun⟩ := k.owed_beginInstruction between course room
    rw [owed_countDown waiting, begun, sameOwed, served, charges_upcoming]
    rfl

theorem tick_owed (m : Machine σ) : m.tick.machine.owed = m.clocksOfTick.owed := by
  have ended := m.tick_beside
  rw [owed, ended.cyclesPending, ended.stall]
  rfl

/-- A tick is one clock or two. -/
theorem tick_balance (m : Machine σ) (bare : m.handlers = [])
    (fits : ∀ p ∈ m.tickClocks, p.ClockFits) :
    m.tickClocks.length + m.tick.machine.owed =
      m.owed + Charge.total (m.tickClocks.flatMap clockCharges) := by
  rw [m.tick_owed]
  rcases m.tickClocks_cases with ⟨clocks, ended⟩ | ⟨clocks, ended⟩
  · rw [clocks] at fits ⊢
    rw [ended, List.flatMap_singleton, List.length_singleton]
    exact m.clock_balance bare (fits m List.mem_cons_self)
  · rw [clocks, List.forall_mem_cons, List.forall_mem_singleton] at fits
    obtain ⟨now, later⟩ := fits
    have first := m.clock_balance bare now
    have second := m.clock.clock_balance ((m.clock_evolves bare).bare bare) later
    rw [clocks, ended, List.flatMap_cons, List.flatMap_singleton, Charge.total_append]
    simp only [List.length_cons, List.length_nil]
    omega

theorem run_balance (count : Nat) (m : Machine σ) (bare : m.handlers = []) (journal : Journal)
    (fits : ∀ p ∈ runClocks count m, p.ClockFits) :
    (runClocks count m).length + (run count m journal).machine.owed =
      m.owed + Charge.total ((runClocks count m).flatMap clockCharges) := by
  induction count generalizing m journal with
  | zero => exact Nat.zero_add _
  | succ count ih =>
    have bareTick := (m.tick_evolves bare).bare bare
    unfold runClocks at fits ⊢
    obtain ⟨fitsNow, fitsLater⟩ := List.forall_mem_append.mp fits
    have ticked := m.tick_balance bare fitsNow
    rw [run, List.length_append, List.flatMap_append, Charge.total_append]
    cases fault : m.tick.fault with
    | none =>
      rw [fault, if_pos rfl] at fitsLater
      have rest := ih m.tick.machine bareTick (journal.record m.tick.saved) fitsLater
      rw [if_pos rfl]
      dsimp only
      omega
    | some fault =>
      rw [if_neg (Option.some_ne_none _)]
      exact ticked

theorem operation_balance (m : Machine σ) (bare : m.handlers = []) (op : Operation)
    (fits : m.Fits op) :
    (m.clocksOf op).length + (m.perform op).2.owed = m.owed + Charge.total (m.charges op) := by
  obtain ⟨outside, clocks⟩ := fits
  cases op with
  | tick => exact m.tick_balance bare clocks
  | run count => exact run_balance count m bare {} clocks
  | read address =>
    show 0 + (m.read address).2.owed = m.owed + 0
    rw [m.read_bare bare]
    exact Nat.zero_add _
  | write address v =>
    have written := (m.write_course bare address v).toNat_stall rfl
    rw [List.flatMap_singleton] at written
    have taken : (m.write address v).console.hw.stall.toNat =
        m.console.hw.stall.toNat + Charge.total (m.outside (.write address v)) := written outside
    show 0 + (m.write address v).owed = m.owed + Charge.total (m.outside (.write address v) ++ [])
    rw [List.append_nil, owed, owed, (m.write_aside bare address v).cyclesPending, taken]
    omega
  | hblank =>
    have taken : m.console.hblank.hw.stall.toNat =
        m.console.hw.stall.toNat + Charge.total (m.outside .hblank) :=
      m.console.toNat_stall_hblank outside
    have pending := m.console.hblank_apart.cyclesPending
    show 0 + (m.console.hblank.hw.cyclesPending.toNat + m.console.hblank.hw.stall.toNat) =
      m.owed + Charge.total (m.outside .hblank ++ [])
    rw [List.append_nil, owed, pending, taken]
    omega
  | _ => exact Nat.zero_add _

/-! Room. -/

theorem total_charges_le (w : BusWrite) : Charge.total w.charges ≤ 2048 := by
  have few : w.met.blocksStarted w.address w.value ≤ 128 := by
    unfold Console.blocksStarted
    split
    · exact Console.blocks_le w.value
    · exact Nat.zero_le _
  have rate : (Charge.block w.met.hw.doubleSpeed).clocks ≤ 16 := by
    cases w.met.hw.doubleSpeed <;> decide
  rw [BusWrite.charges, Console.blockCharges, Charge.total_replicate]
  exact Nat.mul_le_mul few rate

theorem total_writes_le (log : List BusWrite) :
    Charge.total (log.flatMap BusWrite.charges) ≤ 2048 * log.length := by
  induction log with
  | nil => exact Nat.le_refl _
  | cons w log ih =>
    have first := total_charges_le w
    rw [List.flatMap_cons, Charge.total_append, List.length_cons]
    omega

/-- A clock makes two writes at most. -/
theorem length_clockWrites_le (m : Machine σ) (bare : m.handlers = []) :
    m.clockWrites.length ≤ 2 := by
  obtain ⟨n, works, -, -⟩ := m.clock_logged bare
  generalize m.activity = activity at works
  generalize m.clockWrites = log at works
  cases works with
  | waits => exact Nat.zero_le _
  | dispatches => exact Nat.le_refl _
  | begins _ _ _ few => exact few

/-- Whatever happens in a clock fits as long as this much room is left. -/
theorem clockFits_of_room {m : Machine σ} (bare : m.handlers = [])
    (room : m.console.hw.stall.toNat + 2 ^ 13 < 2 ^ 32) : m.ClockFits := by
  have few := m.length_clockWrites_le bare
  have copied : Charge.total m.copied ≤ 2048 * m.clockWrites.length := total_writes_le _
  obtain ⟨-, most⟩ := m.clockChips.serveInterrupts.clocks_step
  have begun (activity : Activity) :
      Charge.total (activity.charges m.clockChips.serveInterrupts.step.1.toNat) ≤ 28 := by
    cases activity with
    | waits => exact Nat.zero_le _
    | dispatches => exact (by decide : 20 ≤ 28)
    | idles | executes => exact most
  have charged : Charge.total m.clockCharges ≤ 28 + Charge.total m.copied := by
    rw [clockCharges, Charge.total_append]
    exact Nat.add_le_add_right (begun _) _
  exact ⟨by omega, fun _ => by omega⟩

/-- No clock is lost and none is spent twice. Whatever a session does, the clocks that it spends and
those that are owed in the end are the clocks that were owed in the beginning and those that have
been charged: for each instruction what it costs, for each interrupt that is served twenty, and for
each block that is copied eight, or sixteen at double speed. -/
theorem clocks_balance {m : Machine σ} (bare : m.handlers = []) {operations : List Operation}
    (fits : m.SessionFits operations) :
    (m.sessionClocks operations).length +
        ((m.after operations).console.hw.cyclesPending.toNat +
          (m.after operations).console.hw.stall.toNat) =
      m.console.hw.cyclesPending.toNat + m.console.hw.stall.toNat +
        Charge.total (m.sessionCharges operations) := by
  induction operations generalizing m with
  | nil => exact Nat.zero_add _
  | cons op rest ih =>
    obtain ⟨now, later⟩ := fits
    have performed := m.operation_balance bare op now
    have rested := ih ((m.perform_keeps bare op).handlers.trans bare) later
    have same : m.after (op :: rest) = (m.perform op).2.after rest := rfl
    unfold owed at performed
    rw [same, sessionClocks, sessionCharges, List.length_append, Charge.total_append]
    omega

/-- Two blocks are copied by a write from outside, and paid for by the instruction that follows. -/
theorem clocks_balance_transfer :
    let m := powerOn default (some .color) ()
    let operations : List Operation := [.write 0xFF55 0x01, .tick]
    m.handlers = [] ∧ m.SessionFits operations ∧
      m.charges (.write 0xFF55 0x01) = [.block false, .block false] ∧
      (m.sessionClocks operations).length +
          ((m.after operations).console.hw.cyclesPending.toNat +
            (m.after operations).console.hw.stall.toNat) =
        m.console.hw.cyclesPending.toNat + m.console.hw.stall.toNat +
          Charge.total (m.sessionCharges operations) := by
  intro m operations
  have bare : m.handlers = [] := rfl
  have count : m.console.blocksStarted 0xFF55 0x01 = 2 := if_pos ⟨rfl, by decide, rfl⟩
  have started : m.outside (.write 0xFF55 0x01) = [.block false, .block false] := by
    rw [outside, count]
    rfl
  have little : (m.write 0xFF55 0x01).console.hw.stall.toNat ≤ 2048 :=
    m.stall_write_le bare (show 0 + 2048 < 2 ^ 32 by decide) 0xFF55 0x01
  have written : m.Fits (.write 0xFF55 0x01) := by
    constructor
    · rw [started]
      decide
    · exact List.forall_mem_nil _
  have ticked : (m.write 0xFF55 0x01).Fits .tick := by
    constructor
    · exact Nat.lt_of_le_of_lt little (by decide)
    · have normal : (m.write 0xFF55 0x01).console.hw.doubleSpeed = false :=
        (m.write_aside bare 0xFF55 0x01).doubleSpeed
      have once : (m.write 0xFF55 0x01).clocksOf .tick = [m.write 0xFF55 0x01] := by
        rw [clocksOf, tickClocks, normal]
        rfl
      rw [once, List.forall_mem_singleton]
      exact clockFits_of_room ((m.write_evolves bare _ _).bare bare)
        (Nat.lt_of_le_of_lt (Nat.add_le_add_right little _) (by decide))
  have fits : m.SessionFits operations := ⟨written, ticked, trivial⟩
  have charged : m.charges (.write 0xFF55 0x01) = [.block false, .block false] := by
    rw [charges, started]
    rfl
  have balance := clocks_balance bare fits
  exact ⟨bare, fits, charged, balance⟩

end Machine

end GameBoy
