import GameBoy.Proofs.BusLog
import GameBoy.Proofs.Programs
import Mathlib.Data.Nat.Bitwise

/-!
What becomes of requested interrupts. A request stays until its line is served or the register at
0xFF0F is written. Main statement: `no_request_lost`.
-/

namespace GameBoy

namespace Interrupt

/-- The number of a line's bit in the request and enable registers. -/
def bit : Interrupt → Nat
  | .vblank => 0
  | .stat => 1
  | .timer => 2
  | .serial => 3
  | .joypad => 4

theorem toNat_mask (line : Interrupt) : line.mask.toNat = 2 ^ line.bit := by
  cases line <;> rfl

/-- The lines are listed by the numbers of their bits. -/
theorem bit_all (i : Nat) (inside : i < all.length) : all[i].bit = i := by
  revert i
  decide

theorem testBit_not_mask (line : Interrupt) (below : i < 8) :
    (~~~line.mask).toNat.testBit i = decide (i ≠ line.bit) := by
  revert i
  cases line <;> decide

end Interrupt

namespace Hardware

theorem testBit_request (hw : Hardware) (line : Interrupt) (i : Nat) :
    (hw.request line).requested.toNat.testBit i =
      (hw.requested.toNat.testBit i || decide (i = line.bit)) := by
  rw [request, requested_setRequested, UInt8.toNat_or, Nat.testBit_or, line.toNat_mask,
    Nat.testBit_two_pow]
  simp only [eq_comm]

theorem testBit_acknowledge (hw : Hardware) (line : Interrupt) (i : Nat) :
    (hw.acknowledge line).requested.toNat.testBit i =
      (hw.requested.toNat.testBit i && decide (i ≠ line.bit)) := by
  rw [acknowledge, requested_setRequested, UInt8.toNat_and, Nat.testBit_and]
  by_cases below : i < 8
  · rw [line.testBit_not_mask below]
  · have none : hw.requested.toNat.testBit i = false :=
      Nat.testBit_lt_two_pow (Nat.lt_of_lt_of_le hw.requested.toNat_lt
        (Nat.pow_le_pow_right (by decide) (Nat.not_lt.mp below)))
    rw [none, Bool.false_and, Bool.false_and]

/-- The timer makes requests and takes none back. -/
theorem testBit_clockTimer {hw : Hardware} (asked : hw.requested.toNat.testBit i = true) :
    hw.clockTimer.requested.toNat.testBit i = true := by
  unfold clockTimer
  split
  · rw [testBit_request]
    exact Bool.or_eq_true_iff.mpr (.inl asked)
  · exact asked

theorem pendingMask_ne_zero_iff (hw : Hardware) (line : Interrupt) :
    hw.pendingMask &&& line.mask ≠ 0 ↔
      (hw.ie &&& hw.requested).toNat.testBit line.bit = true := by
  have exists_line : Nat.testBit 0x1F line.bit = true := by cases line <;> rfl
  have bits : (hw.pendingMask &&& line.mask).toNat =
      ((hw.ie &&& hw.requested).toNat.testBit line.bit).toNat * 2 ^ line.bit := by
    rw [UInt8.toNat_and, line.toNat_mask, Nat.and_two_pow, pendingMask,
      UInt8.toNat_and, Nat.testBit_and]
    simp only [UInt8.reduceToNat, exists_line, Bool.and_true]
  rw [Ne, ← UInt8.toNat_inj, bits]
  cases (hw.ie &&& hw.requested).toNat.testBit line.bit with
  | false => simp
  | true => simp

/-- The line that is served has the lowest bit of those that are enabled and requested. -/
theorem nextInterrupt?_lowest {hw : Hardware} (next : hw.nextInterrupt? = some line) :
    (hw.ie &&& hw.requested).toNat.testBit line.bit = true ∧
      ∀ i < line.bit, (hw.ie &&& hw.requested).toNat.testBit i = false := by
  obtain ⟨pending, index, inside, found, earlier⟩ := List.find?_eq_some_iff_getElem.mp next
  refine ⟨(hw.pendingMask_ne_zero_iff line).mp (of_decide_eq_true pending), ?_⟩
  intro i lower
  have position : line.bit = index := found ▸ Interrupt.bit_all index inside
  rw [position] at lower
  have clear := earlier i lower
  rw [Bool.not_eq_true', decide_eq_false_iff_not, pendingMask_ne_zero_iff,
    Interrupt.bit_all i (Nat.lt_trans lower inside), Bool.not_eq_true] at clear
  exact clear

end Hardware

namespace Console

/-- I/O memory is written in its own region only. -/
theorem io_writeRegion (c : Console) (other : region ≠ .io) (address : UInt16) (v : UInt8) :
    (c.writeRegion region address v).hw.io = c.hw.io := by
  cases region with
  | io => contradiction
  | rom =>
    obtain ⟨banks, clock, fault, written⟩ := c.writeRom_eq address v
    rw [writeRegion, written]
  | cartRam =>
    obtain ⟨cartRam, clock, batteryDirty, written⟩ := c.writeRam_eq (address.toNat % ramBankSize) v
    rw [writeRegion, written]
  | oam =>
    have stored (oam : Segment 0xA0) :
        ({ c with hw := { c.hw with oam } } : Console).hw.io = c.hw.io := rfl
    rw [writeRegion]
    split
    · rfl
    · exact stored _
  | hram =>
    have stored (hram : Segment 0x7F) :
        ({ c with hw := { c.hw with hram } } : Console).hw.io = c.hw.io := rfl
    exact stored _
  | _ => rfl

theorem eq_of_ofAddress_interruptFlag
    (register : IoRegister.ofAddress color address = .interruptFlag) : address = 0xFF0F := by
  refine Decidable.byContradiction fun other => ?_
  simp [IoRegister.ofAddress, other, apply_ite (· = IoRegister.interruptFlag)] at register

/-- Only a write to 0xFF0F changes the requests. -/
theorem requested_writeRegion (c : Console) {address : UInt16} (other : address ≠ 0xFF0F)
    (v : UInt8) : (c.writeRegion (.ofAddress address) address v).hw.requested = c.hw.requested := by
  by_cases region : Region.ofAddress address = .io
  · have spans := Region.spans_ofAddress address
    have elsewhere {index : Nat} {v : UInt8} (apart : index ≠ Io.interruptFlag) :
        (c.hw.io.write index v).read Io.interruptFlag = c.hw.io.read Io.interruptFlag :=
      Segment.read_write_ne _ apart _
    rw [region] at spans ⊢
    rw [writeRegion, writeIo]
    cases register : IoRegister.ofAddress c.hw.isColor address with
    | interruptFlag => exact absurd (eq_of_ofAddress_interruptFlag register) other
    | speed | vramBank | wramBank => exact elsewhere (by decide)
    | plain => exact elsewhere (plain_other spans register)
    | vramControl =>
      obtain ⟨vram, vramDma, stall, written⟩ := c.writeVramControl_eq v
      dsimp only
      rw [written]
      rfl
    | _ => rfl
  · exact congrArg (·.read Io.interruptFlag) (c.io_writeRegion region address v)

theorem requested_switchSpeed (hw : Hardware) : hw.switchSpeed.requested = hw.requested := by
  unfold Hardware.switchSpeed
  split
  · exact Segment.read_write_ne _ (by decide) _
  · rfl

/-- A processor that does not write to 0xFF0F leaves the requests alone. -/
theorem Course.requested {c d : Console} (course : Course shows c log d)
    (elsewhere : ∀ w ∈ log, w.address ≠ 0xFF0F) : d.hw.requested = c.hw.requested := by
  induction course with
  | start => rfl
  | cpu _ _ ih => exact ih elsewhere
  | switchSpeed _ ih => exact (requested_switchSpeed _).trans (ih elsewhere)
  | raise _ _ ih => exact ih elsewhere
  | stored _ _ ih =>
    obtain ⟨before, last⟩ := List.forall_mem_append.mp elsewhere
    exact (requested_writeRegion _ (last _ (List.mem_singleton.mpr rfl)) _).trans (ih before)
  | lost _ _ ih => exact ih (List.forall_mem_append.mp elsewhere).1

end Console

namespace Machine

theorem testBit_clockChips {m : Machine σ}
    (asked : m.console.hw.requested.toNat.testBit i = true) :
    m.clockChips.console.hw.requested.toNat.testBit i = true := by
  rw [Hardware.requested, m.io_clockChips]
  exact Hardware.testBit_clockTimer asked

/-- Entering a handler takes back the request of its line and no other, unless it pushes to the
register of requests. -/
theorem testBit_dispatch (m : Machine σ) (bare : m.handlers = []) (line : Interrupt)
    (elsewhere : ∀ w ∈ m.pushes, w.address ≠ 0xFF0F) (i : Nat) :
    (m.dispatch line).console.hw.requested.toNat.testBit i =
      (m.console.hw.requested.toNat.testBit i && decide (i ≠ line.bit)) := by
  have same := (m.pushes_course bare).requested elsewhere
  rw [← same]
  exact Hardware.testBit_acknowledge _ line i

/-- What a clock does to a request. -/
theorem testBit_clock (m : Machine σ) (bare : m.handlers = [])
    (asked : m.console.hw.requested.toNat.testBit b = true) :
    m.clock.console.hw.requested.toNat.testBit b = true ∨
      (∃ line, m.activity = .dispatches line ∧ line.bit = b) ∨
        ∃ w ∈ m.clockWrites, w.address = 0xFF0F := by
  by_cases written : ∃ w ∈ m.clockWrites, w.address = 0xFF0F
  · exact .inr (.inr written)
  · have elsewhere : ∀ w ∈ m.clockWrites, w.address ≠ 0xFF0F :=
      fun w happens there => written ⟨w, happens, there⟩
    have bareChips := m.clockChips_evolves.bare bare
    have askedChips := testBit_clockChips asked
    obtain ⟨n, works, clocked, -⟩ := m.clock_logged bare
    rw [clocked]
    generalize m.activity = activity at works
    generalize m.clockWrites = log at works elsewhere
    cases works with
    | waits => exact .inl askedChips
    | @dispatches line =>
      by_cases served : line.bit = b
      · exact .inr (.inl ⟨line, rfl, served⟩)
      · left
        have taken := testBit_dispatch m.clockChips.wake bareChips line elsewhere b
        have kept : decide (b ≠ line.bit) = true := decide_eq_true (Ne.symm served)
        rw [kept, Bool.and_true] at taken
        exact taken.trans askedChips
    | @begins k _ start _ between _ course =>
      left
      have chips : k.console.hw.requested = m.clockChips.console.hw.requested := by
        rcases start with same | woken
        · rw [same]
        · rw [woken]
          rfl
      rw [k.beginInstruction_eq between]
      exact (congrArg (·.toNat.testBit b) ((course.requested elsewhere).trans chips)).trans
        askedChips

/-- The end of a tick has nothing to do with I/O memory. -/
theorem io_tick (m : Machine σ) : m.tick.machine.console.hw.io = m.clocksOfTick.console.hw.io := by
  have same (c : Console) : c.tickCartridge.hw.io = c.hw.io := by
    unfold Console.tickCartridge
    split <;> rfl
  exact same _

/-- A request that is there before a tick and not after it has been served, or the register of
requests has been written. A line that is served has the lowest bit of those that are enabled and
requested, and unless its handler is entered with a push to one of the two registers, only its own
request is taken back. -/
theorem no_request_lost {m : Machine σ} (bare : m.handlers = []) :
    (∀ b, m.console.hw.requested.toNat.testBit b = true →
      m.tick.machine.console.hw.requested.toNat.testBit b = false →
        ∃ p ∈ m.tickClocks,
          (∃ line, p.activity = .dispatches line ∧ line.bit = b ∧
            p.clock.console.hw.cpu.pc = line.handler) ∨
          ∃ w ∈ p.clockWrites, w.address = 0xFF0F) ∧
    ∀ p ∈ m.tickClocks,
      (p.logged []).clock.console = p.clock.console ∧
      ∀ line, p.activity = .dispatches line →
        let hw := p.clockChips.console.hw
        let pending := (hw.ie &&& hw.requested).toNat
        (∀ address ∈ [hw.cpu.sp - 1, hw.cpu.sp - 2], address ≠ 0xFF0F ∧ address ≠ 0xFFFF) →
          pending.testBit line.bit = true ∧ (∀ i < line.bit, pending.testBit i = false) ∧
          ∀ i, p.clock.console.hw.requested.toNat.testBit i =
            (hw.requested.toNat.testBit i && decide (i ≠ line.bit)) := by
  have bareClock : m.clock.handlers = [] := (m.clock_evolves bare).bare bare
  constructor
  · intro b asked cleared
    have lost (p : Machine σ) (bare : p.handlers = [])
        (asked : p.console.hw.requested.toNat.testBit b = true)
        (cleared : p.clock.console.hw.requested.toNat.testBit b = false) :
        (∃ line, p.activity = .dispatches line ∧ line.bit = b ∧
            p.clock.console.hw.cpu.pc = line.handler) ∨
          ∃ w ∈ p.clockWrites, w.address = 0xFF0F := by
      rcases p.testBit_clock bare asked with kept | ⟨line, dispatches, bit⟩ | written
      · exact Bool.noConfusion (kept.symm.trans cleared)
      · obtain ⟨-, entered, -⟩ := p.clock_dispatches bare dispatches
        have bareChips := p.clockChips_evolves.bare bare
        refine .inl ⟨line, dispatches, bit, ?_⟩
        rw [entered]
        exact congrArg Cpu.pc (p.clockChips.wake.cpu_dispatch bareChips line).1
      · exact .inr written
    rw [Hardware.requested, m.io_tick] at cleared
    rcases m.tickClocks_cases with ⟨clocks, ended⟩ | ⟨clocks, ended⟩
    · rw [ended] at cleared
      rw [clocks]
      exact ⟨m, List.mem_singleton.mpr rfl, lost m bare asked cleared⟩
    · rw [ended] at cleared
      rw [clocks]
      cases first : m.clock.console.hw.requested.toNat.testBit b with
      | false => exact ⟨m, List.mem_cons_self, lost m bare asked first⟩
      | true =>
        exact ⟨m.clock, List.mem_cons_of_mem _ (List.mem_singleton.mpr rfl),
          lost m.clock bareClock first cleared⟩
  · intro p clocked
    have bareP : p.handlers = [] := by
      rcases m.tickClocks_cases with ⟨clocks, -⟩ | ⟨clocks, -⟩
      · rw [clocks, List.mem_singleton] at clocked
        rw [clocked]
        exact bare
      · rw [clocks, List.mem_cons, List.mem_singleton] at clocked
        rcases clocked with rfl | rfl
        · exact bare
        · exact bareClock
    obtain ⟨-, -, -, logged⟩ := p.clock_logged bareP
    refine ⟨congrArg console logged, ?_⟩
    intro line dispatches hw pending elsewhere
    obtain ⟨next, entered, -⟩ := p.clock_dispatches bareP dispatches
    obtain ⟨lowest, lower⟩ := Hardware.nextInterrupt?_lowest next
    refine ⟨lowest, lower, ?_⟩
    intro i
    rw [entered]
    refine testBit_dispatch p.clockChips.wake (p.clockChips_evolves.bare bareP) line ?_ i
    intro w pushed
    rw [pushes, List.mem_cons, List.mem_singleton] at pushed
    rcases pushed with rfl | rfl
    · exact (elsewhere _ List.mem_cons_self).1
    · exact (elsewhere _ (List.mem_cons_of_mem _ (List.mem_singleton.mpr rfl))).1

/-- After power-on a vertical blank is requested. When it is enabled and served, its request is
gone. -/
theorem no_request_lost_vblank :
    let m := (powerOn default (some .monochrome) ()).mapHardware fun hw =>
      { hw with ie := 0x01, cpu := { hw.cpu with ime := true } }
    m.handlers = [] ∧ m.console.hw.requested.toNat.testBit 0 = true ∧
      m.tick.machine.console.hw.requested.toNat.testBit 0 = false ∧
      ∃ p ∈ m.tickClocks,
        (∃ line, p.activity = .dispatches line ∧ line.bit = 0 ∧
          p.clock.console.hw.cpu.pc = line.handler) ∨
        ∃ w ∈ p.clockWrites, w.address = 0xFF0F := by
  intro m
  have bare : m.handlers = [] := rfl
  obtain ⟨lost, served⟩ := no_request_lost bare
  have dispatches : m.activity = .dispatches .vblank := by decide +kernel
  have asked : m.console.hw.requested.toNat.testBit 0 = true := by decide +kernel
  obtain ⟨-, dispatch⟩ := served m List.mem_cons_self
  have sp : m.clockChips.console.hw.cpu.sp = 0xFFFE := by decide +kernel
  have elsewhere : ∀ address ∈ [(0xFFFE : UInt16) - 1, 0xFFFE - 2],
      address ≠ 0xFF0F ∧ address ≠ 0xFFFF := by simp
  obtain ⟨-, -, taken⟩ := dispatch .vblank dispatches (by rw [sp]; exact elsewhere)
  have cleared : m.tick.machine.console.hw.requested.toNat.testBit 0 = false := by
    rw [Hardware.requested, m.io_tick, m.clocksOfTick_normal rfl]
    exact (taken 0).trans (Bool.and_false _)
  exact ⟨bare, asked, cleared, lost 0 asked cleared⟩

end Machine

end GameBoy
