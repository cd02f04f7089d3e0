import GameBoy.Proofs.InstructionFrame
import GameBoy.Proofs.Subroutines

/-!
What loads, arithmetic and shifts do to the registers, on a machine with devices or without: a read
can change a device, but nothing of the console. Main statements: `step_loadA`, `step_alu`,
`step_daa` and `step_shift`, and `step_shift_memory` for a byte in RAM.
-/

namespace GameBoy

section Settled

variable (cpu : Cpu) (wasPending : Bool)

@[simp] theorem Cpu.get_settle (r : Register) : (cpu.settle wasPending).get r = cpu.get r := by
  rw [Cpu.settle_eq]
  cases r <;> rfl

@[simp] theorem Cpu.f_settle : (cpu.settle wasPending).f = cpu.f := by
  rw [Cpu.settle_eq]

@[simp] theorem Cpu.sp_settle : (cpu.settle wasPending).sp = cpu.sp := by
  rw [Cpu.settle_eq]

@[simp] theorem Cpu.getPair_settle (p : Pair) :
    (cpu.settle wasPending).getPair p = cpu.getPair p := by
  rw [Cpu.settle_eq]
  cases p <;> rfl

end Settled

/-- No source moves the accumulator. -/
theorem Source.a_used (source : Source) (cpu : Cpu) : (source.used cpu).a = cpu.a := by
  have still : source.moves .a = false := by
    cases source with
    | place p => cases p <;> rfl
    | immediate v => rfl
  exact source.get_used still cpu

/-- Only PC has moved. -/
def Cpu.MovesTo (cpu after : Cpu) : Prop := ∃ pc, after = { cpu with pc }

theorem Cpu.MovesTo.trans {first second third : Cpu} (moved : first.MovesTo second)
    (again : second.MovesTo third) : first.MovesTo third := by
  obtain ⟨pc, rfl⟩ := moved
  obtain ⟨last, rfl⟩ := again
  exact ⟨last, rfl⟩

namespace Machine

/-- A read leaves the console alone, whatever it does to a device. -/
theorem console_read (m : Machine σ) (address : UInt16) :
    (m.read address).2.console = m.console := by
  unfold read
  split <;> rfl

/-- The processor once it has fetched and decoded what is at PC. -/
def decoded (m : Machine σ) : Step σ :=
  ((Instruction.decode (Exec.fetch (σ := σ))).run { machine := m }).2

/-- The byte that a source gives to the instruction at PC. -/
def operand (m : Machine σ) (source : Source) : UInt8 := ((Exec.readSource source).run m.decoded).1

end Machine

namespace Exec

theorem movesTo_fetch (s : Step σ) :
    s.machine.console.hw.cpu.MovesTo (fetch.run s).2.machine.console.hw.cpu := by
  refine ⟨s.machine.console.hw.cpu.pc + 1, ?_⟩
  show (Machine.read (s.machine.mapHardware _) _).2.console.hw.cpu = _
  rw [Machine.console_read]
  rfl

theorem movesTo_decode (s : Step σ) :
    s.machine.console.hw.cpu.MovesTo
      ((Instruction.decode fetch).run s).2.machine.console.hw.cpu := by
  let first := fetch.run s
  let second := fetch.run first.2
  let third := fetch.run second.2
  have once := movesTo_fetch s
  have twice := once.trans (movesTo_fetch first.2)
  cases encoding : Encoding.ofOpcode first.1 with
  | complete i =>
    have decoded : (Instruction.decode fetch).run s = (i, first.2) :=
      Instruction.run_decode_complete rfl encoding
    rw [decoded]
    exact once
  | withByte f =>
    have decoded : (Instruction.decode fetch).run s = (f second.1, second.2) :=
      Instruction.run_decode_withByte rfl encoding rfl
    rw [decoded]
    exact twice
  | withWord f =>
    have decoded : (Instruction.decode fetch).run s = (f (Word.join third.1 second.1), third.2) :=
      Instruction.run_decode_withWord rfl encoding rfl rfl
    rw [decoded]
    exact twice.trans (movesTo_fetch second.2)

theorem cpu_readSource (source : Source) (s : Step σ) :
    ((readSource source).run s).2.machine.console.hw.cpu =
      source.used s.machine.console.hw.cpu := by
  have read (m : Machine σ) (address : UInt16) :
      (m.read address).2.console.hw.cpu = m.console.hw.cpu := by
    rw [m.console_read]
  cases source with
  | place p =>
    cases p with
    | register r => rfl
    | _ => exact read _ _
  | immediate v => rfl

end Exec

namespace Machine

variable {m : Machine σ}

theorem movesTo_decoded (m : Machine σ) :
    m.console.hw.cpu.MovesTo m.decoded.machine.console.hw.cpu := Exec.movesTo_decode _

@[simp] theorem operand_immediate (m : Machine σ) (v : UInt8) :
    m.operand (.immediate v) = v := rfl

@[simp] theorem operand_register (m : Machine σ) (r : Register) :
    m.operand (.place (.register r)) = m.console.hw.cpu.get r := by
  obtain ⟨pc, moved⟩ := m.movesTo_decoded
  show m.decoded.machine.console.hw.cpu.get r = _
  rw [moved]
  cases r <;> rfl

/-- Without devices, HL gives the byte that the memory shows there. -/
@[simp] theorem operand_memory (bare : m.handlers = []) :
    m.operand (.place (.indirect .hl)) = m.peek (m.console.hw.cpu.getPair .hl) := by
  have behind : m.decoded.machine = m.withCpu _ := run_decode_bare bare
  show m.decoded.machine.peek _ = _
  rw [behind, peek_withCpu bare]
  rfl

/-- The registers after a source has been read: only PC and HL can have moved. -/
theorem cpu_operand (m : Machine σ) (source : Source) :
    ∃ used, ((Exec.readSource source).run m.decoded).2.machine.console.hw.cpu = used ∧
      used.a = m.console.hw.cpu.a ∧ used.f = m.console.hw.cpu.f := by
  obtain ⟨pc, moved⟩ := m.movesTo_decoded
  refine ⟨_, Exec.cpu_readSource source m.decoded, ?_, ?_⟩
  · rw [moved, Source.a_used]
  · rw [moved, (source.used_beside _).f]

/-- A processor that is not halted runs what it has decoded, and settles the enable. -/
theorem cpu_step (executes : m.upcoming = .executes i) :
    m.step.2.console.hw.cpu =
      ((Exec.execute m.console.hw.cpu.pc i).run m.decoded).2.machine.console.hw.cpu.settle
        m.console.hw.cpu.imePending := by
  obtain ⟨running, rfl⟩ := upcoming_executes executes
  exact congrArg (fun r : Unit × Step σ => r.2.machine.console.hw.cpu) (m.run_step running)

/-- An instruction that works in the registers alone finds them as they were, but for PC. -/
theorem cpu_step_registers (executes : m.upcoming = .executes i) {f : Cpu → Cpu}
    (works : ∀ s : Step σ, ((Exec.execute m.console.hw.cpu.pc i).run s).2.machine.console.hw.cpu =
      f s.machine.console.hw.cpu) :
    ∃ pc, m.step.2.console.hw.cpu =
      (f { m.console.hw.cpu with pc }).settle m.console.hw.cpu.imePending := by
  obtain ⟨pc, moved⟩ := m.movesTo_decoded
  have left := cpu_step executes
  rw [works, moved] at left
  exact ⟨pc, left⟩

/-- A load puts the byte in the accumulator and leaves the flags alone. -/
theorem step_loadA (executes : m.upcoming = .executes (.load (.register .a) source)) :
    m.step.2.console.hw.cpu.a = m.operand source ∧
      m.step.2.console.hw.cpu.f = m.console.hw.cpu.f := by
  obtain ⟨used, read, -, flags⟩ := m.cpu_operand source
  have left := cpu_step executes
  have executed : ((Exec.execute m.console.hw.cpu.pc (.load (.register .a) source)).run
      m.decoded).2.machine.console.hw.cpu = { used with a := m.operand source } :=
    congrArg (fun cpu : Cpu => { cpu with a := m.operand source }) read
  rw [executed] at left
  rw [left]
  exact ⟨Cpu.get_settle _ _ .a, (Cpu.f_settle _ _).trans flags⟩

/-- Arithmetic combines the accumulator with the byte. -/
theorem step_alu (executes : m.upcoming = .executes (.alu op source)) :
    let cpu := m.console.hw.cpu
    let result := Alu.apply op cpu.a (m.operand source) cpu.f
    m.step.2.console.hw.cpu.a = result.1 ∧ m.step.2.console.hw.cpu.f = result.2 := by
  obtain ⟨used, read, a, flags⟩ := m.cpu_operand source
  have left := cpu_step executes
  have executed : ((Exec.execute m.console.hw.cpu.pc (.alu op source)).run
      m.decoded).2.machine.console.hw.cpu =
        let result := Alu.apply op used.a (m.operand source) used.f
        { used with a := result.1, f := result.2 } :=
    congrArg (fun cpu : Cpu =>
      let result := Alu.apply op cpu.a (m.operand source) cpu.f
      { cpu with a := result.1, f := result.2 }) read
  rw [executed, a, flags] at left
  rw [left]
  exact ⟨Cpu.get_settle _ _ .a, Cpu.f_settle _ _⟩

/-- A decimal adjustment mends the accumulator. -/
theorem step_daa (executes : m.upcoming = .executes .daa) :
    let cpu := m.console.hw.cpu
    let result := Alu.decimalAdjust cpu.a cpu.f
    m.step.2.console.hw.cpu.a = result.1 ∧ m.step.2.console.hw.cpu.f = result.2 := by
  obtain ⟨pc, left⟩ := cpu_step_registers executes (f := fun cpu =>
    let result := Alu.decimalAdjust cpu.a cpu.f
    { cpu with a := result.1, f := result.2 }) fun _ => rfl
  rw [left]
  exact ⟨Cpu.get_settle _ _ .a, Cpu.f_settle _ _⟩

/-- A shift replaces the byte of a register, and carry takes the bit that leaves it. -/
theorem step_shift (executes : m.upcoming = .executes (.shift op (.register r))) :
    let cpu := m.console.hw.cpu
    let result := Alu.shift op (cpu.get r) cpu.f.c
    m.step.2.console.hw.cpu.get r = result.1 ∧ m.step.2.console.hw.cpu.f.c = result.2 := by
  obtain ⟨pc, moved⟩ := m.movesTo_decoded
  have left := cpu_step executes
  have executed : ((Exec.execute m.console.hw.cpu.pc (.shift op (.register r))).run
      m.decoded).2.machine.console.hw.cpu =
        let result := Alu.shift op (m.console.hw.cpu.get r) m.console.hw.cpu.f.c
        { { m.console.hw.cpu with pc }.set r result.1 with
          f := Alu.shiftFlags (result.1 = 0) result.2 } := by
    have same : { m.console.hw.cpu with pc }.get r = m.console.hw.cpu.get r := by
      cases r <;> rfl
    rw [← same]
    exact congrArg (fun cpu : Cpu =>
      let result := Alu.shift op (cpu.get r) cpu.f.c
      { cpu.set r result.1 with f := Alu.shiftFlags (result.1 = 0) result.2 }) moved
  rw [executed] at left
  rw [left]
  refine ⟨(Cpu.get_settle ..).trans ?_, congrArg Flags.c (Cpu.f_settle ..)⟩
  cases r <;> rfl

/-- A shift replaces the byte of RAM that HL points to. -/
theorem step_shift_memory (bare : m.handlers = [])
    (executes : m.upcoming = .executes (.shift op (.indirect .hl)))
    (ram : InRam (m.console.hw.cpu.getPair .hl))
    (wram : m.console.hw.wram.size = m.console.hw.model.wramSize) :
    let hl := m.console.hw.cpu.getPair .hl
    let result := Alu.shift op (m.peek hl) m.console.hw.cpu.f.c
    m.step.2.peek hl = result.1 ∧ m.step.2.console.hw.cpu.f.c = result.2 := by
  intro hl result
  have left : m.step.2 = (m.write hl result.1).withCpu _ :=
    congrArg Prod.snd (step_executed bare executes).1
  have bareAfter := (m.write_evolves bare hl result.1).bare bare
  constructor
  · rw [left, peek_withCpu bareAfter, peek_write_ram bare ram wram]
  · have flags := congrArg (fun n : Machine σ => n.console.hw.cpu.f.c)
      (congrArg Prod.snd (step_executed bare executes).1)
    exact flags.trans (congrArg Flags.c (Cpu.f_settle ..))

end Machine

end GameBoy
