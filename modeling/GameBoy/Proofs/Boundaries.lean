import GameBoy.Proofs.Execution

/-!
Where instructions end. A listing, the decoder at work and the processor agree on it. Main
statement: `listing_boundaries`.
-/

namespace GameBoy

namespace Instruction

/-- Where an instruction makes the processor go on, if not behind its own bytes. -/
def target? (i : Instruction) (m : Machine σ) : Option UInt16 :=
  let cpu := m.console.hw.cpu
  match i with
  | .jump condition address | .call condition address =>
    if cpu.f.allow condition then some address else none
  | .jumpRelative condition offset =>
    if cpu.f.allow condition then some (cpu.pc + UInt16.ofNat i.size + Word.signExtend offset)
    else none
  | .jumpHl => some (cpu.getPair .hl)
  | .ret condition => if cpu.f.allow condition then some (m.word cpu.sp) else none
  | .reti => some (m.word cpu.sp)
  | .rst vector => some vector.toUInt16
  | .illegal _ => some cpu.pc
  | _ => none

/-- Whether an instruction pushes the address behind it. -/
def calls (i : Instruction) (f : Flags) : Bool :=
  match i with
  | .call condition _ => f.allow condition
  | .rst _ => true
  | _ => false

/-- Whether an instruction pops the address that it goes to. -/
def returns (i : Instruction) (f : Flags) : Bool :=
  match i with
  | .ret condition => f.allow condition
  | .reti => true
  | _ => false

variable (i : Instruction) (m : Machine σ)

theorem pc_registers :
    (i.registers m).pc = (i.target? m).getD (m.console.hw.cpu.pc + UInt16.ofNat i.size) := by
  cases i with
  | halt =>
    obtain ⟨halted, same⟩ := registers_halt m
    rw [same]
    rfl
  | load target source => exact (target.put_beside ..).pc.trans (source.used_beside _).pc
  | loadPair p v | incPair p | decPair p | pop p => exact Cpu.pc_setPair ..
  | inc target | dec target | shift op target | res index target | set index target =>
    exact (target.put_beside ..).pc
  | jump condition address | call condition address | jumpRelative condition offset
  | ret condition =>
    cases allowed : m.console.hw.cpu.f.allow condition
    all_goals
      simp only [registers, target?, entry, allowed]
      rfl
  | _ => rfl

/-- A call that is taken pushes the address behind it, does nothing else to memory, and goes on at
its target. -/
theorem executed_of_calls (called : i.calls m.console.hw.cpu.f = true) :
    let cpu := m.console.hw.cpu
    ∃ target, i.target? m = some target ∧
      m.executed i = (m.storeEach (Word.pushes cpu.sp (cpu.pc + UInt16.ofNat i.size))).withCpu
        ({ cpu with pc := target, sp := cpu.sp - 2 }.settle cpu.imePending) := by
  cases i with
  | call condition address =>
    have allowed : m.console.hw.cpu.f.allow condition = true := called
    simp only [Machine.executed, stores, registers, target?, entry, allowed]
    exact ⟨_, rfl, rfl⟩
  | rst vector => exact ⟨_, rfl, rfl⟩
  | _ => cases called

theorem sp_of_returns (returned : i.returns m.console.hw.cpu.f = true) :
    (i.registers m).sp = m.console.hw.cpu.sp + 2 := by
  cases i with
  | ret condition =>
    have allowed : m.console.hw.cpu.f.allow condition = true := returned
    simp only [registers, entry, allowed]
    rfl
  | reti => rfl
  | _ => cases returned

end Instruction

namespace Machine

variable {m : Machine σ}

/-- A listing shows the instruction that the processor runs, and changes nothing. The processor goes
on behind the bytes that the listing counts, but for a branch that is taken and for an opcode that
locks it up. A call that is taken has pushed the address behind it, and a return has popped the one
that it goes to. Listing and decoding read these bytes, each of them once; only the last byte of a
STOP is left to its execution. -/
theorem listing_boundaries (m : Machine σ) (bare : m.handlers = [])
    (running : m.console.hw.cpu.halted = false) :
    let cpu := m.console.hw.cpu
    ∃ i, disassemble 1 cpu.pc m = ([(cpu.pc, i)], m) ∧
      let behind := cpu.pc + UInt16.ofNat i.size
      let decoded := if i = .stop then 1 else i.size
      m.step.2.console.hw.cpu.pc = (i.target? m).getD behind ∧
      (i.calls cpu.f = true →
        m.step.2 = ((m.write (cpu.sp - 1) (Word.high behind)).write (cpu.sp - 2)
          (Word.low behind)).withCpu m.step.2.console.hw.cpu ∧
        m.step.2.console.hw.cpu.sp = cpu.sp - 2) ∧
      (i.returns cpu.f = true → m.step.2.console.hw.cpu.sp = cpu.sp + 2) ∧
      (∀ opcode, i = .illegal opcode →
        (m.read cpu.pc).1 = opcode ∧
        m.step.2.console.fault = m.console.fault.or (some (.illegalOpcode opcode cpu.pc))) ∧
      disassemble 1 cpu.pc (m.traced []) = ([(cpu.pc, i)], m.traced (m.codeReads decoded)) ∧
      ((Instruction.decode Exec.fetch).run { machine := m.traced [] } =
        (i, { machine := (m.behind decoded).traced (m.codeReads decoded)
              clocks := UInt32.ofNat (4 * decoded) })) ∧
      m.codeReads i.size <+: m.stepAccesses ∧
      (i = .stop → m.stepAccesses = m.codeReads 2) := by
  intro cpu
  obtain ⟨stepped, accesses⟩ := step_instruction bare running
  have left : m.step.2 = m.executed m.instruction := congrArg Prod.snd stepped
  refine ⟨m.instruction, disassemble_one bare, ?_⟩
  intro behind decoded
  have decodedSize : m.instruction.decodedSize = decoded := Instruction.decodedSize_ite _
  rw [left, accesses, ← decodedSize]
  refine ⟨?_, ?_, ?_, ?_, disassemble_traced bare, ?_, ?_, ?_⟩
  · exact (congrArg Cpu.pc (Cpu.settle_eq ..)).trans (m.instruction.pc_registers m)
  · intro called
    obtain ⟨target, -, pushed⟩ := m.instruction.executed_of_calls m called
    have sp := congrArg (fun n : Machine σ => n.console.hw.cpu.sp) pushed
    refine ⟨?_, sp.trans (congrArg Cpu.sp (Cpu.settle_eq ..))⟩
    rw [pushed]
    rfl
  · intro returned
    exact (congrArg Cpu.sp (Cpu.settle_eq ..)).trans (m.instruction.sp_of_returns m returned)
  · intro opcode illegal
    have told := Instruction.all_decodeAt (Encoding.faithful_ofOpcode (m.code 0)) opcode illegal
    rw [illegal, told, code, show UInt16.ofNat 0 = 0 from rfl, UInt16.add_zero]
    exact ⟨rfl, rfl⟩
  · rw [run_decode_traced bare, Scene.toStep]
    simp only [Exec.fetched, length_codeReads]
    rfl
  · exact ⟨_, (List.append_assoc ..).symm⟩
  · intro stop
    rw [stop]
    exact (List.append_nil _).trans (List.append_nil _)

/-- Without an image every byte is the opcode of a call. -/
theorem listing_boundaries_powerOn :
    let m : Machine Unit := .powerOn default none ()
    disassemble 1 0x100 m = ([(0x100, .rst 0x38)], m) ∧
      m.step.2.console.hw.cpu.pc = 0x38 ∧ m.step.2.console.hw.cpu.sp = 0xFFFC := by
  have call : (powerOn default none () : Machine Unit).instruction = .rst 0x38 := by decide
  intro m
  obtain ⟨i, listed, next, called, -⟩ := listing_boundaries m rfl rfl
  have same : i = .rst 0x38 := by
    have entries := (congrArg Prod.fst listed).symm.trans (congrArg Prod.fst (disassemble_one rfl))
    rw [call] at entries
    exact (Prod.mk.inj (List.head_eq_of_cons_eq entries)).2
  subst same
  exact ⟨listed, next, (called rfl).2.trans (by decide)⟩

end Machine

end GameBoy
