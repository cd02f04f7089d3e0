import GameBoy.Proofs.Execution

/-!
What an instruction leaves alone. Besides the registers that its operands name, it changes only the
bytes that it stores. Main statement: `step_frame`.
-/

namespace GameBoy

/-- Whether using a place moves a register. -/
def Place.moves (r : Register) : Place → Bool
  | .indirectInc | .indirectDec => r = .h || r = .l
  | _ => false

/-- Whether storing to a place changes a register. -/
def Place.changes (r : Register) : Place → Bool
  | .register s => r = s
  | p => p.moves r

def Source.moves (r : Register) : Source → Bool
  | .place p => p.moves r
  | .immediate _ => false

/-- Whether a register is a half of a pair. -/
def Pair.has (r : Register) : Pair → Bool
  | .af => r = .a
  | .bc => r = .b || r = .c
  | .de => r = .d || r = .e
  | .hl => r = .h || r = .l
  | .sp => false

namespace Instruction

/-- The registers that an instruction puts something in. A comparison drops its result. -/
def changes (r : Register) : Instruction → Bool
  | .daa | .cpl | .rotateA _ => r = .a
  | .alu op _ => r = .a && op ≠ .cp
  | .load target source => target.changes r || source.moves r
  | .inc target | .dec target | .shift _ target | .res _ target | .set _ target => target.changes r
  | .loadPair p _ | .incPair p | .decPair p | .pop p => p.has r
  | .loadHlSp _ | .addHl _ => Pair.has r .hl
  | _ => false

/-- The instructions that set flags. -/
def setsFlags : Instruction → Bool
  | .daa | .cpl | .scf | .ccf | .alu .. | .inc _ | .dec _ | .rotateA _ | .shift .. | .bit .. => true
  | .loadHlSp _ | .addSp _ | .addHl _ => true
  | .loadPair p _ | .incPair p | .decPair p | .pop p => p = .af
  | _ => false

/-- The instructions that move the stack pointer. -/
def movesSp (f : Flags) : Instruction → Bool
  | .loadSpHl | .addSp _ | .push _ | .pop _ | .reti | .rst _ => true
  | .loadPair p _ | .incPair p | .decPair p => p = .sp
  | .call condition _ | .ret condition => f.allow condition
  | _ => false

end Instruction

section Registers

variable {r : Register}

theorem Cpu.get_set_ne (cpu : Cpu) {s : Register} (other : r ≠ s) (v : UInt8) :
    (cpu.set s v).get r = cpu.get r := by
  cases s <;> cases r <;> first | rfl | exact absurd rfl other

theorem Cpu.get_setPair (cpu : Cpu) {p : Pair} (other : p.has r = false) (w : UInt16) :
    (cpu.setPair p w).get r = cpu.get r := by
  cases p <;> cases r <;> first | rfl | cases other

theorem Place.get_used {p : Place} (still : p.moves r = false) (cpu : Cpu) :
    (p.used cpu).get r = cpu.get r := by
  cases p with
  | indirectInc | indirectDec => exact cpu.get_setPair (p := .hl) still _
  | _ => rfl

theorem Place.get_put {p : Place} (still : p.changes r = false) (cpu : Cpu) (v : UInt8) :
    (p.put cpu v).get r = cpu.get r := by
  cases p with
  | register s => exact cpu.get_set_ne (of_decide_eq_false still) v
  | indirectInc | indirectDec => exact cpu.get_setPair (p := .hl) still _
  | _ => rfl

theorem Source.get_used {source : Source} (still : source.moves r = false) (cpu : Cpu) :
    (source.used cpu).get r = cpu.get r := by
  cases source with
  | place p => exact p.get_used still cpu
  | immediate v => rfl

theorem Cpu.f_setPair (cpu : Cpu) {p : Pair} (other : p ≠ .af) (w : UInt16) :
    (cpu.setPair p w).f = cpu.f := by
  cases p <;> first | rfl | exact absurd rfl other

theorem Cpu.sp_setPair (cpu : Cpu) {p : Pair} (other : p ≠ .sp) (w : UInt16) :
    (cpu.setPair p w).sp = cpu.sp := by
  cases p <;> first | rfl | exact absurd rfl other

theorem Cpu.halted_setPair (cpu : Cpu) (p : Pair) (w : UInt16) :
    (cpu.setPair p w).halted = cpu.halted := by
  cases p <;> rfl

namespace Instruction

variable (m : Machine σ) {i : Instruction}

/-- A branch changes PC and the stack pointer, and a return may enable interrupts. -/
theorem registers_of_branches (branches : i.branches = true) :
    ∃ pc sp ime, i.registers m = { i.entry m with pc, sp, ime } := by
  cases i with
  | jump condition address | call condition address | jumpRelative condition offset
  | ret condition =>
    cases allowed : m.console.hw.cpu.f.allow condition
    all_goals
      simp only [registers, entry, allowed]
      exact ⟨_, _, _, rfl⟩
  | jumpHl | reti | rst vector | illegal opcode => exact ⟨_, _, _, rfl⟩
  | _ => cases branches

theorem get_registers (other : i.changes r = false) :
    (i.registers m).get r = m.console.hw.cpu.get r := by
  cases branches : i.branches with
  | true =>
    obtain ⟨pc, sp, ime, same⟩ := registers_of_branches m branches
    rw [same]
    cases r <;> rfl
  | false =>
    cases i with
    | jump | jumpHl | jumpRelative | call | ret | reti | rst | illegal => cases branches
    | halt =>
      obtain ⟨halted, same⟩ := registers_halt m
      rw [same]
      cases r <;> rfl
    | daa | cpl | rotateA _ =>
      have : r ≠ .a := of_decide_eq_false other
      cases r <;> first | rfl | exact absurd rfl this
    | alu op source =>
      by_cases accumulator : r = .a
      · subst accumulator
        cases op with
        | cp => rfl
        | _ => cases other
      · cases r <;> first | rfl | exact absurd rfl accumulator
    | load target source =>
      obtain ⟨put, used⟩ := Bool.or_eq_false_iff.mp other
      exact (target.get_put put _ _).trans (source.get_used used _)
    | inc target | dec target | shift op target | res index target | set index target =>
      exact target.get_put other _ _
    | loadPair p v | incPair p | decPair p | pop p => exact Cpu.get_setPair _ other _
    | loadHlSp offset | addHl p => exact Cpu.get_setPair (p := .hl) _ other _
    | _ => rfl

theorem f_registers (other : i.setsFlags = false) :
    (i.registers m).f = m.console.hw.cpu.f := by
  cases branches : i.branches with
  | true =>
    obtain ⟨pc, sp, ime, same⟩ := registers_of_branches m branches
    rw [same]
    rfl
  | false =>
    cases i with
    | jump | jumpHl | jumpRelative | call | ret | reti | rst | illegal => cases branches
    | halt =>
      obtain ⟨halted, same⟩ := registers_halt m
      rw [same]
      rfl
    | load target source => exact (target.put_beside _ _).f.trans (source.used_beside _).f
    | res index target | set index target => exact (target.put_beside _ _).f
    | loadPair p v | incPair p | decPair p | pop p =>
      exact Cpu.f_setPair _ (of_decide_eq_false other) _
    | nop | stop | di | ei | storeSp | loadSpHl | push => rfl
    | _ => cases other

theorem sp_registers (other : i.movesSp m.console.hw.cpu.f = false) :
    (i.registers m).sp = m.console.hw.cpu.sp := by
  cases i with
  | halt =>
    obtain ⟨halted, same⟩ := registers_halt m
    rw [same]
    rfl
  | load target source => exact (target.put_beside _ _).sp.trans (source.used_beside _).sp
  | inc target | dec target | shift op target | res index target | set index target =>
    exact (target.put_beside _ _).sp
  | loadPair p v | incPair p | decPair p => exact Cpu.sp_setPair _ (of_decide_eq_false other) _
  | loadHlSp offset | addHl p => rfl
  | call condition address | ret condition =>
    have refused : m.console.hw.cpu.f.allow condition = false := other
    simp only [registers, entry, refused]
    rfl
  | jump condition address | jumpRelative condition offset =>
    simp only [registers]
    split <;> rfl
  | loadSpHl | addSp | push | pop | reti | rst => cases other
  | _ => rfl

theorem halted_registers (other : i ≠ .halt) :
    (i.registers m).halted = m.console.hw.cpu.halted := by
  cases branches : i.branches with
  | true =>
    obtain ⟨pc, sp, ime, same⟩ := registers_of_branches m branches
    rw [same]
    rfl
  | false =>
    cases i with
    | jump | jumpHl | jumpRelative | call | ret | reti | rst | illegal => cases branches
    | halt => exact absurd rfl other
    | load target source =>
      exact (target.put_beside _ _).halted.trans (source.used_beside _).halted
    | inc target | dec target | shift op target | res index target | set index target =>
      exact (target.put_beside _ _).halted
    | loadPair p v | incPair p | decPair p | pop p => exact Cpu.halted_setPair _ _ _
    | _ => rfl

end Instruction

end Registers

/-- The write that an access is, if it is one. -/
def BusAccess.write? : BusAccess → Option (UInt16 × UInt8)
  | .read _ => none
  | .write address v => some (address, v)

namespace Machine

variable {m : Machine σ}

/-- The writes of an instruction are its stores. -/
theorem writes_accesses (m : Machine σ) (i : Instruction) :
    (m.accesses i).filterMap BusAccess.write? = i.stores m := by
  have none (addresses : List UInt16) :
      (addresses.map BusAccess.read).filterMap BusAccess.write? = [] := by
    simp [BusAccess.write?]
  have all (stores : List (UInt16 × UInt8)) :
      (stores.map BusAccess.store).filterMap BusAccess.write? = stores := by
    rw [List.filterMap_map]
    exact List.filterMap_some
  have code : m.codeReads i.size =
      ((List.range i.size).map (m.console.hw.cpu.pc + UInt16.ofNat ·)).map BusAccess.read := by
    rw [List.map_map]
    rfl
  rw [accesses, code, List.filterMap_append, List.filterMap_append, none, none, all]
  rfl

theorem switchSpeed_eq (m : Machine σ) :
    m.mapHardware (·.switchSpeed) =
      if m.console.hw.isColor = true ∧ m.console.hw.io.read 0x4D % 2 = 1 then
        m.mapHardware fun hw =>
          { hw with
            doubleSpeed := !hw.doubleSpeed
            io := hw.io.write 0x4D (hw.io.read 0x4D &&& 0xFE)
            timer := hw.timer.resetDiv }
      else m := by
  have prepared : (m.console.hw.isColor && m.console.hw.io.read Io.speed % 2 = 1) = true ↔
      m.console.hw.isColor = true ∧ m.console.hw.io.read 0x4D % 2 = 1 := by
    rw [Bool.and_eq_true, decide_eq_true_iff]
    rfl
  by_cases asked : m.console.hw.isColor = true ∧ m.console.hw.io.read 0x4D % 2 = 1
  · rw [if_pos asked]
    exact congrArg (fun hw => m.mapHardware fun _ => hw) (if_pos (prepared.mpr asked))
  · rw [if_neg asked]
    exact congrArg (fun hw => m.mapHardware fun _ => hw) (if_neg (asked ∘ prepared.mp))

/-- What an instruction leaves alone. Apart from the registers it changes what it writes over the
bus, one write after the other, and nothing else: only a STOP changes the speed, if a color model
has been prepared for it, and only an opcode without a meaning records a fault. A register that it
does not name keeps what it holds, and so do the flags, the stack pointer, the enables and the halt
unless they are what the instruction is for. A halted processor changes nothing. -/
theorem step_frame (m : Machine σ) (bare : m.handlers = []) :
    let cpu := m.console.hw.cpu
    let after := m.step.2.console.hw.cpu
    (cpu.halted = true → m.step.2 = m) ∧
    ∀ i, m.upcoming = .executes i →
      m.step.2 =
        (match i with
          | .stop =>
            if m.console.hw.isColor = true ∧ m.console.hw.io.read 0x4D % 2 = 1 then
              m.mapHardware fun hw =>
                { hw with
                  doubleSpeed := !hw.doubleSpeed
                  io := hw.io.write 0x4D (hw.io.read 0x4D &&& 0xFE)
                  timer := hw.timer.resetDiv }
            else m
          | .illegal opcode => m.mapConsole (·.raise (.illegalOpcode opcode cpu.pc))
          | i => m.storeEach (i.stores m)).withCpu after ∧
      m.stepAccesses.filterMap BusAccess.write? = i.stores m ∧
      (∀ r, i.changes r = false → after.get r = cpu.get r) ∧
      (i.setsFlags = false → after.f = cpu.f) ∧
      (i.movesSp cpu.f = false → after.sp = cpu.sp) ∧
      (i ≠ .halt → after.halted = cpu.halted) ∧
      after.enables = i.enables cpu.enables := by
  intro cpu after
  refine ⟨fun halted => congrArg Prod.snd (step_halted halted).1, ?_⟩
  intro i executes
  obtain ⟨stepped, accesses⟩ := step_executed bare executes
  have left : m.step.2 = m.executed i := congrArg Prod.snd stepped
  have settled : after = (i.registers m).settle cpu.imePending :=
    congrArg (fun n : Machine σ => n.console.hw.cpu) left
  have enables := m.enables_step bare
  rw [executes] at enables
  rw [Cpu.settle_eq] at settled
  refine ⟨?_, ?_, ?_, ?_, ?_, ?_, enables⟩
  · have same : m.executed i = (i.aftermath cpu.pc (m.storeEach (i.stores m))).withCpu after :=
      congrArg (fun cpu' => Machine.withCpu _ cpu')
        (congrArg (fun n : Machine σ => n.console.hw.cpu) left).symm
    rw [left, same]
    cases i with
    | stop => exact congrArg (Machine.withCpu · after) m.switchSpeed_eq
    | _ => rfl
  · rw [accesses]
    exact m.writes_accesses i
  · intro r other
    refine .trans ?_ (Instruction.get_registers m other)
    rw [settled]
    cases r <;> rfl
  · intro other
    exact (congrArg Cpu.f settled).trans (Instruction.f_registers m other)
  · intro other
    exact (congrArg Cpu.sp settled).trans (Instruction.sp_registers m other)
  · intro other
    exact (congrArg Cpu.halted settled).trans (Instruction.halted_registers m other)

/-- A call to 0x0038 stores the address behind it below the stack pointer, the high byte first. -/
theorem step_frame_rst :
    let m : Machine Unit := .powerOn default none ()
    let halted := m.withCpu { m.console.hw.cpu with halted := true }
    halted.step.2 = halted ∧
      m.step.2 = ((m.write 0xFFFD 0x01).write 0xFFFC 0x01).withCpu m.step.2.console.hw.cpu ∧
      m.step.2.console.hw.cpu.f = m.console.hw.cpu.f := by
  have call : (powerOn default none () : Machine Unit).instruction = .rst 0x38 := by decide
  have pushes : (Instruction.rst 0x38).stores (powerOn default none () : Machine Unit) =
      [(0xFFFD, 0x01), (0xFFFC, 0x01)] := by decide
  intro m halted
  have executes : m.upcoming = .executes (.rst 0x38) := call ▸ upcoming_instruction rfl rfl
  obtain ⟨stored, -, -, flags, -⟩ := (step_frame m rfl).2 _ executes
  have written := congrArg
    (fun stores => (m.storeEach stores).withCpu m.step.2.console.hw.cpu) pushes
  exact ⟨(step_frame halted rfl).1 rfl, stored.trans written, flags rfl⟩

end Machine

end GameBoy
