import GameBoy.Proofs.BusTrace
import GameBoy.Proofs.Footprint

/-!
What is decoded where. Every source that gives the same bytes gives the same instruction, and takes
as many bytes for it as the instruction says. Main statements: `run_decode`, and `disassemble_one`
and `upcoming_instruction`, which say that a listing shows what the processor runs.
-/

namespace GameBoy

def Place.isRegister : Place → Bool
  | .register _ => true
  | _ => false

/-- A place that most operations take: a register, or the memory that HL points to. -/
def Place.isCommon : Place → Bool
  | .register _ | .indirect .hl => true
  | _ => false

theorem Place.cases_common {p : Place} (common : p.isCommon = true) :
    (∃ r, p = .register r) ∨ p = .indirect .hl := by
  cases p with
  | register r => exact .inl ⟨r, rfl⟩
  | indirect q =>
    cases q with
    | hl => exact .inr rfl
    | _ => cases common
  | _ => cases common

def Source.isCommon : Source → Bool
  | .place p => p.isCommon
  | .immediate _ => true

namespace Instruction

/-- The places that are not common ones are only for loads to and from registers. -/
def regular : Instruction → Bool
  | .load target source => target.isRegister || source.isCommon
  | .alu _ source => source.isCommon
  | .inc target | .dec target => target.isCommon
  | .shift _ target | .bit _ target | .res _ target | .set _ target => target.isCommon
  | _ => true

/-- What a source gives that yields some bytes in turn. -/
theorem run_decode {fetch : StateM ρ UInt8} {bytes : Nat → UInt8} {states : Nat → ρ}
    (fetches : ∀ n, fetch.run (states n) = (bytes n, states (n + 1))) :
    (decode fetch).run (states 0) = ((decodeAt bytes 0).1, states (decodeAt bytes 0).2) := by
  have agree : Agree (fun n s => s = states n) (nextByte bytes) fetch := by
    rintro n _ rfl
    rw [fetches]
    exact ⟨rfl, rfl⟩
  obtain ⟨same, ended⟩ := agree.decode 0 _ rfl
  exact Prod.ext same ended

variable (bytes : Nat → UInt8)

/-- The opcode tells how many bytes are taken. -/
theorem decodeAt_cases :
    (∃ i, Encoding.ofOpcode (bytes 0) = .complete i ∧ decodeAt bytes 0 = (i, 1)) ∨
      (∃ f, Encoding.ofOpcode (bytes 0) = .withByte f ∧
        decodeAt bytes 0 = (f (bytes 1), 2)) ∨
      ∃ f, Encoding.ofOpcode (bytes 0) = .withWord f ∧
        decodeAt bytes 0 = (f (Word.join (bytes 2) (bytes 1)), 3) := by
  have fetched (n : Nat) : (nextByte bytes).run n = (bytes n, n + 1) := rfl
  cases encoding : Encoding.ofOpcode (bytes 0) with
  | complete i => exact .inl ⟨i, rfl, run_decode_complete (fetched 0) encoding⟩
  | withByte f => exact .inr (.inl ⟨f, rfl, run_decode_withByte (fetched 0) encoding (fetched 1)⟩)
  | withWord f =>
    exact .inr (.inr ⟨f, rfl, run_decode_withWord (fetched 0) encoding (fetched 1) (fetched 2)⟩)

theorem decodedSize_ite (i : Instruction) :
    i.decodedSize = if i = .stop then 1 else i.size := by
  split
  · rename_i stop
    rw [stop]
    rfl
  · rename_i other
    exact decodedSize_eq other

theorem snd_decodeAt : (decodeAt bytes 0).2 = (decodeAt bytes 0).1.decodedSize := by
  have sized := Encoding.sized_ofOpcode (bytes 0)
  rcases decodeAt_cases bytes with
    ⟨i, encoding, decoded⟩ | ⟨f, encoding, decoded⟩ | ⟨f, encoding, decoded⟩
  all_goals
    rw [encoding] at sized
    rw [decoded]
  · exact sized.symm
  all_goals exact (sized _).symm

theorem size_decodeAt_le : (decodeAt bytes 0).1.size ≤ 3 := by
  have sized := snd_decodeAt bytes
  by_cases stop : (decodeAt bytes 0).1 = .stop
  · rw [stop]
    decide
  · rw [← decodedSize_eq stop, ← sized]
    rcases decodeAt_cases bytes with ⟨i, -, decoded⟩ | ⟨f, -, decoded⟩ | ⟨f, -, decoded⟩
    · rw [decoded]
      exact Nat.le_of_ble_eq_true rfl
    · rw [decoded]
      exact Nat.le_of_ble_eq_true rfl
    · rw [decoded]

end Instruction

/-- Something that holds of every instruction that an encoding can stand for. -/
def Encoding.All (P : Instruction → Prop) : Encoding → Prop
  | .complete i => P i
  | .withByte f => ∀ v, P (f v)
  | .withWord f => ∀ v, P (f v)

theorem Instruction.all_decodeAt {P : Instruction → Prop} {bytes : Nat → UInt8}
    (all : (Encoding.ofOpcode (bytes 0)).All P) : P (decodeAt bytes 0).1 := by
  rcases decodeAt_cases bytes with
    ⟨i, encoding, decoded⟩ | ⟨f, encoding, decoded⟩ | ⟨f, encoding, decoded⟩
  all_goals
    rw [encoding] at all
    rw [decoded]
  · exact all
  all_goals exact all _

namespace Opcode

theorem regular_extended (op : UInt8) : (extended op).regular = true := by
  have common : ∀ code, (place code).isCommon = true := by decide
  unfold extended
  split <;> exact common _

theorem extended_ne_illegal (op code : UInt8) : extended op ≠ .illegal code := by
  unfold extended
  split <;> nofun

theorem regular_firstQuadrant (row column : Fin 8) :
    (firstQuadrant row column).All fun i => i.regular = true := by
  fin_cases column <;> fin_cases row <;> first | rfl | exact fun _ => rfl

theorem regular_lastQuadrant (op : UInt8) (row column : Fin 8) :
    (lastQuadrant op row column).All fun i => i.regular = true := by
  fin_cases column <;> fin_cases row <;>
    first | rfl | exact fun _ => rfl | exact regular_extended

theorem faithful_firstQuadrant (op : UInt8) (row column : Fin 8) :
    (firstQuadrant row column).All fun i => ∀ code, i = .illegal code → code = op := by
  fin_cases column <;> fin_cases row <;> nofun

theorem faithful_lastQuadrant (op : UInt8) (row column : Fin 8) :
    (lastQuadrant op row column).All fun i => ∀ code, i = .illegal code → code = op := by
  fin_cases column <;> fin_cases row <;>
    first
    | exact fun _ same => (Instruction.illegal.inj same).symm
    | exact fun v _ same => absurd same (extended_ne_illegal v _)
    | nofun

end Opcode

namespace Encoding

open Opcode

/-- Every instruction that an opcode can stand for is regular. -/
theorem regular_ofOpcode (op : UInt8) : (ofOpcode op).All fun i => i.regular = true := by
  have common : ∀ code, (place code).isCommon = true := by decide
  unfold ofOpcode
  split
  · exact regular_firstQuadrant _ _
  · split
    · rfl
    · show ((place (row op)).isRegister || (place (column op)).isCommon) = true
      rw [common, Bool.or_true]
  · exact common (column op)
  · exact regular_lastQuadrant op _ _

/-- An illegal instruction tells the opcode that it stands for. -/
theorem faithful_ofOpcode (op : UInt8) :
    (ofOpcode op).All fun i => ∀ code, i = .illegal code → code = op := by
  unfold ofOpcode
  split
  · exact faithful_firstQuadrant op _ _
  · split <;> nofun
  · nofun
  · exact faithful_lastQuadrant op _ _

end Encoding

namespace Machine

/-- The bytes from PC on. -/
def code (m : Machine σ) (n : Nat) : UInt8 := m.peek (m.console.hw.cpu.pc + UInt16.ofNat n)

/-- The instruction that is encoded at PC. -/
def instruction (m : Machine σ) : Instruction := (Instruction.decodeAt m.code 0).1

theorem regular_instruction (m : Machine σ) : m.instruction.regular = true :=
  Instruction.all_decodeAt (Encoding.regular_ofOpcode (m.code 0))

/-- Reads of the bytes from PC on. -/
def codeReads (m : Machine σ) (count : Nat) : List BusAccess :=
  (List.range count).map fun n => .read (m.console.hw.cpu.pc + UInt16.ofNat n)

variable {m : Machine σ}

theorem codeReads_succ (m : Machine σ) (count : Nat) :
    m.codeReads (count + 1) =
      m.codeReads count ++ [.read (m.console.hw.cpu.pc + UInt16.ofNat count)] := by
  rw [codeReads, List.range_succ, List.map_append]
  rfl

@[simp] theorem length_codeReads (m : Machine σ) (count : Nat) :
    (m.codeReads count).length = count := by
  rw [codeReads, List.length_map, List.length_range]

theorem next_address (address : UInt16) (n : Nat) :
    address + UInt16.ofNat n + 1 = address + UInt16.ofNat (n + 1) := by
  rw [UInt16.add_assoc, UInt16.ofNat_add]
  rfl

/-- A listing shows the instruction at its address, and nothing changes when it is made. -/
theorem disassemble_one (bare : m.handlers = []) :
    disassemble 1 m.console.hw.cpu.pc m = ([(m.console.hw.cpu.pc, m.instruction)], m) := by
  have fetches (n : Nat) : nextByte.run (m.console.hw.cpu.pc + UInt16.ofNat n, m) =
      (m.code n, m.console.hw.cpu.pc + UInt16.ofNat (n + 1), m) := by
    rw [Simulation.run_nextByte, read_eq_peek bare, next_address]
    rfl
  have decoded := Instruction.run_decode fetches
  rw [show UInt16.ofNat 0 = 0 from rfl, UInt16.add_zero] at decoded
  rw [Simulation.disassemble_succ]
  dsimp only
  rw [decoded]
  rfl

/-- A listing reads the bytes that are decoded, each of them once. -/
theorem disassemble_traced (bare : m.handlers = []) :
    disassemble 1 m.console.hw.cpu.pc (m.traced []) =
      ([(m.console.hw.cpu.pc, m.instruction)],
        m.traced (m.codeReads m.instruction.decodedSize)) := by
  have fetches (n : Nat) :
      nextByte.run (m.console.hw.cpu.pc + UInt16.ofNat n, m.traced (m.codeReads n)) =
        (m.code n, m.console.hw.cpu.pc + UInt16.ofNat (n + 1), m.traced (m.codeReads (n + 1))) := by
    rw [Simulation.run_nextByte, read_traced bare, next_address, codeReads_succ]
    rfl
  have decoded := Instruction.run_decode fetches
  rw [show UInt16.ofNat 0 = 0 from rfl, UInt16.add_zero, Instruction.snd_decodeAt] at decoded
  rw [Simulation.disassemble_succ]
  dsimp only
  rw [show m.traced [] = m.traced (m.codeReads 0) from rfl, decoded]
  rfl

theorem run_fetch_behind (bare : m.handlers = []) (n : Nat) (clocks : UInt32) :
    Exec.fetch.run { machine := m.behind n, clocks } =
      (m.code n, { machine := m.behind (n + 1), clocks := clocks + 4 }) := by
  let address := m.console.hw.cpu.pc + UInt16.ofNat n
  let cpu : Cpu := { m.console.hw.cpu with pc := address + 1 }
  have fetched := read_withCpu bare cpu address
  have moved : m.withCpu cpu = m.behind (n + 1) :=
    congrArg (fun pc => m.withCpu { m.console.hw.cpu with pc }) (next_address _ n)
  rw [moved] at fetched
  show (((m.withCpu cpu).read address).1,
    ({ machine := ((m.withCpu cpu).read address).2, clocks := clocks + 4 } : Step σ)) = _
  rw [moved, fetched]
  rfl

/-- A processor that is not halted runs the instruction at PC. -/
theorem upcoming_instruction (bare : m.handlers = [])
    (running : m.console.hw.cpu.halted = false) : m.upcoming = .executes m.instruction := by
  let states (n : Nat) : Step σ := { machine := m.behind n, clocks := UInt32.ofNat (4 * n) }
  have fetches (n : Nat) : Exec.fetch.run (states n) = (m.code n, states (n + 1)) := by
    have clocks : UInt32.ofNat (4 * n) + 4 = UInt32.ofNat (4 * (n + 1)) := by
      rw [Nat.mul_succ, UInt32.ofNat_add]
      rfl
    rw [run_fetch_behind bare, clocks]
  have start : states 0 = { machine := m } := by
    show ({ machine := m.withCpu { m.console.hw.cpu with pc := m.console.hw.cpu.pc + 0 } } :
      Step σ) = _
    rw [UInt16.add_zero]
    rfl
  have decoded := Instruction.run_decode fetches
  rw [start] at decoded
  rw [upcoming, running, decoded]
  rfl

end Machine

end GameBoy
