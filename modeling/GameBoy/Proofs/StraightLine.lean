import GameBoy.Proofs.InstructionFrame
import GameBoy.Proofs.Subroutines
import Mathlib.Data.List.GetD
import Mathlib.Logic.Function.Iterate

/-!
Code that runs straight ahead: the processor comes to one instruction after the other, as long as
none of them changes the code that is still ahead. Main statements: `Runs.step` and
`Runs.step_registers`.
-/

namespace GameBoy

namespace Instruction

/-- Decoding depends on no byte behind those that it takes. -/
theorem decodeAt_congr {a b : Nat → UInt8} (same : ∀ n < (decodeAt a 0).2, b n = a n) :
    decodeAt b 0 = decodeAt a 0 := by
  rcases decodeAt_cases a with
    ⟨i, encoding, decoded⟩ | ⟨f, encoding, decoded⟩ | ⟨f, encoding, decoded⟩
  all_goals
    rw [decoded] at same
    rw [← same 0 (Nat.succ_pos _)] at encoding
    rcases decodeAt_cases b with ⟨_, other, again⟩ | ⟨_, other, again⟩ | ⟨_, other, again⟩
    all_goals
      rw [encoding] at other
      cases other
    rw [again, decoded]
  · rw [same 1 (Nat.lt_succ_self 1)]
  · rw [same 1 (Nat.lt_of_sub_eq_succ rfl), same 2 (Nat.lt_succ_self 2)]

/-- The bytes are the code of an instruction, and of nothing behind it. -/
def Encodes (i : Instruction) (bytes : List UInt8) : Prop :=
  decodeAt (bytes.getD · 0) 0 = (i, bytes.length)

theorem encodes_complete {i : Instruction} (encoding : Encoding.ofOpcode op = .complete i) :
    i.Encodes [op] := by
  show (decode (nextByte ([op].getD · 0))).run 0 = (i, 1)
  exact run_decode_complete rfl encoding

theorem encodes_withByte {f : UInt8 → Instruction} (encoding : Encoding.ofOpcode op = .withByte f)
    (v : UInt8) : (f v).Encodes [op, v] := by
  show (decode (nextByte ([op, v].getD · 0))).run 0 = (f v, 2)
  exact run_decode_withByte rfl encoding rfl

/-- Whether an instruction always goes on behind its own bytes. -/
def isStraight (i : Instruction) : Bool := !i.branches && i ≠ .halt && i ≠ .stop

theorem isStraight_iff {i : Instruction} :
    i.isStraight = true ↔ i.branches = false ∧ i ≠ .halt ∧ i ≠ .stop := by
  simp [isStraight, and_assoc]

theorem Encodes.size {i : Instruction} (encodes : i.Encodes bytes) (other : i ≠ .stop) :
    i.size = bytes.length := by
  have sized := snd_decodeAt (bytes.getD · 0)
  rw [show decodeAt (bytes.getD · 0) 0 = _ from encodes, decodedSize_eq other] at sized
  exact sized.symm

/-- An instruction that only works in the registers stores nothing. -/
theorem executed_eq {m : Machine σ} {i : Instruction} (straight : i.isStraight = true) :
    m.executed i = (m.storeEach (i.stores m)).withCpu
      ((i.registers m).settle m.console.hw.cpu.imePending) := by
  obtain ⟨branches, -, stop⟩ := isStraight_iff.mp straight
  cases i with
  | stop => exact absurd rfl stop
  | illegal => cases branches
  | _ => rfl

end Instruction

namespace Machine

/-- A machine without devices that is about to run some code. -/
structure Runs (m : Machine σ) (code : List UInt8) : Prop where
  bare : m.handlers = []
  running : m.console.hw.cpu.halted = false
  code : ∀ n < code.length, m.code n = code.getD n 0

/-- The machine after some instructions. -/
def steps (count : Nat) (m : Machine σ) : Machine σ := (fun k => k.step.2)^[count] m

variable {m : Machine σ} {i : Instruction} {bytes code : List UInt8}

/-- What is executed is what the code begins with. -/
theorem Runs.upcoming (runs : m.Runs (bytes ++ code)) (encodes : i.Encodes bytes) :
    m.upcoming = .executes i := by
  have decoded : Instruction.decodeAt m.code 0 = (i, bytes.length) := by
    rw [← show Instruction.decodeAt (bytes.getD · 0) 0 = _ from encodes]
    refine Instruction.decodeAt_congr fun n inside => ?_
    rw [show Instruction.decodeAt (bytes.getD · 0) 0 = _ from encodes] at inside
    have within : n < (bytes ++ code).length := by
      rw [List.length_append]
      exact Nat.lt_add_right _ inside
    rw [runs.code n within, List.getD_append _ _ _ _ inside]
  rw [upcoming_instruction runs.bare runs.running, instruction, decoded]

/-- An instruction that leaves the code ahead as it is leads to it. -/
theorem Runs.step (runs : m.Runs (bytes ++ code)) (encodes : i.Encodes bytes)
    (straight : i.isStraight = true)
    (kept : ∀ n < code.length,
      m.step.2.peek (m.console.hw.cpu.pc + UInt16.ofNat (bytes.length + n)) =
        m.code (bytes.length + n)) :
    m.step.2.Runs code := by
  obtain ⟨branches, halt, stop⟩ := Instruction.isStraight_iff.mp straight
  have executes := runs.upcoming encodes
  have left := congrArg Prod.snd (step_executed runs.bare executes).1
  refine ⟨(m.step_evolves runs.bare).bare runs.bare, ?_, fun n inside => ?_⟩
  · rw [left, Instruction.executed_eq straight]
    show ((i.registers m).settle _).halted = false
    rw [Cpu.settle_eq]
    exact (Instruction.halted_registers m halt).trans runs.running
  · have within : bytes.length + n < (bytes ++ code).length := by
      rw [List.length_append]
      exact Nat.add_lt_add_left inside _
    have byte : m.step.2.code n = m.code (bytes.length + n) := by
      rw [← kept n inside, Machine.code, pc_step runs.bare executes branches,
        encodes.size stop, UInt16.add_assoc, ← UInt16.ofNat_add]
    rw [byte, runs.code _ within, List.getD_append_right _ _ _ _ (Nat.le_add_right _ _),
      Nat.add_sub_cancel_left]

/-- An instruction that stores nothing leads to the code behind it. -/
theorem Runs.step_registers (runs : m.Runs (bytes ++ code)) (encodes : i.Encodes bytes)
    (straight : i.isStraight = true) (stores : i.stores m = []) : m.step.2.Runs code := by
  refine runs.step encodes straight fun n _ => ?_
  have left := congrArg Prod.snd (step_executed runs.bare (runs.upcoming encodes)).1
  rw [left, Instruction.executed_eq straight, stores]
  exact peek_withCpu runs.bare _ _

/-- A machine that has just been switched on, with some code in high RAM that it is about to run. -/
def loaded (code : List UInt8) : Machine Unit :=
  (powerOn default none ()).mapHardware fun hw =>
    { hw with
      hram := ⟨.ofList ((code ++ hw.hram.toList).take 0x7F), by simp⟩
      cpu := { hw.cpu with pc := 0xFF80 } }

theorem runs_loaded (fits : code.length ≤ 0x7F) : (loaded code).Runs code := by
  refine ⟨rfl, rfl, fun n inside => ?_⟩
  have below : n < 0x7F := Nat.lt_of_lt_of_le inside fits
  have place : (0xFF80 + UInt16.ofNat n).toNat = 0xFF80 + n := by
    simp only [UInt16.toNat_add, UInt16.toNat_ofNat', UInt16.reduceToNat]
    omega
  have ram : InRam (0xFF80 + UInt16.ofNat n) := by
    simp only [InRam, UInt16.le_iff_toNat_le, place, UInt16.reduceToNat]
    omega
  have found : (loaded code).console.hw.selected.cell? (0xFF80 + UInt16.ofNat n) =
      some (.hram ⟨n, below⟩) := by
    simp only [SelectedBanks.cell?, home, place]
    simp (disch := omega) only [if_pos, if_neg, Option.some.injEq, Cell.hram.injEq, Fin.ext_iff,
      Fin.val_ofNat]
    omega
  refine (peek_ram rfl ram found).trans ?_
  have read := Memory.read_eq_getD (loaded code).console.hw.hram.memory n
  refine read.trans ?_
  show ((code ++ _).take 0x7F).getD n openBus = _
  simp [List.getD_eq_getElem?_getD, below, inside]

end Machine

end GameBoy
