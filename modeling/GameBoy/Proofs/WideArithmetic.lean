import GameBoy.Proofs.CarryChains

/-!
Arithmetic on words as arithmetic on their bytes: the low bytes first, and then the high ones with
the carry between them. Main statement: `wide_additions_agree`.
-/

namespace GameBoy

namespace Word

/-- Sign extension keeps the number that a byte stands for in two's complement. -/
theorem toNat_signExtend (b : UInt8) :
    ((signExtend b).toNat : Int) = b.toInt8.toInt % 65536 := by
  have low := b.toNat_lt
  have signed : b.toInt8.toInt = if 2 * b.toNat < 256 then (b.toNat : Int) else b.toNat - 256 :=
    BitVec.toInt_eq_toNat_cond b.toBitVec
  simp only [signed, signExtend, UInt8.lt_iff_toNat_lt, UInt8.reduceToNat]
  split_ifs <;> simp only [UInt16.toNat_add, UInt8.toNat_toUInt16, UInt16.reduceToNat] <;> omega

end Word

namespace Alu

/-- A sum of words is a sum of their bytes, with the carry of the low ones in the high ones. The
zero flag is not its own. -/
theorem addWords_eq (a v : UInt16) (f : Flags) :
    let low := add (Word.low a) (Word.low v) false
    let high := add (Word.high a) (Word.high v) low.2.c
    addWords a v f = (Word.join high.1 low.1, { high.2 with z := f.z }) := by
  intro low high
  have carried : low.2.c.toNat = if 255 < a.toNat % 256 + v.toNat % 256 then 1 else 0 := by
    simp [low, add, Word.toNat_low, toNat_decide]
  refine Prod.ext ?_ ?_
  · have lower : low.1.toNat + 256 * low.2.c.toNat = a.toNat % 256 + v.toNat % 256 := by
      have exact := add_exact (Word.low a) (Word.low v) false
      rwa [Word.toNat_low, Word.toNat_low] at exact
    have upper : high.1.toNat + 256 * high.2.c.toNat =
        a.toNat / 256 + v.toNat / 256 + low.2.c.toNat := by
      have exact := add_exact (Word.high a) (Word.high v) low.2.c
      rwa [Word.toNat_high, Word.toNat_high] at exact
    have lowest := low.1.toNat_lt
    have highest := high.1.toNat_lt
    apply UInt16.toNat.inj
    rw [Word.toNat_join]
    simp only [addWords, UInt16.toNat_add]
    omega
  · simp only [addWords, high, add, Word.toNat_high, carried, Flags.mk.injEq, decide_eq_decide,
      true_and]
    split_ifs <;> omega

/-- A sum with a signed byte carries as the unsigned sum of the low bytes does. -/
theorem addOffset_flags (a : UInt16) (offset : UInt8) :
    let lower := add (Word.low a) offset false
    (addOffset a offset).2 = { z := false, n := false, h := lower.2.h, c := lower.2.c } := by
  simp [addOffset, add, Word.toNat_low]

theorem toNat_addOffset (a : UInt16) (offset : UInt8) :
    ((addOffset a offset).1.toNat : Int) = (a.toNat + offset.toInt8.toInt) % 65536 := by
  have extended := Word.toNat_signExtend offset
  simp only [addOffset, UInt16.toNat_add]
  omega

end Alu

namespace Machine

variable {m : Machine σ}

/-- The word that an instruction puts into HL is there when its enable has been settled. -/
theorem getPair_settle_setHl (cpu : Cpu) (w : UInt16) (wasPending : Bool) :
    ((cpu.setPair .hl w).settle wasPending).getPair .hl = w := by
  rw [Cpu.getPair_settle, Cpu.getPair_setPair cpu (by decide)]

theorem step_addHl (executes : m.upcoming = .executes (.addHl p)) :
    let cpu := m.console.hw.cpu
    let result := Alu.addWords (cpu.getPair .hl) (cpu.getPair p) cpu.f
    m.step.2.console.hw.cpu.getPair .hl = result.1 ∧ m.step.2.console.hw.cpu.f = result.2 := by
  obtain ⟨pc, left⟩ := cpu_step_registers executes (f := fun cpu =>
    let result := Alu.addWords (cpu.getPair .hl) (cpu.getPair p) cpu.f
    { cpu with f := result.2 }.setPair .hl result.1) fun _ => rfl
  have same : { m.console.hw.cpu with pc }.getPair p = m.console.hw.cpu.getPair p := by
    cases p <;> rfl
  rw [left, same]
  exact ⟨getPair_settle_setHl .., Cpu.f_settle ..⟩

theorem step_addSp (executes : m.upcoming = .executes (.addSp offset)) :
    let result := Alu.addOffset m.console.hw.cpu.sp offset
    m.step.2.console.hw.cpu.sp = result.1 ∧ m.step.2.console.hw.cpu.f = result.2 := by
  obtain ⟨pc, left⟩ := cpu_step_registers executes (f := fun cpu =>
    let result := Alu.addOffset cpu.sp offset
    { cpu with sp := result.1, f := result.2 }) fun _ => rfl
  rw [left]
  exact ⟨Cpu.sp_settle .., Cpu.f_settle ..⟩

theorem step_loadHlSp (executes : m.upcoming = .executes (.loadHlSp offset)) :
    let result := Alu.addOffset m.console.hw.cpu.sp offset
    m.step.2.console.hw.cpu.getPair .hl = result.1 ∧ m.step.2.console.hw.cpu.f = result.2 ∧
      m.step.2.console.hw.cpu.sp = m.console.hw.cpu.sp := by
  obtain ⟨pc, left⟩ := cpu_step_registers executes (f := fun cpu =>
    let result := Alu.addOffset cpu.sp offset
    { cpu with f := result.2 }.setPair .hl result.1) fun _ => rfl
  rw [left]
  exact ⟨getPair_settle_setHl .., Cpu.f_settle .., Cpu.sp_settle ..⟩

/-- Additions on words agree with the ones on bytes. Adding a pair to HL gives what adding the low
bytes and then the high bytes with carry gives, and leaves the zero flag alone. Adding a signed byte
to SP, in SP or for HL, gives the sum modulo 65536; half carry and carry are those of adding it to
the low byte, and the other flags are clear. -/
theorem wide_additions_agree (m : Machine σ) :
    let before := m.console.hw.cpu
    let after := m.step.2.console.hw.cpu
    (∀ p, m.upcoming = .executes (.addHl p) →
      ∀ (k l k' l' : Machine σ) (low high : UInt8),
        Combines .add k (Word.low (before.getPair .hl), Word.low (before.getPair p)) low l →
        k'.carry = l.carry →
        Combines .adc k' (Word.high (before.getPair .hl), Word.high (before.getPair p)) high l' →
          after.getPair .hl = Word.join high low ∧
            after.f = { l'.console.hw.cpu.f with z := before.f.z }) ∧
    (∀ offset, m.upcoming = .executes (.addSp offset) ∨ m.upcoming = .executes (.loadHlSp offset) →
      ∀ (k l : Machine σ) (low : UInt8), Combines .add k (Word.low before.sp, offset) low l →
        let carries := l.console.hw.cpu.f
        after.f = { z := false, n := false, h := carries.h, c := carries.c }) ∧
    (∀ offset, m.upcoming = .executes (.addSp offset) →
      (after.sp.toNat : Int) = (before.sp.toNat + offset.toInt8.toInt) % 65536) ∧
    ∀ offset, m.upcoming = .executes (.loadHlSp offset) →
      ((after.getPair .hl).toNat : Int) = (before.sp.toNat + offset.toInt8.toInt) % 65536 ∧
        after.sp = before.sp := by
  intro before after
  refine ⟨?_, ?_, ?_, ?_⟩
  · intro p executes k l k' l' low high lower carried upper
    obtain ⟨sum, flags⟩ := step_addHl executes
    have first : (low, l.console.hw.cpu.f) = Alu.add _ _ false := lower.eq
    have second : (high, l'.console.hw.cpu.f) = Alu.add _ _ k'.carry := upper.eq
    rw [carried, carry] at second
    rw [Alu.addWords_eq, ← first] at sum flags
    dsimp only at sum flags
    rw [← second] at sum flags
    exact ⟨sum, flags⟩
  · intro offset executes k l low lower carries
    have first : (low, carries) = Alu.add _ _ false := lower.eq
    have flags : after.f = (Alu.addOffset before.sp offset).2 := by
      rcases executes with adds | loads
      · exact (step_addSp adds).2
      · exact (step_loadHlSp loads).2.1
    rw [flags, Alu.addOffset_flags, ← first]
  · intro offset executes
    obtain ⟨sum, -⟩ := step_addSp executes
    rw [sum, Alu.toNat_addOffset]
  · intro offset executes
    obtain ⟨sum, -, kept⟩ := step_loadHlSp executes
    rw [sum, Alu.toNat_addOffset]
    exact ⟨rfl, kept⟩

/-- SP is added to HL with a carry between the bytes and one out of them, and two is taken from SP,
in SP and for HL. -/
theorem wide_additions_agree_carry :
    let wide := loaded [0x39]
    let bytes := loaded (arithmetic 0xC6 [(0x4D, 0xFE)] ++ arithmetic 0xCE [(0x01, 0xFF)])
    let inSp := loaded [0xE8, 0xFE]
    let lowByte := loaded (arithmetic 0xC6 [(0xFE, 0xFE)])
    let forHl := loaded [0xF8, 0xFE]
    (wide.upcoming = .executes (.addHl .sp) ∧
      wide.step.2.console.hw.cpu.getPair .hl =
        Word.join (bytes.steps 4).console.hw.cpu.a (bytes.steps 2).console.hw.cpu.a ∧
      wide.step.2.carry = (bytes.steps 4).carry) ∧
    (inSp.upcoming = .executes (.addSp 0xFE) ∧
      (inSp.step.2.console.hw.cpu.sp.toNat : Int) = 0xFFFC ∧
      inSp.step.2.carry = (lowByte.steps 2).carry) ∧
    forHl.upcoming = .executes (.loadHlSp 0xFE) ∧
      ((forHl.step.2.console.hw.cpu.getPair .hl).toNat : Int) = 0xFFFC ∧
      forHl.step.2.console.hw.cpu.sp = 0xFFFE := by
  intro wide bytes inSp lowByte forHl
  have hl : wide.console.hw.cpu.getPair .hl = Word.join 0x01 0x4D := rfl
  have sp : wide.console.hw.cpu.getPair .sp = Word.join 0xFF 0xFE := by decide
  have wideRuns : wide.Runs ([0x39] ++ []) := runs_loaded (by decide)
  have bytesRuns :
      bytes.Runs ([0x3E, 0x4D] ++ ([0xC6, 0xFE] ++ ([0x3E, 0x01] ++ ([0xCE, 0xFF] ++ [])))) :=
    runs_loaded (by decide)
  have inSpRuns : inSp.Runs ([0xE8, 0xFE] ++ []) := runs_loaded (by decide)
  have lowByteRuns : lowByte.Runs ([0x3E, 0xFE] ++ ([0xC6, 0xFE] ++ [])) := runs_loaded (by decide)
  have forHlRuns : forHl.Runs ([0xF8, 0xFE] ++ []) := runs_loaded (by decide)
  refine ⟨?_, ?_, ?_⟩
  · have adds := wideRuns.upcoming (Instruction.encodes_complete (i := .addHl .sp) rfl)
    obtain ⟨lower, behind⟩ : Combines .add bytes (0x4D, 0xFE) _ (bytes.steps 2) ∧ _ :=
      Runs.combines rfl bytesRuns
    obtain ⟨upper, -⟩ : Combines .adc (bytes.steps 2) (0x01, 0xFF) _ (bytes.steps 4) ∧ _ :=
      Runs.combines rfl behind
    have agree := (wide_additions_agree wide).1 .sp adds
    rw [hl, sp, Word.low_join, Word.low_join, Word.high_join, Word.high_join] at agree
    obtain ⟨sum, flags⟩ := agree _ _ _ _ _ _ lower rfl upper
    have out := congrArg Flags.c flags
    exact ⟨adds, sum, out⟩
  · have adds := inSpRuns.upcoming (Instruction.encodes_withByte (f := .addSp) rfl 0xFE)
    obtain ⟨lower, -⟩ : Combines .add lowByte (0xFE, 0xFE) _ (lowByte.steps 2) ∧ _ :=
      Runs.combines rfl lowByteRuns
    obtain ⟨-, agree, sum, -⟩ := wide_additions_agree inSp
    have flags := agree 0xFE (.inl adds)
    rw [show inSp.console.hw.cpu.sp = _ from sp, Word.low_join] at flags
    have out := congrArg Flags.c (flags _ _ _ lower)
    exact ⟨adds, sum 0xFE adds, out⟩
  · have loads := forHlRuns.upcoming (Instruction.encodes_withByte (f := .loadHlSp) rfl 0xFE)
    obtain ⟨-, -, -, sum⟩ := wide_additions_agree forHl
    obtain ⟨value, kept⟩ := sum 0xFE loads
    exact ⟨loads, value, kept⟩

end Machine

end GameBoy
