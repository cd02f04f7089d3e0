import GameBoy.Proofs.Numbers
import GameBoy.Proofs.Operands
import GameBoy.Proofs.StraightLine

/-!
Numbers of any length, worked on byte by byte with the carry flag from one byte to the next. A byte
is exact together with the carries before and after it, and a chain adds that up. Main statement:
`carry_chains_exact`.
-/

namespace GameBoy

/-! One byte, with the carry before it and the carry after it. -/

namespace Alu

theorem toNat_carry (carry : Bool) : carry.toUInt8.toNat = carry.toNat := by
  cases carry <;> rfl

theorem toNat_decide (p : Prop) [Decidable p] : (decide p).toNat = if p then 1 else 0 := by
  by_cases holds : p <;> simp [holds]

theorem add_exact (x y : UInt8) (carry : Bool) :
    let sum := add x y carry
    sum.1.toNat + 256 * sum.2.c.toNat = x.toNat + y.toNat + carry.toNat := by
  have lowX := x.toNat_lt
  have lowY := y.toNat_lt
  have lowCarry := carry.toNat_le
  simp only [add, UInt8.toNat_add, toNat_carry, toNat_decide]
  split <;> omega

theorem sub_exact (x y : UInt8) (borrow : Bool) :
    let difference := sub x y borrow
    difference.1.toNat + y.toNat + borrow.toNat = x.toNat + 256 * difference.2.c.toNat := by
  have lowX := x.toNat_lt
  have lowY := y.toNat_lt
  have lowBorrow := borrow.toNat_le
  simp only [sub, UInt8.toNat_sub, toNat_carry, toNat_decide]
  split <;> omega

theorem rl_exact (v : UInt8) (carry : Bool) :
    let rotated := rotate .rl v carry
    rotated.1.toNat + 256 * rotated.2.toNat = 2 * v.toNat + carry.toNat := by
  have low := v.toNat_lt
  have lowCarry := carry.toNat_le
  simp only [rotate, topBit, UInt8.toNat_add, UInt8.toNat_mul, toNat_carry, toNat_decide,
    UInt8.le_iff_toNat_le, UInt8.reduceToNat]
  split <;> omega

theorem rr_exact (v : UInt8) (carry : Bool) :
    let rotated := rotate .rr v carry
    2 * rotated.1.toNat + rotated.2.toNat = v.toNat + 256 * carry.toNat := by
  have low := v.toNat_lt
  have lowCarry := carry.toNat_le
  simp only [rotate, lowBit, UInt8.toNat_add, UInt8.toNat_mul, UInt8.toNat_div, UInt8.toNat_mod,
    toNat_carry, toNat_decide, ← UInt8.toNat_inj, UInt8.reduceToNat]
  split <;> omega

/-- A shift to the left is a rotation through a clear carry. -/
theorem shift_sla (v : UInt8) (carry : Bool) : shift .sla v carry = rotate .rl v false := by
  simp [shift, rotate, Bool.toUInt8]

/-- A logical shift to the right is a rotation through a clear carry. -/
theorem shift_srl (v : UInt8) (carry : Bool) : shift .srl v carry = rotate .rr v false := by
  simp [shift, rotate, Bool.toUInt8]

end Alu

namespace Machine

def carry (m : Machine σ) : Bool := m.console.hw.cpu.f.c

/-- A byte is loaded into the accumulator, and then combined with another one. The result is what
the accumulator holds in the end. -/
inductive Combines (op : AluOp) (m : Machine σ) : UInt8 × UInt8 → UInt8 → Machine σ → Prop
  | intro (loads : m.upcoming = .executes (.load (.register .a) first))
      (combines : m.step.2.upcoming = .executes (.alu op second)) :
      Combines op m (m.operand first, m.step.2.operand second)
        m.step.2.step.2.console.hw.cpu.a m.step.2.step.2

/-- A byte is shifted where it is, in a register or in RAM. -/
inductive Shifts (op : ShiftOp) (m : Machine σ) : UInt8 → UInt8 → Machine σ → Prop
  | register (executes : m.upcoming = .executes (.shift op (.register r))) :
      Shifts op m (m.console.hw.cpu.get r) (m.step.2.console.hw.cpu.get r) m.step.2
  | memory (executes : m.upcoming = .executes (.shift op (.indirect .hl)))
      (bare : m.handlers = []) (ram : InRam (m.console.hw.cpu.getPair .hl))
      (wram : m.console.hw.wram.size = m.console.hw.model.wramSize) :
      Shifts op m (m.peek (m.console.hw.cpu.getPair .hl))
        (m.step.2.peek (m.console.hw.cpu.getPair .hl)) m.step.2

/-- A run that works on some operands one after the other, and notes a result for each. In between,
anything may happen that leaves the carry flag alone. -/
inductive Chain (Turn : Machine σ → α → UInt8 → Machine σ → Prop) :
    Machine σ → List α → List UInt8 → Machine σ → Prop
  | done (kept : n.carry = m.carry) : Chain Turn m [] [] n
  | next (kept : k.carry = m.carry) (turn : Turn k given result l)
      (others : Chain Turn l operands results n) :
      Chain Turn m (given :: operands) (result :: results) n

namespace Chain

variable {Turn : Machine σ → α → UInt8 → Machine σ → Prop} {m n : Machine σ}

theorem length (chain : Chain Turn m operands results n) : results.length = operands.length := by
  induction chain with
  | done => rfl
  | next _ _ _ ih => rw [List.length_cons, List.length_cons, ih]

/-- What every turn makes of an operand that is worked on, all results are. -/
theorem forall_results {P : UInt8 → Prop}
    (each : ∀ {k l : Machine σ} {given result}, given ∈ operands → Turn k given result l → P result)
    (chain : Chain Turn m operands results n) : ∀ result ∈ results, P result := by
  induction chain with
  | done => exact List.forall_mem_nil _
  | next _ turn _ ih =>
    have first := each List.mem_cons_self turn
    exact List.forall_mem_cons.mpr ⟨first, ih fun member => each (List.mem_cons_of_mem _ member)⟩

/-- If every turn is exact, so is the chain, from the lowest digit to the highest. -/
theorem upwards (base : Nat) (digit : UInt8 → Nat) (value : α → Int) (weight : Int)
    (exact : ∀ {k l : Machine σ} {given result}, given ∈ operands → Turn k given result l →
      (digit result : Int) + base * (weight * l.carry.toNat) =
        value given + weight * k.carry.toNat)
    (chain : Chain Turn m operands results n) :
    ((Nat.ofDigits base (results.map digit) : Nat) : Int) +
        (base ^ operands.length : Nat) * (weight * n.carry.toNat) =
      total base value operands + weight * m.carry.toNat := by
  induction chain with
  | done kept => simp [total, kept]
  | next kept turn others ih =>
    have first := exact List.mem_cons_self turn
    have rest := ih fun member => exact (List.mem_cons_of_mem _ member)
    rw [kept] at first
    rw [List.map_cons, Nat.ofDigits_cons, total, List.length_cons, pow_succ]
    push_cast
    push_cast at rest
    linarith [congrArg ((base : Int) * ·) rest]

/-- If every turn adds two digits exactly, or subtracts them, the chain does so with two numbers. -/
theorem paired {Turn : Machine σ → UInt8 × UInt8 → UInt8 → Machine σ → Prop} {xs ys : List UInt8}
    (base : Nat) (digit : UInt8 → Nat) (sign : Int) (same : xs.length = ys.length)
    (exact : ∀ {k l : Machine σ} {x y result}, x ∈ xs → y ∈ ys → Turn k (x, y) result l →
      (digit result : Int) + base * (sign * l.carry.toNat) =
        digit x + sign * digit y + sign * k.carry.toNat)
    (chain : Chain Turn m (xs.zip ys) results n) :
    ((Nat.ofDigits base (results.map digit) : Nat) : Int) +
        (base ^ xs.length : Nat) * (sign * n.carry.toNat) =
      (Nat.ofDigits base (xs.map digit) : Nat) + sign * (Nat.ofDigits base (ys.map digit) : Nat) +
        sign * m.carry.toNat := by
  have summed := chain.upwards base digit (fun p => 1 * digit p.1 + sign * digit p.2) sign
    fun member turn => by
      have added := exact (List.of_mem_zip member).1 (List.of_mem_zip member).2 turn
      linarith
  rwa [total_zip base digit 1 sign same, List.length_zip, ← same, Nat.min_self, one_mul] at summed

/-- If every turn divides exactly by two, so does the chain, from the highest byte to the lowest. -/
theorem downwards {Turn : Machine σ → UInt8 → UInt8 → Machine σ → Prop}
    (exact : ∀ {k l : Machine σ} {v result}, Turn k v result l →
      2 * result.toNat + l.carry.toNat = v.toNat + 256 * k.carry.toNat)
    (chain : Chain Turn m bytes results n) :
    2 * number results.reverse + n.carry.toNat =
      number bytes.reverse + 256 ^ bytes.length * m.carry.toNat := by
  induction chain with
  | done kept => simp [kept]
  | next kept turn others ih =>
    have first := exact turn
    rw [kept] at first
    rw [number_reverse_cons, number_reverse_cons, others.length, List.length_cons, pow_succ]
    generalize 256 ^ List.length _ = place at ih ⊢
    have scaled := congrArg (place * ·) first
    linarith

end Chain

section Exact

variable {m n : Machine σ}

/-- What arithmetic leaves is the result with its flags: the load in front of it changes none. -/
theorem Combines.eq (turn : Combines op m (x, y) result n) :
    (result, n.console.hw.cpu.f) = Alu.apply op x y m.console.hw.cpu.f := by
  obtain ⟨loads, combines⟩ := turn
  obtain ⟨loaded, kept⟩ := step_loadA loads
  obtain ⟨combined, flags⟩ := step_alu combines
  rw [← loaded, ← kept]
  exact Prod.ext combined flags

theorem Combines.adc_exact (turn : Combines .adc m (x, y) result n) :
    result.toNat + 256 * n.carry.toNat = x.toNat + y.toNat + m.carry.toNat := by
  obtain ⟨rfl, flags⟩ := Prod.ext_iff.mp turn.eq
  rw [show n.carry = _ from congrArg Flags.c flags]
  exact Alu.add_exact x y m.carry

theorem Combines.sbc_exact (turn : Combines .sbc m (x, y) result n) :
    result.toNat + y.toNat + m.carry.toNat = x.toNat + 256 * n.carry.toNat := by
  obtain ⟨rfl, flags⟩ := Prod.ext_iff.mp turn.eq
  rw [show n.carry = _ from congrArg Flags.c flags]
  exact Alu.sub_exact x y m.carry

/-- What a shift leaves is the shifted byte and the bit that left it. -/
theorem Shifts.eq (turn : Shifts op m v result n) :
    (result, n.carry) = Alu.shift op v m.carry := by
  cases turn with
  | register executes =>
    obtain ⟨shifted, out⟩ := step_shift executes
    exact Prod.ext shifted out
  | memory executes bare ram wram =>
    obtain ⟨shifted, out⟩ := step_shift_memory bare executes ram wram
    exact Prod.ext shifted out

theorem Shifts.rl_exact (turn : Shifts (.rotate .rl) m v result n) :
    result.toNat + 256 * n.carry.toNat = 2 * v.toNat + m.carry.toNat := by
  obtain ⟨rfl, out⟩ := Prod.ext_iff.mp turn.eq
  rw [show n.carry = _ from out]
  exact Alu.rl_exact v m.carry

theorem Shifts.sla_exact (turn : Shifts .sla m v result n) :
    result.toNat + 256 * n.carry.toNat = 2 * v.toNat := by
  obtain ⟨rfl, out⟩ := Prod.ext_iff.mp (turn.eq.trans (Alu.shift_sla v m.carry))
  rw [show n.carry = _ from out]
  exact Alu.rl_exact v false

theorem Shifts.rr_exact (turn : Shifts (.rotate .rr) m v result n) :
    2 * result.toNat + n.carry.toNat = v.toNat + 256 * m.carry.toNat := by
  obtain ⟨rfl, out⟩ := Prod.ext_iff.mp turn.eq
  rw [show n.carry = _ from out]
  exact Alu.rr_exact v m.carry

theorem Shifts.srl_exact (turn : Shifts .srl m v result n) :
    2 * result.toNat + n.carry.toNat = v.toNat := by
  obtain ⟨rfl, out⟩ := Prod.ext_iff.mp (turn.eq.trans (Alu.shift_srl v m.carry))
  rw [show n.carry = _ from out]
  exact Alu.rr_exact v false

theorem Shifts.sra_exact (turn : Shifts .sra m v result n) :
    2 * result.toNat + n.carry.toNat = v.toNat + 256 * (Alu.topBit v).toNat := by
  obtain ⟨rfl, out⟩ := Prod.ext_iff.mp turn.eq
  rw [show n.carry = _ from out]
  exact Alu.rr_exact v (Alu.topBit v)

/-- An arithmetic shift keeps the sign. -/
theorem Shifts.topBit_sra (turn : Shifts .sra m v result n) :
    Alu.topBit result = Alu.topBit v := by
  have exact := turn.sra_exact
  have lost := n.carry.toNat_le
  simp only [Alu.topBit, UInt8.le_iff_toNat_le, Alu.toNat_decide, UInt8.reduceToNat] at exact ⊢
  simp only [decide_eq_decide]
  have low := v.toNat_lt
  split at exact <;> omega

end Exact

namespace Chain

variable {m k n : Machine σ} {xs ys rs : List UInt8}

theorem adc_exact (same : xs.length = ys.length)
    (chain : Chain (Combines .adc) m (xs.zip ys) rs n) :
    number rs + 256 ^ xs.length * n.carry.toNat = number xs + number ys + m.carry.toNat := by
  have added := chain.paired 256 UInt8.toNat 1 same fun _ _ turn => by
    have exact := turn.adc_exact
    omega
  simp only [number]
  zify at added ⊢
  linarith

theorem sbc_exact (same : xs.length = ys.length)
    (chain : Chain (Combines .sbc) m (xs.zip ys) rs n) :
    number rs + (number ys + m.carry.toNat) = number xs + 256 ^ xs.length * n.carry.toNat := by
  have subtracted := chain.paired 256 UInt8.toNat (-1) same fun _ _ turn => by
    have exact := turn.sbc_exact
    omega
  simp only [number]
  zify at subtracted ⊢
  linarith

theorem rl_exact (chain : Chain (Shifts (.rotate .rl)) m xs rs n) :
    number rs + 256 ^ xs.length * n.carry.toNat = 2 * number xs + m.carry.toNat := by
  have summed := chain.upwards 256 UInt8.toNat (fun x => 2 * (x.toNat : Int)) 1
    fun _ turn => by
      have exact := turn.rl_exact
      omega
  rw [total_double] at summed
  simp only [number] at summed ⊢
  zify at summed ⊢
  linarith

theorem sla_exact (first : Shifts .sla m x r k) (chain : Chain (Shifts (.rotate .rl)) k xs rs n) :
    number (r :: rs) + 256 * 256 ^ xs.length * n.carry.toNat = 2 * number (x :: xs) := by
  have lowest := first.sla_exact
  have others := chain.rl_exact
  rw [number_cons, number_cons]
  linarith

theorem rr_exact (chain : Chain (Shifts (.rotate .rr)) m xs rs n) :
    2 * number rs.reverse + n.carry.toNat =
      number xs.reverse + 256 ^ xs.length * m.carry.toNat := chain.downwards Shifts.rr_exact

/-- A byte on top that is halved, with its sign or without. -/
theorem rr_exact_cons (chain : Chain (Shifts (.rotate .rr)) k xs rs n) (sign : Nat)
    (first : 2 * r.toNat + k.carry.toNat = x.toNat + 256 * sign) :
    2 * number (r :: rs).reverse + n.carry.toNat =
      number (x :: xs).reverse + 256 ^ (xs.length + 1) * sign := by
  have others := chain.rr_exact
  have scaled := congrArg (256 ^ xs.length * ·) first
  rw [number_reverse_cons, number_reverse_cons, chain.length, pow_succ]
  linarith

theorem srl_exact (first : Shifts .srl m x r k) (chain : Chain (Shifts (.rotate .rr)) k xs rs n) :
    2 * number (r :: rs).reverse + n.carry.toNat = number (x :: xs).reverse := by
  simpa using chain.rr_exact_cons 0 first.srl_exact

theorem sra_exact (first : Shifts .sra m x r k) (chain : Chain (Shifts (.rotate .rr)) k xs rs n) :
    2 * signed (r :: rs).reverse + n.carry.toNat = signed (x :: xs).reverse := by
  have whole := chain.rr_exact_cons _ first.sra_exact
  rw [signed_reverse_cons, signed_reverse_cons, first.topBit_sra, chain.length]
  zify at whole
  linarith

end Chain

/-! Programs that have their bytes in them. -/

section Programs

variable {m : Machine σ} {code : List UInt8}

theorem encodes_loadA (v : UInt8) :
    (Instruction.load (.register .a) (.immediate v)).Encodes [0x3E, v] :=
  Instruction.encodes_withByte (f := fun v => .load (.register .a) (.immediate v)) rfl v

theorem encodes_shiftA {op : ShiftOp} {opcode : UInt8}
    (extended : Opcode.extended opcode = .shift op (.register .a)) :
    (Instruction.shift op (.register .a)).Encodes [0xCB, opcode] :=
  extended ▸ Instruction.encodes_withByte (f := Opcode.extended) rfl opcode

/-- Loads, each with arithmetic after it. -/
def arithmetic (opcode : UInt8) (operands : List (UInt8 × UInt8)) : List UInt8 :=
  operands.flatMap fun p => [0x3E, p.1, opcode, p.2]

/-- Loads, each with a shift of the byte after it. -/
def shifting (opcode : UInt8) (bytes : List UInt8) : List UInt8 :=
  bytes.flatMap fun v => [0x3E, v, 0xCB, opcode]

/-- A load leads to arithmetic. -/
theorem Runs.combines {op : AluOp} {opcode : UInt8}
    (encoding : Encoding.ofOpcode opcode = .withByte fun v => .alu op (.immediate v))
    (runs : m.Runs ([0x3E, x] ++ ([opcode, y] ++ code))) :
    Combines op m (x, y) (m.steps 2).console.hw.cpu.a (m.steps 2) ∧ (m.steps 2).Runs code := by
  have loads := runs.upcoming (encodes_loadA x)
  have loaded := runs.step_registers (encodes_loadA x) rfl rfl
  have encodes := Instruction.encodes_withByte encoding y
  exact ⟨.intro loads (loaded.upcoming encodes), loaded.step_registers encodes rfl rfl⟩

/-- A load leads to a shift and leaves carry alone. -/
theorem Runs.shifts {op : ShiftOp} {opcode : UInt8}
    (extended : Opcode.extended opcode = .shift op (.register .a))
    (runs : m.Runs ([0x3E, x] ++ ([0xCB, opcode] ++ code))) :
    m.step.2.carry = m.carry ∧
      Shifts op m.step.2 x (m.steps 2).console.hw.cpu.a (m.steps 2) ∧ (m.steps 2).Runs code := by
  have loads := runs.upcoming (encodes_loadA x)
  have loaded := runs.step_registers (encodes_loadA x) rfl rfl
  obtain ⟨byte, flags⟩ := step_loadA loads
  have shifts := Shifts.register (loaded.upcoming (encodes_shiftA extended))
  rw [show m.step.2.console.hw.cpu.get .a = x from byte] at shifts
  exact ⟨congrArg Flags.c flags, shifts, loaded.step_registers (encodes_shiftA extended) rfl rfl⟩

/-- Code that has a block for each operand works on them one after the other, if each block takes a
turn. -/
theorem Runs.chain {Turn : Machine σ → α → UInt8 → Machine σ → Prop} {block : α → List UInt8}
    (count : Nat)
    (turns : ∀ {k : Machine σ} {given code}, k.Runs (block given ++ code) →
      (k.steps count).Runs code ∧
        ∃ l result, l.carry = k.carry ∧ Turn l given result (k.steps count))
    (runs : m.Runs (operands.flatMap block ++ code)) :
    ∃ results, Chain Turn m operands results (m.steps (count * operands.length)) := by
  induction operands generalizing m with
  | nil => exact ⟨[], .done rfl⟩
  | cons given operands ih =>
    rw [List.flatMap_cons, List.append_assoc] at runs
    obtain ⟨behind, l, result, kept, turn⟩ := turns runs
    obtain ⟨results, others⟩ := ih behind
    rw [List.length_cons, Nat.mul_succ, steps, Function.iterate_add_apply]
    exact ⟨result :: results, .next kept turn others⟩

theorem Runs.combines_chain {op : AluOp} {opcode : UInt8}
    (encoding : Encoding.ofOpcode opcode = .withByte fun v => .alu op (.immediate v))
    (runs : m.Runs (arithmetic opcode operands ++ code)) :
    ∃ results, Chain (Combines op) m operands results (m.steps (2 * operands.length)) := by
  refine runs.chain 2 fun {k given code} block => ?_
  obtain ⟨turn, behind⟩ := Runs.combines encoding block
  exact ⟨behind, k, _, rfl, turn⟩

theorem Runs.shifts_chain {op : ShiftOp} {opcode : UInt8}
    (extended : Opcode.extended opcode = .shift op (.register .a))
    (runs : m.Runs (shifting opcode bytes ++ code)) :
    ∃ results, Chain (Shifts op) m bytes results (m.steps (2 * bytes.length)) := by
  refine runs.chain 2 fun {k given code} block => ?_
  obtain ⟨kept, turn, behind⟩ := Runs.shifts extended block
  exact ⟨behind, k.step.2, _, kept, turn⟩

end Programs

/-- Arithmetic through the carry flag is exact for numbers of any length. Loads and additions or
subtractions with carry, from the lowest byte to the highest, give the sum or the difference, and
carry says whether it leaves the range. Shifts and rotations to the left double a number, and to the
right they halve it, with or without a sign; carry is the bit that is lost. -/
theorem carry_chains_exact (m n : Machine σ) (xs ys rs : List UInt8) :
    let limit := 256 ^ xs.length
    let c := m.carry.toNat
    (xs.length = ys.length → Chain (Combines .adc) m (xs.zip ys) rs n →
      rs.length = xs.length ∧
        number rs = (number xs + number ys + c) % limit ∧
        (n.carry = true ↔ limit ≤ number xs + number ys + c)) ∧
    (xs.length = ys.length → Chain (Combines .sbc) m (xs.zip ys) rs n →
      rs.length = xs.length ∧
        (number rs : Int) = ((number xs : Int) - number ys - c) % limit ∧
        (n.carry = true ↔ number xs < number ys + c)) ∧
    (Chain (Shifts (.rotate .rl)) m xs rs n →
      rs.length = xs.length ∧
        number rs = (2 * number xs + c) % limit ∧
        (n.carry = true ↔ limit ≤ 2 * number xs + c)) ∧
    ∀ x r k,
      let bytes := (x :: xs).reverse
      let results := (r :: rs).reverse
      (Shifts .sla m x r k → Chain (Shifts (.rotate .rl)) k xs rs n →
        rs.length = xs.length ∧
          number (r :: rs) = 2 * number (x :: xs) % (256 * limit) ∧
          (n.carry = true ↔ 256 * limit ≤ 2 * number (x :: xs))) ∧
      (Shifts .srl m x r k → Chain (Shifts (.rotate .rr)) k xs rs n →
        rs.length = xs.length ∧
          number results = number bytes / 2 ∧
          (n.carry = true ↔ number bytes % 2 = 1)) ∧
      (Shifts .sra m x r k → Chain (Shifts (.rotate .rr)) k xs rs n →
        rs.length = xs.length ∧
          signed results = signed bytes / 2 ∧
          (n.carry = true ↔ number bytes % 2 = 1)) := by
  intro limit c
  have range {rs bytes : List UInt8} (same : rs.length = bytes.length) :
      number rs < 256 ^ bytes.length := same ▸ number_lt rs
  refine ⟨?_, ?_, ?_, ?_⟩
  · intro same chain
    have length : rs.length = xs.length := by
      rw [chain.length, List.length_zip, ← same, Nat.min_self]
    exact ⟨length, eq_mod_of_carry (chain.adc_exact same) (range length)⟩
  · intro same chain
    have length : rs.length = xs.length := by
      rw [chain.length, List.length_zip, ← same, Nat.min_self]
    obtain ⟨value, borrow⟩ := eq_emod_of_borrow (chain.sbc_exact same) (range length)
    rw [Nat.cast_add, ← sub_sub] at value
    exact ⟨length, value, borrow⟩
  · intro chain
    exact ⟨chain.length, eq_mod_of_carry chain.rl_exact (range chain.length)⟩
  intro x r k bytes results
  refine ⟨?_, ?_, ?_⟩
  · intro first chain
    have length : (r :: rs).length = (x :: xs).length := congrArg Nat.succ chain.length
    have below := range length
    rw [List.length_cons, Nat.pow_succ'] at below
    exact ⟨chain.length, eq_mod_of_carry (chain.sla_exact first) below⟩
  · intro first chain
    have exact := chain.srl_exact first
    refine ⟨chain.length, ?_⟩
    have halved : (number results : Int) = number bytes / 2 ∧ _ :=
      carry_of_halved (by exact_mod_cast exact)
    exact_mod_cast halved
  · intro first chain
    have exact := chain.sra_exact first
    obtain ⟨half, lost⟩ := carry_of_halved exact
    rw [signed_emod_two] at lost
    exact ⟨chain.length, half, by exact_mod_cast lost⟩

/-- Two bytes of each kind, with carry set before them. -/
theorem carry_chains_exact_two_bytes :
    let added := loaded (arithmetic 0xCE [(0xFF, 0x00), (0x00, 0xFF)])
    let subtracted := loaded (arithmetic 0xDE [(0x00, 0xFF), (0x00, 0xFF)])
    let rotated := loaded (shifting 0x17 [0x80, 0x80])
    let doubled := loaded (shifting 0x27 [0x80] ++ shifting 0x17 [0x80])
    let halved := loaded (shifting 0x3F [0x81] ++ shifting 0x1F [0x01])
    let signedHalved := loaded (shifting 0x2F [0x81] ++ shifting 0x1F [0x01])
    (∃ rs, Chain (Combines .adc) added ([0xFF, 0x00].zip [0x00, 0xFF]) rs (added.steps 4) ∧
      number rs = 0 ∧ (added.steps 4).carry = true) ∧
    (∃ rs, Chain (Combines .sbc) subtracted ([0x00, 0x00].zip [0xFF, 0xFF]) rs
        (subtracted.steps 4) ∧
      number rs = 0 ∧ (subtracted.steps 4).carry = true) ∧
    (∃ rs, Chain (Shifts (.rotate .rl)) rotated [0x80, 0x80] rs (rotated.steps 4) ∧
      number rs = 0x0101 ∧ (rotated.steps 4).carry = true) ∧
    (∃ r rs, Shifts .sla doubled.step.2 0x80 r (doubled.steps 2) ∧
      Chain (Shifts (.rotate .rl)) (doubled.steps 2) [0x80] rs (doubled.steps 4) ∧
      number (r :: rs) = 0x0100 ∧ (doubled.steps 4).carry = true) ∧
    (∃ r rs, Shifts .srl halved.step.2 0x81 r (halved.steps 2) ∧
      Chain (Shifts (.rotate .rr)) (halved.steps 2) [0x01] rs (halved.steps 4) ∧
      number (r :: rs).reverse = 0x4080 ∧ (halved.steps 4).carry = true) ∧
    ∃ r rs, Shifts .sra signedHalved.step.2 0x81 r (signedHalved.steps 2) ∧
      Chain (Shifts (.rotate .rr)) (signedHalved.steps 2) [0x01] rs (signedHalved.steps 4) ∧
      signed (r :: rs).reverse = -0x3F80 ∧ (signedHalved.steps 4).carry = true := by
  intro added subtracted rotated doubled halved signedHalved
  have addedRuns : added.Runs (arithmetic 0xCE [(0xFF, 0x00), (0x00, 0xFF)] ++ []) :=
    runs_loaded (by decide)
  have subtractedRuns : subtracted.Runs (arithmetic 0xDE [(0x00, 0xFF), (0x00, 0xFF)] ++ []) :=
    runs_loaded (by decide)
  have rotatedRuns : rotated.Runs (shifting 0x17 [0x80, 0x80] ++ []) :=
    runs_loaded (by decide)
  have doubledRuns : doubled.Runs (shifting 0x27 [0x80] ++ (shifting 0x17 [0x80] ++ [])) :=
    runs_loaded (by decide)
  have halvedRuns : halved.Runs (shifting 0x3F [0x81] ++ (shifting 0x1F [0x01] ++ [])) :=
    runs_loaded (by decide)
  have signedHalvedRuns :
      signedHalved.Runs (shifting 0x2F [0x81] ++ (shifting 0x1F [0x01] ++ [])) :=
    runs_loaded (by decide)
  refine ⟨?_, ?_, ?_, ?_, ?_, ?_⟩
  · obtain ⟨rs, chain⟩ := addedRuns.combines_chain rfl
    obtain ⟨-, value, out⟩ := (carry_chains_exact _ _ [0xFF, 0x00] [0x00, 0xFF] rs).1 rfl chain
    have carry : added.carry = true := rfl
    rw [carry] at value out
    exact ⟨rs, chain, value, out.mpr (by decide)⟩
  · obtain ⟨rs, chain⟩ := subtractedRuns.combines_chain rfl
    obtain ⟨-, value, out⟩ := (carry_chains_exact _ _ [0x00, 0x00] [0xFF, 0xFF] rs).2.1 rfl chain
    exact ⟨rs, chain, Int.ofNat_inj.mp value, out.mpr (by decide)⟩
  · obtain ⟨rs, chain⟩ := rotatedRuns.shifts_chain rfl
    obtain ⟨-, value, out⟩ := (carry_chains_exact _ _ [0x80, 0x80] [] rs).2.2.1 chain
    have carry : rotated.carry = true := rfl
    rw [carry] at value out
    exact ⟨rs, chain, value, out.mpr (by decide)⟩
  · obtain ⟨-, first, behind⟩ := Runs.shifts rfl doubledRuns
    obtain ⟨rs, chain⟩ := behind.shifts_chain rfl
    obtain ⟨-, value, out⟩ := ((carry_chains_exact _ _ [0x80] [] rs).2.2.2 0x80 _ _).1 first chain
    exact ⟨_, rs, first, chain, value, out.mpr (by decide)⟩
  · obtain ⟨-, first, behind⟩ := Runs.shifts rfl halvedRuns
    obtain ⟨rs, chain⟩ := behind.shifts_chain rfl
    obtain ⟨-, value, out⟩ := ((carry_chains_exact _ _ [0x01] [] rs).2.2.2 0x81 _ _).2.1 first chain
    exact ⟨_, rs, first, chain, value, out.mpr (by decide)⟩
  · obtain ⟨-, first, behind⟩ := Runs.shifts rfl signedHalvedRuns
    obtain ⟨rs, chain⟩ := behind.shifts_chain rfl
    obtain ⟨-, value, out⟩ := ((carry_chains_exact _ _ [0x01] [] rs).2.2.2 0x81 _ _).2.2 first chain
    exact ⟨_, rs, first, chain, value, out.mpr (by decide)⟩

end Machine

end GameBoy
