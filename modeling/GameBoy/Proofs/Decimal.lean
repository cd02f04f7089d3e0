import GameBoy.Proofs.CarryChains

/-!
Decimal numbers of any length, two digits to a byte. A decimal adjustment mends what an addition or
a subtraction of two such bytes has left, and the carry that it leaves is the decimal one; a chain
of bytes adds that up. Main statement: `decimal_chains_exact`.
-/

namespace GameBoy

/-- Both halves of a byte are decimal digits. -/
def Packed (v : UInt8) : Prop := v.toNat / 16 < 10 ∧ v.toNat % 16 < 10

instance (v : UInt8) : Decidable (Packed v) := inferInstanceAs (Decidable (_ ∧ _))

/-- The number that the halves of a byte stand for, the upper one in front. -/
def twoDigits (v : UInt8) : Nat := v.toNat / 16 * 10 + v.toNat % 16

/-- The decimal number that some bytes stand for, the lowest one first. -/
def decimal (bytes : List UInt8) : Nat := Nat.ofDigits 100 (bytes.map twoDigits)

theorem twoDigits_lt (packed : Packed v) : twoDigits v < 100 := by
  obtain ⟨upper, lower⟩ := packed
  rw [twoDigits]
  omega

theorem decimal_lt (packed : ∀ v ∈ bytes, Packed v) : decimal bytes < 100 ^ bytes.length := by
  have digits : ∀ d ∈ bytes.map twoDigits, d < 100 := by
    intro d member
    obtain ⟨byte, inside, rfl⟩ := List.mem_map.mp member
    exact twoDigits_lt (packed byte inside)
  simpa [decimal] using Nat.ofDigits_lt_base_pow_length (by decide) digits

/-! One byte, with the decimal carry before it and the one after it. -/

namespace Alu

section Adjusted

variable {x y : UInt8}

theorem toNat_or (p q : Bool) : (p || q).toNat = if p = true ∨ q = true then 1 else 0 := by
  cases p <;> cases q <;> rfl

/-- A sum is mended where a digit has passed nine, whether it has left its half or not. -/
theorem decimalAdjust_add (first : Packed x) (second : Packed y) (carry : Bool) :
    let sum := add x y carry
    let adjusted := decimalAdjust sum.1 sum.2
    Packed adjusted.1 ∧
      twoDigits adjusted.1 + 100 * adjusted.2.c.toNat =
        twoDigits x + twoDigits y + carry.toNat := by
  have lowCarry := carry.toNat_le
  simp only [Packed, twoDigits] at *
  simp only [add, decimalAdjust, UInt8.lt_iff_toNat_lt, Bool.not_false, Bool.true_and, toNat_or,
    Bool.or_eq_true, decide_eq_true_eq, Bool.false_eq_true, if_false, UInt8.toNat_mod,
    UInt8.toNat_add, toNat_carry, UInt8.reduceToNat]
  split_ifs <;> simp only [UInt8.toNat_add, toNat_carry, UInt8.reduceToNat] at * <;> omega

/-- A difference is mended where a digit has borrowed. -/
theorem decimalAdjust_sub (first : Packed x) (second : Packed y) (borrow : Bool) :
    let difference := sub x y borrow
    let adjusted := decimalAdjust difference.1 difference.2
    Packed adjusted.1 ∧
      twoDigits adjusted.1 + twoDigits y + borrow.toNat =
        twoDigits x + 100 * adjusted.2.c.toNat := by
  have lowBorrow := borrow.toNat_le
  simp only [Packed, twoDigits] at *
  simp only [sub, decimalAdjust, Bool.not_true, Bool.false_and, Bool.or_false, decide_eq_true_eq,
    if_true, toNat_decide]
  split_ifs <;> simp only [UInt8.toNat_sub, toNat_carry, UInt8.reduceToNat] at * <;> omega

end Adjusted

theorem flags_decimalAdjust (a : UInt8) (f : Flags) :
    let adjusted := decimalAdjust a f
    adjusted.2.h = false ∧ (adjusted.2.z = true ↔ adjusted.1 = 0) ∧ adjusted.2.n = f.n := by
  simp [decimalAdjust]

end Alu

namespace Machine

/-- Arithmetic on two bytes, with a decimal adjustment after it. The result is what the accumulator
holds in the end. -/
inductive Adjusts (op : AluOp) (m : Machine σ) : UInt8 × UInt8 → UInt8 → Machine σ → Prop
  | intro (combines : Combines op m given result k) (adjusts : k.upcoming = .executes .daa) :
    Adjusts op m given k.step.2.console.hw.cpu.a k.step.2

section Exact

variable {m n : Machine σ}

theorem Combines.a (turn : Combines op m given result n) : n.console.hw.cpu.a = result := by
  cases turn
  rfl

/-- What is left is the mended result of the arithmetic. -/
theorem Adjusts.eq (turn : Adjusts op m (x, y) result n) :
    let combined := Alu.apply op x y m.console.hw.cpu.f
    (result, n.console.hw.cpu.f) = Alu.decimalAdjust combined.1 combined.2 := by
  obtain ⟨combines, adjusts⟩ := turn
  obtain ⟨adjusted, flags⟩ := step_daa adjusts
  rw [combines.a] at adjusted flags
  rw [← combines.eq]
  exact Prod.ext adjusted flags

theorem Adjusts.adc_exact (first : Packed x) (second : Packed y)
    (turn : Adjusts .adc m (x, y) result n) :
    Packed result ∧
      twoDigits result + 100 * n.carry.toNat = twoDigits x + twoDigits y + m.carry.toNat := by
  obtain ⟨rfl, flags⟩ := Prod.ext_iff.mp turn.eq
  rw [show n.carry = _ from congrArg Flags.c flags]
  exact Alu.decimalAdjust_add first second m.carry

theorem Adjusts.sbc_exact (first : Packed x) (second : Packed y)
    (turn : Adjusts .sbc m (x, y) result n) :
    Packed result ∧
      twoDigits result + twoDigits y + m.carry.toNat = twoDigits x + 100 * n.carry.toNat := by
  obtain ⟨rfl, flags⟩ := Prod.ext_iff.mp turn.eq
  rw [show n.carry = _ from congrArg Flags.c flags]
  exact Alu.decimalAdjust_sub first second m.carry

end Exact

/-- If every turn adds or subtracts two digits exactly, and leaves two digits again, the chain does
so with two decimal numbers. -/
theorem Chain.decimal_exact {m n : Machine σ} {xs ys rs : List UInt8}
    {Turn : Machine σ → UInt8 × UInt8 → UInt8 → Machine σ → Prop} (sign : Int)
    (same : xs.length = ys.length) (first : ∀ x ∈ xs, Packed x) (second : ∀ y ∈ ys, Packed y)
    (exact : ∀ {k l : Machine σ} {x y result}, Packed x → Packed y → Turn k (x, y) result l →
      Packed result ∧ (twoDigits result : Int) + 100 * (sign * l.carry.toNat) =
        twoDigits x + sign * twoDigits y + sign * k.carry.toNat)
    (chain : Chain Turn m (xs.zip ys) rs n) :
    (∀ r ∈ rs, Packed r) ∧
      (decimal rs : Int) + (100 ^ xs.length : Nat) * (sign * n.carry.toNat) =
        decimal xs + sign * decimal ys + sign * m.carry.toNat := by
  constructor
  · refine chain.forall_results fun {k l given result} member turn => ?_
    have ⟨left, right⟩ := List.of_mem_zip member
    exact (exact (first _ left) (second _ right) turn).1
  · exact chain.paired 100 twoDigits sign same fun left right turn =>
      (exact (first _ left) (second _ right) turn).2

/-! A program that has its bytes in it. -/

/-- Loads, each with arithmetic and a decimal adjustment after it. -/
def decimalArithmetic (opcode : UInt8) (operands : List (UInt8 × UInt8)) : List UInt8 :=
  operands.flatMap fun p => [0x3E, p.1, opcode, p.2, 0x27]

theorem Runs.adjusts_chain {m : Machine σ} {op : AluOp} {opcode : UInt8} {code : List UInt8}
    (encoding : Encoding.ofOpcode opcode = .withByte fun v => .alu op (.immediate v))
    (runs : m.Runs (decimalArithmetic opcode operands ++ code)) :
    ∃ results, Chain (Adjusts op) m operands results (m.steps (3 * operands.length)) := by
  refine runs.chain 3 fun {k given code} block => ?_
  have entered : k.Runs ([0x3E, given.1] ++ ([opcode, given.2] ++ ([0x27] ++ code))) := block
  obtain ⟨combined, adjusts⟩ := Runs.combines encoding entered
  have daa : Instruction.daa.Encodes [0x27] := Instruction.encodes_complete rfl
  exact ⟨adjusts.step_registers daa rfl rfl, k, _, rfl, .intro combined (adjusts.upcoming daa)⟩

/-- Decimal arithmetic is exact for numbers of any length. Loads, additions or subtractions with
carry, and decimal adjustments, from the lowest pair of digits to the highest, give the decimal sum
or difference, and carry says whether it leaves the range. Every decimal adjustment clears half
carry, tells whether its result is zero, and still says which arithmetic it belongs to. -/
theorem decimal_chains_exact (m n : Machine σ) (xs ys rs : List UInt8)
    (same : xs.length = ys.length) (first : ∀ x ∈ xs, Packed x) (second : ∀ y ∈ ys, Packed y) :
    let limit := 100 ^ xs.length
    let c := m.carry.toNat
    (Chain (Adjusts .adc) m (xs.zip ys) rs n →
      rs.length = xs.length ∧ (∀ r ∈ rs, Packed r) ∧
        decimal rs = (decimal xs + decimal ys + c) % limit ∧
        (n.carry = true ↔ limit ≤ decimal xs + decimal ys + c)) ∧
    (Chain (Adjusts .sbc) m (xs.zip ys) rs n →
      rs.length = xs.length ∧ (∀ r ∈ rs, Packed r) ∧
        (decimal rs : Int) = ((decimal xs : Int) - decimal ys - c) % limit ∧
        (n.carry = true ↔ decimal xs < decimal ys + c)) ∧
    ∀ k : Machine σ, k.upcoming = .executes .daa →
      let after := k.step.2.console.hw.cpu
      after.f.h = false ∧ (after.f.z = true ↔ after.a = 0) ∧ after.f.n = k.console.hw.cpu.f.n := by
  intro limit c
  have length {op : AluOp} (chain : Chain (Adjusts op) m (xs.zip ys) rs n) :
      rs.length = xs.length := by
    rw [chain.length, List.length_zip, ← same, Nat.min_self]
  have range (length : rs.length = xs.length) (packed : ∀ r ∈ rs, Packed r) :
      decimal rs < 100 ^ xs.length := length ▸ decimal_lt packed
  refine ⟨?_, ?_, ?_⟩
  · intro chain
    obtain ⟨packed, added⟩ := chain.decimal_exact 1 same first second fun left right turn => by
      obtain ⟨packed, exact⟩ := turn.adc_exact left right
      exact ⟨packed, by omega⟩
    have exact : decimal rs + limit * n.carry.toNat = decimal xs + decimal ys + c := by
      zify
      linarith
    exact ⟨length chain, packed, eq_mod_of_carry exact (range (length chain) packed)⟩
  · intro chain
    obtain ⟨packed, subtracted⟩ := chain.decimal_exact (-1) same first second
      fun left right turn => by
        obtain ⟨packed, exact⟩ := turn.sbc_exact left right
        exact ⟨packed, by omega⟩
    have exact : decimal rs + (decimal ys + c) = decimal xs + limit * n.carry.toNat := by
      zify
      linarith
    obtain ⟨value, borrow⟩ := eq_emod_of_borrow exact (range (length chain) packed)
    rw [Nat.cast_add, ← sub_sub] at value
    exact ⟨length chain, packed, value, borrow⟩
  · intro k adjusts after
    obtain ⟨adjusted, flags⟩ := step_daa adjusts
    rw [adjusted, flags]
    exact Alu.flags_decimalAdjust _ _

/-- A sum and a difference of four digits that both leave the range, with carry set before them, and
an adjustment by itself. -/
theorem decimal_chains_exact_four_digits :
    let added := loaded (decimalArithmetic 0xCE [(0x45, 0x55), (0x38, 0x61)])
    let subtracted := loaded (decimalArithmetic 0xDE [(0x00, 0x01), (0x10, 0x10)])
    let adjusted := loaded [0x27]
    (∀ v ∈ [0x45, 0x38, 0x55, 0x61, 0x00, 0x10, 0x01], Packed v) ∧
    (∃ rs, Chain (Adjusts .adc) added ([0x45, 0x38].zip [0x55, 0x61]) rs (added.steps 6) ∧
      decimal rs = 1 ∧ (added.steps 6).carry = true) ∧
    (∃ rs, Chain (Adjusts .sbc) subtracted ([0x00, 0x10].zip [0x01, 0x10]) rs
        (subtracted.steps 6) ∧
      decimal rs = 9998 ∧ (subtracted.steps 6).carry = true) ∧
    adjusted.upcoming = .executes .daa ∧ adjusted.step.2.console.hw.cpu.f.h = false := by
  intro added subtracted adjusted
  have addedRuns : added.Runs (decimalArithmetic 0xCE [(0x45, 0x55), (0x38, 0x61)] ++ []) :=
    runs_loaded (by decide)
  have subtractedRuns :
      subtracted.Runs (decimalArithmetic 0xDE [(0x00, 0x01), (0x10, 0x10)] ++ []) :=
    runs_loaded (by decide)
  have adjustedRuns : adjusted.Runs ([0x27] ++ []) := runs_loaded (by decide)
  have packed {a b : UInt8} (low : Packed a) (high : Packed b) : ∀ v ∈ [a, b], Packed v := by
    simp [low, high]
  refine ⟨?_, ?_, ?_, ?_⟩
  · intro v among
    fin_cases among <;> decide
  · obtain ⟨rs, chain⟩ := addedRuns.adjusts_chain rfl
    obtain ⟨-, -, value, out⟩ := (decimal_chains_exact _ _ [0x45, 0x38] [0x55, 0x61] rs rfl
      (packed (by decide) (by decide)) (packed (by decide) (by decide))).1 chain
    have carry : added.carry = true := rfl
    rw [carry] at value out
    exact ⟨rs, chain, value, out.mpr (by decide)⟩
  · obtain ⟨rs, chain⟩ := subtractedRuns.adjusts_chain rfl
    obtain ⟨-, -, value, out⟩ := (decimal_chains_exact _ _ [0x00, 0x10] [0x01, 0x10] rs rfl
      (packed (by decide) (by decide)) (packed (by decide) (by decide))).2.1 chain
    have carry : subtracted.carry = true := rfl
    rw [carry] at value out
    exact ⟨rs, chain, Int.ofNat_inj.mp value, out.mpr (by decide)⟩
  · have adjusts := adjustedRuns.upcoming (Instruction.encodes_complete (i := .daa) rfl)
    obtain ⟨-, -, flags⟩ := decimal_chains_exact adjusted adjusted [] [] [] rfl (by simp) (by simp)
    exact ⟨adjusts, (flags adjusted adjusts).1⟩

end Machine

end GameBoy
