import GameBoy.Alu
import GameBoy.Proofs.Codec
import Mathlib.Data.Nat.Digits.Defs
import Mathlib.Tactic.Linarith
import Mathlib.Tactic.Ring

/-!
Numbers in bytes, the lowest byte first: the number that some bytes stand for, with a sign or
without, and what the carry behind it says. Main statements: `readNumber_eq` says which number is
read, `eq_mod_of_carry` and `eq_emod_of_borrow` that a carry makes up for what does not fit.
-/

namespace GameBoy

/-- The number that some bytes stand for, the lowest one first. -/
def number (bytes : List UInt8) : Nat := Nat.ofDigits 256 (bytes.map UInt8.toNat)

/-- The number that they stand for in two's complement. -/
def signed (bytes : List UInt8) : Int :=
  if 2 * number bytes < 256 ^ bytes.length then number bytes
  else number bytes - 256 ^ bytes.length

@[simp] theorem number_nil : number [] = 0 := rfl

@[simp] theorem number_cons (byte : UInt8) (bytes : List UInt8) :
    number (byte :: bytes) = byte.toNat + 256 * number bytes := Nat.ofDigits_cons

theorem number_reverse_cons (byte : UInt8) (bytes : List UInt8) :
    number (byte :: bytes).reverse = number bytes.reverse + 256 ^ bytes.length * byte.toNat := by
  have last := Nat.ofDigits_reverse_cons (b := 256) (bytes.map UInt8.toNat) byte.toNat
  rwa [← List.map_cons, ← List.map_reverse, ← List.map_reverse, List.length_map] at last

theorem number_lt (bytes : List UInt8) : number bytes < 256 ^ bytes.length := by
  have digits : ∀ d ∈ bytes.map UInt8.toNat, d < 256 := by
    intro d member
    obtain ⟨byte, -, rfl⟩ := List.mem_map.mp member
    exact byte.toNat_lt
  simpa [number] using Nat.ofDigits_lt_base_pow_length (by decide) digits

theorem readNumber_of_append (front rest : List UInt8) :
    Layout.readNumber front.length (front ++ rest) = .ok (number front, rest) := by
  induction front with
  | nil => rfl
  | cons byte front ih =>
    simp only [List.length_cons, List.cons_append, Layout.readNumber, ih, number_cons]

theorem readNumber_of_short (short : bytes.length < width) :
    Layout.readNumber width bytes = .error .endOfInput := by
  induction bytes generalizing width with
  | nil =>
    cases width with
    | zero => cases short
    | succ => rfl
  | cons byte bytes ih =>
    cases width with
    | zero => cases short
    | succ width => rw [Layout.readNumber, ih (Nat.lt_of_succ_lt_succ short)]

/-- The number that is read is what the bytes at the front stand for. -/
theorem readNumber_eq (width : Nat) (bytes : List UInt8) :
    Layout.readNumber width bytes =
      if bytes.length < width then .error .endOfInput
      else .ok (number (bytes.take width), bytes.drop width) := by
  split
  · exact readNumber_of_short ‹_›
  · have found := readNumber_of_append (bytes.take width) (bytes.drop width)
    rwa [List.take_append_drop, List.length_take_of_le (Nat.not_lt.mp ‹_›)] at found

theorem number_writeNumber (width : Nat) {n : Nat} (fits : n < 256 ^ width) :
    number (Layout.writeNumber width n) = n := by
  have back := Layout.readNumber_writeNumber width fits []
  have found := readNumber_of_append (Layout.writeNumber width n) []
  rw [Layout.length_writeNumber, back] at found
  exact (congrArg Prod.fst (Except.ok.inj found)).symm

/-- A sum of digits of any size, each with the weight of its place. -/
def total (base : Nat) (value : α → Int) : List α → Int
  | [] => 0
  | operand :: operands => value operand + base * total base value operands

theorem total_double (xs : List UInt8) :
    total 256 (fun x => 2 * (x.toNat : Int)) xs = 2 * number xs := by
  induction xs with
  | nil => rfl
  | cons x xs ih =>
    rw [total, ih, number_cons]
    push_cast
    ring

theorem total_zip (base : Nat) (digit : UInt8 → Nat) (a b : Int) {xs ys : List UInt8}
    (same : xs.length = ys.length) :
    total base (fun p : UInt8 × UInt8 => a * digit p.1 + b * digit p.2) (xs.zip ys) =
      a * Nat.ofDigits base (xs.map digit) + b * Nat.ofDigits base (ys.map digit) := by
  induction xs generalizing ys with
  | nil =>
    rw [List.length_eq_zero_iff.mp same.symm]
    simp [total]
  | cons x xs ih =>
    cases ys with
    | nil => cases same
    | cons y ys =>
      rw [List.zip_cons_cons, total, ih (Nat.succ.inj same), List.map_cons, List.map_cons,
        Nat.ofDigits_cons, Nat.ofDigits_cons]
      push_cast
      ring

/-- The highest byte decides the sign. -/
theorem signed_reverse_cons (top : UInt8) (bytes : List UInt8) :
    signed (top :: bytes).reverse =
      number (top :: bytes).reverse - 256 ^ (bytes.length + 1) * ((Alu.topBit top).toNat : Int) := by
  have below := number_lt bytes.reverse
  rw [List.length_reverse] at below
  have negative : ¬2 * number (top :: bytes).reverse < 256 ^ (bytes.length + 1) ↔
      Alu.topBit top = true := by
    rw [number_reverse_cons, pow_succ, Alu.topBit, decide_eq_true_iff, UInt8.le_iff_toNat_le,
      show (0x80 : UInt8).toNat = 128 from rfl]
    generalize 256 ^ bytes.length = place at below ⊢
    constructor
    · intro large
      by_contra small
      have : place * top.toNat ≤ place * 127 := Nat.mul_le_mul_left _ (by omega)
      omega
    · intro large
      have : place * 128 ≤ place * top.toNat := Nat.mul_le_mul_left _ large
      omega
  rw [signed, List.length_reverse, List.length_cons]
  cases set : Alu.topBit top with
  | false =>
    rw [if_pos (not_not.mp (mt negative.mp (Bool.eq_false_iff.mp set)))]
    simp
  | true =>
    rw [if_neg (negative.mpr set)]
    simp

theorem signed_emod_two (top : UInt8) (bytes : List UInt8) :
    signed (top :: bytes).reverse % 2 = number (top :: bytes).reverse % 2 := by
  rw [signed_reverse_cons, pow_succ', mul_assoc]
  omega

/-! What the carries before and after a number say about it. -/

theorem eq_mod_of_carry {r sum limit : Nat} {carry : Bool}
    (exact : r + limit * carry.toNat = sum) (below : r < limit) :
    r = sum % limit ∧ (carry = true ↔ limit ≤ sum) := by
  cases carry with
  | false =>
    simp only [Bool.toNat_false, Nat.mul_zero, Nat.add_zero] at exact
    subst exact
    simp [Nat.mod_eq_of_lt below, below]
  | true =>
    simp only [Bool.toNat_true, Nat.mul_one] at exact
    subst exact
    simp [Nat.mod_eq_of_lt below]

theorem eq_emod_of_borrow {r x taken limit : Nat} {borrow : Bool}
    (exact : r + taken = x + limit * borrow.toNat) (below : r < limit) :
    (r : Int) = ((x : Int) - taken) % limit ∧ (borrow = true ↔ x < taken) := by
  have wrapped : ((x : Int) - taken) + limit * borrow.toNat = r := by
    push_cast [← Int.natCast_inj] at exact
    linarith
  have inside : (0 : Int) ≤ r ∧ (r : Int) < limit := by omega
  constructor
  · rw [← Int.add_mul_emod_self_left _ _ (borrow.toNat : Int), wrapped,
      Int.emod_eq_of_lt inside.1 inside.2]
  · cases borrow with
    | false =>
      simp only [Bool.toNat_false, Nat.mul_zero, Nat.add_zero] at exact
      simp
      omega
    | true =>
      simp only [Bool.toNat_true, Nat.mul_one] at exact
      simp
      omega

theorem carry_of_halved {half whole : Int} {carry : Bool} (exact : 2 * half + carry.toNat = whole) :
    half = whole / 2 ∧ (carry = true ↔ whole % 2 = 1) := by
  cases carry with
  | false =>
    simp only [Bool.toNat_false] at exact
    simp only [Bool.false_eq_true, false_iff]
    omega
  | true =>
    simp only [Bool.toNat_true] at exact
    simp only [true_iff]
    omega

end GameBoy
