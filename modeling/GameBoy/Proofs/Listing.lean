import GameBoy.Instruction.Text
import GameBoy.Proofs.Assembler

/-!
Listings can be read back. A line of a listing is the name of an operation with up to two operands,
in words that spaces separate, and each word is spelled in a way of its own. Main statements:
`Instruction.text_injective`, and `listing_unambiguous`, which says that a line tells the bytes that
it was decoded from.
-/

namespace GameBoy

namespace Text

namespace Hex

/-- The number that a hexadecimal digit stands for. -/
def digit (c : Char) : Nat := if c.isDigit then c.toNat - 48 else c.toNat - 87

/-- The number that hexadecimal digits stand for, most significant first. -/
def value (text : List Char) : Nat := text.foldl (fun n c => 16 * n + digit c) 0

theorem digit_digitChar : ∀ n : Fin 16, digit (Nat.digitChar n) = n := by decide

theorem value_digits (width n : Nat) : value (digits width n) = n % 16 ^ width := by
  induction width generalizing n with
  | zero => simp [digits, value, Nat.mod_one]
  | succ width ih =>
    have last := digit_digitChar ⟨n % 16, Nat.mod_lt _ (by decide)⟩
    have front := ih (n / 16)
    simp only [value] at front last ⊢
    rw [digits, List.foldl_append, front, List.foldl_cons, List.foldl_nil, last, Nat.pow_succ,
      Nat.mul_comm (16 ^ width), Nat.mod_mul, Nat.add_comm]

theorem value_byte (b : UInt8) : UInt8.ofNat (value (digits 2 b.toNat)) = b := by
  rw [value_digits, show 16 ^ 2 = 2 ^ 8 from rfl, Nat.mod_eq_of_lt b.toNat_lt, UInt8.ofNat_toNat]

theorem value_word (w : UInt16) : UInt16.ofNat (value (digits 4 w.toNat)) = w := by
  rw [value_digits, show 16 ^ 4 = 2 ^ 16 from rfl, Nat.mod_eq_of_lt w.toNat_lt, UInt16.ofNat_toNat]

theorem notMem_digits (width n : Nat) : ' ' ∉ digits width n := by
  have printed : ∀ n : Fin 16, ' ' ≠ Nat.digitChar n := by decide
  induction width generalizing n with
  | zero => exact List.not_mem_nil
  | succ width ih =>
    rw [digits, List.mem_append, List.mem_singleton, not_or]
    exact ⟨ih _, printed ⟨n % 16, Nat.mod_lt _ (by decide)⟩⟩

end Hex

/-- The characters of a byte as two's complement decimal text. -/
def signedDigits (b : UInt8) : List Char :=
  if b < 0x80 then Nat.toDigits 10 b.toNat else '-' :: Nat.toDigits 10 (256 - b.toNat)

theorem toList_signed (b : UInt8) : (signed b).toList = signedDigits b := by
  have printed (n : Nat) : (toString n).toList = Nat.toDigits 10 n := Nat.toList_repr
  unfold signed signedDigits
  split
  · rw [printed]
  · rw [String.toList_append, printed]
    rfl

theorem toList_withSign (b : UInt8) :
    (withSign b).toList = if b < 0x80 then '+' :: signedDigits b else signedDigits b := by
  unfold withSign
  split
  · rw [String.toList_append, toList_signed]
    rfl
  · rw [toList_signed]

/-- What a number is spelled with. -/
def Numeral (c : Char) : Prop := c = '-' ∨ c.isDigit = true

instance (c : Char) : Decidable (Numeral c) := inferInstanceAs (Decidable (_ ∨ _))

theorem digit_of_mem_toDigits {c : Char} (among : c ∈ Nat.toDigits 10 n) : c.isDigit = true :=
  Nat.isDigit_of_mem_toDigits (by decide) (by decide) among

theorem numeral_signedDigits (b : UInt8) : ∀ c ∈ signedDigits b, Numeral c := by
  intro c among
  unfold signedDigits at among
  split at among
  · exact .inr (digit_of_mem_toDigits among)
  · rcases List.mem_cons.mp among with sign | digit
    · exact .inl sign
    · exact .inr (digit_of_mem_toDigits digit)

theorem notMem_signedDigits (b : UInt8) : ' ' ∉ signedDigits b :=
  fun among => absurd (numeral_signedDigits b ' ' among) (by decide)

theorem signedDigits_ne_nil (b : UInt8) : signedDigits b ≠ [] := by
  unfold signedDigits
  split
  · exact Nat.toDigits_ne_nil
  · exact List.cons_ne_nil _ _

/-- Reads a number that may have a sign. -/
def readSigned : List Char → UInt8
  | '-' :: digits => 0 - UInt8.ofNat (Nat.ofDigitChars 10 digits 0)
  | '+' :: digits => UInt8.ofNat (Nat.ofDigitChars 10 digits 0)
  | digits => UInt8.ofNat (Nat.ofDigitChars 10 digits 0)

theorem value_toDigits (n : Nat) : Nat.ofDigitChars 10 (Nat.toDigits 10 n) 0 = n :=
  Nat.ofDigitChars_toDigits (by decide) (by decide)

theorem readSigned_toDigits (n : Nat) : readSigned (Nat.toDigits 10 n) = UInt8.ofNat n := by
  have value := value_toDigits n
  have digits {c : Char} := digit_of_mem_toDigits (n := n) (c := c)
  generalize Nat.toDigits 10 n = text at value digits
  -- A digit is neither of the signs.
  unfold readSigned
  split
  · cases digits List.mem_cons_self
  · cases digits List.mem_cons_self
  · rw [value]

theorem readSigned_signedDigits (b : UInt8) : readSigned (signedDigits b) = b := by
  unfold signedDigits
  split
  · rw [readSigned_toDigits, UInt8.ofNat_toNat]
  · rename_i high
    have bound := b.toNat_lt
    simp only [UInt8.lt_iff_toNat_lt, UInt8.reduceToNat] at high
    rw [readSigned, value_toDigits]
    apply UInt8.toNat.inj
    simp only [UInt8.toNat_sub, UInt8.toNat_ofNat', UInt8.reduceToNat]
    omega

/-- The sign in front of a number that is not negative tells nothing. -/
theorem readSigned_withSign (b : UInt8) : readSigned (withSign b).toList = b := by
  rw [toList_withSign]
  split
  · rename_i low
    rw [signedDigits, if_pos low, readSigned, value_toDigits, UInt8.ofNat_toNat]
  · exact readSigned_signedDigits b

end Text

namespace Listing

open Text

/-- What can stand behind the name of an operation. The condition of a set carry flag is spelled
like the register C, and taken for it here. -/
inductive Operand
  | place (p : Place)
  | pair (p : Pair)
  | condition (cc : Condition) (other : cc ≠ .c)
  | byte (v : UInt8)
  | word (v : UInt16)
  | number (v : UInt8)
  | offset (v : UInt8)
deriving DecidableEq

namespace Operand

def ofCondition (cc : Condition) : Operand :=
  if carry : cc = .c then .place (.register .c) else .condition cc carry

def toCondition : Operand → Condition
  | .condition cc _ => cc
  | _ => .c

@[simp] theorem toCondition_ofCondition (cc : Condition) : (ofCondition cc).toCondition = cc := by
  cases cc <;> rfl

/-- The characters of an operand. -/
def chars : Operand → List Char
  | .place (.direct address) => '[' :: '$' :: (Hex.digits 4 address.toNat ++ [']'])
  | .place (.highDirect n) =>
    '[' :: '$' :: ("ff00+$".toList ++ Hex.digits 2 n.toNat ++ [']'])
  | .place p => p.text.toList
  | .pair p => p.text.toList
  | .condition cc _ => cc.text.toList
  | .byte v => '$' :: Hex.digits 2 v.toNat
  | .word v => '$' :: Hex.digits 4 v.toNat
  | .number v => signedDigits v
  | .offset v => 's' :: 'p' :: (withSign v).toList

/-- The operands that are not spelled with a number. -/
def fixed : List Operand :=
  [Register.a, .b, .c, .d, .e, .h, .l].map (fun r => place (.register r)) ++
    [Pair.af, .bc, .de, .hl, .sp].map pair ++
    [Pair.af, .bc, .de, .hl, .sp].map (fun p => place (.indirect p)) ++
    [place .indirectInc, place .indirectDec, place .highC] ++
    [condition .nz nofun, condition .z nofun, condition .nc nofun]

/-- Reads the rest of a place whose address begins with a number. The length tells what it is. -/
def readAddress (text : List Char) : Place :=
  match text.length with
  | 5 => .direct (UInt16.ofNat (Hex.value (text.take 4)))
  | 9 => .highDirect (UInt8.ofNat (Hex.value ((text.drop 6).take 2)))
  | _ => .highC

/-- Reads the digits of a byte or a word. -/
def readDigits (digits : List Char) : Operand :=
  if digits.length = 2 then .byte (UInt8.ofNat (Hex.value digits))
  else .word (UInt16.ofNat (Hex.value digits))

/-- Reads an operand back. -/
def read (text : List Char) : Operand :=
  if text.take 2 = ['[', '$'] then .place (readAddress (text.drop 2))
  else if text.take 1 = ['$'] then readDigits (text.drop 1)
  else if text.take 2 = ['s', 'p'] ∧ 2 < text.length then .offset (readSigned (text.drop 2))
  else (fixed.find? fun o => o.chars = text).getD (.number (readSigned text))

/-- An operand that is spelled without a space and read back. -/
def Legible (o : Operand) : Prop := read o.chars = o ∧ ' ' ∉ o.chars

instance (o : Operand) : Decidable o.Legible := inferInstanceAs (Decidable (_ ∧ _))

theorem legible_fixed : ∀ o ∈ fixed, o.Legible := by decide

/-- What is spelled as a number is read as one. -/
theorem read_numerals (numerals : ∀ c ∈ text, Numeral c) :
    read text = number (readSigned text) := by
  have other {front : List Char} {count : Nat} (c : Char) (odd : ¬Numeral c) (among : c ∈ front) :
      text.take count ≠ front := by
    rintro rfl
    exact odd (numerals c (List.mem_of_mem_take among))
  have bracket : text.take 2 ≠ ['[', '$'] := other '[' (by decide) (by decide)
  have dollar : text.take 1 ≠ ['$'] := other '$' (by decide) (by decide)
  have pointer : text.take 2 ≠ ['s', 'p'] := other 's' (by decide) (by decide)
  have unlisted : fixed.find? (fun o => o.chars = text) = none := by
    have odd : ∀ o ∈ fixed, o.chars.all (fun c => Numeral c) = false := by decide
    rw [List.find?_eq_none]
    intro o listed same
    have spelled : text.all (fun c => Numeral c) = true := by simpa using numerals
    rw [← of_decide_eq_true same, odd o listed] at spelled
    cases spelled
  rw [read, if_neg bracket, if_neg dollar, if_neg fun both => pointer both.1, unlisted]
  rfl

theorem legible_number (v : UInt8) : (number v).Legible := by
  constructor
  · rw [chars, read_numerals (numeral_signedDigits v), readSigned_signedDigits]
  · exact notMem_signedDigits v

theorem legible_offset (v : UInt8) : (offset v).Legible := by
  have value := readSigned_withSign v
  have present : (withSign v).toList ≠ [] := by
    rw [toList_withSign]
    split
    · exact List.cons_ne_nil _ _
    · exact signedDigits_ne_nil v
  have unspaced : ' ' ∉ (withSign v).toList := by
    rw [toList_withSign]
    split <;> simp [notMem_signedDigits]
  constructor
  · obtain ⟨sign, digits, spelled⟩ := List.exists_cons_of_ne_nil present
    rw [chars, spelled]
    rw [spelled] at value
    simp [read, value]
  · simp [chars, unspaced]

theorem legible_byte (v : UInt8) : (byte v).Legible := by
  constructor
  · exact congrArg byte (Hex.value_byte v)
  · simp [chars, Hex.notMem_digits]

theorem legible_word (v : UInt16) : (word v).Legible := by
  constructor
  · exact congrArg word (Hex.value_word v)
  · simp [chars, Hex.notMem_digits]

theorem legible_direct (address : UInt16) : (place (.direct address)).Legible := by
  constructor
  · exact congrArg (fun v => place (.direct v)) (Hex.value_word address)
  · simp [chars, Hex.notMem_digits]

theorem legible_highDirect (offset : UInt8) : (place (.highDirect offset)).Legible := by
  constructor
  · exact congrArg (fun v => place (.highDirect v)) (Hex.value_byte offset)
  · simp [chars, Hex.notMem_digits]

theorem legible (o : Operand) : o.Legible := by
  cases o with
  | place p =>
    cases p with
    | direct address => exact legible_direct address
    | highDirect offset => exact legible_highDirect offset
    | register r => exact legible_fixed _ (by cases r <;> decide)
    | indirect p => exact legible_fixed _ (by cases p <;> decide)
    | _ => exact legible_fixed _ (by decide)
  | pair p => exact legible_fixed _ (by cases p <;> decide)
  | condition cc other =>
    cases cc with
    | c => exact absurd rfl other
    | nz => exact legible_fixed (.condition .nz nofun) (by decide)
    | z => exact legible_fixed (.condition .z nofun) (by decide)
    | nc => exact legible_fixed (.condition .nc nofun) (by decide)
  | byte v => exact legible_byte v
  | word v => exact legible_word v
  | number v => exact legible_number v
  | offset v => exact legible_offset v

theorem chars_injective : Function.Injective chars :=
  Function.LeftInverse.injective fun o => (legible o).1

/-! The spelling of operands in terms of their text. -/

@[simp] theorem chars_place (p : Place) : (place p).chars = p.text.toList := by
  cases p <;> simp [chars, Place.text, Hex.byte, Hex.word]

@[simp] theorem chars_pair (p : Pair) : (pair p).chars = p.text.toList := rfl

@[simp] theorem chars_ofCondition (cc : Condition) : (ofCondition cc).chars = cc.text.toList := by
  cases cc <;> rfl

@[simp] theorem chars_byte (v : UInt8) : (byte v).chars = '$' :: (Hex.byte v).toList := by
  simp [chars, Hex.byte]

@[simp] theorem chars_word (v : UInt16) : (word v).chars = '$' :: (Hex.word v).toList := by
  simp [chars, Hex.word]

@[simp] theorem chars_number (v : UInt8) : (number v).chars = (Text.signed v).toList :=
  (toList_signed v).symm

@[simp] theorem chars_offset (v : UInt8) :
    (offset v).chars = 's' :: 'p' :: (withSign v).toList := rfl

/-- A bit number needs no sign. -/
@[simp] theorem signed_index (n : Fin 8) : Text.signed (UInt8.ofNat n) = toString n.val := by
  revert n
  decide

end Operand

/-- The names of operations. -/
inductive Mnemonic
  | nop | stop | halt | di | ei | daa | cpl | scf | ccf
  | ld | inc | dec | push | pop
  | alu (op : AluOp)
  | rotateA (r : Rotation)
  | shift (op : ShiftOp)
  | bit | res | set
  | jp | jr | call | ret | reti | rst
  | illegal
deriving DecidableEq

namespace Mnemonic

def text : Mnemonic → String
  | .nop => "nop"
  | .stop => "stop"
  | .halt => "halt"
  | .di => "di"
  | .ei => "ei"
  | .daa => "daa"
  | .cpl => "cpl"
  | .scf => "scf"
  | .ccf => "ccf"
  | .ld => "ld"
  | .inc => "inc"
  | .dec => "dec"
  | .push => "push"
  | .pop => "pop"
  | .alu .add => "add"
  | .alu .adc => "adc"
  | .alu .sub => "sub"
  | .alu .sbc => "sbc"
  | .alu .and => "and"
  | .alu .xor => "xor"
  | .alu .or => "or"
  | .alu .cp => "cp"
  | .rotateA r => r.text ++ "a"
  | .shift op => op.text
  | .bit => "bit"
  | .res => "res"
  | .set => "set"
  | .jp => "jp"
  | .jr => "jr"
  | .call => "call"
  | .ret => "ret"
  | .reti => "reti"
  | .rst => "rst"
  | .illegal => "illegal"

def all : List Mnemonic :=
  [nop, stop, halt, di, ei, daa, cpl, scf, ccf, ld, inc, dec, push, pop, bit, res, set, jp, jr,
    call, ret, reti, rst, illegal] ++
    [.add, .adc, .sub, .sbc, .and, .xor, .or, .cp].map alu ++
    [.rlc, .rrc, .rl, .rr].map rotateA ++
    [.rotate .rlc, .rotate .rrc, .rotate .rl, .rotate .rr, .sla, .sra, .swap, .srl].map shift

theorem mem_all (m : Mnemonic) : m ∈ all := by
  cases m with
  | alu op => cases op <;> decide
  | rotateA r => cases r <;> decide
  | shift op =>
    cases op with
    | rotate r => cases r <;> decide
    | _ => decide
  | _ => decide

def chars (m : Mnemonic) : List Char := m.text.toList

theorem chars_injective : Function.Injective chars := by
  have distinct : (all.map chars).Nodup := by decide
  exact fun m n same => List.inj_on_of_nodup_map distinct (mem_all m) (mem_all n) same

theorem notMem_chars (m : Mnemonic) : ' ' ∉ m.chars := by
  have unspaced : ∀ m ∈ all, ' ' ∉ m.chars := by decide
  exact unspaced m (mem_all m)

end Mnemonic

/-- A line of a listing: what to do, and what with. -/
inductive Line
  | bare (m : Mnemonic)
  | unary (m : Mnemonic) (x : Operand)
  | binary (m : Mnemonic) (x y : Operand)

namespace Line

/-- The words of a line. A comma goes with the word before it. -/
def words : Line → List (List Char)
  | .bare m => [m.chars]
  | .unary m x => [m.chars, x.chars]
  | .binary m x y => [m.chars, x.chars ++ [','], y.chars]

def chars (l : Line) : List Char := [' '].intercalate l.words

@[simp] theorem chars_bare (m : Mnemonic) : (bare m).chars = m.text.toList := by
  simp [chars, words, Mnemonic.chars]

@[simp] theorem chars_unary (m : Mnemonic) (x : Operand) :
    (unary m x).chars = m.text.toList ++ ' ' :: x.chars := by
  simp [chars, words, Mnemonic.chars, List.intercalate]

@[simp] theorem chars_binary (m : Mnemonic) (x y : Operand) :
    (binary m x y).chars = m.text.toList ++ ' ' :: (x.chars ++ ',' :: ' ' :: y.chars) := by
  simp [chars, words, Mnemonic.chars, List.intercalate]

theorem words_injective : Function.Injective words := by
  intro l k same
  cases l <;> cases k <;>
    simp_all [words, Mnemonic.chars_injective.eq_iff, Operand.chars_injective.eq_iff]

theorem notMem_words (l : Line) : ∀ word ∈ l.words, ' ' ∉ word := by
  have mnemonic (m : Mnemonic) := m.notMem_chars
  have operand (x : Operand) := x.legible.2
  cases l <;> simp [words, mnemonic, operand]

/-- A line is cut into its words at the spaces. -/
theorem chars_injective : Function.Injective chars := by
  intro l k same
  have cut (l : Line) : l.chars.splitOn ' ' = l.words :=
    List.splitOn_intercalate ' ' l.notMem_words (by cases l <;> nofun)
  apply words_injective
  rw [← cut l, ← cut k, same]

end Line

end Listing

namespace Instruction

open Listing

def sourceOperand : Source → Operand
  | .place p => .place p
  | .immediate v => .byte v

/-- A line with a condition in front of its target, if there is one. -/
def branchLine (m : Mnemonic) (condition : Option Condition) (target : Operand) : Line :=
  match condition with
  | none => .unary m target
  | some cc => .binary m (.ofCondition cc) target

/-- The line that shows an instruction. -/
def line : Instruction → Line
  | .nop => .bare .nop
  | .stop => .bare .stop
  | .halt => .bare .halt
  | .di => .bare .di
  | .ei => .bare .ei
  | .daa => .bare .daa
  | .cpl => .bare .cpl
  | .scf => .bare .scf
  | .ccf => .bare .ccf
  | .load target source => .binary .ld (.place target) (sourceOperand source)
  | .loadPair p v => .binary .ld (.pair p) (.word v)
  | .storeSp address => .binary .ld (.place (.direct address)) (.pair .sp)
  | .loadSpHl => .binary .ld (.pair .sp) (.pair .hl)
  | .loadHlSp offset => .binary .ld (.pair .hl) (.offset offset)
  | .addSp offset => .binary (.alu .add) (.pair .sp) (.number offset)
  | .alu op source =>
    match op with
    | .and | .or | .cp => .unary (.alu op) (sourceOperand source)
    | _ => .binary (.alu op) (.place (.register .a)) (sourceOperand source)
  | .inc target => .unary .inc (.place target)
  | .dec target => .unary .dec (.place target)
  | .incPair p => .unary .inc (.pair p)
  | .decPair p => .unary .dec (.pair p)
  | .addHl p => .binary (.alu .add) (.pair .hl) (.pair p)
  | .push p => .unary .push (.pair p)
  | .pop p => .unary .pop (.pair p)
  | .rotateA r => .bare (.rotateA r)
  | .shift op target => .unary (.shift op) (.place target)
  | .bit index target => .binary .bit (.number (UInt8.ofNat index)) (.place target)
  | .res index target => .binary .res (.number (UInt8.ofNat index)) (.place target)
  | .set index target => .binary .set (.number (UInt8.ofNat index)) (.place target)
  | .jump condition address => branchLine .jp condition (.word address)
  | .jumpHl => .unary .jp (.pair .hl)
  | .jumpRelative condition offset => branchLine .jr condition (.number offset)
  | .call condition address => branchLine .call condition (.word address)
  | .ret none => .bare .ret
  | .ret (some cc) => .unary .ret (.ofCondition cc)
  | .reti => .bare .reti
  | .rst vector => .unary .rst (.byte vector)
  | .illegal opcode => .unary .illegal (.byte opcode)

/-- The bit that a number stands for. -/
def bitIndex (v : UInt8) : Fin 8 := Opcode.column v

/-- The instruction that a line shows. -/
def ofLine : Line → Option Instruction
  | .bare .nop => some .nop
  | .bare .stop => some .stop
  | .bare .halt => some .halt
  | .bare .di => some .di
  | .bare .ei => some .ei
  | .bare .daa => some .daa
  | .bare .cpl => some .cpl
  | .bare .scf => some .scf
  | .bare .ccf => some .ccf
  | .binary .ld (.place target) (.place source) => some (.load target (.place source))
  | .binary .ld (.place target) (.byte v) => some (.load target (.immediate v))
  | .binary .ld (.pair p) (.word v) => some (.loadPair p v)
  | .binary .ld (.place (.direct address)) (.pair _) => some (.storeSp address)
  | .binary .ld (.pair _) (.pair _) => some .loadSpHl
  | .binary .ld (.pair _) (.offset offset) => some (.loadHlSp offset)
  | .binary (.alu _) (.pair _) (.number offset) => some (.addSp offset)
  | .binary (.alu _) (.pair _) (.pair p) => some (.addHl p)
  | .binary (.alu op) _ (.place p) | .unary (.alu op) (.place p) => some (.alu op (.place p))
  | .binary (.alu op) _ (.byte v) | .unary (.alu op) (.byte v) => some (.alu op (.immediate v))
  | .unary .inc (.place target) => some (.inc target)
  | .unary .dec (.place target) => some (.dec target)
  | .unary .inc (.pair p) => some (.incPair p)
  | .unary .dec (.pair p) => some (.decPair p)
  | .unary .push (.pair p) => some (.push p)
  | .unary .pop (.pair p) => some (.pop p)
  | .bare (.rotateA r) => some (.rotateA r)
  | .unary (.shift op) (.place target) => some (.shift op target)
  | .binary .bit (.number v) (.place target) => some (.bit (bitIndex v) target)
  | .binary .res (.number v) (.place target) => some (.res (bitIndex v) target)
  | .binary .set (.number v) (.place target) => some (.set (bitIndex v) target)
  | .unary .jp (.word address) => some (.jump none address)
  | .binary .jp x (.word address) => some (.jump (some x.toCondition) address)
  | .unary .jp (.pair _) => some .jumpHl
  | .unary .jr (.number offset) => some (.jumpRelative none offset)
  | .binary .jr x (.number offset) => some (.jumpRelative (some x.toCondition) offset)
  | .unary .call (.word address) => some (.call none address)
  | .binary .call x (.word address) => some (.call (some x.toCondition) address)
  | .bare .ret => some (.ret none)
  | .unary .ret x => some (.ret (some x.toCondition))
  | .bare .reti => some .reti
  | .unary .rst (.byte vector) => some (.rst vector)
  | .unary .illegal (.byte opcode) => some (.illegal opcode)
  | _ => none

theorem ofLine_line (i : Instruction) : ofLine i.line = some i := by
  have index : ∀ n : Fin 8, bitIndex (UInt8.ofNat n) = n := by decide
  cases i with
  | load target source => cases source <;> rfl
  | alu op source => cases op <;> cases source <;> rfl
  | bit n target | res n target | set n target => simp only [line, ofLine, index]
  | jump condition address | call condition address | jumpRelative condition offset =>
    cases condition <;> simp [line, branchLine, ofLine]
  | ret condition => cases condition <;> simp [line, ofLine]
  | _ => rfl

theorem line_injective : Function.Injective line := by
  intro i j same
  apply Option.some_injective
  rw [← ofLine_line i, ← ofLine_line j, same]

@[simp] theorem chars_sourceOperand (source : Source) :
    (sourceOperand source).chars = source.text.toList := by
  cases source <;> simp [sourceOperand, Source.text]

/-- The text of an instruction is the one of its line. -/
theorem toList_text (i : Instruction) : i.text.toList = i.line.chars := by
  cases i with
  | load target source | rotateA r | shift op target => simp [text, line, Mnemonic.text]
  | alu op source =>
    cases op <;> simp [text, AluOp.text, line, Mnemonic.text, Place.text, Register.text]
  | bit index target | res index target | set index target =>
    simp [text, bitText, line, Mnemonic.text]
  | jump condition address | call condition address | jumpRelative condition offset =>
    cases condition <;> simp [text, branchText, line, branchLine, Mnemonic.text]
  | ret condition => cases condition <;> simp [text, line, Mnemonic.text]
  | _ => simp [text, line, Mnemonic.text, Place.text, Pair.text]

/-- Instructions that read the same are the same. -/
theorem text_injective : Function.Injective text := by
  intro i j same
  apply line_injective
  apply Line.chars_injective
  rw [← toList_text i, ← toList_text j, same]

variable {ρ ς : Type}

/-- A line of a listing tells the instruction and the bytes that it was decoded from. Whatever the
sources that two instructions are decoded from, if their texts are equal then the same bytes have
been taken from both, and the instructions are the same with their operands and sizes. -/
theorem listing_unambiguous (fetch : StateM ρ UInt8) (s : ρ) (fetch' : StateM ς UInt8) (s' : ς)
    (same : ((decode fetch).run s).1.text = ((decode fetch').run s').1.text) :
    consumed fetch s = consumed fetch' s' ∧
      ((decode fetch).run s).1 = ((decode fetch').run s').1 ∧
        ((decode fetch).run s).1.size = ((decode fetch').run s').1.size := by
  have decoded := text_injective same
  rw [consumed_eq_encode, consumed_eq_encode, decoded]
  exact ⟨rfl, rfl, rfl⟩

/-- The same jump in two memories. -/
theorem listing_unambiguous_jump :
    let first := nextByte fun n => [0xC2, 0x50, 0x01].getD n 0x00
    let second := nextByte fun n => [0x76, 0xC2, 0x50, 0x01].getD n 0xFF
    ((decode first).run 0).1.text = "jp nz, $0150" ∧
      ((decode second).run 1).1.text = "jp nz, $0150" ∧
        consumed first 0 = [0xC2, 0x50, 0x01] ∧ consumed second 1 = [0xC2, 0x50, 0x01] := by
  intro first second
  have taken : consumed first 0 = [0xC2, 0x50, 0x01] := by decide
  obtain ⟨same, -, -⟩ := listing_unambiguous first 0 second 1 (by decide)
  exact ⟨by decide, by decide, taken, same.symm.trans taken⟩

end Instruction

end GameBoy
