import GameBoy.Proofs.Decoding

/-!
What each instruction does, read off its operands and the machine before it: the bytes that it loads
and stores, the time that it idles, and the registers that it leaves. `Machine.accesses` and
`Machine.executed` put these together.
-/

namespace GameBoy

/-- Where a byte is. -/
inductive Slot
  | register (r : Register)
  | memory (address : UInt16)
deriving DecidableEq

namespace Slot

/-- The addresses that are read to get the byte. -/
def loads : Slot → List UInt16
  | .register _ => []
  | .memory address => [address]

/-- The bytes of memory that are written to replace it. -/
def stores (v : UInt8) : Slot → List (UInt16 × UInt8)
  | .register _ => []
  | .memory address => [(address, v)]

end Slot

namespace Place

def slot (cpu : Cpu) : Place → Slot
  | .register r => .register r
  | .indirect p => .memory (cpu.getPair p)
  | .indirectInc | .indirectDec => .memory (cpu.getPair .hl)
  | .direct address => .memory address
  | .highDirect offset => .memory (Exec.highAddress offset)
  | .highC => .memory (Exec.highAddress cpu.c)

def value (bytes : UInt16 → UInt8) (cpu : Cpu) (p : Place) : UInt8 :=
  match p.slot cpu with
  | .register r => cpu.get r
  | .memory address => bytes address

/-- The registers once a place has been used: some places move HL. -/
def used (cpu : Cpu) : Place → Cpu
  | .indirectInc => cpu.setPair .hl (cpu.getPair .hl + 1)
  | .indirectDec => cpu.setPair .hl (cpu.getPair .hl + (-1))
  | _ => cpu

/-- The registers once a byte has been put in a place. -/
def put (cpu : Cpu) (v : UInt8) : Place → Cpu
  | .register r => cpu.set r v
  | p => p.used cpu

end Place

namespace Source

def loads (cpu : Cpu) : Source → List UInt16
  | .place p => (p.slot cpu).loads
  | .immediate _ => []

def value (bytes : UInt16 → UInt8) (cpu : Cpu) : Source → UInt8
  | .place p => p.value bytes cpu
  | .immediate v => v

def used (cpu : Cpu) : Source → Cpu
  | .place p => p.used cpu
  | .immediate _ => cpu

end Source

/-- Only eight-bit registers differ. -/
structure Cpu.Beside (before after : Cpu) : Prop where
  f : after.f = before.f
  pc : after.pc = before.pc
  sp : after.sp = before.sp
  ime : after.ime = before.ime
  imePending : after.imePending = before.imePending
  halted : after.halted = before.halted

theorem Cpu.Beside.refl (cpu : Cpu) : cpu.Beside cpu := ⟨rfl, rfl, rfl, rfl, rfl, rfl⟩

theorem Cpu.setHl_beside (cpu : Cpu) (w : UInt16) : cpu.Beside (cpu.setPair .hl w) :=
  ⟨rfl, rfl, rfl, rfl, rfl, rfl⟩

theorem Place.used_beside (p : Place) (cpu : Cpu) : cpu.Beside (p.used cpu) := by
  cases p with
  | indirectInc | indirectDec => exact cpu.setHl_beside _
  | _ => exact .refl cpu

theorem Place.put_beside (p : Place) (cpu : Cpu) (v : UInt8) : cpu.Beside (p.put cpu v) := by
  cases p with
  | register r => cases r <;> exact ⟨rfl, rfl, rfl, rfl, rfl, rfl⟩
  | indirectInc | indirectDec => exact cpu.setHl_beside _
  | _ => exact .refl cpu

theorem Source.used_beside (source : Source) (cpu : Cpu) : cpu.Beside (source.used cpu) := by
  cases source with
  | place p => exact p.used_beside cpu
  | immediate v => exact .refl cpu

/-- Whether the flags let a branch be taken. -/
def Flags.allow (f : Flags) (condition : Option Condition) : Bool := condition.all f.satisfies

/-- The bytes that a push stores, the high one first. -/
def Word.pushes (sp v : UInt16) : List (UInt16 × UInt8) :=
  [(sp - 1, Word.high v), (sp - 2, Word.low v)]

/-- An enable that was pending takes effect, unless it has been cancelled. -/
def Cpu.settle (cpu : Cpu) (wasPending : Bool) : Cpu :=
  if wasPending && cpu.imePending then { cpu with ime := true, imePending := false } else cpu

/-- Only the enables are settled. -/
theorem Cpu.settle_eq (cpu : Cpu) (wasPending : Bool) :
    cpu.settle wasPending =
      { cpu with
        ime := (cpu.settle wasPending).ime
        imePending := (cpu.settle wasPending).imePending } := by
  unfold Cpu.settle
  split <;> rfl

/-- The registers after a HALT. With interrupts disabled, one that is already pending keeps the halt
from beginning. -/
def Cpu.halt (cpu : Cpu) (pending : Bool) : Cpu :=
  if !cpu.ime && pending then cpu else { cpu with halted := true }

theorem Hardware.halt_eq (hw : Hardware) :
    hw.halt = { hw with cpu := hw.cpu.halt hw.nextInterrupt?.isSome } := by
  unfold Hardware.halt Cpu.halt
  split <;> rfl

/-- A change of speed has nothing to do with the registers. -/
theorem Hardware.switchSpeed_cpu (hw : Hardware) (cpu : Cpu) :
    { hw with cpu }.switchSpeed = { hw.switchSpeed with cpu } := by
  have color : { hw with cpu }.isColor = hw.isColor := rfl
  simp only [switchSpeed, color]
  split <;> rfl

/-- The word at an address. -/
def Machine.word (m : Machine σ) (address : UInt16) : UInt16 :=
  Word.join (m.peek (address + 1)) (m.peek address)

/-- A machine after some writes, the first one first. -/
def Machine.storeEach (m : Machine σ) (stores : List (UInt16 × UInt8)) : Machine σ :=
  stores.foldl (fun m entry => m.write entry.1 entry.2) m

namespace Instruction

/-- The registers when the instruction is run: PC is behind its bytes. -/
def entry (i : Instruction) (m : Machine σ) : Cpu :=
  { m.console.hw.cpu with pc := m.console.hw.cpu.pc + UInt16.ofNat i.size }

/-- The addresses that are read besides those of the instruction itself, in order. -/
def loads (i : Instruction) (m : Machine σ) : List UInt16 :=
  let cpu := i.entry m
  match i with
  | .load _ source | .alu _ source => source.loads cpu
  | .inc target | .dec target => (target.slot cpu).loads
  | .shift _ target | .bit _ target | .res _ target | .set _ target => (target.slot cpu).loads
  | .pop _ | .reti => [cpu.sp, cpu.sp + 1]
  | .ret condition => if cpu.f.allow condition then [cpu.sp, cpu.sp + 1] else []
  | _ => []

/-- The bytes that are written, in order. -/
def stores (i : Instruction) (m : Machine σ) : List (UInt16 × UInt8) :=
  let cpu := i.entry m
  let change (target : Place) (f : UInt8 → UInt8) :=
    (target.slot cpu).stores (f (target.value m.peek cpu))
  match i with
  | .load target source => (target.slot cpu).stores (source.value m.peek cpu)
  | .storeSp address => [(address, Word.low cpu.sp), (address + 1, Word.high cpu.sp)]
  | .inc target => change target fun v => (Alu.inc v cpu.f).1
  | .dec target => change target fun v => (Alu.dec v cpu.f).1
  | .shift op target => change target fun v => (Alu.shift op v cpu.f.c).1
  | .res index target => change target (· &&& ~~~Alu.bitMask index)
  | .set index target => change target (· ||| Alu.bitMask index)
  | .push p => Word.pushes cpu.sp (cpu.getPair p)
  | .call condition _ => if cpu.f.allow condition then Word.pushes cpu.sp cpu.pc else []
  | .rst _ => Word.pushes cpu.sp cpu.pc
  | _ => []

/-- The condition that a branch is taken on. -/
def guard? : Instruction → Option Condition
  | .jump condition _ | .jumpRelative condition _ | .call condition _ | .ret condition => condition
  | _ => none

/-- The internal delays, by the outcome of the condition. Only a return takes time to look at it. -/
def delays (i : Instruction) (taken : Bool) : Nat :=
  match i with
  | .incPair _ | .decPair _ | .addHl _ | .loadSpHl | .loadHlSp _ | .push _ | .reti | .rst _ => 1
  | .addSp _ => 2
  | .jump _ _ | .jumpRelative _ _ | .call _ _ => if taken then 1 else 0
  | .ret condition => (if taken then 1 else 0) + if condition.isSome then 1 else 0
  | _ => 0

/-- The registers that the instruction leaves. -/
def registers (i : Instruction) (m : Machine σ) : Cpu :=
  let cpu := i.entry m
  let change (target : Place) (f : UInt8 → Flags → UInt8 × Flags) : Cpu :=
    let result := f (target.value m.peek cpu) cpu.f
    target.put { cpu with f := result.2 } result.1
  match i with
  | .nop | .stop | .storeSp _ => cpu
  | .halt => cpu.halt m.console.hw.nextInterrupt?.isSome
  | .di => { cpu with ime := false, imePending := false }
  | .ei => { cpu with imePending := true }
  | .daa =>
    let result := Alu.decimalAdjust cpu.a cpu.f
    { cpu with a := result.1, f := result.2 }
  | .cpl => { cpu with a := ~~~cpu.a, f := { cpu.f with n := true, h := true } }
  | .scf => { cpu with f := { cpu.f with n := false, h := false, c := true } }
  | .ccf => { cpu with f := { cpu.f with n := false, h := false, c := !cpu.f.c } }
  | .load target source => target.put (source.used cpu) (source.value m.peek cpu)
  | .loadPair p v => cpu.setPair p v
  | .loadSpHl => { cpu with sp := cpu.getPair .hl }
  | .loadHlSp offset =>
    let result := Alu.addOffset cpu.sp offset
    { cpu with f := result.2 }.setPair .hl result.1
  | .addSp offset =>
    let result := Alu.addOffset cpu.sp offset
    { cpu with sp := result.1, f := result.2 }
  | .alu op source =>
    let result := Alu.apply op cpu.a (source.value m.peek cpu) cpu.f
    { cpu with a := result.1, f := result.2 }
  | .inc target => change target Alu.inc
  | .dec target => change target Alu.dec
  | .incPair p => cpu.setPair p (cpu.getPair p + 1)
  | .decPair p => cpu.setPair p (cpu.getPair p - 1)
  | .addHl p =>
    let result := Alu.addWords (cpu.getPair .hl) (cpu.getPair p) cpu.f
    { cpu with f := result.2 }.setPair .hl result.1
  | .push _ => { cpu with sp := cpu.sp - 2 }
  | .pop p => { cpu with sp := cpu.sp + 2 }.setPair p (m.word cpu.sp)
  | .rotateA r =>
    let result := Alu.rotate r cpu.a cpu.f.c
    { cpu with a := result.1, f := Alu.shiftFlags false result.2 }
  | .shift op target => change target fun v f =>
    let result := Alu.shift op v f.c
    (result.1, Alu.shiftFlags (result.1 = 0) result.2)
  | .bit index target => { cpu with f := Alu.testBit index (target.value m.peek cpu) cpu.f }
  | .res index target => change target fun v f => (v &&& ~~~Alu.bitMask index, f)
  | .set index target => change target fun v f => (v ||| Alu.bitMask index, f)
  | .jump condition target => if cpu.f.allow condition then { cpu with pc := target } else cpu
  | .jumpHl => { cpu with pc := cpu.getPair .hl }
  | .jumpRelative condition offset =>
    if cpu.f.allow condition then { cpu with pc := cpu.pc + Word.signExtend offset } else cpu
  | .call condition target =>
    if cpu.f.allow condition then { cpu with sp := cpu.sp - 2, pc := target } else cpu
  | .ret condition =>
    if cpu.f.allow condition then { cpu with sp := cpu.sp + 2, pc := m.word cpu.sp } else cpu
  | .reti => { cpu with sp := cpu.sp + 2, pc := m.word cpu.sp, ime := true }
  | .rst vector => { cpu with sp := cpu.sp - 2, pc := vector.toUInt16 }
  | .illegal _ => { cpu with pc := m.console.hw.cpu.pc }

theorem registers_halt (m : Machine σ) :
    ∃ halted, Instruction.halt.registers m = { entry .halt m with halted } := by
  show ∃ halted, Cpu.halt _ _ = _
  unfold Cpu.halt
  split <;> exact ⟨_, rfl⟩

/-- What happens besides loads, stores and registers: a STOP may change the speed, and an opcode
without a meaning locks the processor up. -/
def aftermath (i : Instruction) (start : UInt16) (m : Machine σ) : Machine σ :=
  match i with
  | .stop => m.mapHardware (·.switchSpeed)
  | .illegal opcode => m.mapConsole (·.raise (.illegalOpcode opcode start))
  | _ => m

end Instruction

/-- A byte that is written, as an access. -/
def BusAccess.store (entry : UInt16 × UInt8) : BusAccess := .write entry.1 entry.2

namespace Machine

/-- The accesses of an instruction: its bytes, what it loads, and what it stores. -/
def accesses (m : Machine σ) (i : Instruction) : List BusAccess :=
  m.codeReads i.size ++ (i.loads m).map .read ++ (i.stores m).map BusAccess.store

/-- The machine that an instruction leads to. -/
def executed (m : Machine σ) (i : Instruction) : Machine σ :=
  (i.aftermath m.console.hw.cpu.pc (m.storeEach (i.stores m))).withCpu
    ((i.registers m).settle m.console.hw.cpu.imePending)

end Machine

end GameBoy
