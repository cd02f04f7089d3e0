import GameBoy.Alu
import GameBoy.Bus
import GameBoy.Instruction.Decode

/-!
The processor. Each access of memory takes four clocks, and so does each internal delay that some
instructions have; the cost of an instruction is counted as it runs.
-/

namespace GameBoy

namespace Hardware

/-- With interrupts disabled, a request that is already pending would end the halt at once, and the
processor does not even begin it. -/
def halt (hw : Hardware) : Hardware :=
  if !hw.cpu.ime && hw.nextInterrupt?.isSome then hw
  else { hw with cpu := { hw.cpu with halted := true } }

/-- A color model that has been prepared for it changes its speed. -/
def switchSpeed (hw : Hardware) : Hardware :=
  if hw.isColor && hw.io.read Io.speed % 2 = 1 then
    { hw with
      doubleSpeed := !hw.doubleSpeed
      io := hw.io.write Io.speed (hw.io.read Io.speed &&& 0xFE)
      timer := hw.timer.resetDiv }
  else hw

end Hardware

/-- A machine in the middle of an instruction, and the clocks spent on it so far. -/
structure Step (σ : Type) where
  machine : Machine σ
  clocks : UInt32 := 0

/-- Work of the processor. -/
abbrev Exec (σ : Type) := StateM (Step σ)

namespace Exec

/-- An internal delay. -/
def idle : Exec σ Unit := modify fun s => { s with clocks := s.clocks + 4 }

/-- Reads a byte over the bus. -/
def readByte (address : UInt16) : Exec σ UInt8 := modifyGet fun s =>
  let (v, machine) := s.machine.read address
  (v, { machine, clocks := s.clocks + 4 })

/-- Writes a byte over the bus. -/
def writeByte (address : UInt16) (v : UInt8) : Exec σ Unit := modify fun s =>
  { machine := s.machine.write address v, clocks := s.clocks + 4 }

/-- Reads a word, the low byte first. -/
def readWord (address : UInt16) : Exec σ UInt16 := do
  let low ← readByte address
  let high ← readByte (address + 1)
  return Word.join high low

/-- Writes a word, the low byte first. -/
def writeWord (address : UInt16) (v : UInt16) : Exec σ Unit := do
  writeByte address (Word.low v)
  writeByte (address + 1) (Word.high v)

def hardware : Exec σ Hardware := return (← get).machine.console.hw

def cpu : Exec σ Cpu := return (← hardware).cpu

def modifyHardware (f : Hardware → Hardware) : Exec σ Unit :=
  modify fun s => { s with machine := s.machine.mapHardware f }

def modifyCpu (f : Cpu → Cpu) : Exec σ Unit :=
  modifyHardware fun hw => { hw with cpu := f hw.cpu }

def setFlags (f : Flags) : Exec σ Unit := modifyCpu fun cpu => { cpu with f }

def setPc (address : UInt16) : Exec σ Unit := modifyCpu fun cpu => { cpu with pc := address }

def raise (fault : Fault) : Exec σ Unit :=
  modify fun s => { s with machine := s.machine.mapConsole (·.raise fault) }

/-- Takes the byte at PC and moves PC behind it. -/
def fetch : Exec σ UInt8 := do
  let pc := (← cpu).pc
  setPc (pc + 1)
  readByte pc

/-- The word in a register pair. -/
def pair (p : Pair) : Exec σ UInt16 := return (← cpu).getPair p

/-- The address in HL. HL is moved behind it now, before memory is accessed. -/
def movingHl (delta : UInt16) : Exec σ UInt16 := do
  let hl ← pair .hl
  modifyCpu (·.setPair .hl (hl + delta))
  return hl

/-- The page that the `high` places lie in. -/
def highAddress (offset : UInt8) : UInt16 := 0xFF00 + offset.toUInt16

def readPlace : Place → Exec σ UInt8
  | .register r => return (← cpu).get r
  | .indirect p => do readByte (← pair p)
  | .indirectInc => do readByte (← movingHl 1)
  | .indirectDec => do readByte (← movingHl (-1))
  | .direct a => readByte a
  | .highDirect offset => readByte (highAddress offset)
  | .highC => do readByte (highAddress (← cpu).c)

def writePlace (p : Place) (v : UInt8) : Exec σ Unit :=
  match p with
  | .register r => modifyCpu (·.set r v)
  | .indirect p => do writeByte (← pair p) v
  | .indirectInc => do writeByte (← movingHl 1) v
  | .indirectDec => do writeByte (← movingHl (-1)) v
  | .direct a => writeByte a v
  | .highDirect offset => writeByte (highAddress offset) v
  | .highC => do writeByte (highAddress (← cpu).c) v

def readSource : Source → Exec σ UInt8
  | .place p => readPlace p
  | .immediate v => return v

/-- Pushes a word, the high byte first. -/
def pushWord (v : UInt16) : Exec σ Unit := do
  modifyCpu fun cpu => { cpu with sp := cpu.sp - 2 }
  let sp := (← cpu).sp
  writeByte (sp + 1) (Word.high v)
  writeByte sp (Word.low v)

/-- Pops a word, the low byte first. -/
def popWord : Exec σ UInt16 := do
  let sp := (← cpu).sp
  let v ← readWord sp
  modifyCpu fun cpu => { cpu with sp := sp + 2 }
  return v

/-- Pushes PC and continues elsewhere. -/
def callTo (target : UInt16) : Exec σ Unit := do
  idle
  pushWord (← cpu).pc
  setPc target

/-- Whether a branch is taken. -/
def taken (condition : Option Condition) : Exec σ Bool :=
  match condition with
  | none => return true
  | some cc => return (← cpu).f.satisfies cc

/-- Combines the accumulator with a byte. -/
def alu (op : AluOp) (source : Source) : Exec σ Unit := do
  let v ← readSource source
  modifyCpu fun cpu =>
    let (a, f) := Alu.apply op cpu.a v cpu.f
    { cpu with a, f }

/-- Increments or decrements a place. The flags are set before the result is stored. -/
def adjust (f : UInt8 → Flags → UInt8 × Flags) (target : Place) : Exec σ Unit := do
  let v ← readPlace target
  let (result, flags) := f v (← cpu).f
  setFlags flags
  writePlace target result

/-- Rotates or shifts a place. The result is stored before the flags are set. -/
def shift (op : ShiftOp) (target : Place) : Exec σ Unit := do
  let v ← readPlace target
  let (result, out) := Alu.shift op v (← cpu).f.c
  writePlace target result
  setFlags (Alu.shiftFlags (result = 0) out)

/-- Rotates the accumulator. Unlike the general rotations, this always clears the zero flag. -/
def rotateA (r : Rotation) : Exec σ Unit :=
  modifyCpu fun cpu =>
    let (a, out) := Alu.rotate r cpu.a cpu.f.c
    { cpu with a, f := Alu.shiftFlags false out }

/-- Tests one bit of a place. -/
def bit (index : Fin 8) (target : Place) : Exec σ Unit := do
  let v ← readPlace target
  modifyCpu fun cpu => { cpu with f := Alu.testBit index v cpu.f }

/-- Changes a place and leaves the flags alone. -/
def updatePlace (f : UInt8 → UInt8) (target : Place) : Exec σ Unit := do
  writePlace target (f (← readPlace target))

/-- A return pops PC and takes a delay to load it. -/
def returnPc : Exec σ Unit := do
  let pc ← popWord
  idle
  setPc pc

/-- Runs one instruction that began at `start`. -/
def execute (start : UInt16) : Instruction → Exec σ Unit
  | .nop => return
  | .stop => do
    let _ ← fetch
    modifyHardware .switchSpeed
  | .halt => modifyHardware .halt
  | .di => modifyCpu fun cpu => { cpu with ime := false, imePending := false }
  | .ei => modifyCpu fun cpu => { cpu with imePending := true }
  | .daa => modifyCpu fun cpu =>
    let (a, f) := Alu.decimalAdjust cpu.a cpu.f
    { cpu with a, f }
  | .cpl => modifyCpu fun cpu =>
    { cpu with a := ~~~cpu.a, f := { cpu.f with n := true, h := true } }
  | .scf => modifyCpu fun cpu => { cpu with f := { cpu.f with n := false, h := false, c := true } }
  | .ccf => modifyCpu fun cpu =>
    { cpu with f := { cpu.f with n := false, h := false, c := !cpu.f.c } }
  | .load target source => do writePlace target (← readSource source)
  | .loadPair p v => modifyCpu (·.setPair p v)
  | .storeSp a => do writeWord a (← cpu).sp
  | .loadSpHl => do
    modifyCpu fun cpu => { cpu with sp := cpu.getPair .hl }
    idle
  | .loadHlSp offset => do
    modifyCpu fun cpu =>
      let (hl, f) := Alu.addOffset cpu.sp offset
      { cpu with f }.setPair .hl hl
    idle
  | .addSp offset => do
    modifyCpu fun cpu =>
      let (sp, f) := Alu.addOffset cpu.sp offset
      { cpu with sp, f }
    idle
    idle
  | .alu op source => alu op source
  | .inc target => adjust Alu.inc target
  | .dec target => adjust Alu.dec target
  | .incPair p => do
    modifyCpu fun cpu => cpu.setPair p (cpu.getPair p + 1)
    idle
  | .decPair p => do
    modifyCpu fun cpu => cpu.setPair p (cpu.getPair p - 1)
    idle
  | .addHl p => do
    modifyCpu fun cpu =>
      let (hl, f) := Alu.addWords (cpu.getPair .hl) (cpu.getPair p) cpu.f
      { cpu with f }.setPair .hl hl
    idle
  | .push p => do
    let v ← pair p
    idle
    pushWord v
  | .pop p => do
    let v ← popWord
    modifyCpu (·.setPair p v)
  | .rotateA r => rotateA r
  | .shift op target => shift op target
  | .bit index target => bit index target
  | .res index target => updatePlace (· &&& ~~~Alu.bitMask index) target
  | .set index target => updatePlace (· ||| Alu.bitMask index) target
  | .jump condition target => do
    if ← taken condition then
      setPc target
      idle
  | .jumpHl => do setPc (← pair .hl)
  | .jumpRelative condition offset => do
    if ← taken condition then
      idle
      setPc ((← cpu).pc + Word.signExtend offset)
  | .call condition target => do
    if ← taken condition then
      callTo target
  | .ret none => returnPc
  | .ret (some cc) => do
    idle
    if ← taken (some cc) then
      returnPc
  | .reti => do
    modifyCpu fun cpu => { cpu with ime := true }
    returnPc
  | .rst vector => callTo vector.toUInt16
  | .illegal opcode => do
    setPc start
    raise (.illegalOpcode opcode start)

/-- An enable that was pending before an instruction, and that the instruction has not cancelled,
takes effect after it. -/
def settleEnable (wasPending : Bool) : Exec σ Unit := modifyCpu fun cpu =>
  if wasPending && cpu.imePending then { cpu with ime := true, imePending := false } else cpu

/-- Fetches, decodes and runs one instruction. A halted processor idles. -/
def step : Exec σ Unit := do
  let before ← cpu
  if before.halted then
    idle
  else
    let instruction ← Instruction.decode fetch
    execute before.pc instruction
    settleEnable before.imePending

end Exec

/-- One instruction, and the clocks that it takes. -/
def Machine.step (m : Machine σ) : UInt32 × Machine σ :=
  let (_, s) := (Exec.step (σ := σ)).run { machine := m }
  (s.clocks, s.machine)

end GameBoy
