import GameBoy.Processor

/-!
Relations between the work of two processors. A relation that holds of each thing a processor can
do, and of one thing after another, holds of a whole instruction: `Congruence.step`. The relation
may look at how much of the bus the work uses, and an instruction writes at most twice. A relation
that looks at what enables interrupts may hold only of the other changes of the processor; then it
holds of all instructions that are not there to enable or disable them: `Mild.execute`.
-/

namespace GameBoy

/-- The interrupt master enable, and whether another enable waits for the end of an instruction. -/
structure Enables where
  master : Bool
  pending : Bool
deriving DecidableEq

namespace Cpu

def enables (cpu : Cpu) : Enables := { master := cpu.ime, pending := cpu.imePending }

theorem enables_set (cpu : Cpu) (r : Register) (v : UInt8) :
    (cpu.set r v).enables = cpu.enables := by
  cases r <;> rfl

theorem enables_setPair (cpu : Cpu) (p : Pair) (w : UInt16) :
    (cpu.setPair p w).enables = cpu.enables := by
  cases p <;> rfl

end Cpu

/-- Whether an instruction is there to enable or to disable interrupts. -/
def Instruction.governsInterrupts : Instruction → Bool
  | .di | .ei | .reti => true
  | _ => false

/-- How much of the bus a piece of work uses: the most writes that it makes, and the fewest and the
most accesses and delays that it takes. -/
structure Usage where
  writes : Nat
  least : Nat
  most : Nat

namespace Usage

/-- No access and no delay. -/
def none : Usage := { writes := 0, least := 0, most := 0 }

/-- A single delay or read. -/
def one : Usage := { writes := 0, least := 1, most := 1 }

/-- A single write. -/
def write : Usage := { writes := 1, least := 1, most := 1 }

instance : Add Usage :=
  ⟨fun u w =>
    { writes := u.writes + w.writes, least := u.least + w.least, most := u.most + w.most }⟩

/-- Work that stays within a narrow usage also stays within a wide one. -/
def Within (u w : Usage) : Prop :=
  u.writes ≤ w.writes ∧ w.least ≤ u.least ∧ u.most ≤ w.most

instance : Decidable (Within u w) := inferInstanceAs (Decidable (_ ∧ _ ∧ _))

/-- What reading a place may use: a register is read without the bus. -/
def access : Usage := { writes := 0, least := 0, most := 1 }

/-- What storing to a place may use. -/
def storage : Usage := { writes := 1, least := 0, most := 1 }

/-- What a branch may use if it is taken. -/
def branch : Usage := { writes := 2, least := 0, most := 3 }

/-- What fetching and decoding an instruction may use. -/
def decoding : Usage := { writes := 0, least := 1, most := 3 }

/-- What a decoded instruction may use. -/
def executing : Usage := { writes := 2, least := 0, most := 4 }

/-- What a whole instruction may use. -/
def instruction : Usage := { writes := 2, least := 1, most := 7 }

end Usage

namespace Exec

/-- A relation between the work of two processors that holds of everything a processor can do by
itself, if only allowed changes are made to its state, and of any work put together from work of
which it holds. -/
structure Closed (Allowed : (Hardware → Cpu) → Prop)
    (P : (α : Type) → Usage → Exec σ α → Exec τ α → Prop) : Prop where
  pure (a : α) : P α .none (pure a) (pure a)
  bind {x : Exec σ α} {y : Exec τ α} {f : α → Exec σ β} {g : α → Exec τ β} :
    P α u x y → (∀ a, P β w (f a) (g a)) → P β (u + w) (x >>= f) (y >>= g)
  weaken {x : Exec σ α} {y : Exec τ α} : P α u x y → u.Within w → P α w x y
  idle : P Unit .one idle idle
  readByte (address : UInt16) : P UInt8 .one (readByte address) (readByte address)
  writeByte (address : UInt16) (v : UInt8) :
    P Unit .write (writeByte address v) (writeByte address v)
  hardware : P Hardware .none hardware hardware
  processor (f : Hardware → Cpu) (allowed : Allowed f) :
    P Unit .none (modifyHardware fun hw => { hw with cpu := f hw })
      (modifyHardware fun hw => { hw with cpu := f hw })
  switchSpeed : P Unit .none (modifyHardware .switchSpeed) (modifyHardware .switchSpeed)
  raise (fault : Fault) : P Unit .none (raise fault) (raise fault)

/-- A relation that holds of everything but changes of the enables. -/
abbrev Mild (P : (α : Type) → Usage → Exec σ α → Exec τ α → Prop) : Prop :=
  Closed (fun f => ∀ hw, (f hw).enables = hw.cpu.enables) P

/-- A relation that holds of everything. -/
abbrev Congruence (P : (α : Type) → Usage → Exec σ α → Exec τ α → Prop) : Prop :=
  Closed (fun _ => True) P

namespace Mild

variable {P : (α : Type) → Usage → Exec σ α → Exec τ α → Prop}

theorem widen {x : Exec σ α} {y : Exec τ α} (c : Mild P) (related : P α u x y)
    (within : decide (u.Within w) = true) : P α w x y :=
  c.weaken related (of_decide_eq_true within)

theorem cpu (c : Mild P) : P Cpu .none Exec.cpu Exec.cpu :=
  c.bind c.hardware fun _ => c.pure _

theorem modifyCpu (c : Mild P) {f : Cpu → Cpu} (same : ∀ cpu, (f cpu).enables = cpu.enables) :
    P Unit .none (Exec.modifyCpu f) (Exec.modifyCpu f) :=
  c.processor (fun hw => f hw.cpu) fun hw => same hw.cpu

theorem setFlags (c : Mild P) (flags : Flags) :
    P Unit .none (Exec.setFlags flags) (Exec.setFlags flags) := c.modifyCpu fun _ => rfl

theorem setPc (c : Mild P) (address : UInt16) :
    P Unit .none (Exec.setPc address) (Exec.setPc address) := c.modifyCpu fun _ => rfl

theorem pair (c : Mild P) (p : Pair) : P UInt16 .none (Exec.pair p) (Exec.pair p) :=
  c.bind c.cpu fun _ => c.pure _

/-- A halt changes only the processor's own state, though it looks at the interrupts. -/
theorem halt (c : Mild P) :
    P Unit .none (modifyHardware .halt) (modifyHardware .halt) := by
  have own : Hardware.halt = fun hw : Hardware =>
      { hw with
        cpu :=
          if !hw.cpu.ime && hw.nextInterrupt?.isSome then hw.cpu
          else { hw.cpu with halted := true } } := by
    funext hw
    unfold Hardware.halt
    split <;> rfl
  rw [own]
  refine c.processor _ fun hw => ?_
  split <;> rfl

theorem readWord (c : Mild P) (address : UInt16) :
    P UInt16 (.one + .one) (Exec.readWord address) (Exec.readWord address) :=
  c.widen (c.bind (c.readByte _) fun _ => c.bind (c.readByte _) fun _ => c.pure _) rfl

theorem writeWord (c : Mild P) (address v : UInt16) :
    P Unit (.write + .write) (Exec.writeWord address v) (Exec.writeWord address v) :=
  c.bind (c.writeByte _ _) fun _ => c.writeByte _ _

theorem fetch (c : Mild P) : P UInt8 .one Exec.fetch Exec.fetch :=
  c.widen (c.bind c.cpu fun _ => c.bind (c.setPc _) fun _ => c.readByte _) rfl

theorem movingHl (c : Mild P) (delta : UInt16) :
    P UInt16 .none (Exec.movingHl delta) (Exec.movingHl delta) :=
  c.bind (c.pair _) fun _ => c.bind (c.modifyCpu (Cpu.enables_setPair · _ _)) fun _ => c.pure _

theorem readPlace (c : Mild P) (p : Place) :
    P UInt8 .access (Exec.readPlace p) (Exec.readPlace p) := by
  cases p with
  | register r => exact c.widen (c.bind c.cpu fun _ => c.pure _) rfl
  | indirect p => exact c.widen (c.bind (c.pair _) fun _ => c.readByte _) rfl
  | indirectInc => exact c.widen (c.bind (c.movingHl _) fun _ => c.readByte _) rfl
  | indirectDec => exact c.widen (c.bind (c.movingHl _) fun _ => c.readByte _) rfl
  | direct a => exact c.widen (c.readByte _) rfl
  | highDirect offset => exact c.widen (c.readByte _) rfl
  | highC => exact c.widen (c.bind c.cpu fun _ => c.readByte _) rfl

theorem writePlace (c : Mild P) (p : Place) (v : UInt8) :
    P Unit .storage (Exec.writePlace p v) (Exec.writePlace p v) := by
  cases p with
  | register r => exact c.widen (c.modifyCpu (Cpu.enables_set · r v)) rfl
  | indirect p => exact c.widen (c.bind (c.pair _) fun _ => c.writeByte _ _) rfl
  | indirectInc => exact c.widen (c.bind (c.movingHl _) fun _ => c.writeByte _ _) rfl
  | indirectDec => exact c.widen (c.bind (c.movingHl _) fun _ => c.writeByte _ _) rfl
  | direct a => exact c.widen (c.writeByte _ _) rfl
  | highDirect offset => exact c.widen (c.writeByte _ _) rfl
  | highC => exact c.widen (c.bind c.cpu fun _ => c.writeByte _ _) rfl

theorem readSource (c : Mild P) (source : Source) :
    P UInt8 .access (Exec.readSource source) (Exec.readSource source) := by
  cases source with
  | place p => exact c.readPlace p
  | immediate v => exact c.widen (c.pure v) rfl

theorem pushWord (c : Mild P) (v : UInt16) :
    P Unit (.write + .write) (Exec.pushWord v) (Exec.pushWord v) :=
  c.widen (c.bind (c.modifyCpu fun _ => rfl) fun _ => c.bind c.cpu fun _ =>
    c.bind (c.writeByte _ _) fun _ => c.writeByte _ _) rfl

theorem popWord (c : Mild P) : P UInt16 (.one + .one) Exec.popWord Exec.popWord :=
  c.widen (c.bind c.cpu fun _ => c.bind (c.readWord _) fun _ =>
    c.bind (c.modifyCpu fun _ => rfl) fun _ => c.pure _) rfl

theorem callTo (c : Mild P) (target : UInt16) :
    P Unit (.one + .write + .write) (Exec.callTo target) (Exec.callTo target) :=
  c.widen (c.bind c.idle fun _ => c.bind c.cpu fun _ => c.bind (c.pushWord _) fun _ =>
    c.setPc _) rfl

theorem taken (c : Mild P) (condition : Option Condition) :
    P Bool .none (Exec.taken condition) (Exec.taken condition) := by
  cases condition with
  | none => exact c.pure true
  | some cc => exact c.bind c.cpu fun _ => c.pure _

/-- Work that is done only if a branch is taken. -/
theorem whenTaken {x : Exec σ Unit} {y : Exec τ Unit} (c : Mild P)
    (condition : Option Condition) (related : P Unit u x y)
    (within : decide (u.Within .branch) = true) :
    P Unit .branch (do if ← Exec.taken condition then x)
      (do if ← Exec.taken condition then y) := by
  have inner : ∀ b : Bool, P Unit .branch
      (if b then x else Pure.pure ()) (if b then y else Pure.pure ()) := by
    intro b
    cases b with
    | true => exact c.widen related within
    | false => exact c.widen (c.pure ()) rfl
  exact c.widen (c.bind (c.taken condition) inner) rfl

theorem alu (c : Mild P) (op : AluOp) (source : Source) :
    P Unit .access (Exec.alu op source) (Exec.alu op source) :=
  c.widen (c.bind (c.readSource _) fun _ => c.modifyCpu fun _ => rfl) rfl

theorem adjust (c : Mild P) (f : UInt8 → Flags → UInt8 × Flags) (target : Place) :
    P Unit (.access + .storage) (Exec.adjust f target) (Exec.adjust f target) :=
  c.widen (c.bind (c.readPlace _) fun _ => c.bind c.cpu fun _ => c.bind (c.setFlags _) fun _ =>
    c.writePlace _ _) rfl

theorem shift (c : Mild P) (op : ShiftOp) (target : Place) :
    P Unit (.access + .storage) (Exec.shift op target) (Exec.shift op target) :=
  c.widen (c.bind (c.readPlace _) fun _ => c.bind c.cpu fun _ =>
    c.bind (c.writePlace _ _) fun _ => c.setFlags _) rfl

theorem bit (c : Mild P) (index : Fin 8) (target : Place) :
    P Unit .access (Exec.bit index target) (Exec.bit index target) :=
  c.widen (c.bind (c.readPlace _) fun _ => c.modifyCpu fun _ => rfl) rfl

theorem updatePlace (c : Mild P) (f : UInt8 → UInt8) (target : Place) :
    P Unit (.access + .storage) (Exec.updatePlace f target) (Exec.updatePlace f target) :=
  c.bind (c.readPlace _) fun _ => c.writePlace _ _

theorem returnPc (c : Mild P) :
    P Unit (.one + .one + .one) Exec.returnPc Exec.returnPc :=
  c.widen (c.bind c.popWord fun _ => c.bind c.idle fun _ => c.setPc _) rfl

/-- Work that begins with a change of the processor and a delay. -/
theorem modifyThenIdle (c : Mild P) {f : Cpu → Cpu}
    (same : ∀ cpu, (f cpu).enables = cpu.enables) :
    P Unit .executing (do Exec.modifyCpu f; Exec.idle) (do Exec.modifyCpu f; Exec.idle) :=
  c.widen (c.bind (c.modifyCpu same) fun _ => c.idle) rfl

/-- The usage is the same for all instructions: what the widest of them needs. -/
theorem execute (c : Mild P) (start : UInt16) {i : Instruction}
    (mild : i.governsInterrupts = false) :
    P Unit .executing (Exec.execute start i) (Exec.execute start i) := by
  unfold Exec.execute
  cases i with
  | nop => exact c.widen (c.pure ()) rfl
  | stop => exact c.widen (c.bind c.fetch fun _ => c.switchSpeed) rfl
  | halt => exact c.widen c.halt rfl
  | di | ei | reti => cases mild
  | daa | cpl | scf | ccf => exact c.widen (c.modifyCpu fun _ => rfl) rfl
  | load target source =>
    exact c.widen (c.bind (c.readSource _) fun _ => c.writePlace _ _) rfl
  | loadPair p v => exact c.widen (c.modifyCpu (Cpu.enables_setPair · p v)) rfl
  | storeSp a => exact c.widen (c.bind c.cpu fun _ => c.writeWord _ _) rfl
  | loadSpHl | loadHlSp offset => exact c.modifyThenIdle fun _ => rfl
  | addSp offset =>
    exact c.widen (c.bind (c.modifyCpu fun _ => rfl) fun _ => c.bind c.idle fun _ => c.idle) rfl
  | alu op source => exact c.widen (c.alu op source) rfl
  | inc target | dec target => exact c.widen (c.adjust _ target) rfl
  | incPair p | decPair p => exact c.modifyThenIdle (Cpu.enables_setPair · p _)
  | addHl p => exact c.modifyThenIdle fun _ => rfl
  | push p =>
    exact c.widen (c.bind (c.pair p) fun _ => c.bind c.idle fun _ => c.pushWord _) rfl
  | pop p =>
    exact c.widen (c.bind c.popWord fun _ => c.modifyCpu (Cpu.enables_setPair · p _)) rfl
  | rotateA r => exact c.widen (c.modifyCpu fun _ => rfl) rfl
  | shift op target => exact c.widen (c.shift op target) rfl
  | bit index target => exact c.widen (c.bit index target) rfl
  | res index target | set index target => exact c.widen (c.updatePlace _ target) rfl
  | jump condition target =>
    exact c.widen (c.whenTaken condition (c.bind (c.setPc target) fun _ => c.idle) rfl) rfl
  | jumpHl => exact c.widen (c.bind (c.pair .hl) fun _ => c.setPc _) rfl
  | jumpRelative condition offset =>
    exact c.widen (c.whenTaken condition
      (c.bind c.idle fun _ => c.bind c.cpu fun _ => c.setPc _) rfl) rfl
  | call condition target =>
    exact c.widen (c.whenTaken condition (c.callTo target) rfl) rfl
  | ret condition =>
    cases condition with
    | none => exact c.widen c.returnPc rfl
    | some cc =>
      exact c.widen (c.bind c.idle fun _ => c.whenTaken (some cc) c.returnPc rfl) rfl
  | rst vector => exact c.widen (c.callTo _) rfl
  | illegal opcode => exact c.widen (c.bind (c.setPc start) fun _ => c.raise _) rfl

theorem decode (c : Mild P) :
    P Instruction .decoding (Instruction.decode Exec.fetch) (Instruction.decode Exec.fetch) := by
  refine c.widen (c.bind (w := { writes := 0, least := 0, most := 2 }) c.fetch fun op => ?_) rfl
  cases Encoding.ofOpcode op with
  | complete i => exact c.widen (c.pure i) rfl
  | withByte f => exact c.widen (c.bind c.fetch fun _ => c.pure _) rfl
  | withWord f =>
    exact c.widen (c.bind c.fetch fun _ => c.bind c.fetch fun _ => c.pure _) rfl

end Mild

namespace Congruence

variable {P : (α : Type) → Usage → Exec σ α → Exec τ α → Prop}

theorem toMild (c : Congruence P) : Mild P :=
  { c with processor := fun f _ => c.processor f trivial }

theorem modifyCpu (c : Congruence P) (f : Cpu → Cpu) :
    P Unit .none (Exec.modifyCpu f) (Exec.modifyCpu f) :=
  c.processor (fun hw => f hw.cpu) trivial

theorem execute (c : Congruence P) (start : UInt16) (i : Instruction) :
    P Unit .executing (Exec.execute start i) (Exec.execute start i) := by
  cases governs : i.governsInterrupts with
  | false => exact c.toMild.execute start governs
  | true =>
    unfold Exec.execute
    cases i with
    | di | ei => exact c.toMild.widen (c.modifyCpu _) rfl
    | reti => exact c.toMild.widen (c.bind (c.modifyCpu _) fun _ => c.toMild.returnPc) rfl
    | _ => cases governs

/-- What holds of everything a processor can do holds of an instruction as a whole. -/
theorem step (c : Congruence P) : P Unit .instruction Exec.step Exec.step := by
  refine c.toMild.widen (c.bind (w := .instruction) c.toMild.cpu fun before => ?_) rfl
  split
  · exact c.toMild.widen c.idle rfl
  · exact c.toMild.widen (c.bind c.toMild.decode fun _ => c.bind (c.execute _ _) fun _ =>
      c.modifyCpu _) rfl

end Congruence

end Exec

end GameBoy
