import GameBoy.Proofs.Programs
import Mathlib.Data.Fintype.Basic
import Mathlib.Tactic.FinCases

/-!
What an instruction leaves alone. Only a branch goes on elsewhere than behind its own bytes, and only
a STOP changes the speed. Main statements: `pc_step` and `doubleSpeed_step`.
-/

namespace GameBoy

/-- Whether an instruction can go on elsewhere than behind its own bytes. -/
def Instruction.branches : Instruction → Bool
  | .jump .. | .jumpHl | .jumpRelative .. | .call .. | .ret _ | .reti | .rst _ | .illegal _ => true
  | _ => false

theorem Cpu.pc_set (cpu : Cpu) (r : Register) (v : UInt8) : (cpu.set r v).pc = cpu.pc := by
  cases r <;> rfl

theorem Cpu.pc_setPair (cpu : Cpu) (p : Pair) (w : UInt16) : (cpu.setPair p w).pc = cpu.pc := by
  cases p <;> rfl

namespace Exec

/-- Work that leaves alone what a view shows of the hardware, on a machine without devices. -/
def Leaves (view : Hardware → β) (x : Exec σ α) : Prop :=
  ∀ s : Step σ, s.machine.handlers = [] →
    (x.run s).2.machine.handlers = [] ∧
      view (x.run s).2.machine.console.hw = view s.machine.console.hw

/-- A view that shows neither what a write over the bus can change nor any register but PC. -/
structure Distant (view : Hardware → β) : Prop where
  bus {c d : Console} : c.Aside d → view d.hw = view c.hw
  registers (hw : Hardware) {cpu : Cpu} : cpu.pc = hw.cpu.pc → view { hw with cpu } = view hw

theorem distant_pc : Distant (·.cpu.pc) where
  bus same := congrArg Cpu.pc same.cpu
  registers _ _ same := same

theorem distant_doubleSpeed : Distant (·.doubleSpeed) where
  bus same := same.doubleSpeed
  registers _ _ _ := rfl

section Leaves

variable {view : Hardware → β} {x : Exec σ α} {f : α → Exec σ γ}

theorem leaves_pure (a : α) : Leaves view (pure a : Exec σ α) := fun _ bare => ⟨bare, rfl⟩

theorem Leaves.bind (first : Leaves view x) (second : ∀ a, Leaves view (f a)) :
    Leaves view (x >>= f) := by
  intro s bare
  obtain ⟨bareAfter, same⟩ := first s bare
  obtain ⟨bareEnd, sameAfter⟩ := second (x.run s).1 (x.run s).2 bareAfter
  exact ⟨bareEnd, sameAfter.trans same⟩

theorem leaves_idle : Leaves view (idle : Exec σ Unit) := fun _ bare => ⟨bare, rfl⟩

theorem leaves_cpu : Leaves view (cpu : Exec σ Cpu) := fun _ bare => ⟨bare, rfl⟩

theorem leaves_raise (fault : Fault) : Leaves view (raise fault : Exec σ Unit) :=
  fun _ bare => ⟨bare, rfl⟩

theorem leaves_readByte (address : UInt16) : Leaves view (readByte address : Exec σ UInt8) := by
  intro s bare
  have still := s.machine.read_bare bare address
  show (s.machine.read address).2.handlers = [] ∧
    view (s.machine.read address).2.console.hw = _
  rw [still]
  exact ⟨bare, rfl⟩

theorem leaves_readWord (address : UInt16) : Leaves view (readWord address : Exec σ UInt16) :=
  .bind (leaves_readByte _) fun _ => .bind (leaves_readByte _) fun _ => leaves_pure _

theorem leaves_pair (p : Pair) : Leaves view (pair p : Exec σ UInt16) :=
  .bind leaves_cpu fun _ => leaves_pure _

theorem leaves_taken (condition : Option Condition) :
    Leaves view (taken condition : Exec σ Bool) := by
  cases condition with
  | none => exact leaves_pure true
  | some cc => exact .bind leaves_cpu fun _ => leaves_pure _

/-- Work that is done only if a branch is taken. -/
theorem Leaves.whenTaken {x : Exec σ Unit} (left : Leaves view x)
    (condition : Option Condition) : Leaves view (do if ← Exec.taken condition then x) := by
  refine .bind (leaves_taken condition) fun taken => ?_
  cases taken with
  | true => exact left
  | false => exact leaves_pure ()

end Leaves

namespace Distant

variable {view : Hardware → β}

theorem writeByte (distant : Distant view) (address : UInt16) (v : UInt8) :
    Leaves view (writeByte address v : Exec σ Unit) := fun s bare =>
  ⟨(s.machine.write_evolves bare address v).bare bare,
    distant.bus (s.machine.write_aside bare address v)⟩

theorem modifyCpu (distant : Distant view) {f : Cpu → Cpu} (same : ∀ cpu, (f cpu).pc = cpu.pc) :
    Leaves view (modifyCpu f : Exec σ Unit) := fun s bare =>
  ⟨bare, distant.registers s.machine.console.hw (same s.machine.console.hw.cpu)⟩

theorem halt (distant : Distant view) :
    Leaves view (modifyHardware .halt : Exec σ Unit) := by
  intro s bare
  refine ⟨bare, ?_⟩
  show view s.machine.console.hw.halt = _
  unfold Hardware.halt
  split
  · rfl
  · exact distant.registers _ rfl

theorem writeWord (distant : Distant view) (address v : UInt16) :
    Leaves view (writeWord address v : Exec σ Unit) :=
  .bind (distant.writeByte _ _) fun _ => distant.writeByte _ _

theorem movingHl (distant : Distant view) (delta : UInt16) :
    Leaves view (movingHl delta : Exec σ UInt16) :=
  .bind (leaves_pair _) fun _ => .bind (distant.modifyCpu (Cpu.pc_setPair · _ _)) fun _ =>
    leaves_pure _

theorem readPlace (distant : Distant view) (p : Place) :
    Leaves view (readPlace p : Exec σ UInt8) := by
  cases p with
  | register r => exact .bind leaves_cpu fun _ => leaves_pure _
  | indirect p => exact .bind (leaves_pair _) fun _ => leaves_readByte _
  | indirectInc | indirectDec => exact .bind (distant.movingHl _) fun _ => leaves_readByte _
  | direct a => exact leaves_readByte a
  | highDirect offset => exact leaves_readByte _
  | highC => exact .bind leaves_cpu fun _ => leaves_readByte _

theorem writePlace (distant : Distant view) (p : Place) (v : UInt8) :
    Leaves view (writePlace p v : Exec σ Unit) := by
  cases p with
  | register r => exact distant.modifyCpu (Cpu.pc_set · r v)
  | indirect p => exact .bind (leaves_pair _) fun _ => distant.writeByte _ _
  | indirectInc | indirectDec => exact .bind (distant.movingHl _) fun _ => distant.writeByte _ _
  | direct a => exact distant.writeByte _ _
  | highDirect offset => exact distant.writeByte _ _
  | highC => exact .bind leaves_cpu fun _ => distant.writeByte _ _

theorem readSource (distant : Distant view) (source : Source) :
    Leaves view (readSource source : Exec σ UInt8) := by
  cases source with
  | place p => exact distant.readPlace p
  | immediate v => exact leaves_pure v

theorem pushWord (distant : Distant view) (v : UInt16) :
    Leaves view (pushWord v : Exec σ Unit) :=
  .bind (distant.modifyCpu fun _ => rfl) fun _ => .bind leaves_cpu fun _ =>
    .bind (distant.writeByte _ _) fun _ => distant.writeByte _ _

theorem popWord (distant : Distant view) : Leaves view (popWord : Exec σ UInt16) :=
  .bind leaves_cpu fun _ => .bind (leaves_readWord _) fun _ =>
    .bind (distant.modifyCpu fun _ => rfl) fun _ => leaves_pure _

theorem adjust (distant : Distant view) (f : UInt8 → Flags → UInt8 × Flags) (target : Place) :
    Leaves view (adjust f target : Exec σ Unit) :=
  .bind (distant.readPlace _) fun _ => .bind leaves_cpu fun _ =>
    .bind (distant.modifyCpu fun _ => rfl) fun _ => distant.writePlace _ _

theorem updatePlace (distant : Distant view) (f : UInt8 → UInt8) (target : Place) :
    Leaves view (updatePlace f target : Exec σ Unit) :=
  .bind (distant.readPlace _) fun _ => distant.writePlace _ _

/-- An instruction that neither branches nor stops. -/
theorem execute (distant : Distant view) (start : UInt16) {i : Instruction}
    (straight : i.branches = false) (other : i ≠ .stop) :
    Leaves view (execute start i : Exec σ Unit) := by
  unfold Exec.execute
  cases i with
  | stop => exact absurd rfl other
  | jump | jumpHl | jumpRelative | call | ret | reti | rst | illegal => cases straight
  | nop => exact leaves_pure ()
  | halt => exact distant.halt
  | di | ei | daa | cpl | scf | ccf => exact distant.modifyCpu fun _ => rfl
  | load target source => exact .bind (distant.readSource _) fun _ => distant.writePlace _ _
  | loadPair p v => exact distant.modifyCpu (Cpu.pc_setPair · p v)
  | storeSp a => exact .bind leaves_cpu fun _ => distant.writeWord _ _
  | loadSpHl | loadHlSp offset =>
    exact .bind (distant.modifyCpu fun _ => rfl) fun _ => leaves_idle
  | addSp offset =>
    exact .bind (distant.modifyCpu fun _ => rfl) fun _ => .bind leaves_idle fun _ => leaves_idle
  | alu op source =>
    exact .bind (distant.readSource _) fun _ => distant.modifyCpu fun _ => rfl
  | inc target | dec target => exact distant.adjust _ target
  | incPair p | decPair p =>
    exact .bind (distant.modifyCpu (Cpu.pc_setPair · p _)) fun _ => leaves_idle
  | addHl p => exact .bind (distant.modifyCpu fun _ => rfl) fun _ => leaves_idle
  | push p =>
    exact .bind (leaves_pair p) fun _ => .bind leaves_idle fun _ => distant.pushWord _
  | pop p =>
    exact .bind distant.popWord fun _ => distant.modifyCpu (Cpu.pc_setPair · p _)
  | rotateA r => exact distant.modifyCpu fun _ => rfl
  | shift op target =>
    exact .bind (distant.readPlace _) fun _ => .bind leaves_cpu fun _ =>
      .bind (distant.writePlace _ _) fun _ => distant.modifyCpu fun _ => rfl
  | bit index target =>
    exact .bind (distant.readPlace _) fun _ => distant.modifyCpu fun _ => rfl
  | res index target | set index target => exact distant.updatePlace _ target

end Distant

/-! Branches leave the speed alone. -/

theorem leaves_setPc (address : UInt16) :
    Leaves (·.doubleSpeed) (setPc address : Exec σ Unit) := fun _ bare => ⟨bare, rfl⟩

theorem leaves_callTo (target : UInt16) :
    Leaves (·.doubleSpeed) (callTo target : Exec σ Unit) :=
  .bind leaves_idle fun _ => .bind leaves_cpu fun _ =>
    .bind (distant_doubleSpeed.pushWord _) fun _ => leaves_setPc _

theorem leaves_returnPc : Leaves (·.doubleSpeed) (returnPc : Exec σ Unit) :=
  .bind distant_doubleSpeed.popWord fun _ => .bind leaves_idle fun _ => leaves_setPc _

/-- No instruction but STOP changes the speed. -/
theorem leaves_execute (start : UInt16) {i : Instruction} (other : i ≠ .stop) :
    Leaves (·.doubleSpeed) (execute start i : Exec σ Unit) := by
  cases branches : i.branches with
  | false => exact distant_doubleSpeed.execute start branches other
  | true =>
    unfold Exec.execute
    cases i with
    | jump condition target =>
      exact Leaves.whenTaken (.bind (leaves_setPc _) fun _ => leaves_idle) condition
    | jumpHl => exact .bind (leaves_pair .hl) fun _ => leaves_setPc _
    | jumpRelative condition offset =>
      exact Leaves.whenTaken
        (.bind leaves_idle fun _ => .bind leaves_cpu fun _ => leaves_setPc _) condition
    | call condition target => exact Leaves.whenTaken (leaves_callTo _) condition
    | ret condition =>
      cases condition with
      | none => exact leaves_returnPc
      | some cc => exact .bind leaves_idle fun _ => Leaves.whenTaken leaves_returnPc (some cc)
    | reti =>
      exact .bind (distant_doubleSpeed.modifyCpu fun _ => rfl) fun _ => leaves_returnPc
    | rst vector => exact leaves_callTo _
    | illegal opcode => exact .bind (leaves_setPc _) fun _ => leaves_raise _
    | _ => cases branches

end Exec

/-! Bytes. -/

namespace Instruction

/-- The bytes that are taken when an instruction is decoded. A STOP takes its last one only when it
is run. -/
def decodedSize : Instruction → Nat
  | .stop => 1
  | i => i.size

theorem decodedSize_eq {i : Instruction} (other : i ≠ .stop) : i.decodedSize = i.size := by
  cases i with
  | stop => exact absurd rfl other
  | _ => rfl

variable {ρ : Type} {fetch : StateM ρ UInt8} {s t u w : ρ} {op v low high : UInt8}

theorem run_decode_withByte {f : UInt8 → Instruction} (first : fetch.run s = (op, t))
    (encoding : Encoding.ofOpcode op = .withByte f) (second : fetch.run t = (v, u)) :
    (decode fetch).run s = (f v, u) := by
  unfold decode
  rw [StateT.run_bind, first]
  show ((pure (op, t) : Id (UInt8 × ρ)) >>= _) = _
  rw [pure_bind, encoding, StateT.run_bind, second]
  rfl

theorem run_decode_withWord {f : UInt16 → Instruction} (first : fetch.run s = (op, t))
    (encoding : Encoding.ofOpcode op = .withWord f) (second : fetch.run t = (low, u))
    (third : fetch.run u = (high, w)) :
    (decode fetch).run s = (f (Word.join high low), w) := by
  unfold decode
  rw [StateT.run_bind, first]
  show ((pure (op, t) : Id (UInt8 × ρ)) >>= _) = _
  rw [pure_bind, encoding, StateT.run_bind, second]
  show ((pure (low, u) : Id (UInt8 × ρ)) >>= _) = _
  rw [pure_bind, StateT.run_bind, third]
  rfl

end Instruction

/-- Every instruction that an opcode can stand for takes as many bytes as the opcode says. -/
def Encoding.Sized : Encoding → Prop
  | .complete i => i.decodedSize = 1
  | .withByte f => ∀ v, (f v).decodedSize = 2
  | .withWord f => ∀ v, (f v).decodedSize = 3

namespace Opcode

theorem size_place : ∀ code, (place code).size = 0 := by decide

theorem size_extended (op : UInt8) : (extended op).decodedSize = 2 := by
  unfold extended
  split <;> rfl

theorem sized_firstQuadrant (row column : Fin 8) : (firstQuadrant row column).Sized := by
  fin_cases column <;> fin_cases row <;> first | rfl | exact fun _ => rfl

theorem sized_lastQuadrant (op : UInt8) (row column : Fin 8) :
    (lastQuadrant op row column).Sized := by
  fin_cases column <;> fin_cases row <;> first | rfl | exact fun _ => rfl | exact size_extended

end Opcode

open Opcode in
theorem Encoding.sized_ofOpcode (op : UInt8) : (ofOpcode op).Sized := by
  unfold ofOpcode
  split
  · exact sized_firstQuadrant _ _
  · split
    · rfl
    · show 1 + ((place (row op)).size + (place (column op)).size) = 1
      rw [size_place, size_place]
  · show 1 + (place (column op)).size = 1
    rw [size_place]
  · exact sized_lastQuadrant op _ _

namespace Machine

variable {m : Machine σ}

/-- The machine with PC behind some bytes. -/
def behind (m : Machine σ) (bytes : Nat) : Machine σ :=
  m.mapHardware fun hw => { hw with cpu := { hw.cpu with pc := hw.cpu.pc + UInt16.ofNat bytes } }

theorem behind_advanced (m : Machine σ) (bytes : Nat) :
    m.advanced.behind bytes = m.behind (bytes + 1) := by
  have order : m.console.hw.cpu.pc + 1 + UInt16.ofNat bytes =
      m.console.hw.cpu.pc + UInt16.ofNat (bytes + 1) := by
    rw [UInt16.add_assoc, Nat.add_comm, UInt16.ofNat_add]
    rfl
  exact congrArg (fun pc => m.mapHardware fun hw => { hw with cpu := { hw.cpu with pc } }) order

/-- Taking a byte moves PC behind it and changes nothing else. -/
theorem run_fetch_bare (bare : m.handlers = []) (clocks : UInt32) :
    ∃ v, Exec.fetch.run { machine := m, clocks } =
      (v, { machine := m.advanced, clocks := clocks + 4 }) := by
  have still := m.advanced.read_bare bare m.console.hw.cpu.pc
  refine ⟨(m.advanced.read m.console.hw.cpu.pc).1, ?_⟩
  show ((m.advanced.read m.console.hw.cpu.pc).1,
    ({ machine := (m.advanced.read m.console.hw.cpu.pc).2, clocks := clocks + 4 } : Step σ)) = _
  rw [still]

/-- Decoding moves PC behind the bytes that it takes and changes nothing else. -/
theorem run_decode_bare (bare : m.handlers = []) :
    let decoded := (Instruction.decode (Exec.fetch (σ := σ))).run { machine := m }
    decoded.2.machine = m.behind decoded.1.decodedSize := by
  intro decoded
  have once := m.advanced_evolves.bare bare
  have twice := m.advanced.advanced_evolves.bare once
  obtain ⟨op, first⟩ := run_fetch_bare bare 0
  obtain ⟨low, second⟩ := run_fetch_bare once (0 + 4)
  obtain ⟨high, third⟩ := run_fetch_bare twice (0 + 4 + 4)
  have sized := Encoding.sized_ofOpcode op
  have done : m.behind 1 = m.advanced := rfl
  cases encoding : Encoding.ofOpcode op with
  | complete i =>
    have decodes : decoded = (i, _) := Instruction.run_decode_complete first encoding
    rw [encoding] at sized
    rw [decodes, show i.decodedSize = 1 from sized, done]
  | withByte f =>
    have decodes : decoded = (f low, _) := Instruction.run_decode_withByte first encoding second
    rw [encoding] at sized
    rw [decodes, show (f low).decodedSize = 2 from sized low, ← behind_advanced]
    rfl
  | withWord f =>
    have decodes : decoded = (f (Word.join high low), _) :=
      Instruction.run_decode_withWord first encoding second third
    rw [encoding] at sized
    rw [decodes, show (f (Word.join high low)).decodedSize = 3 from sized _, ← behind_advanced,
      ← behind_advanced]
    rfl

/-- A STOP takes its last byte when it is run, and then changes the speed if it was asked to. -/
theorem run_stop (bare : m.handlers = []) (start : UInt16) (clocks : UInt32) :
    ((Exec.execute start .stop).run { machine := m, clocks }).2.machine =
      m.advanced.mapHardware (·.switchSpeed) := by
  obtain ⟨v, taken⟩ := run_fetch_bare bare clocks
  show ((Exec.modifyHardware .switchSpeed).run (Exec.fetch.run _).2).2.machine = _
  rw [taken]
  rfl

theorem leaves_settleEnable {view : Hardware → β} (distant : Exec.Distant view)
    (wasPending : Bool) : Exec.Leaves view (Exec.settleEnable wasPending : Exec σ Unit) := by
  refine distant.modifyCpu fun cpu => ?_
  split <;> rfl

theorem upcoming_cases (m : Machine σ) :
    (m.console.hw.cpu.halted = true ∧ m.upcoming = .idles) ∨ ∃ i, m.upcoming = .executes i := by
  unfold upcoming
  cases m.console.hw.cpu.halted with
  | true => exact .inl ⟨rfl, rfl⟩
  | false => exact .inr ⟨_, rfl⟩

theorem upcoming_executes (executes : m.upcoming = .executes i) :
    m.console.hw.cpu.halted = false ∧
      ((Instruction.decode (Exec.fetch (σ := σ))).run { machine := m }).1 = i := by
  unfold upcoming at executes
  cases halted : m.console.hw.cpu.halted with
  | true =>
    rw [halted] at executes
    cases executes
  | false =>
    rw [halted] at executes
    exact ⟨rfl, Activity.executes.inj executes⟩

/-- An instruction is run with PC behind the bytes that were decoded. -/
theorem step_executes (bare : m.handlers = []) (executes : m.upcoming = .executes i) :
    ∃ clocks,
      let executed := (Exec.execute m.console.hw.cpu.pc i).run
        { machine := m.behind i.decodedSize, clocks }
      m.step.2 = ((Exec.settleEnable m.console.hw.cpu.imePending).run executed.2).2.machine := by
  obtain ⟨running, decoded⟩ := upcoming_executes executes
  have behind := run_decode_bare bare
  have ran := m.run_step running
  dsimp only at behind ran
  rw [decoded] at behind ran
  refine ⟨((Instruction.decode (Exec.fetch (σ := σ))).run { machine := m }).2.clocks, ?_⟩
  rw [← behind]
  exact congrArg (fun r : Unit × Step σ => r.2.machine) ran

section Views

variable {view : Hardware → β}

theorem view_step (distant : Exec.Distant view) (bare : m.handlers = [])
    (executes : m.upcoming = .executes i)
    (left : Exec.Leaves view (Exec.execute m.console.hw.cpu.pc i : Exec σ Unit)) :
    view m.step.2.console.hw = view (m.behind i.decodedSize).console.hw := by
  obtain ⟨clocks, stepped⟩ := step_executes bare executes
  obtain ⟨bareAfter, kept⟩ := left { machine := m.behind i.decodedSize, clocks } bare
  obtain ⟨-, settled⟩ := leaves_settleEnable distant m.console.hw.cpu.imePending _ bareAfter
  rw [stepped, settled, kept]

theorem view_step_stop (distant : Exec.Distant view) (bare : m.handlers = [])
    (executes : m.upcoming = .executes .stop) :
    view m.step.2.console.hw = view (m.behind 2).console.hw.switchSpeed := by
  obtain ⟨clocks, stepped⟩ := step_executes bare executes
  have bareBehind : (m.behind 1).handlers = [] := bare
  have ran := run_stop bareBehind m.console.hw.cpu.pc clocks
  have twice : (m.behind 1).advanced = m.behind 2 := m.behind_advanced 1
  rw [twice] at ran
  have bareAfter : ((Exec.execute m.console.hw.cpu.pc .stop).run
      { machine := m.behind 1, clocks }).2.machine.handlers = [] := by
    rw [ran]
    exact bare
  obtain ⟨-, settled⟩ := leaves_settleEnable distant m.console.hw.cpu.imePending _ bareAfter
  rw [stepped]
  refine settled.trans ?_
  rw [ran]
  rfl

end Views

/-- An instruction that does not branch goes on behind its own bytes. -/
theorem pc_step (bare : m.handlers = []) (executes : m.upcoming = .executes i)
    (straight : i.branches = false) :
    m.step.2.console.hw.cpu.pc = m.console.hw.cpu.pc + UInt16.ofNat i.size := by
  by_cases stop : i = .stop
  · subst stop
    refine (view_step_stop Exec.distant_pc bare executes).trans ?_
    unfold Hardware.switchSpeed
    split <;> rfl
  · rw [← Instruction.decodedSize_eq stop]
    exact view_step Exec.distant_pc bare executes (Exec.distant_pc.execute _ straight stop)

/-- The speed changes only by a STOP that a color model has been prepared for. -/
theorem doubleSpeed_step (bare : m.handlers = [])
    (steady : m.upcoming = .executes .stop →
      ¬(m.console.hw.isColor = true ∧ m.console.hw.io.read Io.speed % 2 = 1)) :
    m.step.2.console.hw.doubleSpeed = m.console.hw.doubleSpeed := by
  rcases m.upcoming_cases with ⟨halted, -⟩ | ⟨i, executes⟩
  · show (Exec.step.run ({ machine := m } : Step σ)).2.machine.console.hw.doubleSpeed = _
    rw [m.run_step_halted halted]
  · by_cases stop : i = .stop
    · subst stop
      refine (view_step_stop Exec.distant_doubleSpeed bare executes).trans ?_
      rw [Hardware.switchSpeed, if_neg]
      · rfl
      · rw [Bool.and_eq_true, decide_eq_true_iff]
        exact steady executes
    · exact view_step Exec.distant_doubleSpeed bare executes (Exec.leaves_execute _ stop)

end Machine

end GameBoy
