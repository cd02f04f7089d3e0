import GameBoy.Proofs.Effects

/-!
Every instruction does what its effects say. An instruction is followed through scenes, on a machine
that notes its accesses. Main statement: `step_instruction`.
-/

namespace GameBoy

namespace Instruction

theorem aftermath_bare (i : Instruction) (start : UInt16) {m : Machine σ}
    (bare : m.handlers = []) : (i.aftermath start m).handlers = [] := by
  cases i <;> exact bare

end Instruction

/-- A machine without devices in the middle of an instruction, with its registers apart, and what it
has taken so far. -/
structure Scene (σ : Type) where
  machine : Machine σ
  bare : machine.handlers = []
  cpu : Cpu
  trace : List BusAccess
  delays : Nat

namespace Scene

/-- The step that a scene stands for. -/
def toStep (s : Scene σ) : Step (List BusAccess) where
  machine := (s.machine.withCpu s.cpu).traced s.trace
  clocks := UInt32.ofNat (4 * (s.trace.length + s.delays))

/-- A byte has been read. -/
def read (s : Scene σ) (address : UInt16) : Scene σ :=
  { s with trace := s.trace ++ [.read address] }

/-- Some bytes have been read. -/
def load (s : Scene σ) (addresses : List UInt16) : Scene σ := addresses.foldl read s

/-- A byte has been written. -/
def write (s : Scene σ) (address : UInt16) (v : UInt8) : Scene σ where
  machine := s.machine.write address v
  bare := (s.machine.write_evolves s.bare address v).bare s.bare
  cpu := s.cpu
  trace := s.trace ++ [.write address v]
  delays := s.delays

/-- Some bytes have been written. -/
def store (s : Scene σ) (stores : List (UInt16 × UInt8)) : Scene σ :=
  stores.foldl (fun s entry => s.write entry.1 entry.2) s

/-- The speed has been changed if that was prepared. -/
def switch (s : Scene σ) : Scene σ := { s with machine := s.machine.mapHardware (·.switchSpeed) }

/-- A fault has been recorded. -/
def raise (s : Scene σ) (fault : Fault) : Scene σ :=
  { s with machine := s.machine.mapConsole (·.raise fault) }

def idle (s : Scene σ) : Scene σ := { s with delays := s.delays + 1 }

/-- An access takes four clocks, and so does a delay. -/
theorem clocks_succ (s : Scene σ) {t : Scene σ}
    (taken : t.trace.length + t.delays = s.trace.length + s.delays + 1) :
    s.toStep.clocks + 4 = t.toStep.clocks := by
  show UInt32.ofNat _ + UInt32.ofNat 4 = UInt32.ofNat _
  rw [taken, Nat.mul_succ, UInt32.ofNat_add]

end Scene

namespace Exec

/-- Work that leads from a scene to another one, with a result. -/
structure Leads (x : Exec (List BusAccess) α) (s : Scene σ) (a : α) (t : Scene σ) : Prop where
  run : x.run s.toStep = (a, t.toStep)

variable {s t u : Scene σ} {x : Exec (List BusAccess) α}

theorem leads_pure (a : α) : Leads (pure a) s a s := ⟨rfl⟩

theorem Leads.bind {f : α → Exec (List BusAccess) β} (first : Leads x s a t)
    (second : Leads (f a) t b u) : Leads (x >>= f) s b u where
  run := by
    rw [StateT.run_bind, first.run]
    exact second.run

theorem leads_idle : Leads idle s () s.idle where
  run := by
    have taken : s.toStep.clocks + 4 = s.idle.toStep.clocks := s.clocks_succ rfl
    show ((), ({ s.toStep with clocks := s.toStep.clocks + 4 } : Step (List BusAccess))) = _
    rw [taken]
    rfl

theorem leads_readByte (address : UInt16) :
    Leads (readByte address) s (s.machine.peek address) (s.read address) where
  run := by
    have bare : (s.machine.withCpu s.cpu).handlers = [] := s.bare
    have taken : s.toStep.clocks + 4 = (s.read address).toStep.clocks := s.clocks_succ <| by
      simp only [Scene.read, List.length_append, List.length_singleton]
      omega
    have read := Machine.read_traced bare s.trace address
    rw [Machine.peek_withCpu s.bare] at read
    refine (Machine.run_readByte _ s.toStep.clocks address).trans ?_
    rw [read, taken]
    rfl

theorem leads_writeByte (address : UInt16) (v : UInt8) :
    Leads (writeByte address v) s () (s.write address v) where
  run := by
    have bare : (s.machine.withCpu s.cpu).handlers = [] := s.bare
    have taken : s.toStep.clocks + 4 = (s.write address v).toStep.clocks := s.clocks_succ <| by
      simp only [Scene.write, List.length_append, List.length_singleton]
      omega
    have written := Machine.write_traced bare s.trace address v
    rw [Machine.write_withCpu s.bare] at written
    refine (Machine.run_writeByte _ s.toStep.clocks address v).trans ?_
    rw [written, taken]
    rfl

theorem leads_cpu : Leads cpu s s.cpu s := ⟨rfl⟩

theorem leads_modifyCpu (f : Cpu → Cpu) : Leads (modifyCpu f) s () { s with cpu := f s.cpu } :=
  ⟨rfl⟩

theorem leads_pair (p : Pair) : Leads (pair p) s (s.cpu.getPair p) s := ⟨rfl⟩

theorem leads_movingHl (delta : UInt16) :
    Leads (movingHl delta) s (s.cpu.getPair .hl)
      { s with cpu := s.cpu.setPair .hl (s.cpu.getPair .hl + delta) } := ⟨rfl⟩

theorem leads_readPlace (p : Place) :
    Leads (readPlace p) s (p.value s.machine.peek s.cpu)
      { s.load (p.slot s.cpu).loads with cpu := p.used s.cpu } := by
  cases p with
  | register r => exact leads_cpu.bind (leads_pure _)
  | indirect p => exact (leads_pair p).bind (leads_readByte _)
  | indirectInc | indirectDec => exact (leads_movingHl _).bind (leads_readByte _)
  | direct a => exact leads_readByte _
  | highDirect offset => exact leads_readByte _
  | highC => exact leads_cpu.bind (leads_readByte _)

theorem leads_writePlace (p : Place) (v : UInt8) :
    Leads (writePlace p v) s ()
      { s.store ((p.slot s.cpu).stores v) with cpu := p.put s.cpu v } := by
  cases p with
  | register r => exact leads_modifyCpu (·.set r v)
  | indirect p => exact (leads_pair p).bind (leads_writeByte _ _)
  | indirectInc | indirectDec => exact (leads_movingHl _).bind (leads_writeByte _ _)
  | direct a => exact leads_writeByte _ _
  | highDirect offset => exact leads_writeByte _ _
  | highC => exact leads_cpu.bind (leads_writeByte _ _)

theorem leads_readSource (source : Source) :
    Leads (readSource source) s (source.value s.machine.peek s.cpu)
      { s.load (source.loads s.cpu) with cpu := source.used s.cpu } := by
  cases source with
  | place p => exact leads_readPlace p
  | immediate v => exact leads_pure v

theorem leads_pushWord (v : UInt16) :
    Leads (pushWord v) s ()
      { s.store (Word.pushes s.cpu.sp v) with cpu := { s.cpu with sp := s.cpu.sp - 2 } } := by
  have above : s.cpu.sp - 2 + 1 = s.cpu.sp - 1 := by grind
  rw [Word.pushes, ← above]
  exact (leads_modifyCpu _).bind (leads_cpu.bind ((leads_writeByte _ _).bind (leads_writeByte _ _)))

theorem leads_popWord :
    Leads popWord s (s.machine.word s.cpu.sp)
      { s.load [s.cpu.sp, s.cpu.sp + 1] with cpu := { s.cpu with sp := s.cpu.sp + 2 } } := by
  have read : Leads (readWord s.cpu.sp) s (s.machine.word s.cpu.sp)
      (s.load [s.cpu.sp, s.cpu.sp + 1]) :=
    (leads_readByte _).bind ((leads_readByte _).bind (leads_pure _))
  exact leads_cpu.bind (read.bind ((leads_modifyCpu _).bind (leads_pure _)))

theorem leads_taken (condition : Option Condition) :
    Leads (taken condition) s (s.cpu.f.allow condition) s := by
  cases condition with
  | none => exact leads_pure true
  | some cc => exact leads_cpu.bind (leads_pure _)

theorem Leads.whenTaken {x : Exec (List BusAccess) Unit} (led : Leads x s () t)
    (condition : Option Condition) :
    Leads (do if ← taken condition then x) s () (if s.cpu.f.allow condition then t else s) := by
  refine (leads_taken condition).bind ?_
  cases s.cpu.f.allow condition with
  | true => exact led
  | false => exact leads_pure ()

theorem leads_callTo (target : UInt16) :
    Leads (callTo target) s ()
      { s.idle.store (Word.pushes s.cpu.sp s.cpu.pc) with
        cpu := { s.cpu with sp := s.cpu.sp - 2, pc := target } } := by
  have pushed : Leads (pushWord s.cpu.pc) s.idle ()
      { s.idle.store (Word.pushes s.cpu.sp s.cpu.pc) with
        cpu := { s.cpu with sp := s.cpu.sp - 2 } } := leads_pushWord _
  -- Nothing that follows depends on how the two bytes are stored.
  generalize s.idle.store (Word.pushes s.cpu.sp s.cpu.pc) = after at pushed ⊢
  exact leads_idle.bind (leads_cpu.bind (pushed.bind (leads_modifyCpu _)))

theorem leads_returnPc :
    Leads returnPc s ()
      { (s.load [s.cpu.sp, s.cpu.sp + 1]).idle with
        cpu := { s.cpu with sp := s.cpu.sp + 2, pc := s.machine.word s.cpu.sp } } :=
  leads_popWord.bind (leads_idle.bind (leads_modifyCpu _))

theorem leads_halt :
    Leads (modifyHardware .halt) s ()
      { s with cpu := s.cpu.halt s.machine.console.hw.nextInterrupt?.isSome } where
  run := congrArg
    (fun hw => ((), ({ s.toStep with machine := s.toStep.machine.mapHardware fun _ => hw } :
      Step (List BusAccess)))) s.toStep.machine.console.hw.halt_eq

theorem leads_switchSpeed : Leads (modifyHardware .switchSpeed) s () s.switch where
  run := congrArg
    (fun hw => ((), ({ s.toStep with machine := s.toStep.machine.mapHardware fun _ => hw } :
      Step (List BusAccess)))) (s.machine.console.hw.switchSpeed_cpu s.cpu)

theorem leads_settleEnable (wasPending : Bool) :
    Leads (settleEnable wasPending) s () { s with cpu := s.cpu.settle wasPending } := ⟨rfl⟩

theorem leads_raise (fault : Fault) : Leads (raise fault) s () (s.raise fault) := ⟨rfl⟩

theorem Leads.congr (led : Leads x s a t) (same : t = u) : Leads x s a u := same ▸ led

/-- A place is changed, and the flags with it. -/
def changed (s : Scene σ) (target : Place) (f : UInt8 → Flags → UInt8 × Flags) : Scene σ :=
  let result := f (target.value s.machine.peek s.cpu) s.cpu.f
  { (s.load (target.slot s.cpu).loads).store ((target.slot s.cpu).stores result.1) with
    cpu := target.put { s.cpu with f := result.2 } result.1 }

theorem leads_adjust (f : UInt8 → Flags → UInt8 × Flags) {target : Place}
    (common : target.isCommon = true) : Leads (adjust f target) s () (changed s target f) := by
  refine (leads_readPlace target).bind (leads_cpu.bind ((leads_modifyCpu _).bind ?_))
  obtain ⟨r, rfl⟩ | rfl := Place.cases_common common
  all_goals exact leads_writePlace _ _

theorem leads_shift (op : ShiftOp) {target : Place} (common : target.isCommon = true) :
    Leads (shift op target) s () (changed s target fun v f =>
      let result := Alu.shift op v f.c
      (result.1, Alu.shiftFlags (result.1 = 0) result.2)) := by
  obtain ⟨r, rfl⟩ | rfl := Place.cases_common common
  · refine (leads_readPlace _).bind (leads_cpu.bind ((leads_writePlace _ _).bind ?_))
    cases r <;> exact leads_modifyCpu _
  · exact (leads_readPlace _).bind (leads_cpu.bind
      ((leads_writePlace _ _).bind (leads_modifyCpu _)))

theorem leads_updatePlace (f : UInt8 → UInt8) {target : Place} (common : target.isCommon = true) :
    Leads (updatePlace f target) s () (changed s target fun v flags => (f v, flags)) := by
  refine (leads_readPlace target).bind ?_
  obtain ⟨r, rfl⟩ | rfl := Place.cases_common common
  all_goals exact leads_writePlace _ _

theorem leads_bit (index : Fin 8) {target : Place} (common : target.isCommon = true) :
    Leads (bit index target) s ()
      { s.load (target.slot s.cpu).loads with
        cpu :=
          { s.cpu with
            f := Alu.testBit index (target.value s.machine.peek s.cpu) s.cpu.f } } := by
  refine (leads_readPlace target).bind ?_
  obtain ⟨r, rfl⟩ | rfl := Place.cases_common common
  all_goals exact leads_modifyCpu _

theorem leads_alu (op : AluOp) {source : Source} (common : source.isCommon = true) :
    Leads (alu op source) s ()
      { s.load (source.loads s.cpu) with
        cpu :=
          let result := Alu.apply op s.cpu.a (source.value s.machine.peek s.cpu) s.cpu.f
          { s.cpu with a := result.1, f := result.2 } } := by
  refine (leads_readSource source).bind ?_
  cases source with
  | place p =>
    obtain ⟨r, rfl⟩ | rfl := Place.cases_common common
    all_goals exact leads_modifyCpu _
  | immediate v => exact leads_modifyCpu _

/-- The scene in which an instruction is run. -/
def entered (i : Instruction) (m : Machine σ) (bare : m.handlers = []) : Scene σ where
  machine := m
  bare := bare
  cpu := i.entry m
  trace := m.codeReads i.size
  delays := 0

/-- The scene that an instruction leads to. -/
def left (i : Instruction) (m : Machine σ) (bare : m.handlers = []) : Scene σ :=
  let after := ((entered i m bare).load (i.loads m)).store (i.stores m)
  { after with
    cpu := i.registers m
    delays := after.delays + i.delays (m.console.hw.cpu.f.allow i.guard?) }

open Instruction in
theorem leads_execute {m : Machine σ} (bare : m.handlers = []) {i : Instruction}
    (regular : i.regular = true) (start : UInt16) (other : i ≠ .stop)
    (legal : ∀ opcode, i ≠ .illegal opcode) :
    Leads (execute start i) (entered i m bare) () (left i m bare) := by
  unfold execute
  cases i with
  | stop => exact absurd rfl other
  | illegal opcode => exact absurd rfl (legal opcode)
  | nop => exact leads_pure ()
  | halt => exact leads_halt
  | di | ei | daa | cpl | scf | ccf => exact leads_modifyCpu _
  | load target source =>
    refine ((leads_readSource source).bind (leads_writePlace target _)).congr ?_
    obtain register | common := Bool.or_eq_true_iff.mp regular
    · cases target with
      | register r => rfl
      | _ => cases register
    · cases source with
      | place p => obtain ⟨r, rfl⟩ | rfl := Place.cases_common common <;> rfl
      | immediate v => rfl
  | loadPair p v => exact leads_modifyCpu _
  | storeSp a => exact leads_cpu.bind ((leads_writeByte _ _).bind (leads_writeByte _ _))
  | loadSpHl | loadHlSp offset => exact (leads_modifyCpu _).bind leads_idle
  | addSp offset => exact (leads_modifyCpu _).bind (leads_idle.bind leads_idle)
  | alu op source => exact leads_alu op regular
  | inc target | dec target => exact leads_adjust _ regular
  | incPair p | decPair p => exact (leads_modifyCpu _).bind leads_idle
  | addHl p => exact (leads_modifyCpu _).bind leads_idle
  | push p => exact (leads_pair p).bind (leads_idle.bind (leads_pushWord _))
  | pop p => exact leads_popWord.bind (leads_modifyCpu _)
  | rotateA r => exact leads_modifyCpu _
  | shift op target => exact leads_shift op regular
  | bit index target => exact leads_bit index regular
  | res index target | set index target => exact leads_updatePlace _ regular
  | jump condition target =>
    refine (Leads.whenTaken ((leads_modifyCpu _).bind leads_idle) condition).congr ?_
    cases allowed : m.console.hw.cpu.f.allow condition
    all_goals
      unfold left registers delays
      simp only [entered, guard?, entry, allowed]
      rfl
  | jumpHl => exact (leads_pair _).bind (leads_modifyCpu _)
  | jumpRelative condition offset =>
    refine (Leads.whenTaken
      (leads_idle.bind (leads_cpu.bind (leads_modifyCpu _))) condition).congr ?_
    cases allowed : m.console.hw.cpu.f.allow condition
    all_goals
      unfold left registers delays
      simp only [entered, guard?, entry, allowed]
      rfl
  | call condition target =>
    refine (Leads.whenTaken (leads_callTo target) condition).congr ?_
    cases allowed : m.console.hw.cpu.f.allow condition
    all_goals
      unfold left registers delays
      simp only [entered, stores, guard?, entry, allowed]
      rfl
  | ret condition =>
    cases condition with
    | none => exact leads_returnPc
    | some cc =>
      refine (leads_idle.bind (Leads.whenTaken leads_returnPc (some cc))).congr ?_
      cases allowed : m.console.hw.cpu.f.satisfies cc
      all_goals
        unfold left registers delays
        simp only [entered, loads, guard?, entry, Flags.allow, Option.all_some, Scene.idle, allowed]
        rfl
  | reti => exact (leads_modifyCpu _).bind leads_returnPc
  | rst vector => exact leads_callTo _

/-- The scene in which some bytes from PC on have been fetched. -/
def fetched (m : Machine σ) (bare : m.handlers = []) (count : Nat) : Scene σ where
  machine := m
  bare := bare
  cpu := { m.console.hw.cpu with pc := m.console.hw.cpu.pc + UInt16.ofNat count }
  trace := m.codeReads count
  delays := 0

variable {m : Machine σ} (bare : m.handlers = [])

theorem leads_fetch (count : Nat) :
    Leads fetch (fetched m bare count) (m.code count) (fetched m bare (count + 1)) := by
  refine (leads_cpu.bind ((leads_modifyCpu _).bind (leads_readByte _))).congr ?_
  unfold fetched
  rw [Machine.codeReads_succ, ← Machine.next_address]
  rfl

theorem leads_decode :
    Leads (Instruction.decode fetch) (fetched m bare 0) m.instruction
      (fetched m bare m.instruction.decodedSize) where
  run := by
    rw [Machine.instruction, ← Instruction.snd_decodeAt]
    exact Instruction.run_decode fun count => (leads_fetch bare count).run

/-- The scene after an instruction, but for an enable that was pending. -/
def outcome (i : Instruction) (m : Machine σ) (bare : m.handlers = []) : Scene σ :=
  let s := left i m bare
  { s with
    machine := i.aftermath m.console.hw.cpu.pc s.machine
    bare := i.aftermath_bare _ s.bare }

theorem leads_outcome {i : Instruction} (regular : i.regular = true) :
    Leads (execute m.console.hw.cpu.pc i) (fetched m bare i.decodedSize) () (outcome i m bare) := by
  cases i with
  | stop => exact (leads_fetch bare 1).bind leads_switchSpeed
  | illegal opcode => exact (leads_modifyCpu _).bind (leads_raise _)
  | _ => exact leads_execute bare regular _ nofun nofun

end Exec

namespace Scene

variable (s : Scene σ)

theorem load_eq (addresses : List UInt16) :
    s.load addresses = { s with trace := s.trace ++ addresses.map .read } := by
  induction addresses generalizing s with
  | nil => exact congrArg (fun trace => { s with trace }) (List.append_nil _).symm
  | cons address others ih =>
    refine (ih _).trans (congrArg (fun trace => { s with trace }) ?_)
    exact List.append_assoc ..

theorem store_fields (stores : List (UInt16 × UInt8)) :
    (s.store stores).machine = s.machine.storeEach stores ∧
      (s.store stores).trace = s.trace ++ stores.map BusAccess.store ∧
      (s.store stores).delays = s.delays := by
  induction stores generalizing s with
  | nil => exact ⟨rfl, (List.append_nil _).symm, rfl⟩
  | cons entry others ih =>
    obtain ⟨machine, trace, delays⟩ := ih (s.write entry.1 entry.2)
    exact ⟨machine, trace.trans (List.append_assoc ..), delays⟩

end Scene

namespace Machine

variable {m : Machine σ}

theorem storeEach_evolves (bare : m.handlers = []) (stores : List (UInt16 × UInt8)) :
    m.Evolves 0 (m.storeEach stores) := by
  induction stores generalizing m with
  | nil => exact .refl m
  | cons entry others ih =>
    have written := m.write_evolves bare entry.1 entry.2
    exact written.trans (ih (written.bare bare))

theorem traced_inj {n : Machine σ} (same : m.traced first = n.traced second)
    (handlers : m.handlers = n.handlers) (devices : m.devices = n.devices) :
    m = n ∧ first = second := by
  cases m
  cases n
  cases same
  cases handlers
  cases devices
  exact ⟨rfl, rfl⟩

theorem executed_devices (bare : m.handlers = []) (i : Instruction) :
    (m.executed i).handlers = m.handlers ∧ (m.executed i).devices = m.devices := by
  have stored := storeEach_evolves bare (i.stores m)
  have after (n : Machine σ) :
      (i.aftermath m.console.hw.cpu.pc n).handlers = n.handlers ∧
        (i.aftermath m.console.hw.cpu.pc n).devices = n.devices := by
    cases i <;> exact ⟨rfl, rfl⟩
  exact ⟨(after _).1.trans stored.handlers, (after _).2.trans stored.devices⟩

theorem run_decode_traced (bare : m.handlers = []) :
    (Instruction.decode Exec.fetch).run { machine := m.traced [] } =
      (m.instruction, (Exec.fetched m bare m.instruction.decodedSize).toStep) := by
  have start : (Exec.fetched m bare 0).toStep = { machine := m.traced [] } := by
    unfold Exec.fetched
    rw [show UInt16.ofNat 0 = 0 from rfl, UInt16.add_zero]
    rfl
  rw [← start]
  exact (Exec.leads_decode bare).run

/-- The processor with a trace runs the instruction at PC. -/
theorem run_step_traced (bare : m.handlers = []) (running : m.console.hw.cpu.halted = false) :
    let done := Exec.outcome m.instruction m bare
    Exec.step.run { machine := m.traced [] } =
      ((), { done with cpu := done.cpu.settle m.console.hw.cpu.imePending }.toStep) := by
  intro done
  have executed := (Exec.leads_outcome bare m.regular_instruction).run
  have settled := (Exec.leads_settleEnable (s := done) m.console.hw.cpu.imePending).run
  have ran := (m.traced []).run_step running
  dsimp only at ran
  rw [run_decode_traced bare] at ran
  refine ran.trans (.trans ?_ settled)
  exact congrArg (fun r => (Exec.settleEnable m.console.hw.cpu.imePending).run r.2) executed

theorem left_fields (bare : m.handlers = []) (i : Instruction) :
    (Exec.left i m bare).machine = m.storeEach (i.stores m) ∧
      (Exec.left i m bare).trace = m.accesses i ∧
      (Exec.left i m bare).delays = i.delays (m.console.hw.cpu.f.allow i.guard?) := by
  obtain ⟨machine, trace, delays⟩ := Scene.store_fields
    ((Exec.entered i m bare).load (i.loads m)) (i.stores m)
  rw [Scene.load_eq] at machine trace delays
  unfold Exec.left
  rw [Scene.load_eq]
  refine ⟨machine, trace, ?_⟩
  exact (congrArg (· + i.delays (m.console.hw.cpu.f.allow i.guard?)) delays).trans
    (Nat.zero_add _)

/-- A processor that is not halted runs the instruction at PC. -/
theorem step_instruction (bare : m.handlers = []) (running : m.console.hw.cpu.halted = false) :
    let i := m.instruction
    m.step =
        (UInt32.ofNat
          (4 * ((m.accesses i).length + i.delays (m.console.hw.cpu.f.allow i.guard?))),
        m.executed i) ∧
      m.stepAccesses = m.accesses i := by
  intro i
  have ran := run_step_traced bare running
  have ends : (m.traced []).step =
      (UInt32.ofNat (4 * ((m.accesses i).length + i.delays (m.console.hw.cpu.f.allow i.guard?))),
        (m.executed i).traced (m.accesses i)) := by
    obtain ⟨machine, trace, delays⟩ := left_fields bare i
    refine (congrArg (fun r => (r.2.clocks, r.2.machine)) ran).trans ?_
    simp only [Scene.toStep, Exec.outcome, machine, trace, delays, i]
    rfl
  rw [step_traced bare] at ends
  obtain ⟨clocks, machine⟩ := Prod.mk.inj ends
  have evolved := m.step_evolves bare
  obtain ⟨handlers, devices⟩ := executed_devices bare i
  obtain ⟨same, accesses⟩ := traced_inj machine
    (evolved.handlers.trans handlers.symm) (evolved.devices.trans devices.symm)
  exact ⟨Prod.ext clocks same, accesses⟩

theorem step_executed (bare : m.handlers = []) (executes : m.upcoming = .executes i) :
    m.step =
        (UInt32.ofNat
          (4 * ((m.accesses i).length + i.delays (m.console.hw.cpu.f.allow i.guard?))),
        m.executed i) ∧
      m.stepAccesses = m.accesses i := by
  have running := (upcoming_executes executes).1
  rw [upcoming_instruction bare running] at executes
  cases executes
  exact step_instruction bare running

/-- A halted processor does nothing at all. -/
theorem step_halted (halted : m.console.hw.cpu.halted = true) :
    m.step = (4, m) ∧ m.stepAccesses = [] := by
  have idles {τ : Type} (n : Machine τ) (halted : n.console.hw.cpu.halted = true) :
      n.step = (4, n) :=
    congrArg (fun r : Unit × Step τ => (r.2.clocks, r.2.machine)) (n.run_step_halted halted)
  exact ⟨idles m halted, congrArg (·.2.devices) (idles (m.traced []) halted)⟩

end Machine

end GameBoy
