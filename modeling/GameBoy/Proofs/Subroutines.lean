import GameBoy.Proofs.BankedMemory
import GameBoy.Proofs.Boundaries
import GameBoy.Proofs.BusLog

/-!
Interrupts and calls leave no trace: the return goes back to where they came from. What is pushed
lies in two cells of RAM, and is popped again if the code in between has left it there. Main
statement: `return_transparent`.
-/

namespace GameBoy

/-- The addresses of work RAM, in both of its places, and of high RAM. -/
def InRam (address : UInt16) : Prop :=
  (0xC000 ≤ address ∧ address ≤ 0xFDFF) ∨ (0xFF80 ≤ address ∧ address ≤ 0xFFFE)

instance : Decidable (InRam address) := inferInstanceAs (Decidable (_ ∨ _))

theorem InRam.inMemory (ram : InRam address) : InMemory address := by
  simp only [InRam, InMemory, UInt16.le_iff_toNat_le, UInt16.reduceToNat] at ram ⊢
  omega

theorem InRam.region (ram : InRam address) :
    Region.ofAddress address = .wramFixed ∨ Region.ofAddress address = .wramBanked ∨
      Region.ofAddress address = .hram := by
  have spans := Region.spans_ofAddress address
  simp only [InRam, UInt16.le_iff_toNat_le, UInt16.reduceToNat] at ram
  generalize Region.ofAddress address = region at spans
  cases region with
  | wramFixed | wramBanked | hram => simp
  | _ =>
    simp only [Region.Spans] at spans
    omega

theorem InRam.ne_oam (ram : InRam address) : Region.ofAddress address ≠ .oam := by
  obtain region | region | region := ram.region
  all_goals
    rw [region]
    nofun

namespace Machine

variable {m : Machine σ} {cell : Cell}

/-- The bus always leads to RAM. -/
theorem route_ram (bare : m.handlers = []) (ram : InRam address) :
    m.route address = .memory (.ofAddress address) := by
  have shown : m.shows (.ofAddress address) = true := by
    obtain region | region | region := ram.region
    all_goals
      rw [region]
      rfl
  rw [m.route_bare bare, if_pos shown]

theorem peek_ram (bare : m.handlers = []) (ram : InRam address)
    (found : m.console.hw.selected.cell? address = some cell) :
    m.peek address = m.console.hw.load cell := by
  rw [peek, read, route_ram bare ram]
  exact Console.readRegion_cell (absurd · ram.ne_oam) found

theorem write_ram (bare : m.handlers = []) (ram : InRam address)
    (found : m.console.hw.selected.cell? address = some cell) (v : UInt8) :
    m.write address v = m.mapHardware (·.store cell v) := by
  rw [write, route_ram bare ram]
  exact congrArg (fun console => { m with console })
    (Console.writeRegion_cell (absurd · ram.ne_oam) found v)

/-- A word can be pushed: the two bytes below the stack pointer lie in RAM, and work RAM is all
there. -/
structure StackInRam (m : Machine σ) : Prop where
  above : InRam (m.console.hw.cpu.sp - 1)
  below : InRam (m.console.hw.cpu.sp - 2)
  wram : m.console.hw.wram.size = m.console.hw.model.wramSize

/-- The cells that a word is pushed into: they are two. -/
structure StackCells (m : Machine σ) (high low : Cell) : Prop where
  above : m.console.hw.selected.cell? (m.console.hw.cpu.sp - 1) = some high
  below : m.console.hw.selected.cell? (m.console.hw.cpu.sp - 2) = some low
  different : high ≠ low

/-- A machine whose stack is again as it was at an entry: the stack pointer is the same, and the two
bytes that it points to show what they showed then. -/
structure Unwound (entered k : Machine σ) : Prop where
  bare : k.handlers = []
  sp : k.console.hw.cpu.sp = entered.console.hw.cpu.sp
  low : k.peek entered.console.hw.cpu.sp = entered.peek entered.console.hw.cpu.sp
  high : k.peek (entered.console.hw.cpu.sp + 1) = entered.peek (entered.console.hw.cpu.sp + 1)

end Machine

/-- Neighbouring bytes are not the two places of one. -/
theorem not_mirrors_neighbour (sp : UInt16) : ¬Mirrors (sp - 1) (sp - 2) := by
  have range := sp.toNat_lt
  simp only [Mirrors, ← UInt16.toNat_inj, UInt16.le_iff_toNat_le, UInt16.toNat_add,
    UInt16.toNat_sub, UInt16.reduceToNat]
  omega

namespace Hardware

variable {hw : Hardware} {high low cell : Cell}

/-- A cell of RAM is on the console. -/
theorem has_ram (wram : hw.wram.size = hw.model.wramSize) (ram : InRam address)
    (found : hw.selected.cell? address = some cell) : hw.Has cell := by
  have bound := hw.selected_bounds.2
  rw [SelectedBanks.cell?_eq] at found
  obtain region | region | region := ram.region
  all_goals
    rw [region] at found
    cases found
  · have below : 1 * wramBankSize ≤ (hw.selected.wram + 1) * wramBankSize :=
      Nat.mul_le_mul_right _ (Nat.le_add_left 1 _)
    exact Nat.le_trans (Nat.le_trans below bound) (Nat.le_of_eq wram.symm)
  · exact Nat.le_trans bound (Nat.le_of_eq wram.symm)
  · trivial

theorem has_store (has : hw.Has cell) (other : Cell) (v : UInt8) : (hw.store other v).Has cell := by
  cases cell with
  | vram bank offset =>
    cases other with
    | vram => exact Nat.le_trans has (Nat.le_of_eq (Memory.size_write ..).symm)
    | _ => exact has
  | wram bank offset =>
    cases other with
    | wram => exact Nat.le_trans has (Nat.le_of_eq (Memory.size_write ..).symm)
    | _ => exact has
  | _ => trivial

/-- The hardware with a word in two cells. -/
def storeWord (hw : Hardware) (high low : Cell) (w : UInt16) : Hardware :=
  (hw.store high (Word.high w)).store low (Word.low w)

theorem storeWord_cpu (hw : Hardware) (high low : Cell) (cpu : Cpu) (w : UInt16) :
    { hw with cpu }.storeWord high low w = { hw.storeWord high low w with cpu } := by
  have store_cpu (hw : Hardware) (cell : Cell) (v : UInt8) :
      { hw with cpu }.store cell v = { hw.store cell v with cpu } := by
    cases cell <;> rfl
  rw [storeWord, store_cpu, store_cpu]
  rfl

theorem storeWord_io (hw : Hardware) (high low : Cell) (w : UInt16) :
    (hw.storeWord high low w).io = hw.io := by
  have store_io (hw : Hardware) (cell : Cell) (v : UInt8) : (hw.store cell v).io = hw.io := by
    cases cell <;> rfl
  rw [storeWord, store_io, store_io]

theorem load_storeWord (hasHigh : hw.Has high) (hasLow : hw.Has low) (different : high ≠ low)
    (w : UInt16) :
    (hw.storeWord high low w).load high = Word.high w ∧
      (hw.storeWord high low w).load low = Word.low w := by
  constructor
  · rw [storeWord, load_store (has_store hasLow ..), if_neg different, load_store hasHigh,
      if_pos rfl]
  · rw [storeWord, load_store (has_store hasLow ..), if_pos rfl]

end Hardware

/-- While interrupts are enabled, settling leaves no enable pending. -/
theorem Cpu.settle_enabled (cpu : Cpu) :
    { cpu with ime := true }.settle cpu.imePending =
      { cpu with ime := true, imePending := false } := by
  rcases cpu with ⟨a, b, c, d, e, f, h, l, pc, sp, ime, _ | _, halted⟩ <;> rfl

namespace Machine

variable {m n : Machine σ} {high low : Cell}

theorem exists_stackCells (stack : m.StackInRam) : ∃ high low, m.StackCells high low := by
  obtain ⟨high, above⟩ := m.console.hw.selected.exists_cell? stack.above.inMemory
  obtain ⟨low, below⟩ := m.console.hw.selected.exists_cell? stack.below.inMemory
  refine ⟨high, low, above, below, ?_⟩
  rintro rfl
  have same := (SelectedBanks.cell?_eq_iff stack.above.inMemory).mp (above.trans below.symm)
  exact not_mirrors_neighbour _ same.1

/-- A byte of RAM shows what was last written to it. -/
theorem peek_write_ram (bare : m.handlers = []) (ram : InRam address)
    (wram : m.console.hw.wram.size = m.console.hw.model.wramSize) (v : UInt8) :
    (m.write address v).peek address = v := by
  obtain ⟨cell, found⟩ := m.console.hw.selected.exists_cell? ram.inMemory
  have has := Hardware.has_ram wram ram found
  have banks : (m.console.hw.store cell v).selected = m.console.hw.selected :=
    Hardware.selected_store ..
  have bareAfter : (m.mapHardware (·.store cell v)).handlers = [] := bare
  rw [write_ram bare ram found, peek_ram bareAfter ram (banks ▸ found)]
  exact (Hardware.load_store has cell v).trans (if_pos rfl)

/-- A push stores a word in the two cells and does nothing else. -/
theorem storeEach_pushes (bare : m.handlers = []) (stack : m.StackInRam)
    (cells : m.StackCells high low) (w : UInt16) :
    m.storeEach (Word.pushes m.console.hw.cpu.sp w) = m.mapHardware (·.storeWord high low w) := by
  let first := m.mapHardware (·.store high (Word.high w))
  have banks : first.console.hw.selected = m.console.hw.selected := Hardware.selected_store ..
  have below : first.console.hw.selected.cell? (m.console.hw.cpu.sp - 2) = some low := by
    rw [banks]
    exact cells.below
  have bareFirst : first.handlers = [] := bare
  show (m.write _ _).write _ _ = _
  rw [write_ram bare stack.above cells.above]
  exact write_ram bareFirst stack.below below (Word.low w)

/-- What the two bytes below the stack pointer show, once a word has been pushed there. -/
theorem peek_pushed (stack : m.StackInRam) (cells : m.StackCells high low) (w : UInt16)
    (bare : n.handlers = []) (banks : n.console.hw.selected = m.console.hw.selected)
    (held : ∀ cell, n.console.hw.load cell = (m.console.hw.storeWord high low w).load cell) :
    n.peek (m.console.hw.cpu.sp - 1) = Word.high w ∧
      n.peek (m.console.hw.cpu.sp - 2) = Word.low w := by
  have hasHigh := Hardware.has_ram stack.wram stack.above cells.above
  have hasLow := Hardware.has_ram stack.wram stack.below cells.below
  obtain ⟨loadHigh, loadLow⟩ := Hardware.load_storeWord hasHigh hasLow cells.different w
  rw [peek_ram bare stack.above (banks ▸ cells.above),
    peek_ram bare stack.below (banks ▸ cells.below), held, held]
  exact ⟨loadHigh, loadLow⟩

/-- What is popped is what was pushed, if the stack is again as it was then. -/
theorem Unwound.popped {sp w : UInt16} {entered k : Machine σ} (unwound : entered.Unwound k)
    (moved : entered.console.hw.cpu.sp = sp - 2)
    (pushed : entered.peek (sp - 1) = Word.high w ∧ entered.peek (sp - 2) = Word.low w) :
    k.console.hw.cpu.sp + 2 = sp ∧ k.word k.console.hw.cpu.sp = w := by
  have above : sp - 2 + 1 = sp - 1 := by grind
  have back : sp - 2 + 2 = sp := by grind
  constructor
  · rw [unwound.sp, moved, back]
  · rw [word, unwound.sp, unwound.low, unwound.high, moved, above, pushed.1, pushed.2,
      Word.join_high_low]

/-! Entries. -/

/-- The machine once the handler of a line has been entered. -/
def handling (m : Machine σ) (line : Interrupt) (high low : Cell) : Machine σ :=
  let cpu := m.console.hw.cpu
  m.mapHardware fun hw =>
    { hw.storeWord high low cpu.pc with
      cpu := { cpu with pc := line.handler, sp := cpu.sp - 2, ime := false, halted := false }
      io := hw.io.write Io.interruptFlag (hw.io.read Io.interruptFlag &&& ~~~line.mask)
      cyclesPending := 20 }

theorem serveInterrupts_handling (bare : m.handlers = []) (stack : m.StackInRam)
    (cells : m.StackCells high low) (between : m.console.hw.cyclesPending = 0)
    (next : m.console.hw.nextInterrupt? = some line) (enabled : m.console.hw.cpu.ime = true) :
    m.serveInterrupts = m.handling line high low := by
  have pushed := storeEach_pushes (m := m.wake) bare ⟨stack.above, stack.below, stack.wram⟩
    ⟨cells.above, cells.below, cells.different⟩ m.console.hw.cpu.pc
  rw [serveInterrupts_enabled between next enabled]
  refine (congrArg (fun n : Machine σ => n.mapHardware fun hw =>
    { hw.acknowledge line with
      cpu := { hw.cpu with
        sp := m.console.hw.cpu.sp - 2, ime := false, pc := line.handler }
      cyclesPending := dispatchClocks }) pushed).trans ?_
  have kept := m.console.hw.storeWord_cpu high low
    { m.console.hw.cpu with halted := false } m.console.hw.cpu.pc
  have io := m.console.hw.storeWord_io high low m.console.hw.cpu.pc
  simp only [mapHardware, wake, kept, Hardware.acknowledge, Hardware.setRequested,
    Hardware.requested, io]
  rfl

theorem handling_banks (m : Machine σ) (line : Interrupt) (high low : Cell) :
    (m.handling line high low).console.hw.selected = m.console.hw.selected := by
  let stored := m.console.hw.storeWord high low m.console.hw.cpu.pc
  have io : stored.io = m.console.hw.io := Hardware.storeWord_io ..
  have banks : stored.selected = m.console.hw.selected :=
    (Hardware.selected_store ..).trans (Hardware.selected_store ..)
  rw [← banks]
  have other {index : Nat} (different : Io.interruptFlag ≠ index) (v : UInt8) :
      (m.console.hw.io.write Io.interruptFlag v).read index = stored.io.read index :=
    (Segment.read_write_ne _ different v).trans (congrArg (Segment.read · index) io.symm)
  ext
  · exact congrArg (fun v : UInt8 => if stored.isColor then (v % 2).toNat else 0)
      (other (by decide) _)
  · exact congrArg (fun v : UInt8 => if stored.isColor then max (v % 8).toNat 1 else 1)
      (other (by decide) _)

/-- The stack once a handler has been entered. -/
theorem handling_pushed (bare : m.handlers = []) (stack : m.StackInRam)
    (cells : m.StackCells high low) (line : Interrupt) :
    let entered := m.handling line high low
    entered.peek (m.console.hw.cpu.sp - 1) = Word.high m.console.hw.cpu.pc ∧
      entered.peek (m.console.hw.cpu.sp - 2) = Word.low m.console.hw.cpu.pc :=
  peek_pushed stack cells m.console.hw.cpu.pc bare (handling_banks ..) fun cell => by
    cases cell <;> rfl

/-! Returns. -/

theorem step_reti {k : Machine σ} (bare : k.handlers = [])
    (executes : k.upcoming = .executes .reti) :
    k.step.2 = k.withCpu
      { k.console.hw.cpu with
        pc := k.word k.console.hw.cpu.sp
        sp := k.console.hw.cpu.sp + 2
        ime := true
        imePending := false } := by
  rw [(step_executed bare executes).1]
  exact congrArg k.withCpu
    (Cpu.settle_enabled
      { k.console.hw.cpu with
        pc := k.word k.console.hw.cpu.sp
        sp := k.console.hw.cpu.sp + 2 })

theorem step_ret {k : Machine σ} (bare : k.handlers = [])
    (executes : k.upcoming = .executes (.ret condition))
    (allowed : k.console.hw.cpu.f.allow condition = true) :
    k.step.2 = k.withCpu (Cpu.settle
      { k.console.hw.cpu with
        pc := k.word k.console.hw.cpu.sp
        sp := k.console.hw.cpu.sp + 2 } k.console.hw.cpu.imePending) := by
  rw [(step_executed bare executes).1]
  have left : (Instruction.ret condition).registers k = { k.console.hw.cpu with
        pc := k.word k.console.hw.cpu.sp
        sp := k.console.hw.cpu.sp + 2 } := by
    simp only [Instruction.registers, Instruction.entry, allowed, if_true]
  show k.withCpu (Cpu.settle _ _) = _
  rw [left]

/-- Interrupts and calls are transparent. Entering a handler changes PC, the stack pointer, the
enable and the halt, two bytes of RAM below the stack pointer, and one request, and nothing else.
Whatever runs then, a RETI that finds the stack as it was at the entry goes back to the interrupted
program with interrupts enabled and changes nothing else. A call and its RET do the same, and go on
behind the call. -/
theorem return_transparent (m : Machine σ) (bare : m.handlers = []) (stack : m.StackInRam) :
    let cpu := m.console.hw.cpu
    (∀ line, m.console.hw.cyclesPending = 0 → m.console.hw.nextInterrupt? = some line →
      cpu.ime = true →
        let entered := m.serveInterrupts
        (∃ high low, m.StackCells high low ∧
          entered = m.mapHardware fun hw =>
            { (hw.store high (Word.high cpu.pc)).store low (Word.low cpu.pc) with
              cpu :=
                { cpu with pc := line.handler, sp := cpu.sp - 2, ime := false, halted := false }
              io := hw.io.write 0x0F (hw.io.read 0x0F &&& ~~~line.mask)
              cyclesPending := 20 }) ∧
        ∀ k, entered.Unwound k → k.upcoming = .executes .reti →
          k.step.2 = k.withCpu
            { k.console.hw.cpu with
              pc := cpu.pc
              sp := cpu.sp
              ime := true
              imePending := false }) ∧
    (∀ i, m.upcoming = .executes i → i.calls cpu.f = true →
      let entered := m.step.2
      let behind := cpu.pc + UInt16.ofNat i.size
      (∃ high low target, m.StackCells high low ∧ i.target? m = some target ∧
        entered =
          (m.mapHardware fun hw =>
            (hw.store high (Word.high behind)).store low (Word.low behind)).withCpu
            ({ cpu with pc := target, sp := cpu.sp - 2 }.settle cpu.imePending)) ∧
      ∀ k condition, entered.Unwound k → k.upcoming = .executes (.ret condition) →
        k.console.hw.cpu.f.allow condition = true →
          k.step.2 = k.withCpu
            ({ k.console.hw.cpu with pc := behind, sp := cpu.sp }.settle
              k.console.hw.cpu.imePending)) := by
  intro cpu
  obtain ⟨high, low, cells⟩ := exists_stackCells stack
  constructor
  · intro line between next enabled entered
    have handles : entered = m.handling line high low :=
      serveInterrupts_handling bare stack cells between next enabled
    refine ⟨⟨high, low, cells, handles⟩, ?_⟩
    intro k unwound returns
    rw [handles] at unwound
    obtain ⟨sp, pc⟩ := unwound.popped rfl (handling_pushed bare stack cells line)
    rw [step_reti unwound.bare returns, sp, pc]
  · intro i executes called entered behind
    obtain ⟨target, goes, pushed⟩ := i.executed_of_calls m called
    rw [storeEach_pushes bare stack cells] at pushed
    have enters : entered = _ := (congrArg Prod.snd (step_executed bare executes).1).trans pushed
    refine ⟨⟨high, low, target, cells, goes, enters⟩, ?_⟩
    intro k condition unwound returns allowed
    have sp : entered.console.hw.cpu.sp = cpu.sp - 2 := by
      rw [enters]
      exact congrArg Cpu.sp (Cpu.settle_eq ..)
    have bytes := by
      refine peek_pushed (n := entered) stack cells behind ?bare ?banks ?held
      all_goals rw [enters]
      case bare => exact bare
      case banks => exact (Hardware.selected_store ..).trans (Hardware.selected_store ..)
      case held =>
        intro cell
        cases cell <;> rfl
    obtain ⟨sp, pc⟩ := unwound.popped sp bytes
    rw [step_ret unwound.bare returns allowed, sp, pc]

/-- An RST runs into a subroutine, and the pending line into its handler. Both keep a pair of
registers on the stack while they work, the handler writes to high RAM, and they end in a RET and a
RETI. -/
theorem return_transparent_powerOn :
    -- 38: push bc; ld b, 12; pop bc; ret. 40: push af; ld a, 34; ldh [ff80], a; pop af; reti.
    let image := Memory.ofList (List.replicate 0x38 0 ++
      [0xC5, 0x06, 0x12, 0xC1, 0xC9, 0x00, 0x00, 0x00, 0xF5, 0x3E, 0x34, 0xE0, 0x80, 0xF1, 0xD9])
    let m : Machine Unit := (powerOn { (default : Cartridge) with image } none ()).mapHardware
      fun hw => { hw with ie := 1, cpu := { hw.cpu with ime := true } }
    let afterSteps (count : Nat) (n : Machine Unit) := (fun n : Machine Unit => n.step.2)^[count] n
    let handled := afterSteps 4 m.serveInterrupts
    let resumed := handled.step.2.console.hw.cpu
    let called := afterSteps 3 m.step.2
    let returned := called.step.2.console.hw.cpu
    (m.serveInterrupts.console.hw.cpu.pc = 0x40 ∧ handled.console.hw.cpu.pc = 0x46 ∧
      handled.peek 0xFFFB = m.console.hw.cpu.a ∧ handled.peek 0xFF80 = 0x34 ∧
      resumed.pc = 0x100 ∧ resumed.sp = 0xFFFE ∧ resumed.ime = true ∧
      resumed.a = m.console.hw.cpu.a) ∧
    (m.step.2.console.hw.cpu.pc = 0x38 ∧ called.console.hw.cpu.pc = 0x3C ∧
      returned.pc = 0x101 ∧ returned.sp = 0xFFFE ∧ returned.b = m.console.hw.cpu.b) := by
  intro image m afterSteps handled resumed called returned
  have requested : m.console.hw.nextInterrupt? = some .vblank := by decide +kernel
  have rst : m.instruction = .rst 0x38 := by decide +kernel
  have stack : m.StackInRam := ⟨by decide, by decide, Memory.size_zeros _⟩
  obtain ⟨handler, subroutine⟩ := return_transparent m rfl stack
  obtain ⟨-, resumes⟩ := handler .vblank rfl requested rfl
  obtain ⟨-, goesOn⟩ := subroutine (.rst 0x38) (rst ▸ upcoming_instruction rfl rfl) rfl
  have worked : m.serveInterrupts.Unwound handled := by constructor <;> decide +kernel
  have awake : handled.console.hw.cpu.halted = false := by decide +kernel
  have reti : handled.instruction = .reti := by decide +kernel
  have back := congrArg (fun k : Machine Unit => k.console.hw.cpu)
    (resumes handled worked (reti ▸ upcoming_instruction worked.bare awake))
  have unwound : m.step.2.Unwound called := by constructor <;> decide +kernel
  have running : called.console.hw.cpu.halted = false := by decide +kernel
  have ret : called.instruction = .ret none := by decide +kernel
  have behind := (congrArg (fun k : Machine Unit => k.console.hw.cpu)
    (goesOn called none unwound (ret ▸ upcoming_instruction unwound.bare running) rfl)).trans
      (Cpu.settle_eq ..)
  refine ⟨⟨by decide +kernel, by decide +kernel, by decide +kernel, by decide +kernel, ?_⟩,
    by decide +kernel, by decide +kernel, ?_⟩
  · have a : handled.console.hw.cpu.a = m.console.hw.cpu.a := by decide +kernel
    exact ⟨congrArg Cpu.pc back, congrArg Cpu.sp back, congrArg Cpu.ime back,
      (congrArg Cpu.a back).trans a⟩
  · have b : called.console.hw.cpu.b = m.console.hw.cpu.b := by decide +kernel
    exact ⟨congrArg Cpu.pc behind, congrArg Cpu.sp behind, (congrArg Cpu.b behind).trans b⟩

end Machine

end GameBoy
