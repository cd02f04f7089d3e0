import GameBoy.Proofs.Operands
import GameBoy.Proofs.StraightLine
import Mathlib.Data.List.Forall2

/-!
The stack in work RAM: what is pushed last is popped first, and memory beside the stack keeps what
it holds. Every push is undone by the pop that belongs to it, with as many of both in between. Main
statement: `stack_lifo`.
-/

namespace GameBoy

/-- Work RAM in the first of its places. -/
def InWorkRam (address : UInt16) : Prop := 0xC000 ≤ address ∧ address ≤ 0xDFFF

theorem InWorkRam.ram (work : InWorkRam address) : InRam address := by
  simp only [InWorkRam, InRam, UInt16.le_iff_toNat_le, UInt16.reduceToNat] at work ⊢
  omega

/-! A change that is confined to some addresses of work RAM. -/

namespace Machine

/-- Without devices, the bus leads to memory or to nothing. -/
theorem peek_bare {m : Machine σ} (bare : m.handlers = []) (address : UInt16) :
    m.peek address =
      if m.shows (.ofAddress address) then m.console.readRegion (.ofAddress address) address
      else openBus := by
  rw [peek, read, m.route_bare bare]
  by_cases shown : m.shows (.ofAddress address)
  · rw [if_pos shown, if_pos shown]
  · rw [if_neg shown, if_neg shown]

/-- Only registers differ, and bytes of work RAM that some addresses stand for. -/
structure Confined (area : UInt16 → Prop) (m n : Machine σ) : Prop where
  rest : ∃ cpu wram, n = m.mapHardware fun hw => { hw with cpu, wram }
  size : n.console.hw.wram.size = m.console.hw.wram.size
  kept : ∀ cell, (∀ address, area address → m.console.hw.selected.cell? address ≠ some cell) →
    n.console.hw.load cell = m.console.hw.load cell

namespace Confined

variable {m k n : Machine σ} {area : UInt16 → Prop}

theorem withCpu (area : UInt16 → Prop) (m : Machine σ) (cpu : Cpu) :
    Confined area m (m.withCpu cpu) where
  rest := ⟨cpu, m.console.hw.wram, rfl⟩
  size := rfl
  kept cell _ := by cases cell <;> rfl

theorem refl (area : UInt16 → Prop) (m : Machine σ) : Confined area m m :=
  withCpu area m m.console.hw.cpu

theorem handlers (confined : Confined area m n) : n.handlers = m.handlers := by
  obtain ⟨cpu, wram, rfl⟩ := confined.rest
  rfl

theorem selected (confined : Confined area m n) :
    n.console.hw.selected = m.console.hw.selected := by
  obtain ⟨cpu, wram, rfl⟩ := confined.rest
  rfl

theorem mono {wider : UInt16 → Prop} (confined : Confined area m n)
    (inside : ∀ address, area address → wider address) : Confined wider m n where
  rest := confined.rest
  size := confined.size
  kept cell apart := confined.kept cell fun address member => apart address (inside address member)

theorem trans (first : Confined area m k) (second : Confined area k n) : Confined area m n where
  rest := by
    obtain ⟨_, _, rfl⟩ := first.rest
    obtain ⟨cpu, wram, rfl⟩ := second.rest
    exact ⟨cpu, wram, rfl⟩
  size := second.size.trans first.size
  kept cell apart :=
    (second.kept cell fun address member => first.selected ▸ apart address member).trans
      (first.kept cell apart)

/-- An address that leads to none of them shows what it showed. -/
theorem peek (confined : Confined area m n) (bare : m.handlers = [])
    (apart : ∀ address, area address → ¬Mirrors target address) :
    n.peek target = m.peek target := by
  have bareAfter : n.handlers = [] := confined.handlers.trans bare
  by_cases ram : InRam target
  · obtain ⟨cell, found⟩ := m.console.hw.selected.exists_cell? ram.inMemory
    rw [peek_ram bareAfter ram (confined.selected ▸ found), peek_ram bare ram found]
    refine confined.kept cell fun address member same => apart address member ?_
    exact ((SelectedBanks.cell?_eq_iff ram.inMemory).mp (found.trans same.symm)).1
  · have spans := Region.spans_ofAddress target
    obtain ⟨cpu, wram, rfl⟩ := confined.rest
    have elsewhere : (m.mapHardware fun hw => { hw with cpu, wram }).console.readRegion
        (.ofAddress target) target = m.console.readRegion (.ofAddress target) target := by
      generalize Region.ofAddress target = region at spans ⊢
      cases region with
      | wramFixed | wramBanked =>
        simp only [Region.Spans] at spans
        simp only [InRam, UInt16.le_iff_toNat_le, UInt16.reduceToNat] at ram
        omega
      | _ => rfl
    rw [peek_bare bareAfter, peek_bare bare, elsewhere]
    rfl

end Confined

variable {m : Machine σ}

/-- A write to work RAM changes one byte of it. -/
theorem write_confined (bare : m.handlers = []) (work : InWorkRam address)
    (wram : m.console.hw.wram.size = m.console.hw.model.wramSize) (v : UInt8) :
    Confined (· = address) m (m.write address v) := by
  obtain ⟨cell, found⟩ := m.console.hw.selected.exists_cell? work.ram.inMemory
  have has := Hardware.has_ram wram work.ram found
  have inWork : ∃ bank offset, cell = .wram bank offset := by
    have spans := Region.spans_ofAddress address
    simp only [InWorkRam, UInt16.le_iff_toNat_le, UInt16.reduceToNat] at work
    rw [SelectedBanks.cell?_eq] at found
    generalize Region.ofAddress address = region at found spans
    cases region with
    | wramFixed | wramBanked =>
      cases found
      exact ⟨_, _, rfl⟩
    | _ =>
      simp only [Region.Spans] at spans
      omega
  obtain ⟨bank, offset, rfl⟩ := inWork
  rw [write_ram bare work.ram found]
  refine ⟨⟨_, _, rfl⟩, Memory.size_write .., fun cell apart => ?_⟩
  refine (Hardware.load_store has cell v).trans (if_neg ?_)
  rintro rfl
  exact apart address rfl found

theorem Confined.sized {area : UInt16 → Prop} {m n : Machine σ} (confined : Confined area m n)
    (wram : m.console.hw.wram.size = m.console.hw.model.wramSize) :
    n.console.hw.wram.size = n.console.hw.model.wramSize := by
  have size := confined.size.trans wram
  obtain ⟨_, _, rfl⟩ := confined.rest
  exact size

end Machine

/-! Words and pairs. -/

/-- What a pair takes of a word: F has no low half. -/
def Pair.received (p : Pair) (w : UInt16) : UInt16 :=
  if p = .af then Word.join (Word.high w) (Word.low w &&& 0xF0) else w

theorem Flags.pack_unpack (b : UInt8) : (Flags.unpack b).pack = b &&& 0xF0 := by
  have every : ∀ n : Fin 256,
      (Flags.unpack (UInt8.ofNat n)).pack = UInt8.ofNat n &&& 0xF0 := by decide +kernel
  simpa using every ⟨b.toNat, b.toNat_lt⟩

theorem Cpu.getPair_setPair_received (cpu : Cpu) (p : Pair) (w : UInt16) :
    (cpu.setPair p w).getPair p = p.received w := by
  by_cases flags : p = .af
  · subst flags
    exact congrArg (Word.join (Word.high w)) (Flags.pack_unpack _)
  · rw [cpu.getPair_setPair flags, Pair.received, if_neg flags]

/-- The pairs of eight-bit registers have nothing to do with PC and the stack pointer. -/
theorem Cpu.getPair_elsewhere {p : Pair} (stacked : p ≠ .sp) (cpu : Cpu) (pc sp : UInt16) :
    { cpu with pc, sp }.getPair p = cpu.getPair p := by
  cases p with
  | sp => exact absurd rfl stacked
  | _ => rfl

/-- An instruction of the stack, with the registers that are set before it. -/
structure StackEntry where
  pair : Pair
  cpu : Cpu
  stacked : pair ≠ .sp

/-- What is popped is what was pushed. AF to AF restores the accumulator and all flags. -/
def Delivers (popped : Pair × Cpu) (pushed : StackEntry) : Prop :=
  popped.2.getPair popped.1 = popped.1.received (pushed.cpu.getPair pushed.pair) ∧
    (popped.1 = .af → pushed.pair = .af →
      popped.2.a = pushed.cpu.a ∧ popped.2.f = pushed.cpu.f)

/-- The addresses of some words below the stack pointer. -/
def InStack (sp : UInt16) (words : Nat) (address : UInt16) : Prop :=
  sp.toNat ≤ address.toNat + 2 * words ∧ address.toNat < sp.toNat

/-- All of them lie in work RAM. -/
def StackFits (sp : UInt16) (words : Nat) : Prop :=
  ∀ offset < 2 * words, 0xC000 + offset < sp.toNat ∧ sp.toNat ≤ 0xE000 + offset

namespace StackFits

variable {sp : UInt16} {words : Nat}

theorem bounds (fits : StackFits sp (words + 1)) :
    (sp - 1).toNat = sp.toNat - 1 ∧ (sp - 2).toNat = sp.toNat - 2 ∧
      0xC002 + 2 * words ≤ sp.toNat ∧ sp.toNat ≤ 0xE000 := by
  have highest := fits 0 (by omega)
  have lowest := fits (2 * words + 1) (by omega)
  simp only [UInt16.toNat_sub, UInt16.reduceToNat]
  omega

theorem inWorkRam (fits : StackFits sp (words + 1)) :
    InWorkRam (sp - 1) ∧ InWorkRam (sp - 2) := by
  obtain ⟨above, below, lowest, highest⟩ := fits.bounds
  simp only [InWorkRam, UInt16.le_iff_toNat_le, above, below, UInt16.reduceToNat]
  omega

/-- The stack below the word on top. -/
theorem below (fits : StackFits sp (words + 1)) : StackFits (sp - 2) words := by
  obtain ⟨-, below, lowest, highest⟩ := fits.bounds
  intro offset inside
  rw [below]
  omega

theorem inStack_top (fits : StackFits sp (words + 1)) (top : address = sp - 1 ∨ address = sp - 2) :
    InStack sp (words + 1) address := by
  obtain ⟨above, below, lowest, -⟩ := fits.bounds
  rcases top with rfl | rfl
  · rw [InStack, above]
    omega
  · rw [InStack, below]
    omega

theorem inStack_below (fits : StackFits sp (words + 1)) (inside : InStack (sp - 2) words address) :
    InStack sp (words + 1) address := by
  obtain ⟨-, below, lowest, -⟩ := fits.bounds
  rw [InStack, below] at inside
  rw [InStack]
  omega

/-- The word on top lies beside it. -/
theorem beside (fits : StackFits sp (words + 1)) (inside : InStack (sp - 2) words address) :
    ¬Mirrors (sp - 1) address ∧ ¬Mirrors (sp - 2) address := by
  obtain ⟨above, below, lowest, highest⟩ := fits.bounds
  rw [InStack, below] at inside
  simp only [mirrors_iff, home, above, below]
  constructor <;> split <;> split <;> omega

end StackFits

namespace Machine

variable {m k n : Machine σ} {kind : Pair → Instruction} {e : StackEntry}

/-- The registers are set, all but the stack pointer. -/
def equipped (m : Machine σ) (cpu : Cpu) : Machine σ :=
  m.withCpu { cpu with sp := m.console.hw.cpu.sp }

/-- The machine after an instruction that registers have been set for. -/
def entered (m : Machine σ) (e : StackEntry) : Machine σ := (m.equipped e.cpu).step.2

/-- The machine after some of them. -/
def driven (m : Machine σ) (entries : List StackEntry) : Machine σ := entries.foldl entered m

/-- The registers after each of them, with the pair that it names. -/
def outcomes (m : Machine σ) : List StackEntry → List (Pair × Cpu)
  | [] => []
  | e :: es => (e.pair, (m.entered e).console.hw.cpu) :: (m.entered e).outcomes es

/-- They are all of one kind. -/
def Executes (kind : Pair → Instruction) (m : Machine σ) : List StackEntry → Prop
  | [] => True
  | e :: es =>
    (m.equipped e.cpu).upcoming = .executes (kind e.pair) ∧ Executes kind (m.entered e) es

theorem driven_append (m : Machine σ) (first second : List StackEntry) :
    m.driven (first ++ second) = (m.driven first).driven second := List.foldl_append

theorem outcomes_append (m : Machine σ) (first second : List StackEntry) :
    m.outcomes (first ++ second) = m.outcomes first ++ (m.driven first).outcomes second := by
  induction first generalizing m with
  | nil => rfl
  | cons e es ih => exact congrArg (_ :: ·) (ih _)

theorem executes_append (m : Machine σ) (first second : List StackEntry) :
    Executes kind m (first ++ second) ↔
      Executes kind m first ∧ Executes kind (m.driven first) second := by
  induction first generalizing m with
  | nil => exact (iff_of_eq (true_and _)).symm
  | cons e es ih => exact (and_congr_right fun _ => ih _).trans and_assoc.symm

/-- A push stores the word of its pair in two bytes below the stack pointer. -/
theorem entered_push (bare : m.handlers = [])
    (wram : m.console.hw.wram.size = m.console.hw.model.wramSize)
    (above : InWorkRam (m.console.hw.cpu.sp - 1)) (below : InWorkRam (m.console.hw.cpu.sp - 2))
    (executes : (m.equipped e.cpu).upcoming = .executes (.push e.pair)) :
    let sp := m.console.hw.cpu.sp
    Confined (fun address => address = sp - 1 ∨ address = sp - 2) m (m.entered e) ∧
      (m.entered e).console.hw.cpu.sp = sp - 2 ∧
      (m.entered e).word (sp - 2) = e.cpu.getPair e.pair := by
  intro sp
  let w := e.cpu.getPair e.pair
  let first := (m.equipped e.cpu).write (sp - 1) (Word.high w)
  let second := first.write (sp - 2) (Word.low w)
  have ready : (m.equipped e.cpu).handlers = [] := bare
  have equipped : Confined (fun address => address = sp - 1 ∨ address = sp - 2) m
      (m.equipped e.cpu) := .withCpu _ m _
  have once := write_confined ready above wram (Word.high w)
  have bareFirst : first.handlers = [] := once.handlers.trans ready
  have twice := write_confined bareFirst below (once.sized wram) (Word.low w)
  have bareSecond : second.handlers = [] := twice.handlers.trans bareFirst
  have stored : (Instruction.push e.pair).stores (m.equipped e.cpu) = Word.pushes sp w :=
    congrArg (Word.pushes sp) (Cpu.getPair_elsewhere e.stacked e.cpu _ _)
  have left : m.entered e = second.withCpu
      (((Instruction.push e.pair).registers (m.equipped e.cpu)).settle e.cpu.imePending) := by
    refine (congrArg Prod.snd (step_executed ready executes).1).trans ?_
    rw [Instruction.executed_eq rfl, stored]
    rfl
  have high : second.peek (sp - 1) = Word.high w := by
    rw [twice.peek bareFirst fun address same => same ▸ not_mirrors_neighbour sp]
    exact peek_write_ram ready above.ram wram _
  have low : second.peek (sp - 2) = Word.low w :=
    peek_write_ram bareFirst below.ram (once.sized wram) _
  refine ⟨?_, ?_, ?_⟩
  · rw [left]
    exact equipped.trans <| (once.mono fun _ => .inl).trans <| (twice.mono fun _ => .inr).trans <|
      .withCpu _ second _
  · rw [left]
    exact Cpu.sp_settle _ _
  · have above : sp - 2 + 1 = sp - 1 := by grind
    rw [left, word, peek_withCpu bareSecond, peek_withCpu bareSecond, above, high, low,
      Word.join_high_low]

/-- A pop changes registers only: its pair takes the word that the stack pointer points to. -/
theorem entered_pop (bare : m.handlers = [])
    (executes : (m.equipped e.cpu).upcoming = .executes (.pop e.pair)) :
    let w := m.word m.console.hw.cpu.sp
    let after := (m.entered e).console.hw.cpu
    m.entered e = m.withCpu after ∧ after.sp = m.console.hw.cpu.sp + 2 ∧
      after.getPair e.pair = e.pair.received w ∧
      (e.pair = .af → after.a = Word.high w ∧ after.f = .unpack (Word.low w)) := by
  intro w after
  have ready : (m.equipped e.cpu).handlers = [] := bare
  have shown : (m.equipped e.cpu).word m.console.hw.cpu.sp = w := by
    rw [word, equipped, peek_withCpu bare, peek_withCpu bare]
    rfl
  let moved : Cpu :=
    { (Instruction.pop e.pair).entry (m.equipped e.cpu) with sp := m.console.hw.cpu.sp + 2 }
  have left : m.entered e = m.withCpu ((moved.setPair e.pair w).settle e.cpu.imePending) := by
    refine (congrArg Prod.snd (step_executed ready executes).1).trans ?_
    rw [Instruction.executed_eq rfl, ← shown]
    rfl
  have taken : after = (moved.setPair e.pair w).settle e.cpu.imePending :=
    congrArg (fun n : Machine σ => n.console.hw.cpu) left
  refine ⟨taken ▸ left, ?_, ?_, ?_⟩
  · rw [taken, Cpu.sp_settle, Cpu.sp_setPair _ e.stacked]
  · rw [taken, Cpu.getPair_settle, Cpu.getPair_setPair_received]
  · intro flags
    rw [taken, Cpu.f_settle, flags]
    exact ⟨Cpu.get_settle _ _ .a, rfl⟩

/-! Pushes and pops that belong to each other. -/

/-- As many pops as pushes deliver the words in reverse. The last pop takes what the first push
stored, since the pushes and pops in between stay below it. -/
theorem pops_deliver {pushes pops : List StackEntry} (bare : m.handlers = [])
    (wram : m.console.hw.wram.size = m.console.hw.model.wramSize)
    (same : pops.length = pushes.length) (fits : StackFits m.console.hw.cpu.sp pushes.length)
    (pushing : Executes .push m pushes) (popping : Executes .pop (m.driven pushes) pops) :
    let last := (m.driven pushes).driven pops
    List.Forall₂ Delivers ((m.driven pushes).outcomes pops) pushes.reverse ∧
      last.console.hw.cpu.sp = m.console.hw.cpu.sp ∧
      Confined (InStack m.console.hw.cpu.sp pushes.length) m last := by
  induction pushes generalizing m pops with
  | nil =>
    rw [List.length_eq_zero_iff.mp same]
    exact ⟨.nil, rfl, .refl _ m⟩
  | cons e es ih =>
    obtain rfl | ⟨others, top, rfl⟩ := pops.eq_nil_or_concat'
    · cases same
    have length : others.length = es.length := by simpa using same
    obtain ⟨pushed, behind⟩ := pushing
    obtain ⟨poppingOthers, poppingTop, -⟩ := (executes_append _ others [top]).mp popping
    obtain ⟨above, below⟩ := fits.inWorkRam
    obtain ⟨stored, sp, stored_word⟩ := entered_push bare wram above below pushed
    have bareTop := stored.handlers.trans bare
    -- The pushes and pops in between lead back to the machine with one word on the stack.
    obtain ⟨delivered, back, between⟩ := ih bareTop (stored.sized wram) length
      (sp ▸ fits.below) behind poppingOthers
    let k := ((m.entered e).driven es).driven others
    have bareBack : k.handlers = [] := between.handlers.trans bareTop
    have low : k.console.hw.cpu.sp = m.console.hw.cpu.sp - 2 := back.trans sp
    have kept : k.word k.console.hw.cpu.sp = e.cpu.getPair e.pair := by
      have above : m.console.hw.cpu.sp - 2 + 1 = m.console.hw.cpu.sp - 1 := by grind
      rw [sp] at between
      rw [← stored_word, low, Machine.word, Machine.word, above,
        between.peek bareTop fun address inside => (fits.beside inside).1,
        between.peek bareTop fun address inside => (fits.beside inside).2]
    obtain ⟨popped, up, taken, flags⟩ := entered_pop bareBack poppingTop
    rw [kept] at taken flags
    have last : (m.driven (e :: es)).driven (others ++ [top]) = k.entered top :=
      driven_append _ others [top]
    refine ⟨?_, ?_, ?_⟩
    · rw [List.reverse_cons, outcomes_append]
      refine List.rel_append delivered (.cons ⟨taken, fun first second => ?_⟩ .nil)
      obtain ⟨a, f⟩ := flags first
      simp only [second, Cpu.getPair, Word.high_join, Word.low_join, Flags.unpack_pack] at a f
      exact ⟨a, f⟩
    · rw [last, up, low]
      grind
    · rw [last, popped]
      rw [sp] at between
      exact (stored.mono fun _ => fits.inStack_top).trans <|
        (between.mono fun _ => fits.inStack_below).trans <| .withCpu _ k _

/-! Code that stands outside of the stack. -/

/-- An instruction stands where its registers point, outside of the stack. -/
structure StandsBeside (m : Machine σ) (stack : UInt16 → Prop) (kind : Pair → Instruction)
    (e : StackEntry) : Prop where
  running : e.cpu.halted = false
  outside : ∀ address, stack address → ¬Mirrors e.cpu.pc address
  opcode : Encoding.ofOpcode (m.peek e.cpu.pc) = .complete (kind e.pair)

/-- It is still there, and executed, after a change that is confined to the stack. -/
theorem StandsBeside.executes {stack : UInt16 → Prop} (stands : m.StandsBeside stack kind e)
    (bare : m.handlers = []) (confined : Confined stack m k) :
    (k.equipped e.cpu).upcoming = .executes (kind e.pair) := by
  have bareAfter : k.handlers = [] := confined.handlers.trans bare
  have opcode : (k.equipped e.cpu).code 0 = m.peek e.cpu.pc := by
    rw [code, equipped, peek_withCpu bareAfter, show UInt16.ofNat 0 = 0 from rfl]
    exact (congrArg k.peek (UInt16.add_zero _)).trans (confined.peek bare stands.outside)
  have runs : (k.equipped e.cpu).Runs ([m.peek e.cpu.pc] ++ []) :=
    ⟨bareAfter, stands.running, fun n inside => by rw [Nat.lt_one_iff.mp inside, opcode]; rfl⟩
  exact runs.upcoming (Instruction.encodes_complete stands.opcode)

theorem pushes_execute {stack : UInt16 → Prop} {pushes : List StackEntry}
    (bare : m.handlers = []) (wram : m.console.hw.wram.size = m.console.hw.model.wramSize)
    (stand : ∀ e ∈ pushes, m.StandsBeside stack .push e) (confined : Confined stack m k)
    (fits : StackFits k.console.hw.cpu.sp pushes.length)
    (inside : ∀ address, InStack k.console.hw.cpu.sp pushes.length address → stack address) :
    Executes .push k pushes ∧ Confined stack m (k.driven pushes) := by
  induction pushes generalizing k with
  | nil => exact ⟨trivial, confined⟩
  | cons e es ih =>
    have executes := (stand e (List.mem_cons_self ..)).executes bare confined
    obtain ⟨above, below⟩ := fits.inWorkRam
    obtain ⟨stored, sp, -⟩ := entered_push (confined.handlers.trans bare) (confined.sized wram)
      above below executes
    obtain ⟨others, after⟩ := ih (fun e member => stand e (List.mem_cons_of_mem _ member))
      (confined.trans (stored.mono fun _ top => inside _ (fits.inStack_top top)))
      (sp ▸ fits.below) fun address member => inside _ (fits.inStack_below (sp ▸ member))
    exact ⟨⟨executes, others⟩, after⟩

theorem pops_execute {stack : UInt16 → Prop} {pops : List StackEntry} (bare : m.handlers = [])
    (stand : ∀ e ∈ pops, m.StandsBeside stack .pop e) (confined : Confined stack m k) :
    Executes .pop k pops := by
  induction pops generalizing k with
  | nil => trivial
  | cons e es ih =>
    have executes := (stand e (List.mem_cons_self ..)).executes bare confined
    obtain ⟨popped, -⟩ := entered_pop (confined.handlers.trans bare) executes
    refine ⟨executes, ih (fun e member => stand e (List.mem_cons_of_mem _ member)) ?_⟩
    rw [popped]
    exact confined.trans (.withCpu _ k _)

/-- The stack is last in, first out. Some pushes and as many pops, of any pairs and with any
registers set before them but the stack pointer, are executed if they stand in memory outside of the
stack. The words are popped in reverse, the stack pointer is again where it was, and nothing but
registers and the bytes of the stack has changed. -/
theorem stack_lifo (m : Machine σ) (bare : m.handlers = [])
    (wram : m.console.hw.wram.size = m.console.hw.model.wramSize) (pushes pops : List StackEntry)
    (same : pops.length = pushes.length)
    (fits : StackFits m.console.hw.cpu.sp pushes.length) :
    let stack := InStack m.console.hw.cpu.sp pushes.length
    let full := m.driven pushes
    let last := full.driven pops
    ((∀ e ∈ pushes, m.StandsBeside stack .push e) → (∀ e ∈ pops, m.StandsBeside stack .pop e) →
      Executes .push m pushes ∧ Executes .pop full pops) ∧
    (Executes .push m pushes → Executes .pop full pops →
      List.Forall₂ Delivers (full.outcomes pops) pushes.reverse ∧
        last.console.hw.cpu.sp = m.console.hw.cpu.sp ∧
        Confined stack m last ∧
        ∀ target, (∀ address, stack address → ¬Mirrors target address) →
          last.peek target = m.peek target) := by
  intro stack full last
  constructor
  · intro pushing popping
    obtain ⟨executed, confined⟩ :=
      pushes_execute bare wram pushing (.refl _ m) fits fun _ => id
    exact ⟨executed, pops_execute bare popping confined⟩
  · intro pushing popping
    obtain ⟨delivered, sp, confined⟩ := pops_deliver bare wram same fits pushing popping
    exact ⟨delivered, sp, confined, fun target apart => confined.peek bare apart⟩

/-- BC and AF are pushed across the border of the two windows, and popped into AF and DE. -/
theorem stack_lifo_border :
    let base := loaded [0xC5, 0xF5, 0xF1, 0xD1]
    let m := base.withCpu { base.console.hw.cpu with sp := 0xD002 }
    let flags : Flags := { z := true, n := false, h := true, c := false }
    let pushes : List StackEntry :=
      [⟨.bc, { b := 0x12, c := 0x34, pc := 0xFF80 }, by decide⟩,
        ⟨.af, { a := 0x56, f := flags, pc := 0xFF81 }, by decide⟩]
    let pops : List StackEntry :=
      [⟨.af, { pc := 0xFF82 }, by decide⟩, ⟨.de, { pc := 0xFF83 }, by decide⟩]
    let last := (m.driven pushes).driven pops
    List.Forall₂ Delivers ((m.driven pushes).outcomes pops) pushes.reverse ∧
      last.console.hw.cpu.sp = 0xD002 ∧ last.peek 0xCFFD = m.peek 0xCFFD := by
  intro base m flags pushes pops last
  have code (n : Nat) (inside : n < 4) :
      m.peek (0xFF80 + UInt16.ofNat n) = [0xC5, 0xF5, 0xF1, 0xD1].getD n 0 :=
    (peek_withCpu rfl _ _).trans ((runs_loaded (by decide)).code n inside)
  have apart (target : UInt16) (elsewhere : target = 0xCFFD ∨ 0xFF80 ≤ target) (address : UInt16)
      (inside : InStack 0xD002 2 address) : ¬Mirrors target address := by
    simp only [InStack, UInt16.reduceToNat] at inside
    simp only [← UInt16.toNat_inj, UInt16.le_iff_toNat_le, UInt16.reduceToNat] at elsewhere
    simp only [mirrors_iff, home]
    split <;> split <;> omega
  have fits : StackFits 0xD002 2 := by
    intro offset inside
    simp only [UInt16.reduceToNat]
    omega
  have stands {kind : Pair → Instruction} (n : Nat) (inside : n < 4) (e : StackEntry)
      (place : e.cpu.pc = 0xFF80 + UInt16.ofNat n) (high : 0xFF80 ≤ e.cpu.pc)
      (running : e.cpu.halted = false)
      (opcode : Encoding.ofOpcode ([0xC5, 0xF5, 0xF1, 0xD1].getD n 0) = .complete (kind e.pair)) :
      m.StandsBeside (InStack 0xD002 2) kind e := by
    refine ⟨running, apart _ (.inr high), ?_⟩
    rw [place, code n inside, opcode]
  obtain ⟨executes, lifo⟩ := stack_lifo m rfl (Memory.size_zeros _) pushes pops rfl fits
  obtain ⟨pushing, popping⟩ := executes
    (List.forall_mem_cons.mpr ⟨stands 0 (by decide) _ rfl (by decide) rfl rfl,
      List.forall_mem_singleton.mpr (stands 1 (by decide) _ rfl (by decide) rfl rfl)⟩)
    (List.forall_mem_cons.mpr ⟨stands 2 (by decide) _ rfl (by decide) rfl rfl,
      List.forall_mem_singleton.mpr (stands 3 (by decide) _ rfl (by decide) rfl rfl)⟩)
  obtain ⟨delivered, sp, -, kept⟩ := lifo pushing popping
  exact ⟨delivered, sp, kept 0xCFFD (apart _ (.inl rfl))⟩

end Machine

end GameBoy
