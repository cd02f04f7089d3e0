import GameBoy.Proofs.BankHistory

/-!
Video RAM, work RAM, sprite memory, high RAM and the interrupt enable register as one banked
memory. A cell is a byte of it in a certain bank, whether or not that bank is visible. Main
statement: `banked_memory`.
-/

namespace GameBoy

/-- The banks that the switchable windows show. Bank zero of work RAM has a window of its own, and
never appears in the switchable one. -/
@[ext]
structure SelectedBanks where
  vram : Nat
  wram : Nat
  switchable : 1 ≤ wram

/-- A byte of memory, by its bank and its place there. -/
inductive Cell
  | vram (bank : Nat) (offset : Fin 0x2000)
  | wram (bank : Nat) (offset : Fin 0x1000)
  | oam (offset : Fin 0xA0)
  | hram (offset : Fin 0x7F)
  | interruptEnable
deriving DecidableEq

/-! Which addresses stand for which cells. -/

/-- The lowest address that leads to the same place. From 0xE000 on, the windows onto work RAM
appear a second time, without their last pages. -/
def home (address : UInt16) : Nat :=
  if 0xE000 ≤ address.toNat ∧ address.toNat < 0xFE00 then address.toNat - 0x2000
  else address.toNat

/-- The cell that an address stands for while some banks are selected. -/
def SelectedBanks.cell? (banks : SelectedBanks) (address : UInt16) : Option Cell :=
  let n := home address
  if 0x8000 ≤ n ∧ n < 0xA000 then some (.vram banks.vram (.ofNat _ (n - 0x8000)))
  else if 0xC000 ≤ n ∧ n < 0xD000 then some (.wram 0 (.ofNat _ (n - 0xC000)))
  else if 0xD000 ≤ n ∧ n < 0xE000 then some (.wram banks.wram (.ofNat _ (n - 0xD000)))
  else if 0xFE00 ≤ n ∧ n < 0xFEA0 then some (.oam (.ofNat _ (n - 0xFE00)))
  else if 0xFF80 ≤ n ∧ n < 0xFFFF then some (.hram (.ofNat _ (n - 0xFF80)))
  else if n = 0xFFFF then some .interruptEnable
  else none

/-- The addresses of this memory. -/
def InMemory (address : UInt16) : Prop :=
  (0x8000 ≤ address ∧ address ≤ 0x9FFF) ∨ (0xC000 ≤ address ∧ address ≤ 0xFE9F) ∨ 0xFF80 ≤ address

def InVram (address : UInt16) : Prop := 0x8000 ≤ address ∧ address ≤ 0x9FFF

/-- The switchable window of work RAM, in both of its places. -/
def Switchable (address : UInt16) : Prop :=
  (0xD000 ≤ address ∧ address ≤ 0xDFFF) ∨ (0xF000 ≤ address ∧ address ≤ 0xFDFF)

/-- Both addresses are the same, or they are the two places at which a byte of work RAM appears. -/
def Mirrors (a b : UInt16) : Prop :=
  a = b ∨ (0xC000 ≤ a ∧ a ≤ 0xDDFF ∧ b = a + 0x2000) ∨ (0xC000 ≤ b ∧ b ≤ 0xDDFF ∧ a = b + 0x2000)

instance : Decidable (InMemory address) := inferInstanceAs (Decidable (_ ∨ _))

instance : Decidable (Mirrors a b) := inferInstanceAs (Decidable (_ ∨ _))

theorem mirrors_iff (a b : UInt16) : Mirrors a b ↔ home a = home b := by
  have aboveA := a.toNat_lt
  have aboveB := b.toNat_lt
  simp only [Mirrors, home, ← UInt16.toNat_inj, UInt16.le_iff_toNat_le, UInt16.toNat_add,
    UInt16.reduceToNat]
  split <;> split <;> omega

theorem inVram_iff (address : UInt16) :
    InVram address ↔ 0x8000 ≤ home address ∧ home address < 0xA000 := by
  simp only [InVram, home, UInt16.le_iff_toNat_le, UInt16.reduceToNat]
  split <;> omega

theorem switchable_iff (address : UInt16) :
    Switchable address ↔ 0xD000 ≤ home address ∧ home address < 0xE000 := by
  simp only [Switchable, home, UInt16.le_iff_toNat_le, UInt16.reduceToNat]
  split <;> omega

/-- The lowest address at which a cell can appear. -/
def Cell.home : Cell → Nat
  | .vram _ offset => 0x8000 + offset
  | .wram bank offset => (if bank = 0 then 0xC000 else 0xD000) + offset
  | .oam offset => 0xFE00 + offset
  | .hram offset => 0xFF80 + offset
  | .interruptEnable => 0xFFFF

namespace SelectedBanks

variable {banks s t : SelectedBanks} {a b : UInt16}

theorem home_cell? (found : banks.cell? a = some cell) : cell.home = home a := by
  have other : banks.wram ≠ 0 := Nat.ne_of_gt banks.switchable
  simp only [cell?] at found
  generalize home a = n at found ⊢
  repeat' split at found
  all_goals
    cases found
    try simp only [Cell.home, Fin.val_ofNat, if_true, if_neg other]
    try omega

theorem isSome_cell?_iff : (banks.cell? a).isSome = true ↔ InMemory a := by
  have bound := a.toNat_lt
  simp only [cell?, apply_ite Option.isSome, Option.isSome_some, Option.isSome_none, InMemory,
    UInt16.le_iff_toNat_le, UInt16.reduceToNat]
  generalize place : home a = n
  unfold home at place
  split at place <;> simp <;> omega

theorem exists_cell? (banks : SelectedBanks) (present : InMemory a) :
    ∃ cell, banks.cell? a = some cell :=
  Option.isSome_iff_exists.mp (isSome_cell?_iff.mpr present)

/-- Two selections show the same cell at an address if they agree on its bank. -/
theorem cell?_eq_self_iff :
    s.cell? a = t.cell? a ↔ (InVram a → s.vram = t.vram) ∧ (Switchable a → s.wram = t.wram) := by
  rw [inVram_iff, switchable_iff]
  simp only [cell?]
  generalize home a = n
  split
  · simp only [Option.some.injEq, Cell.vram.injEq, and_true]
    omega
  split
  · simp only [true_iff]
    omega
  split
  · simp only [Option.some.injEq, Cell.wram.injEq, and_true]
    omega
  · simp only [true_iff]
    omega

/-- Two addresses stand for one cell if they lead to the same place and its bank is the same. -/
theorem cell?_eq_iff (present : InMemory a) :
    s.cell? a = t.cell? b ↔
      Mirrors a b ∧ (InVram a → s.vram = t.vram) ∧ (Switchable a → s.wram = t.wram) := by
  obtain ⟨cell, found⟩ := exists_cell? s present
  have shifted (same : home a = home b) : t.cell? b = t.cell? a := by
    simp only [cell?, same]
  rw [mirrors_iff, ← cell?_eq_self_iff]
  constructor
  · intro same
    have place : home a = home b := (home_cell? found).symm.trans (home_cell? (same ▸ found))
    exact ⟨place, same.trans (shifted place)⟩
  · rintro ⟨place, same⟩
    exact same.trans (shifted place).symm

/-- The lower window of work RAM never shows a cell that the switchable one shows. -/
theorem cell?_ne_switchable (fixed : 0xC000 ≤ a ∧ a ≤ 0xCFFF) (switchable : Switchable b) :
    s.cell? a ≠ t.cell? b := by
  have present : InMemory a := by
    simp only [InMemory, UInt16.le_iff_toNat_le, UInt16.reduceToNat] at fixed ⊢
    omega
  intro same
  have place := (mirrors_iff a b).mp ((cell?_eq_iff present).mp same).1
  rw [switchable_iff, ← place, home] at switchable
  simp only [UInt16.le_iff_toNat_le, UInt16.reduceToNat] at fixed
  split at switchable <;> omega

end SelectedBanks

/-! What the windows of the hardware lead to. -/

/-- Where the two windows onto work RAM lie, in either of their places. -/
def Region.Windows (region : Region) (address : UInt16) : Prop :=
  match region with
  | .wramFixed => address.toNat % 0x2000 < 0x1000
  | .wramBanked => 0x1000 ≤ address.toNat % 0x2000
  | _ => True

private theorem Region.windows_ite [Decidable p] {first second : Region}
    (yes : p → first.Windows address) (no : ¬p → second.Windows address) :
    (if p then first else second).Windows address := by
  split
  · exact yes ‹p›
  · exact no ‹¬p›

theorem Region.windows_ofAddress (address : UInt16) :
    (Region.ofAddress address).Windows address := by
  have bound := address.toNat_lt
  unfold ofAddress
  simp only [UInt16.lt_iff_toNat_lt, UInt16.reduceToNat]
  repeat' refine Region.windows_ite (fun below => ?_) fun above => ?_
  all_goals
    simp only [Windows]
    try omega

/-- The cell that an address stands for, by the region that it belongs to. -/
theorem SelectedBanks.cell?_eq (banks : SelectedBanks) (address : UInt16) :
    banks.cell? address =
      match Region.ofAddress address with
      | .vram => some (.vram banks.vram (.ofNat _ address.toNat))
      | .wramFixed => some (.wram 0 (.ofNat _ address.toNat))
      | .wramBanked => some (.wram banks.wram (.ofNat _ address.toNat))
      | .oam => some (.oam (.ofNat _ (address.toNat - 0xFE00)))
      | .hram => some (.hram (.ofNat _ (address.toNat - 0xFF80)))
      | .interruptEnable => some .interruptEnable
      | .rom | .cartRam | .unusable | .io => none := by
  have spans := Region.spans_ofAddress address
  have windows := Region.windows_ofAddress address
  simp only [cell?]
  generalize Region.ofAddress address = region at spans windows
  generalize place : home address = n
  unfold home at place
  cases region
  all_goals
    simp only [Region.Spans, Region.Windows] at spans windows
    split at place
  all_goals
    first
    | omega
    | simp (disch := omega) only [if_pos, if_neg, Option.some.injEq, Cell.vram.injEq,
        Cell.wram.injEq, Cell.oam.injEq, Cell.hram.injEq, Fin.ext_iff, Fin.val_ofNat, true_and]
      try omega

/-- A read after a write sees it at the same place, and what was there before at any other. -/
theorem Memory.read_write {m : Memory} (inside : address < m.size) (other : Nat) (v : UInt8) :
    (m.write address v).read other = if other = address then v else m.read other := by
  split
  · next same =>
    rw [same]
    exact m.read_write_same inside v
  · next different =>
    exact m.read_write_ne (Ne.symm different) v

theorem Segment.read_write (s : Segment length) (inside : address < length) (other : Nat)
    (v : UInt8) : (s.write address v).read other = if other = address then v else s.read other :=
  Memory.read_write (Nat.lt_of_lt_of_eq inside s.size_eq.symm) other v

namespace Hardware

/-- The banks that the windows show. The other model has one bank for each window. -/
def selected (hw : Hardware) : SelectedBanks where
  vram := if hw.isColor then (hw.io.read Io.vramBank % 2).toNat else 0
  wram := if hw.isColor then max (hw.io.read Io.wramBank % 8).toNat 1 else 1
  switchable := by
    split
    · exact Nat.le_max_right _ 1
    · exact Nat.le_refl 1

/-- What a cell holds. -/
def load (hw : Hardware) : Cell → UInt8
  | .vram bank offset => hw.vram.read (bank * vramBankSize + offset)
  | .wram bank offset => hw.wram.read (bank * wramBankSize + offset)
  | .oam offset => hw.oam.read offset
  | .hram offset => hw.hram.read offset
  | .interruptEnable => hw.ie

/-- Stores a byte in one cell. -/
def store (hw : Hardware) (cell : Cell) (v : UInt8) : Hardware :=
  match cell with
  | .vram bank offset => { hw with vram := hw.vram.write (bank * vramBankSize + offset) v }
  | .wram bank offset => { hw with wram := hw.wram.write (bank * wramBankSize + offset) v }
  | .oam offset => { hw with oam := hw.oam.write offset v }
  | .hram offset => { hw with hram := hw.hram.write offset v }
  | .interruptEnable => { hw with ie := v }

/-- The bank of a cell is on the console. -/
def Has (hw : Hardware) : Cell → Prop
  | .vram bank _ => (bank + 1) * vramBankSize ≤ hw.vram.size
  | .wram bank _ => (bank + 1) * wramBankSize ≤ hw.wram.size
  | _ => True

/-- Storing a byte changes one cell and no other. -/
theorem load_store {hw : Hardware} (has : hw.Has cell) (other : Cell) (v : UInt8) :
    (hw.store cell v).load other = if other = cell then v else hw.load other := by
  cases cell with
  | vram bank offset =>
    cases other with
    | vram =>
      simp only [Has, vramBankSize] at has
      simp only [store, load, Cell.vram.injEq, Fin.ext_iff, vramBankSize]
      rw [Memory.read_write (by omega)]
      exact ite_congr (propext (by omega)) (fun _ => rfl) fun _ => rfl
    | _ => simp [store, load]
  | wram bank offset =>
    cases other with
    | wram =>
      simp only [Has, wramBankSize] at has
      simp only [store, load, Cell.wram.injEq, Fin.ext_iff, wramBankSize]
      rw [Memory.read_write (by omega)]
      exact ite_congr (propext (by omega)) (fun _ => rfl) fun _ => rfl
    | _ => simp [store, load]
  | oam offset =>
    cases other with
    | oam =>
      simp only [store, load, Cell.oam.injEq, Fin.ext_iff]
      exact hw.oam.read_write offset.isLt _ v
    | _ => simp [store, load]
  | hram offset =>
    cases other with
    | hram =>
      simp only [store, load, Cell.hram.injEq, Fin.ext_iff]
      exact hw.hram.read_write offset.isLt _ v
    | _ => simp [store, load]
  | interruptEnable => cases other <;> simp [store, load]

/-- The banks that the windows show are ones that the model has. -/
theorem selected_bounds (hw : Hardware) :
    (hw.selected.vram + 1) * vramBankSize ≤ hw.model.vramSize ∧
      (hw.selected.wram + 1) * wramBankSize ≤ hw.model.wramSize := by
  obtain model | model : hw.model = .monochrome ∨ hw.model = .color := by cases hw.model <;> simp
  · simp [selected, isColor, model, Model.vramSize, Model.wramSize]
  · simp [selected, isColor, model, Model.vramSize, Model.wramSize, vramBankSize, wramBankSize]
    omega

theorem vram_selected {hw : Hardware} (color : hw.isColor = true) :
    hw.selected.vram = (hw.io.read Io.vramBank % 2).toNat := if_pos color

theorem wram_selected {hw : Hardware} (color : hw.isColor = true) :
    hw.selected.wram = max (hw.io.read Io.wramBank % 8).toNat 1 := if_pos color

@[simp] theorem selected_store (hw : Hardware) (cell : Cell) (v : UInt8) :
    (hw.store cell v).selected = hw.selected := by
  cases cell <;> rfl

theorem vramOffset_eq (hw : Hardware) : hw.vramOffset = hw.selected.vram * vramBankSize := by
  simp [vramOffset, selected, ite_mul]

theorem wramOffset_eq (hw : Hardware) : hw.wramOffset = hw.selected.wram * wramBankSize := by
  simp [wramOffset, selected, ite_mul]

end Hardware

namespace Console

variable {c : Console} {cell : Cell}

/-- A window of memory shows the cell that the selected banks give it. -/
theorem readRegion_cell (idle : Region.ofAddress address = .oam → c.hw.oamDma.active = false)
    (found : c.hw.selected.cell? address = some cell) :
    c.readRegion (.ofAddress address) address = c.hw.load cell := by
  have spans := Region.spans_ofAddress address
  rw [SelectedBanks.cell?_eq] at found
  generalize Region.ofAddress address = region at idle found spans
  cases region with
  | vram =>
    cases found
    simp only [readRegion, Hardware.vramIndex, Hardware.vramOffset_eq, Hardware.load, Fin.val_ofNat,
      vramBankSize]
  | wramFixed =>
    cases found
    simp only [readRegion, Hardware.load, Fin.val_ofNat, wramBankSize, Nat.zero_mul, Nat.zero_add]
  | wramBanked =>
    cases found
    simp only [readRegion, Hardware.wramIndex, Hardware.wramOffset_eq, Hardware.load, Fin.val_ofNat,
      wramBankSize]
  | oam =>
    cases found
    have inside : address.toNat - 0xFE00 < 0xA0 := Nat.sub_lt_left_of_lt_add spans.1 spans.2
    simp only [readRegion, idle rfl, Bool.false_eq_true, if_false, Hardware.load, Fin.val_ofNat,
      Nat.mod_eq_of_lt inside]
  | hram =>
    cases found
    have inside : address.toNat - 0xFF80 < 0x7F := Nat.sub_lt_left_of_lt_add spans.1 spans.2
    simp only [readRegion, Hardware.load, Fin.val_ofNat, Nat.mod_eq_of_lt inside]
  | interruptEnable =>
    cases found
    rfl
  | rom | cartRam | unusable | io => contradiction

/-- A write to a window of memory stores a byte in the cell that the selected banks give it, and
does nothing else. -/
theorem writeRegion_cell (idle : Region.ofAddress address = .oam → c.hw.oamDma.active = false)
    (found : c.hw.selected.cell? address = some cell) (v : UInt8) :
    c.writeRegion (.ofAddress address) address v = { c with hw := c.hw.store cell v } := by
  have spans := Region.spans_ofAddress address
  rw [SelectedBanks.cell?_eq] at found
  generalize Region.ofAddress address = region at idle found spans
  cases region with
  | vram =>
    cases found
    simp only [writeRegion, Hardware.vramIndex, Hardware.vramOffset_eq, Hardware.store,
      Fin.val_ofNat, vramBankSize]
  | wramFixed =>
    cases found
    simp only [writeRegion, Hardware.store, Fin.val_ofNat, wramBankSize, Nat.zero_mul, Nat.zero_add]
  | wramBanked =>
    cases found
    simp only [writeRegion, Hardware.wramIndex, Hardware.wramOffset_eq, Hardware.store,
      Fin.val_ofNat, wramBankSize]
  | oam =>
    cases found
    have inside : address.toNat - 0xFE00 < 0xA0 := Nat.sub_lt_left_of_lt_add spans.1 spans.2
    simp only [writeRegion, idle rfl, Bool.false_eq_true, if_false, Hardware.store, Fin.val_ofNat,
      Nat.mod_eq_of_lt inside]
  | hram =>
    cases found
    have inside : address.toNat - 0xFF80 < 0x7F := Nat.sub_lt_left_of_lt_add spans.1 spans.2
    simp only [writeRegion, Hardware.store, Fin.val_ofNat, Nat.mod_eq_of_lt inside]
  | interruptEnable =>
    cases found
    rfl
  | rom | cartRam | unusable | io => contradiction

end Console

namespace Machine

/-- The bus leads to the memory of the console: no device has taken an address over, nothing is
hidden, no transfer holds sprite memory, and the banks are the ones that a console is built with. -/
structure Open (m : Machine σ) : Prop where
  bare : m.handlers = []
  vramVisible : m.vramVisible = true
  oamVisible : m.oamVisible = true
  idle : m.console.hw.oamDma.active = false
  vram : m.console.hw.vram.size = m.console.hw.model.vramSize
  wram : m.console.hw.wram.size = m.console.hw.model.wramSize

namespace Open

variable {m : Machine σ}

theorem route (opened : m.Open) (address : UInt16) :
    m.route address = .memory (.ofAddress address) := by
  have shown : m.shows (.ofAddress address) = true := by
    cases Region.ofAddress address with
    | vram => exact opened.vramVisible
    | oam => exact opened.oamVisible
    | _ => rfl
  rw [m.route_bare opened.bare, if_pos shown]

theorem read (opened : m.Open) (found : m.console.hw.selected.cell? address = some cell) :
    m.read address = (m.console.hw.load cell, m) := by
  rw [Machine.read, opened.route]
  exact congrArg (·, m) (Console.readRegion_cell (fun _ => opened.idle) found)

theorem write (opened : m.Open) (found : m.console.hw.selected.cell? address = some cell)
    (v : UInt8) : m.write address v = m.mapHardware (·.store cell v) := by
  rw [Machine.write, opened.route]
  exact congrArg (fun console => { m with console })
    (Console.writeRegion_cell (fun _ => opened.idle) found v)

theorem write_io (opened : m.Open) (io : Region.ofAddress address = .io) (v : UInt8) :
    m.write address v = { m with console := m.console.writeIo address v } := by
  rw [Machine.write, opened.route, io]
  rfl

/-- The banks that the windows show are there. -/
theorem has (opened : m.Open) (found : m.console.hw.selected.cell? address = some cell) :
    m.console.hw.Has cell := by
  obtain ⟨vram, wram⟩ := m.console.hw.selected_bounds
  rw [SelectedBanks.cell?_eq] at found
  generalize Region.ofAddress address = region at found
  cases region with
  | vram =>
    cases found
    exact Nat.le_trans vram (Nat.le_of_eq opened.vram.symm)
  | wramFixed =>
    cases found
    have below : 1 * wramBankSize ≤ (m.console.hw.selected.wram + 1) * wramBankSize :=
      Nat.mul_le_mul_right _ (Nat.le_add_left 1 _)
    exact Nat.le_trans (Nat.le_trans below wram) (Nat.le_of_eq opened.wram.symm)
  | wramBanked =>
    cases found
    exact Nat.le_trans wram (Nat.le_of_eq opened.wram.symm)
  | oam | hram | interruptEnable =>
    cases found
    trivial
  | rom | cartRam | unusable | io => contradiction

theorem store (opened : m.Open) (cell : Cell) (v : UInt8) :
    (m.mapHardware (·.store cell v)).Open := by
  obtain ⟨bare, vramVisible, oamVisible, idle, vram, wram⟩ := opened
  cases cell with
  | vram => exact ⟨bare, vramVisible, oamVisible, idle, (Memory.size_write ..).trans vram, wram⟩
  | wram => exact ⟨bare, vramVisible, oamVisible, idle, vram, (Memory.size_write ..).trans wram⟩
  | oam | hram | interruptEnable => exact ⟨bare, vramVisible, oamVisible, idle, vram, wram⟩

/-- What a read sees after a write. -/
theorem read_write (opened : m.Open) (here : InMemory a) (there : InMemory b) (v : UInt8) :
    (m.write a v).read b = (if Mirrors a b then v else (m.read b).1, m.write a v) := by
  let banks := m.console.hw.selected
  obtain ⟨cell, found⟩ := banks.exists_cell? here
  obtain ⟨other, shown⟩ := banks.exists_cell? there
  have same : other = cell ↔ Mirrors a b := by
    have place := SelectedBanks.cell?_eq_iff (s := banks) (t := banks) (b := b) here
    rw [found, shown] at place
    simpa [eq_comm] using place
  have after := (opened.store cell v).read
    ((congrArg (·.cell? b) (m.console.hw.selected_store cell v)).trans shown)
  rw [opened.write found, after, opened.read shown]
  have stored := Hardware.load_store (opened.has found) other v
  simp only [same] at stored
  exact congrArg (·, _) stored

end Open

end Machine

/-! Histories of stores and bank selects. -/

namespace SelectedBanks

/-- The banks that a color model shows after some writes. Selecting bank zero of work RAM selects
bank one. -/
def after (start : SelectedBanks) (log : WriteLog) : SelectedBanks where
  vram := (log.latest? fun address _ => address = 0xFF4F).elim start.vram fun v => v.toNat % 2
  wram :=
    (log.latest? fun address _ => address = 0xFF70).elim start.wram fun v => max (v.toNat % 8) 1
  switchable := by
    cases log.latest? fun address _ => address = 0xFF70 with
    | none => exact start.switchable
    | some v => exact Nat.le_max_right _ 1

/-- What was last stored in a cell, through whichever address and banks led to it. -/
def stored? (start : SelectedBanks) : WriteLog → Cell → Option UInt8
  | [], _ => none
  | (address, v) :: earlier, cell =>
    if (start.after earlier).cell? address = some cell then some v
    else start.stored? earlier cell

variable {start : SelectedBanks} {log : WriteLog} {address : UInt16}

theorem vram_after_cons (v : UInt8) :
    (start.after ((address, v) :: log)).vram =
      if address = 0xFF4F then v.toNat % 2 else (start.after log).vram := by
  simp only [after, WriteLog.latest?_cons, decide_eq_true_eq, ← UInt16.toNat_inj,
    UInt16.reduceToNat]
  split <;> rfl

theorem wram_after_cons (v : UInt8) :
    (start.after ((address, v) :: log)).wram =
      if address = 0xFF70 then max (v.toNat % 8) 1 else (start.after log).wram := by
  simp only [after, WriteLog.latest?_cons, decide_eq_true_eq, ← UInt16.toNat_inj,
    UInt16.reduceToNat]
  split <;> rfl

/-- A store selects nothing. -/
theorem after_store (here : InMemory address) (v : UInt8) :
    start.after ((address, v) :: log) = start.after log := by
  have vram : address ≠ 0xFF4F := fun same => absurd (same ▸ here) (by decide)
  have wram : address ≠ 0xFF70 := fun same => absurd (same ▸ here) (by decide)
  ext
  · rw [vram_after_cons, if_neg vram]
  · rw [wram_after_cons, if_neg wram]

end SelectedBanks

namespace Machine

variable {m : Machine σ} {log : WriteLog}

/-- A machine after the writes of a log. -/
def writeAll (m : Machine σ) : WriteLog → Machine σ
  | [] => m
  | (address, v) :: earlier => (m.writeAll earlier).write address v

/-- Every write of a log stores a byte in memory or selects a bank. -/
def StoresAndSelects (log : WriteLog) : Prop :=
  ∀ entry ∈ log, InMemory entry.1 ∨ entry.1 = 0xFF4F ∨ entry.1 = 0xFF70

/-- What a log of writes to a color model has led to. -/
structure Stored (m : Machine σ) (log : WriteLog) (n : Machine σ) : Prop where
  opened : n.Open
  model : n.console.hw.model = .color
  selected : n.console.hw.selected = m.console.hw.selected.after log
  load (cell : Cell) :
    n.console.hw.load cell =
      (m.console.hw.selected.stored? log cell).getD (m.console.hw.load cell)

namespace Stored

variable {n : Machine σ} {address : UInt16}

theorem start (opened : m.Open) (color : m.console.hw.model = .color) : m.Stored [] m where
  opened := opened
  model := color
  selected := rfl
  load _ := rfl

theorem store (stored : m.Stored log n) (here : InMemory address) (v : UInt8) :
    m.Stored ((address, v) :: log) (n.write address v) := by
  obtain ⟨cell, found⟩ := n.console.hw.selected.exists_cell? here
  have shown : (m.console.hw.selected.after log).cell? address = some cell :=
    stored.selected ▸ found
  rw [stored.opened.write found]
  constructor
  · exact stored.opened.store cell v
  · cases cell <;> exact stored.model
  · rw [SelectedBanks.after_store here]
    exact (n.console.hw.selected_store cell v).trans stored.selected
  · intro other
    have written := Hardware.load_store (stored.opened.has found) other v
    rw [stored.load other] at written
    simp only [SelectedBanks.stored?, shown, Option.some.injEq]
    refine written.trans ?_
    by_cases same : other = cell
    · simp [same]
    · simp [same, Ne.symm same]

/-- Selecting a bank moves no byte. -/
theorem select (stored : m.Stored log n) (elsewhere : ¬InMemory address) {v : UInt8}
    {io : Segment 0x80}
    (vram : (io.read Io.vramBank % 2).toNat =
      (m.console.hw.selected.after ((address, v) :: log)).vram)
    (wram : max (io.read Io.wramBank % 8).toNat 1 =
      (m.console.hw.selected.after ((address, v) :: log)).wram) :
    m.Stored ((address, v) :: log)
      { n with console := { n.console with hw := { n.console.hw with io } } } := by
  obtain ⟨bare, vramVisible, oamVisible, idle, vramSize, wramSize⟩ := stored.opened
  have color : { n.console.hw with io }.isColor = true := decide_eq_true stored.model
  have nowhere (banks : SelectedBanks) : banks.cell? address = none := by
    rw [← Option.not_isSome_iff_eq_none, SelectedBanks.isSome_cell?_iff]
    exact elsewhere
  constructor
  · exact ⟨bare, vramVisible, oamVisible, idle, vramSize, wramSize⟩
  · exact stored.model
  · ext
    · exact (Hardware.vram_selected color).trans vram
    · exact (Hardware.wram_selected color).trans wram
  · intro cell
    have same : { n.console.hw with io }.load cell = n.console.hw.load cell := by
      cases cell <;> rfl
    simp only [SelectedBanks.stored?, nowhere, reduceCtorEq, if_false]
    exact same.trans (stored.load cell)

theorem selectVram (stored : m.Stored log n) (v : UInt8) :
    m.Stored ((0xFF4F, v) :: log) (n.write 0xFF4F v) := by
  have color : n.console.hw.isColor = true := decide_eq_true stored.model
  have register : IoRegister.ofAddress n.console.hw.isColor 0xFF4F = .vramBank := by
    rw [color]
    rfl
  rw [stored.opened.write_io (by decide)]
  simp only [Console.writeIo, register]
  apply stored.select (by decide)
  · rw [SelectedBanks.vram_after_cons, if_pos rfl, Segment.read_write_same _ (by decide)]
    simp
  · rw [SelectedBanks.wram_after_cons, if_neg (by decide), Segment.read_write_ne _ (by decide),
      ← stored.selected, Hardware.wram_selected color]

theorem selectWram (stored : m.Stored log n) (v : UInt8) :
    m.Stored ((0xFF70, v) :: log) (n.write 0xFF70 v) := by
  have color : n.console.hw.isColor = true := decide_eq_true stored.model
  have register : IoRegister.ofAddress n.console.hw.isColor 0xFF70 = .wramBank := by
    rw [color]
    rfl
  rw [stored.opened.write_io (by decide)]
  simp only [Console.writeIo, register]
  apply stored.select (by decide)
  · rw [SelectedBanks.vram_after_cons, if_neg (by decide), Segment.read_write_ne _ (by decide),
      ← stored.selected, Hardware.vram_selected color]
  · rw [SelectedBanks.wram_after_cons, if_pos rfl, Segment.read_write_same _ (by decide)]
    simp

/-- What the writes of a log lead to. -/
theorem writeAll (opened : m.Open) (color : m.console.hw.model = .color)
    (allowed : StoresAndSelects log) : m.Stored log (m.writeAll log) := by
  induction log with
  | nil => exact .start opened color
  | cons entry log ih =>
    obtain ⟨address, v⟩ := entry
    have stored := ih fun entry earlier => allowed entry (.tail _ earlier)
    rcases allowed _ (.head _) with here | vram | wram
    · exact stored.store here v
    · cases vram
      exact stored.selectVram v
    · cases wram
      exact stored.selectWram v

end Stored

/-- The memory of a console on its bus. A write stores a byte in one cell and changes nothing else,
and a read returns what the cell holds; two addresses stand for one cell just when they are the same
or the two places of a byte of work RAM. On the color model, whatever has been written and selected,
an address shows what was last stored in its cell, and it stands for another cell in every bank; the
lower window of work RAM never shows a cell that the switchable one shows. -/
theorem banked_memory (m : Machine σ) (opened : m.Open) :
    let banks := m.console.hw.selected
    (∀ a v, InMemory a →
      (∃ cell, banks.cell? a = some cell ∧ m.write a v = m.mapHardware (·.store cell v)) ∧
        ∀ b, InMemory b →
          (m.write a v).read b = (if Mirrors a b then v else (m.read b).1, m.write a v)) ∧
    (∀ a b, InMemory a → (banks.cell? a = banks.cell? b ↔ Mirrors a b)) ∧
    (m.console.hw.model = .color → ∀ log, StoresAndSelects log → ∀ b cell,
      (banks.after log).cell? b = some cell →
        (m.writeAll log).read b =
          ((banks.stored? log cell).getD (m.console.hw.load cell), m.writeAll log)) ∧
    (∀ first later : SelectedBanks, ∀ a b, InMemory a →
      (first.cell? a = later.cell? b ↔
        Mirrors a b ∧ (InVram a → first.vram = later.vram) ∧
          (Switchable a → first.wram = later.wram))) ∧
    (∀ first later : SelectedBanks, ∀ a b, 0xC000 ≤ a ∧ a ≤ 0xCFFF → Switchable b →
      first.cell? a ≠ later.cell? b) := by
  intro banks
  refine ⟨?_, ?_, ?_, fun _ _ _ _ => SelectedBanks.cell?_eq_iff,
    fun _ _ _ _ => SelectedBanks.cell?_ne_switchable⟩
  · intro a v here
    obtain ⟨cell, found⟩ := banks.exists_cell? here
    exact ⟨⟨cell, found, opened.write found v⟩, fun b there => opened.read_write here there v⟩
  · intro a b here
    simpa using SelectedBanks.cell?_eq_iff (s := banks) (t := banks) (b := b) here
  · intro color log allowed b cell found
    have stored := Stored.writeAll opened color allowed
    rw [stored.opened.read (stored.selected ▸ found), stored.load]

/-- A byte that was stored in one bank of work RAM is there again when the bank is selected again,
and at the second place of the window as well. -/
theorem banked_memory_color :
    let m : Machine Unit := .powerOn default (some .color) ()
    let log : WriteLog :=
      [(0xFF70, 2), (0xD123, 9), (0xFF70, 0), (0xD123, 7), (0xFF70, 2), (0xC123, 5)]
    m.Open ∧ StoresAndSelects log ∧ ((m.writeAll log).read 0xF123).1 = 7 ∧
      ((m.writeAll log).read 0xC123).1 = 5 := by
  intro m log
  have opened : m.Open := ⟨rfl, rfl, rfl, rfl, Memory.size_zeros _, Memory.size_zeros _⟩
  have allowed : StoresAndSelects log := by
    simp [StoresAndSelects, log, InMemory]
  obtain ⟨-, -, reads, -⟩ := banked_memory m opened
  have switched := reads rfl log allowed 0xF123 (.wram 2 0x123) (by decide)
  have fixed := reads rfl log allowed 0xC123 (.wram 0 0x123) (by decide)
  exact ⟨opened, allowed, switched ▸ rfl, fixed ▸ rfl⟩

end Machine

end GameBoy
