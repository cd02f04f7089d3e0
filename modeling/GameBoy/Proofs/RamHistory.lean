import GameBoy.Proofs.BankedMemory
import Mathlib.Data.List.Induction

/-!
Cartridge RAM as a matter of what was written to the cartridge. The writes to the ROM windows decide
which cell each address of the RAM window stands for; a cell holds what was last stored in it. Main
statement: `ram_follows_log`.
-/

namespace GameBoy

namespace WriteLog

/-- The writes to the ROM windows, which are commands to the controller. -/
def commands (log : WriteLog) : WriteLog := log.filter fun entry => entry.1.toNat < 0x8000

/-- Whether the latest write to the enable register lets RAM answer. Bit 8 of the address tells the
enable register of an MBC2 from its bank register. Without a controller, RAM always answers. -/
def enablesRam (commands : WriteLog) (chip : Controller) : Bool :=
  match chip with
  | .fixed => true
  | .mbc2 =>
    let latest := commands.latest? fun address _ => address < 0x4000 ∧ address / 0x100 % 2 = 0
    latest.getD 0 % 16 = 0x0A
  | .mbc1 | .mbc3 | .mbc5 => (commands.latestIn? 0 0x2000).getD 0 % 16 = 0x0A

/-- What the RAM select register of an MBC3 holds, which refuses numbers above 0x0C. -/
def mbc3Select (commands : WriteLog) : UInt8 :=
  (commands.latest? fun address v => (0x4000 ≤ address ∧ address < 0x6000) ∧ v ≤ 0x0C).getD 0

theorem commands_rom (log : WriteLog) {address : UInt16} (inRom : address.toNat < 0x8000)
    (v : UInt8) : commands ((address, v) :: log) = (address, v) :: log.commands := by
  simp [commands, inRom]

theorem commands_cartRam (log : WriteLog) {address : UInt16}
    (inRam : Region.cartRam.Spans address) (v : UInt8) :
    commands ((address, v) :: log) = log.commands := by
  have above : 0x8000 ≤ address.toNat := Nat.le_trans (by decide) inRam.1
  simp [commands, above]

end WriteLog

/-! What the commands make of the RAM window. -/

namespace Cartridge

/-- The number of RAM banks; a part of a bank counts as one. -/
def ramBanks (cart : Cartridge) : Nat := (cart.ramSize + ramBankSize - 1) / ramBankSize

/-- What answers at an offset into the RAM window after some commands. -/
def answering (cart : Cartridge) (commands : WriteLog) (offset : Nat) : Console.RamTarget :=
  let bank := (cart.controller.shown cart.romBanks cart.ramBanks commands).ram
  if !commands.enablesRam cart.controller then .closed
  else
    match cart.controller with
    | .mbc2 => .nibble (offset % 0x200)
    | .mbc3 =>
      if 8 ≤ commands.mbc3Select then .clock (commands.mbc3Select.toNat - 8)
      else .cell (bank * 0x2000 + offset)
    | .fixed | .mbc1 | .mbc5 => .cell (bank * 0x2000 + offset)

/-- The cell of RAM that an offset into the window stands for after some commands. -/
def ramCell? (cart : Cartridge) (commands : WriteLog) (offset : Nat) : Option Nat :=
  match cart.answering commands offset with
  | .nibble index | .cell index => if index < cart.ramSize then some index else none
  | .closed | .clock _ => none

/-- What a cell keeps of a byte that is stored in it. -/
def kept (cart : Cartridge) (v : UInt8) : UInt8 := if cart.controller = .mbc2 then v % 16 else v

/-- What was last stored in a cell, through whichever address and bank led to it. -/
def lastStored? (cart : Cartridge) : WriteLog → Nat → Option UInt8
  | [], _ => none
  | (address, v) :: earlier, index =>
    if Region.cartRam.Spans address ∧
        cart.ramCell? (WriteLog.commands earlier) (address.toNat - 0xA000) = some index then
      some (cart.kept v)
    else cart.lastStored? earlier index

end Cartridge

/-! The enable latch. -/

namespace Banks

variable {b : Banks} {romBanks ramBanks : Nat} {address : UInt16} {v : UInt8}

theorem ramEnabled_mbc1Write :
    (b.mbc1Write romBanks ramBanks address v).ramEnabled =
      if address < 0x2000 then decide (v % 16 = 0x0A) else b.ramEnabled := by
  unfold mbc1Write mbc1Resolve mbc1Latch
  repeat' split
  all_goals rfl

theorem ramEnabled_mbc2Write :
    (b.mbc2Write romBanks address v).ramEnabled =
      if address < 0x4000 ∧ address / 0x100 % 2 = 0 then decide (v % 16 = 0x0A)
      else b.ramEnabled := by
  unfold mbc2Write
  by_cases above : 0x4000 ≤ address
  · rw [if_pos above, if_neg fun low => UInt16.not_le.mpr low.1 above]
  · rw [if_neg above]
    simp only [UInt16.not_le.mp above, true_and]
    split <;> rfl

theorem ramEnabled_mbc3Write :
    (b.mbc3Write romBanks address v).ramEnabled =
      if address < 0x2000 then decide (v % 16 = 0x0A) else b.ramEnabled := by
  unfold mbc3Write
  split <;> rfl

theorem ramEnabled_mbc5Write :
    (b.mbc5Write romBanks ramBanks address v).ramEnabled =
      if address < 0x2000 then decide (v % 16 = 0x0A) else b.ramEnabled := by
  unfold mbc5Write
  repeat' split
  all_goals rfl

end Banks

namespace Console

/-- The controller is as the commands have left it. -/
structure Answers (c : Console) (commands : WriteLog) : Prop where
  reflects : c.Reflects commands
  enabled : c.hw.banks.ramEnabled = commands.enablesRam c.cart.controller
  select : c.cart.controller = .mbc3 → c.hw.banks.ramSelect = commands.mbc3Select

variable {c : Console} {commands : WriteLog} {address : UInt16}

theorem ramEnabled_mbc3Select (v : UInt8) :
    (c.mbc3Select v).hw.banks.ramEnabled = c.hw.banks.ramEnabled := by
  unfold mbc3Select
  repeat' split
  all_goals rfl

theorem ramSelect_mbc3Select (v : UInt8) :
    (c.mbc3Select v).hw.banks.ramSelect = if v ≤ 0x0C then v else c.hw.banks.ramSelect := by
  unfold mbc3Select
  by_cases bank : v < 8
  · have known : v ≤ 0x0C := UInt8.le_trans (UInt8.le_of_lt bank) (by decide)
    rw [if_pos bank, if_pos known]
    rfl
  · rw [if_neg bank]
    split <;> rfl

/-- Every command reaches the enable latch, or leaves it alone. -/
theorem ramEnabled_writeRom
    (enabled : c.hw.banks.ramEnabled = commands.enablesRam c.cart.controller) (v : UInt8) :
    (c.writeRom address v).hw.banks.ramEnabled =
      WriteLog.enablesRam ((address, v) :: commands) c.cart.controller := by
  have low : (0 ≤ address.toNat ∧ address.toNat < 0x2000) ↔ address < 0x2000 := by
    simp [UInt16.lt_iff_toNat_lt]
  unfold writeRom
  cases chip : c.cart.controller with
  | fixed =>
    rw [chip] at enabled
    exact enabled
  | mbc1 =>
    rw [chip] at enabled
    simp only [mapBanks, Banks.ramEnabled_mbc1Write, enabled, WriteLog.enablesRam,
      WriteLog.latestIn?_cons, low]
    split <;> rfl
  | mbc2 =>
    have even : (address.toNat < 0x4000 ∧ address.toNat / 0x100 % 2 = 0) ↔
        (address < 0x4000 ∧ address / 0x100 % 2 = 0) := by
      simp [UInt16.lt_iff_toNat_lt, ← UInt16.toNat_inj]
    rw [chip] at enabled
    simp only [mapBanks, Banks.ramEnabled_mbc2Write, enabled, WriteLog.enablesRam,
      WriteLog.latest?_cons, decide_eq_true_eq, even]
    split <;> rfl
  | mbc3 =>
    rw [chip] at enabled
    simp only [WriteLog.enablesRam, WriteLog.latestIn?_cons, low] at enabled ⊢
    by_cases rom : address < 0x4000
    · rw [if_pos rom, mapBanks, Banks.ramEnabled_mbc3Write, enabled]
      split <;> rfl
    · have other : ¬address < 0x2000 := fun enable =>
        rom (UInt16.lt_trans enable (by decide))
      rw [if_neg rom, if_neg other, ← enabled]
      split
      · exact ramEnabled_mbc3Select v
      · rfl
  | mbc5 =>
    rw [chip] at enabled
    simp only [mapBanks, Banks.ramEnabled_mbc5Write, enabled, WriteLog.enablesRam,
      WriteLog.latestIn?_cons, low]
    split <;> rfl

/-- Only selects between 0x4000 and 0x6000 that name a bank or a register are taken. -/
theorem mbc3Select_writeRom (chip : c.cart.controller = .mbc3)
    (select : c.hw.banks.ramSelect = commands.mbc3Select) (v : UInt8) :
    (c.writeRom address v).hw.banks.ramSelect = WriteLog.mbc3Select ((address, v) :: commands) := by
  simp only [writeRom, chip, WriteLog.mbc3Select, WriteLog.latest?_cons, decide_eq_true_eq,
    UInt16.lt_iff_toNat_lt, UInt16.reduceToNat]
  rw [WriteLog.mbc3Select] at select
  split
  · next rom =>
    rw [if_neg fun taken => Nat.not_lt.mpr taken.1.1 rom, ← select]
    rw [mapBanks, Banks.mbc3Write, Banks.enableRam, Banks.selectRom]
    split <;> rfl
  · next above =>
    split
    · next range =>
      rw [ramSelect_mbc3Select, select]
      simp only [Nat.le_of_not_lt above, range, true_and]
      split <;> rfl
    · next clock =>
      rw [if_neg fun taken => clock taken.1.2, ← select]
      rfl

theorem Answers.writeRom (answers : c.Answers commands) (inRom : address.toNat < 0x8000)
    (v : UInt8) : (c.writeRom address v).Answers ((address, v) :: commands) := by
  have cart : (c.writeRom address v).cart = c.cart := (c.writeRom_evolves address v).cart
  constructor
  · exact answers.reflects.writeRom address inRom v
  · rw [cart]
    exact ramEnabled_writeRom answers.enabled v
  · rw [cart]
    intro chip
    exact mbc3Select_writeRom chip (answers.select chip) v

theorem Answers.moves {d : Console} (answers : c.Answers commands) (moves : c.Moves ticks d) :
    d.Answers commands where
  reflects := answers.reflects.moves moves
  enabled := by
    rw [moves.latches, moves.cart]
    exact answers.enabled
  select := by
    rw [moves.latches, moves.cart]
    exact answers.select

end Console

namespace Cartridge

variable {cart : Cartridge} {commands : WriteLog} {offset index : Nat}

/-- An address stands for a cell just when RAM answers there and reaches so far. -/
theorem ramCell?_eq_some_iff :
    cart.ramCell? commands offset = some index ↔
      index < cart.ramSize ∧ (cart.answering commands offset = .nibble index ∨
        cart.answering commands offset = .cell index) := by
  unfold ramCell?
  cases cart.answering commands offset with
  | nibble other | cell other =>
    simp only [Option.ite_none_right_eq_some, Option.some.injEq, Console.RamTarget.nibble.injEq,
      Console.RamTarget.cell.injEq, reduceCtorEq, or_false, false_or]
    exact ⟨fun ⟨inside, same⟩ => ⟨same ▸ inside, same⟩, fun ⟨inside, same⟩ => ⟨same ▸ inside, same⟩⟩
  | closed | clock => simp

theorem mbc2_of_nibble (answers : cart.answering commands offset = .nibble index) :
    cart.controller = .mbc2 ∧ index < 0x200 := by
  unfold answering at answers
  dsimp only at answers
  cases chip : cart.controller <;> grind

theorem not_mbc2_of_cell (answers : cart.answering commands offset = .cell index) :
    cart.controller ≠ .mbc2 := by
  intro chip
  simp only [answering, chip] at answers
  split at answers <;> cases answers

end Cartridge

namespace Console

/-- The cartridge is in the slot, the controller is as the commands have left it, and each cell of
RAM holds what was last stored in it. -/
structure Follows (cart : Cartridge) (log : WriteLog) (c : Console) : Prop where
  inserted : c.cart = cart
  romBanks : c.hw.romBanks.toNat = cart.romBanks
  size : c.hw.cartRam.size = cart.ramSize
  answers : c.Answers log.commands
  stored (index : Nat) (inside : index < cart.ramSize) :
    c.hw.cartRam.read index = (cart.lastStored? log index).getD 0

namespace Follows

variable {cart : Cartridge} {log : WriteLog} {c : Console}

/-- What answers in the RAM window is what the commands have selected. -/
theorem ramTarget (follows : c.Follows cart log) (wellFormed : cart.WellFormed)
    (inside : offset < 0x2000) : c.ramTarget offset = cart.answering log.commands offset := by
  obtain ⟨rfl, romBanks, size, ⟨reflects, enabled, select⟩, -⟩ := follows
  have ramBanks : c.hw.ramBanks = c.cart.ramBanks := by
    rw [Hardware.ramBanks, size, Cartridge.ramBanks]
  have most : c.cart.ramBanks ≤ 16 := by
    have most := wellFormed.ram
    rw [Cartridge.ramBanks, ramBankSize]
    omega
  obtain ⟨-, -, bank⟩ :=
    c.cart.controller.shown_lt wellFormed.banks c.cart.ramBanks log.commands
  have cell : (c.hw.banks.ramOffset + UInt64.ofNat offset).toNat =
      (c.cart.controller.shown c.cart.romBanks c.cart.ramBanks log.commands).ram * 0x2000 +
        offset := by
    have shows := reflects.shows.ram
    rw [romBanks, ramBanks] at shows
    rw [shows, UInt64.toNat_add, UInt64.toNat_ofNat', UInt64.toNat_ofNat', ramBankSize]
    omega
  unfold Console.ramTarget Cartridge.answering
  simp only [enabled, cell]
  cases chip : c.cart.controller with
  | mbc3 => simp [select chip]
  | fixed | mbc1 | mbc2 | mbc5 => simp [Header.mbc2RamSize]

/-- An access of a cell reads what it holds, and stores what it keeps. -/
theorem cell (follows : c.Follows cart log) (wellFormed : cart.WellFormed)
    (inside : offset < 0x2000) (shown : cart.ramCell? log.commands offset = some index) :
    c.readRam offset =
        (if cart.controller = .mbc2 then 0xF0 ||| c.hw.cartRam.read index
        else c.hw.cartRam.read index) ∧
      ∀ v, c.writeRam offset v = c.storeRam index (cart.kept v) := by
  have target := follows.ramTarget wellFormed inside
  obtain ⟨present, answers⟩ := Cartridge.ramCell?_eq_some_iff.mp shown
  rcases answers with nibble | whole
  · have mbc2 := (Cartridge.mbc2_of_nibble nibble).1
    rw [nibble] at target
    simp [readRam, writeRam, target, mbc2, Cartridge.kept]
  · have other := Cartridge.not_mbc2_of_cell whole
    rw [whole] at target
    simp [readRam, writeRam, target, other, Cartridge.kept, follows.size, present]

/-- An access of a register of the clock never reaches RAM. -/
theorem register {register : Nat} (follows : c.Follows cart log) (wellFormed : cart.WellFormed)
    (inside : offset < 0x2000) (shown : cart.answering log.commands offset = .clock register) :
    c.readRam offset = c.hw.clock.readRegister register ∧
      ∀ v, c.writeRam offset v = c.mapClock (·.writeRegister register v) := by
  have target := follows.ramTarget wellFormed inside
  rw [shown] at target
  simp [readRam, writeRam, target]

/-- Where nothing answers, a read sees the open bus and a write does nothing. -/
theorem nothing (follows : c.Follows cart log) (wellFormed : cart.WellFormed)
    (inside : offset < 0x2000) (empty : cart.ramCell? log.commands offset = none)
    (other : ∀ register, cart.answering log.commands offset ≠ .clock register) :
    c.readRam offset = openBus ∧ ∀ v, c.writeRam offset v = c := by
  have target := follows.ramTarget wellFormed inside
  unfold Cartridge.ramCell? at empty
  cases answers : cart.answering log.commands offset with
  | closed =>
    rw [answers] at target
    simp [readRam, writeRam, target]
  | nibble index =>
    obtain ⟨mbc2, below⟩ := Cartridge.mbc2_of_nibble answers
    simp [answers, wellFormed.mbc2 mbc2, Header.mbc2RamSize] at empty
    omega
  | clock register => exact absurd answers (other register)
  | cell index =>
    rw [answers] at target
    simp [answers] at empty
    have beyond : c.hw.cartRam.read index = openBus := by
      rw [Memory.read, dif_neg]
      exact Nat.not_lt.mpr (Nat.le_trans (Nat.le_of_eq follows.size) empty)
    simp [readRam, writeRam, target, follows.size, Nat.not_lt.mpr empty, beyond]

/-- Where an address of the RAM window lies in it. -/
theorem window (inRam : Region.cartRam.Spans address) :
    address.toNat % ramBankSize = address.toNat - 0xA000 := by
  obtain ⟨above, below⟩ := inRam
  rw [ramBankSize]
  omega

theorem powerOn (wellFormed : cart.WellFormed) (model : Model) :
    (Console.powerOn cart model).Follows cart [] where
  inserted := rfl
  romBanks := (powerOn_orderly wellFormed model).toFits.toNat_romBanks
  size := Memory.size_zeros _
  answers :=
    { reflects := powerOn_reflects wellFormed model
      enabled := by
        have enabled : (Console.powerOn cart model).hw.banks.ramEnabled =
            decide (cart.controller = .fixed) := rfl
        have same : (Console.powerOn cart model).cart = cart := rfl
        rw [enabled, same]
        cases cart.controller <;> rfl
      select := fun _ => rfl }
  stored _ inside := Memory.read_zeros inside

theorem command (follows : c.Follows cart log) (inRom : address.toNat < 0x8000) (v : UInt8) :
    (c.writeRom address v).Follows cart ((address, v) :: log) := by
  have answers := follows.answers.writeRom inRom v
  obtain ⟨banks, clock, fault, written⟩ := c.writeRom_eq address v
  rw [written] at answers ⊢
  have outside : ¬Region.cartRam.Spans address := fun inRam =>
    Nat.not_le.mpr inRom (Nat.le_trans (by decide) inRam.1)
  constructor
  · exact follows.inserted
  · exact follows.romBanks
  · exact follows.size
  · rw [log.commands_rom inRom]
    exact answers
  · intro index inside
    rw [Cartridge.lastStored?, if_neg fun stored => outside stored.1]
    exact follows.stored index inside

theorem access (follows : c.Follows cart log) (wellFormed : cart.WellFormed)
    (inRam : Region.cartRam.Spans address) (v : UInt8) :
    (c.writeRam (address.toNat - 0xA000) v).Follows cart ((address, v) :: log) := by
  have moves : c.Moves 0 (c.writeRam (address.toNat - 0xA000) v) := by
    have other : Region.cartRam ≠ .rom := by decide
    have apart := c.writeRegion_apart other address v
    rw [← window inRam]
    exact ⟨c.writeRegion_evolves inRam v, apart.latches⟩
  have inside : address.toNat - 0xA000 < 0x2000 := Nat.sub_lt_left_of_lt_add inRam.1 inRam.2
  constructor
  · exact moves.cart.trans follows.inserted
  · rw [moves.romBanks, follows.romBanks]
  · exact moves.cartRam.trans follows.size
  · rw [log.commands_cartRam inRam]
    exact follows.answers.moves moves
  · intro other present
    have kept := follows.stored other present
    rw [Cartridge.lastStored?]
    cases shown : cart.ramCell? log.commands (address.toNat - 0xA000) with
    | some index =>
      have there := (Cartridge.ramCell?_eq_some_iff.mp shown).1
      rw [(follows.cell wellFormed inside shown).2, storeRam,
        Memory.read_write (Nat.lt_of_lt_of_eq there follows.size.symm)]
      by_cases same : other = index
      · simp [same, inRam]
      · simp [same, Ne.symm same, kept]
    | none =>
      have still : (c.writeRam (address.toNat - 0xA000) v).hw.cartRam = c.hw.cartRam := by
        by_cases clock : ∃ register, cart.answering log.commands (address.toNat - 0xA000) =
            .clock register
        · obtain ⟨register, clock⟩ := clock
          rw [(follows.register wellFormed inside clock).2]
          rfl
        · rw [(follows.nothing wellFormed inside shown (not_exists.mp clock)).2]
      simp [still, kept]

end Follows

end Console

/-- Nothing but cartridge RAM lies where cartridge RAM does. -/
theorem Region.ofAddress_cartRam (inside : Region.cartRam.Spans address) :
    ofAddress address = .cartRam := by
  have spans := spans_ofAddress address
  generalize ofAddress address = region at spans
  cases region with
  | cartRam => rfl
  | _ =>
    simp only [Spans] at inside spans
    omega

/-- An operation that reaches nothing but the cartridge. -/
def Operation.OnCartridge : Operation → Prop
  | .read address => Region.cartRam.Spans address
  | .write address _ => address.toNat < 0x8000 ∨ Region.cartRam.Spans address
  | _ => False

/-- The writes among some operations, the latest first. -/
def writeLog (operations : List Operation) : WriteLog :=
  operations.foldl (fun log op =>
    match op with
    | .write address v => (address, v) :: log
    | _ => log) []

namespace Machine

variable {m : Machine σ}

theorem read_cartRam (bare : m.handlers = []) (inRam : Region.cartRam.Spans address) :
    m.read address = (m.console.readRam (address.toNat - 0xA000), m) := by
  rw [read, m.route_bare bare, Region.ofAddress_cartRam inRam, ← Console.Follows.window inRam]
  rfl

theorem write_cartRam (bare : m.handlers = []) (inRam : Region.cartRam.Spans address) (v : UInt8) :
    m.write address v = m.mapConsole (·.writeRam (address.toNat - 0xA000) v) := by
  rw [write, m.route_bare bare, Region.ofAddress_cartRam inRam, ← Console.Follows.window inRam]
  rfl

theorem write_rom (bare : m.handlers = []) (inRom : address.toNat < 0x8000) (v : UInt8) :
    m.write address v = m.mapConsole (·.writeRom address v) := by
  have region : Region.ofAddress address = .rom := if_pos (UInt16.lt_iff_toNat_lt.mpr inRom)
  rw [write, m.route_bare bare, region]
  rfl

/-- Accesses of the cartridge keep every cell as the log says. -/
theorem after_follows (wellFormed : cart.WellFormed) (bare : m.handlers = [])
    (follows : m.console.Follows cart []) {operations : List Operation}
    (allowed : ∀ op ∈ operations, op.OnCartridge) :
    (m.after operations).handlers = [] ∧
      (m.after operations).console.Follows cart (writeLog operations) := by
  induction operations using List.reverseRecOn with
  | nil => exact ⟨bare, follows⟩
  | append_singleton operations op ih =>
    obtain ⟨bareBefore, before⟩ := ih fun op earlier => allowed op (List.mem_append_left _ earlier)
    have onCartridge := allowed op (List.mem_append_right _ (.head _))
    simp only [after, writeLog, List.foldl_append, List.foldl_cons, List.foldl_nil] at *
    cases op with
    | read address =>
      rw [perform, read_bare _ bareBefore]
      exact ⟨bareBefore, before⟩
    | write address v =>
      rw [perform]
      rcases onCartridge with inRom | inRam
      · rw [write_rom bareBefore inRom]
        exact ⟨bareBefore, before.command inRom v⟩
      · rw [write_cartRam bareBefore inRam]
        exact ⟨bareBefore, before.access wellFormed inRam v⟩
    | tick | run | hblank | setVramAccessible | setOamAccessible | request | acknowledge
      | loadBattery => exact absurd onCartridge id

/-- Cartridge RAM after any accesses of the cartridge. The latest write to the enable register
decides whether it answers; each address of the window leads to the cell that the commands select,
which reads as what was last stored in it and is the only one that a write changes. A selected
register of the clock is read and written in place of RAM. Where neither answers, a read sees the
open bus and a write does nothing. Commands change no byte of RAM and nothing in the slot. -/
theorem ram_follows_log (accepted : Cartridge.ofImage image = .ok cart) (model : Option Model)
    (devices : σ) (operations : List Operation)
    (allowed : ∀ op ∈ operations, op.OnCartridge) :
    let m := (powerOn cart model devices).after operations
    let log := writeLog operations
    m.console.hw.banks.ramEnabled = log.commands.enablesRam cart.controller ∧
    (∀ cell < cart.ramSize,
      m.console.hw.cartRam.read cell = (cart.lastStored? log cell).getD 0) ∧
    (∀ address v, address.toNat < 0x8000 →
      (m.write address v).console.hw.cartRam = m.console.hw.cartRam ∧
        (m.write address v).console.cart = cart) ∧
    ∀ address, Region.cartRam.Spans address →
      let offset := address.toNat - 0xA000
      (m.read address).2 = m ∧
      (∀ cell, cart.ramCell? log.commands offset = some cell →
        let held := (cart.lastStored? log cell).getD 0
        (m.read address).1 = (if cart.controller = .mbc2 then 0xF0 ||| held else held) ∧
          ∀ v, m.write address v = m.mapConsole (·.storeRam cell (cart.kept v))) ∧
      (∀ register, cart.answering log.commands offset = .clock register →
        (m.read address).1 = m.console.hw.clock.readRegister register ∧
          ∀ v, m.write address v = m.mapConsole (·.mapClock (·.writeRegister register v))) ∧
      (cart.ramCell? log.commands offset = none →
        (∀ register, cart.answering log.commands offset ≠ .clock register) →
          (m.read address).1 = 0xFF ∧ ∀ v, m.write address v = m) := by
  intro m log
  obtain ⟨wellFormed, -⟩ := Cartridge.ofImage_wellFormed accepted
  obtain ⟨bare, follows⟩ := after_follows (m := powerOn cart model devices) wellFormed rfl
    (.powerOn wellFormed _) allowed
  refine ⟨?_, follows.stored, ?_, ?_⟩
  · exact follows.inserted ▸ follows.answers.enabled
  · intro address v inRom
    obtain ⟨banks, clock, fault, written⟩ := m.console.writeRom_eq address v
    rw [write_rom bare inRom, mapConsole, written]
    exact ⟨rfl, follows.inserted⟩
  · intro address inRam offset
    have inside : offset < 0x2000 := Nat.sub_lt_left_of_lt_add inRam.1 inRam.2
    simp only [read_cartRam bare inRam, write_cartRam bare inRam, m]
    refine ⟨trivial, ?_, ?_, ?_⟩
    · intro cell shown
      obtain ⟨reads, stores⟩ := follows.cell wellFormed inside shown
      have present := (Cartridge.ramCell?_eq_some_iff.mp shown).1
      rw [follows.stored cell present] at reads
      exact ⟨reads, fun v => congrArg (fun console => { m with console }) (stores v)⟩
    · intro register shown
      obtain ⟨reads, writes⟩ := follows.register wellFormed inside shown
      exact ⟨reads, fun v => congrArg (fun console => { m with console }) (writes v)⟩
    · intro empty other
      obtain ⟨reads, nothing⟩ := follows.nothing wellFormed inside empty other
      exact ⟨reads, fun v => congrArg (fun console => { m with console }) (nothing v)⟩

/-- The banks of an MBC1 in its second mode keep their bytes apart. -/
theorem ram_follows_log_banked :
    ∃ cart, Cartridge.ofImage (Cartridge.blankImage 0x03 3) = .ok cart ∧
      let m := (powerOn cart none ()).after
        [.write 0x0000 0x0A, .write 0x6000 1, .write 0x4000 2, .write 0xA123 7, .write 0x4000 1,
          .write 0xA123 9, .write 0x4000 2]
      (m.read 0xA123).1 = 7 := by
  obtain ⟨cart, accepted, mbc1, size⟩ := Cartridge.ofImage_blank 0x03 3 rfl rfl
  refine ⟨cart, accepted, ?_⟩
  intro m
  obtain ⟨-, -, -, window⟩ := ram_follows_log accepted none () [.write 0x0000 0x0A,
    .write 0x6000 1, .write 0x4000 2, .write 0xA123 7, .write 0x4000 1, .write 0xA123 9,
    .write 0x4000 2] (by
      simp only [List.mem_cons, List.not_mem_nil, or_false, forall_eq_or_imp, forall_eq,
        Operation.OnCartridge]
      decide)
  obtain ⟨-, cell, -⟩ := window 0xA123 (by decide)
  have leads (commands : WriteLog) (enabled : commands.enablesRam .mbc1 = true)
      (mode : commands.mbc1Mode = true) :
      cart.ramCell? commands 0x123 = some (commands.mbc1High.toNat % 4 * 0x2000 + 0x123) := by
    have banks : cart.ramBanks = 4 := by simp [Cartridge.ramBanks, size, ramBankSize]
    simp [Cartridge.ramCell?, Cartridge.answering, mbc1, enabled, Controller.shown, mode, banks,
      size, ramBankSize]
    omega
  have other : cart.ramCell? (WriteLog.commands [(0x4000, 1), (0xA123, 7), (0x4000, 2), (0x6000, 1),
      (0x0000, 0x0A)]) 0x123 = some 0x2123 := (leads _ (by decide) (by decide)).trans (by decide)
  have first : cart.ramCell? (WriteLog.commands [(0x4000, 2), (0x6000, 1), (0x0000, 0x0A)]) 0x123 =
      some 0x4123 := (leads _ (by decide) (by decide)).trans (by decide)
  have stored : cart.lastStored? [(0x4000, 2), (0xA123, 9), (0x4000, 1), (0xA123, 7), (0x4000, 2),
      (0x6000, 1), (0x0000, 0x0A)] 0x4123 = some 7 := by
    simp [Cartridge.lastStored?, Region.Spans, other, first, Cartridge.kept, mbc1]
  obtain ⟨reads, -⟩ := cell 0x4123 ((leads _ (by decide) (by decide)).trans (by decide))
  refine reads.trans ?_
  rw [mbc1, if_neg (by decide)]
  exact congrArg (·.getD 0) stored

end Machine

end GameBoy
