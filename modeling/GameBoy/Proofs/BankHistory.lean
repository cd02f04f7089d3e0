import GameBoy.Proofs.Reach

/-!
The banks that a cartridge shows, as a matter of what was written to its controller. A machine whose
ROM windows are recorded runs as the machine itself and keeps a log of the writes to them; the
offsets of the banks are those that the log gives. Main statement: `banks_shown`.
-/

namespace GameBoy

/-- The writes to the ROM windows, the latest first. -/
abbrev WriteLog := List (UInt16 × UInt8)

namespace WriteLog

/-- What was last written by a write of a kind. -/
def latest? (log : WriteLog) (kind : Nat → UInt8 → Bool) : Option UInt8 :=
  (log.find? fun entry => kind entry.1.toNat entry.2).map Prod.snd

/-- What was last written to a range of addresses. -/
def latestIn? (log : WriteLog) (first beyond : Nat) : Option UInt8 :=
  log.latest? fun address _ => first ≤ address ∧ address < beyond

theorem latest?_cons (log : WriteLog) (address : UInt16) (v : UInt8) (kind : Nat → UInt8 → Bool) :
    latest? ((address, v) :: log) kind =
      if kind address.toNat v then some v else log.latest? kind := by
  unfold latest?
  rw [List.find?_cons]
  cases kind address.toNat v <;> rfl

theorem latestIn?_cons (log : WriteLog) (address : UInt16) (v : UInt8) (first beyond : Nat) :
    latestIn? ((address, v) :: log) first beyond =
      if first ≤ address.toNat ∧ address.toNat < beyond then some v
      else log.latestIn? first beyond := by
  rw [latestIn?, latest?_cons]
  simp only [decide_eq_true_eq]
  rfl

/-! The selects of each controller. -/

def mbc1Low (log : WriteLog) : UInt8 := (log.latestIn? 0x2000 0x4000).getD 1 % 32

def mbc1High (log : WriteLog) : UInt8 := (log.latestIn? 0x4000 0x6000).getD 0 % 4

def mbc1Mode (log : WriteLog) : Bool := (log.latestIn? 0x6000 0x8000).getD 0 % 2 = 1

/-- The latch of an MBC2 that bit 8 of the address leads to. -/
def mbc2Rom (log : WriteLog) : UInt8 :=
  (log.latest? fun address _ => address < 0x4000 ∧ address / 0x100 % 2 = 1).getD 1 % 16

def mbc3Rom (log : WriteLog) : UInt8 := (log.latestIn? 0x2000 0x4000).getD 1 % 128

/-- Only numbers below eight select RAM. -/
def mbc3Ram (log : WriteLog) : UInt8 :=
  (log.latest? fun address v => (0x4000 ≤ address ∧ address < 0x6000) ∧ v < 8).getD 0

def mbc5Low (log : WriteLog) : UInt8 := (log.latestIn? 0x2000 0x3000).getD 1

def mbc5High (log : WriteLog) : UInt8 := (log.latestIn? 0x3000 0x4000).getD 0 % 2

def mbc5Ram (log : WriteLog) : UInt8 := (log.latestIn? 0x4000 0x6000).getD 0 % 16

end WriteLog

/-- The banks that appear in the two ROM windows and in the RAM window. -/
@[ext]
structure Shown where
  rom0 : Nat := 0
  rom1 : Nat
  ram : Nat := 0
deriving DecidableEq

/-- The banks that a controller shows after some writes. -/
def Controller.shown (chip : Controller) (romBanks ramBanks : Nat) (log : WriteLog) : Shown :=
  match chip with
  | .fixed => { rom1 := 1 }
  | .mbc1 =>
    let secondary := if log.mbc1Mode then log.mbc1High.toNat else 0
    { rom0 := secondary * 32 % romBanks
      rom1 := (log.mbc1High.toNat * 32 ||| max log.mbc1Low.toNat 1) % romBanks
      ram := secondary % max ramBanks 1 }
  | .mbc2 => { rom1 := max log.mbc2Rom.toNat 1 % romBanks }
  | .mbc3 =>
    { rom1 := max log.mbc3Rom.toNat 1 % romBanks
      ram := log.mbc3Ram.toNat % max ramBanks 1 }
  | .mbc5 =>
    { rom1 := (log.mbc5High.toNat * 256 + log.mbc5Low.toNat) % romBanks
      ram := log.mbc5Ram.toNat % max ramBanks 1 }

/-- Before the first write, the windows show the first banks. -/
theorem Controller.shown_nil (chip : Controller) (banks : 2 ≤ romBanks) (ramBanks : Nat) :
    chip.shown romBanks ramBanks [] = { rom1 := 1 } := by
  have one : 1 % romBanks = 1 := Nat.mod_eq_of_lt banks
  have zero : 0 % romBanks = 0 := Nat.zero_mod romBanks
  have zeroRam : 0 % max ramBanks 1 = 0 := Nat.zero_mod _
  cases chip with
  | fixed => rfl
  | mbc1 => exact Shown.ext zero one zeroRam
  | mbc2 => exact Shown.ext rfl one rfl
  | mbc3 | mbc5 => exact Shown.ext rfl one zeroRam

/-- All that is shown is there. -/
theorem Controller.shown_lt (chip : Controller) (banks : 2 ≤ romBanks) (ramBanks : Nat)
    (log : WriteLog) :
    let s := chip.shown romBanks ramBanks log
    s.rom0 < romBanks ∧ s.rom1 < romBanks ∧ s.ram < max ramBanks 1 := by
  have some : 0 < romBanks := by omega
  have someRam : 0 < max ramBanks 1 := by omega
  cases chip with
  | fixed => exact ⟨some, banks, someRam⟩
  | mbc1 => exact ⟨Nat.mod_lt _ some, Nat.mod_lt _ some, Nat.mod_lt _ someRam⟩
  | mbc2 => exact ⟨some, Nat.mod_lt _ some, someRam⟩
  | mbc3 | mbc5 => exact ⟨some, Nat.mod_lt _ some, Nat.mod_lt _ someRam⟩

namespace Banks

/-- The offsets are those of the banks that are shown. -/
structure Shows (b : Banks) (s : Shown) : Prop where
  rom0 : b.rom0Offset = UInt64.ofNat (s.rom0 * romBankSize)
  rom1 : b.rom1Offset = UInt64.ofNat (s.rom1 * romBankSize)
  ram : b.ramOffset = UInt64.ofNat (s.ram * ramBankSize)

/-- The latches that banks are computed from hold what the log says was written to them. The other
controllers compute each bank from a single write. -/
def Latched (b : Banks) (log : WriteLog) : Controller → Prop
  | .mbc1 =>
    b.romSelectLow = log.mbc1Low ∧ b.romSelectHigh = log.mbc1High ∧ b.mode = log.mbc1Mode
  | .mbc5 => b.romSelectLow = log.mbc5Low ∧ b.romSelectHigh = log.mbc5High
  | _ => True

/-- Latches and offsets are as the log of writes says. -/
structure Reflects (b : Banks) (chip : Controller) (romBanks ramBanks : Nat) (log : WriteLog) :
    Prop where
  latched : b.Latched log chip
  shows : b.Shows (chip.shown romBanks ramBanks log)

variable {b : Banks} {log : WriteLog} {romBanks ramBanks : Nat}

/-- A write to an MBC1 sets one of its latches, and all offsets are computed again. -/
theorem Reflects.mbc1Write (reflects : b.Reflects .mbc1 romBanks ramBanks log) (address : UInt16)
    (inRom : address.toNat < 0x8000) (v : UInt8) :
    (b.mbc1Write romBanks ramBanks address v).Reflects .mbc1 romBanks ramBanks
      ((address, v) :: log) := by
  obtain ⟨low, high, mode⟩ := reflects.latched
  have latched : (b.mbc1Latch address v).Latched ((address, v) :: log) .mbc1 := by
    simp only [Latched, WriteLog.mbc1Low, WriteLog.mbc1High, WriteLog.mbc1Mode,
      WriteLog.latestIn?_cons, mbc1Latch, UInt16.lt_iff_toNat_lt, UInt16.reduceToNat]
    have ranges : address.toNat < 0x2000 ∨ (0x2000 ≤ address.toNat ∧ address.toNat < 0x4000) ∨
        (0x4000 ≤ address.toNat ∧ address.toNat < 0x6000) ∨ 0x6000 ≤ address.toNat := by omega
    rcases ranges with enable | range | range | range
    all_goals simp (disch := omega) only [if_pos, if_neg]
    · exact ⟨low, high, mode⟩
    · exact ⟨rfl, high, mode⟩
    · exact ⟨low, rfl, mode⟩
    · exact ⟨low, high, rfl⟩
  refine ⟨latched, ?_⟩
  obtain ⟨low, high, mode⟩ := latched
  constructor
  · simp only [Banks.mbc1Write, mbc1Resolve, romOffsetOf, high, mode, Controller.shown]
  · simp only [Banks.mbc1Write, mbc1Resolve, mbc1Bank, romOffsetOf, low, high, Controller.shown]
  · simp only [Banks.mbc1Write, mbc1Resolve, ramOffsetOf, high, mode, Controller.shown]

/-- A bank number of at least one is the same as a byte and as a number. -/
private theorem toNat_max_one (v : UInt8) : (max v 1).toNat = max v.toNat 1 := by
  have same : v ≤ 1 ↔ v.toNat ≤ 1 := UInt8.le_iff_toNat_le
  show (if v ≤ 1 then 1 else v).toNat = _
  rw [Nat.max_def]
  split
  · rw [if_pos (same.mp ‹_›)]
    rfl
  · rw [if_neg (mt same.mpr ‹_›)]

/-- Only writes below 0x4000 with bit 8 of the address set select a bank. -/
theorem Reflects.mbc2Write (reflects : b.Reflects .mbc2 romBanks ramBanks log) (address : UInt16)
    (v : UInt8) :
    (b.mbc2Write romBanks address v).Reflects .mbc2 romBanks ramBanks ((address, v) :: log) := by
  obtain ⟨rom0, rom1, ram⟩ := reflects.shows
  refine ⟨trivial, ?_⟩
  simp only [Banks.mbc2Write, Controller.shown, WriteLog.mbc2Rom, WriteLog.latest?_cons,
    decide_eq_true_eq, UInt16.le_iff_toNat_le, ← UInt16.toNat_inj, UInt16.toNat_mod,
    UInt16.toNat_div, UInt16.reduceToNat]
  have ranges : 0x4000 ≤ address.toNat ∨
      (address.toNat < 0x4000 ∧ address.toNat / 0x100 % 2 = 0) ∨
        (address.toNat < 0x4000 ∧ address.toNat / 0x100 % 2 = 1) := by omega
  rcases ranges with above | ⟨low, even⟩ | ⟨low, odd⟩
  all_goals simp (disch := omega) only [if_pos, if_neg]
  · exact ⟨rom0, rom1, ram⟩
  · exact ⟨rom0, rom1, ram⟩
  · refine ⟨rom0, ?_, ram⟩
    rw [selectRom, romOffsetOf, toNat_max_one]
    rfl

/-- Below 0x4000 an MBC3 only selects ROM. -/
theorem Reflects.mbc3Write (reflects : b.Reflects .mbc3 romBanks ramBanks log) (address : UInt16)
    (low : address.toNat < 0x4000) (v : UInt8) :
    (b.mbc3Write romBanks address v).Reflects .mbc3 romBanks ramBanks ((address, v) :: log) := by
  obtain ⟨rom0, rom1, ram⟩ := reflects.shows
  refine ⟨trivial, ?_⟩
  simp only [Banks.mbc3Write, Controller.shown, WriteLog.mbc3Rom, WriteLog.mbc3Ram,
    WriteLog.latest?_cons, WriteLog.latestIn?_cons, decide_eq_true_eq, UInt16.lt_iff_toNat_lt,
    UInt16.reduceToNat]
  by_cases enable : address.toNat < 0x2000
  all_goals simp (disch := omega) only [if_pos, if_neg]
  · exact ⟨rom0, rom1, ram⟩
  · refine ⟨rom0, ?_, ram⟩
    rw [selectRom, romOffsetOf, toNat_max_one]
    rfl

/-- From 0x6000 on an MBC3 has its clock, which is no matter of banks. -/
theorem Reflects.mbc3Clock (reflects : b.Reflects .mbc3 romBanks ramBanks log) {address : UInt16}
    (above : 0x6000 ≤ address.toNat) (v : UInt8) :
    b.Reflects .mbc3 romBanks ramBanks ((address, v) :: log) := by
  obtain ⟨rom0, rom1, ram⟩ := reflects.shows
  refine ⟨trivial, ?_⟩
  simp only [Controller.shown, WriteLog.mbc3Rom, WriteLog.mbc3Ram, WriteLog.latest?_cons,
    WriteLog.latestIn?_cons, decide_eq_true_eq]
  simp (disch := omega) only [if_neg]
  exact ⟨rom0, rom1, ram⟩

/-- Each write to an MBC5 below 0x4000 computes the ROM bank again from both latches. -/
theorem Reflects.mbc5Write (reflects : b.Reflects .mbc5 romBanks ramBanks log) (address : UInt16)
    (v : UInt8) :
    (b.mbc5Write romBanks ramBanks address v).Reflects .mbc5 romBanks ramBanks
      ((address, v) :: log) := by
  obtain ⟨rom0, rom1, ram⟩ := reflects.shows
  obtain ⟨low, high⟩ := reflects.latched
  have ranges : address.toNat < 0x2000 ∨ (0x2000 ≤ address.toNat ∧ address.toNat < 0x3000) ∨
      (0x3000 ≤ address.toNat ∧ address.toNat < 0x4000) ∨
        (0x4000 ≤ address.toNat ∧ address.toNat < 0x6000) ∨ 0x6000 ≤ address.toNat := by omega
  constructor
  all_goals
    simp only [Latched, Controller.shown, WriteLog.mbc5Low, WriteLog.mbc5High, WriteLog.mbc5Ram,
      WriteLog.latestIn?_cons, Banks.mbc5Write, UInt16.lt_iff_toNat_lt, UInt16.reduceToNat]
    rcases ranges with range | range | range | range | range
    all_goals simp (disch := omega) only [if_pos, if_neg]
  · exact ⟨low, high⟩
  · exact ⟨rfl, high⟩
  · exact ⟨low, rfl⟩
  · exact ⟨low, high⟩
  · exact ⟨low, high⟩
  · refine ⟨rom0, ?_, ram⟩
    simp only [selectRom, romOffsetOf, mbc5Bank, low, high]
    rfl
  · refine ⟨rom0, ?_, ram⟩
    simp only [selectRom, romOffsetOf, mbc5Bank, high]
    rfl
  · refine ⟨rom0, ?_, ram⟩
    simp only [selectRom, romOffsetOf, mbc5Bank, low]
    rfl
  · exact ⟨rom0, rom1, rfl⟩
  · exact ⟨rom0, rom1, ram⟩

end Banks

namespace Console

/-- The banks that appear are those that a log of the writes to the ROM windows gives. -/
def Reflects (c : Console) (log : WriteLog) : Prop :=
  c.hw.banks.Reflects c.cart.controller c.hw.romBanks.toNat c.hw.ramBanks log

theorem Reflects.moves {c d : Console} (reflects : c.Reflects log) (moves : c.Moves ticks d) :
    d.Reflects log := by
  unfold Reflects Hardware.ramBanks
  rw [moves.latches, moves.cart, moves.romBanks, moves.cartRam]
  exact reflects

/-- Clock registers and refused numbers leave the banks as they are. -/
theorem mbc3Select_reflects {c : Console}
    (reflects : c.hw.banks.Reflects .mbc3 romBanks c.hw.ramBanks log) {address : UInt16}
    (above : 0x4000 ≤ address.toNat) (below : address.toNat < 0x6000) (v : UInt8) :
    (c.mbc3Select v).hw.banks.Reflects .mbc3 romBanks c.hw.ramBanks ((address, v) :: log) := by
  obtain ⟨rom0, rom1, ram⟩ := reflects.shows
  have outside : ¬(0x2000 ≤ address.toNat ∧ address.toNat < 0x4000) := by omega
  refine ⟨trivial, ?_⟩
  simp only [Controller.shown, WriteLog.mbc3Rom, WriteLog.mbc3Ram, WriteLog.latest?_cons,
    WriteLog.latestIn?_cons, outside, above, below, decide_eq_true_eq, true_and, if_false]
  unfold mbc3Select
  by_cases bank : v < 8
  · rw [if_pos bank, if_pos bank]
    exact ⟨rom0, rom1, rfl⟩
  · rw [if_neg bank, if_neg bank]
    split <;> exact ⟨rom0, rom1, ram⟩

/-- Whatever is written to the ROM windows, the offsets follow the log. -/
theorem Reflects.writeRom {c : Console} (reflects : c.Reflects log) (address : UInt16)
    (inRom : address.toNat < 0x8000) (v : UInt8) :
    (c.writeRom address v).Reflects ((address, v) :: log) := by
  have evolves := c.writeRom_evolves address v
  unfold Reflects Hardware.ramBanks at reflects ⊢
  rw [evolves.cart, evolves.romBanks, evolves.cartRam]
  unfold Console.writeRom
  cases chip : c.cart.controller with
  | fixed =>
    rw [chip] at reflects
    exact ⟨trivial, reflects.shows⟩
  | mbc1 =>
    rw [chip] at reflects
    exact reflects.mbc1Write address inRom v
  | mbc2 =>
    rw [chip] at reflects
    exact reflects.mbc2Write address v
  | mbc3 =>
    rw [chip] at reflects
    simp only [UInt16.lt_iff_toNat_lt, UInt16.reduceToNat]
    split
    · exact reflects.mbc3Write address ‹_› v
    · split
      · exact mbc3Select_reflects reflects (Nat.le_of_not_lt ‹_›) ‹_› v
      · exact reflects.mbc3Clock (Nat.le_of_not_lt ‹_›) v
  | mbc5 =>
    rw [chip] at reflects
    exact reflects.mbc5Write address v

theorem powerOn_reflects {game : Cartridge} (wellFormed : game.WellFormed) (model : Model) :
    (powerOn game model).Reflects [] := by
  have banks : (powerOn game model).hw.romBanks.toNat = game.romBanks :=
    (powerOn_orderly wellFormed model).toFits.toNat_romBanks
  unfold Reflects
  rw [banks]
  constructor
  · cases (powerOn game model).cart.controller with
    | mbc1 => exact ⟨rfl, rfl, rfl⟩
    | mbc5 => exact ⟨rfl, rfl⟩
    | _ => trivial
  · rw [Controller.shown_nil _ wellFormed.banks]
    exact ⟨rfl, rfl, rfl⟩

end Console

/-! Recording. -/

/-- A device that passes every access on to the ROM windows, and logs the writes. -/
def Handler.recorder : Handler WriteLog where
  read c address log := (c.readRegion .rom address, log)
  write c address v log := (c.writeRegion .rom address v, (address, v) :: log)

/-- The recorder at every address of the ROM windows. -/
@[irreducible]
def Handler.recording : List (UInt16 × Handler WriteLog) :=
  (List.range 0x8000).map fun address => (UInt16.ofNat address, .recorder)

namespace Machine

/-- The machine with a log of the writes to its ROM windows. -/
def recorded (m : Machine σ) : Machine WriteLog :=
  { console := m.console
    vramVisible := m.vramVisible
    oamVisible := m.oamVisible
    handlers := Handler.recording
    devices := [] }

theorem lookup_recording {address : UInt16} (inRom : address.toNat < 0x8000) :
    Handler.recording.lookup address = some .recorder := by
  have present : address ∈ (List.range 0x8000).map UInt16.ofNat :=
    List.mem_map.mpr ⟨address.toNat, List.mem_range.mpr inRom, UInt16.ofNat_toNat⟩
  unfold Handler.recording
  exact lookup_map_const _ present

theorem lookup_recording_above {address : UInt16} (above : 0x8000 ≤ address.toNat) :
    Handler.recording.lookup address = none := by
  unfold Handler.recording
  rw [List.lookup_eq_none_iff]
  intro entry member
  obtain ⟨n, inRange, rfl⟩ := List.mem_map.mp member
  have low : n < 0x8000 := List.mem_range.mp inRange
  have other : address ≠ UInt16.ofNat n := by
    rintro rfl
    rw [UInt16.toNat_ofNat'] at above
    omega
  exact bne_iff_ne.mpr other

/-- The recorded machine runs as the machine itself, and its log gives the banks that appear. -/
structure Recorded (m : Machine σ) (r : Machine WriteLog) : Prop where
  console : r.console = m.console
  vramVisible : r.vramVisible = m.vramVisible
  oamVisible : r.oamVisible = m.oamVisible
  bare : m.handlers = []
  recording : r.handlers = Handler.recording
  reflects : m.console.Reflects r.devices

namespace Recorded

variable {m : Machine σ} {r : Machine WriteLog}

theorem shows (recorded : m.Recorded r) (region : Region) : r.shows region = m.shows region := by
  unfold Machine.shows
  rw [recorded.vramVisible, recorded.oamVisible]

theorem moves (recorded : m.Recorded r) {f : Console → Console}
    (moves : ∀ c : Console, c.Moves ticks (f c)) : (m.mapConsole f).Recorded (r.mapConsole f) :=
  { recorded with
    console := congrArg f recorded.console
    reflects := recorded.reflects.moves (moves _) }

/-- The ROM windows are recorded. -/
theorem route_inRom (recorded : m.Recorded r) {address : UInt16} (inRom : address.toNat < 0x8000) :
    m.route address = .memory .rom ∧ r.route address = .handler .recorder := by
  have region : Region.ofAddress address = .rom := if_pos (UInt16.lt_iff_toNat_lt.mpr inRom)
  constructor
  · rw [m.route_bare recorded.bare, region]
    rfl
  · apply route_of_lookup
    rw [recorded.recording, lookup_recording inRom]

/-- Above them the bus leads where it always does. -/
theorem route_above (recorded : m.Recorded r) {address : UInt16}
    (above : 0x8000 ≤ address.toNat) :
    r.route address =
      if m.shows (.ofAddress address) then .memory (.ofAddress address) else .hidden := by
  rw [route, recorded.recording, lookup_recording_above above]
  dsimp only
  rw [recorded.shows]

theorem read (recorded : m.Recorded r) (address : UInt16) :
    (r.read address).1 = (m.read address).1 ∧ (m.read address).2.Recorded (r.read address).2 := by
  rw [m.read_bare recorded.bare]
  by_cases inRom : address.toNat < 0x8000
  · obtain ⟨own, watched⟩ := recorded.route_inRom inRom
    rw [Machine.read, Machine.read, own, watched, recorded.console]
    exact ⟨rfl, { recorded with console := rfl }⟩
  · rw [Machine.read, Machine.read, recorded.route_above (Nat.le_of_not_lt inRom),
      m.route_bare recorded.bare]
    by_cases shown : m.shows (.ofAddress address)
    · rw [if_pos shown, if_pos shown, recorded.console]
      exact ⟨rfl, recorded⟩
    · rw [if_neg shown, if_neg shown]
      exact ⟨rfl, recorded⟩

theorem write (recorded : m.Recorded r) (address : UInt16) (v : UInt8) :
    (m.write address v).Recorded (r.write address v) := by
  by_cases inRom : address.toNat < 0x8000
  · obtain ⟨own, watched⟩ := recorded.route_inRom inRom
    rw [Machine.write, Machine.write, own, watched, recorded.console]
    exact { recorded with
      console := rfl
      reflects := recorded.reflects.writeRom address inRom v }
  · rw [Machine.write, Machine.write, recorded.route_above (Nat.le_of_not_lt inRom),
      m.route_bare recorded.bare]
    by_cases shown : m.shows (.ofAddress address)
    · rw [if_pos shown, if_pos shown]
      have spans := Region.spans_ofAddress address
      have other : Region.ofAddress address ≠ .rom := by
        intro rom
        rw [rom] at spans
        exact inRom spans
      exact recorded.moves fun c =>
        ⟨c.writeRegion_evolves spans v, (c.writeRegion_apart other address v).latches⟩
    · rw [if_neg shown, if_neg shown]
      exact recorded

end Recorded

theorem recorded_simulation :
    SessionSimulation fun (_ : Nat) (m : Machine σ) (r : Machine WriteLog) => m.Recorded r where
  console recorded := recorded.console
  own recorded moves := recorded.moves moves
  read recorded address := recorded.read address
  write recorded address v := recorded.write address v
  setVramAccessible recorded accessible :=
    { recorded with
      console := congrArg
        (fun c : Console => { c with hw := { c.hw with vramAccessible := accessible } })
        recorded.console
      vramVisible := rfl
      reflects := ⟨recorded.reflects.latched, recorded.reflects.shows⟩ }
  setOamAccessible recorded accessible :=
    { recorded with
      console := congrArg
        (fun c : Console => { c with hw := { c.hw with oamAccessible := accessible } })
        recorded.console
      oamVisible := rfl
      reflects := ⟨recorded.reflects.latched, recorded.reflects.shows⟩ }

/-- Every write to the ROM windows is logged, and no other. -/
theorem Recorded.log_write {m : Machine σ} {r : Machine WriteLog} (recorded : m.Recorded r)
    (address : UInt16) (v : UInt8) :
    (r.write address v).devices =
      if address.toNat < 0x8000 then (address, v) :: r.devices else r.devices := by
  by_cases inRom : address.toNat < 0x8000
  · rw [if_pos inRom, Machine.write, (recorded.route_inRom inRom).2]
    rfl
  · rw [if_neg inRom, Machine.write, recorded.route_above (Nat.le_of_not_lt inRom)]
    by_cases shown : m.shows (.ofAddress address)
    · rw [if_pos shown]
      rfl
    · rw [if_neg shown]

end Machine

/-- Offsets of banks that are there are not too large for their width. -/
theorem Banks.Shows.toNat {b : Banks} {s : Shown} (shows : b.Shows s) (rom0 : s.rom0 < 512)
    (rom1 : s.rom1 < 512) (ram : s.ram < 512) :
    b.rom0Offset.toNat = 0x4000 * s.rom0 ∧ b.rom1Offset.toNat = 0x4000 * s.rom1 ∧
      b.ramOffset.toNat = 0x2000 * s.ram := by
  rw [shows.rom0, shows.rom1, shows.ram, romBankSize, ramBankSize]
  simp only [UInt64.toNat_ofNat']
  omega

/-- Reads of the ROM windows see the banks that the offsets lead to. -/
theorem Console.readRom_shown {c : Console} {s : Shown}
    (rom0 : s.rom0 < c.cart.romBanks) (rom1 : s.rom1 < c.cart.romBanks)
    (most : c.cart.romBanks ≤ 512)
    (offset0 : c.hw.banks.rom0Offset.toNat = 0x4000 * s.rom0)
    (offset1 : c.hw.banks.rom1Offset.toNat = 0x4000 * s.rom1) (inBank : k < 0x4000) :
    c.readRom (UInt16.ofNat k) = (c.cart.bank s.rom0).read k ∧
      c.readRom (UInt16.ofNat (0x4000 + k)) = (c.cart.bank s.rom1).read k := by
  have low : (UInt16.ofNat k).toNat = k := by
    rw [UInt16.toNat_ofNat']
    omega
  have high : (UInt16.ofNat (0x4000 + k)).toNat = 0x4000 + k := by
    rw [UInt16.toNat_ofNat']
    omega
  have index0 : c.romIndex (UInt16.ofNat k) = s.rom0 * 0x4000 + k := by
    rw [romIndex, low, if_pos (show k < romBankSize from inBank), UInt64.toNat_add,
      UInt16.toNat_toUInt64, low]
    omega
  have index1 : c.romIndex (UInt16.ofNat (0x4000 + k)) = s.rom1 * 0x4000 + k := by
    rw [romIndex, high, romBankSize, if_neg (by omega), UInt64.toNat_add, UInt64.toNat_ofNat']
    omega
  constructor
  · rw [readRom, index0, Cartridge.bank, Nat.mod_eq_of_lt rom0, romBankSize,
      Memory.read_slice _ _ inBank]
  · rw [readRom, index1, Cartridge.bank, Nat.mod_eq_of_lt rom1, romBankSize,
      Memory.read_slice _ _ inBank]

namespace Machine

/-- Whatever a session without devices does, the banks that appear are those that the writes to the
ROM windows select: the offsets lead to them, and reads see them. -/
theorem banks_shown (accepted : Cartridge.ofImage image = .ok cart) (model : Option Model)
    (devices : σ) (operations : List Operation) :
    let start := powerOn cart model devices
    let m := start.after operations
    let r := start.recorded.after operations
    let s := cart.controller.shown cart.romBanks start.console.hw.ramBanks r.devices
    r.console = m.console ∧
      (∀ address v, (r.write address v).devices =
        if address.toNat < 0x8000 then (address, v) :: r.devices else r.devices) ∧
      m.console.hw.banks.rom0Offset.toNat = 0x4000 * s.rom0 ∧
      m.console.hw.banks.rom1Offset.toNat = 0x4000 * s.rom1 ∧
      m.console.hw.banks.ramOffset.toNat = 0x2000 * s.ram ∧
      ∀ k < 0x4000,
        (m.read (UInt16.ofNat k)).1 = (cart.bank s.rom0).read k ∧
          (m.read (UInt16.ofNat (0x4000 + k))).1 = (cart.bank s.rom1).read k := by
  intro start m r s
  obtain ⟨wellFormed, -⟩ := Cartridge.ofImage_wellFormed accepted
  have keeps : start.Keeps m := start.after_keeps rfl operations
  have orderly := keeps.orderly (powerOn_orderly accepted model devices)
  have began : start.Recorded start.recorded :=
    ⟨rfl, rfl, rfl, rfl, rfl, Console.powerOn_reflects wellFormed _⟩
  obtain ⟨-, recorded⟩ : ∃ _ : Nat, m.Recorded r :=
    recorded_simulation.after 0 began operations
  have inserted : m.console.cart = cart := keeps.shape.cart
  have romBanks : m.console.hw.romBanks.toNat = cart.romBanks :=
    orderly.toFits.toNat_romBanks.trans (congrArg Cartridge.romBanks inserted)
  have ramBanks : m.console.hw.ramBanks = start.console.hw.ramBanks := by
    rw [Hardware.ramBanks, Hardware.ramBanks, keeps.shape.cartRam]
  have fewRam : start.console.hw.ramBanks ≤ 16 := by
    have size : start.console.hw.cartRam.size = cart.ramSize := Memory.size_zeros _
    have most := wellFormed.ram
    rw [Hardware.ramBanks, size, ramBankSize]
    omega
  have shows : m.console.hw.banks.Shows s := by
    have shows := recorded.reflects.shows
    rwa [inserted, romBanks, ramBanks] at shows
  obtain ⟨rom0, rom1, ram⟩ :=
    cart.controller.shown_lt wellFormed.banks start.console.hw.ramBanks r.devices
  have mostRom := wellFormed.mostBanks
  obtain ⟨offset0, offset1, offsetRam⟩ := shows.toNat (Nat.lt_of_lt_of_le rom0 mostRom)
    (Nat.lt_of_lt_of_le rom1 mostRom) (Nat.lt_of_lt_of_le ram (by omega))
  refine ⟨recorded.console, recorded.log_write, offset0, offset1, offsetRam, ?_⟩
  intro k inBank
  have led (address : UInt16) (inRom : address.toNat < 0x8000) :
      (m.read address).1 = m.console.readRom address := by
    rw [Machine.read, (recorded.route_inRom inRom).1]
    rfl
  rw [led _ (by rw [UInt16.toNat_ofNat']; omega), led _ (by rw [UInt16.toNat_ofNat']; omega)]
  have seen := Console.readRom_shown (c := m.console) (s := s) (by rwa [inserted])
    (by rwa [inserted]) (by rwa [inserted]) offset0 offset1 inBank
  rwa [inserted] at seen

theorem banks_shown_blank :
    ∃ cart, Cartridge.ofImage (Cartridge.blankImage 0x19 0) = .ok cart ∧
      let m := (powerOn cart none ()).after [.write 0x2000 0]
      m.console.hw.banks.rom1Offset.toNat = 0 ∧ (m.read 0x4123).1 = (cart.bank 0).read 0x123 := by
  obtain ⟨cart, accepted, mbc5, -⟩ := Cartridge.ofImage_blank 0x19 0 rfl rfl
  refine ⟨cart, accepted, ?_⟩
  intro m
  obtain ⟨-, logged, -⟩ := banks_shown accepted none () []
  obtain ⟨-, -, -, rom1, -, seen⟩ := banks_shown accepted none () [.write 0x2000 0]
  have log : ((powerOn cart none ()).recorded.after [.write 0x2000 0]).devices = [(0x2000, 0)] := by
    rw [after, List.foldl_cons, List.foldl_nil, perform]
    exact (logged 0x2000 0).trans (if_pos (by decide))
  rw [log, mbc5] at rom1 seen
  have bank (ramBanks : Nat) :
      (Controller.mbc5.shown cart.romBanks ramBanks [(0x2000, 0)]).rom1 = 0 := Nat.zero_mod _
  rw [bank] at rom1
  have read := (seen 0x123 (by decide)).2
  rw [bank] at read
  exact ⟨rom1, read⟩

end Machine

end GameBoy
