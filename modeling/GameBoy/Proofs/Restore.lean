import GameBoy.Proofs.Codec
import GameBoy.Proofs.Session

/-!
Restoring snapshots. What a console checks before it takes over the hardware of a snapshot is
`Console.Accepts`. Main statement: `load_save_iff`, which says which of its own snapshots a session
takes back.
-/

namespace GameBoy

theorem Banks.InRom.window_le {offset : UInt64} (inRom : Banks.InRom romSize offset) :
    (offset + UInt64.ofNat romBankSize).toNat ≤ romSize := by
  obtain ⟨inside, addable⟩ := inRom
  rw [romBankSize] at inside addable
  rw [UInt64.toNat_add, romBankSize, UInt64.toNat_ofNat']
  omega

/-- Only the latch of an MBC5 goes beyond the clock registers of an MBC3. -/
theorem Banks.SelectFits.mbc5 {b : Banks} (select : b.SelectFits chip) (high : 0x0C < b.ramSelect) :
    chip = .mbc5 := by
  have above : 0x0C < b.ramSelect.toNat := UInt8.lt_iff_toNat_lt.mp high
  cases chip with
  | mbc5 => rfl
  | mbc3 => exact absurd select (Nat.not_le.mpr above)
  | fixed | mbc1 | mbc2 =>
    rw [show b.ramSelect = 0 from select] at above
    exact absurd above (by decide)

namespace Console

variable {c d : Console} {hw : Hardware}

/-- What is checked of the hardware in a snapshot before a console takes it over. -/
structure Accepts (c : Console) (hw : Hardware) : Prop where
  identity : hw.identity = c.hw.identity
  vram : hw.vram.size = hw.model.vramSize
  wram : hw.wram.size = hw.model.wramSize
  cartRam : hw.cartRam.size = c.hw.cartRam.size
  rom0 : (hw.banks.rom0Offset + UInt64.ofNat romBankSize).toNat ≤ c.cart.image.size
  rom1 : (hw.banks.rom1Offset + UInt64.ofNat romBankSize).toNat ≤ c.cart.image.size
  ram : hw.banks.ramOffset = 0 ∨ hw.banks.ramOffset.toNat < hw.cartRam.size
  ramSelect : hw.banks.ramSelect.toNat ≤ 0x0C
  oamDma : hw.oamDma.active = true → hw.oamDma.bytes.toNat < 160

private theorem refusal_eq_none {p : Prop} [Decidable p] (reason : Inconsistency)
    (rest : Option Inconsistency) : (if p then some reason else rest) = none ↔ ¬p ∧ rest = none := by
  by_cases refused : p <;> simp [refused]

private theorem offset_inside {offset : UInt64} {size : Nat} :
    (0 < offset → ¬size ≤ offset.toNat) ↔ offset = 0 ∨ offset.toNat < size := by
  rw [Nat.not_le]
  constructor
  · intro inside
    by_cases zero : offset = 0
    · exact .inl zero
    · exact .inr (inside (UInt64.pos_iff_ne_zero.mpr zero))
  · rintro (rfl | inside) positive
    · exact absurd positive (by decide)
    · exact inside

theorem accepts_iff : c.Accepts hw ↔ hw.identity = c.hw.identity ∧ c.inconsistency? hw = none := by
  simp only [inconsistency?, refusal_eq_none, not_or, ne_eq, Decidable.not_not,
    Nat.not_lt, not_and, UInt8.not_lt, UInt8.not_le, and_true]
  constructor
  · intro accepts
    refine ⟨accepts.identity, accepts.vram, accepts.wram, accepts.cartRam,
      ⟨accepts.rom0, accepts.rom1⟩, offset_inside.mpr accepts.ram, ?_, fun running => ?_⟩
    · exact UInt8.le_iff_toNat_le.mpr accepts.ramSelect
    · exact UInt8.lt_iff_toNat_lt.mpr (accepts.oamDma running)
  · rintro ⟨identity, vram, wram, cartRam, ⟨rom0, rom1⟩, ram, ramSelect, oamDma⟩
    exact ⟨identity, vram, wram, cartRam, rom0, rom1, offset_inside.mp ram,
      UInt8.le_iff_toNat_le.mp ramSelect, fun running => UInt8.lt_iff_toNat_lt.mp (oamDma running)⟩

/-- A snapshot is restored if it can be read and what is in it is accepted. -/
theorem load_eq_ok_iff : c.load bytes = .ok d ↔
    ∃ hw, Snapshot.read bytes = .ok hw ∧ c.Accepts hw ∧ d = { hw, cart := c.cart } := by
  unfold load
  cases found : Snapshot.read bytes with
  | error e => simp
  | ok hw =>
    simp only [Except.ok.injEq, accepts_iff]
    by_cases same : hw.identity = c.hw.identity
    · cases reason : c.inconsistency? hw with
      | none => simp [same, reason, eq_comm]
      | some reason => simp [same, reason]
    · simp [same]

/-! Sizes of snapshots. -/

private theorem vramSize_le (model : Model) : model.vramSize ≤ 0x4000 := by cases model <;> decide

private theorem wramSize_le (model : Model) : model.wramSize ≤ 0x8000 := by cases model <;> decide

theorem Sized.storable (sized : c.Sized) : c.hw.Storable where
  title := by
    have title := sized.cart.title
    rw [sized.identity]
    exact Nat.lt_of_le_of_lt title (by decide)
  cartRam := by
    have ram := sized.cart.ram
    rw [sized.cartRam]
    omega
  vram := by
    rw [sized.vram]
    exact Nat.lt_of_le_of_lt (vramSize_le _) (by decide)
  wram := by
    rw [sized.wram]
    exact Nat.lt_of_le_of_lt (wramSize_le _) (by decide)

theorem Sized.length_write_lt (sized : c.Sized) : (Layout.hardware.write c.hw).length < 2 ^ 32 := by
  have title : c.hw.identity.title.utf8ByteSize ≤ 16 := sized.identity ▸ sized.cart.title
  have ram := sized.cart.ram
  have vram := vramSize_le c.hw.model
  have wram := wramSize_le c.hw.model
  rw [Layout.length_write_hardware, sized.cartRam, sized.vram, sized.wram]
  omega

/-- A console whose memories have the right sizes can read its own snapshot. -/
theorem Sized.read_write (sized : c.Sized) : Snapshot.read (Snapshot.write c.hw) = .ok c.hw :=
  Snapshot.read_write sized.storable sized.length_write_lt

/-! Consoles that run. -/

/-- The RAM select latch of an MBC5 takes four bits. -/
theorem ramSelect_writeRom (mbc5 : c.cart.controller = .mbc5) (v : UInt8) :
    (c.writeRom 0x4000 v).hw.banks.ramSelect = v % 16 := by
  rw [writeRom, mbc5]
  rfl

/-- Of everything that is checked, only the RAM select latch can speak against a console that was
switched on with the same cartridge. -/
theorem Orderly.inconsistency?_eq (orderly : c.Orderly) (cart : d.cart = c.cart)
    (cartRam : d.hw.cartRam.size = c.hw.cartRam.size) :
    d.inconsistency? c.hw = if 0x0C < c.hw.banks.ramSelect then some .ramSelect else none := by
  have ram : ¬(0 < c.hw.banks.ramOffset ∧ c.hw.cartRam.size ≤ c.hw.banks.ramOffset.toNat) :=
    not_and.mpr (offset_inside.mpr orderly.banks.ram)
  have bytes : ¬(c.hw.oamDma.active = true ∧ OamDma.length ≤ c.hw.oamDma.bytes) := by
    rintro ⟨running, finished⟩
    have copied := orderly.oamDma.sound.bytes running
    exact Nat.not_le.mpr copied (UInt8.le_iff_toNat_le.mp finished)
  unfold inconsistency?
  dsimp only
  rw [cart, if_neg (not_not_intro orderly.vram), if_neg (not_not_intro orderly.wram),
    if_neg (not_not_intro cartRam.symm), if_neg, if_neg ram, if_neg bytes]
  rintro (rom0 | rom1)
  · exact Nat.not_lt.mpr orderly.banks.rom0.window_le rom0
  · exact Nat.not_lt.mpr orderly.banks.rom1.window_le rom1

theorem Orderly.accepts (orderly : c.Orderly) (low : c.hw.banks.ramSelect ≤ 0x0C) :
    c.Accepts c.hw := by
  refine accepts_iff.mpr ⟨rfl, ?_⟩
  rw [orderly.inconsistency?_eq rfl rfl, if_neg (UInt8.not_lt.mpr low)]

end Console

namespace Machine

theorem load_eq_ok_iff {m n : Machine σ} : m.load bytes = .ok n ↔
    ∃ hw, Snapshot.read bytes = .ok hw ∧ m.console.Accepts hw ∧
      n = { m with console := { hw, cart := m.console.cart } }.sync := by
  unfold load
  cases loaded : m.console.load bytes with
  | error e =>
    refine ⟨nofun, ?_⟩
    rintro ⟨hw, found, accepts, -⟩
    rw [Console.load_eq_ok_iff.mpr ⟨hw, found, accepts, rfl⟩] at loaded
    cases loaded
  | ok console =>
    obtain ⟨hw, found, accepts, rfl⟩ := Console.load_eq_ok_iff.mp loaded
    constructor
    · intro ok
      exact ⟨hw, found, accepts, (Except.ok.inj ok).symm⟩
    · rintro ⟨other, again, -, rfl⟩
      rw [found] at again
      cases again
      rfl

/-- What a session with the same cartridge makes of a snapshot of a machine that was switched on and
never restored. -/
theorem load_save {m : Machine σ} {g : Machine τ} (orderly : m.console.Orderly)
    (cart : g.console.cart = m.console.cart)
    (identity : g.console.hw.identity = m.console.hw.identity)
    (cartRam : g.console.hw.cartRam.size = m.console.hw.cartRam.size) :
    g.load m.save =
      if 0x0C < m.console.hw.banks.ramSelect then .error (.inconsistent .ramSelect)
      else .ok { g with console := { hw := m.console.hw, cart := m.console.cart } }.sync := by
  rw [load, Console.load, save, orderly.toSized.read_write]
  dsimp only
  rw [if_neg (not_not_intro identity.symm), orderly.inconsistency?_eq cart cartRam]
  by_cases high : 0x0C < m.console.hw.banks.ramSelect
  · rw [if_pos high, if_pos high]
  · rw [if_neg high, if_neg high, cart]

/-- A session without devices takes back a snapshot of itself, or of any other session with the same
cartridge, exactly if the RAM select latch is at most 0x0C. It is higher only on an MBC5. -/
theorem load_save_iff (accepted : Cartridge.ofImage image = .ok cart) (model other : Option Model)
    (devices : σ) (otherDevices : τ) (operations otherOperations : List Operation) :
    let m := (powerOn cart model devices).after operations
    let g := (powerOn cart other otherDevices).after otherOperations
    ((∃ n, g.load m.save = .ok n) ↔ m.console.hw.banks.ramSelect ≤ 0x0C) ∧
      (0x0C < m.console.hw.banks.ramSelect →
        cart.controller = .mbc5 ∧ g.load m.save = .error (.inconsistent .ramSelect)) := by
  intro m g
  have kept : (powerOn cart model devices).Keeps m := after_keeps _ rfl operations
  have otherKept : (powerOn cart other otherDevices).Keeps g := after_keeps _ rfl otherOperations
  have orderly := kept.orderly (powerOn_orderly accepted model devices)
  have loaded : g.load m.save = _ := load_save orderly
    (otherKept.shape.cart.trans kept.shape.cart.symm)
    (otherKept.shape.identity.trans kept.shape.identity.symm)
    (otherKept.shape.cartRam.trans kept.shape.cartRam.symm)
  have inserted : m.console.cart = cart := kept.shape.cart
  refine ⟨⟨?_, ?_⟩, ?_⟩
  · rintro ⟨n, ok⟩
    rw [loaded] at ok
    split at ok
    · cases ok
    · exact UInt8.not_lt.mp ‹_›
  · intro low
    rw [loaded, if_neg (UInt8.not_lt.mpr low)]
    exact ⟨_, rfl⟩
  · intro high
    refine ⟨?_, by rw [loaded, if_pos high]⟩
    have select := orderly.ramSelect
    rw [inserted] at select
    exact select.mbc5 high

theorem load_save_iff_blank :
    ∃ cart, Cartridge.ofImage (Cartridge.blankImage 0x1B 3) = .ok cart ∧
      let m := (powerOn cart none ()).after [.write 0x4000 0x03]
      ∃ n, (powerOn cart (some .color) ()).load m.save = .ok n := by
  obtain ⟨cart, accepted, mbc5, -⟩ := Cartridge.ofImage_blank 0x1B 3 rfl rfl
  refine ⟨cart, accepted, ?_⟩
  apply (load_save_iff accepted none (some .color) () () [.write 0x4000 0x03] []).1.mpr
  show (Console.writeRom _ 0x4000 0x03).hw.banks.ramSelect ≤ 0x0C
  rw [Console.ramSelect_writeRom mbc5]
  decide

theorem load_save_refused :
    ∃ cart, Cartridge.ofImage (Cartridge.blankImage 0x1B 3) = .ok cart ∧
      let m := (powerOn cart none ()).after [.write 0x4000 0x0D]
      m.load m.save = .error (.inconsistent .ramSelect) := by
  obtain ⟨cart, accepted, mbc5, -⟩ := Cartridge.ofImage_blank 0x1B 3 rfl rfl
  refine ⟨cart, accepted, ?_⟩
  intro m
  have kept : (powerOn cart none ()).Keeps m := after_keeps _ rfl _
  have select : m.console.hw.banks.ramSelect = 0x0D := by
    show (Console.writeRom _ 0x4000 0x0D).hw.banks.ramSelect = 0x0D
    exact Console.ramSelect_writeRom mbc5 0x0D
  rw [load_save (kept.orderly (powerOn_orderly accepted none ())) rfl rfl rfl, select]
  rfl

end Machine

end GameBoy
