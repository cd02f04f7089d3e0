import GameBoy.Proofs.Battery
import GameBoy.Proofs.BusLog

/-!
The writes that store a byte in the RAM of a cartridge. Without any of them RAM stays as it is, and
there is nothing to save. Main statement: `reports_eq_nil`.
-/

namespace GameBoy

/-- Whether a write stores a byte in the RAM of the cartridge: it must be enabled, show at that
address, and reach that far. -/
def BusWrite.StoresRam (w : BusWrite) : Prop :=
  Region.ofAddress w.address = .cartRam ∧
    match w.met.ramTarget (w.address.toNat % ramBankSize) with
    | .closed | .clock _ => False
    | .nibble _ => True
    | .cell index => index < w.met.hw.cartRam.size

namespace Console

/-- The RAM of the cartridge is as before, and so is what is known about its saved copy. -/
structure SameRam (c d : Console) : Prop where
  cartRam : d.hw.cartRam = c.hw.cartRam
  batteryDirty : d.hw.batteryDirty = c.hw.batteryDirty

theorem SameRam.refl (c : Console) : c.SameRam c := ⟨rfl, rfl⟩

theorem SameRam.trans (first : SameRam c d) (second : SameRam d e) : c.SameRam e where
  cartRam := second.cartRam.trans first.cartRam
  batteryDirty := second.batteryDirty.trans first.batteryDirty

theorem Inward.sameRam (inward : Inward c d) : c.SameRam d :=
  ⟨inward.cartRam, inward.batteryDirty⟩

theorem tickCartridge_sameRam (c : Console) : c.SameRam c.tickCartridge := by
  unfold tickCartridge
  split
  · exact ⟨rfl, rfl⟩
  · exact .refl c

/-- The cartridge is as before, and so is its controller. -/
structure SameCartridge (c d : Console) : Prop extends c.SameRam d where
  cart : d.cart = c.cart
  banks : d.hw.banks = c.hw.banks
  clock : d.hw.clock = c.hw.clock

theorem SameCartridge.refl (c : Console) : c.SameCartridge c := ⟨.refl c, rfl, rfl, rfl⟩

/-- What is not written to the cartridge does not reach it. -/
theorem writeRegion_sameCartridge (c : Console) (rom : region ≠ .rom) (cartRam : region ≠ .cartRam)
    (address : UInt16) (v : UInt8) : c.SameCartridge (c.writeRegion region address v) := by
  cases region with
  | rom => contradiction
  | cartRam => contradiction
  | oam =>
    have stored (oam : Segment 0xA0) : c.SameCartridge { c with hw := { c.hw with oam } } :=
      { SameCartridge.refl c with }
    rw [writeRegion]
    split
    · exact .refl c
    · exact stored _
  | hram =>
    have stored (hram : Segment 0x7F) : c.SameCartridge { c with hw := { c.hw with hram } } :=
      { SameCartridge.refl c with }
    exact stored _
  | io =>
    rw [writeRegion, writeIo]
    cases IoRegister.ofAddress c.hw.isColor address with
    | vramControl =>
      obtain ⟨vram, vramDma, stall, copied⟩ := c.writeVramControl_eq v
      dsimp only
      rw [copied]
      exact { SameCartridge.refl c with }
    | _ => exact { SameCartridge.refl c with }
  | vram | wramFixed | wramBanked | unusable | interruptEnable =>
    exact { SameCartridge.refl c with }

/-- Commands to the controller and writes to I/O registers leave RAM alone. -/
theorem writeRegion_sameRam (c : Console) (address : UInt16) (v : UInt8)
    (other : Region.ofAddress address ≠ .cartRam) :
    c.SameRam (c.writeRegion (.ofAddress address) address v) := by
  by_cases rom : Region.ofAddress address = .rom
  · obtain ⟨banks, clock, fault, written⟩ := c.writeRom_eq address v
    rw [rom, writeRegion, written]
    exact ⟨rfl, rfl⟩
  · exact (c.writeRegion_sameCartridge rom other address v).toSameRam

theorem write_sameRam {c : Console} {address : UInt16} {v : UInt8}
    (quiet : ¬BusWrite.StoresRam { met := c, address, value := v }) :
    c.SameRam (c.writeRegion (.ofAddress address) address v) := by
  by_cases window : Region.ofAddress address = .cartRam
  · rw [window, writeRegion, writeRam]
    rw [BusWrite.StoresRam, window] at quiet
    dsimp only at quiet ⊢
    cases target : c.ramTarget (address.toNat % ramBankSize) with
    | closed => exact .refl c
    | nibble index =>
      rw [target] at quiet
      exact absurd ⟨rfl, trivial⟩ quiet
    | clock register => exact ⟨rfl, rfl⟩
    | cell index =>
      rw [target] at quiet
      dsimp only at quiet ⊢
      rw [if_neg fun inside => quiet ⟨rfl, inside⟩]
      exact .refl c
  · exact c.writeRegion_sameRam address v window

/-- Unless something has been stored in RAM, it is as it was at the start. -/
def SameRamUnlessStored (start : Console) (log : List BusWrite) (c : Console) : Prop :=
  (∀ w ∈ log, ¬w.StoresRam) → start.SameRam c

theorem sameRam_invariant (start : Console) : LogInvariant start.SameRamUnlessStored where
  inward same inward quiet := (same quiet).trans inward.sameRam
  write same address v quiet := by
    obtain ⟨before, last⟩ := List.forall_mem_append.mp quiet
    exact (same before).trans (write_sameRam (last _ List.mem_cons_self))
  lost same _ v quiet := same (List.forall_mem_append.mp quiet).1

end Console

namespace Machine

theorem clocksOfTick_sameRam (m : Machine σ) (bare : m.handlers = [])
    (quiet : ∀ p ∈ m.tickClocks, ∀ w ∈ p.clockWrites, ¬w.StoresRam) :
    m.console.SameRam m.clocksOfTick.console := by
  have started : m.console.SameRamUnlessStored [] m.console := fun _ => .refl _
  apply clocksOfTick_invariant m.console.sameRam_invariant bare started
  intro w written
  obtain ⟨p, clock, written⟩ := List.mem_flatMap.mp written
  exact quiet p clock w written

/-- A tick that stores nothing in RAM has nothing to save. -/
theorem saved_tick (m : Machine σ) (bare : m.handlers = [])
    (clean : m.console.hw.batteryDirty = false)
    (quiet : ∀ p ∈ m.tickClocks, ∀ w ∈ p.clockWrites, ¬w.StoresRam) : m.tick.saved = none := by
  have same := (m.clocksOfTick_sameRam bare quiet).trans (Console.tickCartridge_sameRam _)
  refine if_neg fun dirty => ?_
  rw [mapConsole] at dirty
  rw [same.batteryDirty, clean] at dirty
  cases dirty

/-- A run that stores nothing in RAM has nothing to report. -/
theorem reports_eq_nil (count : Nat) (m : Machine σ) (bare : m.handlers = [])
    (clean : m.console.hw.batteryDirty = false)
    (quiet : ∀ p ∈ runClocks count m, ∀ w ∈ p.clockWrites, ¬w.StoresRam) :
    m.reports count = [] := by
  induction count generalizing m with
  | zero => rfl
  | succ count ih =>
    rw [runClocks] at quiet
    obtain ⟨now, later⟩ := List.forall_mem_append.mp quiet
    rw [reports, m.saved_tick bare clean now]
    cases fault : m.tick.fault with
    | some fault => rfl
    | none =>
      rw [if_pos fault] at later
      exact ih m.tick.machine ((m.tick_evolves bare).bare bare) rfl later

end Machine

end GameBoy
