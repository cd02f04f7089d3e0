import GameBoy.Proofs.RamHistory
import GameBoy.Proofs.RamWrites
import GameBoy.Proofs.SessionLog

/-!
The latch of the clock on a cartridge. Software reads a copy of the clock that is taken when zero
and then one is written to the latch register; the copy stays as it is until the next such pair of
writes. Main statement: `latch_coherent`.
-/

namespace GameBoy

/-- Whether a write reaches the latch register. -/
def BusWrite.isLatch (w : BusWrite) : Bool := 0x6000 ≤ w.address.toNat ∧ w.address.toNat < 0x8000

/-- The writes to the latch register in a log, the latest first. -/
def latchesOf (log : List BusWrite) : List BusWrite := (log.filter BusWrite.isLatch).reverse

/-- The live clock at the latest write of one that directly follows a write of zero. -/
def frozen? : List BusWrite → Option ClockTime
  | one :: zero :: earlier =>
    if one.value = 1 ∧ zero.value = 0 then some one.met.hw.clock.live
    else frozen? (zero :: earlier)
  | _ => none

/-- The latest write was one of zero, which the next write can follow. -/
def armed (latches : List BusWrite) : Bool := latches.head?.any (·.value = 0)

theorem frozen?_cons (w : BusWrite) (latches : List BusWrite) :
    frozen? (w :: latches) =
      if armed latches = true ∧ w.value = 1 then some w.met.hw.clock.live else frozen? latches := by
  cases latches with
  | nil => simp [frozen?, armed]
  | cons zero earlier => simp [frozen?, armed, and_comm]

theorem latchesOf_snoc (log : List BusWrite) (w : BusWrite) :
    latchesOf (log ++ [w]) = if w.isLatch then w :: latchesOf log else latchesOf log := by
  cases reaches : w.isLatch <;> simp [latchesOf, reaches]

/-! The registers of the clock. -/

namespace ClockTime

/-- The counters, in the order of their numbers. -/
def counters (t : ClockTime) : List UInt8 := [t.seconds, t.minutes, t.hours, t.dayLow, t.dayHigh]

/-- The bits that a counter has. -/
def bits (register : Nat) : UInt8 :=
  match register with
  | 0 | 1 => 0x3F
  | 2 => 0x1F
  | 3 => 0xFF
  | _ => 0xC1

end ClockTime

namespace Clock

variable {register : Nat}

/-- Reads see the copy. -/
theorem readRegister_eq (c : Clock) (known : register < 5) :
    c.latched.counters[register]? = some (c.readRegister register) := by
  match register, known with
  | 0, _ | 1, _ | 2, _ | 3, _ | 4, _ => rfl

/-- Writes set one live counter, and a write of the seconds begins a second anew. -/
theorem writeRegister_eq (c : Clock) (known : register < 5) (v : UInt8) :
    ∃ live : ClockTime,
      live.counters = c.live.counters.set register (v &&& ClockTime.bits register) ∧
      c.writeRegister register v =
        { c with live, subsecond := if register = 0 then 0 else c.subsecond } := by
  have sixBits : v % 64 = v &&& 0x3F :=
    UInt8.toNat_inj.mp (Nat.and_two_pow_sub_one_eq_mod v.toNat 6).symm
  have fiveBits : v % 32 = v &&& 0x1F :=
    UInt8.toNat_inj.mp (Nat.and_two_pow_sub_one_eq_mod v.toNat 5).symm
  have allBits : v &&& 0xFF = v := UInt8.and_neg_one
  match register, known with
  | 0, _ | 1, _ | 2, _ | 3, _ | 4, _ =>
    refine ⟨_, ?_, rfl⟩
    simp [ClockTime.counters, ClockTime.bits, sixBits, fiveBits, allBits]

end Clock

namespace Console

/-- The latched copy of the clock, and whether the next write can renew it, are as before. -/
structure SameLatch (c d : Console) : Prop where
  cart : d.cart = c.cart
  latched : d.hw.clock.latched = c.hw.clock.latched
  latchArmed : d.hw.clock.latchArmed = c.hw.clock.latchArmed

theorem SameLatch.refl (c : Console) : c.SameLatch c := ⟨rfl, rfl, rfl⟩

theorem Inward.sameLatch (inward : Inward c d) : c.SameLatch d :=
  ⟨inward.cart, congrArg Clock.latched inward.clock, congrArg Clock.latchArmed inward.clock⟩

/-- The clock runs on and leaves its copy alone. -/
theorem tickCartridge_sameLatch (c : Console) : c.SameLatch c.tickCartridge := by
  unfold tickCartridge
  split
  · refine ⟨rfl, ?_, ?_⟩
    all_goals
      simp only [mapClock, Clock.tick]
      repeat' split
      all_goals rfl
  · exact .refl c

/-- A write to a register of the clock sets the live counter. -/
theorem writeRam_sameLatch (c : Console) (offset : Nat) (v : UInt8) :
    c.SameLatch (c.writeRam offset v) := by
  unfold writeRam
  cases c.ramTarget offset with
  | closed => exact .refl c
  | nibble index => exact ⟨rfl, rfl, rfl⟩
  | clock register =>
    refine ⟨rfl, ?_, ?_⟩
    all_goals
      simp only [mapClock, Clock.writeRegister]
      split <;> rfl
  | cell index =>
    dsimp only
    split
    · exact ⟨rfl, rfl, rfl⟩
    · exact .refl c

theorem writeRom_sameLatch {c : Console} (mbc3 : c.cart.controller = .mbc3)
    (below : address.toNat < 0x6000) (v : UInt8) : c.SameLatch (c.writeRom address v) := by
  have low : address < 0x6000 := UInt16.lt_iff_toNat_lt.mpr below
  simp only [writeRom, mbc3, low, if_true]
  split
  · exact ⟨rfl, rfl, rfl⟩
  · unfold mbc3Select
    repeat' split
    all_goals exact ⟨rfl, rfl, rfl⟩

theorem writeRom_latch {c : Console} (mbc3 : c.cart.controller = .mbc3)
    (above : 0x6000 ≤ address.toNat) (v : UInt8) :
    c.writeRom address v = c.mapClock (·.latch v) := by
  have high : ¬address < 0x6000 := by simpa [UInt16.lt_iff_toNat_lt] using above
  have other : ¬address < 0x4000 := fun low => high (UInt16.lt_trans low (by decide))
  simp only [writeRom, mbc3, other, high, if_false]

/-- Only the latch register of an MBC3 renews the copy. -/
theorem writeRegion_sameLatch {c : Console} (mbc3 : c.cart.controller = .mbc3)
    (other : BusWrite.isLatch { met := c, address, value := v } = false) :
    c.SameLatch (c.writeRegion (.ofAddress address) address v) := by
  by_cases cartRam : Region.ofAddress address = .cartRam
  · rw [cartRam]
    exact c.writeRam_sameLatch _ v
  by_cases rom : Region.ofAddress address = .rom
  · have inRom := Region.spans_ofAddress address
    rw [rom] at inRom ⊢
    apply writeRom_sameLatch mbc3
    apply Nat.not_le.mp
    intro above
    exact of_decide_eq_false other ⟨above, inRom⟩
  · have same := c.writeRegion_sameCartridge rom cartRam address v
    exact ⟨same.cart, congrArg Clock.latched same.clock, congrArg Clock.latchArmed same.clock⟩

theorem Own.sameLatch {c d : Console} (own : c.Own d) : c.SameLatch d := by
  cases own with
  | tickCartridge => exact c.tickCartridge_sameLatch
  | hblank =>
    obtain ⟨vram, vramDma, stall, copied⟩ := c.hblank_eq
    rw [copied]
    exact ⟨rfl, rfl, rfl⟩
  | endTick | setAccessible | request | acknowledge | loadBattery => exact ⟨rfl, rfl, rfl⟩

/-- The latch is as the writes to its register have left it. -/
structure Coherent (log : List BusWrite) (c : Console) : Prop where
  mbc3 : c.cart.controller = .mbc3
  latched : c.hw.clock.latched = (frozen? (latchesOf log)).getD {}
  latchArmed : c.hw.clock.latchArmed = armed (latchesOf log)

namespace Coherent

variable {log : List BusWrite} {c d : Console}

theorem same (coherent : c.Coherent log) (same : c.SameLatch d) : d.Coherent log where
  mbc3 := same.cart ▸ coherent.mbc3
  latched := same.latched.trans coherent.latched
  latchArmed := same.latchArmed.trans coherent.latchArmed

/-- A write elsewhere leaves the latch alone. -/
theorem elsewhere {w : BusWrite} (coherent : c.Coherent log) (other : w.isLatch = false) :
    c.Coherent (log ++ [w]) := by
  have same : latchesOf (log ++ [w]) = latchesOf log := by simp [latchesOf_snoc, other]
  refine ⟨coherent.mbc3, ?_, ?_⟩
  · rw [same, coherent.latched]
  · rw [same, coherent.latchArmed]

/-- A write to the latch register renews the copy if it should. -/
theorem latch (coherent : c.Coherent log)
    (reaches : BusWrite.isLatch { met := c, address, value := v } = true) :
    (c.mapClock (·.latch v)).Coherent (log ++ [{ met := c, address, value := v }]) := by
  constructor
  · exact coherent.mbc3
  · simp only [latchesOf_snoc, reaches, if_true, frozen?_cons, mapClock, Clock.latch,
      coherent.latched, coherent.latchArmed, Bool.and_eq_true, decide_eq_true_eq]
    split <;> rfl
  · simp [latchesOf_snoc, reaches, mapClock, Clock.latch, armed]

theorem write (coherent : c.Coherent log) (address : UInt16) (v : UInt8) :
    (c.writeRegion (.ofAddress address) address v).Coherent
      (log ++ [{ met := c, address, value := v }]) := by
  cases reaches : BusWrite.isLatch { met := c, address, value := v } with
  | false => exact (coherent.same (writeRegion_sameLatch coherent.mbc3 reaches)).elsewhere reaches
  | true =>
    obtain ⟨above, below⟩ := of_decide_eq_true reaches
    have region : Region.ofAddress address = .rom := if_pos (UInt16.lt_iff_toNat_lt.mpr below)
    rw [region, writeRegion, writeRom_latch coherent.mbc3 above]
    exact coherent.latch reaches

end Coherent

/-- The latch register lies in the ROM windows, which nothing hides. -/
theorem isLatch_video (video : Region.ofAddress address = .vram ∨ Region.ofAddress address = .oam)
    (met : Console) (v : UInt8) : BusWrite.isLatch { met, address, value := v } = false := by
  apply Bool.eq_false_iff.mpr
  intro reaches
  obtain ⟨-, below⟩ := of_decide_eq_true reaches
  have region : Region.ofAddress address = .rom := if_pos (UInt16.lt_iff_toNat_lt.mpr below)
  simp [region] at video

theorem coherent_invariant : SessionInvariant Coherent where
  inward coherent inward := coherent.same inward.sameLatch
  write coherent address v := coherent.write address v
  lost coherent video v := coherent.elsewhere (isLatch_video video _ v)
  own coherent own := coherent.same own.sameLatch

end Console

/-! Sessions. -/

/-- What a session is asked for: an operation, or a clock of the cartridge alone. -/
inductive Demand
  | operation (op : Operation)
  | clockCartridge

namespace Machine

def grant (m : Machine σ) : Demand → Machine σ
  | .operation op => (m.perform op).2
  | .clockCartridge => m.mapConsole (·.tickCartridge)

def grantAll (m : Machine σ) : List Demand → Machine σ
  | [] => m
  | demand :: rest => (m.grant demand).grantAll rest

/-- What a session writes over the bus meanwhile. -/
def grantedWrites (m : Machine σ) : List Demand → List BusWrite
  | [] => []
  | .operation op :: rest => m.writesOf op ++ (m.grant (.operation op)).grantedWrites rest
  | .clockCartridge :: rest => (m.grant .clockCartridge).grantedWrites rest

theorem grant_keeps (m : Machine σ) (bare : m.handlers = []) (demand : Demand) :
    m.Keeps (m.grant demand) := by
  cases demand with
  | operation op => exact m.perform_keeps bare op
  | clockCartridge => exact (m.mapConsole_evolves m.console.tickCartridge_evolves).keeps

theorem grantAll_keeps (m : Machine σ) (bare : m.handlers = []) (demands : List Demand) :
    m.Keeps (m.grantAll demands) := by
  induction demands generalizing m with
  | nil => exact .refl m
  | cons demand rest ih =>
    have first := m.grant_keeps bare demand
    exact first.trans (ih _ (first.handlers.trans bare))

theorem grantAll_invariant {m : Machine σ} (invariant : Console.SessionInvariant P)
    (bare : m.handlers = []) (holds : P log m.console) (demands : List Demand) :
    P (log ++ m.grantedWrites demands) (m.grantAll demands).console := by
  induction demands generalizing m log with
  | nil =>
    rw [grantedWrites, List.append_nil]
    exact holds
  | cons demand rest ih =>
    have bareAfter := (m.grant_keeps bare demand).handlers.trans bare
    cases demand with
    | operation op =>
      rw [grantedWrites, ← List.append_assoc]
      exact ih bareAfter (perform_invariant invariant bare holds op)
    | clockCartridge => exact ih bareAfter (invariant.own holds .tickCartridge)

/-- Whatever a session with an MBC3 does, the latched counters are zero until they are first
latched, and then the live ones as they were when one was last written to the latch register
directly after a zero. Where a register of the clock is selected and RAM is enabled, reads see the
latched counter, and writes set the bits that the live counter has, and nothing else but the part of
a second. -/
theorem latch_coherent (accepted : Cartridge.ofImage image = .ok cart)
    (mbc3 : cart.controller = .mbc3) (model : Option Model) (devices : σ)
    (demands : List Demand) :
    let start := powerOn cart model devices
    let m := start.grantAll demands
    let snapshot := (frozen? (latchesOf (start.grantedWrites demands))).getD {}
    let banks := m.console.hw.banks
    m.console.hw.clock.latched = snapshot ∧
    ∀ address, Region.cartRam.Spans address → banks.ramEnabled = true → 8 ≤ banks.ramSelect →
      ∃ register < 5, banks.ramSelect.toNat = 8 + register ∧
        snapshot.counters[register]? = some (m.read address).1 ∧ (m.read address).2 = m ∧
        ∀ v, ∃ live : ClockTime,
          live.counters =
            m.console.hw.clock.live.counters.set register (v &&& ClockTime.bits register) ∧
          m.write address v = m.mapConsole (·.mapClock fun clock =>
            { clock with live, subsecond := if register = 0 then 0 else clock.subsecond }) := by
  intro start m snapshot banks
  have keeps : start.Keeps m := start.grantAll_keeps rfl demands
  have bare : m.handlers = [] := keeps.handlers
  have begun : start.console.Coherent [] := ⟨mbc3, rfl, rfl⟩
  have coherent : m.console.Coherent (start.grantedWrites demands) :=
    grantAll_invariant Console.coherent_invariant rfl begun demands
  have latched : m.console.hw.clock.latched = snapshot := coherent.latched
  refine ⟨latched, ?_⟩
  intro address inRam enabled selected
  have fits := (keeps.orderly (powerOn_orderly accepted model devices)).ramSelect
  rw [coherent.mbc3] at fits
  have most : banks.ramSelect.toNat ≤ 12 := fits
  have least : 8 ≤ banks.ramSelect.toNat := UInt8.le_iff_toNat_le.mp selected
  have known : banks.ramSelect.toNat - 8 < 5 := by omega
  have target (offset : Nat) : m.console.ramTarget offset = .clock (banks.ramSelect.toNat - 8) := by
    have chip : m.console.cart.controller = .mbc3 := coherent.mbc3
    unfold Console.ramTarget
    dsimp only
    rw [enabled, chip]
    simp [selected, banks]
  refine ⟨banks.ramSelect.toNat - 8, known, by omega, ?_, ?_, ?_⟩
  · rw [read_cartRam bare inRam, Console.readRam, target, ← latched]
    exact m.console.hw.clock.readRegister_eq known
  · exact m.read_bare bare address
  · intro v
    obtain ⟨live, counters, written⟩ := m.console.hw.clock.writeRegister_eq known v
    refine ⟨live, counters, ?_⟩
    rw [write_cartRam bare inRam, mapConsole, Console.writeRam, target]
    simp only [Console.mapClock, written]
    rfl

/-- Seconds that are rewritten after they have been latched still read as they were. -/
theorem latch_coherent_rewritten :
    ∃ cart, Cartridge.ofImage (Cartridge.blankImage 0x10 3) = .ok cart ∧
      cart.controller = .mbc3 ∧
      let demands : List Demand := [.operation (.write 0x0000 0x0A),
        .operation (.write 0x4000 8), .operation (.write 0xA000 59), .operation (.write 0x6000 0),
        .operation (.write 0x6000 1), .operation (.write 0xA000 7)]
      let m := (powerOn cart none ()).grantAll demands
      m.console.hw.banks.ramEnabled = true ∧ m.console.hw.banks.ramSelect = 8 ∧
        m.console.hw.clock.live.seconds = 7 ∧ (m.read 0xA000).1 = 59 := by
  obtain ⟨cart, accepted, mbc3, -⟩ := Cartridge.ofImage_blank 0x10 3 rfl rfl
  refine ⟨cart, accepted, mbc3, ?_⟩
  intro demands m
  have enables {c : Console} (chip : c.cart.controller = .mbc3) :
      c.writeRom 0x0000 0x0A = c.mapBanks fun b => { b with ramEnabled := true } := by
    rw [Console.writeRom, chip]
    rfl
  have selects {c : Console} (chip : c.cart.controller = .mbc3) :
      c.writeRom 0x4000 8 = c.mapBanks fun b => { b with ramSelect := 8 } := by
    rw [Console.writeRom, chip]
    rfl
  have latches (v : UInt8) {c : Console} (chip : c.cart.controller = .mbc3) :
      c.writeRom 0x6000 v = c.mapClock (·.latch v) := Console.writeRom_latch chip (by decide) v
  have seconds (v : UInt8) {c : Console} (chip : c.cart.controller = .mbc3)
      (enabled : c.hw.banks.ramEnabled = true) (selected : c.hw.banks.ramSelect = 8) :
      c.writeRam (UInt16.toNat 0xA000 - 0xA000) v = c.mapClock (·.writeRegister 0 v) := by
    simp [Console.writeRam, Console.ramTarget, chip, enabled, selected]
  have ended : m = (powerOn cart none ()).mapConsole fun c =>
      (((((c.mapBanks fun b => { b with ramEnabled := true }).mapBanks
        fun b => { b with ramSelect := 8 }).mapClock (·.writeRegister 0 59)).mapClock
          (·.latch 0)).mapClock (·.latch 1)).mapClock (·.writeRegister 0 7) := by
    simp only [m, demands, grantAll, grant, perform]
    rw [write_cartRam rfl (by decide), write_rom rfl (by decide), write_rom rfl (by decide),
      write_cartRam rfl (by decide), write_rom rfl (by decide), write_rom rfl (by decide)]
    simp only [mapConsole]
    rw [enables mbc3, selects, seconds 59, latches 0, latches 1, seconds 7]
    all_goals first | rfl | exact mbc3
  have enabled : m.console.hw.banks.ramEnabled = true := by rw [ended]; rfl
  have selected : m.console.hw.banks.ramSelect = 8 := by rw [ended]; rfl
  have live : m.console.hw.clock.live.seconds = 7 := by rw [ended]; rfl
  have frozen : m.console.hw.clock.latched.seconds = 59 := by rw [ended]; rfl
  obtain ⟨latched, window⟩ := latch_coherent accepted mbc3 none () demands
  obtain ⟨register, -, same, reads, -⟩ :=
    window 0xA000 (by decide) enabled (UInt8.le_of_eq selected.symm)
  have first : register = 0 := by
    rw [selected] at same
    simpa using same
  rw [first, ← latched] at reads
  exact ⟨enabled, selected, live, (Option.some.inj reads).symm.trans frozen⟩

end Machine

end GameBoy
