import Mathlib.Data.List.Induction
import GameBoy.Proofs.Session

/-!
The transfer into sprite memory while the processor uses the bus. Main statement: `sprites_copied`,
which says after every interleaving of clocks and accesses how far the transfer is, and where each
byte of sprite memory comes from.
-/

namespace GameBoy

/-- What can happen while a transfer runs: one of its clocks, or an access of the processor. -/
inductive Traffic
  | clock
  | read (address : UInt16)
  | write (address : UInt16) (v : UInt8)
deriving DecidableEq

namespace Traffic

/-- The clocks that have gone by. -/
def clocks (traffic : List Traffic) : Nat := traffic.count .clock

/-- No write comes after the last clock of a transfer. -/
def Timely (traffic : List Traffic) : Prop :=
  ∀ earlier address v later, traffic = earlier ++ .write address v :: later → clocks earlier < 640

variable {traffic : List Traffic}

@[simp] theorem clocks_concat_clock : clocks (traffic ++ [.clock]) = clocks traffic + 1 := by
  simp [clocks]

@[simp] theorem clocks_concat_read : clocks (traffic ++ [.read address]) = clocks traffic := by
  simp [clocks]

@[simp] theorem clocks_concat_write : clocks (traffic ++ [.write address v]) = clocks traffic := by
  simp [clocks]

theorem clocks_le_concat (traffic : List Traffic) (event : Traffic) :
    clocks traffic ≤ clocks (traffic ++ [event]) :=
  (List.sublist_append_left ..).count_le _

theorem Timely.init (timely : Timely (traffic ++ [event])) : Timely traffic := by
  intro earlier address v later split
  exact timely earlier address v (later ++ [event]) (by rw [split]; simp)

theorem Timely.last (timely : Timely (traffic ++ [.write address v])) : clocks traffic < 640 :=
  timely traffic address v [] rfl

end Traffic

namespace OamDma

/-- The address of the first byte that a transfer reads. -/
def page (v : UInt8) : UInt16 := if 0xFE ≤ v then (v - 0x20).toUInt16 <<< 8 else v.toUInt16 <<< 8

/-- The registers of a transfer after some of its clocks. -/
def progress (v : UInt8) (clocks : Nat) : OamDma where
  register := v
  active := clocks < 640
  source := page v
  ticks := UInt16.ofNat clocks
  bytes := UInt8.ofNat (clocks / 4)

theorem source_start (v : UInt8) : (start v).source = page v := by
  have shift (w : UInt8) : w.toUInt16 * (256 : UInt16) = w.toUInt16 <<< (8 : UInt16) := by
    apply UInt16.toNat.inj
    simp [Nat.shiftLeft_eq]
  unfold start sourcePage page
  split <;> exact shift _

theorem start_eq_progress (v : UInt8) : start v = progress v 0 := by
  rw [progress, ← source_start]
  rfl

/-- Every fourth clock copies a byte. -/
theorem byte_due (clocks : Nat) :
    UInt16.ofNat (clocks + 1) % ticksPerByte = 0 ↔ (clocks + 1) % 4 = 0 := by
  rw [← UInt16.toNat_inj]
  simp only [ticksPerByte, UInt16.toNat_mod, UInt16.toNat_ofNat', UInt16.reduceToNat]
  omega

theorem advance_progress (v : UInt8) {clocks : Nat} (running : clocks < 640) :
    (progress v clocks).advance = progress v (clocks + 1) := by
  have ticks : UInt16.ofNat clocks + 1 = UInt16.ofNat (clocks + 1) :=
    (UInt16.ofNat_add clocks 1).symm
  have bytes : UInt8.ofNat (clocks / 4) + 1 = UInt8.ofNat (clocks / 4 + 1) :=
    (UInt8.ofNat_add _ 1).symm
  have last : UInt8.ofNat (clocks / 4 + 1) = length ↔ clocks / 4 + 1 = 160 := by
    rw [← UInt8.toNat_inj]
    simp only [length, UInt8.toNat_ofNat', UInt8.reduceToNat]
    omega
  simp only [advance, progress, ticks, bytes, byte_due]
  split
  · have next : (clocks + 1) / 4 = clocks / 4 + 1 := by omega
    have ends : clocks / 4 + 1 ≠ 160 ↔ clocks + 1 < 640 := by omega
    simp only [next, Ne, last, ← ends]
  · have next : (clocks + 1) / 4 = clocks / 4 := by omega
    have goesOn : clocks + 1 < 640 := by omega
    simp only [next, goesOn, running]

/-- A transfer reads neither sprite memory nor what lies above it. -/
theorem page_add_lt (v : UInt8) (index : Nat) (inside : index < 160) :
    (page v + UInt16.ofNat index).toNat < 0xFE00 := by
  have page := (start_ranged v).source rfl
  rw [source_start] at page
  simp only [UInt16.toNat_add, UInt16.toNat_ofNat']
  omega

end OamDma

namespace Console

/-- A transfer reads the same whatever sprite memory holds and however far it is. -/
theorem wired_sprites (c : Console) (oam : Segment 0xA0) (oamDma : OamDma)
    (below : address.toNat < 0xFE00) :
    wired { c with hw := { c.hw with oam, oamDma } } address = c.wired address := by
  have spans := Region.spans_ofAddress address
  unfold wired
  cases region : Region.ofAddress address with
  | oam | unusable | io | hram | interruptEnable =>
    rw [region] at spans
    simp only [Region.Spans] at spans
    omega
  | _ => rfl

theorem clockOamDma_copies (c : Console) (running : c.hw.oamDma.active = true)
    (due : (c.hw.oamDma.ticks + 1) % OamDma.ticksPerByte = 0)
    (below : (c.hw.oamDma.source + c.hw.oamDma.bytes.toUInt16).toNat < 0xFE00) :
    c.clockOamDma =
      { c with
        hw :=
          { c.hw with
            oam :=
              c.hw.oam.write c.hw.oamDma.bytes.toNat
                (c.wired (c.hw.oamDma.source + c.hw.oamDma.bytes.toUInt16))
            oamDma := c.hw.oamDma.advance } } := by
  have same := c.wired_sprites c.hw.oam { c.hw.oamDma with ticks := c.hw.oamDma.ticks + 1 } below
  rw [clockOamDma, if_pos running, OamDma.advance]
  dsimp only
  rw [if_pos due, if_pos due, copyOamByte]
  dsimp only
  rw [same]

theorem clockOamDma_waits (c : Console) (running : c.hw.oamDma.active = true)
    (between : (c.hw.oamDma.ticks + 1) % OamDma.ticksPerByte ≠ 0) :
    c.clockOamDma = { c with hw := { c.hw with oamDma := c.hw.oamDma.advance } } := by
  rw [clockOamDma, if_pos running, OamDma.advance]
  dsimp only
  rw [if_neg between, if_neg between]

/-- A clock of the transfer changes nothing but the transfer and sprite memory. -/
theorem clockOamDma_sprites (c : Console) :
    ∃ oam oamDma, c.clockOamDma = { c with hw := { c.hw with oam, oamDma } } := by
  by_cases running : c.hw.oamDma.active = true
  · obtain ⟨oam, clocked⟩ := c.clockOamDma_eq running
    exact ⟨oam, _, clocked⟩
  · exact ⟨c.hw.oam, c.hw.oamDma, if_neg running⟩

/-- The transfer is as before, and while it runs so is sprite memory. -/
structure Spares (c d : Console) : Prop where
  oamDma : d.hw.oamDma = c.hw.oamDma
  oam : c.hw.oamDma.active = true → d.hw.oam = c.hw.oam

theorem Spares.refl (c : Console) : c.Spares c := ⟨rfl, fun _ => rfl⟩

/-- Writes to other registers leave a transfer alone. -/
theorem Written.spares {c d : Console} (written : c.Written region address d)
    (other : address ≠ 0xFF46) : c.Spares d := by
  cases written with
  | nothing => exact .refl c
  | oam idle => exact ⟨rfl, fun running => absurd running idle⟩
  | oamDma register => exact absurd register other
  | _ => exact { Spares.refl c with }

end Console

namespace Machine

/-- One thing happens to a machine beside a transfer, or a clock of it. -/
def pass (m : Machine σ) : Traffic → Machine σ
  | .clock => m.mapConsole (·.clockOamDma)
  | .read address => (m.read address).2
  | .write address v => m.write address v

/-- The machine after some traffic. -/
def afterTraffic (m : Machine σ) (traffic : List Traffic) : Machine σ := traffic.foldl pass m

theorem afterTraffic_concat (m : Machine σ) (traffic : List Traffic) (event : Traffic) :
    m.afterTraffic (traffic ++ [event]) = (m.afterTraffic traffic).pass event := by
  rw [afterTraffic, List.foldl_append]
  rfl

theorem write_spares {m : Machine σ} (bare : m.handlers = []) (other : address ≠ 0xFF46)
    (v : UInt8) : m.console.Spares (m.write address v).console := by
  rw [write, m.route_bare bare]
  by_cases shown : m.shows (.ofAddress address)
  · rw [if_pos shown]
    exact (m.console.writeRegion_written _ address v).spares other
  · rw [if_neg shown]
    exact .refl m.console

/-- A write to the register of the transfer begins one, and does nothing else. -/
theorem write_oamDma {m : Machine σ} (bare : m.handlers = []) (v : UInt8) :
    m.write 0xFF46 v =
      m.mapHardware fun hw => { hw with oamDma := .start v } := by
  rw [write, m.route_bare bare]
  rfl

/-- A transfer on a machine without devices, after some traffic. -/
structure Transfers (v : UInt8) (traffic : List Traffic) (m : Machine σ) : Prop where
  bare : m.handlers = []
  progress : m.console.hw.oamDma = .progress v (Traffic.clocks traffic)

/-- What sprite memory holds after some traffic since the start of a transfer: a byte for every four
clocks, which is what its source held when the last of these clocks began, and then the bytes that
it held at the start. -/
structure Copied (start : Machine σ) (v : UInt8) (traffic : List Traffic) (oam : Segment 0xA0) :
    Prop where
  fresh (index : Nat) : index < Traffic.clocks traffic / 4 → ∃ earlier later,
    traffic = earlier ++ .clock :: later ∧ Traffic.clocks earlier = 4 * index + 3 ∧
      oam.read index =
        (start.afterTraffic earlier).console.wired (OamDma.page v + UInt16.ofNat index)
  stale (index : Nat) : Traffic.clocks traffic / 4 ≤ index →
    oam.read index = start.console.hw.oam.read index

namespace Transfers

variable {m : Machine σ}

theorem active (transfers : m.Transfers v traffic) :
    m.console.hw.oamDma.active = true ↔ Traffic.clocks traffic < 640 := by
  rw [transfers.progress, OamDma.progress, decide_eq_true_eq]

theorem pass (transfers : m.Transfers v traffic) (other : ∀ w, event ≠ .write 0xFF46 w)
    (most : Traffic.clocks (traffic ++ [event]) ≤ 640) :
    (m.pass event).Transfers v (traffic ++ [event]) := by
  cases event with
  | clock =>
    rw [Traffic.clocks_concat_clock] at most
    obtain ⟨oam, clocked⟩ := m.console.clockOamDma_eq (transfers.active.mpr most)
    refine ⟨transfers.bare, ?_⟩
    show m.console.clockOamDma.hw.oamDma = _
    rw [clocked, Traffic.clocks_concat_clock, ← OamDma.advance_progress v most, transfers.progress]
  | read address =>
    have same : m.pass (.read address) = m := m.read_bare transfers.bare address
    rw [same]
    exact ⟨transfers.bare, by rw [transfers.progress, Traffic.clocks_concat_read]⟩
  | write address w =>
    have elsewhere : address ≠ 0xFF46 := fun same => other w (by rw [same])
    have spares := write_spares transfers.bare elsewhere w
    refine ⟨(m.write_evolves transfers.bare address w).bare transfers.bare, ?_⟩
    rw [Traffic.clocks_concat_write, ← transfers.progress]
    exact spares.oamDma

/-- A clock copies a byte if it is the fourth since the last byte, and nothing otherwise. -/
theorem oam_clock (transfers : m.Transfers v traffic) (running : Traffic.clocks traffic < 640) :
    (m.pass .clock).console.hw.oam =
      if (Traffic.clocks traffic + 1) % 4 = 0 then
        m.console.hw.oam.write (Traffic.clocks traffic / 4)
          (m.console.wired (OamDma.page v + UInt16.ofNat (Traffic.clocks traffic / 4)))
      else m.console.hw.oam := by
  have active := transfers.active.mpr running
  have next : m.console.hw.oamDma.ticks + 1 = UInt16.ofNat (Traffic.clocks traffic + 1) := by
    rw [transfers.progress]
    exact (UInt16.ofNat_add _ 1).symm
  have index : m.console.hw.oamDma.bytes.toNat = Traffic.clocks traffic / 4 := by
    rw [transfers.progress, OamDma.progress, UInt8.toNat_ofNat']
    omega
  have source : m.console.hw.oamDma.source + m.console.hw.oamDma.bytes.toUInt16 =
      OamDma.page v + UInt16.ofNat (Traffic.clocks traffic / 4) := by
    rw [← index, UInt16.ofNat_uInt8ToNat, transfers.progress]
    rfl
  show m.console.clockOamDma.hw.oam = _
  split
  · next due =>
    have below := OamDma.page_add_lt v (Traffic.clocks traffic / 4) (by omega)
    rw [m.console.clockOamDma_copies active, source, index]
    · rw [next, OamDma.byte_due]
      exact due
    · rw [source]
      exact below
  · next between =>
    rw [m.console.clockOamDma_waits active]
    rw [next, Ne, OamDma.byte_due]
    exact between

/-- The processor sees no sprite memory while a transfer runs. -/
theorem read_sprites (transfers : m.Transfers v traffic) (running : Traffic.clocks traffic < 640)
    (sprites : Region.ofAddress address = .oam) : (m.read address).1 = openBus := by
  rw [Machine.read, m.route_bare transfers.bare, sprites]
  by_cases shown : m.shows .oam = true
  · rw [if_pos shown]
    exact if_pos (transfers.active.mpr running)
  · rw [if_neg shown]

theorem write_sprites (transfers : m.Transfers v traffic) (running : Traffic.clocks traffic < 640)
    (sprites : Region.ofAddress address = .oam) (w : UInt8) : m.write address w = m := by
  have dropped : m.console.writeRegion .oam address w = m.console :=
    if_pos (transfers.active.mpr running)
  rw [Machine.write, m.route_bare transfers.bare, sprites]
  by_cases shown : m.shows .oam = true
  · rw [if_pos shown]
    dsimp only
    rw [mapConsole, dropped]
  · rw [if_neg shown]

end Transfers

namespace Copied

variable {start : Machine σ} {oam : Segment 0xA0}

/-- What is no clock copies nothing. -/
theorem beside (copied : start.Copied v traffic oam)
    (same : Traffic.clocks (traffic ++ [event]) = Traffic.clocks traffic) :
    start.Copied v (traffic ++ [event]) oam where
  fresh index inside := by
    rw [same] at inside
    obtain ⟨earlier, later, rfl, clocks, byte⟩ := copied.fresh index inside
    exact ⟨earlier, later ++ [event], by simp, clocks, byte⟩
  stale index outside := copied.stale index (same ▸ outside)

theorem wait (copied : start.Copied v traffic oam)
    (between : (Traffic.clocks traffic + 1) % 4 ≠ 0) :
    start.Copied v (traffic ++ [.clock]) oam where
  fresh index inside := by
    rw [Traffic.clocks_concat_clock] at inside
    obtain ⟨earlier, later, rfl, clocks, byte⟩ := copied.fresh index (by omega)
    exact ⟨earlier, later ++ [.clock], by simp, clocks, byte⟩
  stale index outside := copied.stale index (by rw [Traffic.clocks_concat_clock] at outside; omega)

theorem copy (copied : start.Copied v traffic oam) (due : (Traffic.clocks traffic + 1) % 4 = 0)
    (running : Traffic.clocks traffic < 640) :
    start.Copied v (traffic ++ [.clock])
      (oam.write (Traffic.clocks traffic / 4)
        ((start.afterTraffic traffic).console.wired
          (OamDma.page v + UInt16.ofNat (Traffic.clocks traffic / 4)))) where
  fresh index inside := by
    rw [Traffic.clocks_concat_clock] at inside
    by_cases last : Traffic.clocks traffic / 4 = index
    · subst last
      refine ⟨traffic, [], rfl, by omega, ?_⟩
      rw [oam.read_write_same (by omega)]
    · obtain ⟨earlier, later, rfl, clocks, byte⟩ := copied.fresh index (by omega)
      refine ⟨earlier, later ++ [.clock], by simp, clocks, ?_⟩
      rw [oam.read_write_ne last, byte]
  stale index outside := by
    rw [Traffic.clocks_concat_clock] at outside
    rw [oam.read_write_ne (by omega), copied.stale index (by omega)]

theorem pass {m : Machine σ} (copied : start.Copied v traffic m.console.hw.oam)
    (transfers : m.Transfers v traffic) (reached : start.afterTraffic traffic = m)
    (other : ∀ w, event ≠ .write 0xFF46 w) (most : Traffic.clocks (traffic ++ [event]) ≤ 640)
    (timely : Traffic.Timely (traffic ++ [event])) :
    start.Copied v (traffic ++ [event]) (m.pass event).console.hw.oam := by
  cases event with
  | clock =>
    rw [Traffic.clocks_concat_clock] at most
    rw [transfers.oam_clock most, ← reached]
    split
    · next due => exact (reached ▸ copied).copy due most
    · next between => exact (reached ▸ copied).wait between
  | read address =>
    have same : m.pass (.read address) = m := m.read_bare transfers.bare address
    rw [same]
    exact copied.beside Traffic.clocks_concat_read
  | write address w =>
    have elsewhere : address ≠ 0xFF46 := fun same => other w (by rw [same])
    have spares := write_spares transfers.bare elsewhere w
    have kept : (m.pass (.write address w)).console.hw.oam = m.console.hw.oam :=
      spares.oam (transfers.active.mpr timely.last)
    rw [kept]
    exact copied.beside Traffic.clocks_concat_write

end Copied

/-! A whole transfer. -/

variable {m : Machine σ}

theorem transfers_after (bare : m.handlers = []) (v : UInt8) (traffic : List Traffic)
    (other : ∀ w, .write 0xFF46 w ∉ traffic) (most : Traffic.clocks traffic ≤ 640) :
    ((m.write 0xFF46 v).afterTraffic traffic).Transfers v traffic := by
  induction traffic using List.reverseRecOn with
  | nil =>
    rw [m.write_oamDma bare]
    exact ⟨bare, OamDma.start_eq_progress v⟩
  | append_singleton traffic event ih =>
    have transfers := ih (fun w member => other w (List.mem_append_left _ member))
      (Nat.le_trans (Traffic.clocks_le_concat traffic event) most)
    rw [afterTraffic_concat]
    exact transfers.pass (fun w same => other w (same ▸ List.mem_concat_self)) most

theorem copied_after (bare : m.handlers = []) (v : UInt8) (traffic : List Traffic)
    (other : ∀ w, .write 0xFF46 w ∉ traffic) (most : Traffic.clocks traffic ≤ 640)
    (timely : Traffic.Timely traffic) :
    (m.write 0xFF46 v).Copied v traffic
      ((m.write 0xFF46 v).afterTraffic traffic).console.hw.oam := by
  induction traffic using List.reverseRecOn with
  | nil => exact ⟨nofun, fun _ _ => rfl⟩
  | append_singleton traffic event ih =>
    have others : ∀ w, .write 0xFF46 w ∉ traffic := fun w member =>
      other w (List.mem_append_left _ member)
    have fewer := Nat.le_trans (Traffic.clocks_le_concat traffic event) most
    have copied := ih others fewer timely.init
    rw [afterTraffic_concat]
    exact copied.pass (transfers_after bare v traffic others fewer) rfl
      (fun w same => other w (same ▸ List.mem_concat_self)) most timely

/-- Traffic without writes changes nothing but the transfer and sprite memory. -/
theorem afterTraffic_reads (bare : m.handlers = []) (traffic : List Traffic)
    (readOnly : ∀ address w, .write address w ∉ traffic) :
    ∃ oam oamDma, m.afterTraffic traffic = m.mapHardware fun hw => { hw with oam, oamDma } := by
  induction traffic using List.reverseRecOn with
  | nil => exact ⟨m.console.hw.oam, m.console.hw.oamDma, rfl⟩
  | append_singleton traffic event ih =>
    obtain ⟨oam, oamDma, same⟩ := ih fun address w member =>
      readOnly address w (List.mem_append_left _ member)
    rw [afterTraffic_concat, same]
    cases event with
    | clock =>
      obtain ⟨oam, oamDma, clocked⟩ := Console.clockOamDma_sprites
        { m.console with hw := { m.console.hw with oam, oamDma } }
      exact ⟨oam, oamDma, congrArg (fun console => { m with console }) clocked⟩
    | read address => exact ⟨oam, oamDma, (m.mapHardware _).read_bare bare address⟩
    | write address w => exact absurd List.mem_concat_self (readOnly address w)

/-- If nothing is written meanwhile, a transfer reads its source as it was. -/
theorem wired_afterTraffic (bare : m.handlers = []) (v : UInt8) {traffic : List Traffic}
    (readOnly : ∀ address w, .write address w ∉ traffic) (below : address.toNat < 0xFE00) :
    ((m.write 0xFF46 v).afterTraffic traffic).console.wired address =
      m.console.wired address := by
  have started : (m.write 0xFF46 v).handlers = [] := (m.write_evolves bare 0xFF46 v).bare bare
  obtain ⟨oam, oamDma, same⟩ := afterTraffic_reads started traffic readOnly
  rw [same, m.write_oamDma bare]
  exact m.console.wired_sprites oam oamDma below

/-- A transfer from page `v` on a machine without devices, interleaved with any accesses that do not
begin another one: it runs until its last clock; by then it has copied one byte for every four
clocks, each as it was found at its own clock, and nothing else has reached sprite memory; meanwhile
the processor can neither read nor write sprite memory. If nothing was written, the bytes are those
that the source held at the start. A new write to the register begins again with the first byte. -/
theorem sprites_copied (bare : m.handlers = []) (v : UInt8) {traffic : List Traffic}
    (other : ∀ w, .write 0xFF46 w ∉ traffic) (most : Traffic.clocks traffic ≤ 640) :
    let clocks := Traffic.clocks traffic
    let start := m.write 0xFF46 v
    let n := start.afterTraffic traffic
    let oam := n.console.hw.oam
    (n.console.hw.oamDma.active = true ↔ clocks < 640) ∧
    (Traffic.Timely traffic →
      (∀ index, index < clocks / 4 → ∃ earlier later,
        traffic = earlier ++ .clock :: later ∧ Traffic.clocks earlier = 4 * index + 3 ∧
          oam.read index =
            (start.afterTraffic earlier).console.wired (OamDma.page v + UInt16.ofNat index)) ∧
      ∀ index, clocks / 4 ≤ index → oam.read index = m.console.hw.oam.read index) ∧
    (clocks < 640 → ∀ address, 0xFE00 ≤ address → address ≤ 0xFE9F →
      (n.read address).1 = 0xFF ∧ ∀ w, n.write address w = n) ∧
    (clocks = 640 → (∀ address w, .write address w ∉ traffic) → ∀ index, index < 160 →
      oam.read index = m.console.wired (OamDma.page v + UInt16.ofNat index)) ∧
    ∀ w, n.write 0xFF46 w = n.mapHardware fun hw =>
      { hw with
        oamDma :=
          { register := w, active := true, source := OamDma.page w, ticks := 0, bytes := 0 } } := by
  intro clocks start n oam
  have transfers : n.Transfers v traffic := transfers_after bare v traffic other most
  refine ⟨transfers.active, ?_, ?_, ?_, ?_⟩
  · intro timely
    have copied : start.Copied v traffic oam := copied_after bare v traffic other most timely
    refine ⟨copied.fresh, fun index outside => ?_⟩
    have unwritten : start.console.hw.oam = m.console.hw.oam := by
      rw [show start = _ from m.write_oamDma bare v]
      rfl
    rw [← unwritten]
    exact copied.stale index outside
  · intro running address first last
    have sprites := Region.ofAddress_oam (Region.spans_oam_iff.mpr ⟨first, last⟩)
    exact ⟨transfers.read_sprites running sprites, transfers.write_sprites running sprites⟩
  · intro done readOnly index inside
    have timely : Traffic.Timely traffic := by
      rintro earlier address w later rfl
      exact absurd List.mem_append_cons_self (readOnly address w)
    have copied : start.Copied v traffic oam := copied_after bare v traffic other most timely
    obtain ⟨earlier, later, rfl, -, byte⟩ := copied.fresh index (by omega)
    rw [byte]
    exact wired_afterTraffic bare v
      (fun address w member => readOnly address w (List.mem_append_left _ member))
      (OamDma.page_add_lt v index inside)
  · intro w
    rw [n.write_oamDma transfers.bare, ← OamDma.source_start]
    rfl

/-- A byte of work RAM is in sprite memory when a transfer has ended. -/
theorem sprites_copied_work_ram :
    ∃ cart, Cartridge.ofImage (Cartridge.blankImage 0x00 0) = .ok cart ∧
      ∃ traffic : List Traffic, Traffic.clocks traffic = 640 ∧ .read 0xFE00 ∈ traffic ∧
        let m := (powerOn cart none ()).write 0xC005 0x77
        let n := (m.write 0xFF46 0xC0).afterTraffic traffic
        n.console.hw.oamDma.active = false ∧ n.console.hw.oam.read 5 = 0x77 := by
  obtain ⟨cart, accepted, -, -⟩ := Cartridge.ofImage_blank 0x00 0 rfl rfl
  have clocks : Traffic.clocks (.read 0xFE00 :: List.replicate 640 .clock) = 640 :=
    (List.count_cons_of_ne (by decide)).trans List.count_replicate_self
  have readOnly (address : UInt16) (w : UInt8) :
      Traffic.write address w ∉ Traffic.read 0xFE00 :: List.replicate 640 .clock := by
    intro member
    rcases List.mem_cons.mp member with same | later
    · cases same
    · cases List.eq_of_mem_replicate later
  refine ⟨cart, accepted, _, clocks, List.mem_cons_self, ?_⟩
  generalize Traffic.read 0xFE00 :: List.replicate 640 .clock = traffic at clocks readOnly ⊢
  intro m n
  obtain ⟨active, -, -, copied, -⟩ :=
    sprites_copied (m := m) rfl 0xC0 (readOnly 0xFF46) (Nat.le_of_eq clocks)
  have inside : 5 < (powerOn cart none ()).console.hw.wram.size := by
    rw [(powerOn_orderly accepted none ()).wram]
    cases (powerOn cart none ()).console.hw.model <;> decide
  refine ⟨Bool.eq_false_iff.mpr fun running => ?_, (copied clocks readOnly 5 (by decide)).trans ?_⟩
  · exact absurd (active.mp running) (Nat.not_lt.mpr (Nat.le_of_eq clocks.symm))
  · have source : OamDma.page 0xC0 + UInt16.ofNat 5 = 0xC005 := by decide
    have region : Region.ofAddress 0xC005 = .wramFixed := by decide
    have written :
        m.console = (powerOn cart none ()).console.writeRegion .wramFixed 0xC005 0x77 := by
      show ((powerOn cart none ()).write 0xC005 0x77).console = _
      rw [Machine.write, route_bare _ rfl, region]
      rfl
    rw [source, Console.wired, region, written]
    exact Memory.read_write_same inside 0x77

end Machine

end GameBoy
