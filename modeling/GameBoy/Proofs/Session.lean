import GameBoy.Proofs.SafeRun

/-!
Sessions: what a user does to a machine, one operation after another. Main statement:
`operations_safe`, which says what holds of every machine that a session without devices reaches, and
that nothing it does fails.
-/

namespace GameBoy

/-- What can be done to a machine apart from saving and restoring it. -/
inductive Operation
  | tick
  | run (count : Nat)
  | read (address : UInt16)
  | write (address : UInt16) (v : UInt8)
  | hblank
  | setVramAccessible (accessible : Bool)
  | setOamAccessible (accessible : Bool)
  | request (line : Interrupt)
  | acknowledge (line : Interrupt)
  | loadBattery (saved : Memory)

/-- What an operation answers. -/
inductive Answer
  | done
  | byte (v : UInt8)
  | ticked (saved : Option Memory) (fault : Option Fault)
  | ran (journal : Journal) (fault : Option Fault)
deriving DecidableEq

namespace Cartridge

/-- An image of two empty banks whose header gives a cartridge type and a RAM size. -/
def blankImage (type ramCode : UInt8) : Memory :=
  ((Memory.zeros 0x8000).write 0x147 type).write 0x149 ramCode

/-- An image of two banks is accepted if its header names a controller and its RAM. -/
theorem ofImage_twoBanks {image : Memory} (size : image.size = 0x8000) (rom : image.read 0x148 = 0)
    (known : Header.controller? (image.read 0x147) = some chip)
    (sized : ramSizeFor? chip (image.read 0x149) = some ram) :
    ∃ cart, ofImage image = .ok cart ∧ cart.controller = chip ∧ cart.ramSize = ram := by
  have banks : Header.romBanks? 0 = some 2 := rfl
  have long : ¬0x8000 < Header.size := by decide
  have enough : ¬0x8000 < 2 * romBankSize := by decide
  unfold ofImage
  simp only [size, rom, known, sized, banks, long, enough, if_false]
  exact ⟨_, rfl, rfl, rfl⟩

/-- What the header of an accepted image says about the battery and the color model. -/
theorem ofImage_header {image : Memory} (accepted : ofImage image = .ok cart) :
    cart.hasBattery = Header.batteryTypes.contains (image.read 0x147) ∧
      cart.colorSupport = Header.colorSupport image := by
  simp only [ofImage] at accepted
  repeat' split at accepted
  all_goals cases accepted
  exact ⟨rfl, rfl⟩

/-- A blank image is accepted with any controller and RAM that a header can name. -/
theorem ofImage_blank (type ramCode : UInt8) {chip : Controller} {ram : Nat}
    (known : Header.controller? type = some chip) (sized : ramSizeFor? chip ramCode = some ram) :
    ∃ cart, ofImage (blankImage type ramCode) = .ok cart ∧ cart.controller = chip ∧
      cart.ramSize = ram := by
  apply ofImage_twoBanks
  · rw [blankImage, Memory.size_write, Memory.size_write, Memory.size_zeros]
  · rw [blankImage, Memory.read_write_ne _ (by decide), Memory.read_write_ne _ (by decide),
      Memory.read_zeros (by decide)]
  · rw [blankImage, Memory.read_write_ne _ (by decide), Memory.read_write_same, known]
    rw [Memory.size_zeros]
    decide
  · rw [blankImage, Memory.read_write_same, sized]
    rw [Memory.size_write, Memory.size_zeros]
    decide

end Cartridge

namespace Machine

def perform (m : Machine σ) : Operation → Answer × Machine σ
  | .tick => (.ticked m.tick.saved m.tick.fault, m.tick.machine)
  | .run count =>
    let r := run count m {}
    (.ran r.journal r.fault, r.machine)
  | .read address => (.byte (m.read address).1, (m.read address).2)
  | .write address v => (.done, m.write address v)
  | .hblank => (.done, m.mapConsole (·.hblank))
  | .setVramAccessible accessible => (.done, m.setVramAccessible accessible)
  | .setOamAccessible accessible => (.done, m.setOamAccessible accessible)
  | .request line => (.done, m.mapHardware (·.request line))
  | .acknowledge line => (.done, m.mapHardware (·.acknowledge line))
  | .loadBattery saved => (.done, m.mapConsole (·.loadBattery saved))

/-- Performs an operation with all indices, sums, differences and moduli checked. -/
def perform? (m : Machine σ) : Operation → Option (Answer × Machine σ)
  | .tick => do
    let t ← m.tick?
    return (.ticked t.saved t.fault, t.machine)
  | .run count => do
    let r ← run? count m {}
    return (.ran r.journal r.fault, r.machine)
  | .read address => do
    let (v, m) ← m.read? address
    return (.byte v, m)
  | .write address v => do return (.done, ← m.write? address v)
  | .hblank => do return (.done, { m with console := ← m.console.hblank? })
  | op => some (m.perform op)

/-- The machine after some operations. -/
def after (m : Machine σ) (operations : List Operation) : Machine σ :=
  operations.foldl (fun m op => (m.perform op).2) m

/-- There is room to count what an operation does: at each tick that a run begins, and now for
everything else. -/
def HasRoomFor (m : Machine σ) : Operation → Prop
  | .run count => HasRoomToRun count m
  | _ => m.HasRoom

/-- The bus leads to the memories that the hardware says are accessible. -/
structure Synced (m : Machine σ) : Prop where
  vram : m.vramVisible = m.console.hw.vramAccessible
  oam : m.oamVisible = m.console.hw.oamAccessible

end Machine

/-- The cartridge, what the hardware knows of it, and the sizes of all memories are the same. -/
structure Console.SameShape (c d : Console) : Prop where
  cart : d.cart = c.cart
  model : d.hw.model = c.hw.model
  identity : d.hw.identity = c.hw.identity
  romBanks : d.hw.romBanks = c.hw.romBanks
  cartRam : d.hw.cartRam.size = c.hw.cartRam.size
  vram : d.hw.vram.size = c.hw.vram.size
  wram : d.hw.wram.size = c.hw.wram.size

namespace Console

theorem SameShape.refl (c : Console) : c.SameShape c := ⟨rfl, rfl, rfl, rfl, rfl, rfl, rfl⟩

theorem SameShape.trans (first : SameShape c d) (second : SameShape d e) : c.SameShape e where
  cart := second.cart.trans first.cart
  model := second.model.trans first.model
  identity := second.identity.trans first.identity
  romBanks := second.romBanks.trans first.romBanks
  cartRam := second.cartRam.trans first.cartRam
  vram := second.vram.trans first.vram
  wram := second.wram.trans first.wram

theorem Evolves.sameShape (e : Evolves ticks c d) : c.SameShape d :=
  ⟨e.cart, e.model, e.identity, e.romBanks, e.cartRam, e.vram, e.wram⟩

/-- What is accessible over the bus is no matter of soundness. -/
theorem Sound.setAccessible {c : Console} (sound : c.Sound) (vramAccessible oamAccessible : Bool) :
    Sound { c with hw := { c.hw with vramAccessible, oamAccessible } } where
  cart := sound.cart
  identity := sound.identity
  cartRam := sound.cartRam
  vram := sound.vram
  wram := sound.wram
  romBanks := sound.romBanks
  banks := sound.banks
  ramSelect := sound.ramSelect
  clock := sound.clock
  oamDma := sound.oamDma
  vramDma := sound.vramDma

theorem Orderly.setAccessible {c : Console} (orderly : c.Orderly)
    (vramAccessible oamAccessible : Bool) :
    Orderly { c with hw := { c.hw with vramAccessible, oamAccessible } } where
  cart := orderly.cart
  identity := orderly.identity
  cartRam := orderly.cartRam
  vram := orderly.vram
  wram := orderly.wram
  romBanks := orderly.romBanks
  banks := orderly.banks
  ramSelect := orderly.ramSelect
  clock := orderly.clock
  timer := orderly.timer
  oamDma := orderly.oamDma
  vramDma := orderly.vramDma
  requested := orderly.requested

end Console

namespace Machine

/-- What operations on a machine without devices keep. -/
structure Keeps (m n : Machine σ) : Prop where
  handlers : n.handlers = m.handlers
  synced : m.Synced → n.Synced
  shape : m.console.SameShape n.console
  orderly : m.console.Orderly → n.console.Orderly
  sound : m.console.Sound → n.console.Sound
  stall : m.console.hw.stall.toNat % 8 = 0 → n.console.hw.stall.toNat % 8 = 0

theorem Keeps.refl (m : Machine σ) : m.Keeps m := ⟨rfl, id, .refl _, id, id, id⟩

theorem Keeps.trans {m n k : Machine σ} (first : m.Keeps n) (second : n.Keeps k) : m.Keeps k where
  handlers := second.handlers.trans first.handlers
  synced := second.synced ∘ first.synced
  shape := first.shape.trans second.shape
  orderly := second.orderly ∘ first.orderly
  sound := second.sound ∘ first.sound
  stall := second.stall ∘ first.stall

theorem Evolves.keeps {m n : Machine σ} (e : m.Evolves ticks n) : m.Keeps n where
  handlers := e.handlers
  synced synced :=
    ⟨by rw [e.vramVisible, e.console.vramAccessible, synced.vram],
      by rw [e.oamVisible, e.console.oamAccessible, synced.oam]⟩
  shape := e.console.sameShape
  orderly orderly := orderly.evolves e.console
  sound sound := sound.evolves e.console
  stall := e.console.stall

theorem setVramAccessible_keeps (m : Machine σ) (accessible : Bool) :
    m.Keeps (m.setVramAccessible accessible) where
  handlers := rfl
  synced synced := ⟨rfl, synced.oam⟩
  shape := ⟨rfl, rfl, rfl, rfl, rfl, rfl, rfl⟩
  orderly orderly := orderly.setAccessible accessible m.console.hw.oamAccessible
  sound sound := sound.setAccessible accessible m.console.hw.oamAccessible
  stall := id

theorem setOamAccessible_keeps (m : Machine σ) (accessible : Bool) :
    m.Keeps (m.setOamAccessible accessible) where
  handlers := rfl
  synced synced := ⟨synced.vram, rfl⟩
  shape := ⟨rfl, rfl, rfl, rfl, rfl, rfl, rfl⟩
  orderly orderly := orderly.setAccessible m.console.hw.vramAccessible accessible
  sound sound := sound.setAccessible m.console.hw.vramAccessible accessible
  stall := id

theorem perform_keeps (m : Machine σ) (bare : m.handlers = []) (op : Operation) :
    m.Keeps (m.perform op).2 := by
  cases op with
  | tick => exact (m.tick_evolves bare).keeps
  | run count =>
    obtain ⟨ticks, ran⟩ := run_evolves count m bare {}
    exact ran.keeps
  | read address =>
    show m.Keeps (m.read address).2
    rw [m.read_bare bare]
    exact .refl m
  | write address v => exact (m.write_evolves bare address v).keeps
  | hblank => exact (m.mapConsole_evolves m.console.hblank_evolves).keeps
  | setVramAccessible accessible => exact m.setVramAccessible_keeps accessible
  | setOamAccessible accessible => exact m.setOamAccessible_keeps accessible
  | request line =>
    exact (m.mapHardware_evolves (·.request line) (m.console.request_evolves line)).keeps
  | acknowledge line =>
    exact (m.mapHardware_evolves (·.acknowledge line) (m.console.acknowledge_evolves line)).keeps
  | loadBattery saved =>
    exact (m.mapConsole_evolves (f := (·.loadBattery saved))
      (m.console.loadBattery_evolves saved)).keeps

theorem after_keeps (m : Machine σ) (bare : m.handlers = []) (operations : List Operation) :
    m.Keeps (m.after operations) := by
  induction operations generalizing m with
  | nil => exact .refl m
  | cons op rest ih =>
    have first := m.perform_keeps bare op
    exact first.trans (ih (m.perform op).2 (first.handlers.trans bare))

/-- With room for what it counts, no operation on a sound machine fails. -/
theorem perform?_eq (m : Machine σ) (bare : m.handlers = []) (sound : m.console.Sound)
    (op : Operation) (room : m.HasRoomFor op) : m.perform? op = some (m.perform op) := by
  cases op with
  | tick =>
    rw [perform?, m.tick?_eq bare sound room]
    rfl
  | run count =>
    rw [perform?, run?_eq count m bare sound room]
    rfl
  | read address =>
    rw [perform?, m.read?_eq bare sound]
    rfl
  | write address v =>
    have stall := HasRoom.stall room
    rw [perform?, m.write?_eq bare sound (by omega)]
    rfl
  | hblank =>
    have stall := HasRoom.stall room
    rw [perform?, sound.hblank?_eq (by omega)]
    rfl
  | _ => rfl

theorem powerOn_orderly (accepted : Cartridge.ofImage image = .ok cart) (model : Option Model)
    (devices : σ) : (powerOn cart model devices).console.Orderly :=
  Console.powerOn_orderly (Cartridge.ofImage_wellFormed accepted).1 _

/-- Every machine that a session without devices reaches is orderly and has the shape that it had
when it was switched on, and as long as there is room to count, none of its operations leaves a memory
or the width of a number. -/
theorem operations_safe (accepted : Cartridge.ofImage image = .ok cart) (model : Option Model)
    (devices : σ) (operations : List Operation) :
    let start := powerOn cart model devices
    let m := start.after operations
    m.console.cart.image = image ∧ start.console.SameShape m.console ∧
      2 ≤ m.console.hw.romBanks.toNat ∧ m.console.Orderly ∧
        ∀ op, m.HasRoomFor op → m.perform? op = some (m.perform op) := by
  intro start m
  have keeps : start.Keeps m := start.after_keeps rfl operations
  have orderly := keeps.orderly (powerOn_orderly accepted model devices)
  obtain ⟨wellFormed, image⟩ := Cartridge.ofImage_wellFormed accepted
  refine ⟨?_, keeps.shape, ?_, orderly, ?_⟩
  · rw [keeps.shape.cart]
    exact image
  · rw [orderly.toFits.toNat_romBanks]
    exact orderly.cart.banks
  · exact m.perform?_eq keeps.handlers orderly.sound

theorem operations_safe_blank :
    ∃ cart, Cartridge.ofImage (Cartridge.blankImage 0x10 3) = .ok cart ∧
      let m := (powerOn cart none ()).after [.setOamAccessible false, .write 0xFF46 0xC0]
      m.console.Orderly ∧ m.perform? .tick = some (m.perform .tick) := by
  obtain ⟨cart, accepted, -, -⟩ := Cartridge.ofImage_blank 0x10 3 rfl rfl
  obtain ⟨-, -, -, orderly, safe⟩ :=
    operations_safe accepted none () [.setOamAccessible false, .write 0xFF46 0xC0]
  refine ⟨cart, accepted, orderly, safe .tick ⟨?_, ?_⟩⟩
  · show (0 : UInt64).toNat < 2 ^ 64 - 1
    decide
  · show (0 : UInt32).toNat < 2 ^ 32 - 2 ^ 13
    decide

end Machine

end GameBoy
