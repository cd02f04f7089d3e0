import GameBoy.Proofs.Restore

/-!
All that can be asked of a session, devices and snapshots from anywhere included, and what a session
reaches by it. Main statement: `load_sound_iff`, which says when a machine that has taken over a
snapshot has all that it relies on.
-/

namespace GameBoy

/-- Everything that can be asked of a session. -/
inductive Command
  | operation (op : Operation)
  | runInstruction (limit : Nat)
  | step
  | serveInterrupts
  | clockTimer
  | clockOamDma
  | clockCartridge
  | readWired (address : UInt16)
  | disassemble (count : Nat)
  | sync
  | save
  | load (bytes : List UInt8)

/-- A display asks for it: it says what the bus leads to. -/
def Operation.governsBus : Operation → Bool
  | .setVramAccessible _ | .setOamAccessible _ => true
  | _ => false

/-- It says what the bus leads to, or brings the bus in line with the hardware. -/
def Command.governsBus : Command → Bool
  | .operation op => op.governsBus
  | .sync | .load _ => true
  | _ => false

/-- What a session replies. -/
inductive Reply
  | done
  | answer (a : Answer)
  | ran (run : Option (Journal × Option Fault))
  | clocks (count : UInt32)
  | byte (v : UInt8)
  | listing (lines : List (UInt16 × Instruction))
  | snapshot (bytes : List UInt8)
  | restored (refusal : Option SnapshotError)

namespace Machine

/-- Restores a snapshot, or stays as it is and says why. -/
def restore (m : Machine σ) (bytes : List UInt8) : Option SnapshotError × Machine σ :=
  match m.load bytes with
  | .ok n => (none, n)
  | .error e => (some e, m)

/-- Does what is asked. A run that does not come to rest in time is given up. -/
def obey (m : Machine σ) : Command → Reply × Machine σ
  | .operation op => (.answer (m.perform op).1, (m.perform op).2)
  | .runInstruction limit =>
    match runInstruction? limit m {} with
    | some r => (.ran (some (r.journal, r.fault)), r.machine)
    | none => (.ran none, m)
  | .step => (.clocks m.step.1, m.step.2)
  | .serveInterrupts => (.done, m.serveInterrupts)
  | .clockTimer => (.done, m.mapHardware (·.clockTimer))
  | .clockOamDma => (.done, m.mapConsole (·.clockOamDma))
  | .clockCartridge => (.done, m.mapConsole (·.tickCartridge))
  | .readWired address => (.byte (m.console.wired address), m)
  | .disassemble count =>
    (.listing (disassemble count m.console.hw.cpu.pc m).1,
      (disassemble count m.console.hw.cpu.pc m).2)
  | .sync => (.done, m.sync)
  | .save => (.snapshot m.save, m)
  | .load bytes => (.restored (m.restore bytes).1, (m.restore bytes).2)

/-- Does one thing after another. -/
def obeyAll (m : Machine σ) : List Command → List Reply × Machine σ
  | [] => ([], m)
  | command :: rest =>
    ((m.obey command).1 :: ((m.obey command).2.obeyAll rest).1, ((m.obey command).2.obeyAll rest).2)

/-- A simulation that lasts through a session: also through what a display does to the bus. -/
structure SessionSimulation (R : Nat → Machine σ → Machine τ → Prop) : Prop
    extends Simulation R where
  setVramAccessible : R ticks m n → ∀ accessible,
    R ticks (m.setVramAccessible accessible) (n.setVramAccessible accessible)
  setOamAccessible : R ticks m n → ∀ accessible,
    R ticks (m.setOamAccessible accessible) (n.setOamAccessible accessible)

/-- A simulation that also lasts through snapshots. -/
structure Bisimulation (R : Nat → Machine σ → Machine τ → Prop) : Prop
    extends SessionSimulation R where
  sync : R ticks m n → R ticks m.sync n.sync
  restore : R ticks m n → ∀ bytes,
    (n.restore bytes).1 = (m.restore bytes).1 ∧ R ticks (m.restore bytes).2 (n.restore bytes).2

namespace Simulation

variable {R : Nat → Machine σ → Machine τ → Prop} {m : Machine σ} {n : Machine τ}

theorem perform (sim : Simulation R) (related : R ticks m n) {op : Operation}
    (steady : op.governsBus = false) :
    (n.perform op).1 = (m.perform op).1 ∧ ∃ now, R now (m.perform op).2 (n.perform op).2 := by
  cases op with
  | tick =>
    obtain ⟨saved, fault, ticked⟩ := sim.tick related
    simp only [Machine.perform, saved, fault]
    exact ⟨trivial, _, ticked⟩
  | run count =>
    obtain ⟨journal, fault, now, ran⟩ := sim.run related count {}
    simp only [Machine.perform, journal, fault]
    exact ⟨trivial, now, ran⟩
  | read address =>
    obtain ⟨same, after⟩ := sim.read related address
    simp only [Machine.perform, same]
    exact ⟨trivial, ticks, after⟩
  | write address v => exact ⟨rfl, ticks, sim.write related address v⟩
  | hblank => exact ⟨rfl, ticks, sim.mapConsole related Console.hblank_moves⟩
  | setVramAccessible | setOamAccessible => cases steady
  | request line =>
    exact ⟨rfl, ticks, sim.mapHardware (f := (·.request line)) related (·.request_moves line)⟩
  | acknowledge line =>
    exact ⟨rfl, ticks,
      sim.mapHardware (f := (·.acknowledge line)) related (·.acknowledge_moves line)⟩
  | loadBattery saved => exact ⟨rfl, ticks, sim.mapConsole related (·.loadBattery_moves saved)⟩

theorem obey (sim : Simulation R) (ticks : Nat) (related : R ticks m n) {command : Command}
    (steady : command.governsBus = false) :
    (n.obey command).1 = (m.obey command).1 ∧ ∃ now, R now (m.obey command).2 (n.obey command).2 := by
  have console := sim.console related
  cases command with
  | operation op =>
    obtain ⟨same, after⟩ := sim.perform related steady
    exact ⟨congrArg Reply.answer same, after⟩
  | runInstruction limit =>
    have ran := sim.runInstruction? related limit {}
    simp only [Machine.obey]
    generalize Machine.runInstruction? limit m {} = r at ran
    generalize Machine.runInstruction? limit n {} = t at ran
    cases ran with
    | none => exact ⟨rfl, ticks, related⟩
    | some ends =>
      obtain ⟨journal, fault, after⟩ := ends
      dsimp only
      rw [journal, fault]
      exact ⟨rfl, after⟩
  | step =>
    obtain ⟨clocks, after⟩ := sim.step related
    exact ⟨congrArg Reply.clocks clocks, ticks, after⟩
  | serveInterrupts => exact ⟨rfl, ticks, sim.serveInterrupts related⟩
  | clockTimer => exact ⟨rfl, ticks, sim.mapHardware related Console.clockTimer_moves⟩
  | clockOamDma => exact ⟨rfl, ticks, sim.mapConsole related Console.clockOamDma_moves⟩
  | clockCartridge => exact ⟨rfl, ticks, sim.mapConsole related Console.tickCartridge_moves⟩
  | readWired address =>
    simp only [Machine.obey, console]
    exact ⟨trivial, ticks, related⟩
  | disassemble count =>
    obtain ⟨lines, after⟩ := sim.disassemble related count m.console.hw.cpu.pc
    simp only [Machine.obey, console, lines]
    exact ⟨trivial, ticks, after⟩
  | save =>
    simp only [Machine.obey, Machine.save, console]
    exact ⟨trivial, ticks, related⟩
  | sync | load => cases steady

end Simulation

namespace SessionSimulation

variable {R : Nat → Machine σ → Machine τ → Prop} {m : Machine σ} {n : Machine τ}

theorem perform (sim : SessionSimulation R) (related : R ticks m n) (op : Operation) :
    (n.perform op).1 = (m.perform op).1 ∧ ∃ now, R now (m.perform op).2 (n.perform op).2 := by
  cases op with
  | setVramAccessible accessible => exact ⟨rfl, ticks, sim.setVramAccessible related accessible⟩
  | setOamAccessible accessible => exact ⟨rfl, ticks, sim.setOamAccessible related accessible⟩
  | _ => exact sim.toSimulation.perform related rfl

theorem after (sim : SessionSimulation R) (ticks : Nat) (related : R ticks m n)
    (operations : List Operation) : ∃ now, R now (m.after operations) (n.after operations) := by
  induction operations generalizing ticks m n with
  | nil => exact ⟨ticks, related⟩
  | cons op rest ih =>
    obtain ⟨-, now, performed⟩ := sim.perform related op
    exact ih now performed

end SessionSimulation

namespace Bisimulation

variable {R : Nat → Machine σ → Machine τ → Prop} {m : Machine σ} {n : Machine τ}

theorem obey (sim : Bisimulation R) (ticks : Nat) (related : R ticks m n) (command : Command) :
    (n.obey command).1 = (m.obey command).1 ∧ ∃ now, R now (m.obey command).2 (n.obey command).2 := by
  cases command with
  | operation op =>
    obtain ⟨same, after⟩ := sim.perform related op
    exact ⟨congrArg Reply.answer same, after⟩
  | sync => exact ⟨rfl, ticks, sim.sync related⟩
  | load bytes =>
    obtain ⟨same, after⟩ := sim.restore related bytes
    exact ⟨congrArg Reply.restored same, ticks, after⟩
  | _ => exact sim.toSimulation.obey ticks related rfl

theorem obeyAll (sim : Bisimulation R) (ticks : Nat) (related : R ticks m n)
    (commands : List Command) :
    (n.obeyAll commands).1 = (m.obeyAll commands).1 ∧
      ∃ now, R now (m.obeyAll commands).2 (n.obeyAll commands).2 := by
  induction commands generalizing ticks m n with
  | nil => exact ⟨rfl, ticks, related⟩
  | cons command rest ih =>
    obtain ⟨same, now, after⟩ := sim.obey ticks related command
    obtain ⟨sameRest, ended⟩ := ih now after
    simp only [Machine.obeyAll, same, sameRest]
    exact ⟨trivial, ended⟩

end Bisimulation

end Machine

/-! What is never lost. -/

/-- A device keeps what is so of the consoles that it is attached to. -/
def Handler.Keeps (P : Console → Prop) (h : Handler σ) : Prop :=
  ∀ c address v devices, P c → P (h.write c address v devices).1

/-- What stays so of a console, whatever it does by itself, whatever a display does to it and
whatever snapshot it accepts. -/
structure Console.Lasting (P : Console → Prop) : Prop where
  evolves {c d : Console} (e : c.Evolves ticks d) (holds : P c) : P d
  shows {c : Console} (holds : P c) (vram oam : Bool) :
    P { c with hw := { c.hw with vramAccessible := vram, oamAccessible := oam } }
  restores {c : Console} {hw : Hardware} (accepts : c.Accepts hw) (holds : P c) :
    P { hw, cart := c.cart }

/-- A cartridge is in the slot: the hardware has its fingerprint and as much RAM as it has. -/
structure Console.Holds (game : Cartridge) (c : Console) : Prop where
  cart : c.cart = game
  identity : c.hw.identity = game.identity
  cartRam : c.hw.cartRam.size = game.ramSize

/-- A device that leaves a cartridge in the slot. -/
def Handler.Considerate (game : Cartridge) (h : Handler σ) : Prop :=
  ∀ c address v devices, c.Holds game → (h.write c address v devices).1.Holds game

theorem Console.Holds.evolves {c d : Console} (holds : c.Holds game) (e : c.Evolves ticks d) :
    d.Holds game where
  cart := e.cart.trans holds.cart
  identity := e.identity.trans holds.identity
  cartRam := e.cartRam.trans holds.cartRam

theorem Console.Holds.lasting (game : Cartridge) : Console.Lasting (Console.Holds game) where
  evolves e holds := holds.evolves e
  shows holds _ _ := ⟨holds.cart, holds.identity, holds.cartRam⟩
  restores accepts holds := ⟨holds.cart, accepts.identity.trans holds.identity,
    accepts.cartRam.trans holds.cartRam⟩

theorem Console.Sized.lasting : Console.Lasting Console.Sized where
  evolves e sized := sized.evolves e
  shows sized _ _ := ⟨sized.cart, sized.identity, sized.cartRam, sized.vram, sized.wram⟩
  restores accepts sized := ⟨sized.cart, accepts.identity.trans sized.identity,
    accepts.cartRam.trans sized.cartRam, accepts.vram, accepts.wram⟩

namespace Machine

theorem restore_cases (m : Machine σ) (bytes : List UInt8) :
    (m.restore bytes).2 = m ∨ ∃ hw, m.console.Accepts hw ∧
      (m.restore bytes).2 = { m with console := { hw, cart := m.console.cart } }.sync := by
  unfold restore
  cases loaded : m.load bytes with
  | error e => exact .inl rfl
  | ok n =>
    obtain ⟨hw, -, accepts, restored⟩ := load_eq_ok_iff.mp loaded
    exact .inr ⟨hw, accepts, restored⟩

theorem route_handler {m : Machine σ} (led : m.route address = .handler handler) :
    ∃ entry ∈ m.handlers, entry.2 = handler := by
  unfold route at led
  cases found : m.handlers.lookup address with
  | some other =>
    rw [found] at led
    obtain ⟨before, after, split, -⟩ := List.lookup_eq_some_iff.mp found
    refine ⟨(address, other), ?_, Route.handler.inj led⟩
    rw [split]
    exact List.mem_append_cons_self
  | none =>
    rw [found] at led
    dsimp only at led
    split at led <;> cases led

theorem route_memory {m : Machine σ} (led : m.route address = .memory region) :
    region.Spans address := by
  unfold route at led
  cases found : m.handlers.lookup address with
  | some other =>
    rw [found] at led
    cases led
  | none =>
    rw [found] at led
    dsimp only at led
    split at led
    · cases led
      exact Region.spans_ofAddress address
    · cases led

/-- What lasts, and what devices keep, stays so through all that can be asked of a session. -/
theorem lasting_bisimulation {P : Console → Prop} {handlers : List (UInt16 × Handler σ)}
    (lasting : Console.Lasting P) (devices : ∀ entry ∈ handlers, entry.2.Keeps P) :
    Bisimulation fun (_ : Nat) (m n : Machine σ) =>
      n = m ∧ m.handlers = handlers ∧ P m.console where
  console same := congrArg Machine.console same.1
  own := by
    rintro _ _ _ m f ⟨rfl, kept, holds⟩ moves
    exact ⟨rfl, kept, lasting.evolves (moves _).toEvolves holds⟩
  read := by
    rintro _ _ m ⟨rfl, kept, holds⟩ address
    refine ⟨rfl, rfl, ?_⟩
    unfold Machine.read
    split <;> exact ⟨kept, holds⟩
  write := by
    rintro _ _ m ⟨rfl, kept, holds⟩ address v
    refine ⟨rfl, ?_⟩
    unfold Machine.write
    split
    · next region led =>
      have written := m.console.writeRegion_evolves (route_memory led) v
      exact ⟨kept, lasting.evolves written holds⟩
    · exact ⟨kept, holds⟩
    · next handler led =>
      obtain ⟨entry, member, rfl⟩ := route_handler led
      exact ⟨kept, devices entry (kept ▸ member) _ _ _ _ holds⟩
  setVramAccessible := by
    rintro _ _ m ⟨rfl, kept, holds⟩ accessible
    exact ⟨rfl, kept, lasting.shows holds accessible m.console.hw.oamAccessible⟩
  setOamAccessible := by
    rintro _ _ m ⟨rfl, kept, holds⟩ accessible
    exact ⟨rfl, kept, lasting.shows holds m.console.hw.vramAccessible accessible⟩
  sync := by
    rintro _ _ m ⟨rfl, kept, holds⟩
    exact ⟨rfl, kept, holds⟩
  restore := by
    rintro _ _ m ⟨rfl, kept, holds⟩ bytes
    refine ⟨rfl, rfl, ?_⟩
    rcases m.restore_cases bytes with same | ⟨hw, accepts, restored⟩
    · rw [same]
      exact ⟨kept, holds⟩
    · rw [restored]
      exact ⟨kept, lasting.restores accepts holds⟩

/-- Considerate devices around a console with a cartridge in its slot. -/
structure Hosts (game : Cartridge) (m : Machine σ) : Prop where
  holds : m.console.Holds game
  considerate : ∀ entry ∈ m.handlers, entry.2.Considerate game

/-- A machine without devices whose memories have the right sizes and whose bus agrees with the
hardware. -/
structure Intact (m : Machine σ) : Prop where
  bare : m.handlers = []
  sized : m.console.Sized
  synced : m.Synced

theorem Intact.evolves {m n : Machine σ} (intact : m.Intact) (e : m.Evolves ticks n) :
    n.Intact where
  bare := e.bare intact.bare
  sized := intact.sized.evolves e.console
  synced := e.keeps.synced intact.synced

theorem intact_bisimulation :
    Bisimulation fun (_ : Nat) (m n : Machine σ) => n = m ∧ m.Intact where
  console same := congrArg Machine.console same.1
  own := by
    rintro _ _ m _ f ⟨rfl, intact⟩ moves
    exact ⟨rfl, intact.evolves (mapConsole_evolves _ (moves _).toEvolves)⟩
  read := by
    rintro _ _ m ⟨rfl, intact⟩ address
    refine ⟨rfl, rfl, ?_⟩
    rw [m.read_bare intact.bare]
    exact intact
  write := by
    rintro _ _ m ⟨rfl, intact⟩ address v
    exact ⟨rfl, intact.evolves (m.write_evolves intact.bare address v)⟩
  setVramAccessible := by
    rintro _ _ m ⟨rfl, intact⟩ accessible
    obtain ⟨cart, identity, cartRam, vram, wram⟩ := intact.sized
    exact ⟨rfl, intact.bare, ⟨cart, identity, cartRam, vram, wram⟩, rfl, intact.synced.oam⟩
  setOamAccessible := by
    rintro _ _ m ⟨rfl, intact⟩ accessible
    obtain ⟨cart, identity, cartRam, vram, wram⟩ := intact.sized
    exact ⟨rfl, intact.bare, ⟨cart, identity, cartRam, vram, wram⟩, intact.synced.vram, rfl⟩
  sync := by
    rintro _ _ m ⟨rfl, intact⟩
    exact ⟨rfl, intact.bare, intact.sized, rfl, rfl⟩
  restore := by
    rintro _ _ m ⟨rfl, intact⟩ bytes
    refine ⟨rfl, rfl, ?_⟩
    rcases m.restore_cases bytes with same | ⟨hw, accepts, restored⟩
    · rw [same]
      exact intact
    · rw [restored]
      refine ⟨intact.bare, ⟨intact.sized.cart, ?_, ?_, accepts.vram, accepts.wram⟩, rfl, rfl⟩
      · exact accepts.identity.trans intact.sized.identity
      · exact accepts.cartRam.trans intact.sized.cartRam

/-- What sessions with a cartridge reach from being switched on: by everything that can be asked of
them, and with devices that leave the cartridge where it is. -/
inductive Reached (cart : Cartridge) : Machine σ → Prop
  | powerOn (accepted : Cartridge.ofImage image = .ok cart) (model : Option Model) (devices : σ) :
      Reached cart (powerOn cart model devices)
  | obey (reached : Reached cart m) (command : Command) : Reached cart (m.obey command).2
  | attach (reached : Reached cart m) (considerate : handler.Considerate cart) (address : UInt16) :
      Reached cart (m.attach address handler)

namespace Reached

variable {m : Machine σ}

theorem hosts (reached : m.Reached cart) : m.Hosts cart := by
  induction reached with
  | powerOn accepted model devices =>
    exact ⟨⟨rfl, rfl, Memory.size_zeros _⟩, nofun⟩
  | obey _ command ih =>
    obtain ⟨-, _, -, kept, holds⟩ := (lasting_bisimulation (Console.Holds.lasting cart)
      ih.considerate).obey 0 ⟨rfl, rfl, ih.holds⟩ command
    exact ⟨holds, by rw [kept]; exact ih.considerate⟩
  | attach _ considerate address ih =>
    refine ⟨ih.holds, ?_⟩
    rintro entry (_ | member)
    · exact considerate
    · exact ih.considerate entry ‹_›

theorem wellFormed (reached : m.Reached cart) : cart.WellFormed := by
  induction reached with
  | powerOn accepted => exact (Cartridge.ofImage_wellFormed accepted).1
  | obey _ _ ih => exact ih
  | attach _ _ _ ih => exact ih

/-- What is asked of a session changes no attachment. -/
theorem handlers_obey (reached : m.Reached cart) (command : Command) :
    (m.obey command).2.handlers = m.handlers := by
  obtain ⟨-, _, -, same, -⟩ := (lasting_bisimulation (Console.Holds.lasting cart)
    reached.hosts.considerate).obey 0 ⟨rfl, rfl, reached.hosts.holds⟩ command
  exact same

/-- The memories of a session keep their sizes, if its devices do not change them. -/
theorem sized (reached : m.Reached cart)
    (steady : ∀ entry ∈ m.handlers, entry.2.Keeps Console.Sized) : m.console.Sized := by
  induction reached with
  | powerOn accepted model devices => exact (powerOn_orderly accepted model devices).toSized
  | obey reached command ih =>
    rw [reached.handlers_obey command] at steady
    obtain ⟨-, _, -, -, after⟩ := (lasting_bisimulation Console.Sized.lasting steady).obey 0
      ⟨rfl, rfl, ih steady⟩ command
    exact after
  | attach _ _ _ ih => exact ih fun entry member => steady entry (List.mem_cons_of_mem _ member)

theorem intact (reached : m.Reached cart) (bare : m.handlers = []) : m.Intact := by
  induction reached with
  | powerOn accepted model devices =>
    exact ⟨rfl, (powerOn_orderly accepted model devices).toSized, rfl, rfl⟩
  | obey reached command ih =>
    rw [reached.handlers_obey command] at bare
    obtain ⟨-, _, -, after⟩ := intact_bisimulation.obey 0 ⟨rfl, ih bare⟩ command
    exact after
  | attach => cases bare

end Reached

end Machine

/-! What restoring lets in. -/

/-- What a console relies on and a snapshot is not checked for. -/
structure Console.Trustworthy (c : Console) : Prop where
  romBanks : c.hw.romBanks = UInt64.ofNat c.cart.romBanks
  rom0 : c.hw.banks.rom0Offset.toNat + 2 * romBankSize ≤ 2 ^ 64
  rom1 : c.hw.banks.rom1Offset.toNat + 2 * romBankSize ≤ 2 ^ 64
  clock : c.hw.clock.Sound
  source : c.hw.oamDma.active = true → c.hw.oamDma.source.toNat + 159 ≤ 0xFFFF
  ticks : c.hw.oamDma.active = true →
    c.hw.oamDma.ticks.toNat / 4 + (160 - c.hw.oamDma.bytes.toNat) < 0x4000
  vramDma : c.hw.vramDma.Sound

namespace Console

variable {c : Console} {hw : Hardware}

/-- A window that was checked with a sum that did not wrap is inside the image. -/
theorem inRom_of_window {offset : UInt64}
    (window : (offset + UInt64.ofNat romBankSize).toNat ≤ romSize)
    (addable : offset.toNat + 2 * romBankSize ≤ 2 ^ 64) : Banks.InRom romSize offset := by
  refine ⟨?_, addable⟩
  rw [UInt64.toNat_add, romBankSize, UInt64.toNat_ofNat'] at window
  rw [romBankSize] at addable ⊢
  omega

theorem Accepts.sized (accepts : c.Accepts hw) (holds : c.Holds game)
    (wellFormed : game.WellFormed) : Sized { hw, cart := c.cart } where
  cart := holds.cart ▸ wellFormed
  identity := accepts.identity.trans (holds.identity.trans (congrArg _ holds.cart.symm))
  cartRam := accepts.cartRam.trans (holds.cartRam.trans (congrArg _ holds.cart.symm))
  vram := accepts.vram
  wram := accepts.wram

theorem Accepts.sound_iff (accepts : c.Accepts hw) (holds : c.Holds game)
    (wellFormed : game.WellFormed) :
    Sound { hw, cart := c.cart } ↔ Trustworthy { hw, cart := c.cart } := by
  constructor
  · intro sound
    exact ⟨sound.romBanks, sound.banks.rom0.addable, sound.banks.rom1.addable, sound.clock,
      sound.oamDma.source, sound.oamDma.ticks, sound.vramDma⟩
  · intro trust
    have rom0 := inRom_of_window accepts.rom0 trust.rom0
    have rom1 := inRom_of_window accepts.rom1 trust.rom1
    exact
      { toSized := accepts.sized holds wellFormed
        romBanks := trust.romBanks
        banks := ⟨rom0, rom1, accepts.ram⟩
        ramSelect := fun _ => accepts.ramSelect
        clock := trust.clock
        oamDma := ⟨accepts.oamDma, trust.source, trust.ticks⟩
        vramDma := trust.vramDma }

end Console

namespace Machine

/-- Whatever the bytes, a machine that has taken over a snapshot has memories of the right sizes, and
it has all that it relies on exactly if the snapshot can be trusted with what is not checked. In that
case no later operation fails as long as there is room to count. -/
theorem load_sound_iff {m n : Machine σ} (reached : m.Reached cart) (loaded : m.load bytes = .ok n) :
    n.console.Sized ∧ (n.console.Sound ↔ n.console.Trustworthy) ∧
      (n.handlers = [] → n.console.Trustworthy → ∀ operations op,
        let k := n.after operations
        k.HasRoomFor op → k.perform? op = some (k.perform op)) := by
  obtain ⟨hw, -, accepts, rfl⟩ := load_eq_ok_iff.mp loaded
  have sized := accepts.sized reached.hosts.holds reached.wellFormed
  have sound_iff := accepts.sound_iff reached.hosts.holds reached.wellFormed
  refine ⟨sized, sound_iff, ?_⟩
  intro bare trust operations op k room
  have keeps := after_keeps _ bare operations
  exact k.perform?_eq (keeps.handlers.trans bare) (keeps.sound (sound_iff.mpr trust)) op room

theorem load_sound_iff_blank :
    ∃ cart, Cartridge.ofImage (Cartridge.blankImage 0x10 3) = .ok cart ∧
      let m := powerOn cart none ()
      ∃ n, m.load m.save = .ok n ∧ n.console.Sound ∧ n.perform? .tick = some (n.perform .tick) := by
  obtain ⟨cart, accepted, -, -⟩ := Cartridge.ofImage_blank 0x10 3 rfl rfl
  refine ⟨cart, accepted, ?_⟩
  intro m
  have orderly := powerOn_orderly accepted none ()
  have loaded : m.load m.save = .ok _ := load_eq_ok_iff.mpr
    ⟨_, orderly.toSized.read_write, orderly.accepts (show (0 : UInt8) ≤ 0x0C by decide), rfl⟩
  obtain ⟨-, sound_iff, safe⟩ := load_sound_iff (.powerOn accepted none ()) loaded
  have sound := orderly.sound
  refine ⟨_, loaded, sound, safe rfl (sound_iff.mp sound) [] .tick ⟨?_, ?_⟩⟩
  · show (0 : UInt64).toNat < 2 ^ 64 - 1
    decide
  · show (0 : UInt32).toNat < 2 ^ 32 - 2 ^ 13
    decide

/-- Without ROM banks, the controller cannot take a bank number modulo their number. -/
theorem write?_without_banks {m : Machine σ} (bare : m.handlers = [])
    (mbc1 : m.console.cart.controller = .mbc1) (banks : m.console.hw.romBanks = 0) (v : UInt8) :
    m.write? 0x2000 v = none := by
  have divides : m.console.dividesByBanks 0x2000 = true := by
    rw [Console.dividesByBanks, mbc1]
  have led : m.route 0x2000 = .memory .rom := m.route_bare bare 0x2000
  have refused : m.console.writeRegion? .rom 0x2000 v = none := if_pos ⟨divides, banks⟩
  rw [write?, led]
  dsimp only
  rw [refused]
  rfl

theorem load_without_banks :
    ∃ cart, Cartridge.ofImage (Cartridge.blankImage 0x01 0) = .ok cart ∧
      let m := powerOn cart none ()
      ∃ n, m.load (Snapshot.write { m.console.hw with romBanks := 0 }) = .ok n ∧
        ¬n.console.Sound ∧ n.perform? (.write 0x2000 0x01) = none := by
  obtain ⟨cart, accepted, mbc1, -⟩ := Cartridge.ofImage_blank 0x01 0 rfl rfl
  refine ⟨cart, accepted, ?_⟩
  intro m
  have orderly := powerOn_orderly accepted none ()
  have accepts := orderly.accepts (show (0 : UInt8) ≤ 0x0C by decide)
  have sized : Console.Sized { hw := { m.console.hw with romBanks := 0 }, cart } :=
    ⟨orderly.cart, orderly.identity, orderly.cartRam, orderly.vram, orderly.wram⟩
  refine ⟨_, load_eq_ok_iff.mpr ⟨_, sized.read_write, ?_, rfl⟩, ?_, ?_⟩
  · exact ⟨accepts.identity, accepts.vram, accepts.wram, accepts.cartRam, accepts.rom0, accepts.rom1,
      accepts.ram, accepts.ramSelect, accepts.oamDma⟩
  · intro sound
    have banks := sound.cart.banks
    rw [← sound.toFits.toNat_romBanks] at banks
    exact Nat.not_succ_le_zero 1 banks
  · rw [perform?, write?_without_banks rfl mbc1 rfl]
    rfl

end Machine

end GameBoy
