import GameBoy.Proofs.Reach

/-!
Replay: a machine that takes over a snapshot goes on as the machine that it was taken of. Main
statement: `load_save_replays`.
-/

namespace GameBoy

namespace Machine

/-- Machines without devices that have the same console and the same view of its memories. -/
structure Alike (m : Machine σ) (n : Machine τ) : Prop where
  console : n.console = m.console
  vramVisible : n.vramVisible = m.vramVisible
  oamVisible : n.oamVisible = m.oamVisible
  bare : m.handlers = []
  otherBare : n.handlers = []

namespace Alike

variable {m : Machine σ} {n : Machine τ}

theorem shows (alike : m.Alike n) (region : Region) : n.shows region = m.shows region := by
  unfold Machine.shows
  rw [alike.vramVisible, alike.oamVisible]

theorem read (alike : m.Alike n) (address : UInt16) :
    (n.read address).1 = (m.read address).1 := by
  rw [Machine.read, Machine.read, n.route_bare alike.otherBare, m.route_bare alike.bare, alike.shows]
  by_cases shown : m.shows (.ofAddress address)
  · rw [if_pos shown, if_pos shown, alike.console]
  · rw [if_neg shown, if_neg shown]

theorem mapConsole (alike : m.Alike n) (f : Console → Console) :
    (m.mapConsole f).Alike (n.mapConsole f) :=
  { alike with console := congrArg f alike.console }

theorem write (alike : m.Alike n) (address : UInt16) (v : UInt8) :
    (m.write address v).Alike (n.write address v) := by
  rw [Machine.write, Machine.write, n.route_bare alike.otherBare, m.route_bare alike.bare,
    alike.shows]
  by_cases shown : m.shows (.ofAddress address)
  · rw [if_pos shown, if_pos shown]
    exact alike.mapConsole (·.writeRegion _ address v)
  · rw [if_neg shown, if_neg shown]
    exact alike

theorem restore (alike : m.Alike n) (bytes : List UInt8) :
    (n.restore bytes).1 = (m.restore bytes).1 ∧
      (m.restore bytes).2.Alike (n.restore bytes).2 := by
  unfold Machine.restore Machine.load
  rw [alike.console]
  cases m.console.load bytes with
  | error e => exact ⟨rfl, alike⟩
  | ok console => exact ⟨rfl, rfl, rfl, rfl, alike.bare, alike.otherBare⟩

end Alike

theorem alike_bisimulation :
    Bisimulation fun (_ : Nat) (m : Machine σ) (n : Machine τ) => m.Alike n where
  console alike := alike.console
  own alike _ := alike.mapConsole _
  read {_ m n} alike address := by
    refine ⟨alike.read address, ?_⟩
    rw [m.read_bare alike.bare, n.read_bare alike.otherBare]
    exact alike
  write alike address v := alike.write address v
  setVramAccessible alike accessible :=
    { alike with
      console := congrArg
        (fun c : Console => { c with hw := { c.hw with vramAccessible := accessible } }) alike.console
      vramVisible := rfl }
  setOamAccessible alike accessible :=
    { alike with
      console := congrArg
        (fun c : Console => { c with hw := { c.hw with oamAccessible := accessible } }) alike.console
      oamVisible := rfl }
  sync alike :=
    { alike with
      vramVisible := congrArg (·.hw.vramAccessible) alike.console
      oamVisible := congrArg (·.hw.oamAccessible) alike.console }
  restore alike bytes := alike.restore bytes

/-- The machine after a number of ticks, whatever they report. -/
def ticks (m : Machine σ) : Nat → Machine σ
  | 0 => m
  | count + 1 => (m.ticks count).tick.machine

theorem ticks_add (m : Machine σ) (j k : Nat) : m.ticks (j + k) = (m.ticks j).ticks k := by
  induction k with
  | zero => rfl
  | succ k ih => exact congrArg (fun n : Machine σ => n.tick.machine) ih

theorem ticks_succ (m : Machine σ) (k : Nat) : m.ticks (k + 1) = m.tick.machine.ticks k := by
  rw [Nat.add_comm, ticks_add]
  rfl

theorem ticks_alike {m : Machine σ} {n : Machine τ} (alike : m.Alike n) (count : Nat) :
    (m.ticks count).Alike (n.ticks count) := by
  induction count with
  | zero => exact alike
  | succ count ih =>
    obtain ⟨-, _, ticked⟩ := alike_bisimulation.obey 0 ih (.operation .tick)
    exact ticked

theorem Reached.ticks {m : Machine σ} (reached : m.Reached cart) (count : Nat) :
    (m.ticks count).Reached cart := by
  induction count with
  | zero => exact reached
  | succ count ih => exact ih.obey (.operation .tick)

theorem ticks_bare {m : Machine σ} (bare : m.handlers = []) (count : Nat) :
    (m.ticks count).handlers = [] := by
  induction count with
  | zero => exact bare
  | succ count ih => exact (tick_evolves _ ih).bare ih

/-- A tick reports the fault that waits. -/
theorem ticks_fault {m : Machine σ} (calm : m.console.fault = none) (count : Nat) :
    (m.ticks count).console.fault = none := by
  cases count with
  | zero => exact calm
  | succ count => rfl

/-- A machine that takes over a snapshot is like the one that it was taken of. -/
theorem load_save_alike {m : Machine σ} {g n : Machine τ} (reached : m.Reached cart)
    (bare : m.handlers = []) (calm : m.console.fault = none) (inserted : g.console.cart = cart)
    (otherBare : g.handlers = []) (loaded : g.load m.save = .ok n) : m.Alike n := by
  have intact := reached.intact bare
  obtain ⟨hw, found, -, rfl⟩ := load_eq_ok_iff.mp loaded
  have same : hw = m.console.hw := Except.ok.inj (found.symm.trans intact.sized.read_write)
  have cart : g.console.cart = m.console.cart := inserted.trans reached.hosts.holds.cart.symm
  refine ⟨?_, ?_, ?_, bare, otherBare⟩
  · show { hw, cart := g.console.cart } = m.console
    rw [same, cart, ← calm]
  · show hw.vramAccessible = m.vramVisible
    rw [same, intact.synced.vram]
  · show hw.oamAccessible = m.oamVisible
    rw [same, intact.synced.oam]

/-- Restoring is exact and what follows is determined: whatever session without devices takes over a
snapshot of a machine has then the same console and the same view of its memories, replies the same
to all that it is asked, and saves the same. This also holds if the snapshot is taken some ticks
later. -/
theorem load_save_replays {m : Machine σ} {g : Machine τ} (reached : m.Reached cart)
    (bare : m.handlers = []) (calm : m.console.fault = none) (inserted : g.console.cart = cart)
    (otherBare : g.handlers = []) :
    (∀ n, g.load m.save = .ok n →
      n.console = m.console ∧ n.vramVisible = m.vramVisible ∧ n.oamVisible = m.oamVisible ∧
        n.handlers = [] ∧
        ∀ commands, (n.obeyAll commands).1 = (m.obeyAll commands).1 ∧
          (n.obeyAll commands).2.console = (m.obeyAll commands).2.console) ∧
      ∀ j k n, g.load (m.ticks j).save = .ok n → (n.ticks k).save = (m.ticks (j + k)).save := by
  constructor
  · intro n loaded
    have alike := load_save_alike reached bare calm inserted otherBare loaded
    refine ⟨alike.console, alike.vramVisible, alike.oamVisible, alike.otherBare, ?_⟩
    intro commands
    obtain ⟨replies, _, after⟩ := alike_bisimulation.obeyAll 0 alike commands
    exact ⟨replies, after.console⟩
  · intro j k n loaded
    have alike := load_save_alike (reached.ticks j) (ticks_bare bare j) (ticks_fault calm j) inserted
      otherBare loaded
    rw [ticks_add, save, save, (ticks_alike alike k).console]

theorem load_save_replays_blank :
    ∃ cart, Cartridge.ofImage (Cartridge.blankImage 0x10 3) = .ok cart ∧
      let m := (powerOn cart none ()).after [.setVramAccessible false]
      let g := powerOn cart (some .color) true
      ∃ n, g.load m.save = .ok n ∧ n.console = m.console ∧ n.vramVisible = false ∧
        (n.ticks 3).save = (m.ticks (0 + 3)).save := by
  obtain ⟨cart, accepted, -, -⟩ := Cartridge.ofImage_blank 0x10 3 rfl rfl
  refine ⟨cart, accepted, ?_⟩
  intro m g
  have reached : m.Reached cart :=
    .obey (.powerOn accepted none ()) (.operation (.setVramAccessible false))
  have orderly : m.console.Orderly :=
    (after_keeps _ rfl _).orderly (powerOn_orderly accepted none ())
  have low : ¬0x0C < m.console.hw.banks.ramSelect := show ¬0x0C < (0 : UInt8) by decide
  have loaded : g.load m.save = _ := load_save orderly rfl rfl rfl
  rw [if_neg low] at loaded
  have inserted : g.console.cart = cart := rfl
  obtain ⟨exact, replays⟩ := load_save_replays reached rfl rfl inserted rfl
  obtain ⟨console, vram, -⟩ := exact _ loaded
  exact ⟨_, loaded, console, vram, replays 0 3 _ loaded⟩

end Machine

end GameBoy
