import GameBoy.Proofs.Frame
import GameBoy.Proofs.Reach

/-!
Battery-backed RAM is written through: what differs from the last saved copy is known to be dirty,
and the end of a tick saves what is dirty. Main statement: `battery_written_through`. A run that
hands the saved copies on is otherwise the same run, `run_runReporting`.
-/

namespace GameBoy

namespace Console

/-- The RAM of a cartridge is as before and as dirty as before, or it is dirty if it is backed by a
battery. -/
structure WritesThrough (c d : Console) : Prop where
  cart : d.cart = c.cart
  hasBattery : d.hw.hasBattery = c.hw.hasBattery
  size : d.hw.cartRam.size = c.hw.cartRam.size
  ram : (d.hw.cartRam = c.hw.cartRam ∧ d.hw.batteryDirty = c.hw.batteryDirty) ∨
    d.hw.batteryDirty = (c.hw.batteryDirty || c.hw.hasBattery)

theorem WritesThrough.refl (c : Console) : c.WritesThrough c := ⟨rfl, rfl, rfl, .inl ⟨rfl, rfl⟩⟩

theorem WritesThrough.trans (first : WritesThrough c d) (second : WritesThrough d e) :
    c.WritesThrough e where
  cart := second.cart.trans first.cart
  hasBattery := second.hasBattery.trans first.hasBattery
  size := second.size.trans first.size
  ram := by
    have second := second.ram
    rw [first.hasBattery] at second
    rcases first.ram, second with ⟨⟨ram, dirty⟩ | stored, ⟨same, still⟩ | again⟩
    · exact .inl ⟨same.trans ram, still.trans dirty⟩
    · exact .inr (by rw [again, dirty])
    · exact .inr (still.trans stored)
    · exact .inr (by rw [again, stored, Bool.or_assoc, Bool.or_self])

theorem Inward.writesThrough (inward : Inward c d) : c.WritesThrough d :=
  ⟨inward.cart, inward.hasBattery, congrArg Memory.size inward.cartRam,
    .inl ⟨inward.cartRam, inward.batteryDirty⟩⟩

/-- Whatever stores a byte in RAM marks it as dirty. -/
theorem Written.writesThrough {c d : Console} (written : c.Written region address d) :
    c.WritesThrough d := by
  cases written with
  | nothing => exact .refl c
  | cartRam index v => exact ⟨rfl, rfl, Memory.size_write .., .inr rfl⟩
  | _ => exact { WritesThrough.refl c with }

theorem hblank_writesThrough (c : Console) : c.WritesThrough c.hblank := by
  obtain ⟨vram, vramDma, stall, copied⟩ := c.hblank_eq
  rw [copied]
  exact { WritesThrough.refl c with }

theorem tickCartridge_writesThrough (c : Console) : c.WritesThrough c.tickCartridge := by
  unfold tickCartridge
  split
  · exact { WritesThrough.refl c with }
  · exact .refl c

end Console

/-- A device that changes the RAM of a cartridge only as the bus does. -/
def Handler.WritesThrough (h : Handler σ) : Prop :=
  ∀ (c : Console) address v devices, c.WritesThrough (h.write c address v devices).1

namespace Machine

/-- With devices that write through, the machine writes through. -/
structure WritesThrough (m n : Machine σ) : Prop where
  handlers : n.handlers = m.handlers
  console : (∀ entry ∈ m.handlers, entry.2.WritesThrough) → m.console.WritesThrough n.console

theorem WritesThrough.refl (m : Machine σ) : m.WritesThrough m := ⟨rfl, fun _ => .refl _⟩

theorem WritesThrough.trans {m n k : Machine σ} (first : m.WritesThrough n)
    (second : n.WritesThrough k) : m.WritesThrough k where
  handlers := second.handlers.trans first.handlers
  console careful :=
    (first.console careful).trans (second.console (by rw [first.handlers]; exact careful))

theorem mapConsole_writesThrough (m : Machine σ) (through : m.console.WritesThrough (f m.console)) :
    m.WritesThrough (m.mapConsole f) := ⟨rfl, fun _ => through⟩

theorem read_writesThrough (m : Machine σ) (address : UInt16) :
    m.WritesThrough (m.read address).2 := by
  unfold read
  split <;> exact ⟨rfl, fun _ => .refl _⟩

theorem write_writesThrough (m : Machine σ) (address : UInt16) (v : UInt8) :
    m.WritesThrough (m.write address v) := by
  unfold write
  split
  · exact m.mapConsole_writesThrough (m.console.writeRegion_written _ address v).writesThrough
  · exact .refl m
  · next handler led =>
    obtain ⟨entry, member, rfl⟩ := route_handler led
    exact ⟨rfl, fun careful => careful entry member _ _ _ _⟩

theorem writesThrough_frame : Frame (WritesThrough (σ := σ)) where
  refl := .refl
  trans := .trans
  read := read_writesThrough
  write := write_writesThrough
  inward m _ inward := m.mapConsole_writesThrough (inward m.console).writesThrough

end Machine

/-- Whether a cartridge has a battery is a matter of its type. -/
theorem Cartridge.ofImage_hasBattery {image : Memory} (accepted : ofImage image = .ok cart) :
    cart.hasBattery = Header.batteryTypes.contains (image.read 0x147) :=
  (ofImage_header accepted).1

theorem Cartridge.read_blankImage_type (type ramCode : UInt8) :
    (blankImage type ramCode).read 0x147 = type := by
  rw [blankImage, Memory.read_write_ne _ (by decide), Memory.read_write_same]
  rw [Memory.size_zeros]
  decide

namespace Machine

/-! What is saved. -/

/-- What has been reported once an operation has been performed, too. -/
def note (m : Machine σ) (j : Journal) : Operation → Journal
  | .tick => j.record m.tick.saved
  | .run count => (run count m j).journal
  | _ => j

/-- What has been reported once some operations have been performed, too. -/
def journal (m : Machine σ) (j : Journal) : List Operation → Journal
  | [] => j
  | op :: rest => (m.perform op).2.journal (m.note j op) rest

theorem journal_append (m : Machine σ) (j : Journal) (operations later : List Operation) :
    m.journal j (operations ++ later) =
      (m.after operations).journal (m.journal j operations) later := by
  induction operations generalizing m j with
  | nil => rfl
  | cons op rest ih => exact ih (m.perform op).2 (m.note j op)

theorem after_append (m : Machine σ) (operations later : List Operation) :
    m.after (operations ++ later) = (m.after operations).after later :=
  List.foldl_append

/-- The copies of RAM that a run reports, the latest last. -/
def reports : Nat → Machine σ → List Memory
  | 0, _ => []
  | count + 1, m =>
    m.tick.saved.toList ++
      match m.tick.fault with
      | some _ => []
      | none => reports count m.tick.machine

/-- To report is all that is added to a run. -/
theorem run_runReporting (report : Memory → StateM φ Unit) (count : Nat) (m : Machine σ)
    (j : Journal) (s : φ) :
    (m.runReporting report count).run s =
      (((run count m j).machine, (run count m j).fault),
        (m.reports count).foldl (fun s ram => ((report ram).run s).2) s) := by
  induction count generalizing m j s with
  | zero => rfl
  | succ count ih =>
    rw [runReporting, run, reports]
    cases m.tick.saved with
    | none =>
      cases m.tick.fault with
      | some fault => rfl
      | none => exact ih m.tick.machine _ s
    | some ram =>
      cases m.tick.fault with
      | some fault => rfl
      | none => exact ih m.tick.machine _ ((report ram).run s).2

/-- A run does the same whatever has been reported before. -/
theorem machine_run (count : Nat) (m : Machine σ) (j k : Journal) :
    (run count m j).machine = (run count m k).machine := by
  have first := m.run_runReporting (fun _ => pure ()) count j ()
  have second := m.run_runReporting (fun _ => pure ()) count k ()
  exact congrArg (fun ran => ran.1.1) (first.symm.trans second)

/-- The journal of a run is kept from what it reports. -/
theorem journal_reports (count : Nat) (m : Machine σ) (j : Journal) :
    (run count m j).journal = (m.reports count).foldl (fun j ram => j.record (some ram)) j := by
  induction count generalizing m j with
  | zero => rfl
  | succ count ih =>
    rw [run, reports, List.foldl_append]
    have noted : m.tick.saved.toList.foldl (fun j ram => j.record (some ram)) j =
        j.record m.tick.saved := by
      cases m.tick.saved <;> rfl
    rw [noted]
    cases m.tick.fault with
    | some fault => rfl
    | none => exact ih m.tick.machine _

theorem latest_reports (count : Nat) (m : Machine σ) :
    (run count m {}).journal.latest = (m.reports count).getLast? := by
  rw [journal_reports]
  rcases (m.reports count).eq_nil_or_concat with none | ⟨earlier, ram, some⟩
  · rw [none]
    rfl
  · rw [some, List.concat_eq_append, List.foldl_append, List.getLast?_concat]
    rfl

/-- Of a cartridge with a battery, RAM that is not dirty is what was saved last, and before that what
it was at first. Without a battery nothing is ever dirty or saved. -/
structure Backed (battery : Bool) (first : Memory) (m : Machine σ) (j : Journal) : Prop where
  careful : ∀ entry ∈ m.handlers, entry.2.WritesThrough
  known : m.console.hw.hasBattery = battery
  size : m.console.hw.cartRam.size = first.size
  saved : battery = true → m.console.hw.batteryDirty = false →
    m.console.hw.cartRam = j.latest.getD first
  unsaved : battery = false → m.console.hw.batteryDirty = false ∧ j.saves = 0

namespace Backed

variable {first : Memory} {battery : Bool} {m n : Machine σ} {j : Journal}

theorem writesThrough (backed : m.Backed battery first j) (through : m.WritesThrough n) :
    n.Backed battery first j := by
  have console := through.console backed.careful
  have ram := console.ram
  rw [backed.known] at ram
  refine ⟨?_, console.hasBattery.trans backed.known, console.size.trans backed.size, ?_, ?_⟩
  · rw [through.handlers]
    exact backed.careful
  · intro present clean
    rcases ram with ⟨same, still⟩ | stored
    · exact same.trans (backed.saved present (still.symm.trans clean))
    · rw [present, Bool.or_true, clean] at stored
      cases stored
  · intro missing
    obtain ⟨clean, unsaved⟩ := backed.unsaved missing
    refine ⟨?_, unsaved⟩
    rcases ram with ⟨-, still⟩ | stored
    · exact still.trans clean
    · rw [stored, clean, missing]
      rfl

/-- The end of a tick saves what is dirty. -/
theorem tick (backed : m.Backed battery first j) :
    m.tick.machine.Backed battery first (j.record m.tick.saved) := by
  have clocked := (backed.writesThrough (writesThrough_frame.clocksOfTick m)).writesThrough
    (mapConsole_writesThrough _ (Console.tickCartridge_writesThrough _))
  unfold Machine.tick
  dsimp only
  generalize m.clocksOfTick.mapConsole _ = n at clocked ⊢
  refine ⟨clocked.careful, clocked.known, clocked.size, ?_, ?_⟩
  · intro present _
    cases dirty : n.console.hw.batteryDirty with
    | false => exact clocked.saved present dirty
    | true => rfl
  · intro missing
    obtain ⟨clean, unsaved⟩ := clocked.unsaved missing
    rw [clean]
    exact ⟨rfl, unsaved⟩

/-- What is dirty is saved by the next tick. -/
theorem tick_saves (backed : m.Backed true first j) (dirty : m.console.hw.batteryDirty = true) :
    m.tick.saved = some m.tick.machine.console.hw.cartRam := by
  have through := (writesThrough_frame.clocksOfTick m).trans
    (mapConsole_writesThrough _ (Console.tickCartridge_writesThrough _))
  have ram := (through.console backed.careful).ram
  unfold Machine.tick
  dsimp only
  generalize m.clocksOfTick.mapConsole _ = n at ram ⊢
  have still : n.console.hw.batteryDirty = true := by
    rcases ram with ⟨-, still⟩ | stored
    · exact still.trans dirty
    · rw [stored, dirty]
      rfl
  exact if_pos still

theorem run (backed : m.Backed battery first j) (count : Nat) :
    (Machine.run count m j).machine.Backed battery first (Machine.run count m j).journal := by
  induction count generalizing m j with
  | zero => exact backed
  | succ count ih =>
    rw [Machine.run]
    cases m.tick.fault with
    | some fault => exact backed.tick
    | none => exact ih backed.tick

/-- A battery's RAM is taken from elsewhere only by loading it. -/
theorem perform (backed : m.Backed battery first j) {op : Operation}
    (kept : battery = true → ∀ saved, op ≠ .loadBattery saved) :
    (m.perform op).2.Backed battery first (m.note j op) := by
  cases op with
  | tick => exact backed.tick
  | run count =>
    have ran := backed.run count
    rw [machine_run count m j {}] at ran
    exact ran
  | read address => exact backed.writesThrough (m.read_writesThrough address)
  | write address v => exact backed.writesThrough (m.write_writesThrough address v)
  | hblank =>
    exact backed.writesThrough (m.mapConsole_writesThrough m.console.hblank_writesThrough)
  | setVramAccessible | setOamAccessible | request | acknowledge =>
    exact backed.writesThrough ⟨rfl, fun _ => { Console.WritesThrough.refl m.console with }⟩
  | loadBattery saved =>
    have missing : battery = false :=
      Bool.eq_false_iff.mpr fun present => kept present saved rfl
    refine ⟨backed.careful, backed.known, (Memory.size_overlay ..).trans backed.size, ?_, ?_⟩
    · intro present
      cases present.symm.trans missing
    · exact backed.unsaved

theorem after (backed : m.Backed battery first j) {operations : List Operation}
    (kept : battery = true → ∀ op ∈ operations, ∀ saved, op ≠ .loadBattery saved) :
    (m.after operations).Backed battery first (m.journal j operations) := by
  induction operations generalizing m j with
  | nil => exact backed
  | cons op rest ih =>
    have performed : (m.perform op).2.Backed battery first (m.note j op) :=
      backed.perform fun present => kept present op List.mem_cons_self
    exact ih performed fun present later member =>
      kept present later (List.mem_cons_of_mem _ member)

end Backed

/-- A saved copy that is loaded into a new session of the cartridge is its RAM. -/
theorem cartRam_loadBattery (cart : Cartridge) (model : Option Model) (devices : σ)
    {saved : Memory} (size : saved.size = cart.ramSize) :
    ((powerOn cart model devices).perform (.loadBattery saved)).2.console.hw.cartRam = saved :=
  Memory.overlay_eq_front (size.trans (Memory.size_zeros _).symm)

/-- Whatever a session of a cartridge with a battery does except loading RAM, at the end of a tick
RAM is not dirty, the tick has saved it at most once, and it is what was saved last, or what it was
at first; loading what was saved last into a new session gives the same RAM. In a session of a
cartridge without a battery nothing is ever saved. -/
theorem battery_written_through {m : Machine σ} (holds : m.console.Holds cart)
    (known : m.console.hw.hasBattery = cart.hasBattery)
    (careful : ∀ entry ∈ m.handlers, entry.2.WritesThrough)
    (clean : m.console.hw.batteryDirty = false) (operations : List Operation)
    (kept : cart.hasBattery = true → ∀ op ∈ operations, ∀ saved, op ≠ .loadBattery saved) :
    let n := m.after (operations ++ [.tick])
    let before := m.journal {} operations
    let now := m.journal {} (operations ++ [.tick])
    (cart.hasBattery = true →
      n.console.hw.batteryDirty = false ∧ now.saves ≤ before.saves + 1 ∧
        n.console.hw.cartRam = now.latest.getD m.console.hw.cartRam ∧
        ∀ saved, now.latest = some saved → ∀ (model : Option Model) (devices : σ),
          ((powerOn cart model devices).perform (.loadBattery saved)).2.console.hw.cartRam =
            n.console.hw.cartRam) ∧
      (cart.hasBattery = false → before.saves = 0) := by
  intro n before now
  have start : m.Backed cart.hasBattery m.console.hw.cartRam {} :=
    ⟨careful, known, rfl, fun _ _ => rfl, fun _ => ⟨clean, rfl⟩⟩
  have backed := start.after kept
  have ticked : n = (m.after operations).tick.machine := m.after_append operations [.tick]
  have noted : now = before.record (m.after operations).tick.saved :=
    m.journal_append {} operations [.tick]
  have ended : n.Backed cart.hasBattery m.console.hw.cartRam now := by
    rw [ticked, noted]
    exact backed.tick
  have settled : n.console.hw.batteryDirty = false := by
    rw [ticked]
    rfl
  refine ⟨fun present => ?_, fun missing => (backed.unsaved missing).2⟩
  have ram := ended.saved present settled
  refine ⟨settled, ?_, ram, ?_⟩
  · rw [noted]
    cases (m.after operations).tick.saved with
    | none => exact Nat.le_succ _
    | some ram => exact Nat.le_refl _
  · intro saved latest model devices
    rw [latest] at ram
    rw [ram]
    have size : saved.size = cart.ramSize := by
      rw [← holds.cartRam, ← ended.size, ram]
      rfl
    exact cartRam_loadBattery cart model devices size

/-- A byte written to the RAM of a cartridge without a controller is saved by the next tick. -/
theorem battery_written_through_blank :
    ∃ cart, Cartridge.ofImage (Cartridge.blankImage 0x09 2) = .ok cart ∧ cart.hasBattery = true ∧
      let m := powerOn cart none ()
      let n := m.after ([.write 0xA000 0x42] ++ [.tick])
      let now := m.journal {} ([.write 0xA000 0x42] ++ [.tick])
      n.console.hw.batteryDirty = false ∧ now.latest = some n.console.hw.cartRam ∧
        ((powerOn cart none ()).perform (.loadBattery n.console.hw.cartRam)).2.console.hw.cartRam =
          n.console.hw.cartRam := by
  obtain ⟨cart, accepted, fixed, ram⟩ := Cartridge.ofImage_blank 0x09 2 rfl rfl
  have battery : cart.hasBattery = true := by
    rw [Cartridge.ofImage_hasBattery accepted, Cartridge.read_blankImage_type]
    rfl
  have holds : (powerOn cart none ()).console.Holds cart := ⟨rfl, rfl, Memory.size_zeros _⟩
  have bare : ∀ entry ∈ (powerOn cart none ()).handlers, entry.2.WritesThrough := by
    intro entry member
    cases member
  obtain ⟨backed, -⟩ := battery_written_through holds rfl bare rfl [.write 0xA000 0x42] (by
    intro _ op member saved loads
    rw [List.mem_singleton.mp member] at loads
    cases loads)
  obtain ⟨clean, -, -, restored⟩ := backed battery
  let written := (powerOn cart none ()).write 0xA000 0x42
  have target : (powerOn cart none ()).console.ramTarget 0 = .cell 0 := by
    simp [Console.ramTarget, powerOn, Console.powerOn, Hardware.powerOn, fixed]
  have inside : 0 < (powerOn cart none ()).console.hw.cartRam.size := by
    rw [holds.cartRam, ram]
    decide
  have dirty : written.console.hw.batteryDirty = true := by
    show ((powerOn cart none ()).console.writeRam 0 0x42).hw.batteryDirty = true
    rw [Console.writeRam, target]
    dsimp only
    rw [if_pos inside]
    exact battery
  have start : (powerOn cart none ()).Backed true (powerOn cart none ()).console.hw.cartRam {} :=
    ⟨bare, battery, rfl, fun _ _ => rfl, fun without => Bool.noConfusion without⟩
  have saves : written.tick.saved = _ :=
    (start.writesThrough (write_writesThrough _ 0xA000 0x42)).tick_saves dirty
  have latest : ((powerOn cart none ()).journal {} ([.write 0xA000 0x42] ++ [.tick])).latest =
      some written.tick.machine.console.hw.cartRam := by
    show (Journal.record {} written.tick.saved).latest = _
    rw [saves]
    rfl
  exact ⟨cart, accepted, battery, clean, latest, restored _ latest none ()⟩

end Machine

end GameBoy
