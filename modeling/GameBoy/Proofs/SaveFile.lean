import GameBoy.CommandLine
import GameBoy.Proofs.FileLaws
import GameBoy.Proofs.RamWrites
import Mathlib.Data.List.Chain

/-!
Battery-backed RAM from one invocation of the program to the next. Between two invocations it is in
the save file alone. Main statement: `ram_survives`.
-/

namespace GameBoy

namespace Machine

/-- A machine without devices and with nothing to save, as it is when its battery has kept some
RAM. -/
structure Ready (m : Machine σ) (ram : Memory) : Prop where
  bare : m.handlers = []
  battery : m.console.hw.hasBattery = true
  clean : m.console.hw.batteryDirty = false
  cartRam : m.console.hw.cartRam = ram

theorem clean_run (count : Nat) (m : Machine σ) (clean : m.console.hw.batteryDirty = false)
    (j : Journal) : (run count m j).machine.console.hw.batteryDirty = false := by
  induction count generalizing m j with
  | zero => exact clean
  | succ count ih =>
    rw [run]
    cases m.tick.fault with
    | none => exact ih m.tick.machine rfl _
    | some fault => rfl

/-- At the end of a run, RAM is what the run has reported last, or what it was before. -/
theorem Ready.run {m : Machine σ} (ready : m.Ready ram) (count : Nat) :
    (Machine.run count m {}).machine.console.hw.cartRam = (m.reports count).getLast?.getD ram ∧
      (Machine.run count m {}).machine.console.hw.cartRam.size = ram.size := by
  have start : m.Backed true ram {} :=
    ⟨by rw [ready.bare]; nofun, ready.battery, congrArg Memory.size ready.cartRam,
      fun _ _ => ready.cartRam, nofun⟩
  have backed := start.run count
  rw [← latest_reports]
  exact ⟨backed.saved rfl (clean_run count m ready.clean {}), backed.size⟩

end Machine

namespace CommandLine

variable {φ : Type}

/-! What the program does to files. -/

theorem run_bind (x : ExceptT Failure (StateM φ) α) (f : α → ExceptT Failure (StateM φ) β) (s : φ) :
    (x >>= f).run.run s = match x.run.run s with
      | (.ok a, t) => (f a).run.run t
      | (.error e, t) => (.error e, t) := by
  rw [ExceptT.run_bind, StateT.run_bind]
  obtain ⟨ended, t⟩ := x.run.run s
  cases ended <;> rfl

theorem run_lift (x : StateM φ α) (s : φ) :
    (liftM x : ExceptT Failure (StateM φ) α).run.run s = (.ok (x.run s).1, (x.run s).2) := rfl

variable {files : Files (StateM φ)} {path : String} {cart : Cartridge} {image : Memory}

theorem run_readFile (faithful : files.Faithful path) (other : String) (s : φ) :
    (readFile files other).run.run s =
      (match ((files.read other).run s).1 with
      | .ok contents => .ok contents
      | .error e => .error { context := "could not read " ++ other, causes := [e.message] },
        s) := by
  unfold readFile
  rw [run_bind, run_lift, faithful.read]
  dsimp only
  cases ((files.read other).run s).1 <;> rfl

/-- Inserting a cartridge with a battery looks for its save file and changes no file. -/
theorem run_prepare {o : Options} {s : φ} (faithful : files.Faithful path)
    (inserted : ((files.read o.rom).run s).1 = .ok image)
    (accepted : Cartridge.ofImage image = .ok cart) (battery : cart.hasBattery = true)
    (fresh : o.loadState = none) :
    (prepare files o).run.run s =
      (if ((files.present o.savePath).run s).1 then
        match ((files.read o.savePath).run s).1 with
        | .ok saved => .ok ((Machine.powerOn cart o.model ()).mapConsole (·.loadBattery saved))
        | .error e =>
          .error { context := "could not read " ++ o.savePath, causes := [e.message] }
      else .ok (Machine.powerOn cart o.model ()), s) := by
  have read := run_readFile faithful o.rom s
  rw [inserted] at read
  unfold prepare
  rw [run_bind, read]
  simp only [accepted, fresh, battery, Bool.true_and, pure_bind]
  rw [run_bind, run_lift, faithful.present]
  dsimp only
  cases ((files.present o.savePath).run s).1 with
  | false => rfl
  | true =>
    rw [if_pos rfl, if_pos rfl, run_bind, run_readFile faithful]
    cases ((files.read o.savePath).run s).1 <;> rfl

/-- Only a save file that is there and cannot be read is in the way of a cartridge. -/
theorem prepare_eq_ok_iff {o : Options} {s : φ} (faithful : files.Faithful path)
    (inserted : ((files.read o.rom).run s).1 = .ok image)
    (accepted : Cartridge.ofImage image = .ok cart) (battery : cart.hasBattery = true)
    (fresh : o.loadState = none) :
    (∃ m, ((prepare files o).run.run s).1 = .ok m) ↔
      (((files.present o.savePath).run s).1 = true →
        ∃ saved, ((files.read o.savePath).run s).1 = .ok saved) := by
  rw [run_prepare faithful inserted accepted battery fresh]
  cases ((files.present o.savePath).run s).1 with
  | false => exact ⟨fun _ => nofun, fun _ => ⟨_, rfl⟩⟩
  | true =>
    rw [if_pos rfl]
    cases ((files.read o.savePath).run s).1 with
    | ok saved => exact ⟨fun _ _ => ⟨saved, rfl⟩, fun _ => ⟨_, rfl⟩⟩
    | error e =>
      constructor
      · rintro ⟨m, prepared⟩
        cases prepared
      · intro readable
        obtain ⟨saved, read⟩ := readable rfl
        cases read

/-- What the files become when a save state is written, if one is asked for. -/
def Options.putState (o : Options) (files : Files (StateM φ)) (m : Machine Unit) (s : φ) : φ :=
  match o.saveState with
  | none => s
  | some path => files.put path (.ofList m.save) s

theorem Options.sameFile_putState (o : Options) {other : String}
    (apart : ∀ path, o.saveState = some path → files.Apart path other) (m : Machine Unit) (s : φ) :
    files.SameFile other s (o.putState files m s) := by
  unfold putState
  cases asked : o.saveState with
  | none => exact .refl _ _ _
  | some path => exact apart path asked _ s

/-- A run writes the RAM that it reports, each time to the same file, and then the save state. -/
theorem state_playFor (files : Files (StateM φ)) (o : Options) (m : Machine Unit) (s : φ) :
    ((playFor files o m).run.run s).2 =
      o.putState files (m.run o.seconds.ticks {}).machine
        (files.putEach o.savePath (m.reports o.seconds.ticks) s) := by
  have ran := m.run_runReporting (fun ram => discard (files.write o.savePath ram)) o.seconds.ticks
    {} s
  unfold playFor Options.putState
  rw [run_bind, run_lift, ran]
  dsimp only
  cases o.saveState with
  | none =>
    dsimp only
    cases (m.run o.seconds.ticks {}).fault <;> rfl
  | some path =>
    dsimp only
    rw [run_bind, run_lift]
    dsimp only
    cases ((files.write path (.ofList (m.run o.seconds.ticks {}).machine.save)).run _).1 with
    | error e => rfl
    | ok done => cases (m.run o.seconds.ticks {}).fault <;> rfl

theorem state_run {arguments : List String} {o : Options} (files : Files (StateM φ))
    (asked : Request.ofArguments arguments = .ok (.play o)) (s : φ) :
    ((run files arguments).run s).2 = ((play files o).run.run s).2 := by
  unfold run
  rw [asked]
  dsimp only
  rw [StateT.run_bind]
  generalize (play files o).run.run s = played
  obtain ⟨ended, t⟩ := played
  cases ended <;> rfl

/-! What is kept in a save file. -/

/-- The RAM of a cartridge when what is kept at a path has been loaded into it. -/
def restored (files : Files (StateM φ)) (cart : Cartridge) (path : String) (s : φ) : Memory :=
  if ((files.present path).run s).1 then
    match ((files.read path).run s).1 with
    | .ok saved => (Memory.zeros cart.ramSize).overlay saved
    | .error _ => .zeros cart.ramSize
  else .zeros cart.ramSize

theorem size_restored (files : Files (StateM φ)) (cart : Cartridge) (path : String) (s : φ) :
    (restored files cart path s).size = cart.ramSize := by
  unfold restored
  split
  · split
    · rw [Memory.size_overlay, Memory.size_zeros]
    · exact Memory.size_zeros _
  · exact Memory.size_zeros _

theorem restored_same {s t : φ} (same : files.SameFile path s t) :
    restored files cart path t = restored files cart path s := by
  unfold restored
  rw [same.present]
  by_cases there : ((files.present path).run s).1 = true
  · rw [if_pos there, if_pos there, same.read there]
  · rw [if_neg there, if_neg there]

/-- All of RAM that has been written to a file is loaded from it. -/
theorem restored_put (faithful : files.Faithful path) {ram : Memory} {s : φ}
    (written : ((files.write path ram).run s).1 = .ok ()) (whole : ram.size = cart.ramSize) :
    restored files cart path (files.put path ram s) = ram := by
  obtain ⟨there, holds⟩ := faithful.written written
  rw [restored, if_pos there, holds]
  exact Memory.overlay_eq_front (whole.trans (Memory.size_zeros _).symm)

/-! Invocations. -/

/-- An invocation of the program that plays a cartridge with a given save file, and restores no save
state. It gets as far as inserting the cartridge, the last copy of RAM that it saves is written, and
its own save state goes elsewhere. -/
structure Invocation (files : Files (StateM φ)) (image : Memory) (save : String) where
  arguments : List String
  options : Options
  before : φ
  start : Machine Unit
  asked : Request.ofArguments arguments = .ok (.play options)
  saves : options.savePath = save
  fresh : options.loadState = none
  inserted : ((files.read options.rom).run before).1 = .ok image
  started : ((prepare files options).run.run before).1 = .ok start
  written : options.disassemble = none →
    ∀ earlier ram, start.reports options.seconds.ticks = earlier ++ [ram] →
      ((files.write save ram).run (files.putEach save earlier before)).1 = .ok ()
  apart : ∀ path, options.saveState = some path → files.Apart path save

namespace Invocation

variable {save : String}

/-- The machine when the invocation ends, or stops at a fault. -/
def finish (x : Invocation files image save) : Machine Unit :=
  match x.options.disassemble with
  | some count => (x.start.disassemble count x.start.console.hw.cpu.pc).2
  | none => (x.start.run x.options.seconds.ticks {}).machine

/-- The files when the invocation has ended. -/
def after (x : Invocation files image save) : φ := ((run files x.arguments).run x.before).2

/-- An invocation that stores nothing in the RAM of the cartridge. -/
def Quiet (x : Invocation files image save) : Prop :=
  x.options.disassemble = none →
    ∀ p ∈ Machine.runClocks x.options.seconds.ticks x.start, ∀ w ∈ p.clockWrites, ¬w.StoresRam

/-- The files when all that an invocation writes is its save state. -/
def stateOnly (x : Invocation files image save) : φ :=
  match x.options.disassemble with
  | some _ => x.before
  | none => x.options.putState files x.finish x.before

variable (x : Invocation files image save)

theorem sameFile_stateOnly : files.SameFile save x.before x.stateOnly := by
  unfold stateOnly
  cases x.options.disassemble with
  | some count => exact .refl _ _ _
  | none => exact x.options.sameFile_putState x.apart _ _

variable (faithful : files.Faithful save) (accepted : Cartridge.ofImage image = .ok cart)
  (battery : cart.hasBattery = true)

include faithful accepted battery

theorem ready : x.start.Ready (restored files cart save x.before) := by
  have started := x.started
  rw [run_prepare faithful x.inserted accepted battery x.fresh, x.saves] at started
  unfold restored
  cases there : ((files.present save).run x.before).1 with
  | false =>
    rw [there] at started
    rw [← Except.ok.inj started]
    exact ⟨rfl, battery, rfl, rfl⟩
  | true =>
    rw [there, if_pos rfl] at started
    rw [if_pos rfl]
    cases found : ((files.read save).run x.before).1 with
    | error e =>
      rw [found] at started
      cases started
    | ok saved =>
      rw [found] at started
      rw [← Except.ok.inj started]
      exact ⟨rfl, battery, rfl, rfl⟩

/-- What an invocation does to files. -/
theorem after_eq : x.after =
      match x.options.disassemble with
      | some _ => x.before
      | none => x.options.putState files x.finish
        (files.putEach save (x.start.reports x.options.seconds.ticks) x.before) := by
  have prepared : (prepare files x.options).run.run x.before = (.ok x.start, x.before) := by
    refine Prod.ext x.started ?_
    rw [run_prepare faithful x.inserted accepted battery x.fresh]
  unfold after finish
  rw [state_run files x.asked, play, run_bind, prepared]
  dsimp only
  cases x.options.disassemble with
  | some count => rfl
  | none =>
    dsimp only
    have played := state_playFor files x.options x.start x.before
    rw [x.saves] at played
    rw [← played, run_bind]
    obtain ⟨ended, t⟩ := (playFor files x.options x.start).run.run x.before
    cases ended <;> rfl

/-- No file changes but the save file and the save state. -/
theorem sameFile_after {other : String} (elsewhere : files.Apart save other)
    (apart : ∀ path, x.options.saveState = some path → files.Apart path other) :
    files.SameFile other x.before x.after := by
  rw [x.after_eq faithful accepted battery]
  cases x.options.disassemble with
  | some count => exact .refl _ _ _
  | none =>
    exact (elsewhere.sameFile_putEach _ _).trans (x.options.sameFile_putState apart x.finish _)

/-- Whatever an invocation does, the next one can start. -/
theorem readable_after (there : ((files.present save).run x.after).1 = true) :
    ∃ saved, ((files.read save).run x.after).1 = .ok saved := by
  have readable :=
    (prepare_eq_ok_iff faithful x.inserted accepted battery x.fresh).mp ⟨_, x.started⟩
  rw [x.saves] at readable
  rw [x.after_eq faithful accepted battery] at there ⊢
  cases mode : x.options.disassemble with
  | some count =>
    rw [mode] at there
    exact readable there
  | none =>
    rw [mode] at there
    dsimp only at there ⊢
    have same (s : φ) := x.options.sameFile_putState x.apart x.finish s
    rcases (x.start.reports x.options.seconds.ticks).eq_nil_or_concat' with
      none | ⟨earlier, ram, some⟩
    · rw [none] at there ⊢
      rw [(same _).present] at there
      rw [(same _).read there]
      exact readable there
    · obtain ⟨present, read⟩ := faithful.written (x.written mode earlier ram some)
      rw [some, Files.putEach_concat]
      exact ⟨ram, ((same _).read present).trans read⟩

/-- What is loaded after an invocation is the RAM that it has ended with. -/
theorem kept : restored files cart save x.after = x.finish.console.hw.cartRam := by
  have ready := x.ready faithful accepted battery
  rw [x.after_eq faithful accepted battery]
  unfold finish
  cases mode : x.options.disassemble with
  | some count =>
    dsimp only
    rw [Machine.disassemble_bare _ ready.bare, ready.cartRam]
  | none =>
    dsimp only
    rw [restored_same (x.options.sameFile_putState x.apart _ _)]
    obtain ⟨ram, size⟩ := ready.run x.options.seconds.ticks
    rw [ram]
    -- Either the file holds all of RAM as it is now, or neither has changed.
    rcases (x.start.reports x.options.seconds.ticks).eq_nil_or_concat' with
      none | ⟨earlier, saved, some⟩
    · rw [none]
      rfl
    · rw [ram, some, List.getLast?_concat] at size
      rw [some, List.getLast?_concat, Files.putEach_concat]
      exact restored_put faithful (x.written mode earlier saved some)
        (size.trans (size_restored files cart save x.before))

theorem quiet_after (quiet : x.Quiet) : x.after = x.stateOnly := by
  have ready := x.ready faithful accepted battery
  rw [x.after_eq faithful accepted battery, stateOnly]
  cases mode : x.options.disassemble with
  | some count => rfl
  | none =>
    have none : x.start.reports x.options.seconds.ticks = [] :=
      Machine.reports_eq_nil _ _ ready.bare ready.clean (quiet mode)
    rw [none]
    rfl

end Invocation

/-- The RAM of a cartridge with a battery survives from each invocation to the next, and an
invocation that stores nothing in it leaves the save file alone. -/
theorem ram_survives {save : String} (faithful : files.Faithful save)
    (accepted : Cartridge.ofImage image = .ok cart) (battery : cart.hasBattery = true)
    {invocations : List (Invocation files image save)}
    (successive : invocations.IsChain fun x y => y.before = x.after) :
    invocations.IsChain (fun x y => y.start.console.hw.cartRam = x.finish.console.hw.cartRam) ∧
      ∀ x ∈ invocations, x.options.disassemble ≠ none ∨ x.Quiet →
        x.after = x.stateOnly ∧ files.SameFile save x.before x.after := by
  constructor
  · refine successive.imp fun x y next => ?_
    rw [(y.ready faithful accepted battery).cartRam, next]
    exact x.kept faithful accepted battery
  · intro x _ idle
    have quiet : x.Quiet := by
      rcases idle with listing | quiet
      · exact fun none => absurd none listing
      · exact quiet
    have after := x.quiet_after faithful accepted battery quiet
    rw [after]
    exact ⟨rfl, x.sameFile_stateOnly⟩

/-- A directory with a cartridge and a save file that is too short for it. -/
def shelf : Store :=
  { entries :=
      [(.inStore ["game.gb"], Cartridge.blankImage 0x09 2),
        (.inStore ["game.sav"], .ofList [0x12, 0x34])] }

/-- A game is played for ten seconds, and then its first instruction is listed. -/
theorem ram_survives_shelf :
    ∃ x y : Invocation Store.files (Cartridge.blankImage 0x09 2) "game.sav",
      x.arguments = ["game.gb", "--save-state", "game.state"] ∧ x.before = shelf ∧
        y.arguments = ["game.gb", "--disassemble", "1"] ∧ y.before = x.after ∧
        y.start.console.hw.cartRam = x.finish.console.hw.cartRam ∧ y.after = y.stateOnly := by
  obtain ⟨cart, accepted, -⟩ := Cartridge.ofImage_blank 0x09 2 rfl rfl
  have battery : cart.hasBattery = true := by
    rw [Cartridge.ofImage_hasBattery accepted, Cartridge.read_blankImage_type]
    rfl
  have faithful : Store.files.Faithful "game.sav" := Store.files_faithful (by decide +kernel)
  have resolved : shelf.resolve "game.gb" = .ok (.inStore ["game.gb"]) := by decide +kernel
  have inserted : ((Store.files.read "game.gb").run shelf).1 =
      .ok (Cartridge.blankImage 0x09 2) := by
    show shelf.read "game.gb" = _
    rw [Store.read, resolved]
    rfl
  have readable : shelf.read "game.sav" = .ok (.ofList [0x12, 0x34]) := by
    have resolved : shelf.resolve "game.sav" = .ok (.inStore ["game.sav"]) := by decide +kernel
    rw [Store.read, resolved]
    rfl
  have writable (ram : Memory) : ((Store.files.write "game.sav" ram).run shelf).1 = .ok () := by
    have resolved : shelf.resolveNew "game.sav" = .ok (.inStore ["game.sav"]) := by decide +kernel
    have file : shelf.isDirectory (.inStore ["game.sav"]) = false := by decide +kernel
    rw [Store.run_write, Store.write, resolved]
    dsimp only
    rw [file]
    rfl
  obtain ⟨start, started⟩ :=
    (prepare_eq_ok_iff (o := { rom := "game.gb", saveState := some "game.state" }) faithful inserted
      accepted battery rfl).mpr fun _ => ⟨_, readable⟩
  let x : Invocation Store.files (Cartridge.blankImage 0x09 2) "game.sav" :=
    { arguments := ["game.gb", "--save-state", "game.state"]
      options := { rom := "game.gb", saveState := some "game.state" }
      before := shelf
      start
      asked := by decide +kernel
      saves := by decide +kernel
      fresh := rfl
      inserted
      started
      written := fun _ earlier ram _ => Store.writable_putEach writable earlier ram
      apart := by
        rintro _ ⟨⟩
        exact Store.files_apart (by decide +kernel) }
  have insertedAfter : ((Store.files.read "game.gb").run x.after).1 =
      .ok (Cartridge.blankImage 0x09 2) := by
    have same : Store.files.SameFile "game.gb" x.before x.after := by
      refine x.sameFile_after faithful accepted battery (Store.files_apart (by decide +kernel)) ?_
      rintro _ ⟨⟩
      exact Store.files_apart (by decide +kernel)
    have there : shelf.contains "game.gb" = true := by decide +kernel
    exact (same.read there).trans inserted
  obtain ⟨next, startedNext⟩ :=
    (prepare_eq_ok_iff (o := { rom := "game.gb", disassemble := some 1 }) faithful insertedAfter
      accepted battery rfl).mpr (x.readable_after faithful accepted battery)
  let y : Invocation Store.files (Cartridge.blankImage 0x09 2) "game.sav" :=
    { arguments := ["game.gb", "--disassemble", "1"]
      options := { rom := "game.gb", disassemble := some 1 }
      before := x.after
      start := next
      asked := by decide +kernel
      saves := by decide +kernel
      fresh := rfl
      inserted := insertedAfter
      started := startedNext
      written := nofun
      apart := nofun }
  have successive : [x, y].IsChain fun x y => y.before = x.after := .cons_cons rfl (.singleton y)
  obtain ⟨survives, quiet⟩ := ram_survives faithful accepted battery successive
  exact ⟨x, y, rfl, rfl, rfl, rfl, survives.rel, (quiet y (by simp) (.inl nofun)).1⟩

end CommandLine

end GameBoy
