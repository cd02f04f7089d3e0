import GameBoy.CommandLine.Files
import GameBoy.CommandLine.Options
import GameBoy.Instruction.Text
import GameBoy.Schedule
import GameBoy.Snapshot

/-!
The command line: plays a cartridge for some emulated time, and keeps its battery-backed RAM in a
file beside it.
-/

namespace GameBoy.CommandLine

/-- What a program leaves behind when it ends. -/
structure Outcome where
  exitCode : Nat
  stdout : String := ""
  stderr : String := ""
deriving DecidableEq

/-- What went wrong, and the causes behind it, the nearest first. -/
structure Failure where
  context : String
  causes : List String
deriving DecidableEq

/-- The report of a failure. Causes are numbered if there are several. -/
def Failure.report (f : Failure) : String :=
  let causes := match f.causes with
    | [] => ""
    | [cause] => "\n\nCaused by:\n    " ++ cause
    | causes =>
      "\n\nCaused by:" ++ String.join (causes.zipIdx.map fun (cause, i) =>
        "\n    " ++ toString i ++ ": " ++ cause)
  "Error: " ++ f.context ++ causes ++ "\n"

/-- One line of a listing. -/
def listingLine (address : UInt16) (i : Instruction) : String :=
  Text.Hex.word address ++ ": " ++ i.text ++ "\n"

/-- Where battery-backed RAM is kept. -/
def Options.savePath (o : Options) : String := o.save.getD (withExtension o.rom "sav")

section

variable {m : Type → Type} [Monad m]

/-- Reads a file whose absence is a failure. -/
def readFile (files : Files m) (path : String) : ExceptT Failure m Memory := do
  match ← files.read path with
  | .ok contents => return contents
  | .error e => throw { context := "could not read " ++ path, causes := [e.message] }

/-- Inserts a cartridge and restores what was saved. -/
def prepare (files : Files m) (o : Options) : ExceptT Failure m (Machine Unit) := do
  let image ← readFile files o.rom
  let cart ← match Cartridge.ofImage image with
    | .ok cart => pure cart
    | .error e => throw { context := "failed to load cartridge", causes := [e.message] }
  let machine := Machine.powerOn cart o.model ()
  let machine ←
    if cart.hasBattery && (← files.present o.savePath) then do
      let saved ← readFile files o.savePath
      pure (machine.mapConsole (·.loadBattery saved))
    else pure machine
  match o.loadState with
  | none => return machine
  | some path =>
    let snapshot ← readFile files path
    match machine.load snapshot.toList with
    | .ok machine => return machine
    | .error e => throw { context := "could not restore " ++ path, causes := e.causes }

/-- Runs a machine and writes what is to be kept: battery-backed RAM after every tick that wrote to
it, and the save state at the end. A save file that cannot be written is no failure. -/
def playFor (files : Files m) (o : Options) (machine : Machine Unit) : ExceptT Failure m Unit := do
  let save (ram : Memory) : m Unit := discard (files.write o.savePath ram)
  let (machine, fault) ← liftM (machine.runReporting save o.seconds.ticks)
  if let some path := o.saveState then
    match ← files.write path (.ofList machine.save) with
    | .ok () => pure ()
    | .error e => throw { context := "could not write " ++ path, causes := [e.message] }
  if let some fault := fault then
    throw
      { context :=
          "emulation stopped after " ++ toString machine.console.hw.cycleCount.toNat ++ " ticks"
        causes := [fault.message] }

/-- Plays a cartridge, or lists the instructions at PC. The result is what is printed. -/
def play (files : Files m) (o : Options) : ExceptT Failure m String := do
  let machine ← prepare files o
  match o.disassemble with
  | some count =>
    let (listing, _) := machine.disassemble count machine.console.hw.cpu.pc
    return String.join (listing.map fun (address, i) => listingLine address i)
  | none =>
    playFor files o machine
    return ""

/-- The name that the program goes by. -/
def programName : String := "lr35902-run"

/-- What the program prints when it is asked for help. -/
def usage : String :=
  "Usage: " ++ programName ++ " [OPTIONS] <ROM>\n\n" ++
  "Arguments:\n" ++
  "  <ROM>  Path to .gb/.gbc ROM file\n\n" ++
  "Options:\n" ++
  "      --model <MODEL>            Hardware to emulate. Defaults to whatever the cartridge " ++
    "header asks for [possible values: dmg, cgb]\n" ++
  "      --seconds <SECONDS>        Seconds of emulated time to run for [default: 10]\n" ++
  "      --save <SAVE>              Battery save file. Defaults to the ROM path with a .sav " ++
    "extension\n" ++
  "      --load-state <LOAD_STATE>  Restore this save state before running\n" ++
  "      --save-state <SAVE_STATE>  Write a save state here when done\n" ++
  "      --disassemble <N>          Print the next N instructions at PC and exit\n" ++
  "  -v, --verbose                  Debug logging\n" ++
  "  -h, --help                     Print help\n" ++
  "  -V, --version                  Print version\n"

/-- Runs the program with the given arguments. -/
def run (files : Files m) (arguments : List String) : m Outcome := do
  match Request.ofArguments arguments with
  | .error e => return { exitCode := 2, stderr := "error: " ++ e.message ++ "\n" }
  | .ok .help => return { exitCode := 0, stdout := usage }
  | .ok .version => return { exitCode := 0, stdout := programName ++ " 0.1.0\n" }
  | .ok (.play o) =>
    match ← (play files o).run with
    | .ok stdout => return { exitCode := 0, stdout }
    | .error failure => return { exitCode := 1, stderr := failure.report }

end

end GameBoy.CommandLine
