import GameBoy.Cartridge
import GameBoy.CommandLine.Duration

/-!
The options of the command line. An option's value follows it or an equals sign; what begins with a
dash is no value. Two dashes end the options.
-/

namespace GameBoy.CommandLine

/-- How a cartridge is to be played. -/
structure Options where
  rom : String
  model : Option Model := none
  seconds : Duration := .decimal false 10 0
  save : Option String := none
  loadState : Option String := none
  saveState : Option String := none
  disassemble : Option Nat := none
  verbose : Bool := false
deriving DecidableEq

/-- What the command line asks for. -/
inductive Request
  | play (options : Options)
  | help
  | version
deriving DecidableEq

/-- Why a command line is rejected. -/
inductive Rejection
  | unknownOption (argument : String)
  | missingValue (option : String)
  | unexpectedValue (option : String)
  | repeated (option : String)
  | invalidValue (option value : String)
  | extraArgument (argument : String)
  | missingRom
deriving DecidableEq

def Rejection.message : Rejection → String
  | .unknownOption argument => "unexpected argument '" ++ argument ++ "' found"
  | .missingValue option => "a value is required for '--" ++ option ++ "' but none was supplied"
  | .unexpectedValue option => "unexpected value for '--" ++ option ++ "' found"
  | .repeated option => "the argument '--" ++ option ++ "' cannot be used multiple times"
  | .invalidValue option value => "invalid value '" ++ value ++ "' for '--" ++ option ++ "'"
  | .extraArgument argument => "unexpected argument '" ++ argument ++ "' found"
  | .missingRom => "the path of a ROM is required"

/-- The options that take a value. -/
inductive Setting
  | model
  | seconds
  | save
  | loadState
  | saveState
  | disassemble
deriving DecidableEq

namespace Setting

def name : Setting → String
  | .model => "model"
  | .seconds => "seconds"
  | .save => "save"
  | .loadState => "load-state"
  | .saveState => "save-state"
  | .disassemble => "disassemble"

def all : List Setting := [.model, .seconds, .save, .loadState, .saveState, .disassemble]

def ofName? (name : String) : Option Setting := all.find? fun s => s.name = name

end Setting

/-- The options read so far. -/
structure Draft where
  rom : Option String := none
  model : Option Model := none
  seconds : Option Duration := none
  save : Option String := none
  loadState : Option String := none
  saveState : Option String := none
  disassemble : Option Nat := none
  verbose : Bool := false

namespace Draft

def model? (text : String) : Option Model :=
  if text = "dmg" then some .monochrome else if text = "cgb" then some .color else none

/-- A count fits in 64 bits; it may carry a plus sign. -/
def count? (text : String) : Option Nat :=
  let digits := match text.toList with
    | '+' :: rest => rest
    | all => all
  let n := Duration.digitsValue digits
  if digits ≠ [] ∧ digits.all Char.isDigit ∧ n < UInt64.size then some n else none

/-- A path is not empty. -/
def path? (text : String) : Option String := if text = "" then none else some text

/-- Stores the value of an option that has not been given before. -/
def fill (setting : Setting) (old : Option α) (parse : String → Option α) (value : String)
    (store : α → Draft) : Except Rejection Draft :=
  if old.isSome then .error (.repeated setting.name)
  else
    match parse value with
    | some a => .ok (store a)
    | none => .error (.invalidValue setting.name value)

/-- Stores the value of an option. -/
def set (d : Draft) (setting : Setting) (value : String) : Except Rejection Draft :=
  match setting with
  | .model => fill setting d.model model? value fun v => { d with model := some v }
  | .seconds => fill setting d.seconds Duration.ofText? value fun v => { d with seconds := some v }
  | .save => fill setting d.save path? value fun v => { d with save := some v }
  | .loadState => fill setting d.loadState path? value fun v => { d with loadState := some v }
  | .saveState => fill setting d.saveState path? value fun v => { d with saveState := some v }
  | .disassemble =>
    fill setting d.disassemble count? value fun v => { d with disassemble := some v }

def setVerbose (d : Draft) : Except Rejection Draft :=
  if d.verbose then .error (.repeated "verbose") else .ok { d with verbose := true }

/-- The only argument that is no option is the path of the ROM. -/
def setRom (d : Draft) (argument : String) : Except Rejection Draft :=
  match d.rom, path? argument with
  | some _, _ => .error (.extraArgument argument)
  | none, none => .error (.invalidValue "rom" argument)
  | none, some path => .ok { d with rom := some path }

/-- The options, once every argument has been read. -/
def finish (d : Draft) : Except Rejection Options :=
  match d.rom with
  | none => .error .missingRom
  | some rom =>
    .ok
      { rom
        model := d.model
        seconds := d.seconds.getD (.decimal false 10 0)
        save := d.save
        loadState := d.loadState
        saveState := d.saveState
        disassemble := d.disassemble
        verbose := d.verbose }

end Draft

/-- What an argument looks like. -/
inductive Argument
  | plain
  | endOfOptions
  | long (name : String) (value : Option String)
  | short (letters : List Char)

/-- A single dash is a plain argument. -/
def Argument.ofText (text : String) : Argument :=
  match text.toList with
  | ['-', '-'] => .endOfOptions
  | '-' :: '-' :: body =>
    let (name, rest) := body.span (· ≠ '=')
    .long (String.ofList name) (match rest with
      | [] => none
      | _ :: value => some (String.ofList value))
  | '-' :: letter :: letters => .short (letter :: letters)
  | _ => .plain

/-- A draft, or a request that ends reading at once. -/
abbrev Reading := Except Rejection (Draft ⊕ Request)

/-- Reads a group of one-letter options. -/
def readLetters (d : Draft) : List Char → Reading
  | [] => .ok (.inl d)
  | 'v' :: rest =>
    match d.setVerbose with
    | .error e => .error e
    | .ok d => readLetters d rest
  | 'h' :: _ => .ok (.inr .help)
  | 'V' :: _ => .ok (.inr .version)
  | letter :: _ => .error (.unknownOption (String.ofList ['-', letter]))

/-- Reads an option without a value. -/
def readFlag (d : Draft) (name : String) (value : Option String) : Reading :=
  if name = "verbose" ∨ name = "help" ∨ name = "version" then
    if value.isSome then .error (.unexpectedValue name)
    else if name = "help" then .ok (.inr .help)
    else if name = "version" then .ok (.inr .version)
    else
      match d.setVerbose with
      | .error e => .error e
      | .ok d => .ok (.inl d)
  else .error (.unknownOption ("--" ++ name))

/-- Everything after two dashes is plain. -/
def readPlain (d : Draft) : List String → Except Rejection Options
  | [] => d.finish
  | argument :: rest =>
    match d.setRom argument with
    | .error e => .error e
    | .ok d => readPlain d rest

/-- Reads arguments in turn; the first problem rejects the command line. -/
def readArguments (d : Draft) : List String → Except Rejection Request
  | [] => d.finish.map .play
  | argument :: rest =>
    match Argument.ofText argument with
    | .plain =>
      match d.setRom argument with
      | .error e => .error e
      | .ok d => readArguments d rest
    | .endOfOptions => (readPlain d rest).map .play
    | .short letters =>
      match readLetters d letters with
      | .error e => .error e
      | .ok (.inr request) => .ok request
      | .ok (.inl d) => readArguments d rest
    | .long name value =>
      match Setting.ofName? name, value, rest with
      | none, value, rest =>
        match readFlag d name value with
        | .error e => .error e
        | .ok (.inr request) => .ok request
        | .ok (.inl d) => readArguments d rest
      | some setting, some value, rest =>
        match d.set setting value with
        | .error e => .error e
        | .ok d => readArguments d rest
      | some _, none, [] => .error (.missingValue name)
      | some setting, none, value :: rest =>
        match Argument.ofText value with
        | .plain =>
          match d.set setting value with
          | .error e => .error e
          | .ok d => readArguments d rest
        | _ => .error (.missingValue name)

/-- Reads a command line. -/
def Request.ofArguments (arguments : List String) : Except Rejection Request :=
  readArguments {} arguments

end GameBoy.CommandLine
