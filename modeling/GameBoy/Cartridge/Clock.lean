/-!
The real-time clock that some cartridges carry. It counts emulated time. Its counters are plain
binary counters: a value out of range counts on until it wraps at the counter's width, and carries
nothing into the next counter.
-/

namespace GameBoy

/-- The clock's counters. The day is a nine-bit number whose high bit is bit 0 of `dayHigh`; bit 6
of `dayHigh` halts the clock, and bit 7 says that the day has overflowed. -/
structure ClockTime where
  seconds : UInt8 := 0
  minutes : UInt8 := 0
  hours : UInt8 := 0
  dayLow : UInt8 := 0
  dayHigh : UInt8 := 0
deriving DecidableEq, Inhabited

namespace ClockTime

def halted (t : ClockTime) : Bool := t.dayHigh / 0x40 % 2 = 1

/-- The day number. -/
def day (t : ClockTime) : UInt16 := (t.dayHigh % 2).toUInt16 * 256 + t.dayLow.toUInt16

def nextDay (t : ClockTime) : ClockTime :=
  let day := t.day + 1
  { t with
    dayLow := day.toUInt8
    dayHigh := (t.dayHigh &&& 0xFE) ||| (day / 256 % 2).toUInt8 |||
      (if day = 0x200 then 0x80 else 0) }

def nextHour (t : ClockTime) : ClockTime :=
  let hours := (t.hours + 1) % 32
  if hours = 24 then { t with hours := 0 }.nextDay else { t with hours := hours }

def nextMinute (t : ClockTime) : ClockTime :=
  let minutes := (t.minutes + 1) % 64
  if minutes = 60 then { t with minutes := 0 }.nextHour else { t with minutes := minutes }

def nextSecond (t : ClockTime) : ClockTime :=
  let seconds := (t.seconds + 1) % 64
  if seconds = 60 then { t with seconds := 0 }.nextMinute else { t with seconds := seconds }

end ClockTime

/-- The clock's live counters, and the copy of them that software reads. -/
structure Clock where
  live : ClockTime := {}
  latched : ClockTime := {}
  latchArmed : Bool := false
  subsecond : UInt32 := 0
deriving DecidableEq, Inhabited

namespace Clock

/-- Base clock ticks in a second. -/
def ticksPerSecond : UInt32 := 4194304

/-- One base clock tick. -/
def tick (c : Clock) : Clock :=
  if c.live.halted then c
  else if c.subsecond + 1 < ticksPerSecond then { c with subsecond := c.subsecond + 1 }
  else { c with subsecond := 0, live := c.live.nextSecond }

/-- Writing zero and then one copies the live counters into the latched ones. -/
def latch (c : Clock) (v : UInt8) : Clock :=
  { c with
    latched := if c.latchArmed && v = 1 then c.live else c.latched
    latchArmed := v = 0 }

/-- The latched counter with the given number. -/
def readRegister (c : Clock) (register : Nat) : UInt8 :=
  match register with
  | 0 => c.latched.seconds
  | 1 => c.latched.minutes
  | 2 => c.latched.hours
  | 3 => c.latched.dayLow
  | _ => c.latched.dayHigh

/-- Stores a live counter, of which only the bits that exist are kept. -/
def writeRegister (c : Clock) (register : Nat) (v : UInt8) : Clock :=
  match register with
  | 0 => { c with live := { c.live with seconds := v % 64 }, subsecond := 0 }
  | 1 => { c with live := { c.live with minutes := v % 64 } }
  | 2 => { c with live := { c.live with hours := v % 32 } }
  | 3 => { c with live := { c.live with dayLow := v } }
  | _ => { c with live := { c.live with dayHigh := v &&& 0xC1 } }

end Clock

end GameBoy
