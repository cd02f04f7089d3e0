/-!
The timer. TIMA does not count periods of its own: it advances when one bit of the free-running
DIV counter, gated by the enable bit of TAC, goes from one to zero. Writing DIV or TAC can make
that signal fall too, and TIMA then advances early.
-/

namespace GameBoy

/-- The timer's registers, and the clocks before a scheduled reload of TIMA; zero if none is
scheduled. -/
structure Timer where
  div : UInt16 := 0
  tima : UInt8 := 0
  tma : UInt8 := 0
  tac : UInt8 := 0
  reloadDelay : UInt8 := 0
deriving DecidableEq, Inhabited

namespace Timer

/-- Clocks between an overflow of TIMA and its reload from TMA. -/
def reloadTime : UInt8 := 4

/-- Clocks between two falls of the selected DIV bit. -/
def period (tac : UInt8) : UInt16 :=
  if tac % 4 = 0 then 1024
  else if tac % 4 = 1 then 16
  else if tac % 4 = 2 then 64
  else 256

/-- Whether TIMA advances at all. -/
def enabled (t : Timer) : Bool := t.tac / 4 % 2 = 1

/-- The signal whose falling edge advances TIMA. The selected DIV bit is one in the second half of
each period. -/
def signal (t : Timer) : Bool := t.enabled && decide (period t.tac / 2 ≤ t.div % period t.tac)

/-- Advances TIMA; an overflow schedules the reload. -/
def increment (t : Timer) : Timer :=
  if t.tima = 0xFF then { t with tima := 0, reloadDelay := reloadTime }
  else { t with tima := t.tima + 1 }

/-- Moves the timer to a state with another signal, and advances TIMA if the signal falls. -/
def moveTo (t next : Timer) : Timer :=
  if t.signal && !next.signal then next.increment else next

/-- Whether the next clock reloads TIMA and requests the interrupt. -/
def reloads (t : Timer) : Bool := t.reloadDelay = 1

/-- Counts a scheduled reload down, and reloads when it is due. -/
def countDown (t : Timer) : Timer :=
  if t.reloads then { t with tima := t.tma, reloadDelay := 0 }
  else if t.reloadDelay = 0 then t
  else { t with reloadDelay := t.reloadDelay - 1 }

/-- One clock. -/
def clock (t : Timer) : Timer :=
  let t := t.countDown
  t.moveTo { t with div := t.div + 1 }

/-- The visible part of the counter. -/
def readDiv (t : Timer) : UInt8 := (t.div / 256).toUInt8

/-- A write to DIV clears the whole counter, whatever is written. -/
def resetDiv (t : Timer) : Timer := t.moveTo { t with div := 0 }

/-- A write to TIMA cancels a scheduled reload. -/
def writeTima (t : Timer) (v : UInt8) : Timer := { t with tima := v, reloadDelay := 0 }

def writeTma (t : Timer) (v : UInt8) : Timer := { t with tma := v }

/-- The bits of TAC that do not exist read as one. -/
def readTac (t : Timer) : UInt8 := 0xF8 ||| t.tac

def writeTac (t : Timer) (v : UInt8) : Timer := t.moveTo { t with tac := v % 8 }

end Timer

end GameBoy
