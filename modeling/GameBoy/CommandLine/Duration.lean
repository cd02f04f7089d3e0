/-!
Amounts of time as written on the command line: decimal numbers of seconds, and how many base clock
ticks they stand for. A number of seconds is first rounded to 53 significant bits, then counted in
ticks, and the fraction of a tick is dropped.
-/

namespace GameBoy.CommandLine

/-- Seconds: a mantissa with a power of ten, or a name for something that is no number. -/
inductive Duration
  | decimal (negative : Bool) (mantissa : Nat) (exponent : Int)
  | infinite (negative : Bool)
  | undefined
deriving DecidableEq, Inhabited

namespace Duration

/-- Takes a sign off the front of a text; the first component says that it was a minus. -/
def takeSign : List Char → Bool × List Char
  | '-' :: rest => (true, rest)
  | '+' :: rest => (false, rest)
  | text => (false, text)

/-- The number that decimal digits stand for. -/
def digitsValue (digits : List Char) : Nat :=
  digits.foldl (fun n d => n * 10 + (d.toNat - '0'.toNat)) 0

/-- The exponent at the end of a number, zero if there is none. -/
def exponent? : List Char → Option Int
  | [] => some 0
  | mark :: rest =>
    let (negative, digits) := takeSign rest
    if (mark = 'e' ∨ mark = 'E') ∧ digits ≠ [] ∧ digits.all Char.isDigit then
      let n : Int := digitsValue digits
      some (if negative then -n else n)
    else none

/-- Takes a point and the digits after it off the front of a text. -/
def takeFraction : List Char → List Char × List Char
  | '.' :: rest => rest.span Char.isDigit
  | text => ([], text)

/-- A number without its sign: digits with a point among, before or after them, and an exponent. -/
def decimal? (negative : Bool) (text : List Char) : Option Duration :=
  let (whole, rest) := text.span Char.isDigit
  let (fraction, rest) := takeFraction rest
  if whole = [] ∧ fraction = [] then none
  else
    (exponent? rest).map fun e =>
      .decimal negative (digitsValue (whole ++ fraction)) (e - fraction.length)

/-- Names are read in either case. -/
def ofText? (text : String) : Option Duration :=
  let (negative, body) := takeSign text.toList
  let name := body.map Char.toLower
  if name = ['n', 'a', 'n'] then some .undefined
  else if name = ['i', 'n', 'f'] ∨ name = ['i', 'n', 'f', 'i', 'n', 'i', 't', 'y'] then
    some (.infinite negative)
  else decimal? negative body

/-- The most ticks that a duration can stand for. -/
def maxTicks : Nat := UInt64.size - 1

/-- The integer nearest to a quotient; of two equally near, the even one. -/
def roundQuotient (num den : Nat) : Nat :=
  let q := num / den
  let r := num % den
  if 2 * r < den then q else if den < 2 * r then q + 1 else q + q % 2

/-- The numerator and denominator of a quotient times a power of two. -/
def scale (num den : Nat) (power : Int) : Nat × Nat :=
  (num <<< power.toNat, den <<< (-power).toNat)

/-- The power of two that brings a positive quotient between 2^52 and 2^53. -/
def normalPower (num den : Nat) : Int :=
  let power : Int := 52 + den.log2 - num.log2
  let (n, d) := scale num den power
  if n < d <<< 52 then power + 1 else power

/-- The ticks in a positive quotient of seconds; there are 2^22 in a second. -/
def ticksOfQuotient (num den : Nat) : Nat :=
  let power := normalPower num den
  let (n, d) := scale num den power
  let (ticks, unit) := scale (roundQuotient n d) 1 (22 - power)
  min (ticks / unit) maxTicks

/-- The ticks in a decimal number of seconds. A power of ten far from the range of ticks decides
by itself. -/
def ticksOfDecimal (mantissa : Nat) (exponent : Int) : Nat :=
  let digits : Int := (Nat.toDigits 10 mantissa).length
  if mantissa = 0 ∨ exponent + digits < -40 then 0
  else if 40 < exponent then maxTicks
  else ticksOfQuotient (mantissa * Nat.pow 10 exponent.toNat) (Nat.pow 10 (-exponent).toNat)

/-- The ticks that a duration stands for: none if it is negative or no number. -/
def ticks : Duration → Nat
  | .decimal false mantissa exponent => ticksOfDecimal mantissa exponent
  | .decimal true _ _ => 0
  | .infinite negative => if negative then 0 else maxTicks
  | .undefined => 0

end Duration

end GameBoy.CommandLine
