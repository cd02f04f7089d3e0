import GameBoy.Console
import GameBoy.Proofs.TimerPeriod

/-!
What the clock on a cartridge counts when nobody writes to it. Seconds, minutes and hours are wheels
of one kind, each of which makes the next one advance. Main statement: `tickCartridge_closed_form`.
-/

namespace GameBoy

namespace ClockTime

/-- A counter of the clock. It begins again when it comes to its range, and then the next counter
advances. Past its range it counts on to its width. -/
structure Wheel where
  range : Nat
  width : Nat
  shown : ClockTime → UInt8
  turnTo : UInt8 → ClockTime → ClockTime
  carry : ClockTime → ClockTime

namespace Wheel

def seconds : Wheel where
  range := 60
  width := 64
  shown := ClockTime.seconds
  turnTo v t := { t with seconds := v }
  carry := nextMinute

def minutes : Wheel where
  range := 60
  width := 64
  shown := ClockTime.minutes
  turnTo v t := { t with minutes := v }
  carry := nextHour

def hours : Wheel where
  range := 24
  width := 32
  shown := ClockTime.hours
  turnTo v t := { t with hours := v }
  carry := nextDay

/-- One step of a wheel. -/
def advance (w : Wheel) (t : ClockTime) : ClockTime :=
  let next := (w.shown t + 1) % UInt8.ofNat w.width
  if next = UInt8.ofNat w.range then w.carry (w.turnTo 0 t) else w.turnTo next t

/-- What a wheel shows after some steps. -/
def reading (w : Wheel) (start steps : Nat) : Nat :=
  if start < w.range then (start + steps) % w.range
  else if start + steps < w.width then start + steps
  else (start + steps - w.width) % w.range

/-- How often a wheel makes the next one advance in some steps. -/
def carries (w : Wheel) (start steps : Nat) : Nat :=
  if start < w.range then (start + steps) / w.range else (start + steps - w.width) / w.range

/-- A wheel is turned by itself, and what it carries into does not look at it. -/
structure Turns (w : Wheel) : Prop where
  positive : 0 < w.range
  narrow : w.range < w.width
  fits : w.width < 256
  shown_turnTo (v : UInt8) (t : ClockTime) : w.shown (w.turnTo v t) = v
  turnTo_turnTo (v u : UInt8) (t : ClockTime) : w.turnTo v (w.turnTo u t) = w.turnTo v t
  turnTo_shown (t : ClockTime) : w.turnTo (w.shown t) t = t
  carry_turnTo (v : UInt8) (t : ClockTime) : w.carry (w.turnTo v t) = w.turnTo v (w.carry t)

theorem hours_turns : hours.Turns where
  positive := by decide
  narrow := by decide
  fits := by decide
  shown_turnTo _ _ := rfl
  turnTo_turnTo _ _ _ := rfl
  turnTo_shown _ := rfl
  carry_turnTo _ _ := rfl

theorem minutes_turns : minutes.Turns where
  positive := by decide
  narrow := by decide
  fits := by decide
  shown_turnTo _ _ := rfl
  turnTo_turnTo _ _ _ := rfl
  turnTo_shown _ := rfl
  carry_turnTo v t := by
    show nextHour { t with minutes := v } = { nextHour t with minutes := v }
    unfold nextHour
    dsimp only
    split <;> rfl

theorem seconds_turns : seconds.Turns where
  positive := by decide
  narrow := by decide
  fits := by decide
  shown_turnTo _ _ := rfl
  turnTo_turnTo _ _ _ := rfl
  turnTo_shown _ := rfl
  carry_turnTo v t := by
    show nextMinute { t with seconds := v } = { nextMinute t with seconds := v }
    unfold nextMinute nextHour
    dsimp only
    repeat' split
    all_goals rfl

namespace Turns

variable {w : Wheel}

/-- At first a wheel shows what it shows, and nothing has been carried. -/
theorem reading_zero (inside : start < w.width) :
    w.reading start 0 = start ∧ w.carries start 0 = 0 := by
  unfold reading carries
  by_cases inRange : start < w.range
  · rw [if_pos inRange, if_pos inRange, Nat.add_zero, Nat.mod_eq_of_lt inRange,
      Nat.div_eq_of_lt inRange]
    exact ⟨rfl, rfl⟩
  · rw [if_neg inRange, if_neg inRange, Nat.add_zero, if_pos inside,
      Nat.sub_eq_zero_of_le (Nat.le_of_lt inside), Nat.zero_div]
    exact ⟨rfl, rfl⟩

/-- A step either completes the range, or goes on within the width. -/
theorem reading_succ (turns : w.Turns) (start steps : Nat) :
    (w.reading start steps + 1 = w.range ∧ w.reading start (steps + 1) = 0 ∧
        w.carries start (steps + 1) = w.carries start steps + 1) ∨
      ((w.reading start steps + 1) % w.width ≠ w.range ∧
        w.reading start (steps + 1) = (w.reading start steps + 1) % w.width ∧
        w.carries start (steps + 1) = w.carries start steps) := by
  have narrow := turns.narrow
  unfold reading carries
  by_cases inRange : start < w.range
  · simp only [if_pos inRange, ← Nat.add_assoc]
    rcases succ_div_mod (start + steps) turns.positive with
      ⟨full, rest, count⟩ | ⟨more, rest, count⟩
    · exact .inl ⟨full, rest, count⟩
    · have within : ((start + steps) % w.range + 1) % w.width = (start + steps) % w.range + 1 :=
        Nat.mod_eq_of_lt (Nat.lt_trans more narrow)
      exact .inr ⟨by rw [within]; omega, rest.trans within.symm, count⟩
  · simp only [if_neg inRange, ← Nat.add_assoc]
    by_cases early : start + steps < w.width
    · have none : start + steps + 1 - w.width = 0 := by omega
      have before : start + steps - w.width = 0 := by omega
      rw [if_pos early, none, before]
      by_cases last : start + steps + 1 = w.width
      · have past : ¬start + steps + 1 < w.width := by omega
        rw [if_neg past, last, Nat.mod_self, Nat.zero_mod]
        exact .inr ⟨Nat.ne_of_lt turns.positive, rfl, rfl⟩
      · have within : start + steps + 1 < w.width := by omega
        rw [if_pos within, Nat.mod_eq_of_lt within]
        exact .inr ⟨by omega, rfl, rfl⟩
    · have past : ¬start + steps + 1 < w.width := by omega
      have next : start + steps + 1 - w.width = start + steps - w.width + 1 := by omega
      rw [if_neg early, if_neg past, next]
      rcases succ_div_mod (start + steps - w.width) turns.positive with
        ⟨full, rest, count⟩ | ⟨more, rest, count⟩
      · exact .inl ⟨full, rest, count⟩
      · have within : ((start + steps - w.width) % w.range + 1) % w.width =
            (start + steps - w.width) % w.range + 1 := Nat.mod_eq_of_lt (Nat.lt_trans more narrow)
        exact .inr ⟨by rw [within]; omega, rest.trans within.symm, count⟩

theorem reading_lt (turns : w.Turns) (start steps : Nat) : w.reading start steps < w.width := by
  have rest (n : Nat) : n % w.range < w.width :=
    Nat.lt_trans (Nat.mod_lt n turns.positive) turns.narrow
  unfold reading
  split
  · exact rest _
  · split
    · assumption
    · exact rest _

/-- The place after one of a wheel, as a number. -/
theorem toNat_next (turns : w.Turns) (below : n < w.width) :
    ((UInt8.ofNat n + 1) % UInt8.ofNat w.width).toNat = (n + 1) % w.width := by
  have fits := turns.fits
  rw [UInt8.toNat_mod, UInt8.toNat_add, UInt8.toNat_ofNat_of_lt' fits,
    UInt8.toNat_ofNat_of_lt' (Nat.lt_trans below fits)]
  exact congrArg (· % w.width) (Nat.mod_eq_of_lt (Nat.lt_of_le_of_lt below fits))

/-- The wheel itself and what it carries into turn apart from one another. -/
theorem advance_iterate (turns : w.Turns) {t : ClockTime} (inside : (w.shown t).toNat < w.width)
    (steps : Nat) :
    w.advance^[steps] t =
      w.turnTo (UInt8.ofNat (w.reading (w.shown t).toNat steps))
        (w.carry^[w.carries (w.shown t).toNat steps] t) := by
  induction steps with
  | zero =>
    obtain ⟨shown, none⟩ := reading_zero inside
    rw [shown, none, UInt8.ofNat_toNat]
    exact (turns.turnTo_shown t).symm
  | succ steps ih =>
    have narrow := turns.narrow
    have next := turns.toNat_next (turns.reading_lt (w.shown t).toNat steps)
    have full : (UInt8.ofNat (w.reading (w.shown t).toNat steps) + 1) % UInt8.ofNat w.width =
        UInt8.ofNat w.range ↔ (w.reading (w.shown t).toNat steps + 1) % w.width = w.range := by
      rw [← UInt8.toNat_inj, next, UInt8.toNat_ofNat_of_lt' (Nat.lt_trans narrow turns.fits)]
    rw [Function.iterate_succ_apply', ih, advance, turns.shown_turnTo, turns.turnTo_turnTo,
      turns.turnTo_turnTo]
    simp only [full]
    rcases turns.reading_succ (w.shown t).toNat steps with
      ⟨complete, zero, more⟩ | ⟨within, shown, same⟩
    · have wraps : (w.reading (w.shown t).toNat steps + 1) % w.width = w.range := by
        rw [complete, Nat.mod_eq_of_lt narrow]
      rw [if_pos wraps, zero, more, turns.carry_turnTo, Function.iterate_succ_apply']
      rfl
    · rw [if_neg within, shown, same, ← next, UInt8.ofNat_toNat]

end Turns

/-- Past its range a wheel counts on to its width, and nothing is carried. -/
theorem reading_past (w : Wheel) (past : w.range ≤ start)
    (within : start + steps ≤ w.width) :
    w.reading start steps = (start + steps) % w.width ∧ w.carries start steps = 0 := by
  have outside : ¬start < w.range := Nat.not_lt.mpr past
  unfold reading carries
  rw [if_neg outside, if_neg outside, Nat.sub_eq_zero_of_le within, Nat.zero_div, Nat.zero_mod]
  refine ⟨?_, rfl⟩
  split
  · next early => rw [Nat.mod_eq_of_lt early]
  · next late => rw [Nat.le_antisymm within (Nat.not_lt.mp late), Nat.mod_self]

end Wheel

/-! Days. -/

theorem toNat_day (t : ClockTime) : t.day.toNat = t.dayHigh.toNat % 2 * 256 + t.dayLow.toNat := by
  have low := t.dayLow.toNat_lt
  simp only [day, UInt16.toNat_add, UInt16.toNat_mul, UInt8.toNat_toUInt16, UInt8.toNat_mod,
    UInt16.reduceToNat, UInt8.reduceToNat]
  omega

theorem halted_eq_testBit (t : ClockTime) : t.halted = t.dayHigh.toNat.testBit 6 := by
  simp only [halted, Nat.testBit_eq_decide_div_mod_eq, ← UInt8.toNat_inj, UInt8.toNat_mod,
    UInt8.toNat_div, UInt8.reduceToNat, Nat.reducePow]

theorem toNat_dayHigh_nextDay (t : ClockTime) :
    t.nextDay.dayHigh.toNat =
      (t.dayHigh.toNat &&& 0xFE) ||| ((t.day.toNat + 1) / 256 % 2) |||
        if t.day.toNat + 1 = 512 then 2 ^ 7 else 0 := by
  have day := t.toNat_day
  have low := t.dayLow.toNat_lt
  have next : (t.day + 1).toNat = t.day.toNat + 1 := by
    rw [UInt16.toNat_add]
    exact Nat.mod_eq_of_lt (by simp only [UInt16.reduceToNat]; omega)
  have bit : ((t.day + 1) / 256 % 2).toUInt8.toNat = (t.day.toNat + 1) / 256 % 2 := by
    simp only [UInt16.toNat_toUInt8, UInt16.toNat_mod, UInt16.toNat_div, next, UInt16.reduceToNat]
    omega
  have last : t.day + 1 = 0x200 ↔ t.day.toNat + 1 = 512 := by
    rw [← UInt16.toNat_inj, next]
    rfl
  simp only [nextDay, UInt8.toNat_or, UInt8.toNat_and, bit, last, UInt8.reduceToNat]
  split <;> rfl

theorem toNat_day_nextDay (t : ClockTime) : t.nextDay.day.toNat = (t.day.toNat + 1) % 512 := by
  have day := t.toNat_day
  have low := t.dayLow.toNat_lt
  have high : t.nextDay.dayHigh.toNat % 2 ^ 1 = (t.day.toNat + 1) / 256 % 2 := by
    rw [toNat_dayHigh_nextDay, Nat.or_mod_two_pow, Nat.or_mod_two_pow, Nat.and_mod_two_pow]
    split <;> simp
  have rest : t.nextDay.dayLow.toNat = (t.day.toNat + 1) % 256 := by
    simp only [nextDay, UInt16.toNat_toUInt8, UInt16.toNat_add, UInt16.reduceToNat]
    omega
  rw [toNat_day, rest]
  omega

/-- A new day touches no bit but that of the day, and the carry when there are no more days. -/
theorem testBit_nextDay (t : ClockTime) (positive : 1 ≤ i) (below : i < 8) :
    t.nextDay.dayHigh.toNat.testBit i =
      (t.dayHigh.toNat.testBit i || decide (i = 7 ∧ t.day.toNat + 1 = 512)) := by
  have masked : ∀ i < 8, 1 ≤ i → Nat.testBit 0xFE i = true := by decide
  have day : ((t.day.toNat + 1) / 256 % 2).testBit i = false := by
    rw [← Nat.pow_one 2, Nat.testBit_mod_two_pow, decide_eq_false (by omega), Bool.false_and]
  have carry : (if t.day.toNat + 1 = 512 then 2 ^ 7 else 0).testBit i =
      decide (i = 7 ∧ t.day.toNat + 1 = 512) := by
    split
    · next last => rw [Nat.testBit_two_pow, decide_eq_decide, and_iff_left last, eq_comm]
    · next more => rw [Nat.zero_testBit, decide_eq_false fun full => more full.2]
  rw [toNat_dayHigh_nextDay, Nat.testBit_or, Nat.testBit_or, Nat.testBit_and,
    masked i below positive, carry, day, Bool.and_true, Bool.or_false]

/-- The day number after some days, the carry, and the bits that no day touches. -/
theorem nextDay_iterate (t : ClockTime) (days : Nat) :
    (nextDay^[days] t).day.toNat = (t.day.toNat + days) % 512 ∧
      (nextDay^[days] t).dayHigh.toNat.testBit 7 =
        (t.dayHigh.toNat.testBit 7 || decide (512 ≤ t.day.toNat + days)) ∧
      ∀ i, 1 ≤ i → i < 7 →
        (nextDay^[days] t).dayHigh.toNat.testBit i = t.dayHigh.toNat.testBit i := by
  have day := t.toNat_day
  have low := t.dayLow.toNat_lt
  have first : t.day.toNat < 512 := by omega
  induction days with
  | zero =>
    refine ⟨(Nat.mod_eq_of_lt first).symm, ?_, fun _ _ _ => rfl⟩
    rw [Nat.add_zero, decide_eq_false (Nat.not_le.mpr first), Bool.or_false]
    rfl
  | succ days ih =>
    obtain ⟨counted, carried, kept⟩ := ih
    rw [Function.iterate_succ_apply']
    refine ⟨?_, ?_, ?_⟩
    · rw [toNat_day_nextDay, counted]
      omega
    · rw [testBit_nextDay _ (by decide) (by decide), carried, counted, Bool.or_assoc]
      congr 1
      rw [← Bool.decide_or, decide_eq_decide]
      omega
    · intro i positive below
      rw [testBit_nextDay _ positive (by omega), kept i positive below,
        decide_eq_false (fun last => Nat.ne_of_lt below last.1), Bool.or_false]

/-! Seconds. -/

theorem nextSecond_iterate {t : ClockTime} (inside : t.seconds.toNat < 64) (steps : Nat) :
    nextSecond^[steps] t =
      { nextMinute^[Wheel.seconds.carries t.seconds.toNat steps] t with
        seconds := UInt8.ofNat (Wheel.seconds.reading t.seconds.toNat steps) } :=
  Wheel.seconds_turns.advance_iterate inside steps

theorem nextMinute_iterate {t : ClockTime} (inside : t.minutes.toNat < 64) (steps : Nat) :
    nextMinute^[steps] t =
      { nextHour^[Wheel.minutes.carries t.minutes.toNat steps] t with
        minutes := UInt8.ofNat (Wheel.minutes.reading t.minutes.toNat steps) } :=
  Wheel.minutes_turns.advance_iterate inside steps

theorem nextHour_iterate {t : ClockTime} (inside : t.hours.toNat < 32) (steps : Nat) :
    nextHour^[steps] t =
      { nextDay^[Wheel.hours.carries t.hours.toNat steps] t with
        hours := UInt8.ofNat (Wheel.hours.reading t.hours.toNat steps) } :=
  Wheel.hours_turns.advance_iterate inside steps

/-- A second leaves the bit alone that halts the clock. -/
theorem halted_nextSecond (t : ClockTime) : t.nextSecond.halted = t.halted := by
  have day (t : ClockTime) : t.nextDay.halted = t.halted := by
    rw [halted_eq_testBit, halted_eq_testBit, t.testBit_nextDay (by decide) (by decide),
      decide_eq_false nofun, Bool.or_false]
  unfold nextSecond nextMinute nextHour
  dsimp only
  repeat' split
  · exact day _
  all_goals rfl

theorem halted_iterate (t : ClockTime) (steps : Nat) :
    (nextSecond^[steps] t).halted = t.halted := by
  induction steps with
  | zero => rfl
  | succ steps ih => rw [Function.iterate_succ_apply', halted_nextSecond, ih]

/-- The registers after some seconds: each wheel has made the next one advance. -/
theorem nextSecond_wheels {t : ClockTime} (seconds : t.seconds.toNat < 64)
    (minutes : t.minutes.toNat < 64) (hours : t.hours.toNat < 32) (passed : Nat) :
    let now := nextSecond^[passed] t
    let minutesPassed := Wheel.seconds.carries t.seconds.toNat passed
    let hoursPassed := Wheel.minutes.carries t.minutes.toNat minutesPassed
    let daysPassed := Wheel.hours.carries t.hours.toNat hoursPassed
    now.seconds.toNat = Wheel.seconds.reading t.seconds.toNat passed ∧
      now.minutes.toNat = Wheel.minutes.reading t.minutes.toNat minutesPassed ∧
      now.hours.toNat = Wheel.hours.reading t.hours.toNat hoursPassed ∧
      now.day = (nextDay^[daysPassed] t).day ∧
      now.dayHigh = (nextDay^[daysPassed] t).dayHigh := by
  intro now minutesPassed hoursPassed daysPassed
  have bySeconds : now = _ := nextSecond_iterate seconds passed
  have byMinutes : nextMinute^[minutesPassed] t = _ := nextMinute_iterate minutes minutesPassed
  have byHours : nextHour^[hoursPassed] t = _ := nextHour_iterate hours hoursPassed
  rw [bySeconds, byMinutes, byHours]
  refine ⟨?_, ?_, ?_, rfl, rfl⟩
  · exact UInt8.toNat_ofNat_of_lt' (Nat.lt_trans (Wheel.seconds_turns.reading_lt _ _) (by decide))
  · exact UInt8.toNat_ofNat_of_lt' (Nat.lt_trans (Wheel.minutes_turns.reading_lt _ _) (by decide))
  · exact UInt8.toNat_ofNat_of_lt' (Nat.lt_trans (Wheel.hours_turns.reading_lt _ _) (by decide))

/-- A time of day, in seconds since the day that is counted as zero. -/
def time (t : ClockTime) : Nat :=
  ((t.day.toNat * 24 + t.hours.toNat) * 60 + t.minutes.toNat) * 60 + t.seconds.toNat

/-- A time of day counts on as a number of seconds. -/
theorem nextSecond_time {t : ClockTime} (seconds : t.seconds.toNat < 60)
    (minutes : t.minutes.toNat < 60) (hours : t.hours.toNat < 24) (passed : Nat) :
    let now := nextSecond^[passed] t
    let time := t.time + passed
    now.seconds.toNat = time % 60 ∧ now.minutes.toNat = time / 60 % 60 ∧
      now.hours.toNat = time / 3600 % 24 ∧ now.day.toNat = time / 86400 % 512 ∧
      now.dayHigh.toNat.testBit 7 = (t.dayHigh.toNat.testBit 7 || decide (512 ≤ time / 86400)) ∧
      ∀ i, 1 ≤ i → i < 7 → now.dayHigh.toNat.testBit i = t.dayHigh.toNat.testBit i := by
  intro now time
  have total : time = t.time + passed := rfl
  rw [ClockTime.time] at total
  obtain ⟨second, minute, hour, day, high⟩ :=
    nextSecond_wheels (Nat.lt_trans seconds (by decide)) (Nat.lt_trans minutes (by decide))
      (Nat.lt_trans hours (by decide)) passed
  have bySeconds : t.seconds.toNat < Wheel.seconds.range := seconds
  have byMinutes : t.minutes.toNat < Wheel.minutes.range := minutes
  have byHours : t.hours.toNat < Wheel.hours.range := hours
  simp only [Wheel.reading, Wheel.carries, if_pos bySeconds, if_pos byMinutes, if_pos byHours]
    at second minute hour day high
  have days : t.day.toNat + (t.hours.toNat + (t.minutes.toNat +
      (t.seconds.toNat + passed) / Wheel.seconds.range) / Wheel.minutes.range) /
        Wheel.hours.range = time / 86400 := by
    simp only [Wheel.seconds, Wheel.minutes, Wheel.hours]
    omega
  obtain ⟨counted, carried, kept⟩ := t.nextDay_iterate
    ((t.hours.toNat + (t.minutes.toNat + (t.seconds.toNat + passed) / Wheel.seconds.range) /
      Wheel.minutes.range) / Wheel.hours.range)
  rw [← day, days] at counted
  rw [← high, days] at carried
  rw [← high] at kept
  simp only [Wheel.seconds, Wheel.minutes, Wheel.hours] at second minute hour
  refine ⟨?_, ?_, ?_, counted, carried, kept⟩
  · rw [second]
    omega
  · rw [minute]
    omega
  · rw [hour]
    omega

/-- A counter that has been set past its range counts on to its width. Until it gets there, the
counters above it stay as they are. -/
theorem nextSecond_past {t : ClockTime} (seconds : t.seconds.toNat < 64)
    (minutes : t.minutes.toNat < 64) (hours : t.hours.toNat < 32) (passed : Nat) :
    let now := nextSecond^[passed] t
    let minutesPassed := Wheel.seconds.carries t.seconds.toNat passed
    let hoursPassed := Wheel.minutes.carries t.minutes.toNat minutesPassed
    (60 ≤ t.seconds.toNat → t.seconds.toNat + passed ≤ 64 →
      now = { t with seconds := UInt8.ofNat ((t.seconds.toNat + passed) % 64) }) ∧
    (60 ≤ t.minutes.toNat → t.minutes.toNat + minutesPassed ≤ 64 →
      now = { t with
        seconds := now.seconds
        minutes := UInt8.ofNat ((t.minutes.toNat + minutesPassed) % 64) }) ∧
    (24 ≤ t.hours.toNat → t.hours.toNat + hoursPassed ≤ 32 →
      now = { t with
        seconds := now.seconds
        minutes := now.minutes
        hours := UInt8.ofNat ((t.hours.toNat + hoursPassed) % 32) }) := by
  intro now minutesPassed hoursPassed
  have bySeconds : now = _ := nextSecond_iterate seconds passed
  have byMinutes : nextMinute^[minutesPassed] t = _ := nextMinute_iterate minutes minutesPassed
  have byHours : nextHour^[hoursPassed] t = _ := nextHour_iterate hours hoursPassed
  refine ⟨?_, ?_, ?_⟩
  · intro past within
    obtain ⟨reading, none⟩ := Wheel.seconds.reading_past past within
    rw [bySeconds, reading, none]
    rfl
  · intro past within
    obtain ⟨reading, none⟩ := Wheel.minutes.reading_past past within
    rw [bySeconds, byMinutes, reading, none]
    rfl
  · intro past within
    obtain ⟨reading, none⟩ := Wheel.hours.reading_past past within
    rw [bySeconds, byMinutes, byHours, reading, none]
    rfl

end ClockTime

namespace Clock

theorem tick_iterate_halted {c : Clock} (halted : c.live.halted = true) (ticks : Nat) :
    tick^[ticks] c = c := by
  induction ticks with
  | zero => rfl
  | succ ticks ih => rw [Function.iterate_succ_apply', ih, tick, if_pos halted]

theorem tick_iterate {c : Clock} (running : c.live.halted = false)
    (begun : c.subsecond.toNat < 4194304) (ticks : Nat) :
    tick^[ticks] c =
      { c with
        live := ClockTime.nextSecond^[(c.subsecond.toNat + ticks) / 4194304] c.live
        subsecond := UInt32.ofNat ((c.subsecond.toNat + ticks) % 4194304) } := by
  induction ticks with
  | zero =>
    rw [Nat.add_zero, Nat.mod_eq_of_lt begun, Nat.div_eq_of_lt begun, UInt32.ofNat_toNat]
    rfl
  | succ ticks ih =>
    have still := (c.live.halted_iterate ((c.subsecond.toNat + ticks) / 4194304)).trans running
    have next : UInt32.ofNat ((c.subsecond.toNat + ticks) % 4194304) + 1 =
        UInt32.ofNat ((c.subsecond.toNat + ticks) % 4194304 + 1) := (UInt32.ofNat_add ..).symm
    have early : UInt32.ofNat ((c.subsecond.toNat + ticks) % 4194304 + 1) < ticksPerSecond ↔
        (c.subsecond.toNat + ticks) % 4194304 + 1 < 4194304 := by
      have fits : (c.subsecond.toNat + ticks) % 4194304 + 1 < UInt32.size :=
        Nat.lt_of_le_of_lt (Nat.mod_lt _ (by decide)) (by decide)
      rw [UInt32.lt_iff_toNat_lt, UInt32.toNat_ofNat_of_lt' fits]
      rfl
    rw [Function.iterate_succ_apply', ih, tick, still, if_neg Bool.false_ne_true, next,
      ← Nat.add_assoc]
    simp only [early]
    rcases succ_div_mod (c.subsecond.toNat + ticks) (d := 4194304) (by decide) with
      ⟨full, rest, count⟩ | ⟨more, rest, count⟩
    · rw [if_neg (by omega), rest, count, Function.iterate_succ_apply']
      rfl
    · rw [if_pos more, rest, count]

end Clock

namespace Console

theorem tickCartridge_iterate {c : Console} (mbc3 : c.cart.controller = .mbc3)
    (present : c.hw.hasClock = true) (ticks : Nat) :
    tickCartridge^[ticks] c = c.mapClock Clock.tick^[ticks] := by
  induction ticks with
  | zero => rfl
  | succ ticks ih =>
    rw [Function.iterate_succ_apply', ih, Function.iterate_succ', tickCartridge]
    exact if_pos ⟨mbc3, present⟩

/-- The clock of a cartridge after any number of ticks in which nobody writes to it. While it is
halted it stands still. While it runs it counts seconds, and as long as no counter has been set past
its range, the registers show the time. A counter that has been set past its range counts on to its
width, and the ones above it stay. -/
theorem tickCartridge_closed_form {c : Console} (mbc3 : c.cart.controller = .mbc3)
    (present : c.hw.hasClock = true) (n : Nat) :
    let t := c.hw.clock.live
    let begun := c.hw.clock.subsecond.toNat
    let now := (tickCartridge^[n] c).hw.clock.live
    let passed := (begun + n) / 4194304
    let minutesPassed := ClockTime.Wheel.seconds.carries t.seconds.toNat passed
    let hoursPassed := ClockTime.Wheel.minutes.carries t.minutes.toNat minutesPassed
    (t.halted = true → tickCartridge^[n] c = c) ∧
    (t.halted = false → begun < 4194304 →
      tickCartridge^[n] c = c.mapClock (fun clock =>
        { clock with live := now, subsecond := UInt32.ofNat ((begun + n) % 4194304) }) ∧
      (t.seconds.toNat < 60 → t.minutes.toNat < 60 → t.hours.toNat < 24 →
        let time := ((t.day.toNat * 24 + t.hours.toNat) * 60 + t.minutes.toNat) * 60 +
          t.seconds.toNat + passed
        now.seconds.toNat = time % 60 ∧ now.minutes.toNat = time / 60 % 60 ∧
          now.hours.toNat = time / 3600 % 24 ∧ now.day.toNat = time / 86400 % 512 ∧
          now.dayHigh.toNat.testBit 7 =
            (t.dayHigh.toNat.testBit 7 || decide (512 ≤ time / 86400)) ∧
          ∀ i, 1 ≤ i → i < 7 → now.dayHigh.toNat.testBit i = t.dayHigh.toNat.testBit i) ∧
      (t.seconds.toNat < 64 → t.minutes.toNat < 64 → t.hours.toNat < 32 →
        (60 ≤ t.seconds.toNat → t.seconds.toNat + passed ≤ 64 →
          now = { t with seconds := UInt8.ofNat ((t.seconds.toNat + passed) % 64) }) ∧
        (60 ≤ t.minutes.toNat → t.minutes.toNat + minutesPassed ≤ 64 →
          now = { t with
            seconds := now.seconds
            minutes := UInt8.ofNat ((t.minutes.toNat + minutesPassed) % 64) }) ∧
        (24 ≤ t.hours.toNat → t.hours.toNat + hoursPassed ≤ 32 →
          now = { t with
            seconds := now.seconds
            minutes := now.minutes
            hours := UInt8.ofNat ((t.hours.toNat + hoursPassed) % 32) }))) := by
  intro t begun now passed minutesPassed hoursPassed
  have ticked := tickCartridge_iterate mbc3 present n
  constructor
  · intro halted
    rw [ticked, mapClock, Clock.tick_iterate_halted halted]
  · intro running early
    have clock := Clock.tick_iterate running early n
    have later : now = ClockTime.nextSecond^[passed] t := by
      simp only [now, ticked, mapClock, clock]
      rfl
    refine ⟨?_, ?_, ?_⟩
    · rw [ticked, mapClock, mapClock, clock, later]
    · intro seconds minutes hours time
      rw [later]
      exact ClockTime.nextSecond_time seconds minutes hours passed
    · intro seconds minutes hours
      rw [later]
      exact ClockTime.nextSecond_past seconds minutes hours passed

/-- The last second of the last day is followed by day zero and the carry; a halted clock stands
still; and each counter past its range begins again without a carry. -/
theorem tickCartridge_closed_form_midnight :
    let cart : Cartridge := { (default : Cartridge) with controller := .mbc3, hasClock := true }
    let showing (t : ClockTime) : Console :=
      (Console.powerOn cart .color).mapClock fun _ => { live := t, subsecond := 4194303 }
    let after (ticks : Nat) (t : ClockTime) : ClockTime :=
      (tickCartridge^[ticks] (showing t)).hw.clock.live
    let last : ClockTime :=
      { seconds := 59, minutes := 59, hours := 23, dayLow := 0xFF, dayHigh := 0x01 }
    let midnight := after 1 last
    (midnight.seconds.toNat = 0 ∧ midnight.minutes.toNat = 0 ∧ midnight.hours.toNat = 0 ∧
      midnight.day.toNat = 0 ∧ midnight.dayHigh.toNat.testBit 7 = true) ∧
    after 1000000 { last with dayHigh := 0x40 } = { last with dayHigh := 0x40 } ∧
    after 1 { last with seconds := 63 } = { last with seconds := 0 } ∧
    (after 1 { last with minutes := 63 }).minutes = 0 ∧
    (after 1 { last with minutes := 63 }).hours = 23 ∧
    (after 1 { last with hours := 31 }).hours = 0 ∧
    (after 1 { last with hours := 31 }).dayLow = 0xFF := by
  intro cart showing after last midnight
  have form (t : ClockTime) (ticks : Nat) :=
    tickCartridge_closed_form (c := showing t) rfl rfl ticks
  obtain ⟨-, running⟩ := form last 1
  obtain ⟨halted, -⟩ := form { last with dayHigh := 0x40 } 1000000
  obtain ⟨-, seconds⟩ := form { last with seconds := 63 } 1
  obtain ⟨-, minutes⟩ := form { last with minutes := 63 } 1
  obtain ⟨-, hours⟩ := form { last with hours := 31 } 1
  obtain ⟨-, inRange, -⟩ := running (by decide) (by decide)
  obtain ⟨second, minute, hour, day, carry, -⟩ := inRange (by decide) (by decide) (by decide)
  obtain ⟨-, -, pastSeconds⟩ := seconds (by decide) (by decide)
  obtain ⟨-, -, pastMinutes⟩ := minutes (by decide) (by decide)
  obtain ⟨-, -, pastHours⟩ := hours (by decide) (by decide)
  obtain ⟨secondsWrap, -, -⟩ := pastSeconds (by decide) (by decide) (by decide)
  obtain ⟨-, minutesWrap, -⟩ := pastMinutes (by decide) (by decide) (by decide)
  obtain ⟨-, -, hoursWrap⟩ := pastHours (by decide) (by decide) (by decide)
  have minutesShown := minutesWrap (by decide) (by decide)
  have hoursShown := hoursWrap (by decide) (by decide)
  refine ⟨⟨second.trans (by decide), minute.trans (by decide), hour.trans (by decide),
      day.trans (by decide), carry.trans (by decide)⟩,
    congrArg (·.hw.clock.live) (halted (by decide)),
    (secondsWrap (by decide) (by decide)).trans (by decide), ?_, ?_, ?_, ?_⟩
  · exact (congrArg ClockTime.minutes minutesShown).trans (by decide)
  · exact congrArg ClockTime.hours minutesShown
  · exact (congrArg ClockTime.hours hoursShown).trans (by decide)
  · exact congrArg ClockTime.dayLow hoursShown

end Console

end GameBoy
