import GameBoy.Proofs.Requests
import GameBoy.Proofs.TimerPeriod

/-!
What advances and reloads TIMA when clocks, writes to the timer's registers and changes of speed
come in any order. A history lists what has happened to a console, the latest event first. Main
statement: `timer_follows_history`.
-/

namespace GameBoy

namespace Timer

@[simp] theorem signal_increment (t : Timer) : t.increment.signal = t.signal := by
  rw [increment_eq]
  rfl

@[simp] theorem signal_moveTo (t next : Timer) : (t.moveTo next).signal = next.signal := by
  unfold moveTo
  split
  · exact next.signal_increment
  · rfl

/-- The signal reads the counter and TAC, and counting down changes neither. -/
@[simp] theorem signal_countDown (t : Timer) : t.countDown.signal = t.signal := by
  rw [countDown_eq]
  rfl

end Timer

/-- What can happen to the timer of a console. A write to the speed register prepares a color model
for a change of speed, and the stop that changes it clears the counter. -/
inductive TimerEvent
  | clock
  | writeDiv (v : UInt8)
  | writeTima (v : UInt8)
  | writeTma (v : UInt8)
  | writeTac (v : UInt8)
  | writeSpeed (v : UInt8)
  | stop
deriving DecidableEq

namespace TimerEvent

def writesTima : TimerEvent → Bool
  | .writeTima _ => true
  | _ => false

/-- TIMA after an event that does not advance it. -/
def settled (e : TimerEvent) (t : Timer) : UInt8 :=
  match e with
  | .clock => if t.reloadDelay = 1 then t.tma else t.tima
  | .writeTima v => v
  | _ => t.tima

/-- The clocks before a reload after an event in which TIMA does not overflow. -/
def delay (e : TimerEvent) (t : Timer) : Nat :=
  match e with
  | .clock => t.reloadDelay.toNat - 1
  | .writeTima _ => 0
  | _ => t.reloadDelay.toNat

/-- What an event has made of a timer: TIMA has advanced just when the signal has fallen, and a
reload is scheduled when that took it past its last value. -/
structure Moves (e : TimerEvent) (t next : Timer) : Prop where
  tima : next.tima = e.settled t + if t.signal && !next.signal then 1 else 0
  reloadDelay :
    next.reloadDelay.toNat =
      if (t.signal && !next.signal) = true ∧ next.tima = 0 then 4 else e.delay t

variable {e : TimerEvent} {t base next : Timer}

/-- An event moves the timer if it reaches its new state through `Timer.moveTo`. -/
theorem Moves.moveTo (same : base.signal = t.signal) (tima : next.tima = e.settled t)
    (delay : next.reloadDelay.toNat = e.delay t) : e.Moves t (base.moveTo next) := by
  have last : next.tima + 1 = 0 ↔ next.tima = 0xFF := by
    simp only [← UInt8.toNat_inj, UInt8.toNat_add, UInt8.reduceToNat]
    have bound := next.tima.toNat_lt
    omega
  constructor
  · rw [Timer.signal_moveTo, ← same, ← tima, Timer.moveTo, Timer.increment_eq]
    split <;> simp
  · rw [Timer.signal_moveTo, ← same, ← delay, Timer.moveTo, Timer.increment_eq]
    cases base.signal && !next.signal with
    | false => simp
    | true =>
      simp only [last, if_true, true_and]
      split <;> rfl

/-- An event that leaves the signal alone does not advance TIMA. -/
theorem Moves.still (same : next.signal = t.signal) (tima : next.tima = e.settled t)
    (delay : next.reloadDelay.toNat = e.delay t) : e.Moves t next := by
  have steady : (t.signal && !next.signal) = false := by
    rw [same]
    exact Bool.and_not_self _
  constructor
  · simp [steady, tima]
  · simp [steady, delay]

end TimerEvent

namespace Console

/-- The console after an event. -/
def undergo (c : Console) (e : TimerEvent) : Console :=
  match e with
  | .clock => { c with hw := c.hw.clockTimer }
  | .writeDiv v => c.writeIo 0xFF04 v
  | .writeTima v => c.writeIo 0xFF05 v
  | .writeTma v => c.writeIo 0xFF06 v
  | .writeTac v => c.writeIo 0xFF07 v
  | .writeSpeed v => c.writeIo 0xFF4D v
  | .stop => { c with hw := c.hw.switchSpeed }

/-- The console after everything in a history has happened to it. -/
def undergoAll (c : Console) : List TimerEvent → Console
  | [] => c
  | e :: earlier => (c.undergoAll earlier).undergo e

/-- A stop either clears the counter, or leaves the timer alone. -/
theorem timer_switchSpeed (hw : Hardware) :
    hw.switchSpeed.timer = hw.timer.resetDiv ∨ hw.switchSpeed.timer = hw.timer := by
  unfold Hardware.switchSpeed
  split
  · exact .inl rfl
  · exact .inr rfl

theorem timer_writeSpeed (c : Console) (v : UInt8) :
    (c.writeIo 0xFF4D v).hw.timer = c.hw.timer := by
  unfold writeIo
  dsimp only
  cases c.hw.isColor <;> rfl

/-- Every event moves the timer. -/
theorem moves (c : Console) (e : TimerEvent) : e.Moves c.hw.timer (c.undergo e).hw.timer := by
  cases e with
  | clock =>
    have counted := c.hw.timer.toNat_reloadDelay_countDown
    have reloaded : c.hw.timer.countDown.tima = TimerEvent.settled .clock c.hw.timer := by
      simp [Timer.countDown_eq, TimerEvent.settled, Timer.reloads]
    rw [undergo, Hardware.timer_clockTimer]
    exact .moveTo c.hw.timer.signal_countDown reloaded counted
  | writeDiv v => exact .moveTo rfl rfl rfl
  | writeTima v => exact .still rfl rfl rfl
  | writeTma v => exact .still rfl rfl rfl
  | writeTac v => exact .moveTo rfl rfl rfl
  | writeSpeed v =>
    rw [undergo, timer_writeSpeed]
    exact .still rfl rfl rfl
  | stop =>
    rw [undergo]
    rcases timer_switchSpeed c.hw with cleared | untouched
    · rw [cleared]
      exact .moveTo rfl rfl rfl
    · rw [untouched]
      exact .still rfl rfl rfl

/-- Only a clock requests an interrupt. -/
theorem requested_undergo (c : Console) (other : e ≠ .clock) :
    (c.undergo e).hw.requested = c.hw.requested := by
  have elsewhere {address : UInt16} (io : Region.ofAddress address = .io)
      (apart : address ≠ 0xFF0F) (v : UInt8) :
      (c.writeIo address v).hw.requested = c.hw.requested := by
    have kept := c.requested_writeRegion apart v
    rwa [io] at kept
  cases e with
  | clock => contradiction
  | stop => exact requested_switchSpeed c.hw
  | writeDiv v | writeTima v | writeTma v | writeTac v | writeSpeed v =>
    exact elsewhere (by decide) (by decide) v

/-! What a history says. -/

/-- The event that follows a history takes TIMA past its last value. -/
def Overflows (c : Console) (history : List TimerEvent) (e : TimerEvent) : Prop :=
  (c.undergoAll history).hw.timer.signal = true ∧
    (c.undergoAll (e :: history)).hw.timer.signal = false ∧
    (c.undergoAll (e :: history)).hw.timer.tima = 0

/-- TIMA has overflowed in a history, so many clocks have come since, and none of what has happened
since was a write to TIMA or another overflow. -/
def OverflowAgo (c : Console) (history : List TimerEvent) (clocks : Nat) : Prop :=
  ∃ later e earlier, history = later ++ e :: earlier ∧ c.Overflows earlier e ∧
    (∀ after other before, later = after ++ other :: before →
      other.writesTima = false ∧ ¬c.Overflows (before ++ e :: earlier) other) ∧
    later.count .clock = clocks

variable {c : Console} {history : List TimerEvent} {e : TimerEvent} {clocks : Nat}

theorem not_overflowAgo_nil : ¬c.OverflowAgo [] clocks := by
  rintro ⟨later, e, earlier, split, -⟩
  simp at split

/-- After an overflow, it is the latest one. -/
theorem overflowAgo_overflow (overflows : c.Overflows history e) :
    c.OverflowAgo (e :: history) clocks ↔ clocks = 0 := by
  constructor
  · rintro ⟨later, first, earlier, split, -, quiet, count⟩
    cases later with
    | nil => exact count.symm
    | cons other later =>
      injection split with same rest
      subst same rest
      exact absurd overflows (quiet [] e later rfl).2
  · rintro rfl
    refine ⟨[], e, history, rfl, overflows, ?_, rfl⟩
    intro after other before split
    simp at split

/-- Any other event only takes the latest overflow further away, or is a write to TIMA. -/
theorem overflowAgo_cons (steady : ¬c.Overflows history e) :
    c.OverflowAgo (e :: history) clocks ↔
      e.writesTima = false ∧ ∃ before, c.OverflowAgo history before ∧
        clocks = before + if e = .clock then 1 else 0 := by
  constructor
  · rintro ⟨later, first, earlier, split, overflows, quiet, count⟩
    cases later with
    | nil =>
      injection split with same rest
      subst same rest
      exact absurd overflows steady
    | cons other later =>
      injection split with same rest
      subst same rest
      refine ⟨(quiet [] e later rfl).1, later.count .clock, ?_, ?_⟩
      · refine ⟨later, first, earlier, rfl, overflows, ?_, rfl⟩
        intro after other before split
        exact quiet (e :: after) other before (congrArg (e :: ·) split)
      · simp [← count, List.count_cons]
  · rintro ⟨elsewhere, before, ⟨later, first, earlier, rfl, overflows, quiet, rfl⟩, rfl⟩
    refine ⟨e :: later, first, earlier, rfl, overflows, ?_, ?_⟩
    · intro after other before split
      cases after with
      | nil =>
        injection split with same rest
        subst same rest
        exact ⟨elsewhere, steady⟩
      | cons _ after =>
        injection split with _ rest
        exact quiet after other before rest
    · simp [List.count_cons]

theorem overflows_iff :
    c.Overflows history e ↔
      ((c.undergoAll history).hw.timer.signal &&
          !(c.undergoAll (e :: history)).hw.timer.signal) = true ∧
        (c.undergoAll (e :: history)).hw.timer.tima = 0 := by
  simp [Overflows, and_assoc]

/-- The clocks left before a reload are the ones that the latest overflow still waits for. -/
theorem reloadDelay_undergoAll (idle : c.hw.timer.reloadDelay = 0) (history : List TimerEvent) :
    (c.undergoAll history).hw.timer.reloadDelay.toNat ≤ 4 ∧
      ∀ clocks < 4, (c.undergoAll history).hw.timer.reloadDelay.toNat = 4 - clocks ↔
        c.OverflowAgo history clocks := by
  induction history with
  | nil =>
    refine ⟨by simp [undergoAll, idle], ?_⟩
    intro clocks early
    simp only [undergoAll, idle, not_overflowAgo_nil, iff_false]
    exact Nat.ne_of_lt (Nat.sub_pos_of_lt early)
  | cons e history ih =>
    obtain ⟨bound, ago⟩ := ih
    have delay := ((c.undergoAll history).moves e).reloadDelay
    rw [show (c.undergoAll history).undergo e = c.undergoAll (e :: history) from rfl] at delay
    by_cases overflows : c.Overflows history e
    · rw [if_pos (overflows_iff.mp overflows)] at delay
      refine ⟨Nat.le_of_eq delay, ?_⟩
      intro clocks early
      rw [delay, overflowAgo_overflow overflows]
      omega
    · rw [if_neg fun falls => overflows (overflows_iff.mpr falls)] at delay
      simp only [delay, overflowAgo_cons overflows]
      cases e with
      | writeTima v =>
        refine ⟨Nat.zero_le 4, ?_⟩
        intro clocks early
        simp only [TimerEvent.writesTima, TimerEvent.delay, Bool.true_eq_false, false_and,
          iff_false]
        exact Nat.ne_of_lt (Nat.sub_pos_of_lt early)
      | clock =>
        refine ⟨Nat.le_trans (Nat.sub_le ..) bound, ?_⟩
        intro clocks early
        simp only [TimerEvent.writesTima, TimerEvent.delay, true_and, if_true]
        constructor
        · intro counted
          -- An overflow is never further ahead than a reload takes.
          obtain ⟨before, rfl⟩ : ∃ before, clocks = before + 1 :=
            Nat.exists_eq_succ_of_ne_zero (by omega)
          exact ⟨before, (ago before (by omega)).mp (by omega), rfl⟩
        · rintro ⟨before, overflowed, rfl⟩
          have waits := (ago before (by omega)).mpr overflowed
          omega
      | writeDiv v | writeTma v | writeTac v | writeSpeed v | stop =>
        refine ⟨bound, ?_⟩
        intro clocks early
        simpa [TimerEvent.writesTima, TimerEvent.delay] using ago clocks early

/-- The requests after a clock, which adds one if it reloads TIMA. -/
theorem requested_clock (c : Console) :
    (c.undergo .clock).hw.requested =
      if c.hw.timer.reloadDelay = 1 then c.hw.requested ||| Interrupt.timer.mask
      else c.hw.requested := by
  have due : c.hw.timer.reloads = true ↔ c.hw.timer.reloadDelay = 1 := decide_eq_true_iff
  simp only [undergo, Hardware.clockTimer, due]
  split
  · exact Hardware.requested_setRequested _ _
  · rfl

/-- A reload is due just when an overflow is three clocks ago. -/
theorem reloadDelay_one_iff (idle : c.hw.timer.reloadDelay = 0) :
    (c.undergoAll history).hw.timer.reloadDelay = 1 ↔ c.OverflowAgo history 3 := by
  rw [← (reloadDelay_undergoAll idle history).2 3 (by decide), ← UInt8.toNat_inj]
  rfl

/-- What an event makes of TIMA and of the requests after any history. TIMA advances just when the
signal falls, which no write to TIMA or TMA brings about. If no reload was scheduled at first, a
clock reloads TIMA and requests the interrupt just when it is the fourth after the latest overflow
and TIMA has not been written since; TIMA then goes on from TMA if the same clock advances it.
Nothing else requests the interrupt. -/
theorem timer_follows_history (c : Console) (history : List TimerEvent) (e : TimerEvent) :
    let before := c.undergoAll history
    let after := c.undergoAll (e :: history)
    let t := before.hw.timer
    let next := after.hw.timer
    let advance : UInt8 := if t.signal = true ∧ next.signal = false then 1 else 0
    (∀ t : Timer,
      t.signal = (t.tac.toNat.testBit 2 && t.div.toNat.testBit (Timer.selectedBit t.tac))) ∧
    (match e with
      | .clock => next.tima = (if t.reloadDelay = 1 then t.tma else t.tima) + advance
      | .writeTima v => next.tima = v
      | .writeTma _ => next.tima = t.tima
      | _ => next.tima = t.tima + advance) ∧
    (e ≠ .clock → after.hw.requested = before.hw.requested) ∧
    (c.hw.timer.reloadDelay = 0 → e = .clock →
      (c.OverflowAgo history 3 →
        next.tima = t.tma + advance ∧
          after.hw.requested = before.hw.requested ||| Interrupt.timer.mask) ∧
      (¬c.OverflowAgo history 3 →
        next.tima = t.tima + advance ∧ after.hw.requested = before.hw.requested)) := by
  intro before after t next advance
  have tima : next.tima = e.settled t + advance := by
    have moved := (before.moves e).tima
    simp only [Bool.and_eq_true, Bool.not_eq_true'] at moved
    exact moved
  refine ⟨Timer.signal_eq_testBit, ?_, before.requested_undergo, ?_⟩
  · cases e with
    | writeTima v | writeTma v => rfl
    | clock | writeDiv v | writeTac v | writeSpeed v | stop => exact tima
  · rintro idle rfl
    have requested := before.requested_clock
    have due : t.reloadDelay = 1 ↔ c.OverflowAgo history 3 := reloadDelay_one_iff idle
    constructor
    · intro overflowed
      exact ⟨tima.trans (congrArg (· + advance) (if_pos (due.mpr overflowed))),
        requested.trans (if_pos (due.mpr overflowed))⟩
    · intro otherwise
      exact ⟨tima.trans (congrArg (· + advance) (if_neg (otherwise <| due.mp ·))),
        requested.trans (if_neg (otherwise <| due.mp ·))⟩

/-- A write to DIV makes TIMA overflow early. The fourth clock after it brings the reload and the
request, unless TIMA is written before. -/
theorem timer_follows_history_glitch :
    let c : Console :=
      { hw := { (default : Hardware) with
          timer := { div := 8, tima := 0xFF, tma := 0xAB, tac := 5 } }
        cart := default }
    let waiting : List TimerEvent := [.clock, .clock, .clock, .writeDiv 1]
    let written : List TimerEvent := [.clock, .writeTima 7, .clock, .clock, .writeDiv 1]
    (c.undergoAll [.writeDiv 1]).hw.timer.tima = 0 ∧
      (c.undergoAll (.clock :: waiting)).hw.timer.tima = 0xAB ∧
      (c.undergoAll (.clock :: waiting)).hw.requested =
        (c.undergoAll waiting).hw.requested ||| Interrupt.timer.mask ∧
      (c.undergoAll (.clock :: written)).hw.timer.tima = 7 ∧
      (c.undergoAll (.clock :: written)).hw.requested = (c.undergoAll written).hw.requested := by
  intro c waiting written
  obtain ⟨-, early, -⟩ := timer_follows_history c [] (.writeDiv 1)
  obtain ⟨-, -, -, fourth⟩ := timer_follows_history c waiting .clock
  obtain ⟨-, -, -, late⟩ := timer_follows_history c written .clock
  have due : c.OverflowAgo waiting 3 := (reloadDelay_one_iff rfl).mp (by decide)
  have cancelled : ¬c.OverflowAgo written 3 := mt (reloadDelay_one_iff rfl).mpr (by decide)
  obtain ⟨tima, requested⟩ := (fourth rfl rfl).1 due
  obtain ⟨kept, quiet⟩ := (late rfl rfl).2 cancelled
  refine ⟨early.trans ?_, tima.trans ?_, requested, kept.trans ?_, quiet⟩
  · decide
  · decide
  · decide

end Console

end GameBoy
