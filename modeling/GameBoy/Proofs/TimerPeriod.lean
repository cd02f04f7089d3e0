import Mathlib.Data.Nat.Count
import Mathlib.Logic.Function.Iterate
import GameBoy.Interrupt

/-!
What the timer counts when it is left alone. Main statements: `period_selected` says which bit of
the counter is selected and how often it falls, and `clockTimer_closed_form` gives the timer and its
requests after any number of clocks in closed form.
-/

namespace GameBoy

/-- One more either completes a multiple of the divisor, or leaves one more as the remainder. -/
theorem succ_div_mod (n : Nat) {d : Nat} (positive : 0 < d) :
    (n % d + 1 = d ∧ (n + 1) % d = 0 ∧ (n + 1) / d = n / d + 1) ∨
      (n % d + 1 < d ∧ (n + 1) % d = n % d + 1 ∧ (n + 1) / d = n / d) := by
  have split := Nat.div_add_mod n d
  have below := Nat.mod_lt n positive
  rcases Nat.eq_or_lt_of_le (show n % d + 1 ≤ d from below) with full | room
  · have unique := (Nat.div_mod_unique positive (a := n + 1) (c := 0) (d := n / d + 1)).mpr
      ⟨by rw [Nat.mul_add]; omega, positive⟩
    exact .inl ⟨full, unique.2, unique.1⟩
  · have unique := (Nat.div_mod_unique positive (a := n + 1) (c := n % d + 1) (d := n / d)).mpr
      ⟨by omega, room⟩
    exact .inr ⟨room, unique.2, unique.1⟩

/-- Half of a power of two or more is left over just when the bit below it is set. -/
theorem two_pow_le_mod_iff (n bit : Nat) : 2 ^ bit ≤ n % 2 ^ (bit + 1) ↔ n.testBit bit = true := by
  have rest := Nat.mod_lt n (Nat.two_pow_pos bit)
  rw [Nat.mod_pow_succ, Nat.testBit_eq_decide_div_mod_eq, decide_eq_true_iff]
  rcases Nat.mod_two_eq_zero_or_one (n / 2 ^ bit) with even | odd
  · simp [even, Nat.not_le.mpr rest]
  · simp [odd]

/-- A bit goes from one to zero when everything up to it starts again. -/
theorem testBit_falls_iff (n bit : Nat) :
    n.testBit bit = true ∧ (n + 1).testBit bit = false ↔ (n + 1) % 2 ^ (bit + 1) = 0 := by
  rw [← Bool.not_eq_true, ← two_pow_le_mod_iff, ← two_pow_le_mod_iff]
  have double : 2 ^ (bit + 1) = 2 ^ bit * 2 := Nat.pow_succ ..
  have positive := Nat.two_pow_pos bit
  obtain ⟨full, next, -⟩ | ⟨more, next, -⟩ := succ_div_mod n (Nat.two_pow_pos (bit + 1)) <;> omega

namespace Timer

/-! The bit of the counter that TAC selects. -/

/-- The bit of the counter that drives TIMA. -/
def selectedBit (tac : UInt8) : Nat :=
  if tac % 4 = 0 then 9 else if tac % 4 = 1 then 3 else if tac % 4 = 2 then 5 else 7

theorem selectedBit_bounds (tac : UInt8) : 3 ≤ selectedBit tac ∧ selectedBit tac < 16 := by
  unfold selectedBit
  split
  · decide
  split
  · decide
  split <;> decide

theorem toNat_period (tac : UInt8) : (period tac).toNat = 2 ^ (selectedBit tac + 1) := by
  unfold period selectedBit
  split
  · rfl
  split
  · rfl
  split
  · rfl
  · rfl

/-- By its low two bits, TAC selects a bit of the counter that goes from one to zero once in 1024,
16, 64 or 256 clocks. -/
theorem period_selected (tac : UInt8) :
    (period tac).toNat = (match tac.toNat % 4 with | 0 => 1024 | 1 => 16 | 2 => 64 | _ => 256) ∧
      ∀ div : Nat,
        div.testBit (selectedBit tac) = true ∧ (div + 1).testBit (selectedBit tac) = false ↔
          (div + 1) % (period tac).toNat = 0 := by
  constructor
  · have choice : tac.toNat % 4 < 4 := Nat.mod_lt _ (by decide)
    simp only [period, ← UInt8.toNat_inj, UInt8.toNat_mod, UInt8.reduceToNat]
    generalize tac.toNat % 4 = low at choice ⊢
    match low, choice with
    | 0, _ | 1, _ | 2, _ | 3, _ => rfl
  · intro div
    rw [toNat_period]
    exact testBit_falls_iff div _

theorem enabled_eq_testBit (t : Timer) : t.enabled = t.tac.toNat.testBit 2 := by
  simp [enabled, Nat.testBit_eq_decide_div_mod_eq, ← UInt8.toNat_inj]

/-- The signal is the selected bit of the counter where the timer is enabled. -/
theorem signal_eq_testBit (t : Timer) :
    t.signal = (t.tac.toNat.testBit 2 && t.div.toNat.testBit (selectedBit t.tac)) := by
  have half : (period t.tac / 2).toNat = 2 ^ selectedBit t.tac := by
    simp [toNat_period, Nat.pow_succ]
  have high : period t.tac / 2 ≤ t.div % period t.tac ↔
      t.div.toNat.testBit (selectedBit t.tac) = true := by
    rw [UInt16.le_iff_toNat_le, half, UInt16.toNat_mod, toNat_period]
    exact two_pow_le_mod_iff ..
  simp [signal, enabled_eq_testBit, high]

/-! What is counted. -/

/-- The clocks between two advances of TIMA. -/
def cycle (t : Timer) : Nat := (period t.tac).toNat

theorem cycle_congr {t u : Timer} (same : u.tac = t.tac) : u.cycle = t.cycle :=
  congrArg (fun tac => (period tac).toNat) same

/-- A cycle divides the range of the counter, and it is longer than a reload takes. -/
theorem cycle_bounds (t : Timer) : 16 ≤ t.cycle ∧ t.cycle ∣ 65536 := by
  obtain ⟨low, high⟩ := selectedBit_bounds t.tac
  rw [cycle, toNat_period]
  exact ⟨Nat.pow_le_pow_right Nat.two_pos (Nat.succ_le_succ low), Nat.pow_dvd_pow 2 high⟩

/-- How often TIMA advances in some clocks. -/
def advances (t : Timer) (clocks : Nat) : Nat :=
  (t.div.toNat + clocks) / t.cycle - t.div.toNat / t.cycle

/-- What TIMA would be after some clocks if it were wide enough. -/
def total (t : Timer) (clocks : Nat) : Nat := t.tima.toNat + t.advances clocks

/-- How often TIMA advances from one reload to the next overflow. -/
def modulus (t : Timer) : Nat := 256 - t.tma.toNat

/-- How often TIMA has advanced since its last overflow. -/
def sinceOverflow (t : Timer) (clocks : Nat) : Nat := (t.total clocks - 256) % t.modulus

/-- The clocks since the selected bit has fallen. -/
def phase (t : Timer) (clocks : Nat) : Nat := (t.div.toNat + clocks) % t.cycle

/-- TIMA has advanced past its last value, and it was an overflow that has advanced it last. -/
def Wrapped (t : Timer) (clocks : Nat) : Prop := 256 ≤ t.total clocks ∧ t.sinceOverflow clocks = 0

instance : Decidable (Wrapped t clocks) := inferInstanceAs (Decidable (_ ∧ _))

/-- The value of TIMA after some clocks. -/
def timaAfter (t : Timer) (clocks : Nat) : Nat :=
  if t.total clocks < 256 then t.total clocks
  else if t.sinceOverflow clocks = 0 ∧ t.phase clocks < 4 then 0
  else t.tma.toNat + t.sinceOverflow clocks

/-- The clocks before a reload of TIMA after some clocks. -/
def delayAfter (t : Timer) (clocks : Nat) : Nat :=
  if t.Wrapped clocks ∧ t.phase clocks < 4 then 4 - t.phase clocks else 0

/-- The signal falls when the counter moves on. -/
def falls (t : Timer) : Bool := t.signal && !{ t with div := t.div + 1 }.signal

/-- The next clock makes TIMA overflow. -/
def overflows (t : Timer) : Bool := t.countDown.falls && t.countDown.tima = 0xFF

/-- How often TIMA overflows in some clocks. -/
def overflowCount (t : Timer) (clocks : Nat) : Nat :=
  Nat.count (fun passed => (clock^[passed] t).overflows = true) clocks

/-! One clock. -/

theorem countDown_eq (t : Timer) :
    t.countDown =
      { t with
        tima := if t.reloads then t.tma else t.tima
        reloadDelay := if t.reloadDelay = 0 then 0 else t.reloadDelay - 1 } := by
  unfold countDown
  by_cases due : t.reloads = true
  · have last : t.reloadDelay = 1 := of_decide_eq_true due
    rw [if_pos due, if_pos due, last]
    rfl
  · rw [if_neg due, if_neg due]
    split
    · next idle =>
      rw [← idle]
    · rfl

theorem increment_eq (t : Timer) :
    t.increment =
      { t with
        tima := t.tima + 1
        reloadDelay := if t.tima = 0xFF then reloadTime else t.reloadDelay } := by
  unfold increment
  split
  · next last =>
    rw [last]
    rfl
  · rfl

theorem clock_eq (t : Timer) :
    t.clock =
      { t with
        div := t.div + 1
        tima := if t.countDown.falls then t.countDown.tima + 1 else t.countDown.tima
        reloadDelay := if t.overflows then reloadTime else t.countDown.reloadDelay } := by
  have falling : t.clock =
      if t.countDown.falls then { t.countDown with div := t.countDown.div + 1 }.increment
      else { t.countDown with div := t.countDown.div + 1 } := rfl
  rw [falling, increment_eq, overflows]
  cases t.countDown.falls with
  | false =>
    rw [countDown_eq]
    rfl
  | true =>
    rw [countDown_eq]
    simp

/-- The counter moves on with every clock. -/
theorem toNat_div_clock {t : Timer} (counted : t.div.toNat = (begun + n) % 65536) :
    t.clock.div.toNat = (begun + (n + 1)) % 65536 := by
  rw [clock_eq, UInt16.toNat_add, counted]
  exact (Nat.mod_add_mod _ _ _).trans (congrArg (· % 65536) (Nat.add_assoc begun n 1))

theorem toNat_reloadDelay_countDown (t : Timer) :
    t.countDown.reloadDelay.toNat = t.reloadDelay.toNat - 1 := by
  rw [countDown_eq]
  dsimp only
  split
  · next idle =>
    rw [idle]
    rfl
  · next waiting =>
    have positive : t.reloadDelay.toNat ≠ 0 := fun zero => waiting (UInt8.toNat.inj zero)
    rw [UInt8.toNat_sub_of_le _ _ (Nat.one_le_iff_ne_zero.mpr positive)]
    rfl

/-- The signal of an enabled timer falls at the multiples of a cycle. -/
theorem falls_iff (t : Timer) :
    t.falls = true ↔ t.enabled = true ∧ (t.div.toNat + 1) % t.cycle = 0 := by
  have moved : (t.div + 1).toNat.testBit (selectedBit t.tac) =
      (t.div.toNat + 1).testBit (selectedBit t.tac) := by
    rw [UInt16.toNat_add]
    refine (Nat.testBit_mod_two_pow _ 16 _).trans ?_
    rw [decide_eq_true (selectedBit_bounds t.tac).2, Bool.true_and]
    rfl
  rw [cycle, ← (period_selected t.tac).2, falls, signal_eq_testBit, signal_eq_testBit,
    enabled_eq_testBit]
  dsimp only
  rw [moved]
  cases t.tac.toNat.testBit 2 <;> simp

/-! The closed form, one clock at a time. -/

theorem total_zero (t : Timer) : t.total 0 = t.tima.toNat := by simp [total, advances]

/-- A clock either completes a cycle, and TIMA advances, or the cycle goes on. -/
theorem phase_succ (t : Timer) (n : Nat) :
    (t.phase n + 1 = t.cycle ∧ t.phase (n + 1) = 0 ∧ t.total (n + 1) = t.total n + 1) ∨
      (t.phase n + 1 < t.cycle ∧ t.phase (n + 1) = t.phase n + 1 ∧
        t.total (n + 1) = t.total n) := by
  have positive : 0 < t.cycle := Nat.lt_of_lt_of_le (by decide) t.cycle_bounds.1
  have begun : t.div.toNat / t.cycle ≤ (t.div.toNat + n) / t.cycle :=
    Nat.div_le_div_right (Nat.le_add_right _ n)
  simp only [phase, total, advances, ← Nat.add_assoc]
  rcases succ_div_mod (t.div.toNat + n) positive with ⟨full, rest, count⟩ | ⟨more, rest, count⟩
  · exact .inl ⟨full, rest, by omega⟩
  · exact .inr ⟨more, rest, by omega⟩

/-- An advance past the last value overflows if as many have gone by as a reload leaves. -/
theorem sinceOverflow_succ (t : Timer) {n : Nat} (past : 256 ≤ t.total n)
    (advanced : t.total (n + 1) = t.total n + 1) :
    (t.sinceOverflow n + 1 = t.modulus ∧ t.sinceOverflow (n + 1) = 0 ∧
        (t.total (n + 1) - 256) / t.modulus = (t.total n - 256) / t.modulus + 1) ∨
      (t.sinceOverflow n + 1 < t.modulus ∧ t.sinceOverflow (n + 1) = t.sinceOverflow n + 1 ∧
        (t.total (n + 1) - 256) / t.modulus = (t.total n - 256) / t.modulus) := by
  have positive : 0 < t.modulus := Nat.sub_pos_of_lt t.tma.toNat_lt
  have next : t.total (n + 1) - 256 = t.total n - 256 + 1 := by omega
  simp only [sinceOverflow, next]
  exact succ_div_mod _ positive

theorem wrapped_congr (t : Timer) {m n : Nat} (same : t.total m = t.total n) :
    t.Wrapped m ↔ t.Wrapped n := by
  rw [Wrapped, Wrapped, sinceOverflow, sinceOverflow, same]

/-- The first advance past the last value is an overflow. -/
theorem sinceOverflow_first (t : Timer) (first : t.total n = 256) : t.sinceOverflow n = 0 := by
  rw [sinceOverflow, first, Nat.sub_self, Nat.zero_mod]

theorem modulus_add (t : Timer) : t.modulus + t.tma.toNat = 256 :=
  Nat.sub_add_cancel (Nat.le_of_lt t.tma.toNat_lt)

/-- Four clocks after an overflow the reload has come. -/
theorem timaAfter_late (t : Timer) {n : Nat} (late : 4 ≤ t.phase n) :
    t.timaAfter n =
      if t.total n < 256 then t.total n else t.tma.toNat + t.sinceOverflow n := by
  have wraps : ¬(t.sinceOverflow n = 0 ∧ t.phase n < 4) := fun due =>
    absurd due.2 (Nat.not_lt.mpr late)
  rw [timaAfter, if_neg wraps]

/-- Between two advances, TIMA is reloaded if it has overflowed. -/
theorem timaAfter_between (t : Timer) {n : Nat} (more : t.phase (n + 1) = t.phase n + 1)
    (same : t.total (n + 1) = t.total n) :
    t.timaAfter (n + 1) = if t.Wrapped n ∧ t.phase n = 3 then t.tma.toNat else t.timaAfter n := by
  have since : t.sinceOverflow (n + 1) = t.sinceOverflow n := by rw [sinceOverflow, same]; rfl
  simp only [timaAfter, Wrapped, same, since, more]
  grind

/-- No reload is due when TIMA advances; it goes on from zero after its last value. -/
theorem timaAfter_advance (t : Timer) {n : Nat} (late : 4 ≤ t.phase n)
    (complete : t.phase (n + 1) = 0) (next : t.total (n + 1) = t.total n + 1) :
    t.timaAfter (n + 1) = (t.timaAfter n + 1) % 256 := by
  have reload := t.modulus_add
  rw [t.timaAfter_late late, timaAfter, complete]
  by_cases past : 256 ≤ t.total n
  · have still : ¬t.total (n + 1) < 256 := by omega
    rw [if_neg still, if_neg (Nat.not_lt.mpr past)]
    obtain ⟨full, wraps, -⟩ | ⟨room, more, -⟩ := t.sinceOverflow_succ past next
    · rw [if_pos ⟨wraps, by decide⟩]
      omega
    · rw [if_neg (by omega), more]
      omega
  · rw [if_pos (Nat.lt_of_not_le past)]
    by_cases last : t.total n = 255
    · have wraps := t.sinceOverflow_first (next.trans (congrArg (· + 1) last))
      have still : ¬t.total (n + 1) < 256 := by omega
      rw [if_neg still, if_pos ⟨wraps, by decide⟩, last]
    · have below : t.total (n + 1) < 256 := by omega
      rw [if_pos below]
      omega

/-- TIMA has its last value just before it overflows. -/
theorem timaAfter_last_iff (t : Timer) {n : Nat} (late : 4 ≤ t.phase n)
    (next : t.total (n + 1) = t.total n + 1) :
    t.timaAfter n = 255 ↔ t.Wrapped (n + 1) := by
  have reload := t.modulus_add
  rw [t.timaAfter_late late, Wrapped]
  by_cases past : 256 ≤ t.total n
  · rw [if_neg (by omega)]
    obtain ⟨full, wraps, -⟩ | ⟨room, more, -⟩ := t.sinceOverflow_succ past next
    · rw [wraps]
      omega
    · rw [more]
      omega
  · rw [if_pos (Nat.lt_of_not_le past)]
    by_cases last : t.total n = 255
    · have wraps := t.sinceOverflow_first (next.trans (congrArg (· + 1) last))
      rw [wraps]
      omega
    · omega

/-- The timer is what the closed form says after some clocks. -/
structure Counts (start : Timer) (n : Nat) (t : Timer) : Prop where
  div : t.div.toNat = (start.div.toNat + n) % 65536
  tma : t.tma = start.tma
  tac : t.tac = start.tac
  tima : t.tima.toNat = start.timaAfter n
  reloadDelay : t.reloadDelay.toNat = start.delayAfter n

namespace Counts

variable {start t : Timer} {n : Nat}

theorem initial (idle : start.reloadDelay = 0) : start.Counts 0 start where
  div := (Nat.mod_eq_of_lt start.div.toNat_lt).symm
  tma := rfl
  tac := rfl
  tima := by rw [timaAfter, total_zero, if_pos start.tima.toNat_lt]
  reloadDelay := by
    have below := start.tima.toNat_lt
    have unwrapped : ¬start.Wrapped 0 := by
      rw [Wrapped, total_zero]
      omega
    rw [delayAfter, if_neg (unwrapped ·.1), idle]
    rfl

/-- The signal falls when a cycle is complete. -/
theorem falls_iff (counts : start.Counts n t) (enabled : start.enabled = true) :
    t.countDown.falls = true ↔ start.phase (n + 1) = 0 := by
  have cycle : t.countDown.cycle = start.cycle := by
    rw [countDown_eq, ← cycle_congr counts.tac]
    rfl
  have same : t.countDown.enabled = start.enabled := by
    rw [countDown_eq, Timer.enabled, Timer.enabled, ← counts.tac]
  have div : t.countDown.div = t.div := by rw [countDown_eq]
  rw [Timer.falls_iff, same, cycle, div, counts.div, phase, Nat.add_mod,
    Nat.mod_mod_of_dvd _ start.cycle_bounds.2, ← Nat.add_mod, Nat.add_assoc]
  exact and_iff_right enabled

/-- A reload is due three clocks after an overflow. -/
theorem reloads_iff (counts : start.Counts n t) :
    t.reloads = true ↔ start.Wrapped n ∧ start.phase n = 3 := by
  have delay : t.reloads = true ↔ start.delayAfter n = 1 := by
    rw [reloads, decide_eq_true_eq, ← counts.reloadDelay, ← UInt8.toNat_inj]
    rfl
  rw [delay, delayAfter]
  by_cases wrapped : start.Wrapped n
  · simp only [wrapped, true_and]
    split <;> omega
  · simp [wrapped]

theorem tima_countDown (counts : start.Counts n t) :
    t.countDown.tima.toNat =
      if start.Wrapped n ∧ start.phase n = 3 then start.tma.toNat else start.timaAfter n := by
  rw [countDown_eq, ← counts.tma, ← counts.tima]
  simp only [counts.reloads_iff]
  split <;> rfl

/-- An advance overflows if it is past the last value, and if it completes what a reload leaves. -/
theorem overflows_iff (counts : start.Counts n t) (enabled : start.enabled = true) :
    t.overflows = true ↔ start.phase (n + 1) = 0 ∧ start.Wrapped (n + 1) := by
  have last : t.countDown.tima = 0xFF ↔ t.countDown.tima.toNat = 255 := by
    rw [← UInt8.toNat_inj]
    rfl
  rw [overflows, Bool.and_eq_true, decide_eq_true_eq, counts.falls_iff enabled, last]
  refine and_congr_right fun complete => ?_
  obtain ⟨full, -, next⟩ | ⟨-, more, -⟩ := start.phase_succ n
  · have long := start.cycle_bounds.1
    rw [counts.tima_countDown, if_neg (by omega)]
    exact start.timaAfter_last_iff (by omega) next
  · omega

theorem clock (counts : start.Counts n t) (enabled : start.enabled = true) :
    start.Counts (n + 1) t.clock where
  div := toNat_div_clock counts.div
  tma := by
    rw [clock_eq]
    exact counts.tma
  tac := by
    rw [clock_eq]
    exact counts.tac
  tima := by
    have falls := counts.falls_iff enabled
    have tima := counts.tima_countDown
    rw [clock_eq]
    dsimp only
    obtain ⟨full, complete, next⟩ | ⟨-, more, next⟩ := start.phase_succ n
    · have long := start.cycle_bounds.1
      rw [if_neg (by omega)] at tima
      rw [if_pos (falls.mpr complete), UInt8.toNat_add, tima]
      exact (start.timaAfter_advance (by omega) complete next).symm
    · rw [if_neg (by rw [falls]; omega), tima]
      exact (start.timaAfter_between more next).symm
  reloadDelay := by
    have overflows := counts.overflows_iff enabled
    have delay := t.toNat_reloadDelay_countDown
    rw [counts.reloadDelay] at delay
    rw [clock_eq]
    dsimp only
    rw [delayAfter]
    obtain ⟨full, complete, next⟩ | ⟨-, more, next⟩ := start.phase_succ n
    · have long := start.cycle_bounds.1
      rw [delayAfter, if_neg (by omega)] at delay
      rw [complete]
      by_cases wrapped : start.Wrapped (n + 1)
      · rw [if_pos (overflows.mpr ⟨complete, wrapped⟩), if_pos ⟨wrapped, by decide⟩]
        rfl
      · rw [if_neg fun wraps => wrapped (overflows.mp wraps).2, if_neg (wrapped ·.1), delay]
    · have same := start.wrapped_congr next
      rw [if_neg (by rw [overflows]; omega), delay, delayAfter, more]
      by_cases wrapped : start.Wrapped n
      · simp only [same, wrapped, true_and]
        split <;> split <;> omega
      · simp [same, wrapped]

end Counts

/-! Any number of clocks. -/

theorem counts (t : Timer) (enabled : t.enabled = true) (idle : t.reloadDelay = 0) (n : Nat) :
    t.Counts n (clock^[n] t) := by
  induction n with
  | zero => exact .initial idle
  | succ n ih =>
    rw [Function.iterate_succ_apply']
    exact ih.clock enabled

theorem overflowCount_eq (t : Timer) (enabled : t.enabled = true) (idle : t.reloadDelay = 0)
    (n : Nat) :
    t.overflowCount n = if t.total n < 256 then 0 else 1 + (t.total n - 256) / t.modulus := by
  induction n with
  | zero => rw [total_zero, if_pos t.tima.toNat_lt, overflowCount, Nat.count_zero]
  | succ n ih =>
    have overflows := (t.counts enabled idle n).overflows_iff enabled
    rw [overflowCount, Nat.count_succ, ← overflowCount, ih]
    simp only [overflows]
    obtain ⟨-, complete, next⟩ | ⟨-, more, next⟩ := t.phase_succ n
    · by_cases past : 256 ≤ t.total n
      · have still : ¬t.total (n + 1) < 256 := by omega
        rw [if_neg still, if_neg (Nat.not_lt.mpr past)]
        obtain ⟨-, wraps, count⟩ | ⟨-, more, count⟩ := t.sinceOverflow_succ past next
        · have wrapped : t.Wrapped (n + 1) := ⟨by omega, wraps⟩
          rw [if_pos ⟨complete, wrapped⟩, count, Nat.add_assoc]
        · have unwrapped : ¬t.Wrapped (n + 1) := fun wrapped => by
            have wraps := wrapped.2
            omega
          rw [if_neg (unwrapped ·.2), count, Nat.add_zero]
      · rw [if_pos (Nat.lt_of_not_le past)]
        by_cases last : t.total n = 255
        · have first : t.total (n + 1) = 256 := by omega
          have wrapped : t.Wrapped (n + 1) := ⟨by omega, t.sinceOverflow_first first⟩
          rw [if_pos ⟨complete, wrapped⟩, first, Nat.sub_self, Nat.zero_div]
          rfl
        · have below : t.total (n + 1) < 256 := by omega
          rw [if_neg fun wraps => absurd wraps.2.1 (Nat.not_le.mpr below), if_pos below]
    · have between : ¬(t.phase (n + 1) = 0 ∧ t.Wrapped (n + 1)) := fun wraps => by omega
      rw [if_neg between, next, Nat.add_zero]

/-- While the next advance is far, a clock only takes the phase further. -/
theorem wrapped_succ (t : Timer) {n : Nat} (early : t.phase n + 1 < 16) (wrapped : t.Wrapped n) :
    t.phase (n + 1) = t.phase n + 1 ∧ t.Wrapped (n + 1) := by
  have long := t.cycle_bounds.1
  obtain ⟨full, -, -⟩ | ⟨-, more, same⟩ := t.phase_succ n
  · omega
  · exact ⟨more, t.wrapped_congr same |>.mpr wrapped⟩

theorem wrapped_pred (t : Timer) {n since : Nat} (later : t.phase n = since + 1)
    (wrapped : t.Wrapped n) : ∃ m, n = m + 1 ∧ t.phase m = since ∧ t.Wrapped m := by
  cases n with
  | zero =>
    have below := t.tima.toNat_lt
    rw [Wrapped, total_zero] at wrapped
    omega
  | succ m =>
    obtain ⟨-, complete, -⟩ | ⟨-, more, same⟩ := t.phase_succ m
    · omega
    · exact ⟨m, rfl, by omega, t.wrapped_congr same |>.mp wrapped⟩

/-- A reload is due just when an overflow is four clocks ago. -/
theorem reloads_iff (t : Timer) (enabled : t.enabled = true) (idle : t.reloadDelay = 0) (n : Nat) :
    (clock^[n] t).reloads = true ↔ ∃ m, n = m + 4 ∧ (clock^[m] t).overflows = true := by
  rw [(t.counts enabled idle n).reloads_iff]
  constructor
  · rintro ⟨wrapped, three⟩
    -- Back to the clock that completed the cycle, which cannot lie before the first one.
    obtain ⟨m, rfl, two, wrapped⟩ := t.wrapped_pred three wrapped
    obtain ⟨m, rfl, one, wrapped⟩ := t.wrapped_pred two wrapped
    obtain ⟨m, rfl, zero, wrapped⟩ := t.wrapped_pred one wrapped
    cases m with
    | zero =>
      have below := t.tima.toNat_lt
      rw [Wrapped, total_zero] at wrapped
      omega
    | succ m =>
      exact ⟨m, rfl, ((t.counts enabled idle m).overflows_iff enabled).mpr ⟨zero, wrapped⟩⟩
  · rintro ⟨m, rfl, overflows⟩
    obtain ⟨zero, wrapped⟩ := ((t.counts enabled idle m).overflows_iff enabled).mp overflows
    obtain ⟨one, wrapped⟩ := t.wrapped_succ (by omega) wrapped
    obtain ⟨two, wrapped⟩ := t.wrapped_succ (by omega) wrapped
    obtain ⟨three, wrapped⟩ := t.wrapped_succ (by omega) wrapped
    exact ⟨wrapped, three.trans (by rw [two, one, zero])⟩

/-- While it is disabled, the timer only counts a scheduled reload down. -/
theorem clock_disabled (t : Timer) (disabled : t.enabled = false) :
    t.clock = { t.countDown with div := t.div + 1 } := by
  have steady : t.countDown.falls = false := by
    have same : t.countDown.enabled = t.enabled := by rw [countDown_eq, enabled, enabled]
    rw [Timer.falls, signal, same, disabled]
    rfl
  have level : t.overflows = false := by rw [overflows, steady, Bool.false_and]
  rw [clock_eq, steady, level, countDown_eq]
  rfl

end Timer

namespace Hardware

/-- The timer's clocks change nothing but the timer and the requests. -/
theorem clockTimer_with (hw : Hardware) (t : Timer) (io : Segment 0x80) :
    clockTimer { hw with timer := t, io } =
      { hw with
        timer := t.clock
        io := if t.reloads then (request { hw with io } .timer).io else io } := by
  unfold clockTimer
  dsimp only
  split <;> rfl

/-- Some clocks of the timer, as its clocks and the request that an overflow leads to. -/
theorem clockTimer_iterate (hw : Hardware) (enabled : hw.timer.enabled = true)
    (idle : hw.timer.reloadDelay = 0) (n : Nat) :
    clockTimer^[n] hw =
      { hw with
        timer := Timer.clock^[n] hw.timer
        io := if 0 < hw.timer.overflowCount (n - 4) then (hw.request .timer).io else hw.io } := by
  induction n with
  | zero => rfl
  | succ n ih =>
    have reloads := hw.timer.reloads_iff enabled idle n
    rw [Function.iterate_succ_apply', Function.iterate_succ_apply', ih, clockTimer_with]
    congr 1
    by_cases early : n < 4
    · have quiet : ¬(Timer.clock^[n] hw.timer).reloads = true := fun due => by
        obtain ⟨m, late, -⟩ := reloads.mp due
        omega
      rw [if_neg quiet, Nat.sub_eq_zero_of_le (Nat.le_of_lt early), Nat.sub_eq_zero_of_le early]
    · obtain ⟨m, rfl⟩ := Nat.exists_eq_add_of_le' (Nat.le_of_not_lt early)
      have due : (Timer.clock^[m + 4] hw.timer).reloads = true ↔
          (Timer.clock^[m] hw.timer).overflows = true := by
        rw [reloads]
        exact ⟨fun ⟨k, same, wraps⟩ => Nat.add_right_cancel same ▸ wraps,
          fun wraps => ⟨m, rfl, wraps⟩⟩
      have count : hw.timer.overflowCount (m + 1) =
          hw.timer.overflowCount m +
            if (Timer.clock^[m] hw.timer).overflows = true then 1 else 0 := Nat.count_succ ..
      rw [show m + 4 + 1 - 4 = m + 1 from rfl, show m + 4 - 4 = m from rfl, count]
      simp only [due]
      by_cases wraps : (Timer.clock^[m] hw.timer).overflows = true
      · rw [if_pos wraps, if_pos wraps, if_pos (Nat.succ_pos _)]
        -- The line may have been requested before.
        split
        · exact congrArg io (hw.request_request .timer)
        · rfl
      · rw [if_neg wraps, if_neg wraps, Nat.add_zero]

theorem timer_clockTimer (hw : Hardware) : hw.clockTimer.timer = hw.timer.clock := by
  unfold clockTimer
  split <;> rfl

theorem clockTimer_disabled (hw : Hardware) (disabled : hw.timer.enabled = false)
    (idle : hw.timer.reloadDelay = 0) (n : Nat) :
    ∃ div, clockTimer^[n] hw = { hw with timer := { hw.timer with div } } := by
  induction n with
  | zero => exact ⟨hw.timer.div, rfl⟩
  | succ n ih =>
    obtain ⟨div, same⟩ := ih
    let t : Timer := { hw.timer with div }
    have quiet : t.reloads = false := by
      rw [Timer.reloads, show t.reloadDelay = 0 from idle]
      decide
    have still : t.countDown = t := by
      rw [Timer.countDown, quiet, if_neg Bool.false_ne_true, if_pos idle]
    refine ⟨div + 1, ?_⟩
    rw [Function.iterate_succ_apply', same]
    refine (hw.clockTimer_with t hw.io).trans ?_
    rw [quiet, if_neg Bool.false_ne_true, Timer.clock_disabled t disabled, still]

/-- A disabled timer counts nothing, but a reload that is already scheduled still comes. -/
theorem clockTimer_still_iff (hw : Hardware) (disabled : hw.timer.enabled = false) :
    hw.timer.reloadDelay = 0 ↔ ∀ n,
      (clockTimer^[n] hw).timer.tima = hw.timer.tima ∧
        (clockTimer^[n] hw).timer.reloadDelay = hw.timer.reloadDelay ∧
          (clockTimer^[n] hw).io = hw.io := by
  constructor
  · intro idle n
    obtain ⟨div, same⟩ := hw.clockTimer_disabled disabled idle n
    rw [same]
    exact ⟨rfl, rfl, rfl⟩
  · intro still
    obtain ⟨-, delay, -⟩ := still 1
    have counted := hw.timer.toNat_reloadDelay_countDown
    rw [Function.iterate_one, timer_clockTimer, Timer.clock_disabled _ disabled] at delay
    have same : hw.timer.countDown.reloadDelay = hw.timer.reloadDelay := delay
    rw [same] at counted
    exact UInt8.toNat.inj (show hw.timer.reloadDelay.toNat = 0 by omega)

theorem div_clockTimer (hw : Hardware) (n : Nat) :
    (clockTimer^[n] hw).timer.div.toNat = (hw.timer.div.toNat + n) % 65536 := by
  induction n with
  | zero => exact (Nat.mod_eq_of_lt hw.timer.div.toNat_lt).symm
  | succ n ih =>
    rw [Function.iterate_succ_apply', timer_clockTimer]
    exact Timer.toNat_div_clock ih

/-- The timer after any number of clocks in which nobody writes to it. While it is enabled, TIMA
counts the cycles that are complete; past its last value it has overflowed once, and again each time
it has come from TMA to its last value. It shows zero for four clocks after an overflow. The request
is there when the overflow is four clocks ago. A disabled timer is still unless a reload is
scheduled. -/
theorem clockTimer_closed_form (hw : Hardware) (n : Nat) :
    let t := hw.timer
    let now := clockTimer^[n] hw
    let cycle := (Timer.period t.tac).toNat
    let advances := (t.div.toNat + n) / cycle - t.div.toNat / cycle
    let total := t.tima.toNat + advances
    let modulus := 256 - t.tma.toNat
    let rest := (total - 256) % modulus
    now.timer.div.toNat = (t.div.toNat + n) % 65536 ∧
    (t.enabled = true → t.reloadDelay = 0 →
      (total < 256 →
        now.timer.tima.toNat = total ∧ t.overflowCount n = 0 ∧ now.io = hw.io) ∧
      (256 ≤ total →
        t.overflowCount n = 1 + (total - 256) / modulus ∧
          now.timer.tima.toNat =
            if rest = 0 ∧ (t.div.toNat + n) % cycle < 4 then 0 else t.tma.toNat + rest) ∧
      now.io = if 0 < t.overflowCount (n - 4) then (hw.request .timer).io else hw.io) ∧
    (t.enabled = false →
      (t.reloadDelay = 0 ↔ ∀ clocks,
        (clockTimer^[clocks] hw).timer.tima = t.tima ∧
          (clockTimer^[clocks] hw).timer.reloadDelay = t.reloadDelay ∧
            (clockTimer^[clocks] hw).io = hw.io)) := by
  intro t now cycle advances total modulus rest
  refine ⟨hw.div_clockTimer n, ?_, hw.clockTimer_still_iff⟩
  intro enabled idle
  have iterate : now = _ := hw.clockTimer_iterate enabled idle n
  have tima : now.timer.tima.toNat = t.timaAfter n := by
    rw [iterate]
    exact (t.counts enabled idle n).tima
  have count : t.overflowCount n = if total < 256 then 0 else 1 + (total - 256) / modulus :=
    t.overflowCount_eq enabled idle n
  have io : now.io = if 0 < t.overflowCount (n - 4) then (hw.request .timer).io else hw.io := by
    rw [iterate]
  refine ⟨?_, ?_, io⟩
  · intro below
    have none : t.overflowCount n = 0 := count.trans (if_pos below)
    refine ⟨tima.trans (if_pos below), none, io.trans (if_neg ?_)⟩
    have fewer : t.overflowCount (n - 4) ≤ t.overflowCount n :=
      Nat.count_monotone _ (Nat.sub_le n 4)
    omega
  · intro past
    exact ⟨count.trans (if_neg (Nat.not_lt.mpr past)), tima.trans (if_neg (Nat.not_lt.mpr past))⟩

/-- The fastest timer overflows at its first advance, and four clocks later it is reloaded and has
requested its interrupt; a timer that is disabled stays as it is. -/
theorem clockTimer_closed_form_fast :
    let fast : Hardware :=
      { (default : Hardware) with timer := { tima := 0xFF, tma := 0xAB, tac := 5 } }
    let off : Hardware := { (default : Hardware) with timer := { tima := 0xFF, tac := 1 } }
    (clockTimer^[16] fast).timer.tima.toNat = 0 ∧ (clockTimer^[16] fast).io = fast.io ∧
      (clockTimer^[20] fast).timer.tima.toNat = 0xAB ∧
      (clockTimer^[20] fast).io = (fast.request .timer).io ∧
      (clockTimer^[1000] off).timer.tima = 0xFF := by
  intro fast off
  obtain ⟨-, early, -⟩ := clockTimer_closed_form fast 12
  obtain ⟨-, first, -⟩ := clockTimer_closed_form fast 16
  obtain ⟨-, later, -⟩ := clockTimer_closed_form fast 20
  obtain ⟨-, -, still⟩ := clockTimer_closed_form off 0
  have enabled : fast.timer.enabled = true := by decide
  obtain ⟨quiet, -, -⟩ := early enabled rfl
  obtain ⟨-, wraps, requests⟩ := first enabled rfl
  obtain ⟨-, reloaded, asked⟩ := later enabled rfl
  obtain ⟨once, zero⟩ := wraps (by decide)
  obtain ⟨-, full⟩ := reloaded (by decide)
  obtain ⟨-, none, -⟩ := quiet (by decide)
  have one : 0 < fast.timer.overflowCount 16 := by
    rw [once]
    exact Nat.add_pos_left Nat.one_pos _
  refine ⟨zero.trans (by decide), requests.trans (if_neg ?_), full.trans (by decide),
    asked.trans (if_pos one), ?_⟩
  · exact Nat.not_lt.mpr (Nat.le_of_eq none)
  · exact ((still (by decide)).mp rfl 1000).1

end Hardware

end GameBoy
