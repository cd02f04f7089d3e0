import GameBoy.Cartridge.Header
import GameBoy.Proofs.Evolution
import Mathlib.Algebra.Group.Nat.Defs

/-!
What a machine relies on, and what more holds of one that was switched on and never restored. Both
are statements about the parts of a console that every step of the part keeps.
-/

namespace GameBoy

open Relation

/-- What every step keeps, every run of steps keeps. -/
theorem kept_of_steps {Step : α → α → Prop} {Holds : α → Prop}
    (keeps : ∀ a b, Step a b → Holds a → Holds b) (steps : ReflTransGen Step a b)
    (holds : Holds a) : Holds b := by
  induction steps with
  | refl => exact holds
  | tail _ step ih => exact keeps _ _ step ih

/-! The timer. -/

/-- Only three bits of TAC exist, and a reload is never scheduled further ahead than it takes. -/
structure Timer.Ranged (t : Timer) : Prop where
  control : t.tac.toNat ≤ 7
  reloadDelay : t.reloadDelay.toNat ≤ 4

namespace Timer

theorem Ranged.moveTo {t next : Timer} (ranged : next.Ranged) : (t.moveTo next).Ranged := by
  unfold Timer.moveTo increment
  split
  · split
    · exact ⟨ranged.control, Nat.le_refl 4⟩
    · exact ⟨ranged.control, ranged.reloadDelay⟩
  · exact ranged

theorem Ranged.countDown {t : Timer} (ranged : t.Ranged) : t.countDown.Ranged := by
  unfold Timer.countDown
  split
  · exact ⟨ranged.control, Nat.zero_le 4⟩
  · split
    · exact ranged
    · rename_i running
      refine ⟨ranged.control, ?_⟩
      have bound := ranged.reloadDelay
      have positive : t.reloadDelay.toNat ≠ 0 := fun zero => running (UInt8.toNat.inj zero)
      simp only [UInt8.toNat_sub, UInt8.reduceToNat]
      omega

theorem Step.ranged {t u : Timer} (step : Step t u) (ranged : t.Ranged) : u.Ranged := by
  cases step with
  | clock => exact Ranged.moveTo ⟨ranged.countDown.control, ranged.countDown.reloadDelay⟩
  | resetDiv => exact Ranged.moveTo ⟨ranged.control, ranged.reloadDelay⟩
  | writeTima v => exact ⟨ranged.control, Nat.zero_le 4⟩
  | writeTma v => exact ⟨ranged.control, ranged.reloadDelay⟩
  | writeTac v =>
    refine Ranged.moveTo ⟨?_, ranged.reloadDelay⟩
    simp only [UInt8.toNat_mod, UInt8.reduceToNat]
    omega

end Timer

/-! The clock on a cartridge. -/

/-- The counters stay at or below the given numbers. -/
structure ClockTime.Within (limit hourLimit : Nat) (t : ClockTime) : Prop where
  seconds : t.seconds.toNat ≤ limit
  minutes : t.minutes.toNat ≤ limit
  hours : t.hours.toNat ≤ hourLimit

/-- No counter is so high that its next step would leave its width. -/
structure Clock.Sound (c : Clock) : Prop where
  live : c.live.Within 0xFE 0xFE
  subsecond : c.subsecond.toNat ≤ 0xFFFFFFFE

/-- The counters have only the bits that they need. -/
structure Clock.Ranged (c : Clock) : Prop where
  live : c.live.Within 63 31
  dayHigh : c.live.dayHigh &&& 0xC1 = c.live.dayHigh
  subsecond : c.subsecond.toNat < 4194304

namespace ClockTime

variable {t : ClockTime} {limit hourLimit : Nat}

theorem Within.mono (within : t.Within limit hourLimit) (more : limit ≤ wide)
    (hoursMore : hourLimit ≤ hourWide) : t.Within wide hourWide :=
  ⟨Nat.le_trans within.seconds more, Nat.le_trans within.minutes more,
    Nat.le_trans within.hours hoursMore⟩

private theorem mod_sixtyFour_le (n : UInt8) (wide : 63 ≤ limit) : (n % 64).toNat ≤ limit := by
  simp only [UInt8.toNat_mod, UInt8.reduceToNat]
  omega

private theorem mod_thirtyTwo_le (n : UInt8) (wide : 31 ≤ limit) : (n % 32).toNat ≤ limit := by
  simp only [UInt8.toNat_mod, UInt8.reduceToNat]
  omega

/-- A second takes no counter above the bits that it needs. -/
theorem Within.nextSecond (within : t.Within limit hourLimit) (wide : 63 ≤ limit)
    (hourWide : 31 ≤ hourLimit) : t.nextSecond.Within limit hourLimit := by
  unfold ClockTime.nextSecond nextMinute nextHour nextDay
  dsimp only
  split
  · split
    · split
      · exact ⟨Nat.zero_le _, Nat.zero_le _, Nat.zero_le _⟩
      · exact ⟨Nat.zero_le _, Nat.zero_le _, mod_thirtyTwo_le _ hourWide⟩
    · exact ⟨Nat.zero_le _, mod_sixtyFour_le _ wide, within.hours⟩
  · exact ⟨mod_sixtyFour_le _ wide, within.minutes, within.hours⟩

private theorem masked_or {a b mask : UInt8} (first : a &&& mask = a) (second : b &&& mask = b) :
    (a ||| b) &&& mask = a ||| b := by
  apply UInt8.toNat.inj
  rw [UInt8.toNat_and, UInt8.toNat_or, Nat.and_or_distrib_right, ← UInt8.toNat_and,
    ← UInt8.toNat_and, first, second]

private theorem masked_and {a mask : UInt8} (first : a &&& mask = a) (b : UInt8) :
    (a &&& b) &&& mask = a &&& b := by
  rw [UInt8.and_assoc, UInt8.and_comm b, ← UInt8.and_assoc, first]

/-- Only a new day writes the high bits, and it keeps to those that exist. -/
theorem dayHigh_nextDay (dayHigh : t.dayHigh &&& 0xC1 = t.dayHigh) :
    t.nextDay.dayHigh &&& 0xC1 = t.nextDay.dayHigh := by
  have bit (day : UInt16) : (day / 256 % 2).toUInt8 &&& 0xC1 = (day / 256 % 2).toUInt8 := by
    have small : (day / 256 % 2).toNat < 2 := by
      simp only [UInt16.toNat_mod, UInt16.reduceToNat]
      omega
    rcases Nat.lt_succ_iff_lt_or_eq.mp small with zero | one
    · have : day / 256 % 2 = 0 := UInt16.toNat.inj (Nat.lt_one_iff.mp zero)
      rw [this]
      decide
    · have : day / 256 % 2 = 1 := UInt16.toNat.inj one
      rw [this]
      decide
  refine masked_or (masked_or (masked_and dayHigh _) (bit _)) ?_
  split <;> decide

theorem dayHigh_nextSecond (dayHigh : t.dayHigh &&& 0xC1 = t.dayHigh) :
    t.nextSecond.dayHigh &&& 0xC1 = t.nextSecond.dayHigh := by
  unfold nextSecond nextMinute nextHour
  dsimp only
  split
  · split
    · split
      · exact dayHigh_nextDay dayHigh
      · exact dayHigh
    · exact dayHigh
  · exact dayHigh

end ClockTime

namespace Clock

theorem Ranged.sound {c : Clock} (ranged : c.Ranged) : c.Sound where
  live := ranged.live.mono (by decide) (by decide)
  subsecond := by
    have := ranged.subsecond
    omega

theorem subsecond_tick {c : Clock} (limit : Nat) (wide : 4194303 ≤ limit)
    (within : c.subsecond.toNat ≤ limit) : c.tick.subsecond.toNat ≤ limit := by
  unfold tick
  split
  · exact within
  · split
    · rename_i below
      rw [UInt32.lt_iff_toNat_lt] at below
      simp only [ticksPerSecond, UInt32.reduceToNat] at below
      dsimp only
      omega
    · exact Nat.zero_le _

theorem live_tick (c : Clock) : c.tick.live = c.live ∨ c.tick.live = c.live.nextSecond := by
  unfold tick
  split
  · exact .inl rfl
  · split
    · exact .inl rfl
    · exact .inr rfl

/-- A write to a live counter keeps only the bits that exist. -/
theorem within_writeRegister {c : Clock} (within : c.live.Within limit hourLimit)
    (wide : 63 ≤ limit) (hourWide : 31 ≤ hourLimit) (register : Nat) (v : UInt8) :
    (c.writeRegister register v).live.Within limit hourLimit := by
  obtain ⟨seconds, minutes, hours⟩ := within
  unfold writeRegister
  split
  · exact ⟨ClockTime.mod_sixtyFour_le v wide, minutes, hours⟩
  · exact ⟨seconds, ClockTime.mod_sixtyFour_le v wide, hours⟩
  · exact ⟨seconds, minutes, ClockTime.mod_thirtyTwo_le v hourWide⟩
  · exact ⟨seconds, minutes, hours⟩
  · exact ⟨seconds, minutes, hours⟩

theorem dayHigh_writeRegister {c : Clock} (dayHigh : c.live.dayHigh &&& 0xC1 = c.live.dayHigh)
    (register : Nat) (v : UInt8) :
    (c.writeRegister register v).live.dayHigh &&& 0xC1 =
      (c.writeRegister register v).live.dayHigh := by
  unfold writeRegister
  split
  · exact dayHigh
  · exact dayHigh
  · exact dayHigh
  · exact dayHigh
  · rw [UInt8.and_assoc, UInt8.and_self]

theorem subsecond_writeRegister (c : Clock) (register : Nat) (v : UInt8) :
    (c.writeRegister register v).subsecond.toNat ≤ c.subsecond.toNat := by
  unfold writeRegister
  split
  · exact Nat.zero_le _
  all_goals exact Nat.le_refl _

theorem within_tick {c : Clock} (within : c.live.Within limit hourLimit) (wide : 63 ≤ limit)
    (hourWide : 31 ≤ hourLimit) : c.tick.live.Within limit hourLimit := by
  rcases c.live_tick with same | next
  · rw [same]
    exact within
  · rw [next]
    exact within.nextSecond wide hourWide

theorem Step.sound {c d : Clock} (step : Step c d) (sound : c.Sound) : d.Sound := by
  cases step with
  | tick =>
    exact ⟨within_tick sound.live (by decide) (by decide),
      subsecond_tick _ (by decide) sound.subsecond⟩
  | latch v => exact ⟨sound.live, sound.subsecond⟩
  | writeRegister register v =>
    exact ⟨within_writeRegister sound.live (by decide) (by decide) register v,
      Nat.le_trans (c.subsecond_writeRegister register v) sound.subsecond⟩

theorem Step.ranged {c d : Clock} (step : Step c d) (ranged : c.Ranged) : d.Ranged := by
  cases step with
  | tick =>
    refine ⟨within_tick ranged.live (by decide) (by decide), ?_,
      Nat.lt_succ_of_le (subsecond_tick _ (by decide) (Nat.le_of_lt_succ ranged.subsecond))⟩
    rcases c.live_tick with same | next
    · rw [same]
      exact ranged.dayHigh
    · rw [next]
      exact ClockTime.dayHigh_nextSecond ranged.dayHigh
  | latch v => exact ⟨ranged.live, ranged.dayHigh, ranged.subsecond⟩
  | writeRegister register v =>
    exact ⟨within_writeRegister ranged.live (by decide) (by decide) register v,
      dayHigh_writeRegister ranged.dayHigh register v,
      Nat.lt_of_le_of_lt (c.subsecond_writeRegister register v) ranged.subsecond⟩

end Clock

/-! The transfer into sprite memory. -/

/-- A running transfer has bytes left, none of which lies beyond the last address, and its clocks
can be counted to the end. -/
structure OamDma.Sound (t : OamDma) : Prop where
  bytes : t.active = true → t.bytes.toNat < 160
  source : t.active = true → t.source.toNat + 159 ≤ 0xFFFF
  ticks : t.active = true → t.ticks.toNat / 4 + (160 - t.bytes.toNat) < 0x4000

/-- A transfer that was really started copies a byte every four clocks from a page that lies below
sprite memory. -/
structure OamDma.Ranged (t : OamDma) : Prop where
  ticks : t.active = true → t.ticks.toNat < 640
  bytes : t.active = true → t.bytes.toNat = t.ticks.toNat / 4
  page : t.active = true → t.source.toNat % 256 = 0
  source : t.active = true → t.source.toNat ≤ 0xFD00

namespace OamDma

theorem Ranged.sound {t : OamDma} (ranged : t.Ranged) : t.Sound where
  bytes running := by
    have ticks := ranged.ticks running
    have bytes := ranged.bytes running
    omega
  source running := by
    have source := ranged.source running
    omega
  ticks running := by
    have ticks := ranged.ticks running
    have bytes := ranged.bytes running
    omega

/-- A new transfer begins with the first byte of a page that is not above 0xFD00. -/
theorem start_ranged (v : UInt8) : (start v).Ranged := by
  have page : (sourcePage v).toNat ≤ 0xFD := by
    have bound := v.toNat_lt
    unfold sourcePage
    split
    · rename_i high
      rw [UInt8.le_iff_toNat_le] at high
      simp only [UInt8.toNat_sub, UInt8.reduceToNat] at *
      omega
    · rename_i low
      rw [UInt8.le_iff_toNat_le] at low
      simp only [UInt8.reduceToNat] at low
      omega
  have source : (start v).source.toNat = (sourcePage v).toNat * 256 := by
    simp only [start, UInt16.toNat_mul, UInt8.toNat_toUInt16, UInt16.reduceToNat]
    omega
  constructor
  · intro _
    show 0 < 640
    decide
  · intro _
    show 0 = 0 / 4
    decide
  · intro _
    rw [source]
    omega
  · intro _
    rw [source]
    omega

/-- The clock of a transfer whose clocks can be counted. -/
private theorem advance_cases (t : OamDma) (room : t.ticks.toNat + 1 < 65536)
    (bytes : t.bytes.toNat < 160) :
    (t.advance.ticks.toNat = t.ticks.toNat + 1) ∧ t.advance.source = t.source ∧
      (((t.ticks.toNat + 1) % 4 = 0 ∧ t.advance.bytes.toNat = t.bytes.toNat + 1 ∧
          (t.advance.active = true → t.bytes.toNat + 1 ≠ 160)) ∨
        ((t.ticks.toNat + 1) % 4 ≠ 0 ∧ t.advance.bytes = t.bytes)) := by
  have ticks : (t.ticks + 1).toNat = t.ticks.toNat + 1 := by
    simp only [UInt16.toNat_add, UInt16.reduceToNat]
    omega
  have remainder : ((t.ticks + 1) % ticksPerByte).toNat = (t.ticks.toNat + 1) % 4 := by
    simp only [UInt16.toNat_mod, ticks, ticksPerByte, UInt16.reduceToNat]
  have more : (t.bytes + 1).toNat = t.bytes.toNat + 1 := by
    simp only [UInt8.toNat_add, UInt8.reduceToNat]
    omega
  unfold advance
  split
  · rename_i due
    refine ⟨ticks, rfl, .inl ⟨?_, more, fun running last => ?_⟩⟩
    · rw [← remainder, due]
      rfl
    · exact of_decide_eq_true running (UInt8.toNat.inj (more.trans last))
  · rename_i notDue
    refine ⟨ticks, rfl, .inr ⟨fun zero => notDue ?_, rfl⟩⟩
    exact UInt16.toNat.inj (remainder.trans zero)

theorem Step.sound {t u : OamDma} (step : Step t u) (sound : t.Sound) : u.Sound := by
  cases step with
  | start v => exact (start_ranged v).sound
  | advance running =>
    have bytes := sound.bytes running
    have source := sound.source running
    have ticks := sound.ticks running
    obtain ⟨counted, same, ⟨due, more, left⟩ | ⟨notDue, kept⟩⟩ :=
      t.advance_cases (by omega) bytes
    · constructor
      · intro running
        have := left running
        omega
      · intro _
        rw [same]
        exact source
      · intro _
        omega
    · constructor
      · intro _
        rw [kept]
        exact bytes
      · intro _
        rw [same]
        exact source
      · intro _
        rw [kept, counted]
        omega

theorem Step.ranged {t u : OamDma} (step : Step t u) (ranged : t.Ranged) : u.Ranged := by
  cases step with
  | start v => exact start_ranged v
  | advance running =>
    have ticks := ranged.ticks running
    have bytes := ranged.bytes running
    have page := ranged.page running
    have source := ranged.source running
    obtain ⟨counted, same, progress⟩ := t.advance_cases (by omega) (by omega)
    constructor
    · intro running
      rcases progress with ⟨due, more, left⟩ | ⟨notDue, kept⟩
      · have := left running
        omega
      · omega
    · intro _
      rcases progress with ⟨due, more, left⟩ | ⟨notDue, kept⟩
      · omega
      · rw [kept, counted]
        omega
    · intro _
      rw [same]
      exact page
    · intro _
      rw [same]
      exact source

end OamDma

/-! The transfer into video RAM. -/

/-- The destination lies in video RAM, and a running transfer has blocks left. -/
structure VramDma.Sound (t : VramDma) : Prop where
  above : 0x8000 ≤ t.destination.toNat
  below : t.destination.toNat ≤ 0x9FF0
  blocks : t.active = true → 1 ≤ t.blocks.toNat

/-- Blocks begin at multiples of their size, and there are at most 128. -/
structure VramDma.Ranged (t : VramDma) : Prop extends t.Sound where
  destination : t.destination.toNat % 16 = 0
  source : t.source.toNat % 16 = 0
  most : t.active = true → t.blocks.toNat ≤ 128

namespace VramDma

theorem toNat_destinationOf (address : UInt16) :
    (destinationOf address).toNat = 0x8000 + (address.toNat &&& 0x1FF0) := by
  have small : address.toNat &&& 0x1FF0 < 2 ^ 15 :=
    Nat.lt_of_le_of_lt Nat.and_le_right (by decide)
  rw [destinationOf, UInt16.toNat_or, UInt16.toNat_and]
  exact (Nat.two_pow_add_eq_or_of_lt small 1).symm

/-- A destination lies in video RAM, at a multiple of 16. -/
theorem destinationOf_bounds (address : UInt16) :
    0x8000 ≤ (destinationOf address).toNat ∧ (destinationOf address).toNat ≤ 0x9FF0 ∧
      (destinationOf address).toNat % 16 = 0 := by
  have below : address.toNat &&& 0x1FF0 ≤ 0x1FF0 := Nat.and_le_right
  have aligned : (address.toNat &&& 0x1FF0) % 2 ^ 4 = 0 := by
    rw [Nat.and_mod_two_pow]
    exact Nat.and_zero _
  rw [toNat_destinationOf]
  omega

private theorem destinationOf_sound {t : VramDma} (sound : t.Sound) (address : UInt16) :
    { t with destination := destinationOf address }.Sound := by
  obtain ⟨above, below, _⟩ := destinationOf_bounds address
  exact ⟨above, below, sound.blocks⟩

theorem Step.sound {t u : VramDma} (step : Step t u) (sound : t.Sound) : u.Sound := by
  cases step with
  | sourceHigh v =>
    unfold writeSourceHigh
    split
    · exact sound
    · exact ⟨sound.above, sound.below, sound.blocks⟩
  | sourceLow v =>
    unfold writeSourceLow
    split
    · exact sound
    · exact ⟨sound.above, sound.below, sound.blocks⟩
  | destinationHigh v =>
    unfold writeDestinationHigh
    split
    · exact sound
    · exact destinationOf_sound sound _
  | destinationLow v =>
    unfold writeDestinationLow
    split
    · exact sound
    · exact destinationOf_sound sound _
  | cancel => exact ⟨sound.above, sound.below, nofun⟩
  | blocks idle blocks =>
    exact ⟨sound.above, sound.below, fun running => Bool.noConfusion (idle.symm.trans running)⟩
  | copied =>
    obtain ⟨above, below, _⟩ := destinationOf_bounds (t.destination + blockSize)
    exact ⟨above, below, sound.blocks⟩
  | start v =>
    refine ⟨sound.above, sound.below, fun _ => ?_⟩
    simp only [UInt8.toNat_add, UInt8.toNat_mod, UInt8.reduceToNat]
    omega
  | countDown running =>
    refine ⟨sound.above, sound.below, fun left => ?_⟩
    have more : t.blocks - 1 ≠ 0 := of_decide_eq_true left
    exact Nat.one_le_iff_ne_zero.mpr fun zero => more (UInt8.toNat.inj zero)

/-- Sixteen divides what the low source register keeps. -/
private theorem sourceLow_aligned (source : UInt16) (v : UInt8) :
    (source / 256 * 256 + (v &&& 0xF0).toUInt16).toNat % 16 = 0 := by
  have aligned : (v.toNat &&& 0xF0) % 2 ^ 4 = 0 := by
    rw [Nat.and_mod_two_pow]
    exact Nat.and_zero _
  have bound := source.toNat_lt
  simp only [UInt16.toNat_add, UInt16.toNat_mul, UInt16.toNat_div, UInt8.toNat_toUInt16,
    UInt8.toNat_and, UInt16.reduceToNat, UInt8.reduceToNat]
  omega

theorem Step.ranged {t u : VramDma} (step : Step t u) (ranged : t.Ranged) : u.Ranged := by
  have sound := step.sound ranged.toSound
  obtain ⟨_, destination, source, most⟩ := ranged
  cases step with
  | sourceHigh v =>
    refine ⟨sound, ?_, ?_, ?_⟩ <;> unfold writeSourceHigh <;> split
    · exact destination
    · exact destination
    · exact source
    · simp only [UInt16.toNat_add, UInt16.toNat_mul, UInt16.toNat_mod, UInt16.reduceToNat]
      omega
    · exact most
    · exact most
  | sourceLow v =>
    refine ⟨sound, ?_, ?_, ?_⟩ <;> unfold writeSourceLow <;> split
    · exact destination
    · exact destination
    · exact source
    · exact sourceLow_aligned _ v
    · exact most
    · exact most
  | destinationHigh v =>
    refine ⟨sound, ?_, ?_, ?_⟩ <;> unfold writeDestinationHigh <;> split
    · exact destination
    · exact (destinationOf_bounds _).2.2
    all_goals assumption
  | destinationLow v =>
    refine ⟨sound, ?_, ?_, ?_⟩ <;> unfold writeDestinationLow <;> split
    · exact destination
    · exact (destinationOf_bounds _).2.2
    all_goals assumption
  | cancel => exact ⟨sound, destination, source, nofun⟩
  | blocks idle blocks =>
    exact ⟨sound, destination, source, fun running => Bool.noConfusion (idle.symm.trans running)⟩
  | copied =>
    refine ⟨sound, (destinationOf_bounds _).2.2, ?_, most⟩
    simp only [VramDma.copied, blockSize, UInt16.toNat_add, UInt16.reduceToNat]
    omega
  | start v =>
    refine ⟨sound, destination, source, fun _ => ?_⟩
    simp only [UInt8.toNat_add, UInt8.toNat_mod, UInt8.reduceToNat]
    omega
  | countDown running =>
    refine ⟨sound, destination, source, fun _ => ?_⟩
    have some := ‹t.Sound›.blocks running
    have bound := most running
    simp only [VramDma.countDown, UInt8.toNat_sub, UInt8.reduceToNat]
    omega

end VramDma

/-! Cartridges and their banks. -/

/-- What the header of an accepted image promises. -/
structure Cartridge.WellFormed (c : Cartridge) : Prop where
  title : c.title.utf8ByteSize ≤ 16
  banks : 2 ≤ c.romBanks
  mostBanks : c.romBanks ≤ 512
  image : c.romBanks * romBankSize ≤ c.image.size
  ram : c.ramSize ≤ 0x20000
  mbc2 : c.controller = .mbc2 → c.ramSize = Header.mbc2RamSize

namespace Header

private theorem utf8ByteSize_fromUTF8 {bytes : ByteArray}
    (text : String.fromUTF8? bytes = some s) : s.utf8ByteSize = bytes.size := by
  unfold String.fromUTF8? at text
  split at text
  · cases text
    rfl
  · cases text

/-- A title is a text of the bytes that the header has for it. -/
theorem title_le (image : Memory) : (title image).utf8ByteSize ≤ 16 := by
  have room : (titleBytes image).length ≤ 16 := by
    unfold titleBytes
    dsimp only
    refine Nat.le_trans (List.takeWhile_sublist _).length_le ?_
    rw [Memory.length_toList]
    show (image.bytes.extract _ _).size ≤ _
    rw [ByteArray.size_extract]
    split <;> omega
  unfold title
  generalize titleBytes image = bytes at room ⊢
  cases text : String.fromUTF8? ⟨bytes.toArray⟩ with
  | none => decide
  | some s =>
    rw [Option.getD_some, utf8ByteSize_fromUTF8 text]
    exact room

theorem romBanks_bounds (known : romBanks? code = some banks) : 2 ≤ banks ∧ banks ≤ 512 := by
  unfold romBanks? at known
  split at known
  · rename_i small
    cases known
    rw [UInt8.le_iff_toNat_le] at small
    rw [Nat.shiftLeft_eq]
    have least : 2 ^ 0 ≤ 2 ^ code.toNat := Nat.pow_le_pow_right (by decide) (Nat.zero_le _)
    have most : 2 ^ code.toNat ≤ 2 ^ 8 := Nat.pow_le_pow_right (by decide) small
    omega
  · repeat' split at known
    all_goals simp at known
    all_goals
      subst known
      decide

theorem ramSize_le {ram : Nat} (known : ramSize? code = some ram) : ram ≤ 0x20000 := by
  unfold ramSize? at known
  repeat' split at known
  all_goals simp at known
  all_goals
    subst known
    decide

end Header

namespace Cartridge

theorem ramSizeFor_le {chip : Controller} {ram : Nat}
    (known : ramSizeFor? chip code = some ram) : ram ≤ 0x20000 := by
  unfold ramSizeFor? at known
  split at known
  · cases known
    decide
  · exact Header.ramSize_le known

theorem ofImage_wellFormed {rom : Memory} (accepted : ofImage rom = .ok cart) :
    cart.WellFormed ∧ cart.image = rom := by
  have title := Header.title_le rom
  unfold ofImage at accepted
  generalize Header.title rom = text at accepted title
  split at accepted
  · cases accepted
  dsimp only at accepted
  split at accepted
  · cases accepted
  split at accepted
  · cases accepted
  rename_i romBanks bankCode
  split at accepted
  · cases accepted
  rename_i ramSize ramCode
  split at accepted
  · cases accepted
  rename_i complete
  cases accepted
  obtain ⟨banks, mostBanks⟩ := Header.romBanks_bounds bankCode
  refine ⟨⟨title, banks, mostBanks, Nat.le_of_not_lt complete, ramSizeFor_le ramCode, ?_⟩, rfl⟩
  intro mbc2
  rw [ramSizeFor?, if_pos mbc2] at ramCode
  exact (Option.some.inj ramCode).symm

end Cartridge

/-- A bank lies inside an image, and so low that the addresses of both windows can be added to its
offset. -/
structure Banks.InRom (romSize : Nat) (offset : UInt64) : Prop where
  inside : offset.toNat + romBankSize ≤ romSize
  addable : offset.toNat + 2 * romBankSize ≤ 2 ^ 64

/-- The offsets lie inside memories of the given sizes. -/
structure Banks.Fits (romSize ramSize : Nat) (b : Banks) : Prop where
  rom0 : InRom romSize b.rom0Offset
  rom1 : InRom romSize b.rom1Offset
  ram : b.ramOffset = 0 ∨ b.ramOffset.toNat < ramSize

/-- The values that the RAM select latch of a controller can take. -/
def Banks.SelectFits (controller : Controller) (b : Banks) : Prop :=
  match controller with
  | .fixed | .mbc1 | .mbc2 => b.ramSelect = 0
  | .mbc3 => b.ramSelect.toNat ≤ 0x0C
  | .mbc5 => b.ramSelect.toNat ≤ 0x0F

namespace Banks

/-- A bank that the image has lies inside it. -/
theorem romOffsetOf_inRom (banks : 1 ≤ romBanks) (most : romBanks ≤ 512)
    (image : romBanks * romBankSize ≤ romSize) (bank : Nat) :
    InRom romSize (romOffsetOf romBanks bank) := by
  have last : bank % romBanks + 1 ≤ romBanks := Nat.mod_lt bank banks
  have inside : (bank % romBanks + 1) * romBankSize ≤ romBanks * romBankSize :=
    Nat.mul_le_mul_right romBankSize last
  have kept : (romOffsetOf romBanks bank).toNat ≤ bank % romBanks * romBankSize := by
    rw [romOffsetOf, UInt64.toNat_ofNat']
    exact Nat.mod_le ..
  rw [romBankSize] at *
  constructor <;> rw [romBankSize] <;> omega

/-- A RAM bank begins inside the RAM, if there is more than a part of one. -/
theorem ramOffsetOf_lt (bank : Nat) :
    ramOffsetOf ((ramSize + ramBankSize - 1) / ramBankSize) bank = 0 ∨
      (ramOffsetOf ((ramSize + ramBankSize - 1) / ramBankSize) bank).toNat < ramSize := by
  have kept : (ramOffsetOf ((ramSize + ramBankSize - 1) / ramBankSize) bank).toNat ≤
      bank % max ((ramSize + ramBankSize - 1) / ramBankSize) 1 * ramBankSize := by
    rw [ramOffsetOf, UInt64.toNat_ofNat']
    exact Nat.mod_le ..
  have last : bank % max ((ramSize + ramBankSize - 1) / ramBankSize) 1 <
      max ((ramSize + ramBankSize - 1) / ramBankSize) 1 := Nat.mod_lt _ (by omega)
  rw [ramBankSize] at *
  by_cases zero : (ramOffsetOf ((ramSize + 0x2000 - 1) / 0x2000) bank).toNat = 0
  · exact .inl (UInt64.toNat.inj zero)
  · right
    omega

section

variable {romBanks romSize ramSize : Nat} {b : Banks}

theorem Fits.enableRam (fits : b.Fits romSize ramSize) (v : UInt8) :
    (b.enableRam v).Fits romSize ramSize := ⟨fits.rom0, fits.rom1, fits.ram⟩

theorem Fits.selectRom (fits : b.Fits romSize ramSize)
    (inRom : InRom romSize (romOffsetOf romBanks bank)) :
    (b.selectRom romBanks bank).Fits romSize ramSize := ⟨fits.rom0, inRom, fits.ram⟩

theorem Fits.selectRam (fits : b.Fits romSize ramSize) (bank : Nat) :
    (b.selectRam ((ramSize + ramBankSize - 1) / ramBankSize) bank).Fits romSize ramSize :=
  ⟨fits.rom0, fits.rom1, ramOffsetOf_lt bank⟩

/-- Whatever the latches of an MBC1 are, they resolve to banks that the cartridge has. -/
theorem mbc1Resolve_fits (b : Banks)
    (inRom : ∀ bank, InRom romSize (romOffsetOf romBanks bank)) :
    (b.mbc1Resolve romBanks ((ramSize + ramBankSize - 1) / ramBankSize)).Fits romSize ramSize :=
  ⟨inRom _, inRom _, ramOffsetOf_lt _⟩

/-- Every controller resolves its latches to banks that the cartridge has. -/
theorem Step.fits (step : Step romBanks ((ramSize + ramBankSize - 1) / ramBankSize) chip b d)
    (banks : 1 ≤ romBanks) (most : romBanks ≤ 512) (image : romBanks * romBankSize ≤ romSize)
    (fits : b.Fits romSize ramSize) : d.Fits romSize ramSize := by
  have inRom := romOffsetOf_inRom banks most image
  have latched : ∀ low high,
      Fits romSize ramSize { b with romSelectLow := low, romSelectHigh := high } := by
    intro _ _
    exact ⟨fits.rom0, fits.rom1, fits.ram⟩
  have selected : ∀ select, Fits romSize ramSize { b with ramSelect := select } := by
    intro _
    exact ⟨fits.rom0, fits.rom1, fits.ram⟩
  cases step with
  | mbc1 address v => exact mbc1Resolve_fits _ inRom
  | mbc2 address v =>
    unfold mbc2Write
    split
    · exact fits
    · split
      · exact fits.enableRam v
      · exact (latched _ b.romSelectHigh).selectRom (inRom _)
  | mbc3 address v =>
    unfold mbc3Write
    split
    · exact fits.enableRam v
    · exact (latched _ b.romSelectHigh).selectRom (inRom _)
  | mbc3Ram v bank => exact (selected v).selectRam v.toNat
  | mbc3Clock v register => exact selected v
  | mbc5 address v =>
    unfold mbc5Write
    split
    · exact (fits.enableRam v).selectRom (inRom _)
    · split
      · exact (latched v b.romSelectHigh).selectRom (inRom _)
      · split
        · exact (latched b.romSelectLow (v % 2)).selectRom (inRom _)
        · split
          · exact (selected (v % 16)).selectRam (v % 16).toNat
          · exact fits

/-- Only an MBC5 takes a RAM select above the clock registers of an MBC3. -/
theorem Step.selectFits (step : Step romBanks ramBanks chip b d) (fits : b.SelectFits chip) :
    d.SelectFits chip := by
  cases step with
  | mbc1 address v =>
    have same : (b.mbc1Write romBanks ramBanks address v).ramSelect = b.ramSelect := by
      unfold mbc1Write mbc1Resolve mbc1Latch enableRam
      repeat' split
      all_goals rfl
    exact same.trans fits
  | mbc2 address v =>
    have same : (b.mbc2Write romBanks address v).ramSelect = b.ramSelect := by
      unfold mbc2Write enableRam selectRom
      repeat' split
      all_goals rfl
    exact same.trans fits
  | mbc3 address v =>
    have same : (b.mbc3Write romBanks address v).ramSelect = b.ramSelect := by
      unfold mbc3Write enableRam selectRom
      split <;> rfl
    exact Nat.le_trans (Nat.le_of_eq (congrArg UInt8.toNat same)) fits
  | mbc3Ram v bank =>
    have bank := UInt8.lt_iff_toNat_lt.mp bank
    exact Nat.le_trans (Nat.le_of_lt bank) (by decide)
  | mbc3Clock v register => exact UInt8.le_iff_toNat_le.mp register
  | mbc5 address v =>
    have select : (b.mbc5Write romBanks ramBanks address v).ramSelect = b.ramSelect ∨
        (b.mbc5Write romBanks ramBanks address v).ramSelect = v % 16 := by
      unfold mbc5Write enableRam selectRom selectRam
      repeat' split
      all_goals first | exact .inl rfl | exact .inr rfl
    show _ ≤ _
    rcases select with same | taken
    · rw [same]
      exact fits
    · rw [taken]
      simp only [UInt8.toNat_mod, UInt8.reduceToNat]
      omega

end

end Banks

/-! Whole consoles. -/

namespace Console

/-- The hardware has the sizes that the model and the cartridge call for, and the fingerprint of the
cartridge. -/
structure Sized (c : Console) : Prop where
  cart : c.cart.WellFormed
  identity : c.hw.identity = c.cart.identity
  cartRam : c.hw.cartRam.size = c.cart.ramSize
  vram : c.hw.vram.size = c.hw.model.vramSize
  wram : c.hw.wram.size = c.hw.model.wramSize

/-- The hardware also knows how many banks the cartridge has. -/
structure Fits (c : Console) : Prop extends c.Sized where
  romBanks : c.hw.romBanks = UInt64.ofNat c.cart.romBanks

/-- There is something to read at every address. -/
structure Readable (c : Console) : Prop extends c.Fits where
  banks : c.hw.banks.Fits c.cart.image.size c.hw.cartRam.size
  ramSelect : c.cart.controller = .mbc3 → c.hw.banks.ramSelect.toNat ≤ 0x0C

/-- What a console relies on while it runs. -/
structure Sound (c : Console) : Prop extends c.Readable where
  clock : c.hw.clock.Sound
  oamDma : c.hw.oamDma.Sound
  vramDma : c.hw.vramDma.Sound

/-- What more holds of a console that was switched on and never restored. -/
structure Orderly (c : Console) : Prop extends c.Fits where
  banks : c.hw.banks.Fits c.cart.image.size c.hw.cartRam.size
  ramSelect : c.hw.banks.SelectFits c.cart.controller
  clock : c.hw.clock.Ranged
  timer : c.hw.timer.Ranged
  oamDma : c.hw.oamDma.Ranged
  vramDma : c.hw.vramDma.Ranged
  requested : c.hw.requested < 0x20

theorem Sized.evolves {c d : Console} (sized : c.Sized) (e : c.Evolves ticks d) : d.Sized where
  cart := e.cart ▸ sized.cart
  identity := by rw [e.identity, e.cart, sized.identity]
  cartRam := by rw [e.cartRam, e.cart, sized.cartRam]
  vram := by rw [e.vram, e.model, sized.vram]
  wram := by rw [e.wram, e.model, sized.wram]

namespace Fits

theorem toNat_romBanks {c : Console} (fits : c.Fits) : c.hw.romBanks.toNat = c.cart.romBanks := by
  have most := fits.cart.mostBanks
  rw [fits.romBanks, UInt64.toNat_ofNat']
  exact Nat.mod_eq_of_lt (by omega)

theorem evolves {c d : Console} (fits : c.Fits) (e : c.Evolves ticks d) : d.Fits where
  toSized := fits.toSized.evolves e
  romBanks := by rw [e.romBanks, e.cart, fits.romBanks]

/-- Whatever the controller is told, its offsets stay inside ROM and RAM. -/
theorem banks_evolves {c d : Console} (fits : c.Fits) (e : c.Evolves ticks d)
    (banks : c.hw.banks.Fits c.cart.image.size c.hw.cartRam.size) :
    d.hw.banks.Fits d.cart.image.size d.hw.cartRam.size := by
  rw [e.cart, e.cartRam]
  refine kept_of_steps (fun _ _ step holds => Banks.Step.fits step ?_ ?_ ?_ holds) e.banks banks
  · rw [fits.toNat_romBanks]
    exact Nat.le_of_succ_le fits.cart.banks
  · rw [fits.toNat_romBanks]
    exact fits.cart.mostBanks
  · rw [fits.toNat_romBanks]
    exact fits.cart.image

end Fits

theorem Readable.evolves {c d : Console} (readable : c.Readable) (e : c.Evolves ticks d) :
    d.Readable where
  toFits := readable.toFits.evolves e
  banks := readable.toFits.banks_evolves e readable.banks
  ramSelect mbc3 := by
    have chip : c.cart.controller = .mbc3 := e.cart ▸ mbc3
    have select : d.hw.banks.SelectFits .mbc3 := by
      have steps := e.banks
      rw [show c.BanksStep = Banks.Step _ _ .mbc3 by rw [BanksStep, chip]] at steps
      exact kept_of_steps (fun _ _ => Banks.Step.selectFits) steps (readable.ramSelect chip)
    exact select

theorem Sound.evolves {c d : Console} (sound : c.Sound) (e : c.Evolves ticks d) : d.Sound where
  toReadable := sound.toReadable.evolves e
  clock := kept_of_steps (fun _ _ => Clock.Step.sound) e.clock sound.clock
  oamDma := kept_of_steps (fun _ _ => OamDma.Step.sound) e.oamDma sound.oamDma
  vramDma := kept_of_steps (fun _ _ => VramDma.Step.sound) e.vramDma sound.vramDma

theorem Orderly.evolves {c d : Console} (orderly : c.Orderly) (e : c.Evolves ticks d) :
    d.Orderly where
  toFits := orderly.toFits.evolves e
  banks := orderly.toFits.banks_evolves e orderly.banks
  ramSelect := by
    rw [e.cart]
    exact kept_of_steps (fun _ _ => Banks.Step.selectFits) e.banks orderly.ramSelect
  clock := kept_of_steps (fun _ _ => Clock.Step.ranged) e.clock orderly.clock
  timer := kept_of_steps (fun _ _ => Timer.Step.ranged) e.timer orderly.timer
  oamDma := kept_of_steps (fun _ _ => OamDma.Step.ranged) e.oamDma orderly.oamDma
  vramDma := kept_of_steps (fun _ _ => VramDma.Step.ranged) e.vramDma orderly.vramDma
  requested := e.requested orderly.requested

theorem Orderly.sound {c : Console} (orderly : c.Orderly) : c.Sound where
  toFits := orderly.toFits
  banks := orderly.banks
  ramSelect mbc3 := by
    have select := orderly.ramSelect
    rw [mbc3] at select
    exact select
  clock := orderly.clock.sound
  oamDma := orderly.oamDma.sound
  vramDma := orderly.vramDma.toSound

theorem powerOn_orderly {game : Cartridge} (wellFormed : game.WellFormed) (model : Model) :
    (powerOn game model).Orderly where
  cart := wellFormed
  identity := rfl
  romBanks := rfl
  cartRam := Memory.size_zeros _
  vram := Memory.size_zeros _
  wram := Memory.size_zeros _
  banks := by
    have banks := wellFormed.banks
    have image := wellFormed.image
    rw [romBankSize] at image
    refine ⟨show Banks.InRom _ 0 from ⟨?_, by decide⟩,
      show Banks.InRom _ (UInt64.ofNat romBankSize) from ⟨?_, by decide⟩, .inl rfl⟩
    · show 0 + 0x4000 ≤ game.image.size
      omega
    · show 0x4000 + 0x4000 ≤ game.image.size
      omega
  ramSelect := by
    show Banks.SelectFits game.controller _
    cases game.controller <;> simp [Banks.SelectFits, powerOn, Hardware.powerOn]
  clock := show Clock.Ranged {} from
    ⟨⟨by decide, by decide, by decide⟩, by decide, by decide⟩
  timer := show Timer.Ranged { div := 0xABCC } from ⟨by decide, by decide⟩
  oamDma := show OamDma.Ranged {} from ⟨nofun, nofun, nofun, nofun⟩
  vramDma := show VramDma.Ranged { destination := 0x8000 } from
    ⟨⟨by decide, by decide, nofun⟩, by decide, by decide, nofun⟩
  requested := by
    show (ioAfterBoot model).read Io.interruptFlag < 0x20
    have flag : (ioAfterBoot model).read Io.interruptFlag = 0x01 := by
      unfold ioAfterBoot
      cases model with
      | monochrome =>
        rw [Segment.read_write_ne _ (by decide), Segment.read_write_ne _ (by decide),
          Segment.read_write_same _ (by decide)]
      | color =>
        rw [Segment.read_write_ne _ (by decide), Segment.read_write_ne _ (by decide),
          Segment.read_write_ne _ (by decide), Segment.read_write_same _ (by decide)]
    rw [flag]
    decide

end Console

end GameBoy
