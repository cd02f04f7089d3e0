import GameBoy.Proofs.Safety
import GameBoy.Proofs.Simulation

/-!
A sound machine without devices runs without leaving its memories or the width of a number, as long
as there is room to count the time that transfers take and the ticks since power-on.
-/

namespace GameBoy

namespace Machine

/-! Clocks. -/

/-- Work that takes four clocks for each access and delay. -/
private def TakesClocks (α : Type) (u : Usage) (x _ : Exec σ α) : Prop :=
  ∀ s : Step σ, s.clocks.toNat + 4 * u.most < 2 ^ 32 →
    s.clocks.toNat + 4 * u.least ≤ (x.run s).2.clocks.toNat ∧
      (x.run s).2.clocks.toNat ≤ s.clocks.toNat + 4 * u.most

private theorem four_more (clocks : UInt32) (room : clocks.toNat + 4 * 1 < 2 ^ 32) :
    clocks.toNat + 4 * 1 ≤ (clocks + 4).toNat ∧ (clocks + 4).toNat ≤ clocks.toNat + 4 * 1 := by
  simp only [UInt32.toNat_add, UInt32.reduceToNat]
  omega

private theorem takesClocks_congruence : Exec.Congruence (TakesClocks (σ := σ)) where
  pure a := fun s _ => ⟨Nat.le_refl _, Nat.le_refl _⟩
  bind {_ _ u w x _ f _} first second := fun s room => by
    have room : s.clocks.toNat + 4 * (u.most + w.most) < 2 ^ 32 := room
    obtain ⟨least, most⟩ := first s (by omega)
    obtain ⟨leastAfter, mostAfter⟩ := second (x.run s).1 (x.run s).2 (by omega)
    show
      s.clocks.toNat + 4 * (u.least + w.least) ≤
          ((f (x.run s).1).run (x.run s).2).2.clocks.toNat ∧
        ((f (x.run s).1).run (x.run s).2).2.clocks.toNat ≤
          s.clocks.toNat + 4 * (u.most + w.most)
    omega
  weaken {_ u w _ _} related within := fun s room => by
    obtain ⟨-, least, most⟩ := within
    have := related s (by omega)
    omega
  idle := fun s room => four_more s.clocks room
  readByte address := fun s room => four_more s.clocks room
  writeByte address v := fun s room => four_more s.clocks room
  hardware := fun s _ => ⟨Nat.le_refl _, Nat.le_refl _⟩
  processor f _ := fun s _ => ⟨Nat.le_refl _, Nat.le_refl _⟩
  switchSpeed := fun s _ => ⟨Nat.le_refl _, Nat.le_refl _⟩
  raise fault := fun s _ => ⟨Nat.le_refl _, Nat.le_refl _⟩

/-- An instruction takes between four and 28 clocks. -/
theorem clocks_step (m : Machine σ) : 4 ≤ m.step.1.toNat ∧ m.step.1.toNat ≤ 28 :=
  takesClocks_congruence.step { machine := m } (show 0 + 4 * 7 < 2 ^ 32 by decide)

/-! Accesses. -/

theorem read?_eq (m : Machine σ) (bare : m.handlers = []) (sound : m.console.Sound)
    (address : UInt16) : m.read? address = some (m.read address) := by
  rw [read?, read, m.route_bare bare]
  by_cases shown : m.shows (.ofAddress address)
  · rw [if_pos shown]
    dsimp only
    rw [sound.readRegion?_eq (Region.spans_ofAddress address)]
    rfl
  · rw [if_neg shown]

theorem write?_eq (m : Machine σ) (bare : m.handlers = []) (sound : m.console.Sound)
    (room : m.console.hw.stall.toNat + 2048 < 2 ^ 32) (address : UInt16) (v : UInt8) :
    m.write? address v = some (m.write address v) := by
  rw [write?, write, m.route_bare bare]
  by_cases shown : m.shows (.ofAddress address)
  · rw [if_pos shown]
    dsimp only
    rw [sound.writeRegion?_eq (Region.spans_ofAddress address) v room]
    rfl
  · rw [if_neg shown]

theorem stall_write_le (m : Machine σ) (bare : m.handlers = [])
    (room : m.console.hw.stall.toNat + 2048 < 2 ^ 32) (address : UInt16) (v : UInt8) :
    (m.write address v).console.hw.stall.toNat ≤ m.console.hw.stall.toNat + 2048 := by
  rw [write, m.route_bare bare]
  by_cases shown : m.shows (.ofAddress address)
  · rw [if_pos shown]
    exact m.console.stall_writeRegion_le _ address v room
  · rw [if_neg shown]
    exact Nat.le_add_right ..

/-! Instructions. -/

theorem lookup_map_const {value : β} {f : Nat → UInt16} (keys : List Nat)
    (present : key ∈ keys.map f) : (keys.map fun n => (f n, value)).lookup key = some value := by
  induction keys with
  | nil => exact absurd present (List.not_mem_nil)
  | cons n rest ih =>
    rw [List.map_cons, List.lookup_cons]
    by_cases same : key = f n
    · rw [same, beq_self_eq_true]
    · rw [beq_false_of_ne same]
      exact ih ((List.mem_cons.mp present).resolve_left same)

theorem lookup_everywhere (handler : Handler σ) (address : UInt16) :
    handler.everywhere.lookup address = some handler := by
  have present : address ∈ (List.range 0x10000).map UInt16.ofNat :=
    List.mem_map.mpr ⟨address.toNat, List.mem_range.mpr address.toNat_lt, UInt16.ofNat_toNat⟩
  unfold Handler.everywhere
  exact lookup_map_const _ present

theorem route_of_lookup {m : Machine σ} (taken : m.handlers.lookup address = some handler) :
    m.route address = .handler handler := by
  rw [route, taken]

/-- Every access of a watched machine is seen. -/
theorem route_watched (m : Machine σ) (address : UInt16) :
    m.watched.route address = .handler (.watch m.shows) :=
  route_of_lookup (lookup_everywhere _ _)

/-- A watching device sees that reads are in order, and passes on what they give. -/
theorem read_watched (m : Machine σ) (bare : m.handlers = []) (sound : m.console.Sound)
    (address : UInt16) : m.watched.read address = ((m.read address).1, m.watched) := by
  have inOrder := sound.readRegion?_eq (Region.spans_ofAddress address)
  rw [read, route_watched, read, m.route_bare bare]
  by_cases shown : m.shows (.ofAddress address)
  · simp [Handler.watch, shown, watched, inOrder]
  · simp [Handler.watch, shown]

theorem write_watched (m : Machine σ) (bare : m.handlers = []) (sound : m.console.Sound)
    (room : m.console.hw.stall.toNat + 2048 < 2 ^ 32) (address : UInt16) (v : UInt8) :
    m.watched.write address v = (m.write address v).watched := by
  have inOrder := sound.writeRegion?_eq (Region.spans_ofAddress address) v room
  rw [write, route_watched, write, m.route_bare bare]
  by_cases shown : m.shows (.ofAddress address)
  · simp [Handler.watch, shown, watched, inOrder]
    exact ⟨rfl, rfl, rfl, rfl⟩
  · simp [Handler.watch, shown, watched]

/-- Work that a watched machine does just as the machine itself, with all accesses in order. -/
private def Watchable (α : Type) (u : Usage) (x : Exec σ α) (y : Exec Bool α) : Prop :=
  ∀ s : Step σ, s.machine.handlers = [] → s.machine.console.Sound →
    s.machine.console.hw.stall.toNat + 2048 * u.writes < 2 ^ 32 →
      y.run ⟨s.machine.watched, s.clocks⟩ =
          ((x.run s).1, ⟨(x.run s).2.machine.watched, (x.run s).2.clocks⟩) ∧
        s.machine.Evolves 0 (x.run s).2.machine ∧
        (x.run s).2.machine.console.hw.stall.toNat ≤
          s.machine.console.hw.stall.toNat + 2048 * u.writes

theorem run_readByte (m : Machine σ) (clocks : UInt32) (address : UInt16) :
    (Exec.readByte address).run ⟨m, clocks⟩ =
      ((m.read address).1, ⟨(m.read address).2, clocks + 4⟩) := rfl

theorem run_writeByte (m : Machine σ) (clocks : UInt32) (address : UInt16) (v : UInt8) :
    (Exec.writeByte address v).run ⟨m, clocks⟩ = ((), ⟨m.write address v, clocks + 4⟩) := rfl

private theorem watchable_congruence : Exec.Congruence (Watchable (σ := σ)) where
  pure a := fun s _ _ _ => ⟨rfl, .refl _, Nat.le_refl _⟩
  bind {_ _ u w x y f g} first second := fun s bare sound room => by
    have room : s.machine.console.hw.stall.toNat + 2048 * (u.writes + w.writes) < 2 ^ 32 := room
    obtain ⟨same, evolves, stall⟩ := first s bare sound (by omega)
    obtain ⟨sameAfter, evolvesAfter, stallAfter⟩ := second (x.run s).1 (x.run s).2
      (evolves.bare bare) (sound.evolves evolves.console) (by omega)
    refine ⟨?_, evolves.trans evolvesAfter, ?_⟩
    · rw [StateT.run_bind, same]
      exact sameAfter
    · show ((f (x.run s).1).run (x.run s).2).2.machine.console.hw.stall.toNat ≤
        s.machine.console.hw.stall.toNat + 2048 * (u.writes + w.writes)
      omega
  weaken {_ u w x _} related within := fun s bare sound room => by
    obtain ⟨writes, -, -⟩ := within
    obtain ⟨same, evolves, stall⟩ := related s bare sound (by omega)
    exact ⟨same, evolves, by omega⟩
  idle := fun s _ _ _ => ⟨rfl, .refl _, Nat.le_refl _⟩
  readByte address := fun ⟨m, clocks⟩ bare sound _ => by
    have still := m.read_bare bare address
    rw [run_readByte, run_readByte, read_watched m bare sound, still]
    exact ⟨rfl, .refl m, Nat.le_refl _⟩
  writeByte address v := fun ⟨m, clocks⟩ bare sound room => by
    rw [run_writeByte, run_writeByte, write_watched m bare sound room]
    exact ⟨rfl, m.write_evolves bare address v, m.stall_write_le bare room address v⟩
  hardware := fun s _ _ _ => ⟨rfl, .refl _, Nat.le_refl _⟩
  processor f _ := fun s _ _ _ =>
    ⟨rfl, s.machine.mapHardware_evolves (fun hw => { hw with cpu := f hw })
        { Console.Evolves.refl _ with }, Nat.le_refl _⟩
  switchSpeed := fun s _ _ _ => by
    refine ⟨rfl, s.machine.mapHardware_evolves _ s.machine.console.switchSpeed_evolves, ?_⟩
    have same : s.machine.console.hw.switchSpeed.stall = s.machine.console.hw.stall := by
      unfold Hardware.switchSpeed
      split <;> rfl
    exact Nat.le_of_eq (congrArg UInt32.toNat same)
  raise fault := fun s _ _ _ => by
    have raised := s.machine.console.raise_evolves fault
    exact ⟨rfl, s.machine.mapConsole_evolves (f := (·.raise fault)) raised, Nat.le_refl _⟩

/-- All accesses of an instruction are in order. Each of its writes may start a transfer of 128 blocks
into video RAM. -/
theorem step?_eq (m : Machine σ) (bare : m.handlers = []) (sound : m.console.Sound)
    (room : m.console.hw.stall.toNat + 4096 < 2 ^ 32) :
    m.step? = some m.step ∧
      m.step.2.console.hw.stall.toNat ≤ m.console.hw.stall.toNat + 4096 := by
  obtain ⟨same, evolves, stall⟩ := watchable_congruence.step { machine := m } bare sound room
  refine ⟨?_, stall⟩
  have watched : m.watched.step = (m.step.1, m.step.2.watched) := by
    show (((Exec.step (σ := Bool)).run { machine := m.watched }).2.clocks,
      ((Exec.step (σ := Bool)).run { machine := m.watched }).2.machine) = _
    rw [same]
    rfl
  have moved : { m with console := m.step.2.console } = m.step.2 := (m.step_evolves bare).eq
  rw [step?, watched]
  show some (m.step.1, { m with console := m.step.2.console }) = some m.step
  rw [moved]

/-! Processor clocks. -/

/-- An interrupt writes twice, and its clocks keep the next instruction waiting. -/
theorem dispatch?_eq (m : Machine σ) (bare : m.handlers = []) (sound : m.console.Sound)
    (room : m.console.hw.stall.toNat + 4096 < 2 ^ 32) (line : Interrupt) :
    m.dispatch? line = some (m.dispatch line) := by
  have high := m.write_evolves bare (m.console.hw.cpu.sp - 1) (Word.high m.console.hw.cpu.pc)
  have stall := m.stall_write_le bare (by omega) (m.console.hw.cpu.sp - 1)
    (Word.high m.console.hw.cpu.pc)
  rw [dispatch?, m.write?_eq bare sound (by omega), Option.bind_eq_bind, Option.bind_some,
    write?_eq _ (high.bare bare) (sound.evolves high.console) (by omega)]
  rfl

/-- What serving interrupts does between instructions. -/
theorem serveInterrupts_cases (m : Machine σ) :
    m.serveInterrupts = m ∨ m.serveInterrupts = m.wake ∨
      (m.serveInterrupts.console.hw.cyclesPending = dispatchClocks ∧
        m.console.hw.cyclesPending = 0) := by
  unfold serveInterrupts
  split
  · rename_i between
    cases m.console.hw.nextInterrupt? with
    | none => exact .inl rfl
    | some line =>
      dsimp only
      split
      · exact .inr (.inr ⟨rfl, between⟩)
      · exact .inr (.inl rfl)
  · exact .inl rfl

theorem serveInterrupts?_eq (m : Machine σ) (bare : m.handlers = []) (sound : m.console.Sound)
    (room : m.console.hw.cyclesPending = 0 → m.console.hw.stall.toNat + 4096 < 2 ^ 32) :
    m.serveInterrupts? = some m.serveInterrupts := by
  unfold serveInterrupts? serveInterrupts
  by_cases between : m.console.hw.cyclesPending = 0
  · rw [if_pos between, if_pos between]
    cases m.console.hw.nextInterrupt? with
    | none => rfl
    | some line =>
      dsimp only
      split
      · exact m.wake.dispatch?_eq bare (sound.evolves m.wake_evolves.console) (room between) line
      · rfl
  · rw [if_neg between, if_neg between]

theorem beginInstruction?_eq (m : Machine σ) (bare : m.handlers = []) (sound : m.console.Sound)
    (room : m.console.hw.cyclesPending = 0 → m.console.hw.stall.toNat + 8192 < 2 ^ 32) :
    m.beginInstruction? = some m.beginInstruction ∧
      m.beginInstruction.console.hw.cyclesPending ≠ 0 ∧
      (m.console.hw.cyclesPending ≠ 0 → m.beginInstruction = m) ∧
      (m.console.hw.cyclesPending = 0 → 4 ≤ m.beginInstruction.console.hw.cyclesPending.toNat) := by
  unfold beginInstruction? beginInstruction
  by_cases between : m.console.hw.cyclesPending = 0
  · have room := room between
    obtain ⟨least, most⟩ := m.clocks_step
    obtain ⟨inOrder, stall⟩ := m.step?_eq bare sound (by omega)
    have pending : (m.step.1 + m.step.2.console.hw.stall).toNat =
        m.step.1.toNat + m.step.2.console.hw.stall.toNat := by
      rw [UInt32.toNat_add]
      omega
    have longer : 4 ≤ (m.step.1 + m.step.2.console.hw.stall).toNat := by omega
    refine ⟨?_, ?_, fun waiting => absurd between waiting, fun _ => ?_⟩
    · rw [if_pos between, if_pos between, inOrder, Option.bind_eq_bind, Option.bind_some]
      dsimp only
      rw [fit?_eq (by omega), Option.bind_eq_bind, Option.bind_some, ← pending,
        UInt32.ofNat_toNat]
      rfl
    · rw [if_pos between]
      intro zero
      have zero : m.step.1 + m.step.2.console.hw.stall = 0 := zero
      rw [zero] at longer
      exact absurd longer (by decide)
    · rw [if_pos between]
      exact longer
  · rw [if_neg between, if_neg between]
    exact ⟨rfl, between, fun _ => rfl, fun zero => absurd zero between⟩

theorem hw_mapHardware (m : Machine σ) (f : Hardware → Hardware) :
    (m.mapHardware f).console.hw = f m.console.hw := rfl

/-- The processor's part of a clock, of a machine whose timer and transfer have had theirs. -/
private theorem finishClock_eq (m : Machine σ) (bare : m.handlers = []) (sound : m.console.Sound)
    (room : m.console.hw.cyclesPending = 0 → m.console.hw.stall.toNat + 8192 < 2 ^ 32) :
    ((m.serveInterrupts?.bind fun n => n.beginInstruction?.bind fun n =>
        (minus? n.console.hw.cyclesPending.toNat 1).bind fun pending =>
          some (n.mapHardware fun hw => { hw with cyclesPending := UInt32.ofNat pending })) =
      some (m.serveInterrupts.beginInstruction.mapHardware
        fun hw => { hw with cyclesPending := hw.cyclesPending - 1 })) ∧
    (m.serveInterrupts.beginInstruction.console.hw.cyclesPending - 1 = 0 →
      m.serveInterrupts.beginInstruction.console.hw.stall = m.console.hw.stall) := by
  have moved := m.serveInterrupts_evolves bare
  have kept : (m.serveInterrupts.console.hw.stall = m.console.hw.stall ∧
        m.serveInterrupts.console.hw.cyclesPending = m.console.hw.cyclesPending) ∨
      (m.serveInterrupts.console.hw.cyclesPending = dispatchClocks ∧
        m.console.hw.cyclesPending = 0) := by
    rcases m.serveInterrupts_cases with same | woken | dispatched
    · rw [same]
      exact .inl ⟨rfl, rfl⟩
    · rw [woken]
      exact .inl ⟨rfl, rfl⟩
    · exact .inr dispatched
  have roomAfter : m.serveInterrupts.console.hw.cyclesPending = 0 →
      m.serveInterrupts.console.hw.stall.toNat + 8192 < 2 ^ 32 := by
    intro between
    rcases kept with ⟨stall, pending⟩ | ⟨pending, -⟩
    · rw [stall]
      exact room (pending.symm.trans between)
    · exact absurd (pending.symm.trans between) (by decide)
  obtain ⟨inOrder, running, waiting, began⟩ := m.serveInterrupts.beginInstruction?_eq
    (moved.bare bare) (sound.evolves moved.console) roomAfter
  constructor
  · have positive : 1 ≤ m.serveInterrupts.beginInstruction.console.hw.cyclesPending.toNat :=
      Nat.one_le_iff_ne_zero.mpr fun zero => running (UInt32.toNat.inj zero)
    have fewer :
        UInt32.ofNat (m.serveInterrupts.beginInstruction.console.hw.cyclesPending.toNat - 1) =
          m.serveInterrupts.beginInstruction.console.hw.cyclesPending - 1 := by
      rw [UInt32.ofNat_sub positive, UInt32.ofNat_toNat]
      rfl
    rw [m.serveInterrupts?_eq bare sound fun between => Nat.lt_of_le_of_lt (by omega) (room between),
      Option.bind_some, inOrder, Option.bind_some, minus?_eq positive, Option.bind_some, fewer]
    rfl
  · intro ended
    by_cases between : m.serveInterrupts.console.hw.cyclesPending = 0
    · have long := began between
      have one : m.serveInterrupts.beginInstruction.console.hw.cyclesPending = 1 :=
        (UInt32.sub_eq_iff_eq_add.mp ended).trans (UInt32.zero_add 1)
      rw [one] at long
      exact absurd long (by decide)
    · rw [waiting between] at ended ⊢
      rcases kept with ⟨stall, -⟩ | ⟨pending, -⟩
      · exact stall
      · rw [pending] at ended
        exact absurd ended (by decide)

/-- After the clock the processor is between instructions only if it was in the middle of one before,
and then no time was charged. -/
theorem clock?_eq (m : Machine σ) (bare : m.handlers = []) (sound : m.console.Sound)
    (room : m.console.hw.cyclesPending = 0 → m.console.hw.stall.toNat + 8192 < 2 ^ 32) :
    m.clock? = some m.clock ∧
      (m.clock.console.hw.cyclesPending = 0 → m.clock.console.hw.stall = m.console.hw.stall) := by
  have beside := m.clockChips_beside
  have transfer := Console.Sound.clockOamDma?_eq (c := (m.mapHardware (·.clockTimer)).console)
    (sound.evolves m.clockTimer_evolves.console)
  have moved := m.clockChips_evolves
  obtain ⟨finished, charged⟩ := finishClock_eq m.clockChips (moved.bare bare)
    (sound.evolves moved.console) (by rw [beside.stall, beside.cyclesPending]; exact room)
  constructor
  · rw [clock?]
    dsimp only
    rw [transfer]
    exact finished
  · rw [clock, hw_mapHardware]
    exact fun ended => (charged ended).trans beside.stall

/-! Ticks. -/

/-- There is room to count the next tick, and the time that the transfers during it can take. -/
structure HasRoom (m : Machine σ) : Prop where
  cycleCount : m.console.hw.cycleCount.toNat < 2 ^ 64 - 1
  stall : m.console.hw.stall.toNat < 2 ^ 32 - 2 ^ 13

/-- At most one of the two clocks of a tick at double speed begins an instruction. -/
theorem clocksOfTick?_eq (m : Machine σ) (bare : m.handlers = []) (sound : m.console.Sound)
    (room : m.console.hw.stall.toNat < 2 ^ 32 - 2 ^ 13) :
    m.clocksOfTick? = some m.clocksOfTick := by
  obtain ⟨first, charged⟩ := m.clock?_eq bare sound fun _ => by omega
  have moved := m.clock_evolves bare
  obtain ⟨second, -⟩ := m.clock.clock?_eq (moved.bare bare) (sound.evolves moved.console)
    fun between => by
      rw [charged between]
      omega
  rw [clocksOfTick?, clocksOfTick]
  split
  · rw [first, Option.bind_eq_bind, Option.bind_some, second]
  · exact first

theorem tick?_eq (m : Machine σ) (bare : m.handlers = []) (sound : m.console.Sound)
    (room : m.HasRoom) : m.tick? = some m.tick := by
  have clocked := m.clocksOfTick_evolves bare
  have cartridge := (sound.evolves clocked.console).tickCartridge?_eq
  have moved := clocked.console.trans (Console.tickCartridge_evolves _)
  have counted : m.clocksOfTick.console.tickCartridge.hw.cycleCount = m.console.hw.cycleCount :=
    moved.cycleCount.trans (UInt64.add_zero _)
  have next : (m.console.hw.cycleCount + 1).toNat = m.console.hw.cycleCount.toNat + 1 := by
    have := room.cycleCount
    simp only [UInt64.toNat_add, UInt64.reduceToNat]
    omega
  have fits : fit? 64 (m.clocksOfTick.console.tickCartridge.hw.cycleCount.toNat + 1) =
      some (m.clocksOfTick.console.tickCartridge.hw.cycleCount + 1).toNat := by
    have := room.cycleCount
    rw [counted, next, fit?_eq (by omega)]
  rw [tick?, m.clocksOfTick?_eq bare sound room.stall, Option.bind_eq_bind, Option.bind_some,
    cartridge, Option.bind_eq_bind, Option.bind_some]
  dsimp only
  rw [fits, Option.bind_eq_bind, Option.bind_some, UInt64.ofNat_toNat]
  rfl

/-- There is room at the beginning of every tick of a run. -/
def HasRoomToRun : Nat → Machine σ → Prop
  | 0, _ => True
  | count + 1, m => m.HasRoom ∧ (m.tick.fault = none → HasRoomToRun count m.tick.machine)

theorem run?_eq (count : Nat) (m : Machine σ) (bare : m.handlers = []) (sound : m.console.Sound)
    (room : HasRoomToRun count m) (journal : Journal) :
    run? count m journal = some (run count m journal) := by
  induction count generalizing m journal with
  | zero => rfl
  | succ count ih =>
    have ticked := m.tick_evolves bare
    rw [run?, m.tick?_eq bare sound room.1, Option.bind_eq_bind, Option.bind_some, run]
    cases fault : m.tick.fault with
    | some fault => rfl
    | none =>
      exact ih m.tick.machine (ticked.bare bare) (sound.evolves ticked.console) (room.2 fault) _

end Machine

end GameBoy
