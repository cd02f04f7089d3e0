import GameBoy.Proofs.Execution

/-!
What an instruction costs: four clocks for each byte of it, for each byte that it loads or stores,
and for each delay. Nothing else matters. Main statement: `step_cost`.
-/

namespace GameBoy

/-- The form of a place, without what is named in it. -/
def Place.kind : Place → Place
  | .register _ => .register .a
  | .indirect _ => .indirect .hl
  | .direct _ => .direct 0
  | .highDirect _ => .highDirect 0
  | p => p

def Source.kind : Source → Source
  | .place p => .place p.kind
  | .immediate _ => .immediate 0

/-- The accesses that a place takes. -/
def Place.traffic : Place → Nat
  | .register _ => 0
  | _ => 1

def Source.traffic : Source → Nat
  | .place p => p.traffic
  | .immediate _ => 0

namespace Instruction

/-- The kind of an instruction: what is left of it without its operands, but for their form. -/
def kind : Instruction → Instruction
  | .load target source => .load target.kind source.kind
  | .loadPair _ _ => .loadPair .hl 0
  | .storeSp _ => .storeSp 0
  | .loadHlSp _ => .loadHlSp 0
  | .addSp _ => .addSp 0
  | .alu _ source => .alu .add source.kind
  | .inc target => .inc target.kind
  | .dec target => .dec target.kind
  | .incPair _ => .incPair .hl
  | .decPair _ => .decPair .hl
  | .addHl _ => .addHl .hl
  | .push _ => .push .hl
  | .pop _ => .pop .hl
  | .rotateA _ => .rotateA .rlc
  | .shift _ target => .shift .swap target.kind
  | .bit _ target => .bit ⟨0, by decide⟩ target.kind
  | .res _ target => .res ⟨0, by decide⟩ target.kind
  | .set _ target => .set ⟨0, by decide⟩ target.kind
  | .jump condition _ => .jump (condition.map fun _ => .z) 0
  | .jumpRelative condition _ => .jumpRelative (condition.map fun _ => .z) 0
  | .call condition _ => .call (condition.map fun _ => .z) 0
  | .ret condition => .ret (condition.map fun _ => .z)
  | .rst _ => .rst 0
  | .illegal _ => .illegal 0
  | i => i

/-- The bytes that an instruction loads and stores, by the outcome of its condition. -/
def traffic (i : Instruction) (taken : Bool) : Nat :=
  match i with
  | .load target source => source.traffic + target.traffic
  | .alu _ source => source.traffic
  | .bit _ target => target.traffic
  | .inc target | .dec target | .shift _ target | .res _ target | .set _ target =>
    target.traffic + target.traffic
  | .storeSp _ | .push _ | .pop _ | .reti | .rst _ => 2
  | .call _ _ | .ret _ => if taken then 2 else 0
  | _ => 0

end Instruction

theorem Place.length_loads (p : Place) (cpu : Cpu) : (p.slot cpu).loads.length = p.traffic := by
  cases p <;> rfl

theorem Place.length_stores (p : Place) (cpu : Cpu) (v : UInt8) :
    ((p.slot cpu).stores v).length = p.traffic := by
  cases p <;> rfl

theorem Source.length_loads (source : Source) (cpu : Cpu) :
    (source.loads cpu).length = source.traffic := by
  cases source with
  | place p => exact p.length_loads cpu
  | immediate v => rfl

theorem Place.traffic_le (p : Place) : p.traffic ≤ 1 := by
  cases p <;> simp [traffic]

theorem Source.traffic_le (source : Source) : source.traffic ≤ 1 := by
  cases source with
  | place p => exact p.traffic_le
  | immediate v => exact Nat.zero_le 1

theorem Place.size_kind (p : Place) : p.kind.size = p.size := by
  cases p <;> rfl

theorem Place.traffic_kind (p : Place) : p.kind.traffic = p.traffic := by
  cases p <;> rfl

theorem Source.size_kind (source : Source) : source.kind.size = source.size := by
  cases source with
  | place p => exact p.size_kind
  | immediate v => rfl

theorem Source.traffic_kind (source : Source) : source.kind.traffic = source.traffic := by
  cases source with
  | place p => exact p.traffic_kind
  | immediate v => rfl

namespace Instruction

theorem length_traffic (i : Instruction) (m : Machine σ) :
    (i.loads m).length + (i.stores m).length =
      i.traffic (m.console.hw.cpu.f.allow i.guard?) := by
  cases i with
  | load target source =>
    exact congrArg₂ (· + ·) (source.length_loads _) (target.length_stores _ _)
  | alu op source => exact source.length_loads _
  | bit index target => exact target.length_loads _
  | inc target | dec target | shift op target | res index target | set index target =>
    exact congrArg₂ (· + ·) (target.length_loads _) (target.length_stores _ _)
  | call condition address | ret condition =>
    cases allowed : m.console.hw.cpu.f.allow condition
    all_goals
      unfold traffic
      simp only [loads, stores, guard?, entry, allowed]
      rfl
  | _ => rfl

/-- The accesses of an instruction and its delays. -/
def cost (i : Instruction) (taken : Bool) : Nat := i.size + i.traffic taken + i.delays taken

theorem operandSize_kind (i : Instruction) : i.kind.operandSize = i.operandSize := by
  cases i with
  | load target source => exact congrArg₂ (· + ·) target.size_kind source.size_kind
  | alu op source => exact source.size_kind
  | _ => rfl

theorem traffic_kind (i : Instruction) (taken : Bool) : i.kind.traffic taken = i.traffic taken := by
  cases i with
  | load target source => exact congrArg₂ (· + ·) source.traffic_kind target.traffic_kind
  | alu op source => exact source.traffic_kind
  | bit index target => exact target.traffic_kind
  | inc target | dec target | shift op target | res index target | set index target =>
    exact congrArg₂ (· + ·) target.traffic_kind target.traffic_kind
  | _ => rfl

theorem delays_kind (i : Instruction) (taken : Bool) : i.kind.delays taken = i.delays taken := by
  cases i with
  | ret condition => cases condition <;> rfl
  | _ => rfl

theorem cost_kind (i : Instruction) (taken : Bool) : i.kind.cost taken = i.cost taken := by
  rw [cost, cost, size, size, operandSize_kind, traffic_kind, delays_kind]

theorem traffic_le (i : Instruction) (taken : Bool) : i.traffic taken ≤ 2 := by
  cases i with
  | load target source => exact Nat.add_le_add source.traffic_le target.traffic_le
  | alu op source => exact Nat.le_succ_of_le source.traffic_le
  | bit index target => exact Nat.le_succ_of_le target.traffic_le
  | inc target | dec target | shift op target | res index target | set index target =>
    exact Nat.add_le_add target.traffic_le target.traffic_le
  | call condition address | ret condition => cases taken <;> exact Nat.le_of_ble_eq_true rfl
  | _ => exact Nat.le_of_ble_eq_true rfl

/-- The longest instruction is a call: three bytes, two more to push, and a delay. -/
theorem cost_le {i : Instruction} (size : i.size ≤ 3) (taken : Bool) : i.cost taken ≤ 6 := by
  have data := i.traffic_le taken
  cases i with
  | load | alu | inc | dec | shift | bit | res | set =>
    show Instruction.size _ + Instruction.traffic _ taken + 0 ≤ 6
    omega
  | jump condition address | jumpRelative condition offset | call condition address
  | ret condition => cases condition <;> cases taken <;> exact Nat.le_of_ble_eq_true rfl
  | _ => exact Nat.le_of_ble_eq_true rfl

end Instruction

namespace Machine

/-- Both processors are halted, or both run instructions of one kind whose conditions come out the
same. -/
inductive SameCourse (m : Machine σ) (n : Machine τ) : Prop
  | halted (first : m.console.hw.cpu.halted = true) (second : n.console.hw.cpu.halted = true)
  | running (first : m.upcoming = .executes i) (second : n.upcoming = .executes j)
    (kind : i.kind = j.kind)
    (outcome : m.console.hw.cpu.f.allow i.guard? = n.console.hw.cpu.f.allow j.guard?)

variable {m : Machine σ}

theorem size_le_of_executes (bare : m.handlers = []) (executes : m.upcoming = .executes i) :
    i.size ≤ 3 := by
  rw [upcoming_instruction bare (upcoming_executes executes).1] at executes
  cases executes
  exact Instruction.size_decodeAt_le m.code

theorem clocks_executed (bare : m.handlers = []) (executes : m.upcoming = .executes i) :
    m.step.1.toNat = 4 * i.cost (m.console.hw.cpu.f.allow i.guard?) := by
  have bound := Instruction.cost_le (size_le_of_executes bare executes)
    (m.console.hw.cpu.f.allow i.guard?)
  have data := i.length_traffic m
  have count : (m.accesses i).length + i.delays (m.console.hw.cpu.f.allow i.guard?) =
      i.cost (m.console.hw.cpu.f.allow i.guard?) := by
    simp only [accesses, Instruction.cost, List.length_append, List.length_map, length_codeReads]
    omega
  rw [(step_executed bare executes).1, count, UInt32.toNat_ofNat_of_lt']
  show _ < 2 ^ 32
  omega

/-- What a step costs depends on the kind of instruction alone, and on the outcome of its condition:
four clocks for each byte that is fetched, loaded or stored, and for each delay. That is between 4
and 24 clocks. A halted processor takes 4. -/
theorem step_cost (m : Machine σ) (n : Machine τ) (bare : m.handlers = [])
    (bareOther : n.handlers = []) :
    (m.SameCourse n → m.step.1 = n.step.1) ∧
    m.step.1.toNat % 4 = 0 ∧ 4 ≤ m.step.1.toNat ∧ m.step.1.toNat ≤ 24 ∧
    (m.console.hw.cpu.halted = true → m.step.1 = 4 ∧ m.stepAccesses = []) ∧
    (∀ i, m.upcoming = .executes i →
      ∃ data, m.stepAccesses = m.codeReads i.size ++ data ∧
        m.step.1.toNat =
          4 * (i.size + data.length + i.delays (m.console.hw.cpu.f.allow i.guard?))) := by
  refine ⟨?_, m.clocks_step_whole, m.clocks_step.1, ?_, ?_, ?_⟩
  · rintro (⟨first, second⟩ | ⟨first, second, kind, outcome⟩)
    · rw [(step_halted first).1, (step_halted second).1]
    · apply UInt32.toNat.inj
      rw [clocks_executed bare first, clocks_executed bareOther second, ← Instruction.cost_kind,
        kind, Instruction.cost_kind, outcome]
  · rcases m.upcoming_cases with ⟨halted, -⟩ | ⟨i, executes⟩
    · rw [(step_halted halted).1]
      show (4 : UInt32).toNat ≤ 24
      decide
    · rw [clocks_executed bare executes]
      exact Nat.mul_le_mul_left 4 (Instruction.cost_le (size_le_of_executes bare executes) _)
  · intro halted
    exact ⟨congrArg Prod.fst (step_halted halted).1, (step_halted halted).2⟩
  · intro i executes
    refine ⟨_, (step_executed bare executes).2.trans (List.append_assoc ..), ?_⟩
    rw [clocks_executed bare executes, List.length_append, List.length_map, List.length_map,
      i.length_traffic m]
    rfl

/-- A call to 0x0038 takes 16 clocks, wherever the stack is and whatever the registers hold. -/
theorem step_cost_rst :
    let m : Machine Unit := .powerOn default (some .monochrome) ()
    let n : Machine Unit := (powerOn default (some .color) ()).withCpu { a := 7, sp := 0xD000 }
    let halted := m.withCpu { m.console.hw.cpu with halted := true }
    m.step.1 = n.step.1 ∧ m.step.1.toNat = 16 ∧ halted.step.1 = 4 := by
  have first : (powerOn default (some .monochrome) () : Machine Unit).instruction = .rst 0x38 := by
    decide
  have second : ((powerOn default (some .color) () : Machine Unit).withCpu
      { a := 7, sp := 0xD000 }).instruction = .rst 0x38 := by decide
  intro m n halted
  have here : m.upcoming = .executes (.rst 0x38) := first ▸ upcoming_instruction rfl rfl
  have there : n.upcoming = .executes (.rst 0x38) := second ▸ upcoming_instruction rfl rfl
  obtain ⟨same, -⟩ := step_cost m n rfl rfl
  obtain ⟨-, -, -, -, idle, -⟩ := step_cost halted n rfl rfl
  exact ⟨same (.running here there rfl rfl), clocks_executed rfl here, (idle rfl).1⟩

end Machine

end GameBoy
