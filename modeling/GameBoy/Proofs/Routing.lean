import Mathlib.Logic.Function.Basic
import GameBoy.Proofs.Reach

/-!
Where addresses lead. A bus can also be kept as a table with an entry for each address, which is
changed when a device takes over an address and when a region is shown or hidden; the table and the
bus agree whatever happens to a session. Main statement: `routes_settled`, which gives the entry of
each address from the devices attached and from what the hardware says is accessible.
-/

namespace GameBoy

/-- What can happen to a session: something is asked of it, or a device takes over an address. -/
inductive Event (σ : Type)
  | asked (command : Command)
  | attached (address : UInt16) (handler : Handler σ)

/-- The address that an event takes over, with the device. -/
def Event.attachment : Event σ → List (UInt16 × Handler σ)
  | .asked _ => []
  | .attached address handler => [(address, handler)]

/-- The addresses taken over by some events, the earliest first. -/
def attachments (events : List (Event σ)) : List (UInt16 × Handler σ) :=
  events.flatMap (·.attachment)

/-- A device that leaves alone what is accessible over the bus. -/
def Handler.Discreet (h : Handler σ) : Prop :=
  ∀ c address v devices,
    (h.write c address v devices).1.hw.vramAccessible = c.hw.vramAccessible ∧
      (h.write c address v devices).1.hw.oamAccessible = c.hw.oamAccessible

/-- No device has taken over the address. -/
def Unattached (log : List (UInt16 × Handler σ)) (address : UInt16) : Prop :=
  ∀ entry ∈ log, entry.1 ≠ address

instance {log : List (UInt16 × Handler σ)} : Decidable (Unattached log address) :=
  inferInstanceAs (Decidable (∀ entry ∈ log, _))

/-- The device that was attached as number `index` is the last one at the address. -/
def LastAttached (log : List (UInt16 × Handler σ)) (address : UInt16) (index : Nat)
    (handler : Handler σ) : Prop :=
  ∃ earlier later, log = earlier ++ (address, handler) :: later ∧ earlier.length = index ∧
    Unattached later address

/-- The hardware says that the address is not accessible. -/
def Console.Hides (c : Console) (address : UInt16) : Prop :=
  Region.vram.Spans address ∧ c.hw.vramAccessible = false ∨
    Region.oam.Spans address ∧ c.hw.oamAccessible = false

instance {c : Console} : Decidable (c.Hides address) := inferInstanceAs (Decidable (_ ∨ _))

/-! The table. -/

/-- An entry of a table of routes. A device is named by its number. -/
inductive RouteEntry
  | memory (region : Region)
  | hidden
  | handler (index : Nat)
deriving DecidableEq

/-- A table of routes, with the devices in the order in which they were attached. -/
structure RouteTable (σ : Type) where
  entry : UInt16 → RouteEntry
  handlers : List (Handler σ)

namespace RouteTable

/-- Nothing is hidden and no address is taken over. -/
def static : RouteTable σ where
  entry address := .memory (.ofAddress address)
  handlers := []

def attach (t : RouteTable σ) (address : UInt16) (handler : Handler σ) : RouteTable σ where
  entry := Function.update t.entry address (.handler t.handlers.length)
  handlers := t.handlers ++ [handler]

/-- Shows or hides a region, except for the addresses that devices have taken over. -/
def setRegion (t : RouteTable σ) (first last : UInt16) (region : Region) (visible : Bool) :
    RouteTable σ :=
  { t with
    entry := fun address =>
      if first ≤ address ∧ address ≤ last then
        match t.entry address with
        | .handler index => .handler index
        | _ => if visible then .memory region else .hidden
      else t.entry address }

def setVramVisible (t : RouteTable σ) (visible : Bool) : RouteTable σ :=
  t.setRegion 0x8000 0x9FFF .vram visible

def setOamVisible (t : RouteTable σ) (visible : Bool) : RouteTable σ :=
  t.setRegion 0xFE00 0xFE9F .oam visible

/-- Brings the table in line with the hardware. -/
def sync (t : RouteTable σ) (c : Console) : RouteTable σ :=
  (t.setVramVisible c.hw.vramAccessible).setOamVisible c.hw.oamAccessible

/-- What an event does to the table of a machine. Only what governs the bus touches it. -/
def undergo (t : RouteTable σ) (m : Machine σ) : Event σ → RouteTable σ
  | .attached address handler => t.attach address handler
  | .asked (.operation (.setVramAccessible accessible)) => t.setVramVisible accessible
  | .asked (.operation (.setOamAccessible accessible)) => t.setOamVisible accessible
  | .asked .sync => t.sync m.console
  | .asked (.load bytes) =>
    match m.load bytes with
    | .ok n => t.sync n.console
    | .error _ => t
  | .asked _ => t

/-- Where an address leads by the table. -/
def route? (t : RouteTable σ) (address : UInt16) : Option (Route σ) :=
  match t.entry address with
  | .memory region => some (.memory region)
  | .hidden => some .hidden
  | .handler index => t.handlers[index]?.map .handler

end RouteTable

namespace Machine

def undergo (m : Machine σ) : Event σ → Machine σ
  | .asked command => (m.obey command).2
  | .attached address handler => m.attach address handler

/-- The machine after some events. -/
def undergoAll (m : Machine σ) : List (Event σ) → Machine σ
  | [] => m
  | event :: rest => (m.undergo event).undergoAll rest

end Machine

/-- The table after some events that happened to a machine. -/
def RouteTable.undergoAll (t : RouteTable σ) (m : Machine σ) : List (Event σ) → RouteTable σ
  | [] => t
  | event :: rest => (t.undergo m event).undergoAll (m.undergo event) rest

/-! The devices attached. -/

theorem unattached_append {log : List (UInt16 × Handler σ)} :
    Unattached (log ++ [(taken, handler)]) address ↔ Unattached log address ∧ taken ≠ address := by
  simp [Unattached, or_imp, forall_and]

theorem Unattached.lookup {log : List (UInt16 × Handler σ)} (free : Unattached log address) :
    log.reverse.lookup address = none := by
  rw [List.lookup_eq_none_iff]
  intro entry member
  exact bne_iff_ne.mpr (free entry (List.mem_reverse.mp member)).symm

theorem LastAttached.append_cases {log : List (UInt16 × Handler σ)}
    (last : LastAttached (log ++ [(taken, device)]) address index handler) :
    taken = address ∧ index = log.length ∨
      taken ≠ address ∧ LastAttached log address index handler := by
  obtain ⟨earlier, later, split, length, free⟩ := last
  rcases List.eq_nil_or_concat later with rfl | ⟨later, entry, rfl⟩
  · obtain ⟨rfl, same⟩ := List.append_inj' split rfl
    cases same
    exact .inl ⟨rfl, length.symm⟩
  · rw [List.concat_eq_append] at split free
    rw [← List.cons_append, ← List.append_assoc] at split
    obtain ⟨rfl, same⟩ := List.append_inj' split rfl
    cases same
    obtain ⟨free, other⟩ := unattached_append.mp free
    exact .inr ⟨other, earlier, later, rfl, length, free⟩

theorem LastAttached.lookup {log : List (UInt16 × Handler σ)}
    (last : LastAttached log address index handler) :
    log.reverse.lookup address = some handler := by
  obtain ⟨earlier, later, rfl, -, free⟩ := last
  rw [List.lookup_eq_some_iff]
  refine ⟨later.reverse, earlier.reverse, by simp, ?_⟩
  intro entry member
  exact bne_iff_ne.mpr (free entry (List.mem_reverse.mp member)).symm

theorem LastAttached.not_unattached {log : List (UInt16 × Handler σ)}
    (last : LastAttached log address index handler) : ¬Unattached log address := by
  obtain ⟨earlier, later, rfl, -⟩ := last
  intro free
  exact free _ List.mem_append_cons_self rfl

/-- Some device is the last one at an address that any has taken over. -/
theorem unattached_or_last (log : List (UInt16 × Handler σ)) (address : UInt16) :
    Unattached log address ∨ ∃ index handler, LastAttached log address index handler := by
  induction log with
  | nil => exact .inl nofun
  | cons entry rest ih =>
    rcases ih with free | ⟨index, handler, earlier, later, split, -, last⟩
    · by_cases same : entry.1 = address
      · subst same
        exact .inr ⟨0, entry.2, [], rest, rfl, rfl, free⟩
      · refine .inl ?_
        rintro other (_ | member)
        · exact same
        · exact free other ‹_›
    · exact .inr ⟨_, handler, entry :: earlier, later, congrArg (entry :: ·) split, rfl, last⟩

/-! What the table says. -/

/-- The entry of an address that no device has taken over. -/
def RouteEntry.free (vramAccessible oamAccessible : Bool) (address : UInt16) : RouteEntry :=
  if Region.vram.Spans address ∧ vramAccessible = false ∨
      Region.oam.Spans address ∧ oamAccessible = false then .hidden
  else .memory (.ofAddress address)

/-- Video RAM and sprite memory have no address in common. -/
theorem Region.not_both (video : Region.vram.Spans address) : ¬Region.oam.Spans address := by
  intro sprites
  exact absurd (Nat.lt_of_le_of_lt sprites.1 video.2) (by decide)

namespace RouteTable

/-- The table lists the devices, leads to the last one at each address, and otherwise shows what is
accessible. -/
structure Describes (t : RouteTable σ) (log : List (UInt16 × Handler σ))
    (vramAccessible oamAccessible : Bool) : Prop where
  handlers : t.handlers = log.map Prod.snd
  taken : LastAttached log address index handler → t.entry address = .handler index
  free : Unattached log address →
    t.entry address = .free vramAccessible oamAccessible address

variable {t : RouteTable σ} {log : List (UInt16 × Handler σ)}

theorem static_describes : (static : RouteTable σ).Describes [] true true where
  handlers := rfl
  taken last := by
    obtain ⟨earlier, later, split, -⟩ := last
    cases List.append_eq_nil_iff.mp split.symm |>.2
  free _ := by simp [static, RouteEntry.free]

theorem entry_attach_same (t : RouteTable σ) (address : UInt16) (handler : Handler σ) :
    (t.attach address handler).entry address = .handler t.handlers.length :=
  Function.update_self ..

theorem entry_attach_ne (t : RouteTable σ) (handler : Handler σ) (other : taken ≠ address) :
    (t.attach taken handler).entry address = t.entry address :=
  Function.update_of_ne other.symm ..

theorem Describes.attach (describes : t.Describes log vram oam) (address : UInt16)
    (handler : Handler σ) :
    (t.attach address handler).Describes (log ++ [(address, handler)]) vram oam where
  handlers := by
    rw [List.map_append, ← describes.handlers]
    rfl
  taken last := by
    rcases last.append_cases with ⟨rfl, rfl⟩ | ⟨other, last⟩
    · rw [entry_attach_same, describes.handlers, List.length_map]
    · rw [entry_attach_ne _ _ other]
      exact describes.taken last
  free unattached := by
    obtain ⟨unattached, other⟩ := unattached_append.mp unattached
    rw [entry_attach_ne _ _ other]
    exact describes.free unattached

theorem setRegion_handler (led : t.entry address = .handler index) :
    (t.setRegion first last region visible).entry address = .handler index := by
  simp only [setRegion, led, ite_self]

theorem setRegion_inside (free : t.entry address = .free vram oam address)
    (inside : first ≤ address ∧ address ≤ last) :
    (t.setRegion first last region visible).entry address =
      if visible then .memory region else .hidden := by
  simp only [setRegion, if_pos inside, free, RouteEntry.free]
  by_cases hides : Region.vram.Spans address ∧ vram = false ∨
      Region.oam.Spans address ∧ oam = false
  · rw [if_pos hides]
  · rw [if_neg hides]

theorem setRegion_outside (outside : ¬(first ≤ address ∧ address ≤ last)) :
    (t.setRegion first last region visible).entry address = t.entry address := by
  simp only [setRegion, if_neg outside]

theorem Describes.setVramVisible (describes : t.Describes log vram oam) (visible : Bool) :
    (t.setVramVisible visible).Describes log visible oam where
  handlers := describes.handlers
  taken last := setRegion_handler (describes.taken last)
  free {address} unattached := by
    have free := describes.free unattached
    by_cases inside : Region.vram.Spans address
    · refine (setRegion_inside free (Region.spans_vram_iff.mp inside)).trans ?_
      cases visible <;>
        simp [RouteEntry.free, inside, Region.not_both inside, Region.ofAddress_vram inside]
    · refine (setRegion_outside (inside ∘ Region.spans_vram_iff.mpr)).trans (free.trans ?_)
      simp [RouteEntry.free, inside]

theorem Describes.setOamVisible (describes : t.Describes log vram oam) (visible : Bool) :
    (t.setOamVisible visible).Describes log vram visible where
  handlers := describes.handlers
  taken last := setRegion_handler (describes.taken last)
  free {address} unattached := by
    have free := describes.free unattached
    by_cases inside : Region.oam.Spans address
    · have other : ¬Region.vram.Spans address := fun other => Region.not_both other inside
      refine (setRegion_inside free (Region.spans_oam_iff.mp inside)).trans ?_
      cases visible <;> simp [RouteEntry.free, inside, other, Region.ofAddress_oam inside]
    · refine (setRegion_outside (inside ∘ Region.spans_oam_iff.mpr)).trans (free.trans ?_)
      simp [RouteEntry.free, inside]

/-- Whatever the table showed before, it shows afterwards what the hardware says. -/
theorem Describes.sync (describes : t.Describes log vram oam) (c : Console) :
    (t.sync c).Describes log c.hw.vramAccessible c.hw.oamAccessible :=
  (describes.setVramVisible c.hw.vramAccessible).setOamVisible c.hw.oamAccessible

end RouteTable

/-! What the bus does. -/

namespace Machine

/-- The bus and what the hardware says is accessible are the same. -/
structure SameBus (m n : Machine σ) : Prop where
  handlers : n.handlers = m.handlers
  vramVisible : n.vramVisible = m.vramVisible
  oamVisible : n.oamVisible = m.oamVisible
  vramAccessible : n.console.hw.vramAccessible = m.console.hw.vramAccessible
  oamAccessible : n.console.hw.oamAccessible = m.console.hw.oamAccessible

theorem SameBus.refl (m : Machine σ) : m.SameBus m := ⟨rfl, rfl, rfl, rfl, rfl⟩

theorem SameBus.trans {m n k : Machine σ} (first : m.SameBus n) (second : n.SameBus k) :
    m.SameBus k where
  handlers := second.handlers.trans first.handlers
  vramVisible := second.vramVisible.trans first.vramVisible
  oamVisible := second.oamVisible.trans first.oamVisible
  vramAccessible := second.vramAccessible.trans first.vramAccessible
  oamAccessible := second.oamAccessible.trans first.oamAccessible

theorem mapConsole_sameBus {ticks : Nat} (m : Machine σ)
    (e : m.console.Evolves ticks (f m.console)) : m.SameBus (m.mapConsole f) :=
  ⟨rfl, rfl, rfl, e.vramAccessible, e.oamAccessible⟩

theorem read_sameBus (m : Machine σ) (address : UInt16) : m.SameBus (m.read address).2 := by
  unfold read
  split <;> exact { SameBus.refl m with }

theorem write_sameBus {m : Machine σ} (discreet : ∀ entry ∈ m.handlers, entry.2.Discreet)
    (address : UInt16) (v : UInt8) : m.SameBus (m.write address v) := by
  unfold write
  split
  · next region led =>
    exact m.mapConsole_sameBus (m.console.writeRegion_evolves (route_memory led) v)
  · exact .refl m
  · next handler led =>
    obtain ⟨entry, member, rfl⟩ := route_handler led
    obtain ⟨vram, oam⟩ := discreet entry member m.console address v m.devices
    exact ⟨rfl, rfl, rfl, vram, oam⟩

theorem sameBus_simulation {start : Machine σ}
    (discreet : ∀ entry ∈ start.handlers, entry.2.Discreet) :
    Simulation fun (_ : Nat) (m n : Machine σ) => n = m ∧ start.SameBus m where
  console same := congrArg console same.1
  own := by
    rintro _ m _ _ f ⟨rfl, same⟩ moves
    exact ⟨rfl, same.trans (mapConsole_sameBus _ (moves _).toEvolves)⟩
  read := by
    rintro _ m _ ⟨rfl, same⟩ address
    exact ⟨rfl, rfl, same.trans (read_sameBus _ address)⟩
  write := by
    rintro _ _ m ⟨rfl, same⟩ address v
    have kept : ∀ entry ∈ m.handlers, entry.2.Discreet := same.handlers.symm ▸ discreet
    exact ⟨rfl, same.trans (write_sameBus kept address v)⟩

/-- Nothing but what governs the bus changes where addresses lead. -/
theorem obey_sameBus {m : Machine σ} (discreet : ∀ entry ∈ m.handlers, entry.2.Discreet)
    {command : Command} (steady : command.governsBus = false) : m.SameBus (m.obey command).2 := by
  obtain ⟨-, _, -, same⟩ := (sameBus_simulation discreet).obey 0 ⟨rfl, .refl m⟩ steady
  exact same

/-- A bus in line with the hardware shows what is not hidden. -/
theorem shows_eq (m : Machine σ) (synced : m.Synced) (address : UInt16) :
    m.shows (.ofAddress address) = !decide (m.console.Hides address) := by
  by_cases vram : Region.vram.Spans address
  · rw [Region.ofAddress_vram vram, shows, synced.vram]
    cases accessible : m.console.hw.vramAccessible <;>
      simp [Console.Hides, vram, Region.not_both vram, accessible]
  by_cases oam : Region.oam.Spans address
  · rw [Region.ofAddress_oam oam, shows, synced.oam]
    cases accessible : m.console.hw.oamAccessible <;> simp [Console.Hides, vram, oam, accessible]
  · have spans := Region.spans_ofAddress address
    have never : ¬m.console.Hides address := by simp [Console.Hides, vram, oam]
    rw [decide_eq_false never]
    cases region : Region.ofAddress address with
    | vram => exact absurd (region ▸ spans) vram
    | oam => exact absurd (region ▸ spans) oam
    | _ => rfl

/-- A bus around discreet devices that is in line with the hardware, and its table. -/
structure Routed (m : Machine σ) (t : RouteTable σ) (log : List (UInt16 × Handler σ)) : Prop where
  discreet : ∀ entry ∈ m.handlers, entry.2.Discreet
  handlers : m.handlers = log.reverse
  synced : m.Synced
  table : t.Describes log m.console.hw.vramAccessible m.console.hw.oamAccessible

namespace Routed

variable {m : Machine σ} {t : RouteTable σ} {log : List (UInt16 × Handler σ)}

theorem powerOn (cart : Cartridge) (model : Option Model) (devices : σ) :
    (powerOn cart model devices).Routed .static [] :=
  ⟨nofun, rfl, ⟨rfl, rfl⟩, RouteTable.static_describes⟩

theorem sameBus (routed : m.Routed t log) {n : Machine σ} (same : m.SameBus n) :
    n.Routed t log where
  discreet := same.handlers.symm ▸ routed.discreet
  handlers := same.handlers.trans routed.handlers
  synced :=
    ⟨by rw [same.vramVisible, same.vramAccessible, routed.synced.vram],
      by rw [same.oamVisible, same.oamAccessible, routed.synced.oam]⟩
  table := by
    rw [same.vramAccessible, same.oamAccessible]
    exact routed.table

theorem attach (routed : m.Routed t log) (address : UInt16) {handler : Handler σ}
    (discreet : handler.Discreet) :
    (m.attach address handler).Routed (t.attach address handler) (log ++ [(address, handler)]) where
  discreet := by
    rintro entry (_ | member)
    · exact discreet
    · exact routed.discreet entry ‹_›
  handlers := by
    rw [List.reverse_append, ← routed.handlers]
    rfl
  synced := ⟨routed.synced.vram, routed.synced.oam⟩
  table := routed.table.attach address handler

theorem setVramAccessible (routed : m.Routed t log) (accessible : Bool) :
    (m.setVramAccessible accessible).Routed (t.setVramVisible accessible) log :=
  ⟨routed.discreet, routed.handlers, ⟨rfl, routed.synced.oam⟩,
    routed.table.setVramVisible accessible⟩

theorem setOamAccessible (routed : m.Routed t log) (accessible : Bool) :
    (m.setOamAccessible accessible).Routed (t.setOamVisible accessible) log :=
  ⟨routed.discreet, routed.handlers, ⟨routed.synced.vram, rfl⟩,
    routed.table.setOamVisible accessible⟩

/-- The hardware may have been exchanged before the bus is brought in line with it. -/
theorem sync (routed : m.Routed t log) (c : Console) :
    ({ m with console := c }.sync).Routed (t.sync c) log :=
  ⟨routed.discreet, routed.handlers, ⟨rfl, rfl⟩, routed.table.sync c⟩

theorem restore (routed : m.Routed t log) (bytes : List UInt8) :
    (m.undergo (.asked (.load bytes))).Routed (t.undergo m (.asked (.load bytes))) log := by
  simp only [Machine.undergo, obey, Machine.restore, RouteTable.undergo, load]
  cases m.console.load bytes with
  | error refusal => exact routed
  | ok c => exact routed.sync c

theorem undergo (routed : m.Routed t log) (event : Event σ)
    (discreet : ∀ address handler, event = .attached address handler → handler.Discreet) :
    (m.undergo event).Routed (t.undergo m event) (log ++ event.attachment) := by
  cases event with
  | attached address handler => exact routed.attach address (discreet address handler rfl)
  | asked command =>
    have steady (idle : command.governsBus = false) :=
      routed.sameBus (obey_sameBus routed.discreet idle)
    rw [Event.attachment, List.append_nil]
    cases command with
    | operation op =>
      cases op with
      | setVramAccessible accessible => exact routed.setVramAccessible accessible
      | setOamAccessible accessible => exact routed.setOamAccessible accessible
      | _ => exact steady rfl
    | sync => exact routed.sync m.console
    | load bytes => exact routed.restore bytes
    | _ => exact steady rfl

theorem undergoAll (routed : m.Routed t log) {events : List (Event σ)}
    (discreet : ∀ address handler, .attached address handler ∈ events → handler.Discreet) :
    (m.undergoAll events).Routed (t.undergoAll m events) (log ++ attachments events) := by
  induction events generalizing m t log with
  | nil =>
    rw [attachments, List.flatMap_nil, List.append_nil]
    exact routed
  | cons event rest ih =>
    have undergone := routed.undergo event fun address handler same =>
      discreet address handler (same ▸ List.mem_cons_self)
    rw [attachments, List.flatMap_cons, ← List.append_assoc]
    exact ih undergone fun address handler later =>
      discreet address handler (List.mem_cons_of_mem _ later)

theorem route_taken (routed : m.Routed t log) (last : LastAttached log address index handler) :
    m.route address = .handler handler := by
  rw [route, routed.handlers, last.lookup]

theorem route_free (routed : m.Routed t log) (free : Unattached log address) :
    m.route address =
      if m.console.Hides address then .hidden else .memory (.ofAddress address) := by
  have shown : m.shows (.ofAddress address) = !decide (m.console.Hides address) :=
    m.shows_eq routed.synced address
  rw [route, routed.handlers, free.lookup]
  dsimp only
  rw [shown]
  by_cases hides : m.console.Hides address <;> simp [hides]

theorem entry_free (routed : m.Routed t log) (free : Unattached log address) :
    t.entry address =
      if m.console.Hides address then .hidden else .memory (.ofAddress address) :=
  routed.table.free free

/-- The table and the bus agree. -/
theorem route?_eq (routed : m.Routed t log) (address : UInt16) :
    t.route? address = some (m.route address) := by
  rcases unattached_or_last log address with free | ⟨index, handler, last⟩
  · rw [RouteTable.route?, routed.entry_free free, routed.route_free free]
    by_cases hides : m.console.Hides address
    · rw [if_pos hides, if_pos hides]
    · rw [if_neg hides, if_neg hides]
  · rw [RouteTable.route?, routed.table.taken last, routed.route_taken last]
    obtain ⟨earlier, later, rfl, rfl, -⟩ := last
    simp [routed.table.handlers]

/-- Showing or hiding video RAM disturbs no device and no other region. -/
theorem route_setVramAccessible (routed : m.Routed t log) (accessible : Bool) (address : UInt16) :
    (m.setVramAccessible accessible).route address =
      if Unattached log address ∧ Region.vram.Spans address then
        if accessible then .memory .vram else .hidden
      else m.route address := by
  have set := routed.setVramAccessible accessible
  rcases unattached_or_last log address with free | ⟨index, handler, last⟩
  · rw [set.route_free free, routed.route_free free]
    by_cases inside : Region.vram.Spans address
    · cases accessible <;>
        simp [Console.Hides, free, inside, Region.not_both inside, Region.ofAddress_vram inside,
          Machine.setVramAccessible, mapHardware]
    · simp [Console.Hides, inside, Machine.setVramAccessible, mapHardware]
  · rw [set.route_taken last, routed.route_taken last, if_neg (last.not_unattached ·.1)]

/-- Showing or hiding sprite memory disturbs no device and no other region. -/
theorem route_setOamAccessible (routed : m.Routed t log) (accessible : Bool) (address : UInt16) :
    (m.setOamAccessible accessible).route address =
      if Unattached log address ∧ Region.oam.Spans address then
        if accessible then .memory .oam else .hidden
      else m.route address := by
  have set := routed.setOamAccessible accessible
  rcases unattached_or_last log address with free | ⟨index, handler, last⟩
  · rw [set.route_free free, routed.route_free free]
    by_cases inside : Region.oam.Spans address
    · have other : ¬Region.vram.Spans address := fun other => Region.not_both other inside
      cases accessible <;>
        simp [Console.Hides, free, inside, other, Region.ofAddress_oam inside,
          Machine.setOamAccessible, mapHardware]
    · simp [Console.Hides, inside, Machine.setOamAccessible, mapHardware]
  · rw [set.route_taken last, routed.route_taken last, if_neg (last.not_unattached ·.1)]

end Routed

/-- Whatever is asked of a session and whichever discreet devices are attached: an address leads to
the last device attached there, else nowhere if the hardware says that it is not accessible, else to
the memory that it belongs to, and the entries of the table say the same. Showing or hiding a region
disturbs no device and nothing outside the region. -/
theorem routes_settled (cart : Cartridge) (model : Option Model) (devices : σ)
    {events : List (Event σ)}
    (discreet : ∀ address handler, .attached address handler ∈ events → handler.Discreet)
    (address : UInt16) :
    let start := powerOn cart model devices
    let m := start.undergoAll events
    let t := RouteTable.static.undergoAll start events
    let log := attachments events
    (∀ index handler, LastAttached log address index handler →
      m.route address = .handler handler ∧ t.entry address = .handler index) ∧
    (Unattached log address → m.console.Hides address →
      m.route address = .hidden ∧ t.entry address = .hidden) ∧
    (Unattached log address → ¬m.console.Hides address →
      m.route address = .memory (.ofAddress address) ∧
        t.entry address = .memory (.ofAddress address)) ∧
    t.route? address = some (m.route address) ∧
    ∀ accessible,
      ((m.setVramAccessible accessible).route address =
        if Unattached log address ∧ Region.vram.Spans address then
          if accessible then .memory .vram else .hidden
        else m.route address) ∧
      ((m.setOamAccessible accessible).route address =
        if Unattached log address ∧ Region.oam.Spans address then
          if accessible then .memory .oam else .hidden
        else m.route address) := by
  intro start m t log
  have routed : m.Routed t log := (Routed.powerOn cart model devices).undergoAll discreet
  refine ⟨?_, ?_, ?_, routed.route?_eq address, ?_⟩
  · intro index handler last
    exact ⟨routed.route_taken last, routed.table.taken last⟩
  · intro free hides
    rw [routed.route_free free, routed.entry_free free, if_pos hides, if_pos hides]
    exact ⟨rfl, rfl⟩
  · intro free shown
    rw [routed.route_free free, routed.entry_free free, if_neg shown, if_neg shown]
    exact ⟨rfl, rfl⟩
  · intro accessible
    exact ⟨routed.route_setVramAccessible accessible address,
      routed.route_setOamAccessible accessible address⟩

/-- A device at the first address of hidden video RAM stays there when a snapshot is refused. -/
theorem routes_settled_vram :
    ∃ cart, Cartridge.ofImage (Cartridge.blankImage 0x00 0) = .ok cart ∧
      let register : Handler Unit := ⟨fun _ _ s => (0x55, s), fun c _ _ s => (c, s)⟩
      let events : List (Event Unit) :=
        [.attached 0x8000 register, .asked (.operation (.setVramAccessible false)),
          .asked (.load [])]
      let start := powerOn cart none ()
      let m := start.undergoAll events
      let t := RouteTable.static.undergoAll start events
      m.route 0x8000 = .handler register ∧ t.entry 0x8000 = .handler 0 ∧
        m.route 0x8001 = .hidden ∧ t.entry 0x8001 = .hidden ∧
        (m.setVramAccessible true).route 0x8001 = .memory .vram := by
  obtain ⟨cart, accepted, -, -⟩ := Cartridge.ofImage_blank 0x00 0 rfl rfl
  refine ⟨cart, accepted, ?_⟩
  intro register events start m t
  have discreet : ∀ address handler, .attached address handler ∈ events → handler.Discreet := by
    intro address handler member
    simp only [events, List.mem_cons, Event.attached.injEq, reduceCtorEq, List.not_mem_nil,
      or_false] at member
    rw [member.2]
    exact fun _ _ _ _ => ⟨rfl, rfl⟩
  have log : attachments events = [(0x8000, register)] := rfl
  obtain ⟨taken, -⟩ := routes_settled cart none () discreet 0x8000
  obtain ⟨-, hidden, -, -, shown⟩ := routes_settled cart none () discreet 0x8001
  have free : Unattached (attachments events) 0x8001 := by
    rw [log]
    rintro entry (_ | ⟨_, ⟨⟩⟩)
    decide
  have inside : Region.vram.Spans 0x8001 := by decide
  have last : LastAttached (attachments events) 0x8000 0 register := ⟨[], [], log, rfl, nofun⟩
  obtain ⟨leads, entry⟩ := taken 0 register last
  obtain ⟨nowhere, blank⟩ := hidden free (.inl ⟨inside, rfl⟩)
  exact ⟨leads, entry, nowhere, blank, (shown true).1.trans (if_pos ⟨free, inside⟩)⟩

end Machine

end GameBoy
