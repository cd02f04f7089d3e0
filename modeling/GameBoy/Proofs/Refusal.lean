import GameBoy.Proofs.Canonical
import GameBoy.Proofs.Numbers
import GameBoy.Proofs.Reach

/-!
Snapshots that are refused. Each check of a snapshot says on its own what it has against some bytes,
and the first that objects gives the answer. What is checked before the payload is read depends on
the header and the length only, so a snapshot that is cut off is refused there, and what follows a
snapshot goes unnoticed. Main statement: `refusals_harmless`.
-/

namespace GameBoy

namespace Snapshot

/-- The version that a header gives. -/
def declaredVersion (bytes : List UInt8) : UInt16 := UInt16.ofNat (number ((bytes.drop 4).take 2))

/-- The length of the payload that a header gives. -/
def declaredLength (bytes : List UInt8) : Nat := number ((bytes.drop 6).take 4)

/-- What stands where the payload has to be. -/
def body (bytes : List UInt8) : List UInt8 := (bytes.drop headerSize).take (declaredLength bytes)

theorem declaredLength_lt (bytes : List UInt8) : declaredLength bytes < 2 ^ 32 := by
  refine Nat.lt_of_lt_of_le (number_lt _) ?_
  exact Nat.pow_le_pow_right (by decide) (List.length_take_le 4 _)

theorem read_header (bytes : List UInt8) :
    (Layout.uint16.pair Layout.uint32).read (bytes.drop magic.length) =
      if bytes.length < headerSize then .error .endOfInput
      else .ok ((declaredVersion bytes, UInt32.ofNat (declaredLength bytes)),
        bytes.drop headerSize) := by
  have size : headerSize = 10 := rfl
  simp only [Layout.pair, Layout.uint16, Layout.uint32, Layout.number, readNumber_eq,
    List.length_drop, show magic.length = 4 from rfl]
  by_cases short : bytes.length - 4 < 2
  · simp only [if_pos short]
    rw [if_pos (by omega)]
  · simp only [if_neg short, List.drop_drop, List.length_drop]
    by_cases cut : bytes.length < headerSize
    · rw [if_pos (show bytes.length - (4 + 2) < 4 by omega), if_pos cut]
    · rw [if_neg (show ¬bytes.length - (4 + 2) < 4 by omega), if_neg cut]
      rfl

/-- What is checked before a payload is read. -/
theorem payload_eq (bytes : List UInt8) :
    payload bytes =
      if magic.length ≤ bytes.length ∧ bytes.take magic.length ≠ magic then .error .badMagic
      else if bytes.length < headerSize then .error .truncated
      else if declaredVersion bytes ≠ version then
        .error (.unsupportedVersion (declaredVersion bytes))
      else if bytes.length < headerSize + declaredLength bytes then .error .truncated
      else .ok (body bytes) := by
  rw [payload, read_header]
  by_cases cut : bytes.length < headerSize
  · rw [if_pos cut, if_pos cut]
  · have rest : (bytes.drop headerSize).length < declaredLength bytes ↔
        bytes.length < headerSize + declaredLength bytes := by
      rw [List.length_drop]
      omega
    rw [if_neg cut, if_neg cut]
    simp only [UInt32.toNat_ofNat_of_lt' (declaredLength_lt bytes), rest, body]

/-! What follows, and what is missing. -/

theorem declaredVersion_append (headed : headerSize ≤ bytes.length) (rest : List UInt8) :
    declaredVersion (bytes ++ rest) = declaredVersion bytes := by
  rw [headerSize] at headed
  rw [declaredVersion, List.drop_append_of_le_length (by omega),
    List.take_append_of_le_length (by rw [List.length_drop]; omega), declaredVersion]

theorem declaredLength_append (headed : headerSize ≤ bytes.length) (rest : List UInt8) :
    declaredLength (bytes ++ rest) = declaredLength bytes := by
  rw [headerSize] at headed
  rw [declaredLength, List.drop_append_of_le_length (by omega),
    List.take_append_of_le_length (by rw [List.length_drop]; omega), declaredLength]

/-- A payload that is there is there whatever follows. -/
theorem payload_append (found : payload bytes = .ok inside) (rest : List UInt8) :
    payload (bytes ++ rest) = .ok inside := by
  rw [payload_eq] at found
  split at found
  · cases found
  next marked =>
  split at found
  · cases found
  next headed =>
  split at found
  · cases found
  next current =>
  split at found
  · cases found
  next complete =>
  rw [Nat.not_lt] at headed complete
  have four : magic.length ≤ bytes.length := Nat.le_trans (by decide) headed
  have front : (bytes ++ rest).take magic.length = bytes.take magic.length :=
    List.take_append_of_le_length four
  have same : body (bytes ++ rest) = body bytes := by
    rw [body, declaredLength_append headed, List.drop_append_of_le_length headed,
      List.take_append_of_le_length (by rw [List.length_drop]; omega), body]
  rw [payload_eq, front, declaredVersion_append headed, declaredLength_append headed, same,
    if_neg fun bad => marked ⟨four, bad.2⟩, if_neg, if_neg current, if_neg, found]
  · rw [List.length_append]
    omega
  · rw [List.length_append]
    omega

theorem length_envelope (inside : List UInt8) :
    (envelope inside).length = headerSize + inside.length := by
  simp only [envelope, List.length_append, Layout.uint16, Layout.uint32,
    Layout.length_write_number]
  rfl

theorem declaredVersion_envelope (inside : List UInt8) :
    declaredVersion (envelope inside) = version := by
  rw [declaredVersion, envelope, List.append_assoc, List.append_assoc]
  rfl

theorem declaredLength_envelope (short : inside.length < 2 ^ 32) :
    declaredLength (envelope inside) = inside.length := by
  have header : ((envelope inside).drop 6).take 4 =
      Layout.uint32.write (UInt32.ofNat inside.length) := by
    rw [envelope, List.append_assoc]
    rfl
  rw [declaredLength, header, Layout.uint32, Layout.number]
  dsimp only
  rw [UInt32.toNat_ofNat_of_lt' short, number_writeNumber 4 short]

/-- Wherever a snapshot is cut off, its payload is not there. -/
theorem payload_front (short : inside.length < 2 ^ 32) (part : front <+: envelope inside)
    (missing : front ≠ envelope inside) : payload front = .error .truncated := by
  have cut : front.length < headerSize + inside.length := by
    rw [← length_envelope]
    exact Nat.lt_of_le_of_ne part.length_le fun same => missing (part.eq_of_length same)
  obtain ⟨behind, whole⟩ := part
  rw [payload_eq, if_neg]
  · split
    · rfl
    next headed =>
    rw [Nat.not_lt] at headed
    rw [← declaredVersion_append headed behind, ← declaredLength_append headed behind, whole,
      declaredVersion_envelope, declaredLength_envelope short, if_neg fun other => other rfl,
      if_pos cut]
  · rintro ⟨four, bad⟩
    apply bad
    rw [← List.take_append_of_le_length four, whole, envelope, List.append_assoc,
      List.append_assoc, List.take_left]

/-! Checks, in their order. -/

/-- What is checked of a snapshot: its mark, its header, the version in it, the payload that it
announces, what is in the payload, the cartridge that it was taken with, and whether a console can
go on from it. -/
inductive Check
  | mark
  | header
  | version
  | payload
  | decoding
  | cartridge
  | consistency

/-- The order in which they are made. -/
def Check.all : List Check :=
  [.mark, .header, .version, .payload, .decoding, .cartridge, .consistency]

end Snapshot

namespace Console

open Snapshot

/-- What a check on its own has against some bytes. -/
def objection? (c : Console) (bytes : List UInt8) : Check → Option SnapshotError
  | .mark =>
    if magic.length ≤ bytes.length ∧ bytes.take magic.length ≠ magic then some .badMagic else none
  | .header => if bytes.length < headerSize then some .truncated else none
  | .version =>
    if declaredVersion bytes ≠ version then some (.unsupportedVersion (declaredVersion bytes))
    else none
  | .payload =>
    if bytes.length < headerSize + declaredLength bytes then some .truncated else none
  | .decoding =>
    match Layout.hardware.read (body bytes) with
    | .error damage => some (.corrupt damage)
    | .ok _ => none
  | .cartridge =>
    match Layout.hardware.read (body bytes) with
    | .error _ => none
    | .ok (hw, _) => if hw.identity ≠ c.hw.identity then some .differentCartridge else none
  | .consistency =>
    match Layout.hardware.read (body bytes) with
    | .error _ => none
    | .ok (hw, _) => (c.inconsistency? hw).map .inconsistent

/-- The first objection is the answer. -/
theorem load_eq_error_iff {c : Console} {bytes : List UInt8} {e : SnapshotError} :
    c.load bytes = .error e ↔ Check.all.findSome? (c.objection? bytes) = some e := by
  unfold load Snapshot.read
  rw [payload_eq]
  simp only [Check.all, List.findSome?_cons, List.findSome?_nil, objection?]
  by_cases mark : magic.length ≤ bytes.length ∧ bytes.take magic.length ≠ magic
  · simp only [if_pos mark, Except.error.injEq, Option.some.injEq]
  by_cases header : bytes.length < headerSize
  · simp only [if_neg mark, if_pos header, Except.error.injEq, Option.some.injEq]
  by_cases other : declaredVersion bytes ≠ version
  · simp only [if_neg mark, if_neg header, if_pos other, Except.error.injEq, Option.some.injEq]
  by_cases cut : bytes.length < headerSize + declaredLength bytes
  · simp only [if_neg mark, if_neg header, if_neg other, if_pos cut, Except.error.injEq,
      Option.some.injEq]
  simp only [if_neg mark, if_neg header, if_neg other, if_neg cut]
  -- What the last three checks say is about what is decoded.
  rcases Layout.hardware.read (body bytes) with damage | ⟨hw, rest⟩
  · simp only [Except.error.injEq, Option.some.injEq]
  by_cases foreign : hw.identity ≠ c.hw.identity
  · simp only [if_pos foreign, Except.error.injEq, Option.some.injEq]
  simp only [if_neg foreign]
  cases c.inconsistency? hw with
  | none => simp only [Option.map_none, reduceCtorEq]
  | some reason => simp only [Option.map_some, Except.error.injEq, Option.some.injEq]

/-- What a check has against some bytes is the answer if no check before it has anything. -/
theorem load_eq_error_iff_first {c : Console} {bytes : List UInt8} {e : SnapshotError} :
    c.load bytes = .error e ↔ ∃ before check after, Check.all = before ++ check :: after ∧
      c.objection? bytes check = some e ∧
        ∀ earlier ∈ before, c.objection? bytes earlier = none := by
  rw [load_eq_error_iff, List.findSome?_eq_some_iff]

end Console

namespace Machine

theorem load_eq_error_iff {m : Machine σ} : m.load bytes = .error e ↔
    m.console.load bytes = .error e := by
  unfold load
  cases m.console.load bytes <;> simp

theorem load_of_payload {m : Machine σ}
    (same : Snapshot.payload bytes = Snapshot.payload other) : m.load bytes = m.load other := by
  simp only [load, Console.load, Snapshot.read, same]

theorem load_of_payload_error {m : Machine σ} (refused : Snapshot.payload bytes = .error e) :
    m.load bytes = .error e := by
  simp only [load, Console.load, Snapshot.read, refused]

theorem obey_refused {m : Machine σ} (refused : m.load bytes = .error e) :
    m.obey (.load bytes) = (.restored (some e), m) := by
  simp only [obey, restore, refused]

theorem obeyAll_append (m : Machine σ) (before after : List Command) :
    m.obeyAll (before ++ after) =
      ((m.obeyAll before).1 ++ ((m.obeyAll before).2.obeyAll after).1,
        ((m.obeyAll before).2.obeyAll after).2) := by
  induction before generalizing m with
  | nil => rfl
  | cons command before ih => simp only [List.cons_append, obeyAll, ih]

/-- Refused and partial snapshots do no harm. A refusal leaves a session as it is, devices,
cartridge, bus and waiting fault included, so that it goes on as if nothing had been asked. What a
session has saved is refused as truncated wherever it is cut off, and what follows it goes
unnoticed. The answer to any bytes is the first objection in the order of the checks. -/
theorem refusals_harmless :
    (∀ (m : Machine σ) (before after : List Command) bytes e,
      let n := (m.obeyAll before).2
      n.load bytes = .error e →
        n.obey (.load bytes) = (.restored (some e), n) ∧
        m.obeyAll (before ++ after) =
          ((m.obeyAll before).1 ++ (n.obeyAll after).1, (n.obeyAll after).2) ∧
        m.obeyAll (before ++ .load bytes :: after) =
          ((m.obeyAll before).1 ++ .restored (some e) :: (n.obeyAll after).1,
            (n.obeyAll after).2)) ∧
    (∀ (m : Machine τ) cart, m.Reached cart →
      (∀ entry ∈ m.handlers, entry.2.Keeps Console.Sized) → ∀ g : Machine σ,
        (∀ front, front <+: m.save → front ≠ m.save → g.load front = .error .truncated) ∧
        ∀ rest, g.load (m.save ++ rest) = g.load m.save) ∧
    ∀ (m : Machine σ) bytes e,
      m.load bytes = .error e ↔ ∃ before check after,
        Snapshot.Check.all = before ++ check :: after ∧
        m.console.objection? bytes check = some e ∧
        ∀ earlier ∈ before, m.console.objection? bytes earlier = none := by
  refine ⟨?_, ?_, ?_⟩
  · intro m before after bytes e n refused
    have stays := obey_refused refused
    refine ⟨stays, m.obeyAll_append before after, ?_⟩
    rw [obeyAll_append, obeyAll, stays]
  · intro m cart reached steady g
    have short := (reached.sized steady).length_write_lt
    have whole : Snapshot.payload m.save = _ := Snapshot.payload_write short
    refine ⟨?_, ?_⟩
    · intro front part missing
      exact load_of_payload_error (Snapshot.payload_front short part missing)
    · intro rest
      exact load_of_payload ((Snapshot.payload_append whole rest).trans whole.symm)
  · intro m bytes e
    rw [load_eq_error_iff, Console.load_eq_error_iff_first]

/-- Some of a snapshot is refused, more than a snapshot is not, and zeros are no snapshot. -/
theorem refusals_harmless_blank :
    ∃ cart, Cartridge.ofImage (Cartridge.blankImage 0x10 3) = .ok cart ∧
      let m := powerOn cart none ()
      let front := m.save.take 3
      m.load front = .error .truncated ∧
        m.obeyAll [.load front, .save] =
          ([.restored (some .truncated), .snapshot m.save], m) ∧
        m.load (m.save ++ [1, 2, 3]) = m.load m.save ∧
        m.load [0, 0, 0, 0] = .error .badMagic := by
  obtain ⟨cart, accepted, -, -⟩ := Cartridge.ofImage_blank 0x10 3 rfl rfl
  refine ⟨cart, accepted, ?_⟩
  intro m front
  obtain ⟨stays, saved, order⟩ := refusals_harmless (σ := Unit) (τ := Unit)
  obtain ⟨parts, follows⟩ := saved m cart (.powerOn accepted none ()) nofun m
  have missing : front ≠ m.save := by
    intro same
    have lengths := congrArg List.length same
    rw [List.length_take, show m.save.length = _ from Snapshot.length_envelope _,
      Snapshot.headerSize] at lengths
    omega
  have refused := parts front (List.take_prefix 3 _) missing
  obtain ⟨-, -, run⟩ := stays m [] [.save] front .truncated refused
  exact ⟨refused, run, follows [1, 2, 3],
    (order m [0, 0, 0, 0] .badMagic).mpr ⟨[], .mark, _, rfl, by rfl, nofun⟩⟩

end Machine

end GameBoy
