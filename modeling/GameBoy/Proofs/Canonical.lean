import GameBoy.Proofs.Restore

/-!
Snapshots as a code. What is written of a value says where it ends, no part of it can be read, and a
value is written in one way only. Main statement: `payload_canonical`.
-/

namespace GameBoy

/-- The front of something written is damaged if any of it is missing. -/
theorem Layout.Exact.read_part {l : Layout α} (exact : l.Exact Fits) (fits : Fits a)
    (part : front <+: l.write a) (short : front ≠ l.write a) :
    ∃ damage, l.read front = .error damage := by
  obtain ⟨missing, whole⟩ := part
  cases found : l.read front with
  | error damage => exact ⟨damage, rfl⟩
  | ok pair =>
    obtain ⟨b, rest⟩ := pair
    obtain ⟨other, same⟩ := exact.write_read found
    -- The whole is now `a` with nothing behind it, and `b` with what is missing behind it.
    have asOther := exact.read_write b other (rest ++ missing)
    rw [← List.append_assoc, same, whole] at asOther
    have asWhole := exact.read_write a fits []
    rw [List.append_nil, asOther] at asWhole
    obtain ⟨-, nothing⟩ := Prod.mk.inj (Except.ok.inj asWhole)
    have complete : missing = [] := (List.append_eq_nil_iff.mp nothing).2
    rw [complete, List.append_nil] at whole
    exact absurd whole short

namespace Snapshot

variable {hw : Hardware}

theorem read_eq_ok_iff : read bytes = .ok hw ↔
    ∃ body rest, payload bytes = .ok body ∧ Layout.hardware.read body = .ok (hw, rest) := by
  unfold read
  cases framed : payload bytes with
  | error e => simp
  | ok body =>
    cases found : Layout.hardware.read body with
    | error damage => simp [found]
    | ok pair => simp [found, Prod.ext_iff]

/-- Four bytes give the length of a payload. -/
theorem length_payload_lt (found : payload bytes = .ok body) : body.length < 2 ^ 32 := by
  unfold payload at found
  split at found
  · cases found
  · split at found
    · cases found
    · rename_i length rest _
      split at found
      · cases found
      · split at found
        · cases found
        · cases found
          exact Nat.lt_of_le_of_lt (List.length_take_le _ _) length.toNat_lt

/-- A payload that cannot be read is damage. -/
theorem read_envelope_error (short : body.length < 2 ^ 32)
    (damaged : Layout.hardware.read body = .error damage) :
    read (envelope body) = .error (.corrupt damage) := by
  rw [read, payload_envelope short]
  dsimp only
  rw [damaged]

end Snapshot

/-- A restored console would write what it was restored from, apart from what was ignored. -/
theorem Machine.load_payload {m n : Machine σ} (loaded : m.load bytes = .ok n) :
    ∃ rest, Snapshot.payload bytes = .ok (Layout.hardware.write n.console.hw ++ rest) ∧
      Snapshot.payload n.save = .ok (Layout.hardware.write n.console.hw) := by
  obtain ⟨hw, found, -, rfl⟩ := Machine.load_eq_ok_iff.mp loaded
  obtain ⟨body, rest, framed, read⟩ := Snapshot.read_eq_ok_iff.mp found
  obtain ⟨-, same⟩ := Layout.hardware_exact.write_read read
  have short := Snapshot.length_payload_lt framed
  rw [← same, List.length_append] at short
  refine ⟨rest, ?_, Snapshot.payload_write (Nat.lt_of_le_of_lt (Nat.le_add_right ..) short)⟩
  rw [framed, ← same]
  rfl

namespace Snapshot

/-- Payloads are exact, end by themselves and are written in one way: hardware is read back from what
was written of it, whatever follows; a part of a payload is refused as damaged; what is read is what
would be written; and so a machine that has taken over a snapshot saves the same payload, without
what was ignored behind it. A restored console keeps its cartridge and has no fault waiting. -/
theorem payload_canonical :
    (∀ hw : Hardware, hw.Storable →
      (∀ rest, Layout.hardware.read (Layout.hardware.write hw ++ rest) = .ok (hw, rest)) ∧
        ∀ front, front <+: Layout.hardware.write hw → front ≠ Layout.hardware.write hw →
          ∃ damage, Layout.hardware.read front = .error damage ∧
            (front.length < 2 ^ 32 → ∀ c : Console,
              c.load (envelope front) = .error (.corrupt damage))) ∧
      (∀ bytes hw rest, Layout.hardware.read bytes = .ok (hw, rest) →
        hw.Storable ∧ Layout.hardware.write hw ++ rest = bytes) ∧
      ∀ (m n : Machine σ) (bytes : List UInt8), m.load bytes = .ok n →
        n.console.cart = m.console.cart ∧ n.console.fault = none ∧
          ∃ rest, payload bytes = .ok (Layout.hardware.write n.console.hw ++ rest) ∧
            payload n.save = .ok (Layout.hardware.write n.console.hw) := by
  have exact := Layout.hardware_exact
  refine ⟨?_, fun bytes hw rest found => exact.write_read found, ?_⟩
  · intro hw storable
    refine ⟨exact.read_write hw storable, ?_⟩
    intro front part missing
    obtain ⟨damage, damaged⟩ := exact.read_part storable part missing
    refine ⟨damage, damaged, ?_⟩
    intro short c
    rw [Console.load, read_envelope_error short damaged]
  · intro m n bytes loaded
    obtain ⟨hw, -, -, restored⟩ := Machine.load_eq_ok_iff.mp loaded
    refine ⟨?_, ?_, Machine.load_payload loaded⟩
    · rw [restored]
      rfl
    · rw [restored]
      rfl

theorem payload_canonical_blank :
    ∃ cart, Cartridge.ofImage (Cartridge.blankImage 0x10 3) = .ok cart ∧
      let m := Machine.powerOn cart none ()
      let written := Layout.hardware.write m.console.hw
      m.console.hw.Storable ∧
        Layout.hardware.read (written ++ [1, 2, 3]) = .ok (m.console.hw, [1, 2, 3]) ∧
        (∃ damage, Layout.hardware.read written.dropLast = .error damage) ∧
        ∃ n rest, m.load m.save = .ok n ∧ payload m.save = .ok (written ++ rest) ∧
          payload n.save = .ok written := by
  obtain ⟨cart, accepted, -, -⟩ := Cartridge.ofImage_blank 0x10 3 rfl rfl
  refine ⟨cart, accepted, ?_⟩
  intro m written
  have orderly := Machine.powerOn_orderly accepted none ()
  have storable : m.console.hw.Storable := orderly.toSized.storable
  have loaded : m.load m.save = .ok { m with console := m.console }.sync :=
    Machine.load_eq_ok_iff.mpr
      ⟨_, orderly.toSized.read_write, orderly.accepts (show (0 : UInt8) ≤ 0x0C by decide), rfl⟩
  obtain ⟨exact, -, resaves⟩ := payload_canonical (σ := Unit)
  obtain ⟨whole, parts⟩ := exact m.console.hw storable
  obtain ⟨-, -, rest, body, saved⟩ := resaves m _ m.save loaded
  refine ⟨storable, whole [1, 2, 3], ?_, _, rest, loaded, body, saved⟩
  have missing : written.dropLast ≠ written := by
    intro same
    have lengths := congrArg List.length same
    rw [List.length_dropLast, Layout.length_write_hardware] at lengths
    omega
  obtain ⟨damage, damaged, -⟩ := parts written.dropLast (List.dropLast_prefix _) missing
  exact ⟨damage, damaged⟩

end Snapshot

end GameBoy
