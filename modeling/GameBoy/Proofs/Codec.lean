import GameBoy.Snapshot
import Mathlib.Algebra.Group.Nat.Defs

/-!
Layouts lose nothing: a value that fits is read back from the front of what was written, and what was
read is what would be written.
-/

namespace GameBoy

namespace Layout

/-- A layout of the values that fit. -/
structure Exact (l : Layout α) (Fits : α → Prop) : Prop where
  read_write (a : α) (fits : Fits a) (rest : List UInt8) : l.read (l.write a ++ rest) = .ok (a, rest)
  write_read (found : l.read bytes = .ok (a, rest)) : Fits a ∧ l.write a ++ rest = bytes

theorem Exact.of_iff {l : Layout α} (valid : l.Exact F) (same : ∀ a, F a ↔ G a) : l.Exact G where
  read_write a fits := valid.read_write a ((same a).mpr fits)
  write_read found := (valid.write_read found).imp (same _).mp id

/-! Numbers. -/

theorem readNumber_writeNumber (width : Nat) {n : Nat} (fits : n < 256 ^ width)
    (rest : List UInt8) : readNumber width (writeNumber width n ++ rest) = .ok (n, rest) := by
  induction width generalizing n with
  | zero =>
    have zero : n = 0 := by simpa using fits
    rw [zero]
    rfl
  | succ width ih =>
    have high : n / 256 < 256 ^ width := by
      rw [Nat.pow_succ] at fits
      exact Nat.div_lt_of_lt_mul (by rwa [Nat.mul_comm] at fits)
    simp only [writeNumber, List.cons_append, readNumber, ih high, UInt8.toNat_ofNat']
    rw [Nat.mod_add_div]

theorem writeNumber_readNumber (width : Nat) (found : readNumber width bytes = .ok (n, rest)) :
    n < 256 ^ width ∧ writeNumber width n ++ rest = bytes := by
  induction width generalizing bytes n with
  | zero =>
    cases found
    exact ⟨Nat.one_pos, rfl⟩
  | succ width ih =>
    cases bytes with
    | nil => cases found
    | cons b bytes =>
      rw [readNumber] at found
      cases tail : readNumber width bytes with
      | error damage =>
        rw [tail] at found
        cases found
      | ok read =>
        obtain ⟨high, after⟩ := read
        rw [tail] at found
        cases found
        obtain ⟨small, same⟩ := ih tail
        have low := b.toNat_lt
        have quotient : (b.toNat + 256 * high) / 256 = high := by omega
        have byte : UInt8.ofNat (b.toNat + 256 * high) = b := by
          apply UInt8.toNat.inj
          rw [UInt8.toNat_ofNat']
          omega
        refine ⟨?_, ?_⟩
        · rw [Nat.pow_succ]
          omega
        · rw [writeNumber, quotient, byte, List.cons_append, same]

theorem length_writeNumber (width n : Nat) : (writeNumber width n).length = width := by
  induction width generalizing n with
  | zero => rfl
  | succ width ih => rw [writeNumber, List.length_cons, ih]

theorem number_exact {toNat : α → Nat} {ofNat : Nat → α} (fits : ∀ a, toNat a < 256 ^ width)
    (left : ∀ a, ofNat (toNat a) = a) (right : ∀ n < 256 ^ width, toNat (ofNat n) = n) :
    (number width toNat ofNat).Exact fun _ => True where
  read_write a _ rest := by
    simp only [number, readNumber_writeNumber width (fits a), left]
  write_read {bytes a rest} found := by
    simp only [number] at found ⊢
    cases read : readNumber width bytes with
    | error damage =>
      rw [read] at found
      cases found
    | ok pair =>
      obtain ⟨n, after⟩ := pair
      rw [read] at found
      cases found
      obtain ⟨small, same⟩ := writeNumber_readNumber width read
      rw [right n small]
      exact ⟨trivial, same⟩

theorem uint8_exact : uint8.Exact fun _ => True :=
  number_exact UInt8.toNat_lt (fun _ => UInt8.ofNat_toNat) fun _ => UInt8.toNat_ofNat_of_lt'

theorem uint16_exact : uint16.Exact fun _ => True :=
  number_exact UInt16.toNat_lt (fun _ => UInt16.ofNat_toNat) fun _ => UInt16.toNat_ofNat_of_lt'

theorem uint32_exact : uint32.Exact fun _ => True :=
  number_exact UInt32.toNat_lt (fun _ => UInt32.ofNat_toNat) fun _ => UInt32.toNat_ofNat_of_lt'

theorem uint64_exact : uint64.Exact fun _ => True :=
  number_exact UInt64.toNat_lt (fun _ => UInt64.ofNat_toNat) fun _ => UInt64.toNat_ofNat_of_lt'

/-! Layouts made of others. -/

theorem pair_exact {first : Layout α} {second : Layout β} (valid : first.Exact F)
    (validAfter : second.Exact G) : (first.pair second).Exact fun p => F p.1 ∧ G p.2 where
  read_write p fits rest := by
    simp only [pair, List.append_assoc, valid.read_write _ fits.1, validAfter.read_write _ fits.2]
  write_read {bytes p rest} found := by
    simp only [pair] at found
    cases head : first.read bytes with
    | error damage =>
      rw [head] at found
      cases found
    | ok a =>
      rw [head] at found
      dsimp only at found
      cases tail : second.read a.2 with
      | error damage =>
        rw [tail] at found
        cases found
      | ok b =>
        rw [tail] at found
        cases found
        obtain ⟨fits, same⟩ := valid.write_read head
        obtain ⟨fitsAfter, sameAfter⟩ := validAfter.write_read tail
        refine ⟨⟨fits, fitsAfter⟩, ?_⟩
        rw [pair, List.append_assoc, sameAfter, same]

theorem refine_exact {l : Layout α} {get : β → α} {make : α → Except Damage β} (valid : l.Exact F)
    (left : ∀ b, make (get b) = .ok b) (right : ∀ a b, make a = .ok b → get b = a) :
    (l.refine get make).Exact fun b => F (get b) where
  read_write b fits rest := by
    simp only [refine, valid.read_write _ fits, left]
  write_read {bytes b rest} found := by
    simp only [refine] at found
    cases read : l.read bytes with
    | error damage =>
      rw [read] at found
      cases found
    | ok a =>
      rw [read] at found
      dsimp only at found
      cases made : make a.1 with
      | error damage =>
        rw [made] at found
        cases found
      | ok b' =>
        rw [made] at found
        cases found
        obtain ⟨fits, same⟩ := valid.write_read read
        rw [← right _ _ made] at fits same
        exact ⟨fits, same⟩

theorem convert_exact {l : Layout α} {get : β → α} {make : α → β} (valid : l.Exact F)
    (left : ∀ b, make (get b) = b) (right : ∀ a, get (make a) = a) :
    (l.convert get make).Exact fun b => F (get b) where
  read_write b fits rest := by
    simp only [convert, valid.read_write _ fits, left]
  write_read {bytes b rest} found := by
    simp only [convert] at found
    cases read : l.read bytes with
    | error damage =>
      rw [read] at found
      cases found
    | ok a =>
      rw [read] at found
      cases found
      obtain ⟨fits, same⟩ := valid.write_read read
      rw [← right a.1] at fits same
      exact ⟨fits, same⟩

/-- A pair of layouts of all values is a layout of all pairs. -/
theorem pair_total {first : Layout α} {second : Layout β} (valid : first.Exact fun _ => True)
    (validAfter : second.Exact fun _ => True) : (first.pair second).Exact fun _ => True :=
  (pair_exact valid validAfter).of_iff fun _ => and_self_iff

theorem convert_total {l : Layout α} {get : β → α} {make : α → β} (valid : l.Exact fun _ => True)
    (left : ∀ b, make (get b) = b) (right : ∀ a, get (make a) = a) :
    (l.convert get make).Exact fun _ => True := convert_exact valid left right

/-! Blobs and what is kept in them. -/

theorem bool_exact : bool.Exact fun _ => True := by
  refine refine_exact uint8_exact ?_ ?_
  · intro b
    cases b <;> rfl
  · intro byte b made
    split at made
    · rename_i zero
      cases made
      exact zero.symm
    · split at made
      · rename_i one
        cases made
        exact one.symm
      · cases made

theorem blob_exact : blob.Exact fun bytes => bytes.length < 2 ^ 64 where
  read_write bytes fits rest := by
    simp only [blob, List.append_assoc, readNumber_writeNumber 8 fits, List.length_append]
    rw [if_neg (by omega), List.take_left, List.drop_left]
  write_read {bytes a rest} found := by
    simp only [blob] at found
    cases read : readNumber 8 bytes with
    | error damage =>
      rw [read] at found
      cases found
    | ok pair =>
      obtain ⟨length, after⟩ := pair
      rw [read] at found
      dsimp only at found
      split at found
      · cases found
      · rename_i enough
        cases found
        obtain ⟨small, same⟩ := writeNumber_readNumber 8 read
        have taken : (after.take length).length = length := List.length_take_of_le (by omega)
        refine ⟨by rw [taken]; exact small, ?_⟩
        show writeNumber 8 (after.take length).length ++ after.take length ++ after.drop length = _
        rw [taken, List.append_assoc, List.take_append_drop, same]

theorem memory_exact : memory.Exact fun m => m.size < 2 ^ 64 :=
  convert_exact blob_exact (fun _ => rfl) fun _ => rfl

theorem segment_exact (fits : length < 2 ^ 64) : (segment length).Exact fun _ => True := by
  refine (refine_exact memory_exact ?_ ?_).of_iff fun s => ?_
  · intro s
    exact dif_pos s.size_eq
  · intro m s made
    split at made
    · cases made
      rfl
    · cases made
  · rw [s.size_eq]
    exact iff_true_intro fits

theorem text_exact : text.Exact fun s => s.utf8ByteSize < 2 ^ 64 := by
  refine refine_exact blob_exact ?_ ?_
  · intro s
    have decoded : String.fromUTF8? ⟨s.toUTF8.data.toList.toArray⟩ = some s :=
      dif_pos s.isValidUTF8
    rw [decoded]
  · intro bytes s made
    cases decoded : String.fromUTF8? ⟨bytes.toArray⟩ with
    | none =>
      rw [decoded] at made
      cases made
    | some s' =>
      rw [decoded] at made
      cases made
      unfold String.fromUTF8? at decoded
      split at decoded
      · cases decoded
        rfl
      · cases decoded

theorem model_exact : model.Exact fun _ => True := by
  refine refine_exact uint32_exact ?_ ?_
  · intro m
    cases m <;> rfl
  · intro n m made
    split at made
    · rename_i zero
      cases made
      exact zero.symm
    · split at made
      · rename_i one
        cases made
        exact one.symm
      · cases made

/-! Records. -/

theorem identity_exact : identity.Exact fun i => i.title.utf8ByteSize < 2 ^ 64 :=
  (convert_exact (pair_exact text_exact (pair_total uint16_exact uint32_exact)) (fun _ => rfl)
    fun _ => rfl).of_iff fun _ => and_iff_left trivial

theorem flags_exact : flags.Exact fun _ => True :=
  convert_total (pair_total bool_exact (pair_total bool_exact (pair_total bool_exact bool_exact)))
    (fun _ => rfl) fun _ => rfl

theorem cpu_exact : cpu.Exact fun _ => True := by
  unfold cpu
  refine convert_total ?_ (fun _ => rfl) fun _ => rfl
  apply_rules [pair_total, bool_exact, uint8_exact, uint16_exact, flags_exact]

theorem banks_exact : banks.Exact fun _ => True := by
  unfold banks
  refine convert_total ?_ (fun _ => rfl) fun _ => rfl
  apply_rules [pair_total, bool_exact, uint8_exact, uint64_exact]

theorem clockTime_exact : clockTime.Exact fun _ => True := by
  unfold clockTime
  refine convert_total ?_ (fun _ => rfl) fun _ => rfl
  apply_rules [pair_total, uint8_exact]

theorem clock_exact : clock.Exact fun _ => True := by
  unfold clock
  refine convert_total ?_ (fun _ => rfl) fun _ => rfl
  apply_rules [pair_total, clockTime_exact, bool_exact, uint32_exact]

theorem timer_exact : timer.Exact fun _ => True := by
  unfold timer
  refine convert_total ?_ (fun _ => rfl) fun _ => rfl
  apply_rules [pair_total, uint8_exact, uint16_exact]

theorem oamDma_exact : oamDma.Exact fun _ => True := by
  unfold oamDma
  refine convert_total ?_ (fun _ => rfl) fun _ => rfl
  apply_rules [pair_total, bool_exact, uint8_exact, uint16_exact]

theorem vramDma_exact : vramDma.Exact fun _ => True := by
  unfold vramDma
  refine convert_total ?_ (fun _ => rfl) fun _ => rfl
  apply_rules [pair_total, bool_exact, uint8_exact, uint16_exact]

/-- The tail of the hardware, behind the last memory of a size of its own. -/
private theorem tail_exact :
    ((segment 0xA0).pair ((segment 0x80).pair ((segment 0x7F).pair (uint8.pair (banks.pair
      (clock.pair (timer.pair (oamDma.pair (vramDma.pair (bool.pair (bool.pair (bool.pair
      (uint32.pair (uint32.pair (uint64.pair bool))))))))))))))).Exact fun _ => True := by
  have sprites : (segment 0xA0).Exact fun _ => True := segment_exact (by decide)
  have registers : (segment 0x80).Exact fun _ => True := segment_exact (by decide)
  have high : (segment 0x7F).Exact fun _ => True := segment_exact (by decide)
  apply_rules [pair_total, bool_exact, uint8_exact, uint32_exact, uint64_exact, banks_exact,
    clock_exact, timer_exact, oamDma_exact, vramDma_exact]

end Layout

/-- Hardware that a snapshot can hold: the lengths of its title and its memories have eight bytes. -/
structure Hardware.Storable (hw : Hardware) : Prop where
  title : hw.identity.title.utf8ByteSize < 2 ^ 64
  cartRam : hw.cartRam.size < 2 ^ 64
  vram : hw.vram.size < 2 ^ 64
  wram : hw.wram.size < 2 ^ 64

namespace Layout

theorem hardware_exact : hardware.Exact Hardware.Storable := by
  have fields := pair_exact model_exact (pair_exact identity_exact (pair_exact cpu_exact
    (pair_exact uint64_exact (pair_exact memory_exact (pair_exact bool_exact (pair_exact bool_exact
    (pair_exact memory_exact (pair_exact memory_exact tail_exact))))))))
  refine (convert_exact fields (fun _ => rfl) fun _ => rfl).of_iff fun hw => ?_
  constructor
  · rintro ⟨-, title, -, -, cartRam, -, -, vram, wram, -⟩
    exact ⟨title, cartRam, vram, wram⟩
  · rintro ⟨title, cartRam, vram, wram⟩
    exact ⟨trivial, title, trivial, trivial, cartRam, trivial, trivial, vram, wram, trivial⟩

/-! Lengths. -/

theorem length_write_number (toNat : α → Nat) (ofNat : Nat → α) (a : α) :
    ((number width toNat ofNat).write a).length = width := length_writeNumber ..

theorem length_write_pair (first : Layout α) (second : Layout β) (p : α × β) :
    ((first.pair second).write p).length = (first.write p.1).length + (second.write p.2).length :=
  List.length_append

theorem length_write_convert (l : Layout α) (get : β → α) (make : α → β) (b : β) :
    ((l.convert get make).write b).length = (l.write (get b)).length := rfl

theorem length_write_refine (l : Layout α) (get : β → α) (make : α → Except Damage β) (b : β) :
    ((l.refine get make).write b).length = (l.write (get b)).length := rfl

theorem length_write_blob (bytes : List UInt8) : (blob.write bytes).length = 8 + bytes.length := by
  show (writeNumber 8 bytes.length ++ bytes).length = _
  rw [List.length_append, length_writeNumber]

theorem length_write_segment (s : Segment length) :
    ((segment length).write s).length = 8 + length := by
  rw [segment, length_write_refine, memory, length_write_convert, length_write_blob,
    Memory.length_toList, s.size_eq]

theorem length_write_text (s : String) : (text.write s).length = 8 + s.utf8ByteSize :=
  length_write_blob _

theorem length_write_memory (m : Memory) : (memory.write m).length = 8 + m.size :=
  length_write_blob _

/-- What a snapshot holds apart from title and memories has one length. -/
theorem length_write_hardware (hw : Hardware) :
    (hardware.write hw).length = 594 + hw.identity.title.utf8ByteSize + hw.cartRam.size +
      hw.vram.size + hw.wram.size := by
  simp only [hardware, identity, flags, cpu, banks, clockTime, clock, timer, oamDma, vramDma, model,
    bool, uint8, uint16, uint32, uint64, length_write_pair, length_write_convert, length_write_refine,
    length_write_number, length_write_segment, length_write_text, length_write_memory]
  omega

end Layout

/-! Snapshots. -/

namespace Snapshot

/-- A payload behind its header. -/
def envelope (body : List UInt8) : List UInt8 :=
  magic ++ Layout.uint16.write version ++ Layout.uint32.write (UInt32.ofNat body.length) ++ body

theorem payload_envelope (short : body.length < 2 ^ 32) : payload (envelope body) = .ok body := by
  have header := (Layout.pair_total Layout.uint16_exact Layout.uint32_exact).read_write
    (version, UInt32.ofNat body.length) trivial body
  have length : (UInt32.ofNat body.length).toNat = body.length := UInt32.toNat_ofNat_of_lt' short
  have written : envelope body = magic ++ ((Layout.uint16.pair Layout.uint32).write
      (version, UInt32.ofNat body.length) ++ body) := by
    simp only [envelope, Layout.pair, List.append_assoc]
  rw [payload, written, List.take_left, List.drop_left, header, if_neg fun bad => bad.2 rfl]
  dsimp only
  rw [if_neg fun other => other rfl, length, if_neg (Nat.lt_irrefl _), List.take_length]

theorem payload_write (short : (Layout.hardware.write hw).length < 2 ^ 32) :
    payload (write hw) = .ok (Layout.hardware.write hw) := payload_envelope short

/-- Reading a snapshot gives back the hardware that was written. -/
theorem read_write (storable : hw.Storable) (short : (Layout.hardware.write hw).length < 2 ^ 32) :
    read (write hw) = .ok hw := by
  have found := Layout.hardware_exact.read_write hw storable []
  rw [List.append_nil] at found
  rw [read, payload_write short]
  dsimp only
  rw [found]

end Snapshot

end GameBoy
