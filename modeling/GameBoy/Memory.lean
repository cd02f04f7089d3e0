/-!
Byte memories. A memory is addressed from zero; reading past its end gives the open-bus byte, and
writing there changes nothing. Main statements: `toList_write`, `read_eq_getD` and their kin
describe every operation through the list of the bytes.
-/

namespace GameBoy

/-- The byte that a read sees where nothing answers. -/
def openBus : UInt8 := 0xFF

/-- A block of bytes that can be read and written one at a time. -/
structure Memory where
  bytes : ByteArray

namespace Memory

/-- The bytes in the order of their addresses. -/
def toList (m : Memory) : List UInt8 := m.bytes.data.toList

/-- The memory that holds the given bytes. -/
def ofList (bytes : List UInt8) : Memory := ⟨⟨bytes.toArray⟩⟩

/-- A cleared memory. -/
def zeros (size : Nat) : Memory := ⟨⟨Array.replicate size 0⟩⟩

instance : Inhabited Memory := ⟨zeros 0⟩

/-- The number of bytes. -/
def size (m : Memory) : Nat := m.bytes.size

/-- The byte at an address. -/
def read (m : Memory) (address : Nat) : UInt8 :=
  if h : address < m.bytes.size then m.bytes[address] else openBus

/-- Stores a byte at an address. -/
def write (m : Memory) (address : Nat) (value : UInt8) : Memory :=
  if h : address < m.bytes.size then ⟨m.bytes.set address value h⟩ else m

/-- The bytes from an address on, at most as many as asked for. -/
def slice (m : Memory) (start length : Nat) : Memory :=
  ⟨m.bytes.extract start (start + length)⟩

/-- Replaces as many leading bytes as both memories have. -/
def overlay (m front : Memory) : Memory :=
  ofList (front.toList.take m.size ++ m.toList.drop front.size)

@[ext] theorem ext {m n : Memory} (same : m.toList = n.toList) : m = n := by
  obtain ⟨⟨a⟩⟩ := m
  obtain ⟨⟨b⟩⟩ := n
  simp only [toList, Array.toList_inj] at same
  rw [same]

instance : DecidableEq Memory := fun m n =>
  decidable_of_iff (m.toList = n.toList) ⟨ext, congrArg toList⟩

@[simp] theorem toList_ofList (bytes : List UInt8) : (ofList bytes).toList = bytes := rfl

@[simp] theorem ofList_toList (m : Memory) : ofList m.toList = m := ext rfl

@[simp] theorem length_toList (m : Memory) : m.toList.length = m.size := rfl

@[simp] theorem size_ofList (bytes : List UInt8) : (ofList bytes).size = bytes.length := rfl

@[simp] theorem toList_zeros (size : Nat) : (zeros size).toList = List.replicate size 0 := by
  simp [toList, zeros]

@[simp] theorem size_zeros (size : Nat) : (zeros size).size = size := by
  rw [← length_toList, toList_zeros, List.length_replicate]

theorem read_eq_getD (m : Memory) (address : Nat) :
    m.read address = m.toList.getD address openBus := by
  obtain ⟨⟨bytes⟩⟩ := m
  simp only [read, toList, ByteArray.size, List.getD_eq_getElem?_getD, Array.getElem?_toList]
  split
  · rename_i inside
    rw [Array.getElem?_eq_getElem inside]
    rfl
  · rename_i outside
    rw [Array.getElem?_eq_none (Nat.le_of_not_lt outside)]
    rfl

theorem read_zeros {size address : Nat} (inside : address < size) :
    (zeros size).read address = 0 := by
  rw [read_eq_getD, toList_zeros, List.getD_eq_getElem?_getD, List.getElem?_replicate_of_lt inside]
  rfl

@[simp] theorem toList_write (m : Memory) (address : Nat) (value : UInt8) :
    (m.write address value).toList = m.toList.set address value := by
  obtain ⟨⟨bytes⟩⟩ := m
  simp only [write, toList, ByteArray.size]
  split
  · rfl
  · rename_i outside
    exact (List.set_eq_of_length_le (Nat.le_of_not_lt outside)).symm

@[simp] theorem size_write (m : Memory) (address : Nat) (value : UInt8) :
    (m.write address value).size = m.size := by
  rw [← length_toList, toList_write, List.length_set, length_toList]

theorem read_write_same {m : Memory} {address : Nat} (inside : address < m.size)
    (value : UInt8) : (m.write address value).read address = value := by
  rw [← length_toList] at inside
  simp [read_eq_getD, List.getD_eq_getElem?_getD, List.getElem?_set_self inside]

theorem read_write_ne (m : Memory) {address other : Nat} (different : address ≠ other)
    (value : UInt8) : (m.write address value).read other = m.read other := by
  simp [read_eq_getD, List.getD_eq_getElem?_getD, List.getElem?_set_ne different]

@[simp] theorem toList_slice (m : Memory) (start length : Nat) :
    (m.slice start length).toList = (m.toList.drop start).take length := by
  obtain ⟨⟨bytes⟩⟩ := m
  show (ByteArray.extract ⟨bytes⟩ start (start + length)).data.toList = _
  rw [ByteArray.data_extract, Array.toList_extract, List.extract_eq_take_drop,
    Nat.add_sub_cancel_left]
  rfl

theorem read_slice (m : Memory) (start : Nat) {length address : Nat} (inside : address < length) :
    (m.slice start length).read address = m.read (start + address) := by
  simp only [read_eq_getD, toList_slice, List.getD_eq_getElem?_getD,
    List.getElem?_take_of_lt inside, List.getElem?_drop]

@[simp] theorem toList_overlay (m front : Memory) :
    (m.overlay front).toList = front.toList.take m.size ++ m.toList.drop front.size := rfl

@[simp] theorem size_overlay (m front : Memory) : (m.overlay front).size = m.size := by
  rw [← length_toList, toList_overlay, List.length_append, List.length_take, List.length_drop,
    length_toList, length_toList]
  omega

/-- Where both have the same size, nothing of the memory below is left. -/
theorem overlay_eq_front {m front : Memory} (size : front.size = m.size) :
    m.overlay front = front := by
  have fits : front.toList.length ≤ m.size := Nat.le_of_eq size
  have covers : m.toList.length ≤ front.size := Nat.le_of_eq size.symm
  ext1
  rw [toList_overlay, List.take_of_length_le fits, List.drop_of_length_le covers, List.append_nil]

end Memory

/-- A memory whose size is fixed by the machine. -/
structure Segment (length : Nat) where
  memory : Memory
  size_eq : memory.size = length
deriving DecidableEq

namespace Segment

/-- The bytes in the order of their addresses. -/
def toList (s : Segment length) : List UInt8 := s.memory.toList

/-- A cleared segment. -/
def zeros (length : Nat) : Segment length := ⟨.zeros length, Memory.size_zeros length⟩

instance : Inhabited (Segment length) := ⟨zeros length⟩

/-- The byte at an address. -/
def read (s : Segment length) (address : Nat) : UInt8 := s.memory.read address

/-- Stores a byte at an address. -/
def write (s : Segment length) (address : Nat) (value : UInt8) : Segment length :=
  ⟨s.memory.write address value, by rw [Memory.size_write, s.size_eq]⟩

@[ext] theorem ext {s t : Segment length} (same : s.toList = t.toList) : s = t := by
  obtain ⟨m, hm⟩ := s
  obtain ⟨n, hn⟩ := t
  simp only [Segment.mk.injEq]
  exact Memory.ext same

@[simp] theorem length_toList (s : Segment length) : s.toList.length = length := s.size_eq

@[simp] theorem toList_zeros (length : Nat) :
    (zeros length).toList = List.replicate length 0 := Memory.toList_zeros length

@[simp] theorem toList_write (s : Segment length) (address : Nat) (value : UInt8) :
    (s.write address value).toList = s.toList.set address value := Memory.toList_write ..

theorem write_write (s : Segment length) (address : Nat) (first last : UInt8) :
    (s.write address first).write address last = s.write address last := by
  ext
  simp

theorem read_write_same (s : Segment length) {address : Nat} (inside : address < length)
    (value : UInt8) : (s.write address value).read address = value :=
  Memory.read_write_same (by rw [s.size_eq]; exact inside) value

theorem read_write_ne (s : Segment length) {address other : Nat} (different : address ≠ other)
    (value : UInt8) : (s.write address value).read other = s.read other :=
  Memory.read_write_ne s.memory different value

end Segment

end GameBoy
