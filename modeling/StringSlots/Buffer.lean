import Std.Data.TreeMap
import StringSlots.Bytes

/-!
# Record buffers

A buffer has a fixed size and starts out filled with one byte. What has been written since is kept
by position, so a large buffer of which little was written stays small.

`bytes` spells a buffer out, and every operation is determined by what it does there: writing is
`StringSlots.overwrite` (`bytes_overwrite`), taking a part out is `StringSlots.segment`
(`segment_eq`), and a shorter buffer holds a prefix (`bytes_take`). Every byte string is the bytes
of a buffer (`bytes_ofBytes`). The same statements position by position are `byte_overwrite` and
`getElem_bytes`.
-/

namespace StringSlots

/-- The size, the byte that fills what was never written, and the written bytes by position. -/
structure Buffer where
  size : Nat
  fill : UInt8
  written : Std.TreeMap Nat UInt8

namespace Buffer

/-- The buffer of a size with nothing written. -/
def filled (size : Nat) (fill : UInt8) : Buffer :=
  { size, fill, written := ∅ }

/-- The byte at a position. -/
def byte (buffer : Buffer) (position : Nat) : UInt8 :=
  buffer.written.getD position buffer.fill

/-- All bytes of a buffer in order. -/
def bytes (buffer : Buffer) : Bytes :=
  (List.range buffer.size).map buffer.byte

/-- The bytes between two positions. -/
def segment (buffer : Buffer) (first stop : Nat) : Bytes :=
  (List.range' first (stop - first)).map buffer.byte

/-- The buffer with the byte at a position replaced. -/
def set (buffer : Buffer) (position : Nat) (value : UInt8) : Buffer :=
  { buffer with written := buffer.written.insert position value }

/-- The buffer with the bytes from `first` on replaced by an image. -/
def overwrite (buffer : Buffer) (first : Nat) : Bytes → Buffer
  | [] => buffer
  | value :: rest => (buffer.set first value).overwrite (first + 1) rest

/-- The buffer of the given bytes. -/
def ofBytes (bytes : Bytes) : Buffer :=
  (filled bytes.length 0).overwrite 0 bytes

/-- The buffer cut down to its first `size` bytes. -/
def take (buffer : Buffer) (size : Nat) : Buffer :=
  { buffer with size := min size buffer.size }

@[simp] theorem size_filled (size : Nat) (fill : UInt8) : (filled size fill).size = size := rfl

@[simp] theorem size_take (buffer : Buffer) (size : Nat) :
    (buffer.take size).size = min size buffer.size := rfl

@[simp] theorem size_overwrite (buffer : Buffer) (first : Nat) (image : Bytes) :
    (buffer.overwrite first image).size = buffer.size := by
  induction image generalizing buffer first with
  | nil => rfl
  | cons value rest ih =>
      rw [overwrite, ih]
      rfl

theorem byte_set (buffer : Buffer) (position other : Nat) (value : UInt8) :
    (buffer.set position value).byte other =
      if position = other then value else buffer.byte other := by
  simp [byte, set, Std.TreeMap.getD_insert]

/-- Inside the image a write gives its bytes; all other positions keep theirs. -/
theorem byte_overwrite (buffer : Buffer) (first position : Nat) (image : Bytes) :
    (buffer.overwrite first image).byte position =
      if first ≤ position then image.getD (position - first) (buffer.byte position)
      else buffer.byte position := by
  induction image generalizing buffer first with
  | nil => simp [overwrite]
  | cons value rest ih =>
      rw [overwrite, ih, byte_set]
      rcases Nat.lt_trichotomy position first with before | rfl | after
      · rw [if_neg (by omega), if_neg (by omega), if_neg (by omega)]
      · rw [if_neg (by omega), if_pos rfl, if_pos (by omega), Nat.sub_self, List.getD_cons_zero]
      · obtain ⟨distance, far⟩ := Nat.exists_eq_add_of_lt after
        rw [if_pos (by omega), if_neg (by omega), if_pos (by omega),
          show position - first = distance + 1 by omega,
          show position - (first + 1) = distance by omega, List.getD_cons_succ]

@[simp] theorem length_bytes (buffer : Buffer) : buffer.bytes.length = buffer.size := by
  simp [bytes]

theorem getElem_bytes (buffer : Buffer) (position : Nat)
    (inside : position < buffer.bytes.length) :
    buffer.bytes[position] = buffer.byte position := by
  simp [bytes]

@[simp] theorem bytes_filled (size : Nat) (fill : UInt8) :
    (filled size fill).bytes = List.replicate size fill := by
  apply List.ext_getElem <;> simp [bytes, byte, filled]

/-- A write inside the buffer is a write in its bytes. -/
theorem bytes_overwrite {buffer : Buffer} {first : Nat} {image : Bytes}
    (inside : first + image.length ≤ buffer.size) :
    (buffer.overwrite first image).bytes = StringSlots.overwrite buffer.bytes first image := by
  apply List.ext_getElem
  · rw [length_overwrite (by simpa using inside), length_bytes, length_bytes, size_overwrite]
  · intro position below _
    rw [length_bytes, size_overwrite] at below
    have front : min first buffer.size = first := by omega
    simp only [getElem_bytes, byte_overwrite, StringSlots.overwrite, List.getElem_append,
      List.length_append, List.length_take, List.getElem_take, List.getElem_drop, length_bytes,
      front]
    by_cases before : position < first
    · rw [if_neg (by omega), dif_pos (by omega), dif_pos before]
    · rw [if_pos (by omega)]
      by_cases within : position < first + image.length
      · rw [dif_pos within, dif_neg before, List.getD_eq_getElem?_getD,
          List.getElem?_eq_getElem (by omega), Option.getD_some]
      · rw [dif_neg within, List.getD_eq_getElem?_getD, List.getElem?_eq_none (by omega),
          Option.getD_none, Nat.add_sub_cancel' (by omega)]

@[simp] theorem bytes_ofBytes (bytes : Bytes) : (ofBytes bytes).bytes = bytes := by
  rw [ofBytes, bytes_overwrite (by simp)]
  simp [StringSlots.overwrite]

/-- A part inside the buffer is that part of its bytes. -/
theorem segment_eq {buffer : Buffer} {first stop : Nat} (inside : stop ≤ buffer.size) :
    buffer.segment first stop = StringSlots.segment buffer.bytes first stop := by
  apply List.ext_getElem
  · simp only [segment, StringSlots.segment, List.length_map, List.length_range', List.length_take,
      List.length_drop, length_bytes]
    omega
  · intro position _ _
    simp [segment, StringSlots.segment, getElem_bytes]

@[simp] theorem length_segment (buffer : Buffer) (first stop : Nat) :
    (buffer.segment first stop).length = stop - first := by
  simp [segment]

/-- What was written is what is read at the same place. -/
theorem segment_overwrite (buffer : Buffer) (first : Nat) (image : Bytes) :
    (buffer.overwrite first image).segment first (first + image.length) = image := by
  apply List.ext_getElem
  · simp
  · intro position _ below
    simp [segment, byte_overwrite, below]

theorem bytes_take (buffer : Buffer) (size : Nat) :
    (buffer.take size).bytes = buffer.bytes.take size := by
  simp only [bytes, ← List.map_take, List.take_range]
  rfl

end Buffer

end StringSlots
