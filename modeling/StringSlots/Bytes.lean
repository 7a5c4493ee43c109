/-!
# Byte strings

`littleEndian k n` is the `k`-byte positional form of `n`, least significant byte first, and
`littleEndianValue` reads it back. Reading a written number gives it modulo `Nat.pow 256 k`
(`littleEndianValue_littleEndian`), and writing a read number gives the same bytes
(`littleEndian_littleEndianValue`). Slot images and the argument bytes of binary item heads are
both built from these two functions.

`segment` takes a part out of a byte string and `overwrite` puts one in; what was put in is what is
taken out at the same place (`segment_overwrite`).
-/

namespace StringSlots

/-- Byte strings. -/
abbrev Bytes := List UInt8

/-- The number of addresses. Lengths, sizes and offsets of byte strings lie below it. -/
def addressSpace : Nat := 0x1_0000_0000_0000_0000

/-- The `k` low bytes of `n`, least significant first. -/
def littleEndian : Nat → Nat → Bytes
  | 0, _ => []
  | k + 1, n => UInt8.ofNat n :: littleEndian k (n / 256)

/-- The number whose bytes, least significant first, are given. -/
def littleEndianValue : Bytes → Nat
  | [] => 0
  | b :: rest => b.toNat + 256 * littleEndianValue rest

/-- The bytes between two positions. -/
def segment (bytes : Bytes) (first stop : Nat) : Bytes :=
  (bytes.drop first).take (stop - first)

/-- The bytes with those from `first` on replaced by `image`. -/
def overwrite (bytes : Bytes) (first : Nat) (image : Bytes) : Bytes :=
  bytes.take first ++ image ++ bytes.drop (first + image.length)

@[simp] theorem length_littleEndian (k n : Nat) : (littleEndian k n).length = k := by
  induction k generalizing n with
  | zero => rfl
  | succ k ih => simp only [littleEndian, List.length_cons, ih]

/-- One more byte makes 256 times as many numbers. -/
theorem pow_byte_succ (k : Nat) : Nat.pow 256 (k + 1) = 256 * Nat.pow 256 k :=
  Nat.mul_comm (Nat.pow 256 k) 256

/-- A byte has eight bits. -/
theorem pow_byte_eq (k : Nat) : Nat.pow 256 k = Nat.pow 2 (8 * k) :=
  (Nat.pow_mul 2 8 k).symm

/-- Reading back what was written keeps the number modulo the range of `k` bytes. -/
theorem littleEndianValue_littleEndian (k n : Nat) :
    littleEndianValue (littleEndian k n) = n % Nat.pow 256 k := by
  induction k generalizing n with
  | zero => simp [littleEndian, littleEndianValue, Nat.mod_one]
  | succ k ih =>
      have low : (UInt8.ofNat n).toNat = n % 256 := by simp
      rw [littleEndian, littleEndianValue, ih, low, pow_byte_succ, Nat.mod_mul]

/-- `k` bytes hold a number below `Nat.pow 256 k`. -/
theorem littleEndianValue_lt (bytes : Bytes) :
    littleEndianValue bytes < Nat.pow 256 bytes.length := by
  induction bytes with
  | nil => simp [littleEndianValue]
  | cons b rest ih =>
      have small : b.toNat < 256 := b.toNat_lt
      rw [littleEndianValue, List.length_cons, pow_byte_succ]
      omega

/-- Writing a read number at the same length gives the bytes back. -/
theorem littleEndian_littleEndianValue (bytes : Bytes) :
    littleEndian bytes.length (littleEndianValue bytes) = bytes := by
  induction bytes with
  | nil => rfl
  | cons b rest ih =>
      have small : b.toNat < 256 := b.toNat_lt
      have high : (b.toNat + 256 * littleEndianValue rest) / 256 = littleEndianValue rest := by
        omega
      have low : UInt8.ofNat (b.toNat + 256 * littleEndianValue rest) = b := by
        apply UInt8.toNat_inj.1
        rw [UInt8.toNat_ofNat']
        omega
      rw [List.length_cons, littleEndianValue, littleEndian, high, low, ih]

theorem length_overwrite {bytes image : Bytes} {first : Nat}
    (inside : first + image.length ≤ bytes.length) :
    (overwrite bytes first image).length = bytes.length := by
  simp only [overwrite, List.length_append, List.length_take, List.length_drop]
  omega

/-- A segment that starts where an image was written, and has its length, is that image. -/
theorem segment_overwrite {bytes image : Bytes} {first : Nat}
    (inside : first + image.length ≤ bytes.length) :
    segment (overwrite bytes first image) first (first + image.length) = image := by
  have length_before : (bytes.take first).length = first := by
    rw [List.length_take]
    omega
  rw [segment, overwrite, List.append_assoc, List.drop_append_of_le_length (by omega),
    List.drop_eq_nil_of_le (by omega), List.nil_append, Nat.add_sub_cancel_left,
    List.take_left]

end StringSlots
