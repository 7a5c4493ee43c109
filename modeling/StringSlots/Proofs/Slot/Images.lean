import Mathlib.Logic.Function.Defs
import StringSlots.Slot.ByteOrder

/-!
# Images and their numbers

In each byte order the images of a width and the numbers of its bits correspond one to one, in both
directions (`ByteOrder.images_one_to_one`). Bytes in a jumbled order would do so too, so it is said
besides which digit of the number stands at which place of the image (`ByteOrder.getElem?_image`);
`ByteOrder.significance` is the one thing in which the orders differ.

A machine cuts the bytes out of a word of the slot's width, from its low end or from its high end,
and joins them again. Images are written and read here without words; `ByteOrder.wordImage_eq` and
`ByteOrder.map_toNat_wordValue?` say that this comes to the same for every word and all bytes.
-/

namespace StringSlots

/-! ## Digits of a number -/

theorem getElem?_littleEndian {k place : Nat} (n : Nat) (below : place < k) :
    (littleEndian k n)[place]? = some (UInt8.ofNat (n / Nat.pow 256 place)) := by
  induction k generalizing n place with
  | zero => exact absurd below (Nat.not_lt_zero place)
  | succ k ih =>
      cases place with
      | zero =>
          rw [littleEndian, List.getElem?_cons_zero]
          exact congrArg (fun digit => some (UInt8.ofNat digit)) (Nat.div_one n).symm
      | succ place =>
          rw [littleEndian, List.getElem?_cons_succ, ih (n / 256) (Nat.lt_of_succ_lt_succ below),
            pow_byte_succ, Nat.div_div_eq_div_mul]

/-- The last byte is the most significant one. -/
theorem littleEndian_succ_append (k n : Nat) :
    littleEndian (k + 1) n = littleEndian k n ++ [UInt8.ofNat (n / Nat.pow 256 k)] := by
  induction k generalizing n with
  | zero => exact congrArg (fun digit => [UInt8.ofNat digit]) (Nat.div_one n).symm
  | succ k ih =>
      -- the digits move down by one byte, the last one with them
      rw [littleEndian, ih, littleEndian, List.cons_append, pow_byte_succ,
        Nat.div_div_eq_div_mul]

theorem div_pow_byte_eq_zero {n k place : Nat} (small : n < Nat.pow 256 k) (above : k ≤ place) :
    n / Nat.pow 256 place = 0 :=
  Nat.div_eq_of_lt (Nat.lt_of_lt_of_le small (Nat.pow_le_pow_right (by decide) above))

/-- Digits for which there is no byte are dropped. -/
theorem littleEndian_mod (k n : Nat) : littleEndian k (n % Nat.pow 256 k) = littleEndian k n := by
  have written := littleEndian_littleEndianValue (littleEndian k n)
  rwa [length_littleEndian, littleEndianValue_littleEndian] at written

/-! ## Bytes of machine words -/

namespace Word

variable {bits : Nat}

/-- The lowest byte of a word. -/
def lowByte (word : BitVec bits) : UInt8 :=
  ⟨word.setWidth 8⟩

/-- Bytes cut out of a word, from the lowest up. -/
def bytesUp : Nat → BitVec bits → Bytes
  | 0, _ => []
  | count + 1, word => lowByte word :: bytesUp count (word >>> 8)

/-- The same bytes from the highest down. -/
def bytesDown : Nat → BitVec bits → Bytes
  | 0, _ => []
  | count + 1, word => lowByte (word >>> (8 * count)) :: bytesDown count word

/-- A word moved up by one byte, with the given byte at its low end. -/
def push (word : BitVec bits) (byte : UInt8) : BitVec bits :=
  word <<< 8 ||| byte.toBitVec.setWidth bits

/-- The word of bytes that stand from the lowest up. -/
def joinUp (bits : Nat) (bytes : Bytes) : BitVec bits :=
  bytes.foldr (fun byte word => push word byte) 0

/-- The word of bytes that stand from the highest down. -/
def joinDown (bits : Nat) (bytes : Bytes) : BitVec bits :=
  bytes.foldl push 0

theorem lowByte_eq (word : BitVec bits) : lowByte word = UInt8.ofNat word.toNat := by
  apply UInt8.toNat_inj.1
  rw [UInt8.toNat_ofNat']
  exact BitVec.toNat_setWidth 8 word

theorem toNat_shiftRight_byte (word : BitVec bits) (count : Nat) :
    (word >>> (8 * count)).toNat = word.toNat / Nat.pow 256 count := by
  rw [BitVec.toNat_ushiftRight, Nat.shiftRight_eq_div_pow, pow_byte_eq]
  rfl

theorem bytesUp_eq (count : Nat) (word : BitVec bits) :
    bytesUp count word = littleEndian count word.toNat := by
  induction count generalizing word with
  | zero => rfl
  | succ count ih =>
      have rest : (word >>> 8).toNat = word.toNat / 256 := toNat_shiftRight_byte word 1
      rw [bytesUp, littleEndian, lowByte_eq, ih, rest]

theorem bytesDown_eq (count : Nat) (word : BitVec bits) :
    bytesDown count word = (littleEndian count word.toNat).reverse := by
  induction count with
  | zero => rfl
  | succ count ih =>
      rw [bytesDown, lowByte_eq, toNat_shiftRight_byte, ih, littleEndian_succ_append,
        List.reverse_append]
      rfl

/-- A byte is pushed without loss when the result fits the word. -/
theorem toNat_push {word : BitVec bits} {byte : UInt8}
    (fits : byte.toNat + 256 * word.toNat < Nat.pow 2 bits) :
    (push word byte).toNat = byte.toNat + 256 * word.toNat := by
  have high : (word <<< 8).toNat = Nat.pow 2 8 * word.toNat := by
    rw [BitVec.toNat_shiftLeft, Nat.shiftLeft_eq, Nat.mul_comm]
    exact Nat.mod_eq_of_lt (Nat.lt_of_le_of_lt (Nat.le_add_left _ _) fits)
  have low : (byte.toBitVec.setWidth bits).toNat = byte.toNat := by
    rw [BitVec.toNat_setWidth]
    exact Nat.mod_eq_of_lt (Nat.lt_of_le_of_lt (Nat.le_add_right _ _) fits)
  -- the byte lies in the bits that the shift has cleared
  rw [push, BitVec.toNat_or, high, low, ← Nat.two_pow_add_eq_or_of_lt byte.toNat_lt word.toNat]
  exact Nat.add_comm _ _

theorem toNat_joinUp {bytes : Bytes} (fits : littleEndianValue bytes < Nat.pow 2 bits) :
    (joinUp bits bytes).toNat = littleEndianValue bytes := by
  induction bytes with
  | nil => rfl
  | cons byte rest ih =>
      rw [littleEndianValue] at fits
      -- what fits with one more byte fits without it
      have joined := ih (by omega)
      rw [← joined] at fits
      rw [littleEndianValue, ← joined]
      exact toNat_push fits

/-- From either end, the byte that is pushed last is the lowest. -/
theorem joinDown_eq (bytes : Bytes) : joinDown bits bytes = joinUp bits bytes.reverse := by
  rw [joinUp, List.foldr_reverse]
  rfl

end Word

namespace ByteOrder

/-! ## Places of digits -/

/-- The digit that stands at a place of an image, counted from the least significant one. -/
def significance (order : ByteOrder) (width : SlotWidth) (place : Nat) : Nat :=
  match order with
  | .native => place
  | .little => place
  | .big => width.bytes - 1 - place

theorem significance_lt (order : ByteOrder) {width : SlotWidth} {place : Nat}
    (below : place < width.bytes) : order.significance width place < width.bytes := by
  cases order with
  | native => exact below
  | little => exact below
  | big =>
      rw [significance]
      omega

theorem getElem?_arrange (order : ByteOrder) {width : SlotWidth} {bytes : Bytes} {place : Nat}
    (length : bytes.length = width.bytes) (below : place < width.bytes) :
    (order.arrange bytes)[place]? = bytes[order.significance width place]? := by
  cases order with
  | native => rfl
  | little => rfl
  | big => rw [arrange, List.getElem?_reverse (by rwa [length]), length, significance]

theorem getElem?_image (order : ByteOrder) {width : SlotWidth} {place : Nat} (raw : Nat)
    (below : place < width.bytes) :
    (order.image width raw)[place]? =
      some (UInt8.ofNat (raw / Nat.pow 256 (order.significance width place))) := by
  rw [image, getElem?_arrange order (length_littleEndian ..) below,
    getElem?_littleEndian raw (order.significance_lt below)]

/-! ## Numbers and images -/

variable {width : SlotWidth}

theorem image_mod (order : ByteOrder) (width : SlotWidth) (raw : Nat) :
    order.image width (raw % Nat.pow 2 (8 * width.bytes)) = order.image width raw := by
  rw [image, ← pow_byte_eq, littleEndian_mod, image]

theorem value?_eq_none_iff {order : ByteOrder} {bytes : Bytes} :
    order.value? bytes = none ↔ bytes.length ≠ 4 ∧ bytes.length ≠ 8 := by
  rw [value?]
  split <;> simp <;> omega

/-- All bytes of a slot are those of a number in its range. -/
theorem exists_value? (order : ByteOrder) {bytes : Bytes} (length : bytes.length = width.bytes) :
    ∃ raw < Nat.pow 2 (8 * width.bytes), order.value? bytes = some raw := by
  have fits : bytes.length = 4 ∨ bytes.length = 8 := by
    rw [length]
    exact width.bytes_eq_or
  refine ⟨littleEndianValue (order.arrange bytes), ?_, if_pos fits⟩
  have below := littleEndianValue_lt (order.arrange bytes)
  rwa [length_arrange, length, pow_byte_eq] at below

/-- Two numbers have one image when they agree in the bits of the slot. -/
theorem image_eq_iff {order : ByteOrder} {raw other : Nat} :
    order.image width raw = order.image width other ↔
      raw % Nat.pow 2 (8 * width.bytes) = other % Nat.pow 2 (8 * width.bytes) := by
  constructor
  · intro same
    have read := congrArg order.value? same
    rw [value?_image, value?_image, pow_byte_eq] at read
    exact Option.some.inj read
  · intro same
    rw [← image_mod order width raw, same, image_mod]

/-! ## Images of machine words -/

/-- The bytes of a word in memory. -/
def wordBytes {bits : Nat} (order : ByteOrder) (count : Nat) (word : BitVec bits) : Bytes :=
  match order with
  | .native => Word.bytesUp count word
  | .little => Word.bytesUp count word
  | .big => Word.bytesDown count word

/-- The word with the given bytes in memory. -/
def wordOf (order : ByteOrder) (bits : Nat) (bytes : Bytes) : BitVec bits :=
  match order with
  | .native => Word.joinUp bits bytes
  | .little => Word.joinUp bits bytes
  | .big => Word.joinDown bits bytes

/-- The image of a word of 64 bits. For a slot of four bytes it is first cut to a shorter word. -/
def wordImage (order : ByteOrder) (width : SlotWidth) (raw : UInt64) : Bytes :=
  match width with
  | .w32 => order.wordBytes 4 raw.toUInt32.toBitVec
  | .w64 => order.wordBytes 8 raw.toBitVec

/-- The word of 64 bits of an image; one of four bytes is read into a shorter word. -/
def wordValue? (order : ByteOrder) (bytes : Bytes) : Option UInt64 :=
  match bytes.length with
  | 4 => some (UInt32.ofBitVec (order.wordOf 32 bytes)).toUInt64
  | 8 => some (UInt64.ofBitVec (order.wordOf 64 bytes))
  | _ => none

theorem wordBytes_eq {bits : Nat} (order : ByteOrder) (count : Nat) (word : BitVec bits) :
    order.wordBytes count word = order.arrange (littleEndian count word.toNat) := by
  cases order with
  | native => exact Word.bytesUp_eq count word
  | little => exact Word.bytesUp_eq count word
  | big => exact Word.bytesDown_eq count word

theorem toNat_wordOf {bits : Nat} (order : ByteOrder) {bytes : Bytes}
    (length : 8 * bytes.length = bits) :
    (order.wordOf bits bytes).toNat = littleEndianValue (order.arrange bytes) := by
  have fits : littleEndianValue (order.arrange bytes) < Nat.pow 2 bits := by
    have below := littleEndianValue_lt (order.arrange bytes)
    rwa [length_arrange, pow_byte_eq, length] at below
  cases order with
  | native => exact Word.toNat_joinUp fits
  | little => exact Word.toNat_joinUp fits
  | big =>
      rw [wordOf, Word.joinDown_eq]
      exact Word.toNat_joinUp fits

theorem wordImage_eq (order : ByteOrder) (width : SlotWidth) (raw : UInt64) :
    order.wordImage width raw = order.image width raw.toNat := by
  cases width with
  | w32 =>
      -- cutting the word loses only what a slot of four bytes does not hold
      have cut : raw.toUInt32.toBitVec.toNat = raw.toNat % Nat.pow 256 SlotWidth.w32.bytes :=
        UInt64.toNat_toUInt32 raw
      rw [wordImage, wordBytes_eq, cut, image]
      exact congrArg order.arrange (littleEndian_mod SlotWidth.w32.bytes raw.toNat)
  | w64 => exact wordBytes_eq order 8 raw.toBitVec

theorem map_toNat_wordValue? (order : ByteOrder) (bytes : Bytes) :
    (order.wordValue? bytes).map UInt64.toNat = order.value? bytes := by
  rw [wordValue?, value?]
  split
  · next four =>
    rw [if_pos (Or.inl four), Option.map_some, UInt32.toNat_toUInt64]
    exact congrArg some (toNat_wordOf order (by rw [four]))
  · next eight =>
    rw [if_pos (Or.inr eight), Option.map_some]
    exact congrArg some (toNat_wordOf order (by rw [eight]))
  · next four eight =>
    rw [if_neg (fun fits => fits.elim four eight), Option.map_none]

/-! ## Two orders -/

theorem image_big (width : SlotWidth) (raw : Nat) :
    ByteOrder.big.image width raw = (ByteOrder.little.image width raw).reverse := rfl

/-- A number is read back in another order than it was written exactly when both orders have one
image for it. -/
theorem value?_image_eq_iff {first second : ByteOrder} {raw : Nat} :
    second.value? (first.image width raw) = some (raw % Nat.pow 2 (8 * width.bytes)) ↔
      second.image width raw = first.image width raw := by
  constructor
  · intro read
    rw [← image_mod]
    exact image_value? second width _ _ (length_image first width raw) read
  · intro same
    rw [← same, value?_image, pow_byte_eq]

/-- A number that fits half a slot and has one image in both orders has no digit but zero. -/
theorem getElem?_image_of_same {raw place : Nat} (small : raw < Nat.pow 256 (width.bytes / 2))
    (same : ByteOrder.big.image width raw = ByteOrder.little.image width raw)
    (below : place < width.bytes) : (ByteOrder.little.image width raw)[place]? = some 0 := by
  rcases Nat.lt_or_ge place (width.bytes / 2) with lower | upper
  · -- in the other order a digit of the upper half stands here
    have mirrored : width.bytes / 2 ≤ ByteOrder.big.significance width place := by
      rw [significance]
      omega
    rw [← same, getElem?_image .big raw below, div_pow_byte_eq_zero small mirrored]
    rfl
  · rw [getElem?_image .little raw below, significance, div_pow_byte_eq_zero small upper]
    rfl

/-- A number that fits half a slot has different images in the two orders, unless it is zero. -/
theorem image_big_ne {raw : Nat} (pos : 0 < raw) (small : raw < Nat.pow 256 (width.bytes / 2)) :
    ByteOrder.big.image width raw ≠ ByteOrder.little.image width raw := by
  intro same
  have zeros : ByteOrder.little.image width raw = ByteOrder.little.image width 0 := by
    apply List.ext_getElem?
    intro place
    rcases Nat.lt_or_ge place width.bytes with below | behind
    · rw [getElem?_image_of_same small same below, getElem?_image .little 0 below, Nat.zero_div]
      rfl
    · rw [List.getElem?_eq_none (by simpa using behind),
        List.getElem?_eq_none (by simpa using behind)]
  -- the slot holds the number whole, so its image tells it from zero
  have below : raw < Nat.pow 2 (8 * width.bytes) := by
    rw [← pow_byte_eq]
    exact Nat.lt_of_lt_of_le small
      (Nat.pow_le_pow_right (by decide) (Nat.div_le_self width.bytes 2))
  have raw_zero := image_eq_iff.1 zeros
  rw [Nat.mod_eq_of_lt below, Nat.zero_mod] at raw_zero
  exact Nat.ne_of_gt pos raw_zero

/-! ## All numbers and all bytes -/

/-- The image of a number of the slot's bits, which has the slot's length. -/
def imageOf (order : ByteOrder) (width : SlotWidth) (raw : Fin (Nat.pow 2 (8 * width.bytes))) :
    { bytes : Bytes // bytes.length = width.bytes } :=
  ⟨order.image width raw.val, length_image order width raw.val⟩

theorem bijective_imageOf (order : ByteOrder) (width : SlotWidth) :
    Function.Bijective (order.imageOf width) := by
  constructor
  · intro raw other same
    have agree := image_eq_iff.1 (congrArg Subtype.val same)
    rw [Nat.mod_eq_of_lt raw.isLt, Nat.mod_eq_of_lt other.isLt] at agree
    exact Fin.ext agree
  · rintro ⟨bytes, length⟩
    obtain ⟨raw, below, read⟩ := order.exists_value? length
    exact ⟨⟨raw, below⟩, Subtype.ext (image_value? order width bytes raw length read)⟩

/-- What an order makes of the numbers and of the bytes of a width. -/
structure OneToOne (order : ByteOrder) (width : SlotWidth) : Prop where
  length_eq : ∀ raw, (order.image width raw).length = width.bytes
  /-- Bits above the width are dropped, and all others come back. -/
  value?_image : ∀ raw,
    order.value? (order.image width raw) = some (raw % Nat.pow 2 (8 * width.bytes))
  /-- All bytes of the slot's length come back from their number. -/
  image_value? : ∀ bytes : Bytes, bytes.length = width.bytes →
    ∃ raw < Nat.pow 2 (8 * width.bytes),
      order.value? bytes = some raw ∧ order.image width raw = bytes
  none_iff : ∀ bytes, order.value? bytes = none ↔ bytes.length ≠ 4 ∧ bytes.length ≠ 8
  bijective : Function.Bijective (order.imageOf width)
  /-- Each byte is the digit of its place. -/
  digit_eq : ∀ raw, ∀ place < width.bytes, (order.image width raw)[place]? =
    some (UInt8.ofNat (raw / Nat.pow 256 (order.significance width place)))
  /-- Bytes cut out of machine words are those of the image. -/
  wordImage_eq : ∀ raw, order.wordImage width raw = order.image width raw.toNat
  /-- Words joined from bytes are those of the number, and there is none when there is no number. -/
  wordValue?_eq : ∀ bytes, (order.wordValue? bytes).map UInt64.toNat = order.value? bytes

/-- How the images of a width in the two orders are related. -/
structure Reversed (width : SlotWidth) : Prop where
  image_eq : ∀ raw, ByteOrder.big.image width raw = (ByteOrder.little.image width raw).reverse
  wordImage_eq : ∀ raw,
    ByteOrder.big.wordImage width raw = (ByteOrder.little.wordImage width raw).reverse
  value?_eq : ∀ bytes, ByteOrder.big.value? bytes = ByteOrder.little.value? bytes.reverse
  /-- An order that was mixed up does no harm exactly to numbers with one image in both. -/
  readAcross_iff : ∀ (first second : ByteOrder) raw,
    second.value? (first.image width raw) = some (raw % Nat.pow 2 (8 * width.bytes)) ↔
      second.image width raw = first.image width raw
  /-- Among the numbers that fit half a slot this is zero alone. -/
  image_ne : ∀ raw, 0 < raw → raw < Nat.pow 256 (width.bytes / 2) →
    ByteOrder.big.image width raw ≠ ByteOrder.little.image width raw

theorem oneToOne (order : ByteOrder) (width : SlotWidth) : order.OneToOne width where
  length_eq := length_image order width
  value?_image raw := by
    rw [ByteOrder.value?_image, pow_byte_eq]
  image_value? bytes length := by
    obtain ⟨raw, below, read⟩ := order.exists_value? length
    exact ⟨raw, below, read, ByteOrder.image_value? order width bytes raw length read⟩
  none_iff _ := value?_eq_none_iff
  bijective := bijective_imageOf order width
  digit_eq raw _ below := order.getElem?_image raw below
  wordImage_eq := ByteOrder.wordImage_eq order width
  wordValue?_eq := map_toNat_wordValue? order

theorem reversed (width : SlotWidth) : Reversed width where
  image_eq := image_big width
  wordImage_eq raw := by
    rw [ByteOrder.wordImage_eq, ByteOrder.wordImage_eq, image_big]
  value?_eq bytes := by
    rw [value?, value?, List.length_reverse]
    rfl
  readAcross_iff _ _ _ := value?_image_eq_iff
  image_ne _ := image_big_ne

/-- In every order and width, numbers and images correspond one to one, and the two orders differ by
a reversal. -/
theorem images_one_to_one (width : SlotWidth) :
    (∀ order : ByteOrder, order.OneToOne width) ∧ Reversed width :=
  ⟨fun order => oneToOne order width, reversed width⟩

example : ByteOrder.big.image .w32 0x0901_0203_0405 = [2, 3, 4, 5] := by decide

end ByteOrder

end StringSlots
