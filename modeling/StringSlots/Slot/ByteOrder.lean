import StringSlots.Bytes
import StringSlots.Slot.Width

/-!
# Slot images

The image of a number in a slot is its bytes in the slot's byte order. The image of a width has
that many bytes (`length_image`); reading an image gives the number modulo the range of the width
(`value?_image`), and every string of four or eight bytes is the image of the number read from it
(`image_value?`).
-/

namespace StringSlots

/-- The order of the bytes of a slot. The native order of the platform is least significant byte
first; it is kept apart from `little` because a configuration shows which of the two was asked
for. -/
inductive ByteOrder where
  | native
  | little
  | big
  deriving DecidableEq

namespace ByteOrder

/-- The name of an order in stored descriptions. -/
def name : ByteOrder → String
  | .native => "native"
  | .little => "little"
  | .big => "big"

/-- The order of a given name. -/
def ofName? : String → Option ByteOrder
  | "native" => some .native
  | "little" => some .little
  | "big" => some .big
  | _ => none

/-- Bytes between memory order and least-significant-first order; the same step both ways. -/
def arrange : ByteOrder → Bytes → Bytes
  | .native, bytes => bytes
  | .little, bytes => bytes
  | .big, bytes => bytes.reverse

/-- The image of `raw` in a slot; bits above the width are dropped. -/
def image (order : ByteOrder) (width : SlotWidth) (raw : Nat) : Bytes :=
  order.arrange (littleEndian width.bytes raw)

/-- The number of an image. Only strings of four or eight bytes are images. -/
def value? (order : ByteOrder) (bytes : Bytes) : Option Nat :=
  if bytes.length = 4 ∨ bytes.length = 8 then some (littleEndianValue (order.arrange bytes))
  else none

@[simp] theorem arrange_arrange (order : ByteOrder) (bytes : Bytes) :
    order.arrange (order.arrange bytes) = bytes := by
  cases order <;> simp [arrange]

@[simp] theorem length_arrange (order : ByteOrder) (bytes : Bytes) :
    (order.arrange bytes).length = bytes.length := by
  cases order <;> simp [arrange]

@[simp] theorem length_image (order : ByteOrder) (width : SlotWidth) (raw : Nat) :
    (order.image width raw).length = width.bytes := by
  simp [image]

/-- Reading an image gives the number modulo the range of the width. -/
theorem value?_image (order : ByteOrder) (width : SlotWidth) (raw : Nat) :
    order.value? (order.image width raw) = some (raw % Nat.pow 256 width.bytes) := by
  rw [value?, length_image, if_pos width.bytes_eq_or, image, arrange_arrange,
    littleEndianValue_littleEndian]

/-- Bytes of a slot's length are the image of the number read from them. -/
theorem image_value? (order : ByteOrder) (width : SlotWidth) (bytes : Bytes) (raw : Nat)
    (same : bytes.length = width.bytes) (read : order.value? bytes = some raw) :
    order.image width raw = bytes := by
  have fits : bytes.length = 4 ∨ bytes.length = 8 := by
    rw [same]
    exact width.bytes_eq_or
  simp only [value?, if_pos fits, Option.some.injEq] at read
  rw [← read, image, ← same, ← length_arrange order, littleEndian_littleEndianValue,
    arrange_arrange]

end ByteOrder

end StringSlots
