import StringSlots.Codec.Config
import StringSlots.Record.View

/-!
# Handles in slots

`Buffer.handleAt` is the handle that a slot of a buffer holds. On slots inside the buffer it is what
`RecordView.readHandle` answers (`readHandle_eq`), and it hangs on the bytes of the slot alone
(`handleAt_congr`). So a write of a handle is read back at its slot (`handleAt_overwrite_image`) and
changes nothing at a slot that shares no byte with it (`handleAt_overwrite_of_apart`).
-/

namespace StringSlots

/-- The bytes that hold a handle, or the null marker, in a slot. -/
def CodecConfig.image (config : CodecConfig) (handle : Option Handle) : Bytes :=
  config.order.image config.width (Handle.raw handle)

@[simp] theorem CodecConfig.length_image (config : CodecConfig) (handle : Option Handle) :
    (config.image handle).length = config.width.bytes :=
  ByteOrder.length_image config.order config.width (Handle.raw handle)

namespace Buffer

/-- The number in the slot at an offset. -/
def rawAt (buffer : Buffer) (config : CodecConfig) (offset : Nat) : Nat :=
  littleEndianValue
    (config.order.arrange (buffer.segment offset (offset + config.width.bytes)))

/-- The handle in the slot at an offset; `none` for the null marker. -/
def handleAt (buffer : Buffer) (config : CodecConfig) (offset : Nat) : Option Handle :=
  Handle.ofNat? (buffer.rawAt config offset)

theorem value?_segment (buffer : Buffer) (config : CodecConfig) (offset : Nat) :
    config.order.value? (buffer.segment offset (offset + config.width.bytes)) =
      some (buffer.rawAt config offset) := by
  -- the reader accepts exactly the two widths
  rw [ByteOrder.value?, length_segment, Nat.add_sub_cancel_left, if_pos config.width.bytes_eq_or]
  rfl

/-! ## Bytes outside a write -/

theorem byte_overwrite_of_outside (buffer : Buffer) {first position : Nat} {image : Bytes}
    (outside : position < first ∨ first + image.length ≤ position) :
    (buffer.overwrite first image).byte position = buffer.byte position := by
  rw [byte_overwrite]
  split
  · rw [List.getD_eq_getElem?_getD, List.getElem?_eq_none (by omega), Option.getD_none]
  · rfl

/-- Two buffers hold the same bytes when their sizes agree and the bytes at all positions. -/
theorem bytes_eq_iff {a b : Buffer} :
    a.bytes = b.bytes ↔
      a.size = b.size ∧ ∀ position < a.size, a.byte position = b.byte position := by
  constructor
  · intro same
    have sizes : a.size = b.size := by rw [← length_bytes a, same, length_bytes]
    refine ⟨sizes, ?_⟩
    intro position below
    rw [← getElem_bytes a position (by simpa using below),
      ← getElem_bytes b position (by simpa [← sizes] using below)]
    simp only [same]
  · rintro ⟨sizes, bytes⟩
    rw [Buffer.bytes, Buffer.bytes, ← sizes]
    apply List.map_congr_left
    intro position mem
    exact bytes position (List.mem_range.1 mem)

/-! ## The handle of a slot -/

/-- The number in a slot hangs on the bytes of the slot alone, also on where these lie no more than
on what lies beside them. -/
theorem rawAt_congr_shift {a b : Buffer} {config : CodecConfig} {p q : Nat}
    (same : ∀ distance < config.width.bytes, a.byte (p + distance) = b.byte (q + distance)) :
    a.rawAt config p = b.rawAt config q := by
  have segments : a.segment p (p + config.width.bytes) =
      b.segment q (q + config.width.bytes) := by
    apply List.ext_getElem
    · simp
    · intro distance below _
      rw [length_segment, Nat.add_sub_cancel_left] at below
      simpa [segment] using same distance below
  rw [rawAt, rawAt, segments]

theorem handleAt_congr_shift {a b : Buffer} {config : CodecConfig} {p q : Nat}
    (same : ∀ distance < config.width.bytes, a.byte (p + distance) = b.byte (q + distance)) :
    a.handleAt config p = b.handleAt config q := by
  rw [handleAt, handleAt, rawAt_congr_shift same]

theorem handleAt_congr {a b : Buffer} {config : CodecConfig} {offset : Nat}
    (same : ∀ position, offset ≤ position → position < offset + config.width.bytes →
      a.byte position = b.byte position) :
    a.handleAt config offset = b.handleAt config offset :=
  handleAt_congr_shift fun distance below =>
    same (offset + distance) (Nat.le_add_right offset distance) (Nat.add_lt_add_left below offset)

/-- A write leaves the numbers in slots that share no byte with it, and so their handles. -/
theorem rawAt_overwrite_of_apart (buffer : Buffer) {config : CodecConfig} {first offset : Nat}
    {image : Bytes} (apart : first + image.length ≤ offset ∨ offset + config.width.bytes ≤ first) :
    (buffer.overwrite first image).rawAt config offset = buffer.rawAt config offset := by
  apply rawAt_congr_shift
  intro distance below
  exact byte_overwrite_of_outside buffer (by omega)

theorem handleAt_overwrite_of_apart (buffer : Buffer) {config : CodecConfig} {first offset : Nat}
    {image : Bytes} (apart : first + image.length ≤ offset ∨ offset + config.width.bytes ≤ first) :
    (buffer.overwrite first image).handleAt config offset = buffer.handleAt config offset := by
  rw [handleAt, handleAt, rawAt_overwrite_of_apart buffer apart]

theorem rawAt_overwrite_image (buffer : Buffer) (config : CodecConfig) (offset raw : Nat) :
    (buffer.overwrite offset (config.order.image config.width raw)).rawAt config offset =
      raw % (config.width.maxHandle + 1) := by
  have written := segment_overwrite buffer offset (config.order.image config.width raw)
  rw [ByteOrder.length_image] at written
  rw [rawAt, written, ByteOrder.image, ByteOrder.arrange_arrange, littleEndianValue_littleEndian,
    SlotWidth.bytes_pow]

/-- A handle that fits the width is read back where it was written. -/
theorem handleAt_overwrite_image (buffer : Buffer) {config : CodecConfig} (offset : Nat)
    {handle : Option Handle} (fits : Handle.raw handle ≤ config.width.maxHandle) :
    (buffer.overwrite offset (config.image handle)).handleAt config offset = handle := by
  rw [handleAt, CodecConfig.image, rawAt_overwrite_image,
    Nat.mod_eq_of_lt (Nat.lt_succ_of_le fits), Handle.ofNat?_raw]

theorem handleAt_overwrite_null (buffer : Buffer) (config : CodecConfig) (offset : Nat) :
    (buffer.overwrite offset (config.image none)).handleAt config offset = none :=
  handleAt_overwrite_image buffer offset (Nat.zero_le _)

end Buffer

/-! ## Views -/

namespace RecordView

variable (buffer : Buffer) (config : CodecConfig) (offset : Nat)

theorem readRaw_eq :
    RecordView.readRaw { buffer, width := config.width, order := config.order } offset =
      if offset + config.width.bytes ≤ buffer.size then .ok (buffer.rawAt config offset)
      else .error (.slotOutOfBounds offset config.width.bytes buffer.size) := by
  rw [readRaw, slotRange]
  by_cases inside : offset + config.width.bytes ≤ buffer.size
  · simp only [if_pos inside, bind, Except.bind, Buffer.value?_segment]
  · simp only [if_neg inside, bind, Except.bind]

theorem readHandle_eq :
    RecordView.readHandle { buffer, width := config.width, order := config.order } offset =
      if offset + config.width.bytes ≤ buffer.size then .ok (buffer.handleAt config offset)
      else .error (.slotOutOfBounds offset config.width.bytes buffer.size) := by
  rw [readHandle, readRaw_eq]
  by_cases inside : offset + config.width.bytes ≤ buffer.size
  · simp only [if_pos inside, bind, Except.bind]
    rfl
  · simp only [if_neg inside, bind, Except.bind]

theorem writeHandle_eq (handle : Option Handle) :
    RecordView.writeHandle { buffer, width := config.width, order := config.order } offset handle =
      if offset + config.width.bytes ≤ buffer.size then
        .ok { buffer := buffer.overwrite offset (config.image handle)
              width := config.width
              order := config.order }
      else .error (.slotOutOfBounds offset config.width.bytes buffer.size) := by
  rw [writeHandle, slotRange]
  by_cases inside : offset + config.width.bytes ≤ buffer.size
  · simp only [if_pos inside, bind, Except.bind]
    rfl
  · simp only [if_neg inside, bind, Except.bind]

end RecordView

end StringSlots
