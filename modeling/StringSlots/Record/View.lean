import StringSlots.Buffer
import StringSlots.Error
import StringSlots.Slot.ByteOrder

/-!
# Record views

A view reads and writes string slots in a record buffer, under one slot width and one
byte order. Every access first checks that the whole slot lies inside the buffer
(`slotRange_eq_ok_iff`), and a write replaces exactly the bytes of the slot.
-/

namespace StringSlots

/-- A record buffer with the shape of its slots. -/
structure RecordView where
  buffer : Buffer
  width : SlotWidth
  order : ByteOrder

namespace RecordView

/-- The first byte of the slot at an offset and the byte after its last. -/
def slotRange (view : RecordView) (offset : Nat) : Except SlotError (Nat × Nat) :=
  if offset + view.width.bytes ≤ view.buffer.size then
    .ok (offset, offset + view.width.bytes)
  else .error (.slotOutOfBounds offset view.width.bytes view.buffer.size)

/-- The raw number in the slot at an offset. -/
def readRaw (view : RecordView) (offset : Nat) : Except SlotError Nat := do
  let (first, stop) ← view.slotRange offset
  match view.order.value? (view.buffer.segment first stop) with
  | some raw => .ok raw
  | none => .error (.slotOutOfBounds offset view.width.bytes view.buffer.size)

/-- The handle in the slot at an offset; `none` for the null marker. -/
def readHandle (view : RecordView) (offset : Nat) : Except SlotError (Option Handle) := do
  let raw ← view.readRaw offset
  .ok (Handle.ofNat? raw)

/-- The view after storing a handle, or the null marker, in the slot at an offset. -/
def writeHandle (view : RecordView) (offset : Nat) (handle : Option Handle) :
    Except SlotError RecordView := do
  let (first, _) ← view.slotRange offset
  .ok { view with
    buffer := view.buffer.overwrite first (view.order.image view.width (Handle.raw handle)) }

/-- The view after storing the null marker in the slot at an offset. -/
def clearSlot (view : RecordView) (offset : Nat) : Except SlotError RecordView :=
  view.writeHandle offset none

/-- The number of whole records of a size; none has size zero. -/
def recordCount (view : RecordView) (size : Nat) : Nat :=
  view.buffer.size / size

/-- The bytes after the last whole record of a size; all of them when the size is zero. -/
def tailLength (view : RecordView) (size : Nat) : Nat :=
  view.buffer.size % size

theorem slotRange_eq_ok_iff {view : RecordView} {offset : Nat} {range : Nat × Nat} :
    view.slotRange offset = .ok range ↔
      offset + view.width.bytes ≤ view.buffer.size ∧
        range = (offset, offset + view.width.bytes) := by
  unfold slotRange
  split <;> rename_i inside
  · simp [inside, eq_comm]
  · simp [inside]

end RecordView

end StringSlots
