import StringSlots.Record.Schema

/-!
# Slot positions in a buffer of records

A buffer holds records one after the other. `SlotSchema.recordStarts` lists where they start, and
`SlotSchema.positionsBelow` lists the slots that lie wholly below an end, records in order and the
slots of a record in the order of the schema. Only a cut last record can lose slots to the end.
-/

namespace StringSlots

namespace SlotSchema

/-- The starts of the records from `base` on that lie below `stop`. -/
def recordStarts (schema : SlotSchema) (stop base : Nat) : List Nat :=
  if base < stop then base :: schema.recordStarts stop (base + schema.recordSize) else []
termination_by stop - base
decreasing_by
  have := schema.recordSize_pos
  omega

/-- The slots of the record that starts at `base`. -/
def slotsOfRecord (schema : SlotSchema) (base : Nat) : List Nat :=
  schema.offsets.map (base + ·)

/-- The slots that lie wholly below `stop`, in the order of visits. -/
def positionsBelow (schema : SlotSchema) (stop : Nat) : List Nat :=
  ((schema.recordStarts stop 0).flatMap schema.slotsOfRecord).filter fun position =>
    position + schema.width.bytes ≤ stop

theorem recordStarts_of_le (schema : SlotSchema) {stop base : Nat} (reached : stop ≤ base) :
    schema.recordStarts stop base = [] := by
  rw [recordStarts, if_neg (by omega)]

theorem recordStarts_of_lt (schema : SlotSchema) {stop base : Nat} (below : base < stop) :
    schema.recordStarts stop base =
      base :: schema.recordStarts stop (base + schema.recordSize) := by
  rw [recordStarts, if_pos below]

end SlotSchema

end StringSlots
