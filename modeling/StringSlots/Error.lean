import StringSlots.Slot.Handle

/-!
# Failures

`SlotError` lists the causes for which an operation on slots, records, layouts or stored
descriptions fails. Each has one text, `SlotError.message`, and one kind, `SlotError.kind`, which
decides the channel on which a caller across a boundary hears of it.
-/

namespace StringSlots

/-- The channels of a failure: an argument was missing, an array could not be accessed, or anything
else. -/
inductive FailureKind where
  | absentArgument
  | fatal
  | library
  deriving DecidableEq

/-- Causes of failure. -/
inductive SlotError where
  | absentArgument (argument : String)
  | accessFailure (array : String)
  | slotOutOfBounds (offset width length : Nat)
  | overlappingSlots (first second : Nat)
  | invalidRecordSize (size : Int)
  | invalidOffset (offset : Int)
  | partialRecord (length recordSize : Nat)
  | widthMismatch (expected actual : Nat)
  | unknownHandle (raw : Nat)
  | interiorNul (position : Nat)
  | handleOverflow
  | duplicateMember (name : String)
  | unknownMember (name : String)
  | invalidMemberSize (name : String) (size : Nat)
  | layoutTooLarge (name : String)
  | notAStringSlot (name : String)
  | malformedConfig (detail : String)
  | malformedCbor (detail : String)
  deriving DecidableEq

namespace SlotError

/-- The channel of a failure. -/
def kind : SlotError → FailureKind
  | absentArgument _ => .absentArgument
  | accessFailure _ => .fatal
  | _ => .library

/-- The text of a failure. -/
def message : SlotError → String
  | absentArgument argument => s!"{argument} is NULL"
  | accessFailure array => s!"{array} not pinned"
  | slotOutOfBounds offset width length =>
      s!"slot at offset {offset} (width {width}) exceeds {length} bytes"
  | overlappingSlots first second => s!"slots at offsets {first} and {second} overlap"
  | invalidRecordSize size => s!"invalid record size: {size}"
  | invalidOffset offset => s!"invalid slot offset: {offset}"
  | partialRecord length recordSize =>
      s!"buffer of {length} bytes ends in a partial record (record size {recordSize})"
  | widthMismatch expected actual =>
      s!"pointer width mismatch: expected {expected} bytes, got {actual}"
  | unknownHandle raw => "unknown string handle: " ++ Handle.hexText raw
  | interiorNul position => s!"string contains NUL at byte {position}"
  | handleOverflow => "string handles exhausted for this pointer width"
  | duplicateMember name => s!"duplicate compound member: {name}"
  | unknownMember name => s!"unknown compound member: {name}"
  | invalidMemberSize name size => s!"compound member {name} has invalid size {size}"
  | layoutTooLarge name => s!"compound layout exceeds the address space at member {name}"
  | notAStringSlot name => s!"compound member is not a variable-length string: {name}"
  | malformedConfig detail => s!"config error: {detail}"
  | malformedCbor detail => s!"CBOR error: {detail}"

end SlotError

end StringSlots
