import StringSlots.Slot.ByteOrder

/-!
# Codec configuration

A configuration fixes the shape of the slots that a codec reads and writes, and two choices of
release: what happens to bytes after the last whole record, and whether a released slot is cleared.
-/

namespace StringSlots

/-- What a release pass does with bytes after the last whole record: leave them alone with a
warning, refuse the buffer, or visit the slots that still fit. -/
inductive TailPolicy where
  | ignore
  | reject
  | process
  deriving DecidableEq

namespace TailPolicy

/-- The name of a policy in stored descriptions. -/
def name : TailPolicy → String
  | ignore => "ignore"
  | reject => "reject"
  | process => "process"

/-- The policy of a given name. -/
def ofName? : String → Option TailPolicy
  | "ignore" => some .ignore
  | "reject" => some .reject
  | "process" => some .process
  | _ => none

end TailPolicy

/-- The choices of a codec. -/
structure CodecConfig where
  width : SlotWidth := .native
  order : ByteOrder := .native
  tail : TailPolicy := .ignore
  clearReleased : Bool := false
  deriving DecidableEq

end StringSlots
