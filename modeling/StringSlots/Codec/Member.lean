import StringSlots.Codec.Release
import StringSlots.Layout.Compound

/-!
# Slots by record and member name

In a buffer of layout records a slot may be named by its record and its member. The position is
computed exactly; one outside the address space is refused, so no record index wraps around into
another record.
-/

namespace StringSlots

namespace Codec

/-- The offset that stands for a position outside the address space in a failure. -/
def unreachableOffset : Int := 0x7fff_ffff_ffff_ffff

/-- The position of a string member in the record with index `record`. -/
def memberSlot (codec : Codec) (layout : CompoundLayout) (record : Nat) (name : String) :
    Except SlotError Nat :=
  match codec.checkWidth layout.width with
  | .error error => .error error
  | .ok () =>
      match layout.member? name with
      | none => .error (.unknownMember name)
      | some member =>
          if member.kind.isStringSlot then
            let position := record * layout.recordSize + member.offset
            if position < addressSpace then .ok position
            else .error (.invalidOffset unreachableOffset)
          else .error (.notAStringSlot name)

/-- `encode` at the slot of a record and a member. -/
def encodeMember (codec : Codec) (layout : CompoundLayout) (buffer : Buffer) (record : Nat)
    (name text : String) : Outcome Handle :=
  match codec.memberSlot layout record name with
  | .error error => codec.refuse buffer error
  | .ok position => codec.encode text buffer position

/-- `decode` at the slot of a record and a member. -/
def decodeMember (codec : Codec) (layout : CompoundLayout) (buffer : Buffer) (record : Nat)
    (name : String) : Except SlotError (Option String) :=
  match codec.memberSlot layout record name with
  | .error error => .error error
  | .ok position => codec.decode buffer position

/-- `releaseAll` over all string slots of a buffer of layout records. -/
def releaseLayout (codec : Codec) (layout : CompoundLayout) (buffer : Buffer) : Outcome Nat :=
  match layout.slotSchema with
  | .error error => codec.refuse buffer error
  | .ok schema => codec.releaseAll buffer schema

end Codec

end StringSlots
