import Std.Data.TreeSet
import StringSlots.Bytes
import StringSlots.Layout.Member
import StringSlots.Layout.NameIndex
import StringSlots.Record.Schema

/-!
# Compound layouts

A layout places members back to back in declaration order, each at the sum of the sizes before it.
`LayoutBuilder.build` accepts a list of members when the names are distinct, the sizes are valid
and the sum stays inside the address space; otherwise the first offending member is reported. A
`LayoutSpec` is what is stored of a layout: the slot width and the members without offsets.

Two layouts are equal when they agree in width and members; record size and name index follow from
these.
-/

namespace StringSlots

/-- The stored description of a layout. -/
structure LayoutSpec where
  width : SlotWidth
  members : List (String × MemberKind)
  deriving DecidableEq

/-- Members at their places, the size of a record, and an index of the names. -/
structure CompoundLayout where
  width : SlotWidth
  members : List Member
  recordSize : Nat
  index : NameIndex

instance : BEq CompoundLayout where
  beq a b := decide (a.width = b.width) && decide (a.members = b.members)

/-- Members declared so far. -/
structure LayoutBuilder where
  width : SlotWidth
  members : List (String × MemberKind)

namespace LayoutBuilder

/-- The builder without members. -/
def empty (width : SlotWidth) : LayoutBuilder :=
  { width, members := [] }

/-- The builder with one more member at the end. -/
def add (builder : LayoutBuilder) (name : String) (kind : MemberKind) : LayoutBuilder :=
  { builder with members := builder.members ++ [(name, kind)] }

/-- The builder of a list of members. -/
def ofMembers (width : SlotWidth) (members : List (String × MemberKind)) : LayoutBuilder :=
  { width, members }

/-- Adding members one by one gives the builder of the whole list. -/
theorem foldl_add (builder : LayoutBuilder) (members : List (String × MemberKind)) :
    members.foldl (fun builder member => builder.add member.1 member.2) builder =
      ofMembers builder.width (builder.members ++ members) := by
  induction members generalizing builder with
  | nil => simp [ofMembers]
  | cons member rest ih =>
      rw [List.foldl_cons, ih]
      simp [add, ofMembers]

/-- Places members from `offset` on, with the end of the last; `seen` holds the names placed
before. A repeated name is reported before an invalid size, and that before a sum that leaves the
address space. -/
def place (width : SlotWidth) (seen : Std.TreeSet String) (offset : Nat) :
    List (String × MemberKind) → Except SlotError (List Member × Nat)
  | [] => .ok ([], offset)
  | (name, kind) :: rest =>
      let size := kind.size width
      if name ∈ seen then .error (.duplicateMember name)
      else if kind.hasValidSize width = false then .error (.invalidMemberSize name size)
      else if addressSpace ≤ offset + size then .error (.layoutTooLarge name)
      else
        match place width (seen.insert name) (offset + size) rest with
        | .error error => .error error
        | .ok (members, stop) => .ok ({ name, kind, offset } :: members, stop)

/-- The layout of the declared members, with names indexed by `hash`. -/
def buildWith (hash : String → UInt64) (builder : LayoutBuilder) :
    Except SlotError CompoundLayout :=
  match place builder.width ∅ 0 builder.members with
  | .error error => .error error
  | .ok (members, stop) =>
      if stop = 0 then .error (.invalidRecordSize 0)
      else
        .ok
          { width := builder.width
            members
            recordSize := stop
            index := NameIndex.ofNames hash (members.map (·.name)) }

/-- The layout of the declared members. -/
def build (builder : LayoutBuilder) : Except SlotError CompoundLayout :=
  buildWith nameHash builder

end LayoutBuilder

namespace CompoundLayout

/-- The layout of a stored description. -/
def ofSpec (spec : LayoutSpec) : Except SlotError CompoundLayout :=
  (LayoutBuilder.ofMembers spec.width spec.members).build

/-- The description to store of a layout. -/
def toSpec (layout : CompoundLayout) : LayoutSpec :=
  { width := layout.width, members := layout.members.map fun member => (member.name, member.kind) }

/-- The member of a name. -/
def member? (layout : CompoundLayout) (name : String) : Option Member :=
  ((layout.index.candidates name).filterMap fun position => layout.members[position]?).find?
    fun member => member.name = name

/-- The members in the order of their names' UTF-8 bytes. -/
def sortedMembers (layout : CompoundLayout) : List Member :=
  layout.members.mergeSort fun a b => utf8Le a.name b.name

/-- The members that are string slots, in declaration order. -/
def stringMembers (layout : CompoundLayout) : List Member :=
  layout.members.filter (·.kind.isStringSlot)

/-- The offsets of the string slots, in declaration order. -/
def slotOffsets (layout : CompoundLayout) : List Nat :=
  layout.stringMembers.map (·.offset)

/-- The schema of all string slots. -/
def slotSchema (layout : CompoundLayout) : Except SlotError SlotSchema :=
  SlotSchema.ofOffsets layout.recordSize layout.width layout.slotOffsets

end CompoundLayout

end StringSlots
