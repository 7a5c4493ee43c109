import StringSlots.Codec.Member
import StringSlots.Proofs.Layout.Lookup
import StringSlots.Proofs.Record.Visited

/-!
# Slots by record and member

A string member of a record is at `CompoundLayout.position`. `Codec.memberSlot` computes this number
for a name (`Formed.memberSlot_eq`), and the schema of the layout has its slots at these numbers
(`Formed.isSlot_iff`), so a slot is the same whether it is named or released. No two pairs of a
record and a member have the same position (`Formed.position_inj`).
-/

namespace StringSlots

namespace CompoundLayout

/-- The position of a member of a record in a buffer of records. -/
def position (layout : CompoundLayout) (record : Nat) (member : Member) : Nat :=
  record * layout.recordSize + member.offset

/-- The position of the member of a name; zero when there is none. -/
def positionOf (layout : CompoundLayout) (key : Nat × String) : Nat :=
  (layout.member? key.2).elim 0 (layout.position key.1)

variable {hash : String → UInt64} {layout : CompoundLayout} {member : Member} {record : Nat}

theorem mem_stringMembers_iff :
    member ∈ layout.stringMembers ↔ member ∈ layout.members ∧ member.kind = .vlString := by
  rw [stringMembers, List.mem_filter, MemberKind.isStringSlot_iff]

namespace Formed

/-- A member lies in the record that it is a member of. -/
theorem position_div (formed : layout.Formed hash) (mem : member ∈ layout.members) (record : Nat) :
    layout.position record member / layout.recordSize = record := by
  have inside := formed.inside mem
  have size_pos := MemberKind.size_pos (formed.valid member mem)
  rw [position, Nat.mul_comm, Nat.mul_add_div formed.recordSize_pos,
    Nat.div_eq_of_lt (by omega), Nat.add_zero]

/-- A position tells the record and the member. -/
theorem position_inj (formed : layout.Formed hash) {other : Nat} {other_member : Member}
    (mem : member ∈ layout.members) (other_mem : other_member ∈ layout.members)
    (same : layout.position record member = layout.position other other_member) :
    record = other ∧ member = other_member := by
  have records := formed.position_div mem record
  rw [same, formed.position_div other_mem other] at records
  subst records
  exact ⟨rfl, formed.eq_of_offset mem other_mem (Nat.add_left_cancel same)⟩

theorem positionOf_eq (formed : layout.Formed hash) (mem : member ∈ layout.members)
    (record : Nat) : layout.positionOf (record, member.name) = layout.position record member := by
  rw [positionOf, formed.member?_eq_some_iff.2 ⟨mem, rfl⟩, Option.elim_some]

/-- The slot of a string member by name is at its position, unless that is outside the address
space. -/
theorem memberSlot_eq (formed : layout.Formed hash) {codec : Codec}
    (width : layout.width = codec.config.width) (mem : member ∈ layout.stringMembers) :
    codec.memberSlot layout record member.name =
      if layout.position record member < addressSpace then .ok (layout.position record member)
      else .error (.invalidOffset Codec.unreachableOffset) := by
  obtain ⟨declared, slot⟩ := mem_stringMembers_iff.1 mem
  have found := formed.member?_eq_some_iff.2 ⟨declared, rfl⟩
  rw [Codec.memberSlot, Codec.checkWidth, if_pos width]
  simp only [found, if_pos (MemberKind.isStringSlot_iff.2 slot)]
  rfl

/-- Only string members have a slot by name. -/
theorem exists_of_memberSlot (formed : layout.Formed hash) {codec : Codec} {name : String}
    {place : Nat} (slot : codec.memberSlot layout record name = .ok place) :
    ∃ member ∈ layout.stringMembers,
      member.name = name ∧ layout.position record member = place := by
  rw [Codec.memberSlot] at slot
  split at slot
  · cases slot
  · split at slot
    · cases slot
    · next member found =>
      obtain ⟨declared, named⟩ := formed.member?_eq_some_iff.1 found
      split at slot
      · next string =>
        dsimp only at slot
        split at slot
        · cases slot
          exact ⟨member, mem_stringMembers_iff.2 ⟨declared, MemberKind.isStringSlot_iff.1 string⟩,
            named, rfl⟩
        · cases slot
      · cases slot

/-- The slots of a buffer are the positions of the string members that lie inside it. -/
theorem isSlot_iff (formed : layout.Formed hash) {size place : Nat} :
    formed.schema.IsSlot size place ↔
      ∃ record, ∃ member ∈ layout.stringMembers,
        layout.position record member = place ∧ place + layout.width.bytes ≤ size := by
  constructor
  · rintro ⟨record, offset, offset_mem, rfl, inside⟩
    obtain ⟨member, mem, rfl⟩ := List.mem_map.1 offset_mem
    exact ⟨record, member, mem, rfl, inside⟩
  · rintro ⟨record, member, mem, rfl, inside⟩
    exact ⟨record, member.offset, List.mem_map_of_mem mem, rfl, inside⟩

/-- A release visits the string members of whole records, and those of a cut record that lie inside
the buffer when cut records are processed. -/
theorem position_mem_visited_iff (formed : layout.Formed hash) {policy : TailPolicy}
    {size : Nat} (mem : member ∈ layout.stringMembers) :
    layout.position record member ∈ formed.schema.visited policy size ↔
      layout.position record member + layout.width.bytes ≤ size ∧
        (policy = .process ∨ record < size / layout.recordSize) := by
  rw [SlotSchema.mem_visited_iff]
  constructor
  · rintro ⟨other, offset, offset_mem, same, inside, reached⟩
    obtain ⟨other_member, other_mem, rfl⟩ := List.mem_map.1 offset_mem
    -- the position tells the record
    obtain ⟨rfl, -⟩ := formed.position_inj (mem_stringMembers_iff.1 mem).1
      (mem_stringMembers_iff.1 other_mem).1 same
    exact ⟨inside, reached⟩
  · rintro ⟨inside, reached⟩
    exact ⟨record, member.offset, List.mem_map_of_mem mem, rfl, inside, reached⟩

end Formed

end CompoundLayout

end StringSlots
