import StringSlots.Codec.Member
import StringSlots.Proofs.Layout.Lookup
import StringSlots.Proofs.Layout.Stored

/-!
# Equality of layouts

Layouts are compared by width and members; the record size and the index of names are left out. Both
are computed from what is compared, and so is each offset from the members before it. Hence layouts
are equal exactly when their descriptions are, and no operation tells equal layouts apart
(`CompoundLayout.equality_sound`). Their indexes may have been made with different hash functions.
-/

namespace StringSlots

namespace CompoundLayout

variable {hash other : String → UInt64} {layout a b : CompoundLayout}

/-- Two layouts that no operation on layouts tells apart. -/
structure Indistinguishable (a b : CompoundLayout) : Prop where
  recordSize_eq : a.recordSize = b.recordSize
  member?_eq : ∀ name, a.member? name = b.member? name
  sortedMembers_eq : a.sortedMembers = b.sortedMembers
  slotSchema_eq : a.slotSchema = b.slotSchema
  toCbor_eq : a.toCbor = b.toCbor
  encodeMember_eq : ∀ (codec : Codec) (buffer : Buffer) (record : Nat) (name text : String),
    codec.encodeMember a buffer record name text = codec.encodeMember b buffer record name text
  decodeMember_eq : ∀ (codec : Codec) (buffer : Buffer) (record : Nat) (name : String),
    codec.decodeMember a buffer record name = codec.decodeMember b buffer record name
  releaseLayout_eq : ∀ (codec : Codec) (buffer : Buffer),
    codec.releaseLayout a buffer = codec.releaseLayout b buffer

/-- The layout with an index that another hash function makes. -/
def reindex (layout : CompoundLayout) (hash : String → UInt64) : CompoundLayout :=
  { layout with index := NameIndex.ofNames hash (layout.members.map (·.name)) }

theorem beq_iff : (a == b) = true ↔ a.width = b.width ∧ a.members = b.members := by
  show (decide (a.width = b.width) && decide (a.members = b.members)) = true ↔ _
  rw [Bool.and_eq_true, decide_eq_true_iff, decide_eq_true_iff]

namespace Formed

theorem reindex (formed : layout.Formed hash) (other : String → UInt64) :
    (layout.reindex other).Formed other :=
  { formed with index_eq := rfl }

/-- Offsets are sums of sizes, so layouts with one description have the same members. -/
theorem beq_iff_toSpec (a_formed : a.Formed hash) (b_formed : b.Formed other) :
    (a == b) = true ↔ a.toSpec = b.toSpec := by
  rw [beq_iff]
  constructor
  · rintro ⟨width, members⟩
    rw [toSpec, toSpec, width, members]
  · intro same
    have width : a.width = b.width := congrArg LayoutSpec.width same
    -- both are the arrangement of the same names and kinds
    refine ⟨width, ?_⟩
    rw [a_formed.members_eq, b_formed.members_eq, width, same]

/-- The record size is a sum of sizes too. -/
theorem recordSize_eq_of_toSpec (a_formed : a.Formed hash) (b_formed : b.Formed other)
    (same : a.toSpec = b.toSpec) : a.recordSize = b.recordSize := by
  have width : a.width = b.width := congrArg LayoutSpec.width same
  rw [a_formed.recordSize_eq, b_formed.recordSize_eq, width, same]

/-- Layouts with one description give the same slots to members by name. -/
theorem memberSlot_eq_of_toSpec (a_formed : a.Formed hash) (b_formed : b.Formed other)
    (same : a.toSpec = b.toSpec) (codec : Codec) (record : Nat) (name : String) :
    codec.memberSlot a record name = codec.memberSlot b record name := by
  obtain ⟨width, members⟩ := beq_iff.1 ((a_formed.beq_iff_toSpec b_formed).2 same)
  have found : a.member? name = b.member? name := by
    rw [a_formed.member?_eq_find?, b_formed.member?_eq_find?, members]
  rw [Codec.memberSlot, Codec.memberSlot, width, found,
    a_formed.recordSize_eq_of_toSpec b_formed same]

theorem indistinguishable (a_formed : a.Formed hash) (b_formed : b.Formed other)
    (same : a.toSpec = b.toSpec) : Indistinguishable a b := by
  obtain ⟨width, members⟩ := beq_iff.1 ((a_formed.beq_iff_toSpec b_formed).2 same)
  have recordSize := a_formed.recordSize_eq_of_toSpec b_formed same
  have slot := a_formed.memberSlot_eq_of_toSpec b_formed same
  have schema : a.slotSchema = b.slotSchema := by
    rw [slotSchema, slotSchema, slotOffsets, slotOffsets, stringMembers, stringMembers, recordSize,
      width, members]
  refine
    { recordSize_eq := recordSize
      member?_eq := ?_
      sortedMembers_eq := by rw [sortedMembers, sortedMembers, members]
      slotSchema_eq := schema
      toCbor_eq := by rw [toCbor, toCbor, same]
      encodeMember_eq := ?_
      decodeMember_eq := ?_
      releaseLayout_eq := ?_ }
  · intro name
    rw [a_formed.member?_eq_find?, b_formed.member?_eq_find?, members]
  · intro codec buffer record name text
    rw [Codec.encodeMember, Codec.encodeMember, slot]
  · intro codec buffer record name
    rw [Codec.decodeMember, Codec.decodeMember, slot]
  · intro codec buffer
    rw [Codec.releaseLayout, Codec.releaseLayout, schema]

/-- With one hash function the index is computed from the members as well. -/
theorem eq_of_toSpec (a_formed : a.Formed hash) (b_formed : b.Formed hash)
    (same : a.toSpec = b.toSpec) : a = b := by
  obtain ⟨width, members⟩ := beq_iff.1 ((a_formed.beq_iff_toSpec b_formed).2 same)
  have recordSize := a_formed.recordSize_eq_of_toSpec b_formed same
  have index : a.index = b.index := by
    rw [a_formed.index_eq, b_formed.index_eq, members]
  -- all four fields agree
  cases a
  cases b
  cases width
  cases members
  cases recordSize
  cases index
  rfl

end Formed

/-- The hash function matters to the index alone. -/
theorem buildWith_reindex {builder : LayoutBuilder}
    (built : LayoutBuilder.buildWith hash builder = .ok layout) (other : String → UInt64) :
    LayoutBuilder.buildWith other builder = .ok (layout.reindex other) := by
  obtain ⟨formed, width, members⟩ := buildWith_eq_ok_iff.1 built
  exact buildWith_eq_ok_iff.2 ⟨formed.reindex other, width, members⟩

/-- Equality of layouts is equality of their descriptions, and equal layouts are indistinguishable,
whatever hash functions made their indexes; when that was one function they are the same. A layout
is built again from its description, and a description that is built is that of its layout. -/
theorem equality_sound {first second : LayoutBuilder}
    (a_built : LayoutBuilder.buildWith hash first = .ok a)
    (b_built : LayoutBuilder.buildWith other second = .ok b) :
    ((a == b) = true ↔ a.toSpec = b.toSpec) ∧
      ((a == b) = true → Indistinguishable a b) ∧
      (hash = other → (a == b) = true → a = b) ∧
      (∃ back, ofSpec a.toSpec = .ok back ∧ (back == a) = true) ∧
      ∀ spec layout, ofSpec spec = .ok layout → layout.toSpec = spec := by
  have a_formed := (buildWith_eq_ok_iff.1 a_built).1
  have b_formed := (buildWith_eq_ok_iff.1 b_built).1
  have equal_iff := a_formed.beq_iff_toSpec b_formed
  refine ⟨equal_iff, ?_, ?_, ?_, ?_⟩
  · intro equal
    exact a_formed.indistinguishable b_formed (equal_iff.1 equal)
  · rintro rfl equal
    exact a_formed.eq_of_toSpec b_formed (equal_iff.1 equal)
  · -- what is built again has the index of the hash function in use
    refine ⟨a.reindex nameHash, ofSpec_toSpec (a_formed.reindex nameHash), ?_⟩
    exact beq_iff.2 ⟨rfl, rfl⟩
  · intro spec layout built
    obtain ⟨-, width, members⟩ := buildWith_eq_ok_iff.1 built
    cases spec
    rw [toSpec, width]
    exact congrArg (LayoutSpec.mk _) members

/-- Two indexes of the same names, in one of which all names share a hash. -/
theorem equality_sound_colliding :
    let named := colliding.reindex nameHash
    (colliding == named) = true ∧ colliding ≠ named ∧ Indistinguishable colliding named ∧
      ∃ back, ofSpec colliding.toSpec = .ok back ∧ (back == colliding) = true := by
  intro named
  have named_built := buildWith_reindex built_colliding nameHash
  obtain ⟨equal_iff, indistinguishable, -, back, -⟩ := equality_sound built_colliding named_built
  have equal : (colliding == named) = true := equal_iff.2 rfl
  refine ⟨equal, ?_, indistinguishable equal, back⟩
  -- the two hash functions differ at the empty name
  intro same
  have hashes : (0 : UInt64) = nameHash "" := congrArg (fun layout => layout.index.hash "") same
  exact absurd hashes (by decide +kernel)

end CompoundLayout

end StringSlots
