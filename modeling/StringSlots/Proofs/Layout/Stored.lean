import Mathlib.Algebra.BigOperators.Group.List.Basic
import StringSlots.Layout.Cbor
import StringSlots.Proofs.Cbor.Item
import StringSlots.Proofs.Layout.Placement

/-!
# Stored layouts

The stored form of a description is read as that description, whatever stands behind it
(`LayoutSpec.takes_read`) and whatever a builder thinks of it. The proof follows the format from the
inside out: names of variants, kinds, members, the two entries of the map. A layout stores its
description only, and `ofSpec_toSpec` says that all else is computed from that again; so
`layouts_stored_whole` holds.
-/

namespace StringSlots

open Cbor

/-! ## Names of widths and kinds -/

theorem SlotWidth.length_name_lt (width : SlotWidth) :
    (utf8 width.name).length < addressSpace := by
  cases width <;> decide

namespace MemberKind

variable {kind : MemberKind}

theorem length_name_lt (kind : MemberKind) : (utf8 kind.name).length < addressSpace := by
  have names : ∀ name ∈ ["bool", "int", "float", "fixed_string", "vl_string", "opaque"],
      (utf8 name).length < addressSpace := by decide
  apply names
  cases kind <;> simp [name]

theorem size_of_declaredSize? {size : Nat} (sized : kind.declaredSize? = some size)
    (width : SlotWidth) : kind.size width = size := by
  cases kind with
  | bool => cases sized
  | vlString => cases sized
  | _ => exact Option.some.inj sized

/-- A kind without a size is known by its name. -/
theorem plainOfName?_name (plain : kind.declaredSize? = none) :
    plainOfName? kind.name = some kind := by
  cases kind with
  | bool => rfl
  | vlString => rfl
  | _ => cases plain

/-- A sized kind is known by its name and its size. -/
theorem sizedOfName?_name {size : Nat} (sized : kind.declaredSize? = some size) :
    plainOfName? kind.name = none ∧
      ∃ ofSize, sizedOfName? kind.name = some ofSize ∧ ofSize size = kind := by
  cases kind with
  | bool => cases sized
  | vlString => cases sized
  | _ =>
      cases sized
      exact ⟨rfl, _, rfl, rfl⟩

end MemberKind

namespace LayoutSpec

/-- Descriptions whose sizes and lengths are numbers of addresses, as those in a memory are. -/
structure Addressable (spec : LayoutSpec) : Prop where
  count : spec.members.length < addressSpace
  name : ∀ member ∈ spec.members, (utf8 member.1).length < addressSpace
  size : ∀ member ∈ spec.members, ∀ size, member.2.declaredSize? = some size →
    size < addressSpace

/-! ## Parts of a description -/

/-- The name of a variant without a value is a text. -/
theorem takes_readVariantName {name : String} (small : (utf8 name).length < addressSpace) :
    Takes readVariantName (writeText name) name := by
  intro rest
  obtain ⟨info, info_small, bytes, written⟩ := writeText_eq_cons small
  have read := takes_writeText small rest
  rw [written, List.cons_append] at read ⊢
  rw [readVariantName, if_neg (headByte_ne (by decide) info_small (by decide)), read]

/-- The name of a variant with a value is the key of a map of one entry. -/
theorem takes_readVariantName_map {name : String} (small : (utf8 name).length < addressSpace) :
    Takes readVariantName (writeHead .map 1 ++ writeText name) name := by
  intro rest
  show readVariantName (headByte .map 1 :: (writeText name ++ rest)) = _
  rw [readVariantName, if_pos rfl, takes_writeText small]

theorem takes_readWidth (width : SlotWidth) : Takes readWidth (writeText width.name) width := by
  intro rest
  rw [readWidth, takes_readVariantName width.length_name_lt]
  simp only [Option.bind_eq_bind, Option.bind_some, SlotWidth.ofName?_name]

theorem takes_readKind {kind : MemberKind}
    (small : ∀ size, kind.declaredSize? = some size → size < addressSpace) :
    Takes readKind kind.toCbor kind := by
  intro rest
  rw [readKind, MemberKind.toCbor]
  cases declared : kind.declaredSize? with
  | none =>
      dsimp only
      rw [takes_readVariantName kind.length_name_lt]
      simp only [Option.bind_eq_bind, Option.bind_some, MemberKind.plainOfName?_name declared]
  | some size =>
      -- the name announces that a size follows
      obtain ⟨not_plain, ofSize, sized, same⟩ := MemberKind.sizedOfName?_name declared
      dsimp only
      rw [List.append_assoc, takes_readVariantName_map kind.length_name_lt]
      simp only [Option.bind_eq_bind, Option.bind_some, not_plain, sized,
        takes_writeNat (small size declared) rest, same]

theorem takes_readMember {member : String × MemberKind}
    (name : (utf8 member.1).length < addressSpace)
    (size : ∀ size, member.2.declaredSize? = some size → size < addressSpace)
    (before : List (String × MemberKind)) :
    Takes (readMember before) (memberToCbor member) (member :: before) := by
  intro rest
  rw [readMember, memberToCbor, List.append_assoc, List.append_assoc,
    takes_count .array (by decide)]
  simp only [Option.bind_eq_bind, Option.bind_some, if_true, takes_writeText name _,
    takes_readKind size rest]

/-- The description at the front of the bytes, with the bytes behind it. -/
def read (bytes : Bytes) : Option (LayoutSpec × Bytes) := do
  let (argument, bytes) ← readHead .map bytes
  let (entries, bytes) ← argument.repeated readEntry { width := none, members := none } bytes
  let members ← entries.members
  some ({ width := entries.width.getD .native, members }, bytes)

theorem ofCbor?_eq (bytes : Bytes) : ofCbor? bytes = (read bytes).map Prod.fst := by
  rw [ofCbor?, read]
  simp only [Option.bind_eq_bind, Option.map_bind, Function.comp_def, Option.map_some]

section Description

variable {spec : LayoutSpec} (addressable : spec.Addressable)
include addressable

theorem takes_readMembers :
    Takes readMembers
      (writeHead .array spec.members.length ++ spec.members.flatMap memberToCbor)
      spec.members := by
  intro rest
  have members := times_flatMap (fun member mem before =>
    takes_readMember (addressable.name member mem) (addressable.size member mem) before) [] rest
  rw [readMembers, List.append_assoc, takes_writeHead .array addressable.count]
  simp only [Option.bind_eq_bind, Option.bind_some, Argument.repeated, members]
  -- the reader keeps the latest member in front
  rw [List.foldl_flip_cons_eq_append', List.append_nil, List.reverse_reverse]

/-- The stored form of a description is read as the description, and nothing behind it is. -/
theorem takes_read : Takes read spec.toCbor spec := by
  intro rest
  have key : ∀ text ∈ ["width", "members"], (utf8 text).length < addressSpace := by decide
  have width := takes_readWidth spec.width
  have members := takes_readMembers addressable rest
  rw [List.append_assoc] at members
  rw [read, toCbor]
  simp only [List.append_assoc]
  rw [takes_writeHead .map (by decide)]
  simp only [Option.bind_eq_bind, Option.bind_some, Argument.repeated, times, readEntry,
    takes_writeText (key "width" (by simp)) _, takes_writeText (key "members" (by simp)) _,
    width _, members, if_true]
  rfl

theorem ofCbor?_toCbor : ofCbor? spec.toCbor = some spec := by
  have whole := takes_read addressable []
  rw [List.append_nil] at whole
  rw [ofCbor?_eq, whole]
  rfl

end Description

end LayoutSpec

/-! ## Layouts -/

namespace CompoundLayout

variable {layout : CompoundLayout}

/-- A layout is what a builder makes of its description: all else is computed from that. -/
theorem ofSpec_toSpec (formed : layout.Formed nameHash) : ofSpec layout.toSpec = .ok layout :=
  buildWith_eq_ok_iff.2 ⟨formed, rfl, rfl⟩

namespace Formed

variable {hash : String → UInt64} (formed : layout.Formed hash)
include formed

/-- Each member takes a byte at least, so a record has no more members than bytes. -/
theorem length_le_recordSize : layout.members.length ≤ layout.recordSize := by
  have sizes : ∀ size ∈ layout.toSpec.members.map (fun member => member.2.size layout.width),
      1 ≤ size := by
    intro size mem
    obtain ⟨_, declared, rfl⟩ := List.mem_map.1 mem
    obtain ⟨member, member_mem, rfl⟩ := List.mem_map.1 declared
    exact MemberKind.size_pos (formed.valid member member_mem)
  have total := List.length_le_sum_of_one_le _ sizes
  rw [List.length_map, toSpec, List.length_map] at total
  rw [formed.recordSize_eq]
  exact total

/-- The description of a layout that a builder accepts has sizes below its record size. -/
theorem addressable_toSpec
    (names : ∀ member ∈ layout.members, (utf8 member.name).length < addressSpace) :
    layout.toSpec.Addressable where
  count := by
    rw [toSpec, List.length_map]
    exact Nat.lt_of_le_of_lt formed.length_le_recordSize formed.recordSize_lt
  name _ mem := by
    obtain ⟨member, member_mem, rfl⟩ := List.mem_map.1 mem
    exact names member member_mem
  size _ mem size sized := by
    obtain ⟨member, member_mem, rfl⟩ := List.mem_map.1 mem
    have inside := formed.inside member_mem
    have small := formed.recordSize_lt
    rw [MemberKind.size_of_declaredSize? sized] at inside
    omega

end Formed

/-- Reading the stored form of a description gives what a builder makes of it, also an error. -/
theorem ofCbor_toCbor {spec : LayoutSpec} (addressable : spec.Addressable) :
    ofCbor spec.toCbor = ofSpec spec := by
  rw [ofCbor, LayoutSpec.ofCbor?_toCbor addressable]

/-- Layouts that a builder made, with names that fit in a memory. -/
structure Storable (layout : CompoundLayout) : Prop where
  built : ∃ builder : LayoutBuilder, builder.build = .ok layout
  name : ∀ member ∈ layout.members, (utf8 member.name).length < addressSpace

namespace Storable

theorem formed (storable : layout.Storable) : layout.Formed nameHash := by
  obtain ⟨_, built⟩ := storable.built
  exact (buildWith_eq_ok_iff.1 built).1

theorem addressable_toSpec (storable : layout.Storable) : layout.toSpec.Addressable :=
  storable.formed.addressable_toSpec storable.name

/-- A layout is read back whole, with its offsets, its record size and its index of names. -/
theorem ofCbor_toCbor (storable : layout.Storable) : ofCbor layout.toCbor = .ok layout := by
  rw [toCbor, CompoundLayout.ofCbor_toCbor storable.addressable_toSpec,
    ofSpec_toSpec storable.formed]

end Storable

/-- The stored form of a description has all that a builder needs, and the stored form of a layout
has all of the layout: reading it gives the layout back, and no other layout has that form. -/
theorem layouts_stored_whole :
    (∀ spec : LayoutSpec, spec.Addressable → ofCbor spec.toCbor = ofSpec spec) ∧
      (∀ layout : CompoundLayout, layout.Storable → ofCbor layout.toCbor = .ok layout) ∧
      ∀ layout other : CompoundLayout, layout.Storable → other.Storable →
        layout.toCbor = other.toCbor → layout = other ∧ (layout == other) = true := by
  refine ⟨fun spec addressable => ofCbor_toCbor addressable,
    fun layout storable => storable.ofCbor_toCbor, ?_⟩
  intro layout other storable other_storable same
  have read := other_storable.ofCbor_toCbor
  rw [← same, storable.ofCbor_toCbor] at read
  obtain rfl := Except.ok.inj read
  exact ⟨rfl, by simp [BEq.beq]⟩

/-- A long field and a string, the latter without a name. -/
def unnamed : CompoundLayout where
  width := .w64
  members := [⟨"größe", .fixedString 70000, 0⟩, ⟨"", .vlString, 70000⟩]
  recordSize := 70008
  index := NameIndex.ofNames nameHash ["größe", ""]

theorem storable_unnamed : unnamed.Storable where
  built := by
    refine ⟨.ofMembers .w64 [("größe", .fixedString 70000), ("", .vlString)], ?_⟩
    have placed : LayoutBuilder.place .w64 ∅ 0 [("größe", .fixedString 70000), ("", .vlString)] =
        .ok (unnamed.members, unnamed.recordSize) := by
      decide +kernel
    simp only [LayoutBuilder.build, LayoutBuilder.buildWith, LayoutBuilder.ofMembers, placed]
    rfl
  name := by decide +kernel

theorem layouts_stored_whole_unnamed :
    let repeated : LayoutSpec := { width := .w32, members := [("ß", .blob 1), ("ß", .bool)] }
    ofCbor repeated.toCbor = .error (.duplicateMember "ß") ∧
      ofCbor unnamed.toCbor = .ok unnamed ∧ (unnamed == unnamed) = true := by
  intro repeated
  have addressable : repeated.Addressable :=
    { count := by decide
      name := by decide +kernel
      size := by simp [repeated, MemberKind.declaredSize?, addressSpace] }
  have rejected : ofSpec repeated = .error (.duplicateMember "ß") := by
    have placed : LayoutBuilder.place .w32 ∅ 0 repeated.members =
        .error (.duplicateMember "ß") := by
      decide +kernel
    simp only [ofSpec, LayoutBuilder.build, LayoutBuilder.buildWith, LayoutBuilder.ofMembers,
      repeated, placed]
  exact ⟨(layouts_stored_whole.1 repeated addressable).trans rejected,
    layouts_stored_whole.2.1 unnamed storable_unnamed,
    (layouts_stored_whole.2.2 unnamed unnamed storable_unnamed storable_unnamed rfl).2⟩

end CompoundLayout

end StringSlots
