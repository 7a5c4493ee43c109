import Mathlib.Algebra.GroupWithZero.Nat
import Mathlib.Data.List.Nodup
import StringSlots.Layout.Compound
import StringSlots.Proofs.Record.Schema

/-!
# Placement of members

`LayoutBuilder.place` checks and places members in one walk. `arrange` is the placement without the
checks: each member at the sum of the sizes before it. `place_eq_ok_iff` says when the walk
succeeds, and that it then gives the arrangement; a builder that refuses its members has one of the
causes of `LayoutBuilder.Cause`.

`CompoundLayout.Formed` is what holds of every layout that a builder accepts
(`buildWith_eq_ok_iff`). The members of such a layout share no byte, so its string slots make a
schema (`Formed.slotSchema_eq`).
-/

namespace StringSlots

theorem MemberKind.isStringSlot_iff {kind : MemberKind} :
    kind.isStringSlot = true ↔ kind = .vlString := by
  cases kind with
  | vlString => exact iff_of_true rfl rfl
  | _ => exact iff_of_false nofun nofun

namespace LayoutBuilder

variable {width : SlotWidth} {seen : Std.TreeSet String} {offset stop : Nat}
  {name : String} {kind : MemberKind} {members rest : List (String × MemberKind)}
  {placed : List Member}

/-- The members from `offset` on, each at the sum of the sizes before it. -/
def arrange (width : SlotWidth) (offset : Nat) : List (String × MemberKind) → List Member
  | [] => []
  | (name, kind) :: rest =>
      { name, kind, offset } :: arrange width (offset + kind.size width) rest

/-- The sum of the sizes of members. -/
def totalSize (width : SlotWidth) (members : List (String × MemberKind)) : Nat :=
  (members.map fun member => member.2.size width).sum

/-- Why a member is not accepted at an offset. -/
def obstacle? (width : SlotWidth) (seen : Std.TreeSet String) (offset : Nat) (name : String)
    (kind : MemberKind) : Option SlotError :=
  if name ∈ seen then some (.duplicateMember name)
  else if kind.hasValidSize width = false then some (.invalidMemberSize name (kind.size width))
  else if addressSpace ≤ offset + kind.size width then some (.layoutTooLarge name)
  else none

/-! ## The walk -/

theorem totalSize_cons :
    totalSize width ((name, kind) :: rest) = kind.size width + totalSize width rest :=
  List.sum_cons

theorem obstacle?_eq_none_iff :
    obstacle? width seen offset name kind = none ↔
      name ∉ seen ∧ kind.hasValidSize width = true ∧ offset + kind.size width < addressSpace := by
  rw [obstacle?]
  split
  · next repeated => simp [repeated]
  · next fresh =>
    split
    · next invalid => simp [invalid]
    · next valid =>
      split
      · next large => simp [Nat.not_lt_of_le large]
      · next room => simpa [fresh, valid] using room

theorem place_cons :
    place width seen offset ((name, kind) :: rest) =
      match obstacle? width seen offset name kind with
      | some error => .error error
      | none =>
          match place width (seen.insert name) (offset + kind.size width) rest with
          | .error error => .error error
          | .ok (members, stop) => .ok ({ name, kind, offset } :: members, stop) := by
  rw [place, obstacle?]
  by_cases repeated : name ∈ seen
  · simp only [if_pos repeated]
  · by_cases invalid : kind.hasValidSize width = false
    · simp only [if_neg repeated, if_pos invalid]
    · by_cases large : addressSpace ≤ offset + kind.size width
      · simp only [if_neg repeated, if_neg invalid, if_pos large]
      · cases place width (seen.insert name) (offset + kind.size width) rest with
        | error error => simp only [if_neg repeated, if_neg invalid, if_neg large]
        | ok result =>
            obtain ⟨members, stop⟩ := result
            simp only [if_neg repeated, if_neg invalid, if_neg large]

theorem place_cons_eq_ok_iff :
    place width seen offset ((name, kind) :: rest) = .ok (placed, stop) ↔
      obstacle? width seen offset name kind = none ∧
        ∃ members, place width (seen.insert name) (offset + kind.size width) rest =
            .ok (members, stop) ∧ placed = { name, kind, offset } :: members := by
  rw [place_cons]
  cases obstacle? width seen offset name kind with
  | some error => simp
  | none =>
      cases place width (seen.insert name) (offset + kind.size width) rest with
      | error error => simp
      | ok pair =>
          obtain ⟨members, last⟩ := pair
          simp only [Except.ok.injEq, Prod.mk.injEq, true_and]
          constructor
          · rintro ⟨rfl, rfl⟩
            exact ⟨members, ⟨rfl, rfl⟩, rfl⟩
          · rintro ⟨_, ⟨rfl, rfl⟩, rfl⟩
            exact ⟨rfl, rfl⟩

/-- The walk succeeds when names are new and distinct, sizes are valid and their sum stays inside
the address space. -/
theorem place_eq_ok_iff (start : offset < addressSpace) :
    place width seen offset members = .ok (placed, stop) ↔
      ((members.map Prod.fst).Nodup ∧ ∀ member ∈ members, member.1 ∉ seen) ∧
        (∀ member ∈ members, member.2.hasValidSize width = true) ∧
        offset + totalSize width members < addressSpace ∧
        placed = arrange width offset members ∧ stop = offset + totalSize width members := by
  induction members generalizing seen offset placed with
  | nil =>
      rw [place, arrange, Except.ok.injEq, Prod.mk.injEq, @eq_comm _ _ placed, @eq_comm _ _ stop]
      simp [totalSize, start]
  | cons member rest ih =>
      obtain ⟨name, kind⟩ := member
      rw [place_cons_eq_ok_iff, obstacle?_eq_none_iff, totalSize_cons, ← Nat.add_assoc, arrange]
      constructor
      · rintro ⟨⟨fresh, valid, room⟩, tail, placed_rest, rfl⟩
        obtain ⟨⟨nodup, new⟩, sizes, last, rfl, rfl⟩ := (ih room).1 placed_rest
        -- a later member is neither this one nor one seen before
        have later : ∀ member ∈ rest, member.1 ≠ name ∧ member.1 ∉ seen := by
          intro member mem
          have unseen := new member mem
          rw [Std.TreeSet.mem_insert, Std.compare_eq_iff_eq, not_or] at unseen
          exact ⟨Ne.symm unseen.1, unseen.2⟩
        refine ⟨⟨?_, ?_⟩, ?_, last, rfl, rfl⟩
        · rw [List.map_cons, List.nodup_cons]
          refine ⟨?_, nodup⟩
          intro mem
          obtain ⟨member, member_mem, same⟩ := List.mem_map.1 mem
          exact (later member member_mem).1 same
        · rintro member (_ | ⟨_, mem⟩)
          · exact fresh
          · exact (later member mem).2
        · rintro member (_ | ⟨_, mem⟩)
          · exact valid
          · exact sizes member mem
      · rintro ⟨⟨nodup, new⟩, sizes, last, rfl, rfl⟩
        rw [List.map_cons, List.nodup_cons] at nodup
        have room : offset + kind.size width < addressSpace := by omega
        refine ⟨⟨new _ List.mem_cons_self, sizes _ List.mem_cons_self, room⟩, _, ?_, rfl⟩
        refine (ih room).2 ⟨⟨nodup.2, ?_⟩, ?_, last, rfl, rfl⟩
        · intro member mem
          rw [Std.TreeSet.mem_insert, Std.compare_eq_iff_eq, not_or]
          refine ⟨?_, new _ (List.mem_cons_of_mem _ mem)⟩
          intro same
          exact nodup.1 (List.mem_map.2 ⟨member, mem, same.symm⟩)
        · intro member mem
          exact sizes _ (List.mem_cons_of_mem _ mem)

/-! ## Causes of a refusal -/

/-- The causes for which a builder refuses its members. -/
inductive Cause (builder : LayoutBuilder) : SlotError → Prop
  | name {member} (mem : member ∈ builder.members) : Cause builder (.duplicateMember member.1)
  | size {member} (mem : member ∈ builder.members) :
      Cause builder (.invalidMemberSize member.1 (member.2.size builder.width))
  | sum {member} (mem : member ∈ builder.members) : Cause builder (.layoutTooLarge member.1)
  | empty : Cause builder (.invalidRecordSize 0)

section Cause

variable {hash : String → UInt64} {builder : LayoutBuilder} {error : SlotError}

theorem cause_of_obstacle? (mem : (name, kind) ∈ builder.members)
    (refused : obstacle? builder.width seen offset name kind = some error) :
    builder.Cause error := by
  rw [obstacle?] at refused
  split at refused
  · cases refused
    exact .name mem
  · split at refused
    · cases refused
      exact .size mem
    · split at refused
      · cases refused
        exact .sum mem
      · cases refused

theorem cause_of_place (declared : members ⊆ builder.members)
    (refused : place builder.width seen offset members = .error error) :
    builder.Cause error := by
  induction members generalizing seen offset with
  | nil => cases refused
  | cons member rest ih =>
      obtain ⟨mem, later⟩ := List.cons_subset.1 declared
      rw [place_cons] at refused
      split at refused
      · next cause obstacle =>
        cases refused
        exact cause_of_obstacle? mem obstacle
      · split at refused
        · next cause failed =>
          cases refused
          exact ih later failed
        · cases refused

/-- A refusal names one of the declared members, or says that there is none. -/
theorem cause_of_buildWith (refused : buildWith hash builder = .error error) :
    builder.Cause error := by
  rw [buildWith] at refused
  split at refused
  · next cause failed =>
    cases refused
    exact cause_of_place (List.Subset.refl _) failed
  · split at refused
    · cases refused
      exact .empty
    · cases refused

end Cause

/-! ## The arrangement -/

/-- An arrangement keeps names, kinds and their order. -/
theorem map_arrange (width : SlotWidth) (offset : Nat) (members : List (String × MemberKind)) :
    (arrange width offset members).map (fun member => (member.name, member.kind)) = members := by
  induction members generalizing offset with
  | nil => rfl
  | cons member rest ih => rw [arrange, List.map_cons, ih]

/-- Members lie between the start and the end of their arrangement. -/
theorem bounds_arrange {member : Member} (mem : member ∈ arrange width offset members) :
    offset ≤ member.offset ∧
      member.offset + member.kind.size width ≤ offset + totalSize width members := by
  induction members generalizing offset with
  | nil => cases mem
  | cons first rest ih =>
      obtain ⟨name, kind⟩ := first
      rw [totalSize_cons]
      rcases List.mem_cons.1 mem with rfl | later
      · exact ⟨Nat.le_refl _, by dsimp only; omega⟩
      · have bounds := ih later
        omega

/-- Each member ends before the next ones start. -/
theorem pairwise_arrange (width : SlotWidth) (offset : Nat)
    (members : List (String × MemberKind)) :
    (arrange width offset members).Pairwise fun a b =>
      a.offset + a.kind.size width ≤ b.offset := by
  induction members generalizing offset with
  | nil => exact List.Pairwise.nil
  | cons member rest ih =>
      refine List.pairwise_cons.2 ⟨?_, ih _⟩
      intro later mem
      exact (bounds_arrange mem).1

end LayoutBuilder

/-! ## Layouts -/

namespace CompoundLayout

open LayoutBuilder

variable {hash : String → UInt64} {layout : CompoundLayout} {member : Member}

/-- What holds of a layout that a builder accepts, with names indexed by `hash`. -/
structure Formed (hash : String → UInt64) (layout : CompoundLayout) : Prop where
  nodup : (layout.members.map (·.name)).Nodup
  valid : ∀ member ∈ layout.members, member.kind.hasValidSize layout.width = true
  members_eq : layout.members = arrange layout.width 0 layout.toSpec.members
  recordSize_eq : layout.recordSize = totalSize layout.width layout.toSpec.members
  recordSize_pos : 0 < layout.recordSize
  recordSize_lt : layout.recordSize < addressSpace
  index_eq : layout.index = NameIndex.ofNames hash (layout.members.map (·.name))

theorem map_name (layout : CompoundLayout) :
    layout.toSpec.members.map Prod.fst = layout.members.map (·.name) := by
  rw [toSpec, List.map_map]
  rfl

/-- A builder accepts its members when they make up a formed layout. -/
theorem buildWith_eq_ok_iff {builder : LayoutBuilder} :
    buildWith hash builder = .ok layout ↔
      layout.Formed hash ∧ layout.width = builder.width ∧
        layout.toSpec.members = builder.members := by
  have start : 0 < addressSpace := by decide
  constructor
  · intro built
    rw [buildWith] at built
    split at built
    · cases built
    · next members stop placed =>
      split at built
      · cases built
      · next occupied =>
        cases built
        obtain ⟨⟨nodup, -⟩, valid, room, rfl, rfl⟩ := (place_eq_ok_iff start).1 placed
        have kept := map_arrange builder.width 0 builder.members
        refine ⟨?_, rfl, kept⟩
        refine
          { nodup := ?_
            valid := ?_
            members_eq := by rw [toSpec, kept]
            recordSize_eq := by rw [toSpec, kept, Nat.zero_add]
            recordSize_pos := Nat.pos_of_ne_zero occupied
            recordSize_lt := room
            index_eq := rfl }
        · rw [← map_name, toSpec, kept]
          exact nodup
        · intro member mem
          have declared : (member.name, member.kind) ∈ builder.members := by
            rw [← kept]
            exact List.mem_map_of_mem mem
          exact valid _ declared
  · rintro ⟨formed, width, members⟩
    have placed : place builder.width ∅ 0 builder.members =
        .ok (layout.members, layout.recordSize) := by
      rw [place_eq_ok_iff start, ← width, ← members, Nat.zero_add]
      refine ⟨⟨?_, ?_⟩, ?_, ?_, formed.members_eq, formed.recordSize_eq⟩
      · rw [map_name]
        exact formed.nodup
      · intro member _
        exact Std.TreeSet.not_mem_emptyc
      · intro member mem
        obtain ⟨own, own_mem, rfl⟩ := List.mem_map.1 mem
        exact formed.valid own own_mem
      · rw [← formed.recordSize_eq]
        exact formed.recordSize_lt
    rw [buildWith, placed]
    dsimp only
    rw [if_neg (Nat.ne_of_gt formed.recordSize_pos), ← formed.index_eq, ← width]

namespace Formed

/-- A member lies inside the record. -/
theorem inside (formed : layout.Formed hash) (mem : member ∈ layout.members) :
    member.offset + member.kind.size layout.width ≤ layout.recordSize := by
  rw [formed.members_eq] at mem
  rw [formed.recordSize_eq, ← Nat.zero_add (totalSize _ _)]
  exact (bounds_arrange mem).2

/-- Each member ends before the next ones start. -/
theorem pairwise (formed : layout.Formed hash) :
    layout.members.Pairwise fun a b => a.offset + a.kind.size layout.width ≤ b.offset := by
  rw [formed.members_eq]
  exact pairwise_arrange layout.width 0 layout.toSpec.members

/-- Members take a byte at least, so their offsets ascend. -/
theorem pairwise_offset (formed : layout.Formed hash) :
    layout.members.Pairwise fun a b => a.offset < b.offset := by
  apply formed.pairwise.imp_of_mem
  intro a b a_mem _ before
  have size_pos := MemberKind.size_pos (formed.valid a a_mem)
  omega

/-- Members with one offset are one member. -/
theorem eq_of_offset (formed : layout.Formed hash) (mem : member ∈ layout.members)
    {other : Member} (other_mem : other ∈ layout.members) (same : member.offset = other.offset) :
    member = other := by
  have distinct : (layout.members.map (·.offset)).Nodup :=
    List.pairwise_map.2 (formed.pairwise_offset.imp Nat.ne_of_lt)
  exact List.inj_on_of_nodup_map distinct mem other_mem same

theorem eq_of_name (formed : layout.Formed hash) (mem : member ∈ layout.members)
    {other : Member} (other_mem : other ∈ layout.members) (same : member.name = other.name) :
    member = other :=
  List.inj_on_of_nodup_map formed.nodup mem other_mem same

/-! ## The schema of the string slots -/

theorem mem_slotOffsets_iff {offset : Nat} :
    offset ∈ layout.slotOffsets ↔
      ∃ member ∈ layout.members, member.kind = .vlString ∧ member.offset = offset := by
  simp only [slotOffsets, stringMembers, List.mem_map, List.mem_filter,
    MemberKind.isStringSlot_iff, and_assoc]

/-- Each string slot starts behind the end of those before it. -/
theorem pairwise_slotOffsets (formed : layout.Formed hash) :
    layout.slotOffsets.Pairwise fun a b => a + layout.width.bytes ≤ b := by
  rw [slotOffsets, List.pairwise_map]
  apply (formed.pairwise.sublist List.filter_sublist).imp_of_mem
  intro a b a_mem _ before
  -- the earlier of the two is a slot, so its size is the width
  rw [MemberKind.isStringSlot_iff.1 (List.mem_filter.1 a_mem).2] at before
  exact before

/-- The string slots of a formed layout. -/
def schema (formed : layout.Formed hash) : SlotSchema where
  recordSize := layout.recordSize
  width := layout.width
  offsets := layout.slotOffsets
  recordSize_pos := formed.recordSize_pos
  inside offset mem := by
    obtain ⟨member, member_mem, slot, rfl⟩ := mem_slotOffsets_iff.1 mem
    have inside := formed.inside member_mem
    rw [slot] at inside
    exact inside
  apart := formed.pairwise_slotOffsets.imp Or.inl

theorem slotSchema_eq (formed : layout.Formed hash) : layout.slotSchema = .ok formed.schema :=
  formed.schema.ofOffsets_eq

end Formed

end CompoundLayout

end StringSlots
