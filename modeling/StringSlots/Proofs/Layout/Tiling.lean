import StringSlots.Proofs.Layout.Placement

/-!
# Accepted and refused members

`LayoutBuilder.WellFormed` says which lists of members can be laid out, and `Offence` what keeps a
member from standing behind the members before it. A builder accepts exactly the well-formed lists
and otherwise reports its first offence (`place_eq_error_iff`). The members of an accepted layout
share no byte and leave none out (`CompoundLayout.Tiles`). `build_tiles` puts these together.
-/

namespace StringSlots

namespace MemberKind

/-- The kinds that can be stored: a float has two, four or eight bytes, all else at least one. -/
inductive Storable : MemberKind → Prop
  | bool : Storable bool
  | int {n : Nat} (pos : 0 < n) : Storable (int n)
  | float {n : Nat} (floats : n = 2 ∨ n = 4 ∨ n = 8) : Storable (float n)
  | fixedString {n : Nat} (pos : 0 < n) : Storable (fixedString n)
  | vlString : Storable vlString
  | blob {n : Nat} (pos : 0 < n) : Storable (blob n)

theorem hasValidSize_iff {width : SlotWidth} {kind : MemberKind} :
    kind.hasValidSize width = true ↔ kind.Storable := by
  constructor
  · intro valid
    cases kind with
    | bool => exact .bool
    | int n => exact .int (size_pos valid)
    | float n =>
        simp only [hasValidSize, Bool.or_eq_true, beq_iff_eq] at valid
        exact .float (by omega)
    | fixedString n => exact .fixedString (size_pos valid)
    | vlString => exact .vlString
    | blob n => exact .blob (size_pos valid)
  · intro storable
    cases storable with
    | bool => rfl
    | vlString => exact decide_eq_true width.bytes_pos
    | float floats =>
        simp only [hasValidSize, Bool.or_eq_true, beq_iff_eq]
        omega
    | int pos => exact decide_eq_true pos
    | fixedString pos => exact decide_eq_true pos
    | blob pos => exact decide_eq_true pos

end MemberKind

namespace LayoutBuilder

variable {width : SlotWidth} {seen : Std.TreeSet String} {error : SlotError}
  {earlier before members rest : List (String × MemberKind)} {member : String × MemberKind}

/-- The lists of members that can be laid out. -/
structure WellFormed (width : SlotWidth) (members : List (String × MemberKind)) : Prop where
  nonempty : members ≠ []
  distinct : (members.map Prod.fst).Nodup
  storable : ∀ member ∈ members, member.2.Storable
  fits : totalSize width members < addressSpace

/-- What keeps a member from standing behind the members of a list. A repeated name goes before an
invalid size, and that before a sum that leaves the address space. -/
inductive Offence (width : SlotWidth) (before : List (String × MemberKind)) :
    String × MemberKind → SlotError → Prop
  | name {name : String} {kind : MemberKind} (repeated : name ∈ before.map Prod.fst) :
      Offence width before (name, kind) (.duplicateMember name)
  | size {name : String} {kind : MemberKind} (fresh : name ∉ before.map Prod.fst)
      (invalid : ¬kind.Storable) :
      Offence width before (name, kind) (.invalidMemberSize name (kind.size width))
  | sum {name : String} {kind : MemberKind} (fresh : name ∉ before.map Prod.fst)
      (storable : kind.Storable) (large : addressSpace ≤ totalSize width before + kind.size width) :
      Offence width before (name, kind) (.layoutTooLarge name)

/-- The error is the offence of the first member that cannot stand where it does, behind the members
of `earlier` and those before it. -/
def FirstOffence (width : SlotWidth) (earlier members : List (String × MemberKind))
    (error : SlotError) : Prop :=
  ∃ before member after, members = before ++ member :: after ∧
    (∀ front other back cause, before = front ++ other :: back →
      ¬Offence width (earlier ++ front) other cause) ∧
    Offence width (earlier ++ before) member error

/-! ## The first offence -/

theorem firstOffence_nil : ¬FirstOffence width earlier [] error := by
  rintro ⟨before, member, after, split, -⟩
  exact List.cons_ne_nil _ _ (List.append_eq_nil_iff.1 split.symm).2

theorem firstOffence_cons_iff :
    FirstOffence width earlier (member :: rest) error ↔
      Offence width earlier member error ∨
        (∀ cause, ¬Offence width earlier member cause) ∧
          FirstOffence width (earlier ++ [member]) rest error := by
  constructor
  · rintro ⟨before, offender, after, split, clean, offends⟩
    cases before with
    | nil =>
        obtain ⟨rfl, -⟩ := List.cons.inj split
        rw [List.append_nil] at offends
        exact Or.inl offends
    | cons first before =>
        obtain ⟨rfl, rfl⟩ := List.cons.inj split
        refine Or.inr ⟨?_, before, offender, after, rfl, ?_, ?_⟩
        · intro cause first_offends
          rw [← List.append_nil earlier] at first_offends
          exact clean [] member before cause rfl first_offends
        · rintro front other back cause rfl
          rw [List.append_assoc]
          exact clean (member :: front) other back cause rfl
        · rw [List.append_assoc]
          exact offends
  · rintro (offends | ⟨first_clean, before, offender, after, rfl, clean, offends⟩)
    · refine ⟨[], member, rest, rfl, ?_, ?_⟩
      · intro front other back cause split
        exact absurd split.symm (List.append_ne_nil_of_right_ne_nil _ (List.cons_ne_nil _ _))
      · rwa [List.append_nil]
    · rw [List.append_assoc] at offends
      refine ⟨member :: before, offender, after, rfl, ?_, offends⟩
      intro front other back cause split
      cases front with
      | nil =>
          obtain ⟨rfl, -⟩ := List.cons.inj split
          rw [List.append_nil]
          exact first_clean cause
      | cons first front =>
          obtain ⟨rfl, rfl⟩ := List.cons.inj split
          have later := clean front other back cause rfl
          rwa [List.append_assoc] at later

/-! ## The walk -/

/-- The obstacle that the walk finds is the offence, when it has seen the names of the members
before and stands at the sum of their sizes. -/
theorem obstacle?_eq_some_iff (names : ∀ name, name ∈ seen ↔ name ∈ before.map Prod.fst) :
    obstacle? width seen (totalSize width before) member.1 member.2 = some error ↔
      Offence width before member error := by
  obtain ⟨name, kind⟩ := member
  have invalid_iff : kind.hasValidSize width = false ↔ ¬kind.Storable := by
    rw [← MemberKind.hasValidSize_iff, Bool.not_eq_true]
  rw [obstacle?]
  constructor
  · intro found
    split at found
    · next repeated =>
      cases found
      exact .name ((names name).1 repeated)
    · next unseen =>
      have fresh := (names name).not.1 unseen
      split at found
      · next invalid =>
        cases found
        exact .size fresh (invalid_iff.1 invalid)
      · next valid =>
        split at found
        · next large =>
          cases found
          exact .sum fresh (not_not.1 (invalid_iff.not.1 valid)) large
        · cases found
  · intro offends
    cases offends with
    | name repeated => exact if_pos ((names name).2 repeated)
    | size fresh invalid =>
        rw [if_neg ((names name).not.2 fresh), if_pos (invalid_iff.2 invalid)]
    | sum fresh storable large =>
        rw [if_neg ((names name).not.2 fresh), if_neg (invalid_iff.not.2 (not_not.2 storable)),
          if_pos large]

/-- The walk fails with the first offence. The induction is on the members that are left; the walk
has seen the names of the members before and stands at the sum of their sizes. -/
theorem place_eq_error_iff (names : ∀ name, name ∈ seen ↔ name ∈ earlier.map Prod.fst) :
    place width seen (totalSize width earlier) members = .error error ↔
      FirstOffence width earlier members error := by
  induction members generalizing seen earlier with
  | nil => exact iff_of_false (by simp [place]) firstOffence_nil
  | cons member rest ih =>
      rw [firstOffence_cons_iff, place_cons]
      have offences : ∀ cause,
          obstacle? width seen (totalSize width earlier) member.1 member.2 = some cause ↔
            Offence width earlier member cause :=
        fun cause => obstacle?_eq_some_iff names
      cases obstacle : obstacle? width seen (totalSize width earlier) member.1 member.2 with
      | some cause =>
          rw [← offences, obstacle]
          constructor
          · intro refused
            cases refused
            exact Or.inl rfl
          · rintro (found | ⟨clean, -⟩)
            · cases found
              rfl
            · exact absurd ((offences cause).1 obstacle) (clean cause)
      | none =>
          have clean : ∀ cause, ¬Offence width earlier member cause := by
            intro cause offends
            rw [← offences, obstacle] at offends
            cases offends
          have seen_names : ∀ name, name ∈ seen.insert member.1 ↔
              name ∈ (earlier ++ [member]).map Prod.fst := by
            intro name
            rw [Std.TreeSet.mem_insert, Std.compare_eq_iff_eq, names, List.map_append,
              List.mem_append, or_comm, List.map_singleton, List.mem_singleton, @eq_comm _ name]
          have sizes : totalSize width (earlier ++ [member]) =
              totalSize width earlier + member.2.size width := by
            simp [totalSize]
          rw [or_iff_right (clean error), and_iff_right clean, ← ih seen_names, sizes]
          dsimp only
          cases place width (seen.insert member.1) (totalSize width earlier + member.2.size width)
            rest with
          | error cause => rfl
          | ok placed => simp

/-! ## Accepted and refused lists -/

section Build

variable {hash : String → UInt64} {builder : LayoutBuilder}

theorem totalSize_pos (nonempty : members ≠ [])
    (storable : ∀ member ∈ members, member.2.Storable) : 0 < totalSize width members := by
  obtain ⟨first, rest, rfl⟩ := List.exists_cons_of_ne_nil nonempty
  have first_pos : 0 < first.2.size width :=
    MemberKind.size_pos (MemberKind.hasValidSize_iff.2 (storable first List.mem_cons_self))
  rw [totalSize_cons]
  omega

/-- The walk over the declared members of a builder. -/
theorem place_declared_eq_ok_iff {placed : List Member} {stop : Nat} :
    place width ∅ 0 members = .ok (placed, stop) ↔
      (members.map Prod.fst).Nodup ∧ (∀ member ∈ members, member.2.Storable) ∧
        totalSize width members < addressSpace ∧
        placed = arrange width 0 members ∧ stop = totalSize width members := by
  have start : 0 < addressSpace := by decide
  have unseen : ∀ member ∈ members, member.1 ∉ (∅ : Std.TreeSet String) :=
    fun _ _ => Std.TreeSet.not_mem_emptyc
  simp only [place_eq_ok_iff start, MemberKind.hasValidSize_iff, and_iff_left unseen, Nat.zero_add]

theorem exists_buildWith_iff :
    (∃ layout, buildWith hash builder = .ok layout) ↔
      WellFormed builder.width builder.members := by
  rw [buildWith]
  constructor
  · rintro ⟨layout, built⟩
    split at built
    · cases built
    · next placed stop walked =>
      split at built
      · cases built
      · next occupied =>
        obtain ⟨distinct, storable, fits, -, rfl⟩ := place_declared_eq_ok_iff.1 walked
        refine ⟨?_, distinct, storable, fits⟩
        intro empty
        rw [empty] at occupied
        exact occupied rfl
  · rintro ⟨nonempty, distinct, storable, fits⟩
    have walked := place_declared_eq_ok_iff.2 ⟨distinct, storable, fits, rfl, rfl⟩
    have occupied : 0 < totalSize builder.width builder.members :=
      totalSize_pos nonempty storable
    simp only [walked, if_neg (Nat.ne_of_gt occupied)]
    exact ⟨_, rfl⟩

/-- A builder without members is refused for its record size, any other for its first offence. -/
theorem buildWith_eq_error_iff :
    buildWith hash builder = .error error ↔
      builder.members = [] ∧ error = .invalidRecordSize 0 ∨
        FirstOffence builder.width [] builder.members error := by
  have names : ∀ name, name ∈ (∅ : Std.TreeSet String) ↔
      name ∈ ([] : List (String × MemberKind)).map Prod.fst :=
    fun name => iff_of_false Std.TreeSet.not_mem_emptyc List.not_mem_nil
  have walk_error : ∀ cause, place builder.width ∅ 0 builder.members = .error cause ↔
      FirstOffence builder.width [] builder.members cause :=
    fun cause => place_eq_error_iff names
  rw [← walk_error, buildWith]
  cases walked : place builder.width ∅ 0 builder.members with
  | error cause =>
      -- a walk over no members does not fail
      have nonempty : builder.members ≠ [] := by
        intro empty
        rw [empty] at walked
        cases walked
      simp only [nonempty, false_and, false_or, Except.error.injEq]
  | ok result =>
      obtain ⟨placed, stop⟩ := result
      obtain ⟨-, storable, -, -, rfl⟩ := place_declared_eq_ok_iff.1 walked
      by_cases empty : builder.members = []
      · rw [empty]
        simp only [totalSize, List.map_nil, List.sum_nil, if_true, true_and, reduceCtorEq, or_false,
          Except.error.injEq, eq_comm]
      · have occupied : 0 < totalSize builder.width builder.members :=
          totalSize_pos empty storable
        simp only [if_neg (Nat.ne_of_gt occupied), empty, reduceCtorEq, false_and, or_self]

/-- An offence is never about the size of the record. -/
theorem not_firstOffence_recordSize {size : Int} :
    ¬FirstOffence width earlier members (.invalidRecordSize size) := by
  rintro ⟨before, member, after, -, -, offends⟩
  cases offends

end Build

/-! ## The places of the members -/

theorem arrange_append (offset : Nat) :
    arrange width offset (before ++ rest) =
      arrange width offset before ++ arrange width (offset + totalSize width before) rest := by
  induction before generalizing offset with
  | nil => rfl
  | cons member before ih =>
      obtain ⟨name, kind⟩ := member
      rw [List.cons_append, arrange, arrange, ih, totalSize_cons, Nat.add_assoc, List.cons_append]

end LayoutBuilder

/-- The places of a record that a member takes up. -/
def Member.Covers (width : SlotWidth) (member : Member) (place : Nat) : Prop :=
  member.offset ≤ place ∧ place < member.offset + member.kind.size width

/-- Between the start and the end of an arrangement every place belongs to a member. -/
theorem LayoutBuilder.exists_covers_arrange {width : SlotWidth}
    {members : List (String × MemberKind)} {offset place : Nat} (above : offset ≤ place)
    (below : place < offset + totalSize width members) :
    ∃ member ∈ arrange width offset members, member.Covers width place := by
  induction members generalizing offset with
  | nil => exact absurd below (Nat.not_lt.2 above)
  | cons first rest ih =>
      obtain ⟨name, kind⟩ := first
      rw [totalSize_cons, ← Nat.add_assoc] at below
      by_cases own : place < offset + kind.size width
      · exact ⟨_, List.mem_cons_self, above, own⟩
      · obtain ⟨member, mem, covers⟩ := ih (Nat.le_of_not_lt own) below
        exact ⟨member, List.mem_cons_of_mem _ mem, covers⟩

namespace CompoundLayout

open LayoutBuilder

/-- What a layout has to do with the members that were declared for it: it keeps their names, kinds
and order, and places them back to back, so that each byte of a record belongs to one member. -/
structure Tiles (layout : CompoundLayout) (width : SlotWidth)
    (members : List (String × MemberKind)) : Prop where
  width_eq : layout.width = width
  members_eq : layout.members.map (fun member => (member.name, member.kind)) = members
  offset_eq : ∀ before member after, layout.members = before ++ member :: after →
    member.offset = (before.map fun earlier => earlier.kind.size width).sum
  recordSize_eq : layout.recordSize = (members.map fun member => member.2.size width).sum
  covered : ∀ place < layout.recordSize,
    ∃! member, member ∈ layout.members ∧ member.Covers width place

variable {hash : String → UInt64} {layout : CompoundLayout}

namespace Formed

/-- Two members that take up one place are one member. -/
theorem eq_of_covers (formed : layout.Formed hash) {place : Nat} {a b : Member}
    (a_mem : a ∈ layout.members) (b_mem : b ∈ layout.members)
    (a_covers : a.Covers layout.width place) (b_covers : b.Covers layout.width place) : a = b := by
  obtain ⟨a_starts, a_ends⟩ := a_covers
  obtain ⟨b_starts, b_ends⟩ := b_covers
  obtain ⟨i, i_lt, rfl⟩ := List.getElem_of_mem a_mem
  obtain ⟨j, j_lt, rfl⟩ := List.getElem_of_mem b_mem
  have ordered := List.pairwise_iff_getElem.1 formed.pairwise
  rcases Nat.lt_trichotomy i j with first | rfl | second
  · have before := ordered i j i_lt j_lt first
    omega
  · rfl
  · have before := ordered j i j_lt i_lt second
    omega

theorem offset_eq (formed : layout.Formed hash) {before after : List Member} {member : Member}
    (split : layout.members = before ++ member :: after) :
    member.offset = (before.map fun earlier => earlier.kind.size layout.width).sum := by
  have arranged := formed.members_eq
  rw [toSpec, split, List.map_append, List.map_cons, arrange_append, arrange] at arranged
  have lengths : before.length =
      (arrange layout.width 0 (before.map fun earlier => (earlier.name, earlier.kind))).length := by
    rw [← List.length_map (fun earlier : Member => (earlier.name, earlier.kind)),
      ← List.length_map (fun earlier : Member => (earlier.name, earlier.kind)), map_arrange]
  obtain ⟨-, same⟩ := List.append_inj arranged lengths
  have here := congrArg Member.offset (List.cons.inj same).1
  rw [here, Nat.zero_add, totalSize, List.map_map]
  rfl

theorem tiles (formed : layout.Formed hash) : layout.Tiles layout.width layout.toSpec.members where
  width_eq := rfl
  members_eq := rfl
  offset_eq _ _ _ split := formed.offset_eq split
  recordSize_eq := formed.recordSize_eq
  covered place below := by
    rw [formed.recordSize_eq, ← Nat.zero_add (totalSize _ _)] at below
    obtain ⟨member, mem, covers⟩ := exists_covers_arrange (Nat.zero_le place) below
    rw [← formed.members_eq] at mem
    refine ⟨member, ⟨mem, covers⟩, ?_⟩
    rintro other ⟨other_mem, other_covers⟩
    exact formed.eq_of_covers other_mem mem other_covers covers

end Formed

end CompoundLayout

/-- Members that are declared one by one make up a layout exactly when the list of them is well
formed, and the layout tiles its record with them. A list that is not is refused for its first
offence, the empty list for its record size. A stored description is built in the same way. -/
theorem LayoutBuilder.build_tiles (hash : String → UInt64) (width : SlotWidth)
    (members : List (String × MemberKind)) :
    let builder := members.foldl (fun builder member => builder.add member.1 member.2)
      (empty width)
    let built := buildWith hash builder
    ((∃ layout, built = .ok layout) ↔ WellFormed width members) ∧
      (∀ layout, built = .ok layout → layout.Tiles width members) ∧
      (∀ error, built = .error error ↔
        members = [] ∧ error = .invalidRecordSize 0 ∨ FirstOffence width [] members error) ∧
      (built = .error (.invalidRecordSize 0) ↔ members = []) ∧
      CompoundLayout.ofSpec { width, members } = builder.build := by
  intro builder built
  have declared : builder = ofMembers width members := foldl_add (empty width) members
  have same : built = buildWith hash (ofMembers width members) :=
    congrArg (buildWith hash) declared
  rw [same, declared]
  refine ⟨exists_buildWith_iff, ?_, fun error => buildWith_eq_error_iff, ?_, rfl⟩
  · intro layout accepted
    obtain ⟨formed, width_eq, members_eq⟩ := CompoundLayout.buildWith_eq_ok_iff.1 accepted
    have tiles := formed.tiles
    rwa [width_eq, members_eq] at tiles
  · rw [buildWith_eq_error_iff, or_iff_left not_firstOffence_recordSize]
    exact and_iff_left rfl

end StringSlots
