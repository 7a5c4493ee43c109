import StringSlots.Proofs.Layout.Equality

/-!
# Members in the order of their names

`CompoundLayout.sortedMembers` lists the members of a layout by name. Names are distinct, so it is
the one strictly ascending list of these members, and for two layouts its names and kinds agree
exactly when the layouts declare the same members in any order (`sortedMembers_canonical`).

A listed member still has its place, and places are sums of the sizes of the members declared
before. So the lists as wholes agree only for layouts that declare their members in one order
(`sortedMembers_eq_iff_order`), which are equal layouts.
-/

namespace StringSlots

/-- What is declared of a member: all but its place. -/
def Member.declared (member : Member) : String × MemberKind :=
  (member.name, member.kind)

/-- Members that are declared alike differ in their places only. -/
theorem Member.eq_iff_offset {a b : Member} (same : a.declared = b.declared) :
    a = b ↔ a.offset = b.offset := by
  obtain ⟨name, kind⟩ := Prod.mk.inj same
  cases a
  cases b
  cases name
  cases kind
  simp

/-- Items in strictly ascending order of the UTF-8 bytes of their names. -/
def AscendsBy {α : Type} (name : α → String) (items : List α) : Prop :=
  items.Pairwise fun a b => utf8 (name a) < utf8 (name b)

instance {α : Type} (name : α → String) (items : List α) : Decidable (AscendsBy name items) :=
  inferInstanceAs (Decidable (items.Pairwise fun a b => utf8 (name a) < utf8 (name b)))

/-- Items that ascend strictly have no other order in which they do. -/
theorem AscendsBy.eq_of_perm {α : Type} {name : α → String} {first second : List α}
    (first_ascends : AscendsBy name first) (second_ascends : AscendsBy name second)
    (perm : first.Perm second) : first = second := by
  apply List.Perm.eq_of_pairwise _ first_ascends second_ascends perm
  intro a b _ _ below above
  exact absurd above (List.lt_asymm below)

namespace CompoundLayout

variable {hash other : String → UInt64} {layout a b : CompoundLayout}

theorem toSpec_members (layout : CompoundLayout) :
    layout.toSpec.members = layout.members.map Member.declared := rfl

theorem sortedMembers_perm (layout : CompoundLayout) :
    layout.sortedMembers.Perm layout.members :=
  List.mergeSort_perm layout.members _

theorem pairwise_sortedMembers (layout : CompoundLayout) :
    layout.sortedMembers.Pairwise fun a b => utf8Le a.name b.name = true := by
  apply List.pairwise_mergeSort
  · intro a b c ab bc
    exact utf8Le_trans ab bc
  · intro a b
    exact utf8Le_total a.name b.name

namespace Formed

/-- No two members share a name, so the order is strict. -/
theorem ascendsBy_sortedMembers (formed : layout.Formed hash) :
    AscendsBy Member.name layout.sortedMembers := by
  have distinct : layout.sortedMembers.Pairwise fun a b => a.name ≠ b.name := by
    apply List.pairwise_map.1
    exact (layout.sortedMembers_perm.map Member.name).nodup_iff.2 formed.nodup
  apply (layout.pairwise_sortedMembers.and distinct).imp
  rintro a b ⟨le, differ⟩
  exact utf8_lt_of_utf8Le le differ

theorem ascendsBy_declared (formed : layout.Formed hash) :
    AscendsBy Prod.fst (layout.sortedMembers.map Member.declared) :=
  List.pairwise_map.2 formed.ascendsBy_sortedMembers

/-- The names and kinds of the list hang on what is declared, and not on its order. -/
theorem map_declared_eq_iff (a_formed : a.Formed hash) (b_formed : b.Formed other) :
    a.sortedMembers.map Member.declared = b.sortedMembers.map Member.declared ↔
      a.toSpec.members.Perm b.toSpec.members := by
  have a_perm := a.sortedMembers_perm.map Member.declared
  have b_perm := b.sortedMembers_perm.map Member.declared
  rw [toSpec_members, toSpec_members]
  constructor
  · intro same
    rw [same] at a_perm
    exact a_perm.symm.trans b_perm
  · intro perm
    apply a_formed.ascendsBy_declared.eq_of_perm b_formed.ascendsBy_declared
    exact a_perm.trans (perm.trans b_perm.symm)

/-- Places ascend in the order of declaration, so members with their places have one order only. -/
theorem members_eq_of_perm (a_formed : a.Formed hash) (b_formed : b.Formed other)
    (perm : a.members.Perm b.members) : a.members = b.members := by
  apply List.Perm.eq_of_pairwise _ a_formed.pairwise_offset b_formed.pairwise_offset perm
  intro m n _ _ below above
  exact absurd above (Nat.lt_asymm below)

theorem sortedMembers_eq_iff (a_formed : a.Formed hash) (b_formed : b.Formed other) :
    a.sortedMembers = b.sortedMembers ↔ a.members = b.members := by
  constructor
  · intro same
    apply a_formed.members_eq_of_perm b_formed
    rw [← a.sortedMembers_perm.congr_left, same]
    exact b.sortedMembers_perm
  · intro same
    rw [sortedMembers, sortedMembers, same]

end Formed

/-- The list by name has the members of the layout in strictly ascending order of the UTF-8 bytes of
their names, and no other list has. Two layouts declare the same members, in whatever orders,
exactly when the names and kinds of their lists agree. -/
theorem sortedMembers_canonical {first second : LayoutBuilder}
    (a_built : LayoutBuilder.buildWith hash first = .ok a)
    (b_built : LayoutBuilder.buildWith other second = .ok b) :
    (a.sortedMembers.Perm a.members ∧ AscendsBy Member.name a.sortedMembers) ∧
      (∀ listed : List Member, listed.Perm a.members → AscendsBy Member.name listed →
        listed = a.sortedMembers) ∧
      (a.sortedMembers.map Member.declared = b.sortedMembers.map Member.declared ↔
        first.members.Perm second.members) := by
  obtain ⟨a_formed, -, a_members⟩ := buildWith_eq_ok_iff.1 a_built
  obtain ⟨b_formed, -, b_members⟩ := buildWith_eq_ok_iff.1 b_built
  refine ⟨⟨a.sortedMembers_perm, a_formed.ascendsBy_sortedMembers⟩, ?_, ?_⟩
  · intro listed perm ascends
    apply ascends.eq_of_perm a_formed.ascendsBy_sortedMembers
    exact perm.trans a.sortedMembers_perm.symm
  · rw [a_formed.map_declared_eq_iff b_formed, a_members, b_members]

/-- The members of `colliding` in the other order of declaration. -/
def reordered : CompoundLayout where
  width := .w32
  members := [⟨"number", .int 2, 0⟩, ⟨"label", .vlString, 2⟩]
  recordSize := 6
  index := NameIndex.ofNames nameHash ["number", "label"]

theorem built_reordered :
    LayoutBuilder.buildWith nameHash
      (.ofMembers .w32 [("number", .int 2), ("label", .vlString)]) = .ok reordered := by
  have formed : reordered.Formed nameHash :=
    { nodup := by decide
      valid := by decide
      members_eq := by decide
      recordSize_eq := by decide
      recordSize_pos := by decide
      recordSize_lt := by decide
      index_eq := rfl }
  exact buildWith_eq_ok_iff.2 ⟨formed, rfl, rfl⟩

theorem sortedMembers_canonical_reordered :
    reordered.sortedMembers = [⟨"label", .vlString, 2⟩, ⟨"number", .int 2, 0⟩] ∧
      reordered.sortedMembers.map Member.declared =
        colliding.sortedMembers.map Member.declared := by
  obtain ⟨-, unique, declared⟩ := sortedMembers_canonical built_reordered built_colliding
  constructor
  · refine (unique _ (List.Perm.swap _ _ _) ?_).symm
    decide +kernel
  · exact declared.2 (List.Perm.swap _ _ _)

/-- Layouts of one width that declare the same members have lists by name with the same names and
kinds, and what is listed at one position for both is the same member exactly if it has one place.
All of the two lists is the same only if the members are declared in one order, which makes the
layouts equal. -/
theorem sortedMembers_eq_iff_order {first second : LayoutBuilder}
    (a_built : LayoutBuilder.buildWith hash first = .ok a)
    (b_built : LayoutBuilder.buildWith other second = .ok b)
    (width : first.width = second.width) (perm : first.members.Perm second.members) :
    (∀ (position : Nat) (m n : Member), a.sortedMembers[position]? = some m →
        b.sortedMembers[position]? = some n →
          m.declared = n.declared ∧ (m = n ↔ m.offset = n.offset)) ∧
      (a.sortedMembers = b.sortedMembers ↔ first.members = second.members) ∧
      (a.sortedMembers = b.sortedMembers ↔ (a == b) = true) := by
  obtain ⟨a_formed, a_width, a_members⟩ := buildWith_eq_ok_iff.1 a_built
  obtain ⟨b_formed, b_width, b_members⟩ := buildWith_eq_ok_iff.1 b_built
  rw [← a_members, ← b_members] at perm ⊢
  rw [← a_width, ← b_width] at width
  have declared := (a_formed.map_declared_eq_iff b_formed).2 perm
  have equal : (a == b) = true ↔ a.members = b.members := by
    rw [beq_iff, and_iff_right width]
  refine ⟨?_, ?_, ?_⟩
  · intro position m n m_listed n_listed
    have same : m.declared = n.declared := by
      have listed := congrArg (·[position]?) declared
      simpa [m_listed, n_listed] using listed
    exact ⟨same, Member.eq_iff_offset same⟩
  · rw [a_formed.sortedMembers_eq_iff b_formed, ← equal, a_formed.beq_iff_toSpec b_formed]
    -- descriptions of one width can differ in their members only
    constructor
    · exact congrArg LayoutSpec.members
    · intro same
      show LayoutSpec.mk a.width a.toSpec.members = LayoutSpec.mk b.width b.toSpec.members
      rw [width, same]
  · rw [a_formed.sortedMembers_eq_iff b_formed, equal]

/-- Two members declared in both orders are listed in one order, but at different places. -/
theorem sortedMembers_eq_iff_order_reordered :
    let named := colliding.reindex nameHash
    (∃ first second : LayoutBuilder, first.build = .ok named ∧ second.build = .ok reordered ∧
        first.width = second.width ∧ first.members.Perm second.members) ∧
      named.sortedMembers ≠ reordered.sortedMembers := by
  intro named
  have named_built := buildWith_reindex built_colliding nameHash
  have swapped : [("label", .vlString), ("number", .int 2)].Perm
      [("number", MemberKind.int 2), ("label", .vlString)] := List.Perm.swap _ _ _
  obtain ⟨-, order, -⟩ := sortedMembers_eq_iff_order named_built built_reordered rfl swapped
  refine ⟨⟨_, _, named_built, built_reordered, rfl, swapped⟩, ?_⟩
  rw [Ne, order]
  decide

end CompoundLayout

end StringSlots
