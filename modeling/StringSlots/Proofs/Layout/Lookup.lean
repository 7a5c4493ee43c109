import StringSlots.Proofs.Layout.Placement

/-!
# Lookup of members by name

`partitionPoint_eq` says that bisection finds the place where the entries stop to lie below, when
there is one such place. In an index, whose entries are in ascending order, the entries of a hash
make up one run from that place on, so `candidates_eq` gives all positions whose names share the
hash. Since the caller compares names, `CompoundLayout.lookup_is_search` holds for any hash
function.
-/

namespace StringSlots

/-! ## Bisection -/

section Bisection

variable {α : Type} {below : α → Bool}

/-- Bisection ends at the place where the entries stop to lie below. -/
theorem bisect_eq {entries : Array α} {mark : Nat}
    (parted : ∀ position entry, entries[position]? = some entry →
      (below entry = true ↔ position < mark)) {low high : Nat} (above_low : low ≤ mark)
    (le_high : mark ≤ high) (inside : high ≤ entries.size) :
    bisect below entries low high = mark := by
  induction low, high using bisect.induct below entries with
  | case1 low high open_part middle entry found is_below ih =>
      rw [bisect, if_pos open_part]
      have before := (parted _ _ found).1 is_below
      simp only [middle] at found before ih
      simp only [found, if_pos is_below]
      exact ih before le_high inside
  | case2 low high open_part middle entry found not_below ih =>
      rw [bisect, if_pos open_part]
      have before := (parted _ _ found).not.1 not_below
      simp only [middle] at found before ih
      simp only [found, if_neg not_below]
      exact ih above_low (Nat.le_of_not_lt before) (by omega)
  | case3 low high open_part middle missing ih =>
      -- the middle lies inside the array
      have outside := Array.getElem?_eq_none_iff.1 missing
      simp only [middle] at outside
      omega
  | case4 low high closed =>
      rw [bisect, if_neg closed]
      omega

theorem partitionPoint_eq {entries : Array α} {mark : Nat}
    (parted : ∀ position entry, entries[position]? = some entry →
      (below entry = true ↔ position < mark)) (inside : mark ≤ entries.size) :
    partitionPoint below entries = mark :=
  bisect_eq parted (Nat.zero_le mark) inside (Nat.le_refl _)

/-- Where entries that lie below come first, they are the leading ones. -/
theorem below_iff_lt_length_takeWhile {entries : List α}
    (sorted : entries.Pairwise fun a b => below b = true → below a = true) {position : Nat}
    {entry : α} (found : entries[position]? = some entry) :
    below entry = true ↔ position < (entries.takeWhile below).length := by
  induction entries generalizing position with
  | nil => cases found
  | cons first rest ih =>
      obtain ⟨first_last, rest_sorted⟩ := List.pairwise_cons.1 sorted
      cases position with
      | zero =>
          rw [List.getElem?_cons_zero] at found
          obtain rfl := Option.some.inj found
          cases is_below : below first <;> simp [is_below]
      | succ position =>
          rw [List.getElem?_cons_succ] at found
          cases is_below : below first with
          | true =>
              rw [List.takeWhile_cons_of_pos is_below, List.length_cons, Nat.succ_lt_succ_iff]
              exact ih rest_sorted found
          | false =>
              -- nothing behind an entry that does not lie below lies below
              rw [List.takeWhile_cons_of_neg (by simp [is_below])]
              refine iff_of_false ?_ (Nat.not_lt_zero _)
              intro entry_below
              have first_below := first_last entry (List.mem_of_getElem? found) entry_below
              rw [is_below] at first_below
              cases first_below

theorem drop_partitionPoint {entries : List α}
    (sorted : entries.Pairwise fun a b => below b = true → below a = true) :
    entries.drop (partitionPoint below entries.toArray) = entries.dropWhile below := by
  have mark : partitionPoint below entries.toArray = (entries.takeWhile below).length := by
    apply partitionPoint_eq
    · intro position entry found
      rw [List.getElem?_toArray] at found
      exact below_iff_lt_length_takeWhile sorted found
    · exact (List.takeWhile_prefix below).length_le
  calc
    entries.drop (partitionPoint below entries.toArray)
      = (entries.takeWhile below ++ entries.dropWhile below).drop
          (entries.takeWhile below).length := by rw [mark, List.takeWhile_append_dropWhile]
    _ = entries.dropWhile below := List.drop_left

/-- Where the chosen entries come first, they are the leading ones. -/
theorem takeWhile_eq_filter {entries : List α}
    (sorted : entries.Pairwise fun a b => below b = true → below a = true) :
    entries.takeWhile below = entries.filter below := by
  induction entries with
  | nil => rfl
  | cons first rest ih =>
      obtain ⟨first_last, rest_sorted⟩ := List.pairwise_cons.1 sorted
      cases is_below : below first with
      | true =>
          rw [List.takeWhile_cons_of_pos is_below, List.filter_cons_of_pos is_below,
            ih rest_sorted]
      | false =>
          rw [List.takeWhile_cons_of_neg (by simp [is_below]), eq_comm, List.filter_eq_nil_iff]
          rintro entry (_ | ⟨_, mem⟩) entry_below
          · rw [is_below] at entry_below
            cases entry_below
          · rw [first_last entry mem entry_below] at is_below
            cases is_below

end Bisection

/-! ## Candidates -/

namespace NameIndex

theorem entryLe_iff {a b : UInt64 × Nat} :
    entryLe a b = true ↔ a.1.toNat < b.1.toNat ∨ a.1.toNat = b.1.toNat ∧ a.2 ≤ b.2 := by
  simp [entryLe, UInt64.lt_iff_toNat_lt, UInt64.toNat_inj]

theorem pairwise_entries (entries : List (UInt64 × Nat)) :
    (entries.mergeSort entryLe).Pairwise fun a b => a.1.toNat ≤ b.1.toNat := by
  have sorted : (entries.mergeSort entryLe).Pairwise fun a b => entryLe a b = true := by
    apply List.pairwise_mergeSort
    · intro a b c
      simp only [entryLe_iff]
      omega
    · intro a b
      simp only [Bool.or_eq_true, entryLe_iff]
      omega
  apply sorted.imp
  intro a b le
  have := entryLe_iff.1 le
  omega

/-- In ascending entries, those of one hash make up one run. -/
theorem run_eq_filter {entries : List (UInt64 × Nat)}
    (sorted : entries.Pairwise fun a b => a.1.toNat ≤ b.1.toNat) (mark : UInt64) :
    ((entries.dropWhile fun entry => decide (entry.1 < mark)).takeWhile
        fun entry => entry.1 == mark) =
      entries.filter fun entry => entry.1 == mark := by
  induction entries with
  | nil => rfl
  | cons first rest ih =>
      by_cases is_below : first.1 < mark
      · have differ : first.1 ≠ mark := by
          rintro rfl
          exact absurd is_below (UInt64.lt_irrefl _)
        rw [List.dropWhile_cons_of_pos (by simpa using is_below),
          List.filter_cons_of_neg (by simpa using differ)]
        exact ih (List.pairwise_cons.1 sorted).2
      · -- from here on no hash is below the mark, so those of the mark come first
        rw [List.dropWhile_cons_of_neg (by simpa using is_below)]
        apply takeWhile_eq_filter
        apply sorted.imp_of_mem
        intro a b a_mem _ le same
        have above : mark.toNat ≤ a.1.toNat := by
          have first_above : mark.toNat ≤ first.1.toNat := by
            simpa [UInt64.lt_iff_toNat_lt] using is_below
          rcases List.mem_cons.1 a_mem with rfl | later
          · exact first_above
          · exact Nat.le_trans first_above ((List.pairwise_cons.1 sorted).1 a later)
        simp only [beq_iff_eq, ← UInt64.toNat_inj] at same ⊢
        omega

theorem candidates_eq (hash : String → UInt64) (names : List String) (name : String) :
    (ofNames hash names).candidates name =
      (((names.map hash).zipIdx.mergeSort entryLe).filter
        fun entry => entry.1 == hash name).map (·.2) := by
  have sorted := pairwise_entries (names.map hash).zipIdx
  rw [candidates, ofNames]
  dsimp only
  rw [drop_partitionPoint, run_eq_filter sorted]
  apply sorted.imp
  intro a b le below
  simp only [decide_eq_true_eq, UInt64.lt_iff_toNat_lt] at below ⊢
  omega

/-- The candidates for a name are the positions whose names share its hash. -/
theorem mem_candidates_iff {hash : String → UInt64} {names : List String} {name : String}
    {position : Nat} :
    position ∈ (ofNames hash names).candidates name ↔
      ∃ other, names[position]? = some other ∧ hash other = hash name := by
  rw [candidates_eq, List.mem_map]
  constructor
  · rintro ⟨⟨code, place⟩, mem, rfl⟩
    obtain ⟨indexed, same⟩ := List.mem_filter.1 mem
    rw [List.mem_mergeSort, List.mk_mem_zipIdx_iff_getElem?, List.getElem?_map,
      Option.map_eq_some_iff] at indexed
    obtain ⟨other, found, rfl⟩ := indexed
    exact ⟨other, found, by simpa using same⟩
  · rintro ⟨other, found, same⟩
    refine ⟨(hash other, position), ?_, rfl⟩
    rw [List.mem_filter, List.mem_mergeSort, List.mk_mem_zipIdx_iff_getElem?, List.getElem?_map,
      found]
    exact ⟨rfl, by simpa using same⟩

end NameIndex

/-! ## Members -/

namespace CompoundLayout

namespace Formed

variable {hash : String → UInt64} {layout : CompoundLayout} {name : String} {member : Member}

/-- Names are distinct, so a search among members stops at the one that has the name. -/
theorem find?_eq_some_iff (formed : layout.Formed hash) {among : List Member}
    (declared : among ⊆ layout.members) :
    among.find? (fun member => member.name = name) = some member ↔
      member ∈ among ∧ member.name = name := by
  constructor
  · intro found
    exact ⟨List.mem_of_find?_eq_some found, by simpa using List.find?_some found⟩
  · rintro ⟨mem, rfl⟩
    cases found : among.find? fun other => other.name = member.name with
    | none =>
        have missing := List.find?_eq_none.1 found member mem
        simp at missing
    | some other =>
        have other_mem := List.mem_of_find?_eq_some found
        have same : other.name = member.name := by simpa using List.find?_some found
        rw [formed.eq_of_name (declared other_mem) (declared mem) same]

/-- The candidates for a name are the positions of members whose names share its hash. -/
theorem mem_candidates_iff (formed : layout.Formed hash) {position : Nat} :
    position ∈ layout.index.candidates name ↔
      ∃ member, layout.members[position]? = some member ∧ hash member.name = hash name := by
  rw [formed.index_eq, NameIndex.mem_candidates_iff]
  constructor
  · rintro ⟨other, found, same⟩
    rw [List.getElem?_map, Option.map_eq_some_iff] at found
    obtain ⟨member, here, rfl⟩ := found
    exact ⟨member, here, same⟩
  · rintro ⟨member, here, same⟩
    refine ⟨member.name, ?_, same⟩
    rw [List.getElem?_map, here]
    rfl

/-- The member of a name is the one that has it, whatever names share a hash. -/
theorem member?_eq_some_iff (formed : layout.Formed hash) :
    layout.member? name = some member ↔ member ∈ layout.members ∧ member.name = name := by
  have searched : ∀ found, found ∈ (layout.index.candidates name).filterMap
      (fun position => layout.members[position]?) ↔
        found ∈ layout.members ∧ hash found.name = hash name := by
    intro found
    simp only [List.mem_filterMap, formed.mem_candidates_iff]
    constructor
    · rintro ⟨position, ⟨own, here, same⟩, there⟩
      rw [here] at there
      obtain rfl := Option.some.inj there
      exact ⟨List.mem_of_getElem? here, same⟩
    · rintro ⟨mem, same⟩
      obtain ⟨position, here⟩ := List.getElem?_of_mem mem
      exact ⟨position, ⟨found, here, same⟩, here⟩
  rw [member?, formed.find?_eq_some_iff fun found mem => ((searched found).1 mem).1, searched]
  constructor
  · rintro ⟨⟨mem, -⟩, named⟩
    exact ⟨mem, named⟩
  · rintro ⟨mem, rfl⟩
    exact ⟨⟨mem, rfl⟩, rfl⟩

theorem member?_eq_none_iff (formed : layout.Formed hash) :
    layout.member? name = none ↔ ∀ member ∈ layout.members, member.name ≠ name := by
  rw [Option.eq_none_iff_forall_ne_some]
  constructor
  · intro missing member mem same
    exact missing member (formed.member?_eq_some_iff.2 ⟨mem, same⟩)
  · intro absent member found
    obtain ⟨mem, same⟩ := formed.member?_eq_some_iff.1 found
    exact absent member mem same

/-- Lookup through the index is a search through all members. -/
theorem member?_eq_find? (formed : layout.Formed hash) (name : String) :
    layout.member? name = layout.members.find? fun member => member.name = name := by
  apply Option.ext
  intro member
  rw [formed.member?_eq_some_iff, formed.find?_eq_some_iff (List.Subset.refl _)]

end Formed

/-- Lookup by hash is the search for the name through all members, whatever the hash function: a
name finds the one member that has it, and no other, when names share a hash with each other or with
a name that no member has. Every position that the index gives for a name is one of a member. -/
theorem lookup_is_search {hash : String → UInt64} {builder : LayoutBuilder}
    {layout : CompoundLayout} (built : LayoutBuilder.buildWith hash builder = .ok layout)
    (name : String) :
    layout.member? name = layout.members.find? (fun member => member.name = name) ∧
      (∀ member, layout.member? name = some member ↔
        (member ∈ layout.members ∧ member.name = name) ∧
          ∀ other ∈ layout.members, other.name = name → other = member) ∧
      (layout.member? name = none ↔ ∀ member ∈ layout.members, member.name ≠ name) ∧
      (∀ member ∈ layout.members, layout.member? name = some member ↔ name = member.name) ∧
      ∀ position, position ∈ layout.index.candidates name ↔
        ∃ member, layout.members[position]? = some member ∧ hash member.name = hash name := by
  have formed := (buildWith_eq_ok_iff.1 built).1
  refine ⟨formed.member?_eq_find? name, ?_, formed.member?_eq_none_iff, ?_,
    fun position => formed.mem_candidates_iff⟩
  · intro member
    rw [formed.member?_eq_some_iff]
    constructor
    · rintro ⟨mem, rfl⟩
      exact ⟨⟨mem, rfl⟩, fun other other_mem same => formed.eq_of_name other_mem mem same⟩
    · exact And.left
  · intro member mem
    rw [formed.member?_eq_some_iff, and_iff_right mem, eq_comm]

/-- Two members whose names share one hash with all other names. -/
def colliding : CompoundLayout where
  width := .w32
  members := [⟨"label", .vlString, 0⟩, ⟨"number", .int 2, 4⟩]
  recordSize := 6
  index := NameIndex.ofNames (fun _ => 0) ["label", "number"]

theorem formed_colliding : colliding.Formed fun _ => 0 where
  nodup := by decide
  valid := by decide
  members_eq := by decide
  recordSize_eq := by decide
  recordSize_pos := by decide
  recordSize_lt := by decide
  index_eq := rfl

theorem built_colliding :
    LayoutBuilder.buildWith (fun _ => 0)
      (.ofMembers .w32 [("label", .vlString), ("number", .int 2)]) = .ok colliding :=
  buildWith_eq_ok_iff.2 ⟨formed_colliding, rfl, rfl⟩

/-- Both members are candidates for all names, also for one that no member has. -/
theorem lookup_is_search_colliding :
    colliding.member? "number" = some ⟨"number", .int 2, 4⟩ ∧
      colliding.member? "label" = some ⟨"label", .vlString, 0⟩ ∧
      colliding.member? "note" = none ∧ 0 ∈ colliding.index.candidates "note" ∧
      1 ∈ colliding.index.candidates "note" ∧ 2 ∉ colliding.index.candidates "note" := by
  obtain ⟨-, -, absent, -, candidates⟩ := lookup_is_search built_colliding "note"
  refine ⟨(lookup_is_search built_colliding "number").1.trans (by decide),
    (lookup_is_search built_colliding "label").1.trans (by decide), absent.2 (by decide),
    (candidates 0).2 ⟨_, rfl, rfl⟩, (candidates 1).2 ⟨_, rfl, rfl⟩, ?_⟩
  rw [candidates 2]
  rintro ⟨member, found, -⟩
  cases found

end CompoundLayout

end StringSlots
