import Mathlib.Data.List.Basic
import Mathlib.Data.List.Pairwise
import StringSlots.Codec.Config
import StringSlots.Record.Positions

/-!
# Visited slots

`SlotSchema.IsSlot` says which positions of a buffer are slots: an offset of the schema after a
whole number of records, with the whole slot inside the buffer. `positionsBelow` lists exactly these
(`mem_positionsBelow_iff`), and no two of them share a byte (`pairwise_positionsBelow`).

`SlotSchema.visited` writes the order of a release pass down without a loop: the slots of the whole
records, and after them, when cut records are processed, the slots of the last record that still
fit. `positionsBelow_eq_visited` and `positionsBelow_sub_tail` tie the loop to it.
-/

namespace StringSlots

namespace SlotsApart

theorem ne {width : SlotWidth} {a b : Nat} (apart : SlotsApart width.bytes a b) : a ≠ b := by
  have width_pos := width.bytes_pos
  rcases apart with before | after
  · omega
  · omega

theorem add_left {size a b : Nat} (apart : SlotsApart size a b) (base : Nat) :
    SlotsApart size (base + a) (base + b) := by
  rcases apart with before | after
  · exact Or.inl (by omega)
  · exact Or.inr (by omega)

end SlotsApart

namespace SlotSchema

/-- The schema of records that are one slot. -/
def single (width : SlotWidth) : SlotSchema where
  recordSize := width.bytes
  width := width
  offsets := [0]
  recordSize_pos := width.bytes_pos
  inside := by simp
  apart := List.pairwise_singleton _ _

/-- The schema of records that are two slots with a byte between them. -/
def spaced (width : SlotWidth) : SlotSchema where
  recordSize := 2 * width.bytes + 1
  width := width
  offsets := [0, width.bytes + 1]
  recordSize_pos := Nat.succ_pos _
  inside := by
    intro offset mem
    rcases List.mem_pair.1 mem with rfl | rfl
    · omega
    · omega
  apart := List.pairwise_pair.2 (Or.inl (by omega))

variable (schema : SlotSchema)

/-- A position of a buffer of `size` bytes at which a slot lies. -/
def IsSlot (size position : Nat) : Prop :=
  ∃ record, ∃ offset ∈ schema.offsets,
    position = record * schema.recordSize + offset ∧ position + schema.width.bytes ≤ size

/-- The slots of the whole records of a buffer of `length` bytes, records in order and the slots of
a record in the order of the schema. -/
def wholeSlots (length : Nat) : List Nat :=
  (List.range (length / schema.recordSize)).flatMap fun record =>
    schema.offsets.map (record * schema.recordSize + ·)

/-- The slots of the bytes after the last whole record that fit into these bytes. -/
def tailSlots (length : Nat) : List Nat :=
  (schema.offsets.filter fun offset =>
    offset + schema.width.bytes ≤ length % schema.recordSize).map
      (length / schema.recordSize * schema.recordSize + ·)

/-- The slots that a release pass visits, in order. -/
def visited (policy : TailPolicy) (length : Nat) : List Nat :=
  if policy = .process then schema.wholeSlots length ++ schema.tailSlots length
  else schema.wholeSlots length

/-! ## Starts of records -/

/-- From `base` on there are `count` whole records, and one more start when bytes are left. -/
theorem recordStarts_eq (count base tail : Nat) (cut : tail < schema.recordSize) :
    schema.recordStarts (base + count * schema.recordSize + tail) base =
      (List.range count).map (base + · * schema.recordSize) ++
        if tail = 0 then [] else [base + count * schema.recordSize] := by
  have size_pos := schema.recordSize_pos
  induction count generalizing base with
  | zero =>
      -- only the bytes that are left over remain
      by_cases none_left : tail = 0
      · rw [recordStarts_of_le schema (by omega)]
        simp [none_left]
      · rw [recordStarts_of_lt schema (by omega), recordStarts_of_le schema (by omega)]
        simp [none_left]
  | succ count ih =>
      have shifted : base + (count + 1) * schema.recordSize =
          base + schema.recordSize + count * schema.recordSize := by
        rw [Nat.succ_mul]
        omega
      have starts : ∀ record,
          base + schema.recordSize + record * schema.recordSize =
            base + (record + 1) * schema.recordSize := by
        intro record
        rw [Nat.succ_mul]
        omega
      rw [shifted, recordStarts_of_lt schema (by omega), ih, List.range_succ_eq_map,
        List.map_cons, List.map_map, Nat.zero_mul, Nat.add_zero, List.cons_append]
      congr 2
      apply List.map_congr_left
      intro record _
      exact starts record

theorem mem_recordStarts_iff {stop base start : Nat} :
    start ∈ schema.recordStarts stop base ↔
      ∃ record, start = base + record * schema.recordSize ∧ start < stop := by
  have size_pos := schema.recordSize_pos
  induction base using recordStarts.induct schema stop with
  | case1 base below ih =>
      rw [recordStarts_of_lt schema below, List.mem_cons]
      constructor
      · rintro (rfl | later)
        · exact ⟨0, by omega, below⟩
        · -- counted from the next start, the record has the next number
          obtain ⟨record, rfl, inside⟩ := ih.1 later
          exact ⟨record + 1, by rw [Nat.succ_mul]; omega, inside⟩
      · rintro ⟨record, rfl, inside⟩
        cases record with
        | zero => exact Or.inl (by omega)
        | succ record => exact Or.inr (ih.2 ⟨record, by rw [Nat.succ_mul]; omega, inside⟩)
  | case2 base reached =>
      rw [recordStarts_of_le schema (by omega)]
      constructor
      · intro mem
        cases mem
      · rintro ⟨record, rfl, inside⟩
        omega

theorem pairwise_recordStarts (stop base : Nat) :
    (schema.recordStarts stop base).Pairwise (· + schema.recordSize ≤ ·) := by
  induction base using recordStarts.induct schema stop with
  | case1 base below ih =>
      rw [recordStarts_of_lt schema below]
      refine List.pairwise_cons.2 ⟨?_, ih⟩
      intro start mem
      obtain ⟨record, rfl, -⟩ := (mem_recordStarts_iff schema).1 mem
      exact Nat.le_add_right _ _
  | case2 base reached =>
      rw [recordStarts_of_le schema (by omega)]
      exact List.Pairwise.nil

/-! ## Slots -/

theorem mem_positionsBelow_iff {stop position : Nat} :
    position ∈ schema.positionsBelow stop ↔ schema.IsSlot stop position := by
  simp only [positionsBelow, List.mem_filter, List.mem_flatMap, mem_recordStarts_iff,
    slotsOfRecord, List.mem_map, decide_eq_true_eq, Nat.zero_add, IsSlot]
  constructor
  · rintro ⟨⟨start, ⟨record, rfl, -⟩, offset, mem, rfl⟩, inside⟩
    exact ⟨record, offset, mem, rfl, inside⟩
  · rintro ⟨record, offset, mem, rfl, inside⟩
    -- a record with a slot inside the buffer starts inside it
    have width_pos := schema.width.bytes_pos
    exact ⟨⟨record * schema.recordSize, ⟨record, rfl, by omega⟩, offset, mem, rfl⟩, inside⟩

/-- No two slots of a buffer share a byte. -/
theorem pairwise_positionsBelow (stop : Nat) :
    (schema.positionsBelow stop).Pairwise (SlotsApart schema.width.bytes) := by
  apply List.Pairwise.filter
  rw [List.pairwise_flatMap]
  constructor
  · -- within a record the offsets are apart
    intro start _
    rw [slotsOfRecord, List.pairwise_map]
    apply schema.apart.imp
    intro a b apart
    exact apart.add_left start
  · -- a slot of an earlier record ends before the next record starts
    apply (schema.pairwise_recordStarts stop 0).imp
    intro first second later x x_mem y y_mem
    obtain ⟨p, p_mem, rfl⟩ := List.mem_map.1 x_mem
    obtain ⟨q, q_mem, rfl⟩ := List.mem_map.1 y_mem
    have inside := schema.inside p p_mem
    exact Or.inl (by omega)

theorem IsSlot.mono {schema : SlotSchema} {size larger position : Nat}
    (slot : schema.IsSlot size position) (le : size ≤ larger) : schema.IsSlot larger position := by
  obtain ⟨record, offset, mem, place, inside⟩ := slot
  exact ⟨record, offset, mem, place, by omega⟩

theorem IsSlot.inside {schema : SlotSchema} {size position : Nat}
    (slot : schema.IsSlot size position) : position + schema.width.bytes ≤ size := by
  obtain ⟨-, -, -, -, inside⟩ := slot
  exact inside

instance (size : Nat) : Std.Symm (SlotsApart size) where
  symm _ _ apart := apart.symm

/-- Two slots of a buffer are the same or share no byte. -/
theorem IsSlot.eq_or_apart {schema : SlotSchema} {size p q : Nat} (p_slot : schema.IsSlot size p)
    (q_slot : schema.IsSlot size q) : p = q ∨ SlotsApart schema.width.bytes p q := by
  by_cases same : p = q
  · exact Or.inl same
  · exact Or.inr ((schema.pairwise_positionsBelow size).forall
      (schema.mem_positionsBelow_iff.2 p_slot) (schema.mem_positionsBelow_iff.2 q_slot) same)

/-! ## The order of a pass -/

theorem filter_slotsOfRecord_whole {stop start : Nat} (whole : start + schema.recordSize ≤ stop) :
    ((schema.slotsOfRecord start).filter fun position =>
      position + schema.width.bytes ≤ stop) = schema.slotsOfRecord start := by
  rw [List.filter_eq_self]
  intro position mem
  obtain ⟨offset, offset_mem, rfl⟩ := List.mem_map.1 mem
  have inside := schema.inside offset offset_mem
  exact decide_eq_true (by omega)

theorem filter_fits_zero :
    (schema.offsets.filter fun offset => offset + schema.width.bytes ≤ 0) = [] := by
  have width_pos := schema.width.bytes_pos
  rw [List.filter_eq_nil_iff]
  intro offset _
  simp only [decide_eq_true_eq]
  omega

/-- The slots below an end are those of the whole records and those that fit into the rest. -/
theorem positionsBelow_eq (count tail : Nat) (cut : tail < schema.recordSize) :
    schema.positionsBelow (count * schema.recordSize + tail) =
      ((List.range count).flatMap fun record =>
        schema.offsets.map (record * schema.recordSize + ·)) ++
      (schema.offsets.filter fun offset => offset + schema.width.bytes ≤ tail).map
        (count * schema.recordSize + ·) := by
  have starts := schema.recordStarts_eq count 0 tail cut
  simp only [Nat.zero_add] at starts
  rw [positionsBelow, starts, List.flatMap_append, List.filter_append, List.flatMap_map,
    List.filter_flatMap]
  congr 1
  · -- a whole record keeps all its slots
    apply List.flatMap_congr
    intro record mem
    have below : (record + 1) * schema.recordSize ≤ count * schema.recordSize :=
      Nat.mul_le_mul_right _ (List.mem_range.1 mem)
    rw [Nat.succ_mul] at below
    exact schema.filter_slotsOfRecord_whole (by omega)
  · by_cases none_left : tail = 0
    · rw [none_left, filter_fits_zero]
      rfl
    · -- the rest starts where the last whole record ends, so its slots are cut off at `tail`
      rw [if_neg none_left, List.flatMap_singleton, slotsOfRecord, List.filter_map]
      congr 1
      apply List.filter_congr
      intro offset _
      simp only [Function.comp_apply, decide_eq_decide]
      omega

/-- A pass to the end of the buffer visits the slots of whole records and of the rest. -/
theorem positionsBelow_eq_visited (length : Nat) :
    schema.positionsBelow length = schema.visited .process length := by
  have split := Nat.div_add_mod' length schema.recordSize
  have slots := schema.positionsBelow_eq (length / schema.recordSize)
    (length % schema.recordSize) (Nat.mod_lt _ schema.recordSize_pos)
  rw [split] at slots
  exact slots

/-- A pass that stops after the last whole record visits the slots of whole records. -/
theorem positionsBelow_sub_tail (length : Nat) :
    schema.positionsBelow (length - length % schema.recordSize) = schema.wholeSlots length := by
  have split := Nat.div_add_mod' length schema.recordSize
  have slots := schema.positionsBelow_eq (length / schema.recordSize) 0 schema.recordSize_pos
  rw [filter_fits_zero, List.map_nil, List.append_nil, Nat.add_zero] at slots
  rw [show length - length % schema.recordSize =
    length / schema.recordSize * schema.recordSize by omega]
  exact slots

/-- A pass visits the slots of whole records, and the others when cut records are processed. -/
theorem mem_visited_iff {policy : TailPolicy} {length position : Nat} :
    position ∈ schema.visited policy length ↔
      ∃ record, ∃ offset ∈ schema.offsets,
        position = record * schema.recordSize + offset ∧
          position + schema.width.bytes ≤ length ∧
            (policy = .process ∨ record < length / schema.recordSize) := by
  by_cases process : policy = .process
  · subst process
    rw [← positionsBelow_eq_visited, mem_positionsBelow_iff, IsSlot]
    simp
  · rw [visited, if_neg process, wholeSlots]
    simp only [List.mem_flatMap, List.mem_range, List.mem_map, process, false_or]
    constructor
    · rintro ⟨record, whole, offset, mem, rfl⟩
      -- the slot ends before its record does
      have inside := schema.inside offset mem
      have record_end := (Nat.le_div_iff_mul_le schema.recordSize_pos).1 whole
      rw [Nat.succ_mul] at record_end
      exact ⟨record, offset, mem, rfl, by omega, whole⟩
    · rintro ⟨record, offset, mem, rfl, -, whole⟩
      exact ⟨record, whole, offset, mem, rfl⟩

/-- The slots of a single record are the offsets of the schema. -/
theorem positionsBelow_recordSize : schema.positionsBelow schema.recordSize = schema.offsets := by
  have slots := schema.positionsBelow_sub_tail schema.recordSize
  rw [Nat.mod_self, Nat.sub_zero, wholeSlots, Nat.div_self schema.recordSize_pos] at slots
  simpa using slots

end SlotSchema

end StringSlots
