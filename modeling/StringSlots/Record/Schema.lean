import StringSlots.Error
import StringSlots.Slot.Width

/-!
# Slot schemas

A schema says at which offsets of a record its string slots sit. The offsets keep the order in
which they were given, since release visits them in that order. Every value of `SlotSchema` is
well formed: the record size is positive, each slot lies inside the record, and no two slots share
a byte. `ofOffsets` decides this for a list of offsets, and `firstOverlap?_eq_none_iff` says why a
look at neighbours of the sorted offsets is enough.
-/

namespace StringSlots

/-- Two slots of `size` bytes at distinct places share no byte. -/
def SlotsApart (size a b : Nat) : Prop :=
  a + size ≤ b ∨ b + size ≤ a

/-- An offset that arrives as an integer; a negative one is refused. -/
def offsetOfInt (n : Int) : Except SlotError Nat :=
  if n < 0 then .error (.invalidOffset n) else .ok n.toNat

/-- The slot offsets of a record. -/
structure SlotSchema where
  recordSize : Nat
  width : SlotWidth
  offsets : List Nat
  recordSize_pos : 0 < recordSize
  inside : ∀ offset ∈ offsets, offset + width.bytes ≤ recordSize
  apart : offsets.Pairwise (SlotsApart width.bytes)

namespace SlotSchema

instance : DecidableEq SlotSchema := fun a b =>
  if same : a.recordSize = b.recordSize ∧ a.width = b.width ∧ a.offsets = b.offsets then
    isTrue (by cases a; cases b; simp_all)
  else isFalse fun eq => same (eq ▸ ⟨rfl, rfl, rfl⟩)

/-- The number of slots of a record. -/
def slotsPerRecord (schema : SlotSchema) : Nat :=
  schema.offsets.length

/-- The first two neighbours that lie closer than `size`. -/
def firstOverlap? (size : Nat) : List Nat → Option (Nat × Nat)
  | a :: b :: rest => if b - a < size then some (a, b) else firstOverlap? size (b :: rest)
  | _ => none

/-- In an ascending list, neighbours at a distance of at least `size` leave all pairs apart. -/
theorem firstOverlap?_eq_none_iff {size : Nat} {offsets : List Nat}
    (ascending : offsets.Pairwise (· ≤ ·)) (pos : 0 < size) :
    firstOverlap? size offsets = none ↔ offsets.Pairwise (SlotsApart size) := by
  induction offsets with
  | nil => simp [firstOverlap?]
  | cons a rest ih =>
      cases rest with
      | nil => simp [firstOverlap?]
      | cons b rest =>
          have tail := (List.pairwise_cons.1 ascending).2
          have below := (List.pairwise_cons.1 ascending).1
          have above_b := (List.pairwise_cons.1 tail).1
          have a_le_b : a ≤ b := below b List.mem_cons_self
          rw [firstOverlap?, List.pairwise_cons, ← ih tail]
          by_cases close : b - a < size
          · simp only [if_pos close, reduceCtorEq, false_iff]
            rintro ⟨apart, -⟩
            have := apart b List.mem_cons_self
            unfold SlotsApart at this
            omega
          · simp only [if_neg close]
            refine ⟨fun none => ⟨fun c mem => ?_, none⟩, fun both => both.2⟩
            have b_le_c : b ≤ c := by
              rcases List.mem_cons.1 mem with rfl | mem
              · exact Nat.le_refl _
              · exact above_b c mem
            unfold SlotsApart
            omega

/-- The offsets in ascending order. -/
def ascending (offsets : List Nat) : List Nat :=
  offsets.mergeSort

theorem pairwise_ascending (offsets : List Nat) : (ascending offsets).Pairwise (· ≤ ·) := by
  have sorted := @List.pairwise_mergeSort Nat (fun a b => decide (a ≤ b))
    (fun a b c => by simpa using Nat.le_trans) (fun a b => by simpa using Nat.le_total a b) offsets
  exact sorted.imp fun h => by simpa using h

theorem apart_iff (size : Nat) (pos : 0 < size) (offsets : List Nat) :
    firstOverlap? size (ascending offsets) = none ↔ offsets.Pairwise (SlotsApart size) := by
  rw [firstOverlap?_eq_none_iff (pairwise_ascending offsets) pos]
  exact (List.mergeSort_perm offsets _).pairwise_iff fun h => h.symm

/-- The schema of the given offsets. A zero record size is refused first, then the first offset
whose slot leaves the record, then the first two slots in ascending order that share a byte. -/
def ofOffsets (recordSize : Nat) (width : SlotWidth) (offsets : List Nat) :
    Except SlotError SlotSchema :=
  if pos : 0 < recordSize then
    match outside : offsets.find? fun offset => recordSize < offset + width.bytes with
    | some offset => .error (.slotOutOfBounds offset width.bytes recordSize)
    | none =>
        match overlap : firstOverlap? width.bytes (ascending offsets) with
        | some (first, second) => .error (.overlappingSlots first second)
        | none =>
            .ok
              { recordSize, width, offsets
                recordSize_pos := pos
                inside := fun offset mem => by
                  have := List.find?_eq_none.1 outside offset mem
                  simpa using this
                apart := (apart_iff width.bytes width.bytes_pos offsets).1 overlap }
  else .error (.invalidRecordSize 0)

/-- Offsets that arrive as integers, the first negative one refused. -/
def offsetsOfInts : List Int → Except SlotError (List Nat)
  | [] => .ok []
  | n :: rest =>
      match offsetOfInt n with
      | .error error => .error error
      | .ok offset =>
          match offsetsOfInts rest with
          | .error error => .error error
          | .ok offsets => .ok (offset :: offsets)

/-- The schema of a record size and offsets that arrive as integers. Negative numbers are refused,
the record size first, before anything else is looked at. -/
def ofIndices (recordSize : Int) (indices : List Int) (width : SlotWidth) :
    Except SlotError SlotSchema :=
  if recordSize < 0 then .error (.invalidRecordSize recordSize)
  else
    match offsetsOfInts indices with
    | .error error => .error error
    | .ok offsets => ofOffsets recordSize.toNat width offsets

end SlotSchema

end StringSlots
