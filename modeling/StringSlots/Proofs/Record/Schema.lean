import Mathlib.Data.Nat.Dist
import StringSlots.Proofs.Record.Words
import StringSlots.Record.Schema

/-!
# Accepted and refused slots

`SlotSchema.Admissible` says which offsets make up a schema, and `SlotSchema.Fault` what is wrong
with all others: the size of the record, the first offset in the order of the list whose slot leaves
the record, or the least two offsets whose slots share a byte. Only neighbours of the sorted offsets
are compared, and `firstOverlap?_eq_some_iff` says that the first two that are too close are the
least two of all. `objectionInWords?` decides the same with checked sums and wrapping differences of
machine words. `slots_admitted_exactly` puts these together, also for offsets that arrive as
integers.
-/

namespace StringSlots

namespace SlotSchema

variable {recordSize size a b : Nat} {width : SlotWidth} {offsets : List Nat} {error : SlotError}
  {schema : SlotSchema}

/-- Two numbers that stand at different places of a list. -/
def AtTwoPlaces (offsets : List Nat) (a b : Nat) : Prop :=
  ∃ i j : Nat, i ≠ j ∧ offsets[i]? = some a ∧ offsets[j]? = some b

/-- The offsets that make up a schema: all slots lie inside the record, and any two of them are at
least a slot apart. -/
structure Admissible (recordSize : Nat) (width : SlotWidth) (offsets : List Nat) : Prop where
  pos : 0 < recordSize
  inside : ∀ offset ∈ offsets, offset + width.bytes ≤ recordSize
  distance : ∀ a b, AtTwoPlaces offsets a b → width.bytes ≤ a.dist b

/-- Two of the offsets, the lower one first, whose slots share a byte. -/
structure Overlap (size : Nat) (offsets : List Nat) (first second : Nat) : Prop where
  places : AtTwoPlaces offsets first second
  ordered : first ≤ second
  close : second < first + size

/-- The overlap with the lowest first offset, and with the lowest second one beside that. -/
structure LeastOverlap (size : Nat) (offsets : List Nat) (first second : Nat) : Prop where
  overlap : Overlap size offsets first second
  least : ∀ a b, Overlap size offsets a b → first < a ∨ first = a ∧ second ≤ b

/-- What is wrong with offsets that are refused. The size of the record goes before the bounds of
the slots, and these before overlaps. -/
inductive Fault (recordSize : Nat) (width : SlotWidth) (offsets : List Nat) : SlotError → Prop
  | size (zero : recordSize = 0) : Fault recordSize width offsets (.invalidRecordSize 0)
  | bounds {front back : List Nat} {offset : Nat} (pos : 0 < recordSize)
      (split : offsets = front ++ offset :: back)
      (inside : ∀ earlier ∈ front, earlier + width.bytes ≤ recordSize)
      (outside : recordSize < offset + width.bytes) :
      Fault recordSize width offsets (.slotOutOfBounds offset width.bytes recordSize)
  | overlap {first second : Nat} (pos : 0 < recordSize)
      (inside : ∀ offset ∈ offsets, offset + width.bytes ≤ recordSize)
      (least : LeastOverlap width.bytes offsets first second) :
      Fault recordSize width offsets (.overlappingSlots first second)

/-! ## Two places of a list -/

theorem not_atTwoPlaces_nil : ¬AtTwoPlaces [] a b := by
  rintro ⟨i, j, -, found, -⟩
  simp at found

theorem atTwoPlaces_cons_iff {offset : Nat} :
    AtTwoPlaces (offset :: offsets) a b ↔
      a = offset ∧ b ∈ offsets ∨ b = offset ∧ a ∈ offsets ∨ AtTwoPlaces offsets a b := by
  constructor
  · rintro ⟨i, j, differ, a_at, b_at⟩
    -- at most one of the two places is the first
    cases i with
    | zero =>
        cases j with
        | zero => exact absurd rfl differ
        | succ j =>
            rw [List.getElem?_cons_succ] at b_at
            exact Or.inl ⟨by simpa using a_at.symm, List.mem_of_getElem? b_at⟩
    | succ i =>
        rw [List.getElem?_cons_succ] at a_at
        cases j with
        | zero => exact Or.inr (Or.inl ⟨by simpa using b_at.symm, List.mem_of_getElem? a_at⟩)
        | succ j =>
            rw [List.getElem?_cons_succ] at b_at
            exact Or.inr (Or.inr ⟨i, j, by omega, a_at, b_at⟩)
  · rintro (⟨rfl, mem⟩ | ⟨rfl, mem⟩ | ⟨i, j, differ, a_at, b_at⟩)
    · obtain ⟨j, found⟩ := List.getElem?_of_mem mem
      exact ⟨0, j + 1, by omega, rfl, found⟩
    · obtain ⟨i, found⟩ := List.getElem?_of_mem mem
      exact ⟨i + 1, 0, by omega, found, rfl⟩
    · exact ⟨i + 1, j + 1, by omega, a_at, b_at⟩

theorem AtTwoPlaces.mem (places : AtTwoPlaces offsets a b) : a ∈ offsets ∧ b ∈ offsets := by
  obtain ⟨i, j, -, a_at, b_at⟩ := places
  exact ⟨List.mem_of_getElem? a_at, List.mem_of_getElem? b_at⟩

/-- The order of a list makes no difference to what stands at two of its places. -/
theorem atTwoPlaces_perm {other : List Nat} (perm : offsets.Perm other) :
    AtTwoPlaces offsets a b ↔ AtTwoPlaces other a b := by
  induction perm with
  | nil => rfl
  | cons offset perm ih =>
      rw [atTwoPlaces_cons_iff, atTwoPlaces_cons_iff, ih, perm.mem_iff, perm.mem_iff]
  | swap first second rest =>
      simp only [atTwoPlaces_cons_iff, List.mem_cons]
      tauto
  | trans _ _ front_ih back_ih => exact front_ih.trans back_ih

theorem pairwise_iff_atTwoPlaces {R : Nat → Nat → Prop} (symm : ∀ a b, R a b → R b a) :
    offsets.Pairwise R ↔ ∀ a b, AtTwoPlaces offsets a b → R a b := by
  induction offsets with
  | nil =>
      refine iff_of_true List.Pairwise.nil ?_
      intro a b places
      exact absurd places not_atTwoPlaces_nil
  | cons offset rest ih =>
      rw [List.pairwise_cons, ih]
      constructor
      · rintro ⟨first, later⟩ a b places
        rcases atTwoPlaces_cons_iff.1 places with ⟨rfl, mem⟩ | ⟨rfl, mem⟩ | places
        · exact first b mem
        · exact symm b a (first a mem)
        · exact later a b places
      · intro all
        constructor
        · intro b mem
          exact all offset b (atTwoPlaces_cons_iff.2 (Or.inl ⟨rfl, mem⟩))
        · intro a b places
          exact all a b (atTwoPlaces_cons_iff.2 (Or.inr (Or.inr places)))

theorem slotsApart_iff : SlotsApart size a b ↔ size ≤ a.dist b := by
  unfold SlotsApart Nat.dist
  omega

/-! ## Overlaps -/

/-- Offsets leave all slots apart when there is no overlap. -/
theorem distance_iff :
    (∀ a b, AtTwoPlaces offsets a b → size ≤ a.dist b) ↔ offsets.Pairwise (SlotsApart size) := by
  have symm : ∀ a b, SlotsApart size a b → SlotsApart size b a := fun _ _ apart => apart.symm
  rw [pairwise_iff_atTwoPlaces symm]
  simp only [slotsApart_iff]

/-- Of two least overlaps neither is below the other. -/
theorem LeastOverlap.unique {first second : Nat} (least : LeastOverlap size offsets a b)
    (other : LeastOverlap size offsets first second) : a = first ∧ b = second := by
  have below := least.least first second other.overlap
  have above := other.least a b least.overlap
  omega

/-- Neighbours of an ascending list that are the first ones too close to each other are the least
overlap: what stands before them is too far from all that follows. -/
theorem leastOverlap_of_firstOverlap? (ascending : offsets.Pairwise (· ≤ ·)) (pos : 0 < size)
    {first second : Nat} (found : firstOverlap? size offsets = some (first, second)) :
    LeastOverlap size offsets first second := by
  induction offsets with
  | nil => cases found
  | cons x rest ih =>
      cases rest with
      | nil => cases found
      | cons y rest =>
          obtain ⟨x_below, tail⟩ := List.pairwise_cons.1 ascending
          obtain ⟨y_below, -⟩ := List.pairwise_cons.1 tail
          have x_le_y : x ≤ y := x_below y List.mem_cons_self
          have y_le : ∀ offset ∈ y :: rest, y ≤ offset := by
            rintro offset (_ | ⟨_, mem⟩)
            · exact Nat.le_refl y
            · exact y_below offset mem
          rw [firstOverlap?] at found
          split at found
          · next close =>
            cases found
            refine ⟨⟨⟨0, 1, by decide, rfl, rfl⟩, x_le_y, by omega⟩, ?_⟩
            rintro a b ⟨places, ordered, -⟩
            -- one of the two stands behind the first place, so it is not below `y`
            rcases atTwoPlaces_cons_iff.1 places with ⟨rfl, mem⟩ | ⟨rfl, mem⟩ | places
            · have := y_le b mem
              omega
            · have := y_le a mem
              omega
            · have := y_le a places.mem.1
              have := y_le b places.mem.2
              omega
          · next far =>
            obtain ⟨⟨places, ordered, near⟩, least⟩ := ih tail found
            refine ⟨⟨atTwoPlaces_cons_iff.2 (Or.inr (Or.inr places)), ordered, near⟩, ?_⟩
            rintro a b ⟨places, ordered, close⟩
            -- `x` is in no overlap, since all others are at least as far from it as `y`
            rcases atTwoPlaces_cons_iff.1 places with ⟨rfl, mem⟩ | ⟨rfl, mem⟩ | places
            · have := y_le b mem
              omega
            · have := y_le a mem
              omega
            · exact least a b ⟨places, ordered, close⟩

/-- The order of the offsets makes no difference to their least overlap. -/
theorem leastOverlap_perm {other : List Nat} (perm : offsets.Perm other) :
    LeastOverlap size offsets a b ↔ LeastOverlap size other a b := by
  have overlaps : ∀ a b, Overlap size offsets a b ↔ Overlap size other a b := by
    intro a b
    constructor
    · rintro ⟨places, ordered, close⟩
      exact ⟨(atTwoPlaces_perm perm).1 places, ordered, close⟩
    · rintro ⟨places, ordered, close⟩
      exact ⟨(atTwoPlaces_perm perm).2 places, ordered, close⟩
  constructor
  · rintro ⟨overlap, least⟩
    exact ⟨(overlaps a b).1 overlap, fun c d other => least c d ((overlaps c d).2 other)⟩
  · rintro ⟨overlap, least⟩
    exact ⟨(overlaps a b).2 overlap, fun c d other => least c d ((overlaps c d).1 other)⟩

/-- A look at neighbours of the sorted offsets finds the least overlap of all. -/
theorem firstOverlap?_eq_some_iff (pos : 0 < size) {first second : Nat} :
    firstOverlap? size (ascending offsets) = some (first, second) ↔
      LeastOverlap size offsets first second := by
  have found : ∀ a b, firstOverlap? size (ascending offsets) = some (a, b) →
      LeastOverlap size offsets a b := by
    intro a b found
    rw [← leastOverlap_perm (List.mergeSort_perm offsets _)]
    exact leastOverlap_of_firstOverlap? (pairwise_ascending offsets) pos found
  constructor
  · exact found first second
  · intro least
    cases neighbours : firstOverlap? size (ascending offsets) with
    | none =>
        -- without a pair of close neighbours the offsets of the overlap would be apart
        have apart := distance_iff.2 ((apart_iff size pos offsets).1 neighbours)
        have far := apart first second least.overlap.places
        have close := least.overlap.close
        have ordered := least.overlap.ordered
        unfold Nat.dist at far
        omega
    | some pair =>
        obtain ⟨rfl, rfl⟩ := (found pair.1 pair.2 neighbours).unique least
        rfl

/-! ## The schema of offsets -/

/-- Why offsets are refused. -/
def objection? (recordSize : Nat) (width : SlotWidth) (offsets : List Nat) : Option SlotError :=
  if recordSize = 0 then some (.invalidRecordSize 0)
  else
    match offsets.find? fun offset => recordSize < offset + width.bytes with
    | some offset => some (.slotOutOfBounds offset width.bytes recordSize)
    | none =>
        (firstOverlap? width.bytes (ascending offsets)).map fun pair =>
          .overlappingSlots pair.1 pair.2

theorem find?_outside_eq_none_iff :
    offsets.find? (fun offset => decide (recordSize < offset + width.bytes)) = none ↔
      ∀ offset ∈ offsets, offset + width.bytes ≤ recordSize := by
  simp [List.find?_eq_none]

theorem objection?_eq_none_iff :
    objection? recordSize width offsets = none ↔ Admissible recordSize width offsets := by
  have apart_iff := (apart_iff width.bytes width.bytes_pos offsets).trans distance_iff.symm
  rw [objection?]
  constructor
  · intro accepted
    split at accepted
    · cases accepted
    · next occupied =>
      split at accepted
      · cases accepted
      · next inside =>
        rw [Option.map_eq_none_iff] at accepted
        exact ⟨Nat.pos_of_ne_zero occupied, find?_outside_eq_none_iff.1 inside,
          apart_iff.1 accepted⟩
  · rintro ⟨pos, inside, distance⟩
    rw [if_neg (Nat.ne_of_gt pos), find?_outside_eq_none_iff.2 inside]
    exact Option.map_eq_none_iff.2 (apart_iff.2 distance)

/-- The objection to offsets is the one thing that is wrong with them. -/
theorem objection?_eq_some_iff :
    objection? recordSize width offsets = some error ↔ Fault recordSize width offsets error := by
  rw [objection?]
  constructor
  · intro refused
    split at refused
    · next zero =>
      cases refused
      exact .size zero
    · next occupied =>
      have pos := Nat.pos_of_ne_zero occupied
      split at refused
      · next offset found =>
        cases refused
        obtain ⟨outside, front, back, split, clean⟩ := List.find?_eq_some_iff_append.1 found
        exact .bounds pos split (by simpa using clean) (by simpa using outside)
      · next inside =>
        obtain ⟨⟨first, second⟩, found, rfl⟩ := Option.map_eq_some_iff.1 refused
        exact .overlap pos (find?_outside_eq_none_iff.1 inside)
          ((firstOverlap?_eq_some_iff width.bytes_pos).1 found)
  · intro fault
    cases fault with
    | size zero => exact if_pos zero
    | @bounds front back offset pos split inside outside =>
        have found : offsets.find? (fun offset => decide (recordSize < offset + width.bytes)) =
            some offset := by
          rw [List.find?_eq_some_iff_append]
          exact ⟨by simpa using outside, front, back, split, by simpa using inside⟩
        rw [if_neg (Nat.ne_of_gt pos), found]
    | overlap pos inside least =>
        rw [if_neg (Nat.ne_of_gt pos), find?_outside_eq_none_iff.2 inside,
          (firstOverlap?_eq_some_iff width.bytes_pos).2 least]
        rfl

theorem ofOffsets_eq_error_iff :
    ofOffsets recordSize width offsets = .error error ↔
      objection? recordSize width offsets = some error := by
  rw [ofOffsets, objection?]
  split
  · next pos =>
    rw [if_neg (Nat.ne_of_gt pos)]
    split
    · next offset outside => simp only [outside, Except.error.injEq, Option.some.injEq]
    · next inside =>
      split
      · next first second overlap =>
        simp only [inside, overlap, Option.map_some, Except.error.injEq, Option.some.injEq]
      · next apart => simp only [inside, apart, Option.map_none, reduceCtorEq]
  · next zero =>
    rw [if_pos (Nat.eq_zero_of_not_pos zero), Except.error.injEq, Option.some.injEq]

theorem parts_of_ofOffsets (accepted : ofOffsets recordSize width offsets = .ok schema) :
    schema.recordSize = recordSize ∧ schema.width = width ∧ schema.offsets = offsets := by
  rw [ofOffsets] at accepted
  split at accepted
  · split at accepted
    · cases accepted
    · split at accepted
      · cases accepted
      · cases accepted
        exact ⟨rfl, rfl, rfl⟩
  · cases accepted

theorem exists_ofOffsets_iff :
    (∃ schema, ofOffsets recordSize width offsets = .ok schema) ↔
      Admissible recordSize width offsets := by
  rw [← objection?_eq_none_iff]
  constructor
  · rintro ⟨schema, accepted⟩
    cases objection : objection? recordSize width offsets with
    | none => rfl
    | some error =>
        rw [ofOffsets_eq_error_iff.2 objection] at accepted
        cases accepted
  · intro accepted
    cases answer : ofOffsets recordSize width offsets with
    | ok schema => exact ⟨schema, rfl⟩
    | error error =>
        rw [ofOffsets_eq_error_iff.1 answer] at accepted
        cases accepted

theorem admissible (schema : SlotSchema) :
    Admissible schema.recordSize schema.width schema.offsets where
  pos := schema.recordSize_pos
  inside := schema.inside
  distance := distance_iff.2 schema.apart

/-- Every schema is the one that is made of its parts. -/
theorem ofOffsets_eq (schema : SlotSchema) :
    ofOffsets schema.recordSize schema.width schema.offsets = .ok schema := by
  obtain ⟨made, accepted⟩ := exists_ofOffsets_iff.2 schema.admissible
  obtain ⟨size, width, offsets⟩ := parts_of_ofOffsets accepted
  rw [accepted]
  -- schemas of the same parts are the same
  cases made
  cases schema
  cases size
  cases width
  cases offsets
  rfl

/-! ## Machine words -/

/-- The first two neighbours that lie closer than a slot; the difference is that of machine words,
which wraps around below zero. -/
def firstOverlapInWords? (width : SlotWidth) : List UInt64 → Option (UInt64 × UInt64)
  | a :: b :: rest =>
      if b - a < .ofNat width.bytes then some (a, b) else firstOverlapInWords? width (b :: rest)
  | _ => none

/-- Why offsets are refused, decided in machine words. -/
def objectionInWords? (recordSize : UInt64) (width : SlotWidth) (offsets : List UInt64) :
    Option SlotError :=
  if recordSize = 0 then some (.invalidRecordSize 0)
  else
    match offsets.find? fun offset => !width.fitsWords offset recordSize with
    | some offset => some (.slotOutOfBounds offset.toNat width.bytes recordSize.toNat)
    | none =>
        (firstOverlapInWords? width offsets.mergeSort).map fun pair =>
          .overlappingSlots pair.1.toNat pair.2.toNat

/-- No difference of neighbours wraps around in an ascending list. -/
theorem map_firstOverlapInWords? (width : SlotWidth) {words : List UInt64}
    (ascending : words.Pairwise (· ≤ ·)) :
    (firstOverlapInWords? width words).map (Prod.map UInt64.toNat UInt64.toNat) =
      firstOverlap? width.bytes (words.map UInt64.toNat) := by
  induction words with
  | nil => rfl
  | cons x rest ih =>
      cases rest with
      | nil => rfl
      | cons y rest =>
          obtain ⟨below, tail⟩ := List.pairwise_cons.1 ascending
          have close_iff : y - x < .ofNat width.bytes ↔ y.toNat - x.toNat < width.bytes := by
            rw [UInt64.lt_iff_toNat_lt, width.toNat_ofNat_bytes,
              UInt64.toNat_sub_of_le y x (below y List.mem_cons_self)]
          rw [firstOverlapInWords?, List.map_cons, List.map_cons, firstOverlap?]
          by_cases close : y - x < .ofNat width.bytes
          · rw [if_pos close, if_pos (close_iff.1 close)]
            rfl
          · rw [if_neg close, if_neg (close_iff.not.1 close), ih tail]
            rfl

/-- Machine words object to the same offsets for the same reason. -/
theorem objectionInWords?_eq (recordSize : UInt64) (width : SlotWidth) (offsets : List UInt64) :
    objectionInWords? recordSize width offsets =
      objection? recordSize.toNat width (offsets.map UInt64.toNat) := by
  have outside_eq : (fun offset : UInt64 => !width.fitsWords offset recordSize) =
      (fun offset => decide (recordSize.toNat < offset + width.bytes)) ∘ UInt64.toNat := by
    funext offset
    rw [Bool.eq_iff_iff, Bool.not_eq_true', ← Bool.not_eq_true, SlotWidth.fitsWords_iff]
    simp
  have sorted : offsets.mergeSort.map UInt64.toNat = ascending (offsets.map UInt64.toNat) := by
    apply List.map_mergeSort
    intro a _ b _
    simp only [UInt64.le_iff_toNat_le]
  have ordered : offsets.mergeSort.Pairwise (· ≤ ·) := by
    have numbers := pairwise_ascending (offsets.map UInt64.toNat)
    rw [← sorted, List.pairwise_map] at numbers
    exact numbers.imp UInt64.le_iff_toNat_le.2
  have neighbours := map_firstOverlapInWords? width ordered
  rw [sorted] at neighbours
  rw [objectionInWords?, objection?, outside_eq, List.find?_map, ← neighbours, Option.map_map]
  by_cases zero : recordSize = 0
  · rw [if_pos zero, if_pos (by rw [zero]; rfl)]
  · have occupied : recordSize.toNat ≠ 0 := by
      intro empty
      exact zero (UInt64.toNat_inj.1 empty)
    rw [if_neg zero, if_neg occupied]
    cases offsets.find? ((fun offset => decide (recordSize.toNat < offset + width.bytes)) ∘
      UInt64.toNat) <;> rfl

/-! ## Integers -/

/-- The first negative number is refused; otherwise the numbers stay what they are. -/
theorem offsetsOfInts_eq (indices : List Int) :
    offsetsOfInts indices =
      match indices.find? (· < 0) with
      | some index => .error (.invalidOffset index)
      | none => .ok (indices.map Int.toNat) := by
  induction indices with
  | nil => rfl
  | cons index rest ih =>
      rw [offsetsOfInts, offsetOfInt]
      by_cases negative : index < 0
      · rw [if_pos negative, List.find?_cons_of_pos (by simpa using negative)]
      · rw [if_neg negative, List.find?_cons_of_neg (by simpa using negative), ih]
        cases rest.find? (· < 0) <;> rfl

/-- Offsets make up a schema exactly when they are admissible; the schema keeps them in their order,
and all other offsets are refused for what is wrong with them. Sums and differences of machine words
come to the same answer. Of integers the record size and then the first negative offset is refused
before anything else; numbers that are not negative are treated as such. -/
theorem slots_admitted_exactly (width : SlotWidth) :
    (∀ recordSize offsets,
      ((∃ schema, ofOffsets recordSize width offsets = .ok schema) ↔
          Admissible recordSize width offsets) ∧
        (∀ schema, ofOffsets recordSize width offsets = .ok schema →
          schema.recordSize = recordSize ∧ schema.width = width ∧ schema.offsets = offsets) ∧
        ∀ error, ofOffsets recordSize width offsets = .error error ↔
          Fault recordSize width offsets error) ∧
      (∀ (recordSize : UInt64) (offsets : List UInt64) (error : SlotError),
        objectionInWords? recordSize width offsets = some error ↔
          ofOffsets recordSize.toNat width (offsets.map UInt64.toNat) = .error error) ∧
      ∀ (recordSize : Int) (indices : List Int),
        ofIndices recordSize indices width =
          if recordSize < 0 then .error (.invalidRecordSize recordSize)
          else
            match indices.find? (· < 0) with
            | some index => .error (.invalidOffset index)
            | none => ofOffsets recordSize.toNat width (indices.map Int.toNat) := by
  refine ⟨?_, ?_, ?_⟩
  · intro recordSize offsets
    refine ⟨exists_ofOffsets_iff, fun schema accepted => parts_of_ofOffsets accepted, ?_⟩
    intro error
    rw [ofOffsets_eq_error_iff, objection?_eq_some_iff]
  · intro recordSize offsets error
    rw [objectionInWords?_eq, ofOffsets_eq_error_iff]
  · intro recordSize indices
    rw [ofIndices, offsetsOfInts_eq]
    cases indices.find? (· < 0) <;> rfl

-- the slot at 3 stands twice, which goes before its overlap with that at 9
example : ofOffsets 25 .w64 [16, 17, 3, 9, 3] = .error (.overlappingSlots 3 3) :=
  ofOffsets_eq_error_iff.2 (by cbv)

end SlotSchema

end StringSlots
