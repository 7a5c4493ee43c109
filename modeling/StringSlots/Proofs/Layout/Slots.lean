import StringSlots.Proofs.Layout.Placement
import StringSlots.Proofs.Release.Plan

/-!
# String slots of a layout

The offsets of a layout are running sums, and those of a schema are checked for bounds and overlaps.
`CompoundLayout.slots_make_schema` says that the string members of a layout pass these checks, also
in machine words, so the schema of a layout never keeps its records from being released. What does
is listed by `Codec.ReleaseFault`; `releaseAll_eq_error_iff` says that a release fails for nothing
else.
-/

namespace StringSlots

/-! ## Failures of a release -/

namespace Codec

/-- The first visit that finds nothing to free: its handle is dead or was met before. -/
def FirstStray (arena : Arena) (visits : List (Nat × Handle)) (stray : Nat × Handle) : Prop :=
  ∃ before after, visits = before ++ stray :: after ∧ (handlesOf before).Nodup ∧
    (∀ handle ∈ handlesOf before, arena.contains handle = true) ∧
    (arena.contains stray.2 = false ∨ stray.2 ∈ handlesOf before)

/-- Why a release of a buffer of records fails: the schema has another width, the last record is cut
and the policy rejects that, or a slot holds a handle that has nothing to free. -/
inductive ReleaseFault (codec : Codec) (buffer : Buffer) (schema : SlotSchema) : SlotError → Prop
  | width (other : schema.width ≠ codec.config.width) :
      ReleaseFault codec buffer schema
        (.widthMismatch codec.config.width.bytes schema.width.bytes)
  | cut (width : schema.width = codec.config.width) (reject : codec.config.tail = .reject)
      (tail : buffer.size % schema.recordSize ≠ 0) :
      ReleaseFault codec buffer schema (.partialRecord buffer.size schema.recordSize)
  | stray {stray : Nat × Handle} (width : schema.width = codec.config.width)
      (whole : codec.config.tail = .reject → buffer.size % schema.recordSize = 0)
      (first : FirstStray codec.arena
        (buffer.visits codec.config (schema.visited codec.config.tail buffer.size)) stray) :
      ReleaseFault codec buffer schema (.unknownHandle stray.2.value)

variable {arena : Arena} {visits : List (Nat × Handle)} {codec : Codec} {buffer : Buffer}
  {schema : SlotSchema} {error : SlotError}

/-- A visit to which nothing is left to free, behind visits that all free a string, is the first one
that is remembered. The induction is on the visits before it; their handles join those seen. -/
theorem head?_strays {seen : List Handle} {before after : List (Nat × Handle)}
    {stray : Nat × Handle} (distinct : (handlesOf before).Nodup)
    (live : ∀ handle ∈ handlesOf before, arena.contains handle = true ∧ handle ∉ seen)
    (idle : arena.contains stray.2 = false ∨ stray.2 ∈ seen ∨ stray.2 ∈ handlesOf before) :
    (strays arena seen (before ++ stray :: after)).head? = some stray := by
  induction before generalizing seen with
  | nil =>
      have kept : ¬frees arena seen stray.2 = true := by
        rw [frees_iff]
        rintro ⟨found, unseen⟩
        rcases idle with dead | met | met
        · rw [dead] at found
          cases found
        · exact unseen met
        · cases met
      rw [List.nil_append, strays, if_neg kept]
      rfl
  | cons visit rest ih =>
      rw [handlesOf, List.map_cons] at distinct live idle
      obtain ⟨new, distinct⟩ := List.nodup_cons.1 distinct
      obtain ⟨here, later⟩ := List.forall_mem_cons.1 live
      rw [List.cons_append, strays, if_pos (frees_iff.2 here)]
      apply ih distinct
      · intro handle mem
        obtain ⟨found, unseen⟩ := later handle mem
        refine ⟨found, ?_⟩
        rintro (_ | ⟨_, met⟩)
        · exact new mem
        · exact unseen met
      · rcases idle with dead | met | met
        · exact Or.inl dead
        · exact Or.inr (Or.inl (List.mem_cons_of_mem _ met))
        · rcases List.mem_cons.1 met with same | met
          · exact Or.inr (Or.inl (List.mem_cons.2 (Or.inl same)))
          · exact Or.inr (Or.inr met)

theorem passResult_eq_error_iff :
    passResult arena visits = .error error ↔
      ∃ stray, FirstStray arena visits stray ∧ error = .unknownHandle stray.2.value := by
  constructor
  · intro failed
    rcases passResult_cases arena visits with
      ⟨-, -, answer⟩ | ⟨before, stray, after, split, distinct, live, idle, answer⟩
    · rw [answer] at failed
      cases failed
    · rw [answer] at failed
      exact ⟨stray, ⟨before, after, split, distinct, live, idle⟩, (Except.error.inj failed).symm⟩
  · rintro ⟨stray, ⟨before, after, rfl, distinct, live, idle⟩, rfl⟩
    have first : (strays arena [] (before ++ stray :: after)).head? = some stray := by
      apply head?_strays distinct
      · exact fun handle mem => ⟨live handle mem, List.not_mem_nil⟩
      · exact idle.imp_right Or.inr
    rw [passResult, first]

/-- A release fails for one of three reasons and names the first that applies. -/
theorem releaseAll_eq_error_iff :
    (codec.releaseAll buffer schema).result = .error error ↔
      codec.ReleaseFault buffer schema error := by
  rw [(releaseAll_follows codec buffer schema).result_eq, releasePlan]
  constructor
  · intro failed
    split at failed
    · next other =>
      cases failed
      exact .width other
    · next width =>
      split at failed
      · next rejected =>
        cases failed
        exact .cut (not_not.1 width) rejected.1 rejected.2
      · next accepted =>
        obtain ⟨stray, first, rfl⟩ := passResult_eq_error_iff.1 failed
        refine .stray (not_not.1 width) ?_ first
        intro reject
        by_contra tail
        exact accepted ⟨reject, tail⟩
  · intro fault
    cases fault with
    | width other => rw [if_pos other]; rfl
    | cut width reject tail =>
        rw [if_neg (not_not.2 width), if_pos ⟨reject, tail⟩]
        rfl
    | stray width whole first =>
        have accepted : ¬(codec.config.tail = .reject ∧ buffer.size % schema.recordSize ≠ 0) :=
          fun rejected => rejected.2 (whole rejected.1)
        rw [if_neg (not_not.2 width), if_neg accepted]
        exact passResult_eq_error_iff.2 ⟨_, first, rfl⟩

end Codec

/-! ## The schema of a layout -/

namespace CompoundLayout

variable {hash : String → UInt64} {layout : CompoundLayout}

/-- The schema that the string members of a layout make up. Its slots stand in the order of the
members, each behind the end of those before it, and machine words have no objection to them. -/
structure SlotsMake (layout : CompoundLayout) (schema : SlotSchema) : Prop where
  recordSize_eq : schema.recordSize = layout.recordSize
  width_eq : schema.width = layout.width
  offsets_eq : schema.offsets =
    (layout.members.filter fun member => member.kind = .vlString).map (·.offset)
  ascending : schema.offsets.Pairwise fun a b => a + layout.width.bytes ≤ b
  unobjected : SlotSchema.objectionInWords? (.ofNat layout.recordSize) layout.width
    (schema.offsets.map .ofNat) = none

theorem slotOffsets_eq (layout : CompoundLayout) :
    layout.slotOffsets =
      (layout.members.filter fun member => member.kind = .vlString).map (·.offset) := by
  have slots : (fun member : Member => member.kind.isStringSlot) =
      fun member => decide (member.kind = .vlString) := by
    funext member
    rw [Bool.eq_iff_iff, MemberKind.isStringSlot_iff, decide_eq_true_iff]
  rw [slotOffsets, stringMembers, slots]

namespace Formed

/-- Record size and offsets are addresses, so words hold them, and they pass the checks there too.
-/
theorem objectionInWords?_eq_none (formed : layout.Formed hash) :
    SlotSchema.objectionInWords? (.ofNat layout.recordSize) layout.width
      (layout.slotOffsets.map .ofNat) = none := by
  have size_lt := formed.recordSize_lt
  have words : (layout.slotOffsets.map UInt64.ofNat).map UInt64.toNat = layout.slotOffsets := by
    rw [List.map_map]
    refine (List.map_congr_left ?_).trans (List.map_id _)
    intro offset mem
    have inside : offset + layout.width.bytes ≤ layout.recordSize := formed.schema.inside offset mem
    exact Word.toNat_ofNat (by omega)
  rw [SlotSchema.objectionInWords?_eq, Word.toNat_ofNat size_lt, words,
    SlotSchema.objection?_eq_none_iff]
  exact formed.schema.admissible

theorem slotsMake (formed : layout.Formed hash) : layout.SlotsMake formed.schema where
  recordSize_eq := rfl
  width_eq := rfl
  offsets_eq := slotOffsets_eq layout
  ascending := formed.pairwise_slotOffsets
  unobjected := formed.objectionInWords?_eq_none

end Formed

/-- The string members of a layout make a schema, however large the layout is, and its release is
the release with that schema. So it fails for another width, for a cut record that is rejected or
for a handle that has nothing to free, and for nothing else. -/
theorem slots_make_schema {builder : LayoutBuilder}
    (built : LayoutBuilder.buildWith hash builder = .ok layout) :
    ∃ schema, layout.slotSchema = .ok schema ∧ layout.SlotsMake schema ∧
      ∀ (codec : Codec) (buffer : Buffer),
        codec.releaseLayout layout buffer = codec.releaseAll buffer schema ∧
          ∀ error, (codec.releaseLayout layout buffer).result = .error error ↔
            codec.ReleaseFault buffer schema error := by
  have formed := (buildWith_eq_ok_iff.1 built).1
  refine ⟨formed.schema, formed.slotSchema_eq, formed.slotsMake, ?_⟩
  intro codec buffer
  have release : codec.releaseLayout layout buffer = codec.releaseAll buffer formed.schema := by
    rw [Codec.releaseLayout, formed.slotSchema_eq]
  refine ⟨release, ?_⟩
  intro error
  rw [release, Codec.releaseAll_eq_error_iff]

/-- Records of `2 ^ 64 - 1` bytes with two slots at their end. -/
def brimful : CompoundLayout where
  width := .w64
  members :=
    [⟨"rest", .blob 0xffff_ffff_ffff_ffef, 0⟩, ⟨"first", .vlString, 0xffff_ffff_ffff_ffef⟩,
      ⟨"second", .vlString, 0xffff_ffff_ffff_fff7⟩]
  recordSize := 0xffff_ffff_ffff_ffff
  index := NameIndex.ofNames nameHash ["rest", "first", "second"]

theorem formed_brimful : brimful.Formed nameHash where
  nodup := by decide
  valid := by decide
  members_eq := by decide
  recordSize_eq := by decide
  recordSize_pos := by decide
  recordSize_lt := by decide
  index_eq := rfl

/-- The last slot ends with the address space. -/
theorem slots_make_schema_brimful :
    ∃ schema, brimful.slotSchema = .ok schema ∧ schema.recordSize = 0xffff_ffff_ffff_ffff ∧
      schema.offsets = [0xffff_ffff_ffff_ffef, 0xffff_ffff_ffff_fff7] ∧
      ((Codec.new { width := .w32 }).releaseLayout brimful (.filled 3 0)).result =
        .error (.widthMismatch 4 8) ∧
      ((Codec.new { tail := .reject }).releaseLayout brimful (.filled 3 0)).result =
        .error (.partialRecord 3 0xffff_ffff_ffff_ffff) := by
  have built : (LayoutBuilder.ofMembers .w64 [("rest", .blob 0xffff_ffff_ffff_ffef),
      ("first", .vlString), ("second", .vlString)]).build = .ok brimful :=
    buildWith_eq_ok_iff.2 ⟨formed_brimful, rfl, rfl⟩
  obtain ⟨schema, made, slots, releases⟩ := slots_make_schema built
  have size : schema.recordSize = 0xffff_ffff_ffff_ffff := slots.recordSize_eq
  have width : schema.width = .w64 := slots.width_eq
  refine ⟨schema, made, size, slots.offsets_eq, ?_, ?_⟩
  · rw [(releases _ _).2, show (8 : Nat) = schema.width.bytes by rw [width]; rfl]
    exact .width (by rw [width]; decide)
  · rw [(releases _ _).2, ← size]
    exact .cut width rfl (by rw [size]; decide)

end CompoundLayout

end StringSlots
