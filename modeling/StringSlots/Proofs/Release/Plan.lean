import StringSlots.Codec.Member
import StringSlots.Proofs.Release.Reference

/-!
# Plans of release calls

The configuration, the schema and the size of the buffer decide whether a release call is refused
and which slots it visits: `releasePlan` for whole buffers, `recordPlan` for single records and
`layoutPlan` for buffers of layout records. `Follows` says what a call with a plan does; each of the
three calls follows its plan.

Buffers are compared position by position (`Buffer.bytes_eq_iff`): writing a record back into its
buffer changes how the bytes are kept, not what they are.
-/

namespace StringSlots

namespace Buffer

/-- Writing a buffer over the start of another one. -/
theorem byte_overwrite_bytes (buffer front : Buffer) (place : Nat) :
    (buffer.overwrite 0 front.bytes).byte place =
      if place < front.size then front.byte place else buffer.byte place := by
  rw [byte_overwrite, if_pos (Nat.zero_le _), Nat.sub_zero, List.getD_eq_getElem?_getD]
  by_cases below : place < front.size
  · rw [if_pos below, List.getElem?_eq_getElem (by simpa using below), Option.getD_some,
      getElem_bytes]
  · rw [if_neg below, List.getElem?_eq_none (by simpa using below), Option.getD_none]

end Buffer

namespace Codec

/-- The slots that a release of a buffer of `size` bytes visits, or why the buffer is refused. -/
def releasePlan (config : CodecConfig) (schema : SlotSchema) (size : Nat) :
    Except SlotError (List Nat) :=
  if schema.width ≠ config.width then
    .error (.widthMismatch config.width.bytes schema.width.bytes)
  else if config.tail = .reject ∧ size % schema.recordSize ≠ 0 then
    .error (.partialRecord size schema.recordSize)
  else .ok (schema.visited config.tail size)

/-- The slots that a release of the first record of a buffer visits, or why it is refused. -/
def recordPlan (config : CodecConfig) (schema : SlotSchema) (size : Nat) :
    Except SlotError (List Nat) :=
  if size < schema.recordSize then .error (.partialRecord size schema.recordSize)
  else if schema.width ≠ config.width then
    .error (.widthMismatch config.width.bytes schema.width.bytes)
  else .ok schema.offsets

/-- The slots that a release of a buffer of layout records visits, or why it is refused. -/
def layoutPlan (config : CodecConfig) (layout : CompoundLayout) (size : Nat) :
    Except SlotError (List Nat) :=
  match layout.slotSchema with
  | .error error => .error error
  | .ok schema => releasePlan config schema size

/-- The slots of a plan that hold a handle, each with its handle; none when the call is refused. -/
def plannedVisits (codec : Codec) (buffer : Buffer) :
    Except SlotError (List Nat) → List (Nat × Handle)
  | .error _ => []
  | .ok positions => buffer.visits codec.config positions

/-- What a release call with a plan does. Nothing is visited, hence nothing changed, when it is
refused. -/
structure Follows (codec : Codec) (buffer : Buffer) (plan : Except SlotError (List Nat))
    (outcome : Outcome Nat) : Prop where
  result_eq : outcome.result =
    plan.bind fun _ => passResult codec.arena (codec.plannedVisits buffer plan)
  codec_eq : outcome.codec =
    { codec with arena := codec.arena.discardAll (handlesOf (codec.plannedVisits buffer plan)) }
  size_eq : outcome.buffer.size = buffer.size
  byte_eq : ∀ place, outcome.buffer.byte place =
    (ReleasePass.cleared codec.config buffer
      ((freeing codec.arena [] (codec.plannedVisits buffer plan)).map Prod.fst)).byte place

section Follows

variable {codec : Codec} {buffer : Buffer} {plan : Except SlotError (List Nat)}
  {outcome : Outcome Nat} (follows : Follows codec buffer plan outcome)
include follows

theorem Follows.config_eq : outcome.codec.config = codec.config := by
  rw [follows.codec_eq]

theorem Follows.bytes_eq :
    outcome.buffer.bytes = (ReleasePass.cleared codec.config buffer
      ((freeing codec.arena [] (codec.plannedVisits buffer plan)).map Prod.fst)).bytes := by
  rw [Buffer.bytes_eq_iff, follows.size_eq, ReleasePass.size_cleared]
  exact ⟨rfl, fun place _ => follows.byte_eq place⟩

end Follows

variable (codec : Codec) (buffer : Buffer)

theorem cleared_nil (config : CodecConfig) (buffer : Buffer) :
    ReleasePass.cleared config buffer [] = buffer := by
  cases clear : config.clearReleased with
  | true =>
      rw [ReleasePass.cleared_of_clear clear]
      rfl
  | false => rw [ReleasePass.cleared_of_keep clear]

theorem follows_refuse (error : SlotError) :
    Follows codec buffer (.error error) (codec.refuse buffer error) where
  result_eq := rfl
  codec_eq := rfl
  size_eq := rfl
  byte_eq place := by
    show buffer.byte place = (ReleasePass.cleared codec.config buffer []).byte place
    rw [cleared_nil]

theorem follows_releaseReference (positions : List Nat) (notes : List Event) (records : Nat) :
    Follows codec buffer (.ok positions)
      (codec.releaseReference buffer positions notes records) where
  result_eq := congrArg Outcome.result (releaseReference_eq codec buffer positions notes records)
  codec_eq := rfl
  size_eq := ReleasePass.size_cleared codec.config buffer _
  byte_eq _ := rfl

section Planned

variable {codec buffer} {schema : SlotSchema}

/-- A call whose plan is a failure is refused with it. -/
theorem releaseAll_of_refused {error : SlotError}
    (plan : releasePlan codec.config schema buffer.size = .error error) :
    codec.releaseAll buffer schema = codec.refuse buffer error := by
  rw [releasePlan] at plan
  rw [releaseAll_eq]
  split at plan
  · next width =>
    rw [if_pos width]
    cases plan
    rfl
  · next width =>
    rw [if_neg width]
    split at plan
    · next rejected =>
      rw [if_pos rejected]
      cases plan
      rfl
    · cases plan

/-- A call whose plan is a list of slots is a pass over these. -/
theorem releaseAll_of_planned {positions : List Nat}
    (plan : releasePlan codec.config schema buffer.size = .ok positions) :
    codec.releaseAll buffer schema =
      codec.releaseReference buffer positions
        (notesOf codec.config.tail schema.recordSize buffer.size)
        (buffer.size / schema.recordSize) := by
  rw [releasePlan] at plan
  rw [releaseAll_eq]
  split at plan
  · cases plan
  · next width =>
    rw [if_neg width]
    split at plan
    · cases plan
    · next accepted =>
      rw [if_neg accepted]
      cases plan
      rfl

theorem visited_of_releasePlan {config : CodecConfig} {size : Nat} {positions : List Nat}
    (plan : releasePlan config schema size = .ok positions) :
    schema.visited config.tail size = positions := by
  rw [releasePlan] at plan
  split at plan
  · cases plan
  · split at plan
    · cases plan
    · exact Except.ok.inj plan

end Planned

theorem releaseAll_follows (schema : SlotSchema) :
    Follows codec buffer (releasePlan codec.config schema buffer.size)
      (codec.releaseAll buffer schema) := by
  cases plan : releasePlan codec.config schema buffer.size with
  | error error =>
      rw [releaseAll_of_refused plan]
      exact follows_refuse codec buffer error
  | ok positions =>
      rw [releaseAll_of_planned plan]
      exact follows_releaseReference codec buffer positions _ _

/-- Every tail policy visits the offsets of the schema in a buffer of one record. -/
theorem releasePlan_recordSize (config : CodecConfig) (schema : SlotSchema) :
    releasePlan config schema schema.recordSize =
      if schema.width ≠ config.width then
        .error (.widthMismatch config.width.bytes schema.width.bytes)
      else .ok schema.offsets := by
  have whole : stopOf config.tail schema.recordSize schema.recordSize = schema.recordSize := by
    rw [stopOf]
    split <;> simp
  rw [releasePlan, if_neg (c := _ ∧ _) (by simp), ← positionsBelow_stopOf, whole,
    SlotSchema.positionsBelow_recordSize]

theorem releaseRecord_follows (schema : SlotSchema) :
    Follows codec buffer (recordPlan codec.config schema buffer.size)
      (codec.releaseRecord buffer schema) := by
  rw [releaseRecord, recordPlan]
  by_cases short : buffer.size < schema.recordSize
  · rw [if_pos short, if_pos short]
    exact follows_refuse codec buffer _
  · rw [if_neg short, if_neg short, ← releasePlan_recordSize]
    have whole : (buffer.take schema.recordSize).size = schema.recordSize := by
      rw [Buffer.size_take]
      omega
    -- the call is a release of the first record alone
    have inner := releaseAll_follows codec (buffer.take schema.recordSize) schema
    rw [whole] at inner
    generalize plan_eq : releasePlan codec.config schema schema.recordSize = plan at inner ⊢
    -- a shorter buffer holds the same bytes, so the same handles are met
    have visits : codec.plannedVisits (buffer.take schema.recordSize) plan =
        codec.plannedVisits buffer plan := by
      cases plan <;> rfl
    have freed_inside : ∀ visit ∈ freeing codec.arena [] (codec.plannedVisits buffer plan),
        visit.1 + codec.config.width.bytes ≤ schema.recordSize := by
      intro visit mem
      have met := (freeing_sublist codec.arena [] _).subset mem
      rw [releasePlan_recordSize] at plan_eq
      split at plan_eq
      · rw [← plan_eq] at met
        cases met
      · next width =>
        rw [← plan_eq] at met
        have offset := ((buffer.mem_visits_iff codec.config).1 met).1
        rw [← not_not.1 width]
        exact schema.inside visit.1 offset
    refine ⟨?_, ?_, ?_, fun place => ?_⟩
    · rw [← visits]
      exact inner.result_eq
    · rw [← visits]
      exact inner.codec_eq
    · exact Buffer.size_overwrite buffer 0 _
    · -- the record is written back; behind it nothing was freed, so nothing is to be cleared
      show (buffer.overwrite 0 _).byte place = _
      rw [Buffer.byte_overwrite_bytes, inner.size_eq, whole, inner.byte_eq, visits, byte_cleared,
        byte_cleared]
      by_cases below : place < schema.recordSize
      · rw [if_pos below]
        rfl
      · rw [if_neg below, if_neg]
        rintro ⟨-, visit, mem, -, within⟩
        have inside := freed_inside visit mem
        omega

theorem releaseLayout_follows (layout : CompoundLayout) :
    Follows codec buffer (layoutPlan codec.config layout buffer.size)
      (codec.releaseLayout layout buffer) := by
  rw [releaseLayout, layoutPlan]
  cases layout.slotSchema with
  | error error => exact follows_refuse codec buffer error
  | ok schema => exact releaseAll_follows codec buffer schema

/-- When no handle is met twice, the first dead handle decides the answer. -/
theorem passResult_of_distinct (arena : Arena) {visits : List (Nat × Handle)}
    (distinct : (handlesOf visits).Nodup) :
    passResult arena visits =
      match visits.find? fun visit => !arena.contains visit.2 with
      | some stray => .error (.unknownHandle stray.2.value)
      | none => .ok visits.length := by
  have unmet : ∀ handle ∈ handlesOf visits, handle ∉ ([] : List Handle) :=
    fun _ _ => List.not_mem_nil
  rw [passResult, strays_eq_filter arena distinct unmet, freeing_eq_filter arena distinct unmet,
    List.head?_filter]
  cases found : visits.find? fun visit => !arena.contains visit.2 with
  | some stray => rfl
  | none =>
      -- no handle is dead, so each visit frees its string
      have all_live : visits.filter (fun visit => arena.contains visit.2) = visits := by
        rw [List.filter_eq_self]
        intro visit mem
        simpa using List.find?_eq_none.1 found visit mem
      rw [all_live]

/-! ## Slots of plans -/

/-- The slots of a plan lie inside the buffer and share no byte. -/
theorem pairwise_of_releasePlan {config : CodecConfig} {schema : SlotSchema} {size : Nat}
    {positions : List Nat} (plan : releasePlan config schema size = .ok positions) :
    positions.Pairwise (SlotsApart config.width.bytes) ∧
      ∀ position ∈ positions, schema.IsSlot size position := by
  rw [releasePlan] at plan
  split at plan
  · cases plan
  · next width =>
    split at plan
    · cases plan
    · cases plan
      rw [← not_not.1 width]
      exact ⟨pairwise_visited schema _ _, fun position mem => isSlot_of_mem_visited mem⟩

theorem pairwise_of_recordPlan {config : CodecConfig} {schema : SlotSchema} {size : Nat}
    {positions : List Nat} (plan : recordPlan config schema size = .ok positions) :
    positions.Pairwise (SlotsApart config.width.bytes) ∧
      ∀ position ∈ positions, schema.IsSlot size position := by
  rw [recordPlan] at plan
  split at plan
  · cases plan
  · next long =>
    -- the plan is that of a buffer of one record, which is not longer than the buffer
    rw [← releasePlan_recordSize] at plan
    obtain ⟨apart, slots⟩ := pairwise_of_releasePlan plan
    exact ⟨apart, fun position mem => (slots position mem).mono (Nat.le_of_not_lt long)⟩

theorem releasePlan_error {config : CodecConfig} {schema : SlotSchema} {size : Nat}
    {error : SlotError} (plan : releasePlan config schema size = .error error) :
    ∀ raw, error ≠ .unknownHandle raw := by
  rw [releasePlan] at plan
  split at plan
  · cases plan
    exact fun _ => SlotError.noConfusion
  · split at plan
    · cases plan
      exact fun _ => SlotError.noConfusion
    · cases plan

theorem recordPlan_error {config : CodecConfig} {schema : SlotSchema} {size : Nat}
    {error : SlotError} (plan : recordPlan config schema size = .error error) :
    ∀ raw, error ≠ .unknownHandle raw := by
  rw [recordPlan] at plan
  split at plan
  · cases plan
    exact fun _ => SlotError.noConfusion
  · rw [← releasePlan_recordSize] at plan
    exact releasePlan_error plan

end Codec

end StringSlots
