import StringSlots.Managed.Bridge
import StringSlots.Proofs.Record.Schema
import StringSlots.Proofs.Release.Reference

/-!
# Calls across the boundary

A `Gate` lists what stands between a call across the boundary and the codec: absent arguments, a
negative offset, arrays that cannot be pinned. `Gate.error?` is the first of these. A call that
`Refines` the codec reports this one obstacle and changes nothing; when there is none it delivers
the outcome of the call of the codec, with one report when that failed.

All three calls refine the codec (`refines_copyText`, `refines_createText`, `refines_freeTexts`).
-/

namespace StringSlots

/-! ## Obstacles -/

/-- The absent arguments of a call, its offset when that is negative, and the arrays that it cannot
pin, each in the order in which the call looks at them. -/
structure Gate where
  absent : List String
  negative? : Option Int
  unpinnable : List String

namespace Gate

variable {σ : Type}

/-- The first obstacle as a failure. -/
def error? (gate : Gate) : Option SlotError :=
  match gate.absent, gate.negative?, gate.unpinnable with
  | argument :: _, _, _ => some (.absentArgument argument)
  | [], some offset, _ => some (.invalidOffset offset)
  | [], none, array :: _ => some (.accessFailure array)
  | [], none, [] => none

/-- The name of an argument that is absent. -/
def missing (name : String) (argument : Option σ) : List String :=
  if argument.isNone then [name] else []

/-- The name of an array that is there and cannot be pinned. -/
def blocked (name : String) (array : Option (ManagedArray σ)) : List String :=
  if array.any fun array => !array.pinnable then [name] else []

/-- An offset that is negative. -/
def below (offset : Int) : Option Int :=
  if offset < 0 then some offset else none

/-- The gate of `copyText`. -/
def copy (text : Option String) (buffer : Option (ManagedArray Buffer)) (offset : Int) : Gate where
  absent := missing "str" text ++ missing "buf" buffer
  negative? := below offset
  unpinnable := blocked "buf" buffer

/-- The gate of `createText`. -/
def create (buffer : Option (ManagedArray Buffer)) (offset : Int) : Gate where
  absent := missing "buf" buffer
  negative? := below offset
  unpinnable := blocked "buf" buffer

/-- The gate of `freeTexts`. -/
def free (buffer : Option (ManagedArray Buffer)) (indices : Option (ManagedArray (List Int))) :
    Gate where
  absent := missing "buf" buffer ++ missing "vlIndices" indices
  negative? := none
  unpinnable := blocked "vlIndices" indices ++ blocked "buf" buffer

theorem error?_eq_none_iff {gate : Gate} :
    gate.error? = none ↔
      gate.absent = [] ∧ gate.negative? = none ∧ gate.unpinnable = [] := by
  obtain ⟨absent, negative, unpinnable⟩ := gate
  cases absent <;> cases negative <;> cases unpinnable <;> simp [error?]

/-- The kind of the first obstacle. -/
theorem kind_of_error? {gate : Gate} {error : SlotError} (obstacle : gate.error? = some error) :
    (error.kind = .absentArgument ↔ gate.absent ≠ []) ∧
      (error.kind = .fatal ↔
        gate.absent = [] ∧ gate.negative? = none ∧ gate.unpinnable ≠ []) := by
  obtain ⟨absent, negative, unpinnable⟩ := gate
  cases absent with
  | cons argument others =>
      cases obstacle
      simp [SlotError.kind]
  | nil =>
      cases negative with
      | some offset =>
          cases obstacle
          simp [SlotError.kind]
      | none =>
          cases unpinnable with
          | cons array others =>
              cases obstacle
              simp [SlotError.kind]
          | nil => cases obstacle

section Arguments

variable {name : String} {array : ManagedArray σ} {offset : Int}

theorem blocked_of_pinnable (free : array.pinnable = true) : blocked name (some array) = [] := by
  rw [blocked, Option.any_some, free]
  rfl

theorem blocked_of_not_pinnable (refused : array.pinnable = false) :
    blocked name (some array) = [name] := by
  rw [blocked, Option.any_some, refused]
  rfl

theorem below_of_neg (negative : offset < 0) : below offset = some offset :=
  if_pos negative

theorem below_of_not_neg (natural : ¬offset < 0) : below offset = none :=
  if_neg natural

end Arguments

end Gate

/-! ## What a call comes to -/

namespace Crossing

variable {α β : Type}

/-- A call hands on what the codec did, with a report when that failed. -/
structure Delivers (call : BridgeCall) (onSuccess : β → α) (onFailure : α) (outcome : Outcome β)
    (crossing : Crossing α) : Prop where
  codec_eq : crossing.codec = outcome.codec
  contents_eq : crossing.buffer.map (·.contents) = some outcome.buffer
  log_eq : crossing.log = outcome.log
  success : ∀ value, outcome.result = .ok value →
    crossing.value = onSuccess value ∧ crossing.reports = []
  failure : ∀ error, outcome.result = .error error →
    error.kind = .library ∧ crossing.value = onFailure ∧
      crossing.reports = [.ofError call error]

/-- A call left the codec and the contents of its buffer as they were. -/
def Unchanged (codec : Codec) (buffer : Option (ManagedArray Buffer)) (crossing : Crossing α) :
    Prop :=
  crossing.codec = codec ∧ crossing.buffer.map (·.contents) = buffer.map (·.contents)

/-- A call reports its first obstacle and changes nothing, or hands on what the codec did. -/
structure Refines (call : BridgeCall) (gate : Gate) (codec : Codec)
    (buffer : Option (ManagedArray Buffer)) (direct : Option (Outcome β)) (onSuccess : β → α)
    (onFailure : α) (crossing : Crossing α) : Prop where
  refused : ∀ error, gate.error? = some error →
    crossing.value = onFailure ∧ crossing.reports = [.ofError call error] ∧
      crossing.Unchanged codec buffer
  passed : gate.error? = none →
    ∃ outcome, direct = some outcome ∧ crossing.Delivers call onSuccess onFailure outcome

/-- A call reports at most once, when it fails, on the channel of what made it fail. -/
structure Heard (gate : Gate) (direct : Option (Outcome β)) (onFailure : α)
    (crossing : Crossing α) : Prop where
  silent_iff : crossing.reports = [] ↔ gate.error? = none ∧
    ∃ outcome value, direct = some outcome ∧ outcome.result = .ok value
  once : crossing.reports ≠ [] →
    crossing.value = onFailure ∧ ∃ report, crossing.reports = [report]
  absent_iff : (∃ report ∈ crossing.reports, report.kind = .absentArgument) ↔ gate.absent ≠ []
  fatal_iff : (∃ report ∈ crossing.reports, report.kind = .fatal) ↔
    gate.absent = [] ∧ gate.negative? = none ∧ gate.unpinnable ≠ []

end Crossing

/-! ## Pins -/

namespace ManagedArray

variable {σ β : Type} {array : ManagedArray σ}

theorem withPin_of_pinnable (free : array.pinnable = true) (body : σ → β × σ) :
    array.withPin body =
      (some (body array.contents).1,
        { array with
          contents := (body array.contents).2
          pinned := false
          pinAttempts := array.pinAttempts + 1
          unpins := array.unpins + 1 }) := by
  rw [withPin, pin, free]
  rfl

theorem withPin_of_not_pinnable (refused : array.pinnable = false) (body : σ → β × σ) :
    array.withPin body = (none, { array with pinAttempts := array.pinAttempts + 1 }) := by
  rw [withPin, pin, refused, Bool.or_false]

end ManagedArray

/-! ## Failures of the codec -/

namespace Codec

variable {codec : Codec} {buffer : Buffer} {error : SlotError}

/-- A failed `encode` is a failure of the library and changes nothing. -/
theorem encode_error {text : String} {offset : Nat}
    (failed : (codec.encode text buffer offset).result = .error error) :
    error.kind = .library ∧ codec.encode text buffer offset = codec.refuse buffer error := by
  rw [encode_eq] at failed ⊢
  split at failed
  · next inside =>
    rw [if_pos inside]
    split at failed
    · next cause alloc =>
      cases failed
      refine ⟨?_, rfl⟩
      -- each of the three causes that an allocation can fail for is one of the library
      rw [Arena.alloc] at alloc
      split at alloc
      · cases alloc
        rfl
      · split at alloc
        · cases alloc
          rfl
        · split at alloc
          · cases alloc
            rfl
          · cases alloc
    · cases failed
  · next outside =>
    rw [if_neg outside]
    cases failed
    exact ⟨rfl, rfl⟩

theorem decode_error {offset : Nat} (failed : codec.decode buffer offset = .error error) :
    error.kind = .library := by
  rw [decode_eq] at failed
  split at failed
  · split at failed
    · cases failed
    · split at failed
      · cases failed
      · cases failed
        rfl
  · cases failed
    rfl

/-- A failed `releaseAll` is a failure of the library; unless it met an unknown handle, it changes
nothing. -/
theorem releaseAll_error {schema : SlotSchema}
    (failed : (codec.releaseAll buffer schema).result = .error error) :
    error.kind = .library ∧
      ((∃ raw, error = .unknownHandle raw) ∨
        codec.releaseAll buffer schema = codec.refuse buffer error) := by
  rw [releaseAll_eq] at failed ⊢
  split at failed
  · next width =>
    rw [if_pos width]
    cases failed
    exact ⟨rfl, Or.inr rfl⟩
  · next width =>
    rw [if_neg width]
    split at failed
    · next rejected =>
      rw [if_pos rejected]
      cases failed
      exact ⟨rfl, Or.inr rfl⟩
    · rw [releaseReference_eq] at failed
      dsimp only at failed
      -- a pass that ran can only have met an unknown handle
      rcases passResult_cases codec.arena (buffer.visits codec.config
        (schema.visited codec.config.tail buffer.size)) with
        ⟨-, -, answered⟩ | ⟨-, visit, -, -, -, -, -, answered⟩
      · rw [answered] at failed
        cases failed
      · rw [answered] at failed
        cases failed
        exact ⟨rfl, Or.inl ⟨_, rfl⟩⟩

theorem offsetOfInt_of_neg {offset : Int} (negative : offset < 0) :
    offsetOfInt offset = .error (.invalidOffset offset) :=
  if_pos negative

theorem offsetOfInt_of_not_neg {offset : Int} (natural : ¬offset < 0) :
    offsetOfInt offset = .ok offset.toNat :=
  if_neg natural

theorem kind_of_offsetsOfInts {indices : List Int}
    (failed : SlotSchema.offsetsOfInts indices = .error error) : error.kind = .library := by
  rw [SlotSchema.offsetsOfInts_eq] at failed
  split at failed
  · cases failed
    rfl
  · cases failed

theorem kind_of_ofOffsets {recordSize : Nat} {width : SlotWidth} {offsets : List Nat}
    (failed : SlotSchema.ofOffsets recordSize width offsets = .error error) :
    error.kind = .library := by
  rw [SlotSchema.ofOffsets_eq_error_iff, SlotSchema.objection?_eq_some_iff] at failed
  cases failed <;> rfl

theorem kind_of_ofIndices {recordSize : Int} {indices : List Int} {width : SlotWidth}
    (failed : SlotSchema.ofIndices recordSize indices width = .error error) :
    error.kind = .library := by
  rw [SlotSchema.ofIndices] at failed
  split at failed
  · cases failed
    rfl
  · split at failed
    · next cause negative =>
      cases failed
      exact kind_of_offsetsOfInts negative
    · exact kind_of_ofOffsets failed

theorem releaseIndexed_error {recordSize : Int} {indices : List Int}
    (failed : (codec.releaseIndexed buffer recordSize indices).result = .error error) :
    error.kind = .library ∧
      ((∃ raw, error = .unknownHandle raw) ∨
        codec.releaseIndexed buffer recordSize indices = codec.refuse buffer error) := by
  rw [releaseIndexed] at failed ⊢
  split at failed
  · next cause invalid =>
    cases failed
    exact ⟨kind_of_ofIndices invalid, Or.inr rfl⟩
  · exact releaseAll_error failed

end Codec

/-! ## The three calls -/

namespace Crossing

variable {α β : Type} {call : BridgeCall} {gate : Gate} {codec : Codec}
  {buffer after : Option (ManagedArray Buffer)} {direct : Option (Outcome β)} {onSuccess : β → α}
  {onFailure : α}

theorem delivers_ofOutcome {outcome : Outcome β} {array : ManagedArray Buffer}
    (same : array.contents = outcome.buffer)
    (library : ∀ error, outcome.result = .error error → error.kind = .library) :
    (ofOutcome call onSuccess onFailure array outcome).Delivers call onSuccess onFailure
      outcome := by
  rw [ofOutcome]
  cases result : outcome.result with
  | ok value =>
      refine ⟨rfl, congrArg some same, rfl, ?_, ?_⟩
      · intro other returned
        rw [result] at returned
        cases returned
        exact ⟨rfl, rfl⟩
      · intro error returned
        rw [result] at returned
        cases returned
  | error error =>
      refine ⟨rfl, congrArg some same, rfl, ?_, ?_⟩
      · intro value returned
        rw [result] at returned
        cases returned
      · intro other returned
        have kind := library other returned
        rw [result] at returned
        cases returned
        exact ⟨kind, rfl, rfl⟩

theorem refines_refused {error : SlotError} (obstacle : gate.error? = some error)
    (same : after.map (·.contents) = buffer.map (·.contents)) :
    (refused call onFailure codec after error).Refines call gate codec buffer direct onSuccess
      onFailure where
  refused other first := by
    rw [obstacle] at first
    cases first
    exact ⟨rfl, rfl, rfl, same⟩
  passed free := by
    rw [obstacle] at free
    cases free

theorem refines_ofOutcome {outcome : Outcome β} {array : ManagedArray Buffer}
    (free : gate.error? = none) (asked : direct = some outcome)
    (same : array.contents = outcome.buffer)
    (library : ∀ error, outcome.result = .error error → error.kind = .library) :
    (ofOutcome call onSuccess onFailure array outcome).Refines call gate codec buffer direct
      onSuccess onFailure where
  refused error obstacle := by
    rw [free] at obstacle
    cases obstacle
  passed _ := ⟨outcome, asked, delivers_ofOutcome same library⟩

namespace Refines

variable {crossing : Crossing α}
  (refines : crossing.Refines call gate codec buffer direct onSuccess onFailure)
include refines

/-- A call that refines the codec is refused, delivers a value or delivers a failure. -/
theorem cases :
    (∃ error, gate.error? = some error ∧ crossing.value = onFailure ∧
        crossing.reports = [.ofError call error] ∧ crossing.Unchanged codec buffer) ∨
      gate.error? = none ∧ ∃ outcome, direct = some outcome ∧
        crossing.codec = outcome.codec ∧
        crossing.buffer.map (·.contents) = some outcome.buffer ∧
        ((∃ value, outcome.result = .ok value ∧ crossing.value = onSuccess value ∧
            crossing.reports = []) ∨
          ∃ error, outcome.result = .error error ∧ error.kind = .library ∧
            crossing.value = onFailure ∧ crossing.reports = [.ofError call error]) := by
  cases obstacle : gate.error? with
  | some error => exact Or.inl ⟨error, rfl, refines.refused error obstacle⟩
  | none =>
      obtain ⟨outcome, asked, delivers⟩ := refines.passed obstacle
      refine Or.inr ⟨rfl, outcome, asked, delivers.codec_eq, delivers.contents_eq, ?_⟩
      cases result : outcome.result with
      | ok value => exact Or.inl ⟨value, rfl, delivers.success value result⟩
      | error error => exact Or.inr ⟨error, rfl, delivers.failure error result⟩

theorem heard : crossing.Heard gate direct onFailure := by
  rcases refines.cases with ⟨error, obstacle, value, reports, -⟩ |
    ⟨free, outcome, asked, -, -, ⟨value, result, -, reports⟩ |
      ⟨error, result, kind, value, reports⟩⟩
  · obtain ⟨absent, fatal⟩ := Gate.kind_of_error? obstacle
    refine ⟨?_, fun _ => ⟨value, _, reports⟩, ?_, ?_⟩
    · rw [reports, obstacle]
      simp
    · rw [reports, ← absent]
      simp [Report.ofError]
    · rw [reports, ← fatal]
      simp [Report.ofError]
  · obtain ⟨present, natural, pinned⟩ := Gate.error?_eq_none_iff.1 free
    refine ⟨?_, fun some_report => absurd reports some_report, ?_, ?_⟩
    · exact iff_of_true reports ⟨free, outcome, value, asked, result⟩
    · simp [reports, present]
    · simp [reports, pinned]
  · obtain ⟨present, natural, pinned⟩ := Gate.error?_eq_none_iff.1 free
    refine ⟨?_, fun _ => ⟨value, _, reports⟩, ?_, ?_⟩
    · rw [reports]
      -- the outcome of the codec is the only one, and it is a failure
      refine iff_of_false (List.cons_ne_nil _ _) ?_
      rintro ⟨-, other, stored, again, returned⟩
      rw [asked] at again
      cases again
      rw [result] at returned
      cases returned
    · simp [reports, present, Report.ofError, kind]
    · simp [reports, pinned, Report.ofError, kind]

/-- A call that fails changes nothing when the failure of the codec that it reports does not. -/
theorem unchanged (failed : crossing.reports ≠ [])
    (atomic : ∀ outcome error, direct = some outcome → outcome.result = .error error →
      crossing.reports = [.ofError call error] →
        outcome.codec = codec ∧ some outcome.buffer = buffer.map (·.contents)) :
    crossing.Unchanged codec buffer := by
  rcases refines.cases with ⟨error, -, -, -, same⟩ |
    ⟨-, outcome, asked, codec_eq, contents_eq, ⟨value, -, -, reports⟩ |
      ⟨error, result, -, -, reports⟩⟩
  · exact same
  · exact absurd reports failed
  · obtain ⟨same_codec, same_buffer⟩ := atomic outcome error asked result reports
    exact ⟨codec_eq.trans same_codec, contents_eq.trans same_buffer⟩

omit refines in
/-- The number that a call without a value answers says whether it reported. -/
theorem code_eq {crossing : Crossing Status}
    (refines : crossing.Refines call gate codec buffer direct (fun _ => .ok) .failure) :
    crossing.value.code = if crossing.reports = [] then 0 else -1 := by
  rcases refines.cases with ⟨error, -, value, reports, -⟩ |
    ⟨-, outcome, -, -, -, ⟨_, -, value, reports⟩ | ⟨error, -, -, value, reports⟩⟩
  · rw [value, reports]
    rfl
  · rw [value, reports]
    rfl
  · rw [value, reports]
    rfl

end Refines

end Crossing

namespace Codec

open Crossing

variable (codec : Codec) (text : Option String) (buffer : Option (ManagedArray Buffer))
  (offset recordSize : Int) (indices : Option (ManagedArray (List Int)))

/-- The call of the codec behind `copyText`. -/
def directCopy : Option (Outcome Handle) :=
  match text, buffer with
  | some text, some array => some (codec.encode text array.contents offset.toNat)
  | _, _ => none

/-- The call of the codec behind `createText`: to decode changes neither codec nor buffer. -/
def directCreate : Option (Outcome (Option String)) :=
  buffer.map fun array =>
    { result := codec.decode array.contents offset.toNat, codec, buffer := array.contents
      log := [] }

/-- The calls of the codec behind `freeTexts`: a schema is made of the record size and the offsets,
and if they make one, all records are released by it. -/
def directFree : Option (Outcome Nat) :=
  match buffer, indices with
  | some array, some offsets =>
      match SlotSchema.ofIndices recordSize offsets.contents codec.config.width with
      | .error error => some (codec.refuse array.contents error)
      | .ok schema => some (codec.releaseAll array.contents schema)
  | _, _ => none

theorem directFree_eq (array : ManagedArray Buffer) (offsets : ManagedArray (List Int)) :
    codec.directFree (some array) recordSize (some offsets) =
      some (codec.releaseIndexed array.contents recordSize offsets.contents) := by
  rw [directFree, releaseIndexed]
  cases SlotSchema.ofIndices recordSize offsets.contents codec.config.width <;> rfl

theorem refines_copyText :
    (codec.copyText text buffer offset).Refines .copy (.copy text buffer offset) codec buffer
      (codec.directCopy text buffer offset) (fun _ => .ok) .failure := by
  cases text with
  | none => exact refines_refused rfl rfl
  | some text =>
      cases buffer with
      | none => exact refines_refused rfl rfl
      | some array =>
          rw [copyText]
          by_cases negative : offset < 0
          · rw [offsetOfInt_of_neg negative]
            refine refines_refused ?_ rfl
            rw [Gate.copy, Gate.below_of_neg negative]
            rfl
          · rw [offsetOfInt_of_not_neg negative]
            dsimp only
            cases free : array.pinnable with
            | false =>
                rw [ManagedArray.withPin_of_not_pinnable free]
                refine refines_refused ?_ rfl
                rw [Gate.copy, Gate.below_of_not_neg negative, Gate.blocked_of_not_pinnable free]
                rfl
            | true =>
                rw [ManagedArray.withPin_of_pinnable free]
                refine refines_ofOutcome ?_ rfl rfl fun error failed => (encode_error failed).1
                rw [Gate.copy, Gate.below_of_not_neg negative, Gate.blocked_of_pinnable free]
                rfl

theorem refines_createText :
    (codec.createText buffer offset).Refines .create (.create buffer offset) codec buffer
      (codec.directCreate buffer offset) id none := by
  cases buffer with
  | none => exact refines_refused rfl rfl
  | some array =>
      rw [createText]
      by_cases negative : offset < 0
      · rw [offsetOfInt_of_neg negative]
        refine refines_refused ?_ rfl
        rw [Gate.create, Gate.below_of_neg negative]
        rfl
      · rw [offsetOfInt_of_not_neg negative]
        dsimp only
        cases free : array.pinnable with
        | false =>
            rw [ManagedArray.withPin_of_not_pinnable free]
            refine refines_refused ?_ rfl
            rw [Gate.create, Gate.below_of_not_neg negative, Gate.blocked_of_not_pinnable free]
            rfl
        | true =>
            rw [ManagedArray.withPin_of_pinnable free]
            refine refines_ofOutcome ?_ rfl rfl fun error failed => decode_error failed
            rw [Gate.create, Gate.below_of_not_neg negative, Gate.blocked_of_pinnable free]
            rfl

theorem refines_freeTexts :
    (codec.freeTexts buffer recordSize indices).1.Refines .free (.free buffer indices) codec buffer
      (codec.directFree buffer recordSize indices) (fun _ => .ok) .failure := by
  cases buffer with
  | none => exact refines_refused rfl rfl
  | some array =>
      cases indices with
      | none => exact refines_refused rfl rfl
      | some offsets =>
          rw [freeTexts]
          -- the buffer is pinned inside the pin of the offsets, so these decide first
          cases offsets_free : offsets.pinnable with
          | false =>
              rw [ManagedArray.withPin_of_not_pinnable offsets_free]
              refine refines_refused ?_ rfl
              rw [Gate.free, Gate.blocked_of_not_pinnable offsets_free]
              rfl
          | true =>
              rw [ManagedArray.withPin_of_pinnable offsets_free]
              cases free : array.pinnable with
              | false =>
                  rw [ManagedArray.withPin_of_not_pinnable free]
                  refine refines_refused ?_ rfl
                  rw [Gate.free, Gate.blocked_of_pinnable offsets_free,
                    Gate.blocked_of_not_pinnable free]
                  rfl
              | true =>
                  rw [ManagedArray.withPin_of_pinnable free]
                  refine refines_ofOutcome ?_ (codec.directFree_eq recordSize array offsets) rfl
                    fun error failed => (releaseIndexed_error failed).1
                  rw [Gate.free, Gate.blocked_of_pinnable offsets_free,
                    Gate.blocked_of_pinnable free]
                  rfl

theorem unchanged_copyText (failed : (codec.copyText text buffer offset).reports ≠ []) :
    (codec.copyText text buffer offset).Unchanged codec buffer := by
  apply (codec.refines_copyText text buffer offset).unchanged failed
  intro outcome error asked result _
  cases text with
  | none => cases asked
  | some text =>
      cases buffer with
      | none => cases asked
      | some array =>
          cases asked
          rw [(encode_error result).2]
          exact ⟨rfl, rfl⟩

/-- Fetching changes nothing, whether it fails or not. -/
theorem unchanged_createText : (codec.createText buffer offset).Unchanged codec buffer := by
  rcases (codec.refines_createText buffer offset).cases with ⟨error, -, -, -, same⟩ |
    ⟨-, outcome, asked, codec_eq, contents_eq, -⟩
  · exact same
  · obtain ⟨array, rfl, rfl⟩ := Option.map_eq_some_iff.1 asked
    exact ⟨codec_eq, contents_eq⟩

/-- A failed release changes nothing unless it met an unknown handle. -/
theorem unchanged_freeTexts (failed : (codec.freeTexts buffer recordSize indices).1.reports ≠ [])
    (known : ∀ raw, (codec.freeTexts buffer recordSize indices).1.reports ≠
      [.ofError .free (.unknownHandle raw)]) :
    (codec.freeTexts buffer recordSize indices).1.Unchanged codec buffer := by
  apply (codec.refines_freeTexts buffer recordSize indices).unchanged failed
  intro outcome error asked result reports
  cases buffer with
  | none => cases asked
  | some array =>
      cases indices with
      | none => cases asked
      | some offsets =>
          rw [directFree_eq] at asked
          cases asked
          rcases (releaseIndexed_error result).2 with ⟨raw, rfl⟩ | refused
          · exact absurd reports (known raw)
          · rw [refused]
            exact ⟨rfl, rfl⟩

/-- A release does not write the offsets that it reads. -/
theorem contents_freeTexts :
    (codec.freeTexts buffer recordSize indices).2.map (·.contents) =
      indices.map (·.contents) := by
  cases buffer with
  | none => rfl
  | some array =>
      cases indices with
      | none => rfl
      | some offsets =>
          rw [freeTexts]
          cases offsets_free : offsets.pinnable with
          | false =>
              rw [ManagedArray.withPin_of_not_pinnable offsets_free]
              rfl
          | true =>
              rw [ManagedArray.withPin_of_pinnable offsets_free]
              cases free : array.pinnable with
              | false =>
                  rw [ManagedArray.withPin_of_not_pinnable free]
                  rfl
              | true =>
                  rw [ManagedArray.withPin_of_pinnable free]
                  rfl

/-- A text is fetched as none without a report exactly when the slot holds the null marker. -/
theorem createText_eq_none_iff :
    (codec.createText buffer offset).value = none ∧ (codec.createText buffer offset).reports = [] ↔
      (Gate.create buffer offset).error? = none ∧ ∃ array, buffer = some array ∧
        offset.toNat + codec.config.width.bytes ≤ array.contents.size ∧
        array.contents.handleAt codec.config offset.toNat = none := by
  rcases (codec.refines_createText buffer offset).cases with ⟨error, obstacle, -, reports, -⟩ |
    ⟨free, outcome, asked, -, -, ⟨value, result, answered, reports⟩ |
      ⟨error, result, -, -, reports⟩⟩
  · simp [reports, obstacle]
  · obtain ⟨array, rfl, rfl⟩ := Option.map_eq_some_iff.1 asked
    have decoded : codec.decode array.contents offset.toNat = .ok value := result
    rw [answered, reports]
    simp only [id, and_true, free, true_and, Option.some.injEq, exists_eq_left',
      ← decode_eq_ok_none_iff, decoded, Except.ok.injEq]
  · obtain ⟨array, rfl, rfl⟩ := Option.map_eq_some_iff.1 asked
    have decoded : codec.decode array.contents offset.toNat = .error error := result
    rw [reports]
    simp only [Option.some.injEq, exists_eq_left', ← decode_eq_ok_none_iff, decoded,
      reduceCtorEq, and_false]

/-- The three calls across the boundary refine the calls of the codec. Each reports exactly once
when it fails and not at all when it succeeds; what is reported is the first obstacle, and without
one what failed in the codec. A failure changes nothing, except that a release which met an unknown
handle leaves what the release of the codec leaves. -/
theorem calls_refine_codec :
    (let crossing := codec.copyText text buffer offset
      let gate := Gate.copy text buffer offset
      let direct := codec.directCopy text buffer offset
      crossing.Refines .copy gate codec buffer direct (fun _ => .ok) .failure ∧
        crossing.Heard gate direct .failure ∧
        crossing.value.code = (if crossing.reports = [] then 0 else -1) ∧
        (crossing.reports ≠ [] → crossing.Unchanged codec buffer)) ∧
    (let crossing := codec.createText buffer offset
      let gate := Gate.create buffer offset
      let direct := codec.directCreate buffer offset
      crossing.Refines .create gate codec buffer direct id none ∧
        crossing.Heard gate direct none ∧
        (crossing.value = none ∧ crossing.reports = [] ↔
          gate.error? = none ∧ ∃ array, buffer = some array ∧
            offset.toNat + codec.config.width.bytes ≤ array.contents.size ∧
            array.contents.handleAt codec.config offset.toNat = none) ∧
        crossing.Unchanged codec buffer) ∧
    (let crossing := (codec.freeTexts buffer recordSize indices).1
      let gate := Gate.free buffer indices
      let direct := codec.directFree buffer recordSize indices
      crossing.Refines .free gate codec buffer direct (fun _ => .ok) .failure ∧
        crossing.Heard gate direct .failure ∧
        crossing.value.code = (if crossing.reports = [] then 0 else -1) ∧
        (crossing.reports ≠ [] →
          (∀ raw, crossing.reports ≠ [.ofError .free (.unknownHandle raw)]) →
            crossing.Unchanged codec buffer) ∧
        (codec.freeTexts buffer recordSize indices).2.map (·.contents) =
          indices.map (·.contents)) := by
  refine ⟨?_, ?_, ?_⟩
  · have refines := codec.refines_copyText text buffer offset
    exact ⟨refines, refines.heard, refines.code_eq, codec.unchanged_copyText text buffer offset⟩
  · have refines := codec.refines_createText buffer offset
    exact ⟨refines, refines.heard, codec.createText_eq_none_iff buffer offset,
      codec.unchanged_createText buffer offset⟩
  · have refines := codec.refines_freeTexts buffer recordSize indices
    exact ⟨refines, refines.heard, refines.code_eq,
      codec.unchanged_freeTexts buffer recordSize indices,
      codec.contents_freeTexts buffer recordSize indices⟩

/-- A text without a buffer, at a negative offset: the absent buffer is what is reported. -/
example :
    ((Codec.new { }).copyText (some "text") none (-1)).reports =
      [.ofError .copy (.absentArgument "buf")] := by decide +kernel

end Codec

end StringSlots
