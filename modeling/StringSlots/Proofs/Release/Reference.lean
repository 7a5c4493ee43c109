import StringSlots.Codec.Release
import StringSlots.Proofs.Codec.Access
import StringSlots.Proofs.Record.Visited
import StringSlots.Proofs.Release.Visits

/-!
# Release against the state before it

The release loop reads from a buffer that it is clearing and frees from an arena that it is
shrinking. `Codec.releaseReference` computes the outcome from the buffer and the arena before the
pass, and `releaseAll_eq` says that the loop comes to the same. It rests on the slots of a schema
sharing no byte: a slot that is cleared is none of those still to be read (`visitAll_eq`).

`releaseAll_meetsReference` spells the reference out: which handles are freed, what is answered,
what is logged and which bytes change.
-/

namespace StringSlots

/-! ## The loop -/

namespace ReleasePass

variable {config : CodecConfig} {pass : ReleasePass} {position : Nat}

theorem visit_of_null (inside : position + config.width.bytes ≤ pass.buffer.size)
    (null : pass.buffer.handleAt config position = none) :
    visit config pass position = .ok pass := by
  have read := RecordView.readHandle_eq pass.buffer config position
  rw [if_pos inside, null] at read
  simp only [visit, read]

theorem visit_of_dead (inside : position + config.width.bytes ≤ pass.buffer.size)
    {handle : Handle} (held : pass.buffer.handleAt config position = some handle)
    (dead : pass.arena.contains handle = false) :
    visit config pass position =
      .ok { pass with
        firstUnknown := pass.firstUnknown.or (some handle)
        log := pass.log ++ [.unknownHandle handle position] } := by
  have read := RecordView.readHandle_eq pass.buffer config position
  rw [if_pos inside, held] at read
  simp only [visit, read, Arena.free?_eq_none_iff.2 dead]

/-- The buffer after slots were freed. -/
def cleared (config : CodecConfig) (buffer : Buffer) (positions : List Nat) : Buffer :=
  if config.clearReleased then buffer.clearAll config positions else buffer

theorem cleared_of_clear {config : CodecConfig} (clear : config.clearReleased = true)
    (buffer : Buffer) (positions : List Nat) :
    cleared config buffer positions = buffer.clearAll config positions :=
  if_pos clear

theorem cleared_of_keep {config : CodecConfig} (keep : config.clearReleased = false)
    (buffer : Buffer) (positions : List Nat) : cleared config buffer positions = buffer := by
  rw [cleared, keep]
  rfl

theorem visit_of_live (inside : position + config.width.bytes ≤ pass.buffer.size)
    {handle : Handle} (held : pass.buffer.handleAt config position = some handle)
    (live : pass.arena.contains handle = true) :
    visit config pass position =
      .ok { pass with
        arena := pass.arena.discard handle
        buffer := cleared config pass.buffer [position]
        released := pass.released + 1 } := by
  have read := RecordView.readHandle_eq pass.buffer config position
  have written := RecordView.writeHandle_eq pass.buffer config position none
  rw [if_pos inside, held] at read
  rw [if_pos inside] at written
  cases clear : config.clearReleased with
  | true =>
      simp only [visit, read, Arena.free?_of_live live, bufferAfterFree, clear, if_true,
        RecordView.clearSlot, written, Except.map, cleared, Buffer.clearAll_cons,
        Buffer.clearAll_nil]
  | false =>
      simp only [visit, read, Arena.free?_of_live live, bufferAfterFree, clear, cleared,
        Bool.false_eq_true, if_false]

@[simp] theorem size_cleared (config : CodecConfig) (buffer : Buffer) (positions : List Nat) :
    (cleared config buffer positions).size = buffer.size := by
  cases clear : config.clearReleased with
  | true => rw [cleared_of_clear clear, Buffer.size_clearAll]
  | false => rw [cleared_of_keep clear]

theorem cleared_cons (config : CodecConfig) (buffer : Buffer) (position : Nat)
    (rest : List Nat) :
    cleared config (cleared config buffer [position]) rest =
      cleared config buffer (position :: rest) := by
  cases clear : config.clearReleased with
  | true =>
      rw [cleared_of_clear clear, cleared_of_clear clear, cleared_of_clear clear]
      rfl
  | false => rw [cleared_of_keep clear, cleared_of_keep clear, cleared_of_keep clear]

theorem handleAt_cleared_of_apart (buffer : Buffer) {offset : Nat}
    (apart : SlotsApart config.width.bytes position offset) :
    (cleared config buffer [position]).handleAt config offset = buffer.handleAt config offset := by
  cases clear : config.clearReleased with
  | true =>
      rw [cleared_of_clear clear]
      apply Buffer.handleAt_overwrite_of_apart
      rw [CodecConfig.length_image]
      exact apart
  | false => rw [cleared_of_keep clear]

/-- The state after the visits of `positions`, computed from the arena and the buffer at the start:
no handle is looked up in an arena that has shrunk, and none is read from a cleared buffer. -/
def after (config : CodecConfig) (pass : ReleasePass) (positions : List Nat) : ReleasePass :=
  let visits := pass.buffer.visits config positions
  let freed := freeing pass.arena [] visits
  let strays := strays pass.arena [] visits
  { arena := pass.arena.discardAll (handlesOf visits)
    buffer := cleared config pass.buffer (freed.map Prod.fst)
    released := pass.released + freed.length
    firstUnknown := pass.firstUnknown.or (strays.head?.map Prod.snd)
    log := pass.log ++ strays.map fun stray => .unknownHandle stray.2 stray.1 }

theorem after_nil (config : CodecConfig) (pass : ReleasePass) : pass.after config [] = pass := by
  have empty : pass.buffer.visits config [] = [] := rfl
  simp [after, empty, freeing, strays, cleared]

section First

variable {handle : Handle} (rest : List Nat)

theorem after_cons_of_null (null : pass.buffer.handleAt config position = none) :
    pass.after config (position :: rest) = pass.after config rest := by
  rw [after, after, Buffer.visits_cons_of_null _ _ null]

theorem after_cons_of_dead (held : pass.buffer.handleAt config position = some handle)
    (dead : pass.arena.contains handle = false) :
    pass.after config (position :: rest) =
      after config { pass with
        firstUnknown := pass.firstUnknown.or (some handle)
        log := pass.log ++ [.unknownHandle handle position] } rest := by
  simp only [after, Buffer.visits_cons_of_handle _ _ held, freeing_cons_of_dead _ dead,
    strays_cons_of_dead _ dead, List.map_cons, Arena.discardAll_cons, Arena.discard_of_dead dead,
    List.head?_cons, Option.map_some, List.append_assoc, List.singleton_append, Option.or_assoc,
    Option.some_or]

theorem after_cons_of_live (held : pass.buffer.handleAt config position = some handle)
    (live : pass.arena.contains handle = true)
    (apart : ∀ other ∈ rest, SlotsApart config.width.bytes position other) :
    pass.after config (position :: rest) =
      after config { pass with
        arena := pass.arena.discard handle
        buffer := cleared config pass.buffer [position]
        released := pass.released + 1 } rest := by
  -- the slot that is cleared is none of those still to be read
  have same : (cleared config pass.buffer [position]).visits config rest =
      pass.buffer.visits config rest := by
    apply Buffer.visits_congr
    intro other mem
    exact handleAt_cleared_of_apart pass.buffer (apart other mem)
  simp only [after, same, Buffer.visits_cons_of_handle _ _ held, freeing_cons_of_live _ live,
    strays_cons_of_live _ live, List.map_cons, Arena.discardAll_cons, List.length_cons,
    cleared_cons, Nat.add_assoc, Nat.add_comm 1]

end First

/-- The loop agrees with the reference. The induction is on the slots still to visit; a slot that is
cleared shares no byte with any of them, so their handles are those of the start. -/
theorem visitAll_eq (config : CodecConfig) (pass : ReleasePass) (positions : List Nat)
    (apart : positions.Pairwise (SlotsApart config.width.bytes))
    (inside : ∀ position ∈ positions, position + config.width.bytes ≤ pass.buffer.size) :
    visitAll config pass positions = .ok (pass.after config positions) := by
  induction positions generalizing pass with
  | nil => rw [after_nil]; rfl
  | cons position rest ih =>
      obtain ⟨here_apart, rest_apart⟩ := List.pairwise_cons.1 apart
      obtain ⟨here_inside, rest_inside⟩ := List.forall_mem_cons.1 inside
      have step : ∀ next, visit config pass position = .ok next →
          visitAll config pass (position :: rest) = visitAll config next rest := by
        intro next done
        rw [visitAll, List.foldlM_cons, done]
        rfl
      cases held : pass.buffer.handleAt config position with
      | none =>
          -- a null slot leaves the pass as it is
          rw [step _ (visit_of_null here_inside held), ih pass rest_apart rest_inside,
            after_cons_of_null rest held]
      | some handle =>
          cases live : pass.arena.contains handle with
          | false =>
              -- a dead handle is noted, arena and buffer stay
              rw [step _ (visit_of_dead here_inside held live), after_cons_of_dead rest held live]
              exact ih _ rest_apart rest_inside
          | true =>
              -- arena and buffer change, but not the slots that are still to be read
              rw [step _ (visit_of_live here_inside held live),
                after_cons_of_live rest held live here_apart]
              apply ih _ rest_apart
              simpa using rest_inside

end ReleasePass

/-! ## The reference -/

namespace Codec

/-- What a release of the slots at `positions` leaves, in terms of the codec and the buffer before
it; `notes` are logged first, and `records` is the number of whole records. -/
def releaseReference (codec : Codec) (buffer : Buffer) (positions : List Nat) (notes : List Event)
    (records : Nat) : Outcome Nat :=
  let pass := ReleasePass.after codec.config (.start codec.arena buffer) positions
  { result := pass.result
    codec := { codec with arena := pass.arena }
    buffer := pass.buffer
    log := notes ++ pass.log ++ [.passEnded pass.released records pass.arena.live] }

/-- The answer of a pass that meets `visits`. -/
def passResult (arena : Arena) (visits : List (Nat × Handle)) : Except SlotError Nat :=
  match (strays arena [] visits).head? with
  | some stray => .error (.unknownHandle stray.2.value)
  | none => .ok (freeing arena [] visits).length

theorem releaseReference_eq (codec : Codec) (buffer : Buffer) (positions : List Nat)
    (notes : List Event) (records : Nat) :
    codec.releaseReference buffer positions notes records =
      let visits := buffer.visits codec.config positions
      { result := passResult codec.arena visits
        codec := { codec with arena := codec.arena.discardAll (handlesOf visits) }
        buffer := ReleasePass.cleared codec.config buffer
          ((freeing codec.arena [] visits).map Prod.fst)
        log := notes ++
          (strays codec.arena [] visits).map (fun stray => .unknownHandle stray.2 stray.1) ++
          [.passEnded (freeing codec.arena [] visits).length records
            (codec.arena.discardAll (handlesOf visits)).live] } := by
  simp only [releaseReference, ReleasePass.after, ReleasePass.start, ReleasePass.result, passResult,
    Nat.zero_add, Option.none_or, List.nil_append]
  cases (strays codec.arena [] (buffer.visits codec.config positions)).head? <;> rfl

/-- The answer counts the distinct live handles when all are live and met once; otherwise it names
the first that is dead or was met before. -/
theorem passResult_cases (arena : Arena) (visits : List (Nat × Handle)) :
    ((handlesOf visits).Nodup ∧ (∀ handle ∈ handlesOf visits, arena.contains handle = true) ∧
        passResult arena visits = .ok (arena.liveAmong (handlesOf visits)).card) ∨
      ∃ before visit after, visits = before ++ visit :: after ∧ (handlesOf before).Nodup ∧
        (∀ handle ∈ handlesOf before, arena.contains handle = true) ∧
        (arena.contains visit.2 = false ∨ visit.2 ∈ handlesOf before) ∧
        passResult arena visits = .error (.unknownHandle visit.2.value) := by
  rcases strays_cases arena [] visits with ⟨none_left, distinct, all⟩ |
    ⟨before, visit, after, more, split, first, distinct, all, stray⟩
  · refine Or.inl ⟨distinct, fun handle mem => (all handle mem).1, ?_⟩
    rw [passResult, none_left, length_freeing]
    rfl
  · have earlier : ∀ handle ∈ handlesOf before, arena.contains handle = true :=
      fun handle mem => (all handle mem).1
    refine Or.inr ⟨before, visit, after, split, distinct, earlier, ?_, ?_⟩
    · rcases stray with dead | met | met
      · exact Or.inl dead
      · -- nothing was met before the pass
        exact absurd met List.not_mem_nil
      · exact Or.inr met
    · rw [passResult, first]
      rfl

/-- The end of a pass under a tail policy. -/
def stopOf (policy : TailPolicy) (recordSize length : Nat) : Nat :=
  if policy = .process then length else length - length % recordSize

/-- What is logged about bytes after the last whole record. -/
def notesOf (policy : TailPolicy) (recordSize length : Nat) : List Event :=
  if policy = .ignore ∧ length % recordSize ≠ 0 then
    [.tailIgnored (length % recordSize) recordSize length]
  else []

theorem passEnd_eq (codec : Codec) (recordSize length : Nat) :
    codec.passEnd recordSize length =
      if codec.config.tail = .reject ∧ length % recordSize ≠ 0 then
        .error (.partialRecord length recordSize)
      else .ok (stopOf codec.config.tail recordSize length,
        notesOf codec.config.tail recordSize length) := by
  rw [passEnd, stopOf, notesOf]
  by_cases whole : length % recordSize = 0
  · simp [whole]
  · -- bytes are left over, and each policy goes its own way
    cases codec.config.tail <;> simp [whole]

theorem positionsBelow_stopOf (schema : SlotSchema) (policy : TailPolicy) (length : Nat) :
    schema.positionsBelow (stopOf policy schema.recordSize length) =
      schema.visited policy length := by
  rw [stopOf]
  by_cases process : policy = .process
  · rw [if_pos process, process]
    exact schema.positionsBelow_eq_visited length
  · rw [if_neg process, SlotSchema.visited, if_neg process]
    exact schema.positionsBelow_sub_tail length

theorem pairwise_visited (schema : SlotSchema) (policy : TailPolicy) (length : Nat) :
    (schema.visited policy length).Pairwise (SlotsApart schema.width.bytes) := by
  rw [← positionsBelow_stopOf]
  exact schema.pairwise_positionsBelow _

/-- A pass visits slots of the buffer only. -/
theorem isSlot_of_mem_visited {schema : SlotSchema} {policy : TailPolicy} {length position : Nat}
    (mem : position ∈ schema.visited policy length) : schema.IsSlot length position := by
  obtain ⟨record, offset, offset_mem, place, inside, -⟩ := schema.mem_visited_iff.1 mem
  exact ⟨record, offset, offset_mem, place, inside⟩

/-- The outcome of `releaseAll` in terms of the codec and the buffer before it. -/
theorem releaseAll_eq (codec : Codec) (buffer : Buffer) (schema : SlotSchema) :
    codec.releaseAll buffer schema =
      if schema.width ≠ codec.config.width then
        codec.refuse buffer (.widthMismatch codec.config.width.bytes schema.width.bytes)
      else if codec.config.tail = .reject ∧ buffer.size % schema.recordSize ≠ 0 then
        codec.refuse buffer (.partialRecord buffer.size schema.recordSize)
      else codec.releaseReference buffer (schema.visited codec.config.tail buffer.size)
        (notesOf codec.config.tail schema.recordSize buffer.size)
        (buffer.size / schema.recordSize) := by
  rw [releaseAll, checkWidth]
  by_cases width : schema.width = codec.config.width
  · rw [if_pos width, if_neg (not_not.2 width)]
    dsimp only
    rw [passEnd_eq]
    by_cases rejected : codec.config.tail = .reject ∧ buffer.size % schema.recordSize ≠ 0
    · rw [if_pos rejected, if_pos rejected]
    · rw [if_neg rejected, if_neg rejected]
      dsimp only
      -- from here on the call is a pass over the visited slots
      have apart : (schema.visited codec.config.tail buffer.size).Pairwise
          (SlotsApart codec.config.width.bytes) := by
        rw [← width]
        exact pairwise_visited schema _ _
      have inside : ∀ position ∈ schema.visited codec.config.tail buffer.size,
          position + codec.config.width.bytes ≤ buffer.size := by
        intro position mem
        rw [← width]
        exact (isSlot_of_mem_visited mem).inside
      rw [positionsBelow_stopOf,
        ReleasePass.visitAll_eq codec.config (.start codec.arena buffer) _ apart inside]
      rfl
  · rw [if_neg width, if_pos width]

/-- What is left by a pass that meets `visits`, said of the codec and the buffer before it. -/
structure MeetsReference (codec : Codec) (buffer : Buffer) (visits : List (Nat × Handle))
    (notes : List Event) (records : Nat) (outcome : Outcome Nat) : Prop where
  config : outcome.codec.config = codec.config
  /-- The handles that were met are gone, all other entries are as before. -/
  entries : ∀ handle, outcome.codec.arena.find? handle =
    if handle ∈ handlesOf visits then none else codec.arena.find? handle
  /-- Each live handle that was met is freed once. -/
  live : outcome.codec.arena.live + (codec.arena.liveAmong (handlesOf visits)).card =
    codec.arena.live
  liveBytes : outcome.codec.arena.liveBytes = codec.arena.liveBytes -
    ∑ handle ∈ codec.arena.liveAmong (handlesOf visits), codec.arena.storedSize handle
  counters : outcome.codec.arena.next = codec.arena.next ∧
    outcome.codec.arena.maxHandle = codec.arena.maxHandle ∧
    outcome.codec.arena.totalAllocated = codec.arena.totalAllocated
  /-- The number of freed strings when all handles are live and distinct, otherwise the first that
  was dead at the start or had been met before. -/
  result :
    ((handlesOf visits).Nodup ∧
        (∀ handle ∈ handlesOf visits, codec.arena.contains handle = true) ∧
        outcome.result = .ok (codec.arena.liveAmong (handlesOf visits)).card) ∨
      ∃ before visit after, visits = before ++ visit :: after ∧ (handlesOf before).Nodup ∧
        (∀ handle ∈ handlesOf before, codec.arena.contains handle = true) ∧
        (codec.arena.contains visit.2 = false ∨ visit.2 ∈ handlesOf before) ∧
        outcome.result = .error (.unknownHandle visit.2.value)
  /-- One warning for each visit that found nothing to free. -/
  log : outcome.log = notes ++
    (strays codec.arena [] visits).map (fun stray => .unknownHandle stray.2 stray.1) ++
    [.passEnded (codec.arena.liveAmong (handlesOf visits)).card records outcome.codec.arena.live]
  size : outcome.buffer.size = buffer.size
  /-- Zeros over the freed slots when these are to be cleared, and no other change. -/
  bytes : ∀ place, outcome.buffer.byte place =
    if codec.config.clearReleased = true ∧ ∃ visit ∈ freeing codec.arena [] visits,
        visit.1 ≤ place ∧ place < visit.1 + codec.config.width.bytes then 0
    else buffer.byte place

theorem byte_cleared (config : CodecConfig) (buffer : Buffer) (visits : List (Nat × Handle))
    (place : Nat) :
    (ReleasePass.cleared config buffer (visits.map Prod.fst)).byte place =
      if config.clearReleased = true ∧ ∃ visit ∈ visits,
          visit.1 ≤ place ∧ place < visit.1 + config.width.bytes then 0
      else buffer.byte place := by
  cases clear : config.clearReleased with
  | true =>
      rw [ReleasePass.cleared_of_clear clear, Buffer.byte_clearAll]
      simp only [true_and, List.mem_map, exists_exists_and_eq_and]
  | false =>
      rw [ReleasePass.cleared_of_keep clear, if_neg]
      rintro ⟨keep, -⟩
      cases keep

theorem releaseReference_meets (codec : Codec) (buffer : Buffer) (positions : List Nat)
    (notes : List Event) (records : Nat) :
    MeetsReference codec buffer (buffer.visits codec.config positions) notes records
      (codec.releaseReference buffer positions notes records) := by
  rw [releaseReference_eq]
  generalize buffer.visits codec.config positions = visits
  exact
    { config := rfl
      entries := codec.arena.find?_discardAll (handlesOf visits)
      live := codec.arena.live_discardAll (handlesOf visits)
      liveBytes := codec.arena.liveBytes_discardAll (handlesOf visits)
      counters := codec.arena.counters_discardAll (handlesOf visits)
      result := passResult_cases codec.arena visits
      log := by rw [← length_freeing]
      size := ReleasePass.size_cleared codec.config buffer _
      bytes := byte_cleared codec.config buffer (freeing codec.arena [] visits) }

/-- `releaseAll` in terms of the codec and the buffer before it. A schema of another width is
refused, and so is a cut last record when the policy rejects it; both leave everything as it was.
Otherwise the handles in the visited slots of the initial buffer decide what is freed, answered,
logged and cleared. -/
theorem releaseAll_meetsReference (codec : Codec) (buffer : Buffer) (schema : SlotSchema) :
    if schema.width ≠ codec.config.width then
      codec.releaseAll buffer schema =
        codec.refuse buffer (.widthMismatch codec.config.width.bytes schema.width.bytes)
    else if codec.config.tail = .reject ∧ buffer.size % schema.recordSize ≠ 0 then
      codec.releaseAll buffer schema =
        codec.refuse buffer (.partialRecord buffer.size schema.recordSize)
    else
      MeetsReference codec buffer
        (buffer.visits codec.config (schema.visited codec.config.tail buffer.size))
        (notesOf codec.config.tail schema.recordSize buffer.size)
        (buffer.size / schema.recordSize) (codec.releaseAll buffer schema) := by
  rw [releaseAll_eq]
  by_cases width : schema.width ≠ codec.config.width
  · rw [if_pos width, if_pos width]
  · rw [if_neg width, if_neg width]
    by_cases rejected : codec.config.tail = .reject ∧ buffer.size % schema.recordSize ≠ 0
    · rw [if_pos rejected, if_pos rejected]
    · rw [if_neg rejected, if_neg rejected]
      exact releaseReference_meets codec buffer _ _ _

end Codec

end StringSlots
