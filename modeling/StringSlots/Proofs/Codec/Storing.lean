import StringSlots.Proofs.Run.Workspace
import StringSlots.Proofs.Text.Null

/-!
# Storing a text

`Codec.encode` either puts a new string into the arena and its handle into the slot, and touches
nothing else (`Codec.Stores`), or it changes nothing at all. `Codec.encode_all_or_nothing` says when
it does which, and in which order the causes of a refusal are reported. The slot is written after
the allocation; the write cannot fail, because the slot was checked before.
-/

namespace StringSlots

namespace Codec

/-- What a codec and a buffer have become when a text was stored in the slot at an offset: one more
string, whose handle is in the slot. -/
structure Stores (codec : Codec) (buffer : Buffer) (offset : Nat) (text : String) (handle : Handle)
    (outcome : Outcome Handle) : Prop where
  config_eq : outcome.codec.config = codec.config
  /-- The handle is the value of the counter and was not live before. -/
  value_eq : handle.value = codec.arena.next
  fresh : codec.arena.find? handle = none
  /-- The text with a terminator is behind the handle; all other entries are as before. -/
  find?_eq : ∀ other, outcome.codec.arena.find? other =
    if other = handle then some (utf8 text ++ [0]) else codec.arena.find? other
  live_eq : outcome.codec.arena.live = codec.arena.live + 1
  next_eq : outcome.codec.arena.next = codec.arena.next + 1
  maxHandle_eq : outcome.codec.arena.maxHandle = codec.arena.maxHandle
  liveBytes_eq : outcome.codec.arena.liveBytes = codec.arena.liveBytes + ((utf8 text).length + 1)
  totalAllocated_eq : outcome.codec.arena.totalAllocated = codec.arena.totalAllocated + 1
  size_eq : outcome.buffer.size = buffer.size
  /-- All bytes outside the slot are as before. -/
  byte_eq : ∀ place, place < offset ∨ offset + codec.config.width.bytes ≤ place →
    outcome.buffer.byte place = buffer.byte place
  readHandle_eq : (outcome.codec.view outcome.buffer).readHandle offset = .ok (some handle)
  log_eq : outcome.log = []

/-- When a text is stored in the slot at an offset, and what comes of it otherwise. -/
structure StoresOrRefuses (codec : Codec) (buffer : Buffer) (offset : Nat) (text : String)
    (outcome : Outcome Handle) : Prop where
  stored_iff : (∃ handle, outcome.result = .ok handle) ↔
    offset + codec.config.width.bytes ≤ buffer.size ∧ '\x00' ∉ text.toList ∧
      codec.arena.next ≤ codec.config.width.maxHandle
  stores : ∀ handle, outcome.result = .ok handle → codec.Stores buffer offset text handle outcome
  /-- A refusal leaves codec and buffer as they were. -/
  refused : ∀ error, outcome.result = .error error → outcome = codec.refuse buffer error
  outOfBounds : buffer.size < offset + codec.config.width.bytes →
    outcome.result = .error (.slotOutOfBounds offset codec.config.width.bytes buffer.size)
  interiorNul : offset + codec.config.width.bytes ≤ buffer.size → ∀ before after,
    text.toList = before ++ '\x00' :: after → '\x00' ∉ before →
      outcome.result = .error (.interiorNul (utf8 (String.ofList before)).length)
  handleOverflow : offset + codec.config.width.bytes ≤ buffer.size → '\x00' ∉ text.toList →
    codec.config.width.maxHandle < codec.arena.next → outcome.result = .error .handleOverflow
  /-- The write of the slot cannot fail once the text is in the arena. -/
  written : offset + codec.config.width.bytes ≤ buffer.size → ∀ handle arena,
    codec.arena.alloc text = .ok (handle, arena) →
      ∃ view, ({ codec with arena }.view buffer).writeHandle offset (some handle) = .ok view

variable {codec : Codec} {buffer : Buffer} {offset : Nat} {text : String}

/-- A call at a slot inside the buffer: a U+0000 in the text is found before the counter is looked
at. -/
theorem encode_of_inside (formed : codec.arena.WellFormed codec.config.width)
    (inside : offset + codec.config.width.bytes ≤ buffer.size) :
    codec.encode text buffer offset =
      match Arena.nulPosition? text with
      | some position => codec.refuse buffer (.interiorNul position)
      | none =>
          if codec.arena.next ≤ codec.config.width.maxHandle then
            let handle : Handle := ⟨codec.arena.next, formed.next_pos⟩
            { result := .ok handle
              codec := { codec with arena := codec.arena.push handle (utf8 text ++ [0]) }
              buffer := buffer.overwrite offset (codec.config.image (some handle))
              log := [] }
          else codec.refuse buffer .handleOverflow := by
  rw [encode_eq, if_pos inside, formed.alloc_eq]
  cases Arena.nulPosition? text with
  | some position => rfl
  | none =>
      by_cases room : codec.arena.next ≤ codec.config.width.maxHandle
      · simp only [if_pos room]
      · simp only [if_neg room]

/-- A text that was stored is one more entry, and its handle is read back from the slot. -/
theorem stores_of_encode (formed : codec.arena.WellFormed codec.config.width) {handle : Handle}
    (stored : (codec.encode text buffer offset).result = .ok handle) :
    codec.Stores buffer offset text handle (codec.encode text buffer offset) := by
  rcases codec.encode_cases buffer offset text with
    ⟨error, refused⟩ | ⟨new, arena, inside, alloc, done⟩
  · rw [refused] at stored
    cases stored
  · rw [done] at stored ⊢
    obtain rfl : new = handle := Except.ok.inj stored
    obtain ⟨-, room, value, rfl⟩ := Arena.alloc_eq_ok_iff.1 alloc
    have fresh := formed.find?_fresh (Nat.le_of_eq value.symm)
    refine
      { config_eq := rfl
        value_eq := value
        fresh := fresh
        find?_eq := ?_
        live_eq := Arena.live_push fresh _
        next_eq := rfl
        maxHandle_eq := rfl
        liveBytes_eq := ?_
        totalAllocated_eq := rfl
        size_eq := Buffer.size_overwrite buffer offset _
        byte_eq := ?_
        readHandle_eq := ?_
        log_eq := rfl }
    · intro other
      rw [Arena.find?_push]
      simp only [@eq_comm _ new]
    · show codec.arena.liveBytes + (utf8 text ++ [0]).length = _
      rw [List.length_append, List.length_singleton]
    · intro place outside
      apply Buffer.byte_overwrite_of_outside
      rwa [CodecConfig.length_image]
    · -- the counter has not passed the limit, so the handle fits the slot
      have fits : Handle.raw (some new) ≤ codec.config.width.maxHandle := by
        rw [Handle.raw, value, ← formed.limit]
        exact room
      have read := RecordView.readHandle_eq
        (buffer.overwrite offset (codec.config.image (some new))) codec.config offset
      rw [Buffer.size_overwrite, if_pos inside, Buffer.handleAt_overwrite_image buffer offset fits]
        at read
      exact read

/-- Storing a text is all or nothing. The slot is looked at first, then the text, then the counter;
the first of these that stands in the way is reported and nothing is changed. -/
theorem encode_all_or_nothing (reachable : codec.Reachable) (buffer : Buffer) (offset : Nat)
    (text : String) :
    codec.StoresOrRefuses buffer offset text (codec.encode text buffer offset) := by
  have formed := reachable.wellFormed
  refine
    { stored_iff := ?_
      stores := fun handle stored => stores_of_encode formed stored
      refused := ?_
      outOfBounds := ?_
      interiorNul := ?_
      handleOverflow := ?_
      written := ?_ }
  · by_cases inside : offset + codec.config.width.bytes ≤ buffer.size
    · rw [encode_of_inside formed inside, ← Arena.nulPosition?_eq_none_iff]
      cases nul : Arena.nulPosition? text with
      | some position => simp [refuse]
      | none =>
          by_cases room : codec.arena.next ≤ codec.config.width.maxHandle
          · simp [inside, room]
          · simp [room, refuse]
    · rw [encode_eq, if_neg inside]
      simp [inside, refuse]
  · -- a call that is not refused succeeds, so no failure leaves a trace
    intro error failed
    rcases codec.encode_cases buffer offset text with
      ⟨cause, refused⟩ | ⟨handle, arena, -, -, done⟩
    · rw [refused] at failed ⊢
      rw [Except.error.inj failed]
    · rw [done] at failed
      cases failed
  · intro outside
    rw [encode_eq, if_neg (Nat.not_le.2 outside)]
    rfl
  · intro inside before after split first
    rw [encode_of_inside formed inside, Arena.nulPosition?_of_first split first]
    rfl
  · intro inside clean full
    rw [encode_of_inside formed inside, Arena.nulPosition?_eq_none_iff.2 clean]
    simp only [if_neg (Nat.not_le.2 full)]
    rfl
  · intro inside handle arena _
    have written := RecordView.writeHandle_eq buffer codec.config offset (some handle)
    rw [if_pos inside] at written
    exact ⟨_, written⟩

/-- The last slot of a buffer takes "é". With a terminator inside, the slot is in order and the text
is not; one byte further on, the slot is what is reported. -/
theorem encode_all_or_nothing_lastSlot :
    let codec := Codec.new { width := .w32, order := .big }
    let buffer := Buffer.ofBytes [9, 9, 9, 9, 9, 9, 9]
    codec.Stores buffer 3 "é" ⟨1, Nat.one_pos⟩ (codec.encode "é" buffer 3) ∧
      (codec.encode "é" buffer 3).buffer.bytes = [9, 9, 9, 0, 0, 0, 1] ∧
      codec.encode "é\x00" buffer 3 = codec.refuse buffer (.interiorNul 2) ∧
      codec.encode "é\x00" buffer 4 = codec.refuse buffer (.slotOutOfBounds 4 4 7) := by
  intro codec buffer
  have reachable : codec.Reachable := Codec.Reachable.new _
  have stored := encode_all_or_nothing reachable buffer 3 "é"
  have cut := encode_all_or_nothing reachable buffer 3 "é\x00"
  have outside := encode_all_or_nothing reachable buffer 4 "é\x00"
  refine ⟨stored.stores _ (by decide +kernel), by decide +kernel,
    cut.refused _ ?_, outside.refused _ (outside.outOfBounds (by decide +kernel))⟩
  exact cut.interiorNul (by decide +kernel) ['é'] [] (by decide +kernel) (by decide +kernel)

end Codec

end StringSlots
