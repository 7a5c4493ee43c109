import StringSlots.Codec.Basic
import StringSlots.Proofs.Arena.Lifetime
import StringSlots.Proofs.Record.HandleAt

/-!
# Access to single slots

`encode_eq`, `encodeNull_eq` and `decode_eq` say what the three calls on one slot do in terms of the
size of the buffer, the handle in the slot and the arena. The slot write that follows an allocation
cannot fail, so a codec never stores a text without a slot.
-/

namespace StringSlots

namespace Codec

/-- The failure for a slot that leaves the buffer. -/
def outOfBounds (codec : Codec) (buffer : Buffer) (offset : Nat) : SlotError :=
  .slotOutOfBounds offset codec.config.width.bytes buffer.size

variable (codec : Codec) (buffer : Buffer) (offset : Nat)

theorem slotRange_view :
    (codec.view buffer).slotRange offset =
      if offset + codec.config.width.bytes ≤ buffer.size then
        .ok (offset, offset + codec.config.width.bytes)
      else .error (codec.outOfBounds buffer offset) := rfl

theorem encode_eq (text : String) :
    codec.encode text buffer offset =
      if offset + codec.config.width.bytes ≤ buffer.size then
        match codec.arena.alloc text with
        | .error error => codec.refuse buffer error
        | .ok (handle, arena) =>
            { result := .ok handle
              codec := { codec with arena }
              buffer := buffer.overwrite offset (codec.config.image (some handle))
              log := [] }
      else codec.refuse buffer (codec.outOfBounds buffer offset) := by
  rw [encode, slotRange_view]
  by_cases inside : offset + codec.config.width.bytes ≤ buffer.size
  · simp only [if_pos inside]
    cases stored : codec.arena.alloc text with
    | error error => rfl
    | ok new =>
        -- the slot was checked before, so the write cannot fail
        obtain ⟨handle, arena⟩ := new
        have written := RecordView.writeHandle_eq buffer codec.config offset (some handle)
        rw [if_pos inside] at written
        simp only [view, written]
  · simp only [if_neg inside]

theorem encodeNull_eq :
    codec.encodeNull buffer offset =
      if offset + codec.config.width.bytes ≤ buffer.size then
        { result := .ok ()
          codec := codec
          buffer := buffer.overwrite offset (codec.config.image none)
          log := [] }
      else codec.refuse buffer (codec.outOfBounds buffer offset) := by
  have written := RecordView.writeHandle_eq buffer codec.config offset none
  rw [encodeNull, RecordView.clearSlot, view, written]
  by_cases inside : offset + codec.config.width.bytes ≤ buffer.size
  · simp only [if_pos inside]
  · simp only [if_neg inside]
    rfl

theorem decode_eq :
    codec.decode buffer offset =
      if offset + codec.config.width.bytes ≤ buffer.size then
        match buffer.handleAt codec.config offset with
        | none => .ok none
        | some handle =>
            match codec.arena.getText? handle with
            | some text => .ok (some text)
            | none => .error (.unknownHandle handle.value)
      else .error (codec.outOfBounds buffer offset) := by
  have read := RecordView.readHandle_eq buffer codec.config offset
  rw [decode, view, read]
  by_cases inside : offset + codec.config.width.bytes ≤ buffer.size
  · simp only [if_pos inside]
    cases buffer.handleAt codec.config offset <;> rfl
  · simp only [if_neg inside]
    rfl

section Decode

variable {codec buffer offset} (inside : offset + codec.config.width.bytes ≤ buffer.size)
include inside

theorem decode_of_null (null : buffer.handleAt codec.config offset = none) :
    codec.decode buffer offset = .ok none := by
  rw [decode_eq, if_pos inside, null]

variable {handle : Handle} (held : buffer.handleAt codec.config offset = some handle)
include held

theorem decode_of_text {text : String} (found : codec.arena.getText? handle = some text) :
    codec.decode buffer offset = .ok (some text) := by
  rw [decode_eq, if_pos inside, held]
  simp only [found]

theorem decode_of_stale (lost : codec.arena.getText? handle = none) :
    codec.decode buffer offset = .error (.unknownHandle handle.value) := by
  rw [decode_eq, if_pos inside, held]
  simp only [lost]

end Decode

/-- The null marker is what a slot inside the buffer holds when it holds no handle. -/
theorem decode_eq_ok_none_iff :
    codec.decode buffer offset = .ok none ↔
      offset + codec.config.width.bytes ≤ buffer.size ∧
        buffer.handleAt codec.config offset = none := by
  rw [decode_eq]
  by_cases inside : offset + codec.config.width.bytes ≤ buffer.size
  · rw [if_pos inside]
    cases buffer.handleAt codec.config offset with
    | none => simp [inside]
    | some handle =>
        dsimp only
        split <;> simp
  · simp [inside]

/-- In a codec with a well-formed arena, an unknown handle is reported exactly for a slot inside the
buffer whose handle is not live. -/
theorem decode_eq_unknownHandle_iff {width : SlotWidth} (formed : codec.arena.WellFormed width)
    (raw : Nat) :
    codec.decode buffer offset = .error (.unknownHandle raw) ↔
      offset + codec.config.width.bytes ≤ buffer.size ∧
        ∃ handle, buffer.handleAt codec.config offset = some handle ∧ handle.value = raw ∧
          codec.arena.contains handle = false := by
  rw [decode_eq]
  by_cases inside : offset + codec.config.width.bytes ≤ buffer.size
  · rw [if_pos inside]
    simp only [inside, true_and]
    cases held : buffer.handleAt codec.config offset with
    | none => simp
    | some handle =>
        cases live : codec.arena.contains handle with
        | false => simp [Arena.getText?_of_not_contains live, live]
        | true =>
            -- a live handle has a text
            obtain ⟨text, found⟩ := formed.getText?_isSome live
            simp [found, live]
  · rw [if_neg inside]
    simp [inside, outOfBounds]

/-- A call of `encode` fails without a trace, or takes a new handle and puts it into its slot. -/
theorem encode_cases (text : String) :
    (∃ error, codec.encode text buffer offset = codec.refuse buffer error) ∨
      ∃ handle arena, offset + codec.config.width.bytes ≤ buffer.size ∧
        codec.arena.alloc text = .ok (handle, arena) ∧
        codec.encode text buffer offset =
          { result := .ok handle
            codec := { codec with arena }
            buffer := buffer.overwrite offset (codec.config.image (some handle))
            log := [] } := by
  rw [encode_eq]
  by_cases inside : offset + codec.config.width.bytes ≤ buffer.size
  · cases stored : codec.arena.alloc text with
    | error error => exact Or.inl ⟨error, if_pos inside⟩
    | ok new => exact Or.inr ⟨new.1, new.2, inside, rfl, if_pos inside⟩
  · exact Or.inl ⟨_, if_neg inside⟩

/-- A call of `encodeNull` fails without a trace, or puts the null marker into its slot. -/
theorem encodeNull_cases :
    (∃ error, codec.encodeNull buffer offset = codec.refuse buffer error) ∨
      offset + codec.config.width.bytes ≤ buffer.size ∧
        codec.encodeNull buffer offset =
          { result := .ok ()
            codec := codec
            buffer := buffer.overwrite offset (codec.config.image none)
            log := [] } := by
  rw [encodeNull_eq]
  by_cases inside : offset + codec.config.width.bytes ≤ buffer.size
  · exact Or.inr ⟨inside, if_pos inside⟩
  · exact Or.inl ⟨_, if_neg inside⟩

end Codec

end StringSlots
