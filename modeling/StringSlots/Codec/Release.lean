import StringSlots.Codec.Basic
import StringSlots.Record.Positions

/-!
# Release

A release pass walks over the slots of a buffer of records and frees the string of each. Null slots
are passed over. A handle that names no live string is logged and remembered; the pass goes on and
reports the first such handle at its end. Freed slots are cleared when the configuration says so,
otherwise they keep their stale handles.

The pass is a fold of `ReleasePass.visit` over `SlotSchema.positionsBelow`.
-/

namespace StringSlots

/-- The state of a pass between two slots. -/
structure ReleasePass where
  arena : Arena
  buffer : Buffer
  released : Nat
  firstUnknown : Option Handle
  log : List Event

namespace ReleasePass

/-- The state before the first slot. -/
def start (arena : Arena) (buffer : Buffer) : ReleasePass :=
  { arena, buffer, released := 0, firstUnknown := none, log := [] }

/-- The buffer after a slot was freed. -/
def bufferAfterFree (config : CodecConfig) (view : RecordView) (position : Nat) :
    Except SlotError Buffer :=
  if config.clearReleased then (view.clearSlot position).map (·.buffer) else .ok view.buffer

/-- The visit of one slot. -/
def visit (config : CodecConfig) (pass : ReleasePass) (position : Nat) :
    Except SlotError ReleasePass :=
  let view : RecordView := { buffer := pass.buffer, width := config.width, order := config.order }
  match view.readHandle position with
  | .error error => .error error
  | .ok none => .ok pass
  | .ok (some handle) =>
      match pass.arena.free? handle with
      | none =>
          .ok { pass with
            firstUnknown := pass.firstUnknown.or (some handle)
            log := pass.log ++ [.unknownHandle handle position] }
      | some arena =>
          match bufferAfterFree config view position with
          | .error error => .error error
          | .ok buffer => .ok { pass with arena, buffer, released := pass.released + 1 }

/-- The visits of a list of slots, in order. -/
def visitAll (config : CodecConfig) (pass : ReleasePass) (positions : List Nat) :
    Except SlotError ReleasePass :=
  positions.foldlM (visit config) pass

/-- The answer of a pass: the number of freed strings unless an unknown handle was met. -/
def result (pass : ReleasePass) : Except SlotError Nat :=
  match pass.firstUnknown with
  | some handle => .error (.unknownHandle handle.value)
  | none => .ok pass.released

end ReleasePass

namespace Codec

/-- The end of a pass over a buffer of `length` bytes, with what is logged about bytes left
over. -/
def passEnd (codec : Codec) (recordSize length : Nat) : Except SlotError (Nat × List Event) :=
  let tail := length % recordSize
  if tail = 0 then .ok (length, [])
  else
    match codec.config.tail with
    | .reject => .error (.partialRecord length recordSize)
    | .ignore => .ok (length - tail, [.tailIgnored tail recordSize length])
    | .process => .ok (length, [])

/-- Frees the strings of all slots of a buffer of records; the result is their number. -/
def releaseAll (codec : Codec) (buffer : Buffer) (schema : SlotSchema) : Outcome Nat :=
  match codec.checkWidth schema.width with
  | .error error => codec.refuse buffer error
  | .ok () =>
      match codec.passEnd schema.recordSize buffer.size with
      | .error error => codec.refuse buffer error
      | .ok (stop, notes) =>
          match ReleasePass.visitAll codec.config (.start codec.arena buffer)
              (schema.positionsBelow stop) with
          | .error error => codec.refuse buffer error
          | .ok pass =>
              { result := pass.result
                codec := { codec with arena := pass.arena }
                buffer := pass.buffer
                log := notes ++ pass.log ++
                  [.passEnded pass.released (buffer.size / schema.recordSize) pass.arena.live] }

/-- Frees the strings of the first record of a buffer; bytes after it are left alone. -/
def releaseRecord (codec : Codec) (buffer : Buffer) (schema : SlotSchema) : Outcome Nat :=
  if buffer.size < schema.recordSize then
    codec.refuse buffer (.partialRecord buffer.size schema.recordSize)
  else
    let outcome := codec.releaseAll (buffer.take schema.recordSize) schema
    { outcome with buffer := buffer.overwrite 0 outcome.buffer.bytes }

end Codec

end StringSlots
