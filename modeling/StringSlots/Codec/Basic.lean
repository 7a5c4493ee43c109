import StringSlots.Arena
import StringSlots.Codec.Config
import StringSlots.Event
import StringSlots.Record.View

/-!
# Codecs

A codec copies texts into and out of the string slots of record buffers. The texts live in its
arena; a slot holds only the handle. Every operation that can change something returns an
`Outcome`: the result, the codec and the buffer after the call, and the events it logged, also when
it fails. So "a failed call changes nothing" is a statement about outcomes.
-/

namespace StringSlots

/-- A configuration and the strings stored under it. -/
structure Codec where
  config : CodecConfig
  arena : Arena

/-- What a call leaves behind. -/
structure Outcome (α : Type) where
  result : Except SlotError α
  codec : Codec
  buffer : Buffer
  log : List Event

/-- An outcome beside the buffer that it leaves. -/
def Outcome.withBuffer {α : Type} (outcome : Outcome α) : Outcome α × Buffer :=
  (outcome, outcome.buffer)

namespace Codec

/-- The codec without strings whose first handle will be `first`. -/
def startingAt (first : Nat) (config : CodecConfig) : Codec :=
  { config, arena := Arena.startingAt first config.width }

/-- The codec without strings. -/
def new (config : CodecConfig) : Codec :=
  startingAt 1 config

/-- The view of a buffer under the shape of the codec's slots. -/
def view (codec : Codec) (buffer : Buffer) : RecordView :=
  { buffer, width := codec.config.width, order := codec.config.order }

/-- A failed call that leaves codec and buffer as they are and logs nothing. -/
def refuse {α : Type} (codec : Codec) (buffer : Buffer) (error : SlotError) : Outcome α :=
  { result := .error error, codec, buffer, log := [] }

/-- Fails unless slots of the given width are the codec's. -/
def checkWidth (codec : Codec) (width : SlotWidth) : Except SlotError Unit :=
  if width = codec.config.width then .ok ()
  else .error (.widthMismatch codec.config.width.bytes width.bytes)

/-- Stores a copy of a text and puts its handle into the slot at an offset. The slot is checked
before anything is stored; what it held before is overwritten and not released. -/
def encode (codec : Codec) (text : String) (buffer : Buffer) (offset : Nat) : Outcome Handle :=
  match (codec.view buffer).slotRange offset with
  | .error error => codec.refuse buffer error
  | .ok _ =>
      match codec.arena.alloc text with
      | .error error => codec.refuse buffer error
      | .ok (handle, arena) =>
          let stored := { codec with arena }
          match (stored.view buffer).writeHandle offset (some handle) with
          | .error error => stored.refuse buffer error
          | .ok view => { result := .ok handle, codec := stored, buffer := view.buffer, log := [] }

/-- Puts the null marker into the slot at an offset; no string is released. -/
def encodeNull (codec : Codec) (buffer : Buffer) (offset : Nat) : Outcome Unit :=
  match (codec.view buffer).clearSlot offset with
  | .error error => codec.refuse buffer error
  | .ok view => { result := .ok (), codec, buffer := view.buffer, log := [] }

/-- The text of the slot at an offset, `none` for the null marker. A handle that names no live
string is an error. -/
def decode (codec : Codec) (buffer : Buffer) (offset : Nat) :
    Except SlotError (Option String) :=
  match (codec.view buffer).readHandle offset with
  | .error error => .error error
  | .ok none => .ok none
  | .ok (some handle) =>
      match codec.arena.getText? handle with
      | some text => .ok (some text)
      | none => .error (.unknownHandle handle.value)

end Codec

end StringSlots
