import StringSlots.Codec.Release
import StringSlots.Managed.Array

/-!
# Calls across the boundary

The three calls that a managed runtime makes: store a text, fetch a text, free the texts of a
buffer. Any argument may be absent. Absent arguments are reported before anything else is looked
at, a negative offset before the buffer is pinned. Every array that a call pins it unpins, whatever
the outcome. A failure is not raised: it becomes one report on the channel of its kind, and the call
answers a failure value.
-/

namespace StringSlots

/-- The calls across the boundary. -/
inductive BridgeCall where
  | copy
  | create
  | free
  deriving DecidableEq

/-- The name under which a call reports. -/
def BridgeCall.name : BridgeCall → String
  | copy => "compoundCpyVLStr"
  | create => "createVLStrFromCompound"
  | free => "freeCompoundVLStr"

/-- A failure as the caller hears of it. -/
structure Report where
  kind : FailureKind
  message : String
  deriving DecidableEq

/-- The report of a failure in a call. -/
def Report.ofError (call : BridgeCall) (error : SlotError) : Report :=
  { kind := error.kind, message := call.name ++ ":  " ++ error.message }

/-- The status of a call without a value of its own. -/
inductive Status where
  | ok
  | failure
  deriving DecidableEq

/-- The number of a status. -/
def Status.code : Status → Int
  | ok => 0
  | failure => -1

/-- What a call answers and leaves behind. -/
structure Crossing (α : Type) where
  value : α
  reports : List Report
  codec : Codec
  buffer : Option (ManagedArray Buffer)
  log : List Event

namespace Crossing

variable {α : Type}

/-- The events of a call when its reports go to the log: those of the work first. -/
def logged (crossing : Crossing α) : List Event :=
  crossing.log ++ crossing.reports.map fun report => .failure report.kind report.message

/-- A call that failed before it changed anything but, perhaps, the pin counts of the buffer. -/
def refused (call : BridgeCall) (value : α) (codec : Codec)
    (buffer : Option (ManagedArray Buffer)) (error : SlotError) : Crossing α :=
  { value, reports := [.ofError call error], codec, buffer, log := [] }

/-- A call that came to an outcome on a buffer. -/
def ofOutcome {β : Type} (call : BridgeCall) (onSuccess : β → α) (onFailure : α)
    (buffer : ManagedArray Buffer) (outcome : Outcome β) : Crossing α :=
  match outcome.result with
  | .ok value =>
      { value := onSuccess value, reports := [], codec := outcome.codec, buffer := some buffer
        log := outcome.log }
  | .error error =>
      { value := onFailure, reports := [.ofError call error], codec := outcome.codec
        buffer := some buffer, log := outcome.log }

end Crossing

namespace Codec

/-- The size of a slot, as a managed caller asks for it. -/
def pointerSize (codec : Codec) : Nat :=
  codec.config.width.bytes

/-- Stores a text and puts its handle at an offset of a managed buffer. -/
def copyText (codec : Codec) (text : Option String) (buffer : Option (ManagedArray Buffer))
    (offset : Int) : Crossing Status :=
  match text, buffer with
  | none, _ => .refused .copy .failure codec buffer (.absentArgument "str")
  | some _, none => .refused .copy .failure codec none (.absentArgument "buf")
  | some text, some array =>
      match offsetOfInt offset with
      | .error error => .refused .copy .failure codec (some array) error
      | .ok offset =>
          match array.withPin fun buffer => (codec.encode text buffer offset).withBuffer with
          | (none, array) => .refused .copy .failure codec (some array) (.accessFailure "buf")
          | (some outcome, array) => .ofOutcome .copy (fun _ => .ok) .failure array outcome

/-- `decode` as an outcome: it changes neither codec nor buffer. -/
def decodeOutcome (codec : Codec) (buffer : Buffer) (offset : Nat) : Outcome (Option String) :=
  { result := codec.decode buffer offset, codec, buffer, log := [] }

/-- Fetches the text whose handle sits at an offset of a managed buffer; `none` for the null marker
and for a failure. -/
def createText (codec : Codec) (buffer : Option (ManagedArray Buffer)) (offset : Int) :
    Crossing (Option String) :=
  match buffer with
  | none => .refused .create none codec none (.absentArgument "buf")
  | some array =>
      match offsetOfInt offset with
      | .error error => .refused .create none codec (some array) error
      | .ok offset =>
          match array.withPin fun buffer => (codec.decodeOutcome buffer offset).withBuffer with
          | (none, array) => .refused .create none codec (some array) (.accessFailure "buf")
          | (some outcome, array) => .ofOutcome .create id none array outcome

/-- Release of a buffer whose record size and slot offsets arrive as integers. -/
def releaseIndexed (codec : Codec) (buffer : Buffer) (recordSize : Int) (indices : List Int) :
    Outcome Nat :=
  match SlotSchema.ofIndices recordSize indices codec.config.width with
  | .error error => codec.refuse buffer error
  | .ok schema => codec.releaseAll buffer schema

/-- Frees the texts of a managed buffer of records whose slot offsets stand in a managed array. The
buffer is pinned inside the pin of the offsets, so the offsets are given back also when the buffer
cannot be pinned. -/
def freeTexts (codec : Codec) (buffer : Option (ManagedArray Buffer)) (recordSize : Int)
    (indices : Option (ManagedArray (List Int))) :
    Crossing Status × Option (ManagedArray (List Int)) :=
  match buffer, indices with
  | none, _ => (.refused .free .failure codec none (.absentArgument "buf"), indices)
  | some array, none =>
      (.refused .free .failure codec (some array) (.absentArgument "vlIndices"), none)
  | some array, some offsets =>
      let release (indices : List Int) (contents : Buffer) : Outcome Nat × Buffer :=
        (codec.releaseIndexed contents recordSize indices).withBuffer
      match offsets.withPin fun indices => (array.withPin (release indices), indices) with
      | (none, offsets) =>
          (.refused .free .failure codec (some array) (.accessFailure "vlIndices"), some offsets)
      | (some (none, array), offsets) =>
          (.refused .free .failure codec (some array) (.accessFailure "buf"), some offsets)
      | (some (some outcome, array), offsets) =>
          (.ofOutcome .free (fun _ => .ok) .failure array outcome, some offsets)

end Codec

end StringSlots
