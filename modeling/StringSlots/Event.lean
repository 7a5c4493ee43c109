import StringSlots.Error

/-!
# Log events

Operations return the events that they log, oldest first. An event is data; `Event.line` is its
one written form, the level before the text.
-/

namespace StringSlots

/-- Things worth a log line. -/
inductive Event where
  /-- A release pass left `tail` bytes after the last whole record alone. -/
  | tailIgnored (tail recordSize length : Nat)
  /-- A release pass met a handle that names no stored string. -/
  | unknownHandle (handle : Handle) (position : Nat)
  /-- A release pass came to its end. -/
  | passEnded (released records live : Nat)
  /-- A failure was reported to the log. -/
  | failure (kind : FailureKind) (message : String)
  deriving DecidableEq

namespace Event

/-- The level of an event. -/
def level : Event → String
  | tailIgnored .. => "WARN"
  | unknownHandle .. => "WARN"
  | passEnded .. => "DEBUG"
  | failure .. => "ERROR"

/-- The name of a failure channel in the log. -/
def channel : FailureKind → String
  | .absentArgument => "null argument"
  | .fatal => "fatal"
  | .library => "library"

/-- The text of an event. -/
def text : Event → String
  | tailIgnored tail recordSize length =>
      s!"release_all: ignoring {tail} trailing bytes (record size {recordSize}, buffer {length})"
  | unknownHandle handle position =>
      "release_all: unknown handle " ++ Handle.hexText handle.value ++ s!" at byte {position}"
  | passEnded released records live =>
      s!"release_all: released {released} strings from {records} records, {live} live"
  | failure kind message => s!"{channel kind}: {message}"

/-- The log line of an event. -/
def line (event : Event) : String :=
  event.level ++ " " ++ event.text

end Event

end StringSlots
