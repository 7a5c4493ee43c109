import Std.Data.TreeMap
import StringSlots.Slot.Width
import StringSlots.Text.Utf8
import StringSlots.Error

/-!
# String arenas

An arena owns the strings that slots refer to. It maps each live handle to the bytes of a text and
a terminating NUL. Handles are issued by a counter that only grows, so a freed handle names nothing
ever after. Besides the entries the arena keeps two tallies: the bytes of all live entries and the
number of allocations ever made.

`find?_push` and `find?_free` state the effect of the two changes through the look-up `find?`, on
which all readers are built.
-/

namespace StringSlots

/-- Stored strings by handle, with the issuing counter and the tallies. -/
structure Arena where
  entries : Std.TreeMap Handle Bytes
  next : Nat
  maxHandle : Nat
  liveBytes : Nat
  totalAllocated : Nat

namespace Arena

/-- The arena without strings for slots of a width, whose first handle will be `first`. -/
def startingAt (first : Nat) (width : SlotWidth) : Arena :=
  { entries := ∅
    next := first
    maxHandle := width.maxHandle
    liveBytes := 0
    totalAllocated := 0 }

/-- The arena without strings for slots of a width; the first handle is 1. -/
def empty (width : SlotWidth) : Arena :=
  startingAt 1 width

/-- The stored bytes of a handle, terminator included. -/
def find? (arena : Arena) (handle : Handle) : Option Bytes :=
  arena.entries[handle]?

/-- Whether a handle is live. -/
def contains (arena : Arena) (handle : Handle) : Bool :=
  (arena.find? handle).isSome

/-- The bytes of a live string without the terminator. -/
def get? (arena : Arena) (handle : Handle) : Option Bytes :=
  (arena.find? handle).map List.dropLast

/-- The text of a live string. -/
def getText? (arena : Arena) (handle : Handle) : Option String :=
  (arena.get? handle).bind ofUtf8?

/-- The stored size of a live string, terminator included. -/
def allocSize? (arena : Arena) (handle : Handle) : Option Nat :=
  (arena.find? handle).map List.length

/-- The number of live strings. -/
def live (arena : Arena) : Nat :=
  arena.entries.size

/-- The position of the first NUL among the UTF-8 bytes of a text. -/
def nulPosition? (text : String) : Option Nat :=
  (utf8 text).findIdx? (· == 0)

/-- The arena after storing `bytes` under a new handle. -/
def push (arena : Arena) (handle : Handle) (bytes : Bytes) : Arena :=
  { arena with
    entries := arena.entries.insert handle bytes
    next := arena.next + 1
    liveBytes := arena.liveBytes + bytes.length
    totalAllocated := arena.totalAllocated + 1 }

/-- A new string and its handle. A text with a NUL inside is refused before the counter is looked
at, and a refusal consumes no handle. -/
def alloc (arena : Arena) (text : String) : Except SlotError (Handle × Arena) :=
  match nulPosition? text with
  | some position => .error (.interiorNul position)
  | none =>
      if arena.maxHandle < arena.next then .error .handleOverflow
      else
        match Handle.ofNat? arena.next with
        | none => .error .handleOverflow
        | some handle => .ok (handle, arena.push handle (utf8 text ++ [0]))

/-- The arena without a live string; `none` when the handle names none. -/
def free? (arena : Arena) (handle : Handle) : Option Arena :=
  (arena.find? handle).map fun bytes =>
    { arena with
      entries := arena.entries.erase handle
      liveBytes := arena.liveBytes - bytes.length }

theorem find?_push (arena : Arena) (new handle : Handle) (bytes : Bytes) :
    (arena.push new bytes).find? handle =
      if new = handle then some bytes else arena.find? handle := by
  simp [find?, push, Std.TreeMap.getElem?_insert]

theorem find?_free {arena freed : Arena} {handle : Handle} (free : arena.free? handle = some freed)
    (other : Handle) :
    freed.find? other = if handle = other then none else arena.find? other := by
  obtain ⟨bytes, -, rfl⟩ := Option.map_eq_some_iff.1 free
  simp [find?, Std.TreeMap.getElem?_erase]

theorem live_push {arena : Arena} {new : Handle} (fresh : arena.find? new = none) (bytes : Bytes) :
    (arena.push new bytes).live = arena.live + 1 := by
  have absent : new ∉ arena.entries := by simpa [find?] using fresh
  simp [live, push, Std.TreeMap.size_insert, absent]

theorem live_free {arena freed : Arena} {handle : Handle}
    (free : arena.free? handle = some freed) : freed.live + 1 = arena.live := by
  obtain ⟨bytes, found, rfl⟩ := Option.map_eq_some_iff.1 free
  have present : handle ∈ arena.entries :=
    Std.TreeMap.mem_iff_isSome_getElem?.2 (Option.isSome_of_mem found)
  have filled : arena.entries.size ≠ 0 := fun zero =>
    Std.TreeMap.isEmpty_iff_forall_not_mem.1
      (by simp [Std.TreeMap.isEmpty_eq_size_eq_zero, zero]) handle present
  simp only [live, Std.TreeMap.size_erase, Std.TreeMap.contains_iff_mem, if_pos present]
  omega

theorem free?_eq_none_iff {arena : Arena} {handle : Handle} :
    arena.free? handle = none ↔ arena.contains handle = false := by
  simp [free?, contains]

end Arena

end StringSlots
