import StringSlots.Slot.Width

/-!
# Members of a compound record

A member has a name, a kind and an offset. The kind fixes its size; only a variable-length string,
which takes one slot, has a size that hangs on the slot width.
-/

namespace StringSlots

/-- Kinds of members. The number of a sized kind is its size in bytes. -/
inductive MemberKind where
  | bool
  | int (size : Nat)
  | float (size : Nat)
  | fixedString (size : Nat)
  | vlString
  | blob (size : Nat)
  deriving DecidableEq

namespace MemberKind

/-- Bytes of a member of a kind. -/
def size (width : SlotWidth) : MemberKind → Nat
  | bool => 1
  | int n => n
  | float n => n
  | fixedString n => n
  | vlString => width.bytes
  | blob n => n

/-- Whether a kind can be stored: a float has two, four or eight bytes, all else at least one. -/
def hasValidSize (width : SlotWidth) : MemberKind → Bool
  | float n => n == 2 || n == 4 || n == 8
  | kind => decide (0 < kind.size width)

/-- Whether a member of a kind is a string slot. -/
def isStringSlot : MemberKind → Bool
  | vlString => true
  | _ => false

/-- The text of a kind in listings. -/
def text : MemberKind → String
  | bool => "Bool"
  | int n => s!"Int({n})"
  | float n => s!"Float({n})"
  | fixedString n => s!"FixedString({n})"
  | vlString => "VlString"
  | blob n => s!"Opaque({n})"

/-- The name of a kind in stored descriptions. -/
def name : MemberKind → String
  | bool => "bool"
  | int _ => "int"
  | float _ => "float"
  | fixedString _ => "fixed_string"
  | vlString => "vl_string"
  | blob _ => "opaque"

/-- The sized kind of a name. -/
def sizedOfName? : String → Option (Nat → MemberKind)
  | "int" => some int
  | "float" => some float
  | "fixed_string" => some fixedString
  | "opaque" => some blob
  | _ => none

/-- The kind without a size of a name. -/
def plainOfName? : String → Option MemberKind
  | "bool" => some bool
  | "vl_string" => some vlString
  | _ => none

/-- The size that a sized kind carries. -/
def declaredSize? : MemberKind → Option Nat
  | bool => none
  | int n => some n
  | float n => some n
  | fixedString n => some n
  | vlString => none
  | blob n => some n

theorem size_pos {width : SlotWidth} {kind : MemberKind} (valid : kind.hasValidSize width = true) :
    0 < kind.size width := by
  cases kind with
  | float n =>
      simp only [hasValidSize, Bool.or_eq_true, beq_iff_eq] at valid
      show 0 < n
      omega
  | _ => simpa [hasValidSize] using valid

end MemberKind

/-- A member at its place in the record. -/
structure Member where
  name : String
  kind : MemberKind
  offset : Nat
  deriving DecidableEq

/-- The text of a member in listings. -/
def Member.text (member : Member) : String :=
  s!"{member.name}:{member.kind.text}@{member.offset}"

end StringSlots
