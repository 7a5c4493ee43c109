import StringSlots.Cbor.Item
import StringSlots.Layout.Compound

/-!
# Layouts as CBOR

A layout description is stored as a map of its width and its members. Names of widths and of kinds
without a size are texts, a sized kind is a map of one entry that holds the size, and a member is an
array of its name and its kind. `LayoutSpec.toCbor` writes definite lengths and shortest heads;
`LayoutSpec.ofCbor?` also takes open lengths, longer heads, unknown keys, and bytes behind the map.
-/

namespace StringSlots

open Cbor

/-- The depth to which a stored description may nest; the map of the description is the first
level. -/
def cborDepth : Nat := 256

namespace MemberKind

/-- The item of a kind. -/
def toCbor (kind : MemberKind) : Bytes :=
  match kind.declaredSize? with
  | none => writeText kind.name
  | some size => writeHead .map 1 ++ writeText kind.name ++ writeNat size

end MemberKind

namespace LayoutSpec

/-- The item of a member. -/
def memberToCbor (member : String × MemberKind) : Bytes :=
  writeHead .array 2 ++ writeText member.1 ++ member.2.toCbor

/-- The item of a description. -/
def toCbor (spec : LayoutSpec) : Bytes :=
  writeHead .map 2 ++ writeText "width" ++ writeText spec.width.name ++ writeText "members" ++
    writeHead .array spec.members.length ++ spec.members.flatMap memberToCbor

/-- The name of a variant: a text, behind the head of a map of one entry if there is one. -/
def readVariantName : Bytes → Option (String × Bytes)
  | [] => none
  | byte :: rest => if byte = headByte .map 1 then readText rest else readText (byte :: rest)

/-- The width of a description. -/
def readWidth (bytes : Bytes) : Option (SlotWidth × Bytes) := do
  let (name, rest) ← readVariantName bytes
  let width ← SlotWidth.ofName? name
  some (width, rest)

/-- A member kind. The size of a sized kind is the integer behind its name; behind the name of any
other kind nothing more is read. -/
def readKind (bytes : Bytes) : Option (MemberKind × Bytes) := do
  let (name, rest) ← readVariantName bytes
  match MemberKind.plainOfName? name with
  | some kind => some (kind, rest)
  | none =>
      let kind ← MemberKind.sizedOfName? name
      let (size, rest) ← readNat rest
      some (kind size, rest)

/-- One more member, after those in `before`, latest first. A member is an array of two items whose
length is known. -/
def readMember (before : List (String × MemberKind)) (bytes : Bytes) :
    Option (List (String × MemberKind) × Bytes) := do
  let (length, bytes) ← readCount .array bytes
  if length = 2 then
    let (name, bytes) ← readText bytes
    let (kind, bytes) ← readKind bytes
    some ((name, kind) :: before, bytes)
  else none

/-- The members of a description. -/
def readMembers (bytes : Bytes) : Option (List (String × MemberKind) × Bytes) := do
  let (argument, bytes) ← readHead .array bytes
  let (members, bytes) ← argument.repeated readMember [] bytes
  some (members.reverse, bytes)

/-- The entries of a description that were read so far. -/
structure Entries where
  width : Option SlotWidth
  members : Option (List (String × MemberKind))

/-- One more entry. A known key may stand once; the value of an unknown key is passed over. -/
def readEntry (entries : Entries) (bytes : Bytes) : Option (Entries × Bytes) := do
  let (key, bytes) ← readText bytes
  if key = "width" then
    match entries.width with
    | some _ => none
    | none =>
        let (width, bytes) ← readWidth bytes
        some ({ entries with width := some width }, bytes)
  else if key = "members" then
    match entries.members with
    | some _ => none
    | none =>
        let (members, bytes) ← readMembers bytes
        some ({ entries with members := some members }, bytes)
  else
    let bytes ← skipItem (cborDepth - 1) bytes
    some (entries, bytes)

/-- The description at the front of the bytes. A missing width is the native one. -/
def ofCbor? (bytes : Bytes) : Option LayoutSpec := do
  let (argument, bytes) ← readHead .map bytes
  let (entries, _) ← argument.repeated readEntry { width := none, members := none } bytes
  let members ← entries.members
  some { width := entries.width.getD .native, members }

end LayoutSpec

namespace CompoundLayout

/-- The stored form of a layout. -/
def toCbor (layout : CompoundLayout) : Bytes :=
  layout.toSpec.toCbor

/-- The layout of a stored form. -/
def ofCbor (bytes : Bytes) : Except SlotError CompoundLayout :=
  match LayoutSpec.ofCbor? bytes with
  | some spec => ofSpec spec
  | none => .error (.malformedCbor "the bytes are not a layout description")

end CompoundLayout

end StringSlots
