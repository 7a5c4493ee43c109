import StringSlots.Codec.Json
import StringSlots.Layout.Compound

/-!
# Layouts as JSON

A layout description is stored as an object of its width and its members; a member is an array of
its name and its kind, and a sized kind is an object of one field that holds the size. On reading,
the width may be missing and then is the native one.
-/

namespace StringSlots

namespace MemberKind

/-- The kind of a value. -/
def ofJson? (value : Json) : Option MemberKind := do
  match value.plainVariant?.bind plainOfName? with
  | some kind => some kind
  | none =>
      let (name, argument) ← value.variant?
      let kind ← sizedOfName? name
      let size ← argument.bind Json.natural?
      some (kind size)

/-- The value of a kind. -/
def toJson (kind : MemberKind) : Json :=
  match kind.declaredSize? with
  | none => .ofText kind.name
  | some size => .ofFields [(kind.name, .ofNat size)]

end MemberKind

namespace LayoutSpec

/-- The keys of a description, in their order. -/
def jsonKeys : List String :=
  ["width", "members"]

/-- The name and the kind of a member. -/
def memberOfJson? (value : Json) : Option (String × MemberKind) := do
  match ← value.items? with
  | [name, kind] => some (← name.text?, ← MemberKind.ofJson? kind)
  | _ => none

/-- The description of a value. -/
def ofJson? (value : Json) : Option LayoutSpec := do
  match ← value.record? jsonKeys with
  | [width, some members] =>
      some
        { width := ← Json.orDefault .native SlotWidth.ofJson? width
          members := ← (← members.items?).mapM memberOfJson? }
  | _ => none

/-- The value of a description. -/
def toJson (spec : LayoutSpec) : Json :=
  .ofFields
    [("width", .ofText spec.width.name),
      ("members", .array (spec.members.map fun member =>
        .array [.ofText member.1, member.2.toJson]))]

/-- The document of a description, without blanks. -/
def render (spec : LayoutSpec) : String :=
  spec.toJson.compact

end LayoutSpec

/-- The layout of a JSON document. -/
def CompoundLayout.parse (document : String) : Except SlotError CompoundLayout :=
  match (Json.parse? document).bind LayoutSpec.ofJson? with
  | some spec => ofSpec spec
  | none => .error (.malformedConfig "the document is not a layout description")

end StringSlots
