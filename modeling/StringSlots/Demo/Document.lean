import StringSlots.Layout.Json

/-!
# Demo documents

A demo document holds a configuration, a layout description, and rows of values by member name. Only
the texts among the values matter to the demo, but every value of a row must be one that can be kept
whole: well-formed texts, numbers inside the doubles, bounded nesting.
-/

namespace StringSlots

/-- The fields of a row, in ascending order of the names' UTF-8 bytes; a field that is not a text
has none. -/
abbrev Row := List (String × Option String)

namespace Row

/-- Where fields of one name stand together, the last of them. -/
def lastOfEach : List (String × Option String) → Row
  | [] => []
  | field :: rest =>
      match lastOfEach rest with
      | [] => [field]
      | next :: fields => if field.1 = next.1 then next :: fields else field :: next :: fields

/-- The row of fields in any order; of the fields of one name the last one counts. -/
def ofFields (fields : List (String × Option String)) : Row :=
  lastOfEach (fields.mergeSort fun a b => utf8Le a.1 b.1)

/-- How deep the values of a row may nest. A document may nest 127 levels, and the document, its
rows and the row take three of them. -/
def valueDepth : Nat := 127 - 3

/-- The row of an object whose values can be kept whole. -/
def ofJson? (value : Json) : Option Row := do
  let fields ← value.fields?
  if fields.all fun field => field.2.isConcrete valueDepth then
    some (ofFields (fields.map fun field => (field.1, field.2.text?)))
  else none

end Row

/-- What a demo works on. -/
structure DemoDocument where
  config : CodecConfig
  layout : LayoutSpec
  rows : List Row

namespace DemoDocument

/-- The keys of a document, in their order. -/
def jsonKeys : List String :=
  ["config", "layout", "rows"]

/-- The document of a value. A missing configuration is the default one. -/
def ofJson? (value : Json) : Option DemoDocument := do
  match ← value.record? jsonKeys with
  | [config, some layout, some rows] =>
      some
        { config := ← Json.orDefault {} CodecConfig.ofJson? config
          layout := ← LayoutSpec.ofJson? layout
          rows := ← (← rows.items?).mapM Row.ofJson? }
  | _ => none

/-- The document in the bytes of a file. -/
def parse? (bytes : Bytes) : Option DemoDocument := do
  let text ← ofUtf8? bytes
  let value ← Json.parse? text
  ofJson? value

/-- The document that is used when none is given. -/
def sample : DemoDocument :=
  { config := { tail := .ignore }
    layout :=
      { width := .native
        members :=
          [("id", .int 8), ("name", .vlString), ("score", .float 8), ("comment", .vlString)] }
    rows :=
      [[("comment", some "héllo wörld"), ("id", none), ("name", some "Alice")],
        [("name", some "Bob")],
        [("comment", some ""), ("name", some "数据集")]] }

end DemoDocument

end StringSlots
