import StringSlots.Codec.Config
import StringSlots.Error
import StringSlots.Json.Parser
import StringSlots.Json.Printer

/-!
# Configurations as JSON

A configuration is stored as an object with the four keys of `CodecConfig.jsonKeys`. On reading each
key may be missing and then takes its default.
-/

namespace StringSlots

/-- The width that a value names. -/
def SlotWidth.ofJson? (value : Json) : Option SlotWidth :=
  value.plainVariant?.bind SlotWidth.ofName?

/-- The byte order that a value names. -/
def ByteOrder.ofJson? (value : Json) : Option ByteOrder :=
  value.plainVariant?.bind ByteOrder.ofName?

/-- The tail policy that a value names. -/
def TailPolicy.ofJson? (value : Json) : Option TailPolicy :=
  value.plainVariant?.bind TailPolicy.ofName?

/-- What a value that may be missing stands for: the default when it is missing. -/
def Json.orDefault {α : Type} (default : α) (read : Json → Option α) : Option Json → Option α
  | none => some default
  | some value => read value

namespace CodecConfig

/-- The keys of a configuration, in their order. -/
def jsonKeys : List String :=
  ["pointer_width", "byte_order", "tail_policy", "clear_released_slots"]

/-- The configuration of a value. -/
def ofJson? (value : Json) : Option CodecConfig := do
  match ← value.record? jsonKeys with
  | [width, order, tail, clearReleased] =>
      let default : CodecConfig := {}
      some
        { width := ← Json.orDefault default.width SlotWidth.ofJson? width
          order := ← Json.orDefault default.order ByteOrder.ofJson? order
          tail := ← Json.orDefault default.tail TailPolicy.ofJson? tail
          clearReleased := ← Json.orDefault default.clearReleased Json.bool? clearReleased }
  | _ => none

/-- The value of a configuration. -/
def toJson (config : CodecConfig) : Json :=
  .ofFields
    [("pointer_width", .ofText config.width.name), ("byte_order", .ofText config.order.name),
      ("tail_policy", .ofText config.tail.name),
      ("clear_released_slots", .bool config.clearReleased)]

/-- The configuration of a document. -/
def parse (document : String) : Except SlotError CodecConfig :=
  match (Json.parse? document).bind ofJson? with
  | some config => .ok config
  | none => .error (.malformedConfig "the document is not a codec configuration")

/-- The document of a configuration. -/
def render (config : CodecConfig) : String :=
  config.toJson.pretty

end CodecConfig

end StringSlots
