import StringSlots.Json.Number

/-!
# JSON values

A value keeps what a reader may ask for. Number literals stay as they are written. A text, also a
key, that holds half of a surrogate pair has no content: it is `none`, which only a reader that
looks at it will mind. Fields keep their order and repetitions.
-/

namespace StringSlots

/-- JSON values. -/
inductive Json where
  | null
  | bool (value : Bool)
  | number (literal : Json.NumberLiteral)
  | text (content : Option String)
  | array (items : List Json)
  | object (fields : List (Option String × Json))

namespace Json

/-- The value of a text. -/
def ofText (content : String) : Json :=
  .text (some content)

/-- The value of a natural number. -/
def ofNat (n : Nat) : Json :=
  .number (.ofNat n)

/-- The object of fields with well-formed keys. -/
def ofFields (fields : List (String × Json)) : Json :=
  .object (fields.map fun field => (some field.1, field.2))

/-- The content of a text. -/
def text? : Json → Option String
  | text content => content
  | _ => none

/-- The truth value. -/
def bool? : Json → Option Bool
  | bool value => some value
  | _ => none

/-- The natural number of a plain literal below `2 ^ 64`. -/
def natural? : Json → Option Nat
  | number literal => literal.natural?
  | _ => none

/-- The items of an array. -/
def items? : Json → Option (List Json)
  | array items => some items
  | _ => none

/-- The fields of an object whose keys are all well formed. -/
def fields? : Json → Option (List (String × Json))
  | object fields => fields.mapM fun field => field.1.map fun key => (key, field.2)
  | _ => none

/-- A value of a key that may stand once: `none` when it is repeated, `some none` when it is
missing. -/
def once? (fields : List (String × Json)) (key : String) : Option (Option Json) :=
  match fields.filter (·.1 == key) with
  | [] => some none
  | [field] => some (some field.2)
  | _ => none

/-- The values of a record with the given keys, in their order, `none` for one that is missing. A
record is written as an object, in which unknown keys do not matter, or as an array of the values of
its first keys. -/
def record? (keys : List String) : Json → Option (List (Option Json))
  | array items =>
      if items.length ≤ keys.length then
        some (items.map some ++ List.replicate (keys.length - items.length) none)
      else none
  | value => do
      let fields ← value.fields?
      keys.mapM (once? fields)

/-- The name and the argument of a variant: a text, or an object of one field. -/
def variant? : Json → Option (String × Option Json)
  | text content => content.map fun name => (name, none)
  | object [(some name, argument)] => some (name, some argument)
  | _ => none

/-- The name of a variant without argument, for which null may be written. -/
def plainVariant? (value : Json) : Option String :=
  match value.variant? with
  | some (name, none) => some name
  | some (name, some null) => some name
  | _ => none

/-- Whether a value can be kept whole: its texts are well formed, its numbers are doubles, and it
nests at most `depth` deep. -/
def isConcrete : Nat → Json → Bool
  | _, null => true
  | _, bool _ => true
  | _, number literal => literal.isFinite
  | _, text content => content.isSome
  | 0, array _ => false
  | 0, object _ => false
  | depth + 1, array items => items.all (isConcrete depth)
  | depth + 1, object fields => fields.all fun field => field.1.isSome && isConcrete depth field.2

end Json

end StringSlots
