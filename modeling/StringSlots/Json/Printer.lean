import StringSlots.Json.Text
import StringSlots.Json.Value

/-!
# Writing JSON

`Json.compact` writes a value without blanks. `Json.pretty` writes one item or field a line,
indented by two blanks for each level, and a blank after the colon of a field; an empty array or
object stays on its line.
-/

namespace StringSlots.Json

/-- The written form of a text; one without content is written as a lone half of a pair. -/
def textChars : Option String → List Char
  | some content => quoted content
  | none => "\"\\ud800\"".toList

/-- A value that is neither array nor object. -/
def scalarChars : Json → List Char
  | null => "null".toList
  | bool true => "true".toList
  | bool false => "false".toList
  | number literal => literal.chars
  | text content => textChars content
  | array _ => []
  | object _ => []

mutual

/-- The characters of a value without blanks. -/
def compactChars : Json → List Char
  | array [] => ['[', ']']
  | array (item :: rest) => '[' :: compactChars item ++ compactItems rest
  | object [] => ['{', '}']
  | object ((key, value) :: rest) =>
      '{' :: textChars key ++ ':' :: compactChars value ++ compactFields rest
  | value => scalarChars value

/-- The items after the first, and the end of the array. -/
def compactItems : List Json → List Char
  | [] => [']']
  | item :: rest => ',' :: compactChars item ++ compactItems rest

/-- The fields after the first, and the end of the object. -/
def compactFields : List (Option String × Json) → List Char
  | [] => ['}']
  | (key, value) :: rest =>
      ',' :: textChars key ++ ':' :: compactChars value ++ compactFields rest

end

/-- A line end and the indentation of a level. -/
def lineAt (level : Nat) : List Char :=
  '\n' :: List.replicate (2 * level) ' '

mutual

/-- The characters of a value at a level of indentation, one item or field a line. -/
def prettyChars (level : Nat) : Json → List Char
  | array [] => ['[', ']']
  | array (item :: rest) =>
      '[' :: lineAt (level + 1) ++ prettyChars (level + 1) item ++ prettyItems level rest
  | object [] => ['{', '}']
  | object ((key, value) :: rest) =>
      '{' :: lineAt (level + 1) ++ textChars key ++ ':' :: ' ' :: prettyChars (level + 1) value ++
        prettyFields level rest
  | value => scalarChars value

/-- The lines of the items after the first, and the end of the array. -/
def prettyItems (level : Nat) : List Json → List Char
  | [] => lineAt level ++ [']']
  | item :: rest =>
      ',' :: lineAt (level + 1) ++ prettyChars (level + 1) item ++ prettyItems level rest

/-- The lines of the fields after the first, and the end of the object. -/
def prettyFields (level : Nat) : List (Option String × Json) → List Char
  | [] => lineAt level ++ ['}']
  | (key, value) :: rest =>
      ',' :: lineAt (level + 1) ++ textChars key ++ ':' :: ' ' :: prettyChars (level + 1) value ++
        prettyFields level rest

end

/-- The text of a value without blanks. -/
def compact (value : Json) : String :=
  String.ofList (compactChars value)

/-- The text of a value, one item or field a line. -/
def pretty (value : Json) : String :=
  String.ofList (prettyChars 0 value)

end StringSlots.Json
