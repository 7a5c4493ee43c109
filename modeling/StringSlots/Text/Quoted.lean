import StringSlots.Text.Unprintable

/-!
# Quoted texts

The form in which a listing shows a text: between quotes, with quotes, backslashes, the common
controls and every character without a picture of its own written as escapes. A text that may be
absent is shown as `Some` of the quoted text or as `None`.
-/

namespace StringSlots

/-- A character inside quotes. -/
def shownChar (c : Char) : List Char :=
  if c = '"' then ['\\', '"']
  else if c = '\\' then ['\\', '\\']
  else if c = '\n' then ['\\', 'n']
  else if c = '\r' then ['\\', 'r']
  else if c = '\t' then ['\\', 't']
  else if c = '\x00' then ['\\', '0']
  else if isUnprintable c then
    ['\\', 'u', '{'] ++ Nat.toDigits 16 c.toNat ++ ['}']
  else [c]

/-- A text between quotes. -/
def shownText (text : String) : String :=
  String.ofList ('"' :: text.toList.flatMap shownChar ++ ['"'])

/-- A text that may be absent. -/
def shownOption : Option String → String
  | none => "None"
  | some text => "Some(" ++ shownText text ++ ")"

end StringSlots
