/-!
# Text literals of JSON

Between the quotes of a text literal stand characters and escapes. `readUnits` reads them up to the
closing quote as `TextUnit`s, since an escape can name half of a surrogate pair; `joinUnits` joins
the pairs and refuses a half that stands alone. `quoted` writes a text: quote, backslash and control
characters are escaped, all else stands for itself.
-/

namespace StringSlots.Json

/-- A character, or half of a surrogate pair. -/
inductive TextUnit where
  | char (c : Char)
  | surrogate (code : Nat)
  deriving DecidableEq

/-- The value of a hexadecimal digit. -/
def hexDigit? (c : Char) : Option Nat :=
  if '0' ≤ c ∧ c ≤ '9' then some (c.toNat - '0'.toNat)
  else if 'a' ≤ c ∧ c ≤ 'f' then some (c.toNat - 'a'.toNat + 10)
  else if 'A' ≤ c ∧ c ≤ 'F' then some (c.toNat - 'A'.toNat + 10)
  else none

/-- The number of four hexadecimal digits. -/
def hexCode? (a b c d : Char) : Option Nat := do
  let a ← hexDigit? a
  let b ← hexDigit? b
  let c ← hexDigit? c
  let d ← hexDigit? d
  some (((a * 16 + b) * 16 + c) * 16 + d)

/-- The unit of an escaped code below `2 ^ 16`. -/
def TextUnit.ofCode (code : Nat) : TextUnit :=
  if 0xd800 ≤ code ∧ code < 0xe000 then .surrogate code else .char (Char.ofNat code)

/-- The character of an escape of one letter. -/
def letterEscape? : Char → Option Char
  | '"' => some '"'
  | '\\' => some '\\'
  | '/' => some '/'
  | 'b' => some '\x08'
  | 'f' => some '\x0c'
  | 'n' => some '\n'
  | 'r' => some '\r'
  | 't' => some '\t'
  | _ => none

/-- The units up to the closing quote, after those in `read`, latest first, and the characters
behind the quote. Control characters must be escaped. -/
def readUnits (read : List TextUnit) : List Char → Option (List TextUnit × List Char)
  | [] => none
  | '"' :: rest => some (read.reverse, rest)
  | '\\' :: 'u' :: a :: b :: c :: d :: rest =>
      match hexCode? a b c d with
      | some code => readUnits (.ofCode code :: read) rest
      | none => none
  | '\\' :: letter :: rest =>
      match letterEscape? letter with
      | some c => readUnits (.char c :: read) rest
      | none => none
  | c :: rest => if c.toNat < 0x20 then none else readUnits (.char c :: read) rest

/-- The characters of units after those in `joined`, latest first, each surrogate pair joined;
`none` when a half stands alone. -/
def joinUnits (joined : List Char) : List TextUnit → Option (List Char)
  | [] => some joined.reverse
  | .char c :: rest => joinUnits (c :: joined) rest
  | .surrogate high :: .surrogate low :: rest =>
      if high < 0xdc00 ∧ 0xdc00 ≤ low then
        joinUnits
          (Char.ofNat (0x10000 + (high - 0xd800) * 0x400 + (low - 0xdc00)) :: joined) rest
      else none
  | .surrogate _ :: _ => none

/-- The text of units; `none` when it is not well formed. -/
def textOfUnits? (units : List TextUnit) : Option String :=
  (joinUnits [] units).map String.ofList

/-- A character inside a written text literal. -/
def escaped (c : Char) : List Char :=
  if c = '"' then ['\\', '"']
  else if c = '\\' then ['\\', '\\']
  else if c = '\x08' then ['\\', 'b']
  else if c = '\x0c' then ['\\', 'f']
  else if c = '\n' then ['\\', 'n']
  else if c = '\r' then ['\\', 'r']
  else if c = '\t' then ['\\', 't']
  else if c.toNat < 0x20 then
    ['\\', 'u', '0', '0', Nat.digitChar (c.toNat / 16), Nat.digitChar (c.toNat % 16)]
  else [c]

/-- The written form of a text. -/
def quoted (text : String) : List Char :=
  '"' :: text.toList.flatMap escaped ++ ['"']

/-- What stands behind the closing quote is shorter than what was read. -/
theorem length_of_readUnits {read units : List TextUnit} {cs rest : List Char}
    (done : readUnits read cs = some (units, rest)) : rest.length < cs.length := by
  fun_induction readUnits read cs with
  | case1 => simp at done
  | case2 read tail =>
      simp only [Option.some.injEq, Prod.mk.injEq] at done
      rw [← done.2, List.length_cons]
      omega
  | case3 read a b c d tail code hex ih =>
      have := ih done
      simp only [List.length_cons]
      omega
  | case4 => simp at done
  | case5 read letter tail shape c hit ih =>
      have := ih done
      simp only [List.length_cons]
      omega
  | case6 => simp at done
  | case7 => simp at done
  | case8 read c tail shape1 shape2 shape3 printable ih =>
      have := ih done
      simp only [List.length_cons]
      omega

end StringSlots.Json
