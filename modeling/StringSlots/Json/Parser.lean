import StringSlots.Json.Text
import StringSlots.Json.Value

/-!
# Reading JSON

A document is read token by token. `Token.read?` takes one token off the front of the characters.
`ParserState.step` takes a token into the values read so far; arrays and objects that are still open
wait on a stack of frames, so nesting costs no recursion. `Json.parse?` runs the steps over a whole
document and answers its value.
-/

namespace StringSlots.Json

/-- Tokens of a document. -/
inductive Token where
  | arrayOpen
  | arrayClose
  | objectOpen
  | objectClose
  | comma
  | colon
  | literal (value : Json)
  | text (content : Option String)

/-- Characters between tokens. -/
def isBlank (c : Char) : Bool :=
  c == ' ' || c == '\t' || c == '\n' || c == '\r'

/-- The characters after a word. -/
def afterWord? (word : String) (cs : List Char) : Option (List Char) :=
  if word.toList.isPrefixOf cs then some (cs.drop word.length) else none

/-- The token at the front, and what follows it. -/
def Token.read? : List Char → Option (Token × List Char)
  | '[' :: rest => some (.arrayOpen, rest)
  | ']' :: rest => some (.arrayClose, rest)
  | '{' :: rest => some (.objectOpen, rest)
  | '}' :: rest => some (.objectClose, rest)
  | ',' :: rest => some (.comma, rest)
  | ':' :: rest => some (.colon, rest)
  | '"' :: rest => (readUnits [] rest).map fun read => (.text (textOfUnits? read.1), read.2)
  | 'n' :: rest => (afterWord? "ull" rest).map fun rest => (.literal .null, rest)
  | 't' :: rest => (afterWord? "rue" rest).map fun rest => (.literal (.bool true), rest)
  | 'f' :: rest => (afterWord? "alse" rest).map fun rest => (.literal (.bool false), rest)
  | cs => (readNumber cs).map fun read => (.literal (.number read.1), read.2)

/-- An open array or object that waits for a value: the values before it, latest first, and in an
object its key. -/
inductive Frame where
  | item (before : List Json)
  | field (before : List (Option String × Json)) (key : Option String)

/-- What may come next. -/
inductive ParserState where
  /-- A value. -/
  | beforeValue (stack : List Frame)
  /-- The first item of an array, or its end. -/
  | arrayStart (stack : List Frame)
  /-- The first key of an object, or its end. -/
  | objectStart (stack : List Frame)
  /-- A key. -/
  | beforeKey (before : List (Option String × Json)) (stack : List Frame)
  /-- The colon after a key. -/
  | beforeColon (before : List (Option String × Json)) (key : Option String)
      (stack : List Frame)
  /-- A value is complete; a comma or an end, or the end of the document. -/
  | complete (value : Json) (stack : List Frame)

namespace ParserState

/-- The first token of a value. -/
def stepValue (stack : List Frame) : Token → Option ParserState
  | .arrayOpen => some (.arrayStart stack)
  | .objectOpen => some (.objectStart stack)
  | .literal value => some (.complete value stack)
  | .text content => some (.complete (.text content) stack)
  | _ => none

/-- The token after a complete value. -/
def stepComplete (value : Json) : List Frame → Token → Option ParserState
  | .item before :: stack, .comma => some (.beforeValue (.item (value :: before) :: stack))
  | .item before :: stack, .arrayClose =>
      some (.complete (.array (value :: before).reverse) stack)
  | .field before key :: stack, .comma => some (.beforeKey ((key, value) :: before) stack)
  | .field before key :: stack, .objectClose =>
      some (.complete (.object ((key, value) :: before).reverse) stack)
  | _, _ => none

/-- The state after a token; `none` when the token cannot stand there. -/
def step : ParserState → Token → Option ParserState
  | beforeValue stack, token => stepValue stack token
  | arrayStart stack, .arrayClose => some (.complete (.array []) stack)
  | arrayStart stack, token => stepValue (.item [] :: stack) token
  | objectStart stack, .objectClose => some (.complete (.object []) stack)
  | objectStart stack, .text content => some (.beforeColon [] content stack)
  | objectStart _, _ => none
  | beforeKey before stack, .text content => some (.beforeColon before content stack)
  | beforeKey _ _, _ => none
  | beforeColon before content stack, .colon => some (.beforeValue (.field before content :: stack))
  | beforeColon _ _ _, _ => none
  | complete value stack, token => stepComplete value stack token

/-- The value of a document that ends here. -/
def finish? : ParserState → Option Json
  | complete value [] => some value
  | _ => none

end ParserState

theorem length_of_afterWord? {word : String} {cs rest : List Char}
    (done : afterWord? word cs = some rest) : rest.length ≤ cs.length := by
  unfold afterWord? at done
  split at done
  · rw [← Option.some.inj done, List.length_drop]
    omega
  · simp at done

/-- What follows a token is shorter than what was read. -/
theorem Token.length_of_read? {cs rest : List Char} {token : Token}
    (done : Token.read? cs = some (token, rest)) : rest.length < cs.length := by
  unfold Token.read? at done
  split at done
  case h_7 =>
    obtain ⟨⟨units, tail⟩, read, same⟩ := Option.map_eq_some_iff.1 done
    have := length_of_readUnits read
    rw [← (Prod.mk.inj same).2]
    simp only [List.length_cons] at *
    omega
  case h_8 | h_9 | h_10 =>
    obtain ⟨tail, read, same⟩ := Option.map_eq_some_iff.1 done
    have := length_of_afterWord? read
    rw [← (Prod.mk.inj same).2, List.length_cons]
    omega
  case h_11 =>
    obtain ⟨⟨literal, tail⟩, read, same⟩ := Option.map_eq_some_iff.1 done
    have := length_of_readNumber read
    rw [← (Prod.mk.inj same).2]
    exact this
  all_goals
    simp only [Option.some.injEq, Prod.mk.injEq] at done
    rw [← done.2, List.length_cons]
    omega

/-- A token behind blanks leaves less than there was. -/
theorem length_of_next {cs behind rest : List Char} {c : Char} {token : Token}
    (front : cs.dropWhile isBlank = c :: behind)
    (read : Token.read? (c :: behind) = some (token, rest)) : rest.length < cs.length := by
  have shorter := Token.length_of_read? read
  have suffix := (List.dropWhile_suffix (l := cs) isBlank).length_le
  rw [front] at suffix
  omega

/-- The value of the characters that are left, from a state. -/
def run (state : ParserState) (cs : List Char) : Option Json :=
  match front : cs.dropWhile isBlank with
  | [] => state.finish?
  | c :: behind =>
      match read : Token.read? (c :: behind) with
      | none => none
      | some (token, rest) =>
          have _ : rest.length < cs.length := length_of_next front read
          match state.step token with
          | none => none
          | some next => run next rest
termination_by cs.length

/-- A run at the end of the document. -/
theorem run_end {state : ParserState} {cs : List Char} (front : cs.dropWhile isBlank = []) :
    run state cs = state.finish? := by
  rw [run]
  split
  · rfl
  · rename_i other
    exact absurd (front.symm.trans other) (by simp)

/-- A run over one token. -/
theorem run_token {state next : ParserState} {cs behind rest : List Char} {c : Char}
    {token : Token} (front : cs.dropWhile isBlank = c :: behind)
    (read : Token.read? (c :: behind) = some (token, rest)) (step : state.step token = some next) :
    run state cs = run next rest := by
  rw [run]
  split
  · rename_i other
    exact absurd (front.symm.trans other) (by simp)
  · rename_i other
    obtain ⟨rfl, rfl⟩ := List.cons.inj (front.symm.trans other)
    split
    · rename_i unread
      exact absurd (read.symm.trans unread) (by simp)
    · rename_i found
      obtain ⟨rfl, rfl⟩ := Prod.mk.inj (Option.some.inj (read.symm.trans found))
      simp [step]

/-- The value of a whole document. -/
def parse? (document : String) : Option Json :=
  run (.beforeValue []) document.toList

end StringSlots.Json
