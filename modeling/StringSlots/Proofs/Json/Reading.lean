import StringSlots.Json.Parser
import StringSlots.Json.Printer
import StringSlots.Proofs.Text.Digits

/-!
# Written JSON read back

Each token reader takes the written form of a token off the front of any characters
(`readUnits_flatMap`, `readNumber_toDigits`). `Reads` lifts this to values: wherever a value may
stand, a run over its written form completes the value and goes on with what follows. It holds of
texts and numbers, and of arrays and objects when it holds of what is in them; so a document that is
written from such parts is read as the value that was written (`Reads.parse?_compact`).
-/

namespace StringSlots.Json

/-! ## Texts -/

/-- The escape of a control character without a letter of its own. -/
theorem hexCode?_control {n : Nat} (control : n < 0x20) :
    hexCode? '0' '0' (Nat.digitChar (n / 16)) (Nat.digitChar (n % 16)) = some n := by
  have codes : ∀ n < 0x20,
      hexCode? '0' '0' (Nat.digitChar (n / 16)) (Nat.digitChar (n % 16)) = some n := by decide
  exact codes n control

/-- A written character is read as itself. -/
theorem readUnits_escaped (read : List TextUnit) (c : Char) (rest : List Char) :
    readUnits read (escaped c ++ rest) = readUnits (.char c :: read) rest := by
  by_cases letter : c ∈ ['"', '\\', '\x08', '\x0c', '\n', '\r', '\t']
  · simp only [List.mem_cons, List.not_mem_nil, or_false] at letter
    rcases letter with rfl | rfl | rfl | rfl | rfl | rfl | rfl <;> rfl
  · simp only [List.mem_cons, List.not_mem_nil, or_false, not_or] at letter
    obtain ⟨quote, backslash, bell, feed, line, carriage, tab⟩ := letter
    rw [escaped, if_neg quote, if_neg backslash, if_neg bell, if_neg feed, if_neg line,
      if_neg carriage, if_neg tab]
    by_cases control : c.toNat < 0x20
    · have unit : TextUnit.ofCode c.toNat = .char c := by
        rw [TextUnit.ofCode, if_neg (by omega), Char.ofNat_toNat]
      rw [if_pos control]
      simp only [List.cons_append, List.nil_append, readUnits, hexCode?_control control, unit]
    · rw [if_neg control, List.singleton_append, readUnits, if_neg control]
      · exact quote
      · exact fun _ _ _ _ _ same => absurd same backslash
      · exact fun _ _ same => absurd same backslash

theorem readUnits_flatMap (read : List TextUnit) (cs rest : List Char) :
    readUnits read (cs.flatMap escaped ++ '"' :: rest) =
      some (read.reverse ++ cs.map .char, rest) := by
  induction cs generalizing read with
  | nil => rw [List.flatMap_nil, List.nil_append, readUnits, List.map_nil, List.append_nil]
  | cons c cs ih =>
      rw [List.flatMap_cons, List.append_assoc, readUnits_escaped, ih, List.reverse_cons,
        List.append_assoc, List.map_cons, List.singleton_append]

theorem joinUnits_map_char (joined cs : List Char) :
    joinUnits joined (cs.map .char) = some (joined.reverse ++ cs) := by
  induction cs generalizing joined with
  | nil => rw [List.map_nil, joinUnits, List.append_nil]
  | cons c cs ih =>
      rw [List.map_cons, joinUnits, ih, List.reverse_cons, List.append_assoc,
        List.singleton_append]

theorem Token.read?_quoted (text : String) (rest : List Char) :
    Token.read? (quoted text ++ rest) = some (.text (some text), rest) := by
  have units : readUnits [] ((text.toList.flatMap escaped ++ ['"']) ++ rest) =
      some (text.toList.map .char, rest) := by
    rw [List.append_assoc, List.singleton_append, readUnits_flatMap, List.reverse_nil,
      List.nil_append]
  have content : textOfUnits? (text.toList.map .char) = some text := by
    rw [textOfUnits?, joinUnits_map_char, List.reverse_nil, List.nil_append, Option.map_some,
      String.ofList_toList]
  rw [quoted, List.cons_append, List.cons_append, Token.read?, units, Option.map_some, content]

/-! ## Numbers -/

/-- What may follow a number: no character that would carry it on. -/
def Delimited (rest : List Char) : Prop :=
  ∀ c ∈ rest.head?, c.isDigit = false ∧ c ≠ '.' ∧ c ≠ 'e' ∧ c ≠ 'E'

theorem delimited_nil : Delimited [] :=
  nofun

theorem delimited_cons {c : Char} (mark : c ∈ [',', ']', '}']) (rest : List Char) :
    Delimited (c :: rest) := by
  rintro _ ⟨⟩
  simp only [List.mem_cons, List.not_mem_nil, or_false] at mark
  rcases mark with rfl | rfl | rfl <;> decide

section Delimited

variable {rest : List Char} (delimited : Delimited rest)
include delimited

theorem readDigits_append {digits : List Char} (nonempty : digits ≠ [])
    (all : ∀ c ∈ digits, c.isDigit = true) :
    readDigits (digits ++ rest) = some (digits, rest) := by
  have none_left : rest.takeWhile Char.isDigit = [] ∧ rest.dropWhile Char.isDigit = rest := by
    cases rest with
    | nil => exact ⟨rfl, rfl⟩
    | cons c rest =>
        have other := (delimited c rfl).1
        rw [List.takeWhile_cons, List.dropWhile_cons, other]
        exact ⟨rfl, rfl⟩
  rw [readDigits, List.takeWhile_append_of_pos all, List.dropWhile_append_of_pos all, none_left.1,
    none_left.2, List.append_nil]
  cases digits with
  | nil => exact absurd rfl nonempty
  | cons c digits => rfl

theorem readWhole_toDigits (n : Nat) :
    readWhole (Nat.toDigits 10 n ++ rest) = some (Nat.toDigits 10 n, rest) := by
  by_cases zero : n = 0
  · rw [zero, Nat.toDigits_zero, List.singleton_append, readWhole]
  · obtain ⟨c, cs, front, -, only_zero⟩ := toDigits_eq_cons n
    rw [readWhole, readDigits_append delimited Nat.toDigits_ne_nil
      fun c mem => Nat.isDigit_of_mem_toDigits (by omega) (by omega) mem]
    -- a zero in front would be read alone
    intro tail same
    rw [front] at same
    exact zero (only_zero (List.cons.inj same).1)

theorem readFraction_delimited : readFraction rest = some ([], rest) := by
  rw [readFraction]
  rintro tail rfl
  exact (delimited '.' rfl).2.1 rfl

theorem readExponent_delimited : readExponent rest = some (none, rest) := by
  rw [readExponent]
  · rintro tail rfl
    exact (delimited 'e' rfl).2.2.1 rfl
  · rintro tail rfl
    exact (delimited 'E' rfl).2.2.2 rfl

theorem readNumber_toDigits (n : Nat) :
    readNumber (Nat.toDigits 10 n ++ rest) = some (.ofNat n, rest) := by
  obtain ⟨c, cs, front, digit, -⟩ := toDigits_eq_cons n
  rw [readNumber, readUnsigned, readWhole_toDigits delimited]
  · simp only [Option.bind_eq_bind, Option.bind_some, readFraction_delimited delimited,
      readExponent_delimited delimited]
    rfl
  · intro tail same
    rw [front] at same
    rw [(List.cons.inj same).1] at digit
    exact absurd digit (by decide)

end Delimited

/-- A token that starts with a digit is a number. -/
theorem Token.read?_toDigits {rest : List Char} (delimited : Delimited rest) (n : Nat) :
    Token.read? (Nat.toDigits 10 n ++ rest) = some (.literal (.ofNat n), rest) := by
  have number := readNumber_toDigits delimited n
  obtain ⟨c, cs, front, digit, -⟩ := toDigits_eq_cons n
  rw [front, List.cons_append] at number ⊢
  have other : ∀ mark, mark.isDigit = false → ∀ tail, c :: (cs ++ rest) = mark :: tail → False := by
    intro mark no_digit tail same
    rw [(List.cons.inj same).1, no_digit] at digit
    cases digit
  rw [Token.read?, number]
  · rfl
  all_goals exact other _ (by decide)

theorem NumberLiteral.natural?_ofNat {n : Nat} (small : n < addressSpace) :
    (ofNat n).natural? = some n := by
  have value : digitsValue (Nat.toDigits 10 n) = n := Nat.ofDigitChars_ten_toDigits
  rw [natural?, ofNat, value, if_pos ⟨rfl, rfl, rfl, small⟩]

/-! ## Values -/

/-- A state in which a value may stand, inside the frames of `stack`. -/
def ParserState.Awaits (state : ParserState) (stack : List Frame) : Prop :=
  ∀ token next, ParserState.stepValue stack token = some next → state.step token = some next

theorem ParserState.beforeValue_awaits (stack : List Frame) : (beforeValue stack).Awaits stack :=
  fun _ _ step => step

/-- An array that was just opened may go on with its first item. -/
theorem ParserState.arrayStart_awaits (stack : List Frame) :
    (arrayStart stack).Awaits (.item [] :: stack) := by
  intro token next step
  cases token with
  | arrayClose => cases step
  | _ => exact step

/-- The written form of a value is read as this value, wherever a value may stand. -/
def Reads (value : Json) : Prop :=
  ∀ ⦃state stack⦄, ParserState.Awaits state stack → ∀ ⦃rest⦄, Delimited rest →
    run state (compactChars value ++ rest) = run (.complete value stack) rest

theorem run_cons {state : ParserState} {c : Char} {cs rest : List Char} {token : Token}
    (next : ParserState) (solid : isBlank c = false)
    (read : Token.read? (c :: cs) = some (token, rest)) (step : state.step token = some next) :
    run state (c :: cs) = run next rest := by
  refine run_token ?_ read step
  rw [List.dropWhile_cons, solid]
  rfl

theorem run_quoted {state next : ParserState} {text : String} {rest : List Char}
    (step : state.step (.text (some text)) = some next) :
    run state (quoted text ++ rest) = run next rest := by
  have read := Token.read?_quoted text rest
  rw [quoted, List.cons_append, List.cons_append] at read ⊢
  exact run_cons _ (by decide) read step

theorem compactChars_ofText (text : String) : compactChars (ofText text) = quoted text :=
  rfl

theorem reads_ofText (text : String) : Reads (ofText text) := by
  intro state stack awaits rest _
  rw [compactChars_ofText]
  exact run_quoted (awaits _ _ rfl)

theorem compactChars_ofNat (n : Nat) : compactChars (ofNat n) = Nat.toDigits 10 n := by
  show (NumberLiteral.ofNat n).chars = Nat.toDigits 10 n
  simp [NumberLiteral.chars, NumberLiteral.ofNat, NumberLiteral.exponentChars]

theorem reads_ofNat (n : Nat) : Reads (ofNat n) := by
  intro state stack awaits rest delimited
  have read := Token.read?_toDigits delimited n
  obtain ⟨c, cs, front, digit, -⟩ := toDigits_eq_cons n
  have solid : isBlank c = false := by
    cases blank : isBlank c with
    | false => rfl
    | true =>
      simp only [isBlank, Bool.or_eq_true, beq_iff_eq] at blank
      rcases blank with ((rfl | rfl) | rfl) | rfl <;> cases digit
  rw [compactChars_ofNat]
  rw [front, List.cons_append] at read ⊢
  exact run_cons _ solid read (awaits _ _ rfl)

/-- What follows an item of an array does not carry it on. -/
theorem delimited_compactItems (items : List Json) (rest : List Char) :
    Delimited (compactItems items ++ rest) := by
  cases items with
  | nil => exact delimited_cons (by simp) _
  | cons item items => exact delimited_cons (by simp) _

/-- What follows a field of an object does not carry it on. -/
theorem delimited_compactFields (fields : List (Option String × Json)) (rest : List Char) :
    Delimited (compactFields fields ++ rest) := by
  cases fields with
  | nil => exact delimited_cons (by simp) _
  | cons field fields => exact delimited_cons (by simp) _

/-- The rest of an array after a complete item. -/
theorem run_compactItems {items : List Json} (reads : ∀ item ∈ items, Reads item)
    (value : Json) (before : List Json) (stack : List Frame) (rest : List Char) :
    run (.complete value (.item before :: stack)) (compactItems items ++ rest) =
      run (.complete (.array ((value :: before).reverse ++ items)) stack) rest := by
  induction items generalizing value before with
  | nil =>
      rw [List.append_nil]
      exact run_cons _ (by decide) rfl rfl
  | cons item items ih =>
      obtain ⟨first, others⟩ := List.forall_mem_cons.1 reads
      calc
        run (.complete value (.item before :: stack)) (compactItems (item :: items) ++ rest)
        _ = run (.beforeValue (.item (value :: before) :: stack))
              (compactChars item ++ (compactItems items ++ rest)) := by
          rw [compactItems, List.cons_append, List.cons_append, List.append_assoc]
          exact run_cons _ (by decide) rfl rfl
        _ = run (.complete item (.item (value :: before) :: stack))
              (compactItems items ++ rest) :=
          first (ParserState.beforeValue_awaits _) (delimited_compactItems items rest)
        _ = run (.complete (.array ((value :: before).reverse ++ item :: items)) stack) rest := by
          rw [ih others, List.reverse_cons, List.append_assoc, List.singleton_append]

theorem textChars_some (text : String) : textChars (some text) = quoted text :=
  rfl

/-- A field where a key may stand. -/
theorem run_field {state : ParserState} {before : List (Option String × Json)}
    {stack : List Frame} {key : String} {value : Json} {rest : List Char}
    (step : state.step (.text (some key)) = some (.beforeColon before (some key) stack))
    (reads : Reads value) (delimited : Delimited rest) :
    run state (quoted key ++ (':' :: (compactChars value ++ rest))) =
      run (.complete value (.field before (some key) :: stack)) rest := by
  have colon : run (.beforeColon before (some key) stack) (':' :: (compactChars value ++ rest)) =
      run (.beforeValue (.field before (some key) :: stack)) (compactChars value ++ rest) :=
    run_cons _ (by decide) rfl rfl
  rw [run_quoted step, colon]
  exact reads (ParserState.beforeValue_awaits _) delimited

/-- The rest of an object after a complete value. -/
theorem run_compactFields {fields : List (String × Json)}
    (reads : ∀ field ∈ fields, Reads field.2) (key : Option String) (value : Json)
    (before : List (Option String × Json)) (stack : List Frame) (rest : List Char) :
    run (.complete value (.field before key :: stack))
        (compactFields (fields.map fun field => (some field.1, field.2)) ++ rest) =
      run (.complete (.object (((key, value) :: before).reverse ++
        fields.map fun field => (some field.1, field.2))) stack) rest := by
  induction fields generalizing key value before with
  | nil =>
      rw [List.map_nil, List.append_nil]
      exact run_cons _ (by decide) rfl rfl
  | cons field fields ih =>
      obtain ⟨first, others⟩ := List.forall_mem_cons.1 reads
      rw [List.map_cons, compactFields, textChars_some]
      simp only [List.cons_append, List.append_assoc]
      rw [run_cons (.beforeKey ((key, value) :: before) stack) (by decide) rfl rfl,
        run_field rfl first (delimited_compactFields _ rest), ih others]
      rw [List.reverse_cons, List.append_assoc, List.singleton_append]

theorem reads_array {items : List Json} (reads : ∀ item ∈ items, Reads item) :
    Reads (.array items) := by
  intro state stack awaits rest _
  cases items with
  | nil =>
      rw [compactChars]
      refine (run_cons (.arrayStart stack) (by decide) rfl (awaits _ _ rfl)).trans ?_
      exact run_cons _ (by decide) rfl rfl
  | cons item items =>
      obtain ⟨first, others⟩ := List.forall_mem_cons.1 reads
      rw [compactChars, List.cons_append, List.cons_append, List.append_assoc]
      refine (run_cons (.arrayStart stack) (by decide) rfl (awaits _ _ rfl)).trans ?_
      rw [first (ParserState.arrayStart_awaits _) (delimited_compactItems items rest),
        run_compactItems others]
      rfl

theorem reads_ofFields {fields : List (String × Json)} (reads : ∀ field ∈ fields, Reads field.2) :
    Reads (ofFields fields) := by
  intro state stack awaits rest _
  rw [ofFields]
  cases fields with
  | nil =>
      rw [List.map_nil, compactChars]
      refine (run_cons (.objectStart stack) (by decide) rfl (awaits _ _ rfl)).trans ?_
      exact run_cons _ (by decide) rfl rfl
  | cons field fields =>
      obtain ⟨first, others⟩ := List.forall_mem_cons.1 reads
      rw [List.map_cons, compactChars, textChars_some]
      simp only [List.cons_append, List.append_assoc]
      rw [run_cons (.objectStart stack) (by decide) rfl (awaits _ _ rfl),
        run_field rfl first (delimited_compactFields _ rest), run_compactFields others]
      rfl

/-- A document is read as the value that was written. -/
theorem Reads.parse?_compact {value : Json} (reads : Reads value) :
    parse? value.compact = some value := by
  have whole := reads (ParserState.beforeValue_awaits []) delimited_nil
  rw [List.append_nil] at whole
  rw [parse?, compact, String.toList_ofList, whole, run_end rfl]
  rfl

end StringSlots.Json
