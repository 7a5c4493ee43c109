import StringSlots.Bytes

/-!
# Number literals of JSON

A number literal is kept as it is written: sign, digits before and after the point, exponent. It
stands for a machine natural only when it is a plain run of digits below `2 ^ 64`
(`NumberLiteral.natural?`). Where a number is kept as a double it must not exceed the doubles
(`NumberLiteral.isFinite`); that is decided on the value a reader forms, with at most 64 bits of
digits and one rounded product.
-/

namespace StringSlots.Json

/-- A number as it is written. -/
structure NumberLiteral where
  negative : Bool
  whole : List Char
  fraction : List Char
  exponent : Option Int
  deriving DecidableEq

/-- The number of decimal digits. -/
def digitsValue (digits : List Char) : Nat :=
  Nat.ofDigitChars 10 digits 0

/-- The digits at the front, at least one, and what follows them. -/
def readDigits (cs : List Char) : Option (List Char × List Char) :=
  match cs.takeWhile Char.isDigit with
  | [] => none
  | digits => some (digits, cs.dropWhile Char.isDigit)

/-- The digits before the point: a zero alone, or digits that do not start with zero. -/
def readWhole : List Char → Option (List Char × List Char)
  | '0' :: rest => some (['0'], rest)
  | cs => readDigits cs

/-- The digits after the point, none without a point. -/
def readFraction : List Char → Option (List Char × List Char)
  | '.' :: rest => readDigits rest
  | cs => some ([], cs)

/-- The digits of an exponent under its sign. -/
def readSigned : List Char → Option (Int × List Char)
  | '-' :: rest => (readDigits rest).map fun read => (-(digitsValue read.1 : Int), read.2)
  | '+' :: rest => (readDigits rest).map fun read => (digitsValue read.1, read.2)
  | cs => (readDigits cs).map fun read => (digitsValue read.1, read.2)

/-- The exponent, if there is one. -/
def readExponent : List Char → Option (Option Int × List Char)
  | 'e' :: rest => (readSigned rest).map fun read => (some read.1, read.2)
  | 'E' :: rest => (readSigned rest).map fun read => (some read.1, read.2)
  | cs => some (none, cs)

/-- The literal after its sign. -/
def readUnsigned (negative : Bool) (cs : List Char) : Option (NumberLiteral × List Char) := do
  let (whole, cs) ← readWhole cs
  let (fraction, cs) ← readFraction cs
  let (exponent, cs) ← readExponent cs
  some ({ negative, whole, fraction, exponent }, cs)

/-- The number literal at the front, and what follows it. -/
def readNumber : List Char → Option (NumberLiteral × List Char)
  | '-' :: rest => readUnsigned true rest
  | cs => readUnsigned false cs

namespace NumberLiteral

/-- The literal of a natural number. -/
def ofNat (n : Nat) : NumberLiteral :=
  { negative := false, whole := Nat.toDigits 10 n, fraction := [], exponent := none }

/-- The characters of an exponent. -/
def exponentChars : Option Int → List Char
  | none => []
  | some (.ofNat n) => 'e' :: Nat.toDigits 10 n
  | some (.negSucc n) => 'e' :: '-' :: Nat.toDigits 10 (n + 1)

/-- The characters of a literal. -/
def chars (literal : NumberLiteral) : List Char :=
  (if literal.negative then ['-'] else []) ++ literal.whole ++
    (if literal.fraction = [] then [] else '.' :: literal.fraction) ++
    exponentChars literal.exponent

/-- The machine natural of a literal without sign, point and exponent. -/
def natural? (literal : NumberLiteral) : Option Nat :=
  if literal.negative = false ∧ literal.fraction = [] ∧ literal.exponent = none ∧
      digitsValue literal.whole < addressSpace then
    some (digitsValue literal.whole)
  else none

/-- Digits taken into a 64-bit number for as long as they fit, and how many did not. -/
def absorb (significand : Nat) : List Char → Nat × Nat
  | [] => (significand, 0)
  | digit :: rest =>
      let next := digitsValue [digit] + 10 * significand
      if next < addressSpace then absorb next rest else (significand, rest.length + 1)

/-- The natural number of at most 53 significant bits nearest to `n`, ties to the even one. -/
def round53 (n : Nat) : Nat :=
  if n < 0x20_0000_0000_0000 then n
  else
    let unit := 1 <<< (n.log2 - 52)
    let kept := n / unit
    let lost := n % unit
    let up := unit < 2 * lost || (unit == 2 * lost && kept % 2 == 1)
    (if up then kept + 1 else kept) * unit

/-- The least number that rounds to an infinite double. -/
def overflowBound : Nat := (1 <<< 1024) - (1 <<< 970)

/-- Whether the value of a literal stays inside the doubles. The significand takes the digits before
and then those after the point while they fit 64 bits; it is multiplied by the power of ten that
remains, both rounded to doubles. -/
def isFinite (literal : NumberLiteral) : Bool :=
  let (whole, unread) := absorb 0 literal.whole
  let (significand, ignored) := absorb whole literal.fraction
  let taken := literal.fraction.length - ignored
  let exponent : Int := (unread : Int) - taken + literal.exponent.getD 0
  if significand = 0 ∨ exponent < 0 then true
  else if 308 < exponent then false
  else decide (round53 significand * round53 (Nat.pow 10 exponent.toNat) < overflowBound)

end NumberLiteral

theorem length_of_readDigits {cs digits rest : List Char}
    (done : readDigits cs = some (digits, rest)) : rest.length < cs.length := by
  unfold readDigits at done
  split at done
  · simp at done
  · rename_i found nonempty
    simp only [Option.some.injEq, Prod.mk.injEq] at done
    have parts := congrArg List.length (@List.takeWhile_append_dropWhile Char Char.isDigit cs)
    have pos : 0 < (cs.takeWhile Char.isDigit).length := List.length_pos_iff.2 nonempty
    rw [List.length_append] at parts
    rw [← done.2]
    omega

theorem length_of_readWhole {cs digits rest : List Char}
    (done : readWhole cs = some (digits, rest)) : rest.length < cs.length := by
  unfold readWhole at done
  split at done
  · simp only [Option.some.injEq, Prod.mk.injEq] at done
    rw [← done.2, List.length_cons]
    omega
  · exact length_of_readDigits done

theorem length_of_readFraction {cs digits rest : List Char}
    (done : readFraction cs = some (digits, rest)) : rest.length ≤ cs.length := by
  unfold readFraction at done
  split at done
  · have := length_of_readDigits done
    rw [List.length_cons]
    omega
  · simp only [Option.some.injEq, Prod.mk.injEq] at done
    exact Nat.le_of_eq (congrArg List.length done.2.symm)

theorem length_of_readSigned {cs rest : List Char} {value : Int}
    (done : readSigned cs = some (value, rest)) : rest.length < cs.length := by
  unfold readSigned at done
  split at done <;>
    · obtain ⟨⟨digits, tail⟩, read, same⟩ := Option.map_eq_some_iff.1 done
      have := length_of_readDigits read
      rw [← (Prod.mk.inj same).2]
      simp only [List.length_cons] at *
      omega

theorem length_of_readExponent {cs rest : List Char} {value : Option Int}
    (done : readExponent cs = some (value, rest)) : rest.length ≤ cs.length := by
  unfold readExponent at done
  split at done
  · obtain ⟨⟨digits, tail⟩, read, same⟩ := Option.map_eq_some_iff.1 done
    have := length_of_readSigned read
    rw [← (Prod.mk.inj same).2]
    simp only [List.length_cons] at *
    omega
  · obtain ⟨⟨digits, tail⟩, read, same⟩ := Option.map_eq_some_iff.1 done
    have := length_of_readSigned read
    rw [← (Prod.mk.inj same).2]
    simp only [List.length_cons] at *
    omega
  · simp only [Option.some.injEq, Prod.mk.injEq] at done
    exact Nat.le_of_eq (congrArg List.length done.2.symm)

theorem length_of_readUnsigned {negative : Bool} {cs rest : List Char} {literal : NumberLiteral}
    (done : readUnsigned negative cs = some (literal, rest)) : rest.length < cs.length := by
  simp only [readUnsigned, bind, Option.bind_eq_some_iff, Prod.exists] at done
  obtain ⟨whole, afterWhole, readWhole, fraction, afterFraction, readFraction, exponent,
    afterExponent, readExponent, same⟩ := done
  have first := length_of_readWhole readWhole
  have second := length_of_readFraction readFraction
  have third := length_of_readExponent readExponent
  rw [← (Prod.mk.inj (Option.some.inj same)).2]
  omega

/-- What follows a number literal is shorter than what was read. -/
theorem length_of_readNumber {cs rest : List Char} {literal : NumberLiteral}
    (done : readNumber cs = some (literal, rest)) : rest.length < cs.length := by
  unfold readNumber at done
  split at done
  · have := length_of_readUnsigned done
    rw [List.length_cons]
    omega
  · exact length_of_readUnsigned done

end StringSlots.Json
