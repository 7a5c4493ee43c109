import StringSlots.Json.Text

/-!
# Written numbers

The digits of a number are those of its quotient by the base, with one more behind them
(`toDigits_induction`). From this follow what a decimal number starts with, that a hexadecimal
number is read back as itself (`hexNumber_toDigits`), and that it ends before a closing brace.
-/

namespace StringSlots

/-- Induction on a number as it is written: a digit, or a shorter number with a digit behind it. -/
theorem toDigits_induction {base : Nat} (large : 1 < base) {motive : Nat → List Char → Prop}
    (digit : ∀ n < base, motive n [Nat.digitChar n])
    (more : ∀ n, base ≤ n → motive (n / base) (Nat.toDigits base (n / base)) →
      motive n (Nat.toDigits base (n / base) ++ [Nat.digitChar (n % base)])) (n : Nat) :
    motive n (Nat.toDigits base n) := by
  induction n using Nat.strongRecOn with
  | ind n ih =>
      by_cases single : n < base
      · rw [Nat.toDigits_of_lt_base single]
        exact digit n single
      · have above := Nat.le_of_not_lt single
        rw [Nat.toDigits_of_base_le large above]
        exact more n above (ih (n / base) (Nat.div_lt_self (by omega) large))

/-- A number starts with a digit, and only zero with a zero. -/
theorem toDigits_eq_cons (n : Nat) :
    ∃ c cs, Nat.toDigits 10 n = c :: cs ∧ c.isDigit = true ∧ (c = '0' → n = 0) := by
  refine toDigits_induction (by decide)
    (motive := fun n digits => ∃ c cs, digits = c :: cs ∧ c.isDigit = true ∧ (c = '0' → n = 0))
    ?_ ?_ n
  · intro n single
    refine ⟨_, [], rfl, ?_, Nat.digitChar_eq_zero.1⟩
    rw [Nat.isDigit_digitChar, decide_eq_true single]
  · rintro n above ⟨c, cs, front, digit, zero⟩
    refine ⟨c, cs ++ [Nat.digitChar (n % 10)], ?_, digit, ?_⟩
    · rw [front, List.cons_append]
    · intro same
      have := zero same
      omega

/-! ## Hexadecimal numbers -/

/-- The number of hexadecimal digits. -/
def hexNumber (digits : List Char) : Nat :=
  digits.foldl (fun number digit => number * 16 + (Json.hexDigit? digit).getD 0) 0

theorem hexDigit?_digitChar {n : Nat} (single : n < 16) :
    Json.hexDigit? (Nat.digitChar n) = some n := by
  have digits : ∀ n < 16, Json.hexDigit? (Nat.digitChar n) = some n := by decide
  exact digits n single

theorem hexNumber_toDigits (n : Nat) : hexNumber (Nat.toDigits 16 n) = n := by
  refine toDigits_induction (by decide) (motive := fun n digits => hexNumber digits = n) ?_ ?_ n
  · intro n single
    rw [hexNumber, List.foldl_cons, List.foldl_nil, hexDigit?_digitChar single, Option.getD_some,
      Nat.zero_mul, Nat.zero_add]
  · intro n _ front
    rw [hexNumber] at front ⊢
    rw [List.foldl_append, front, List.foldl_cons, List.foldl_nil,
      hexDigit?_digitChar (Nat.mod_lt n (by decide)), Option.getD_some, Nat.div_add_mod']

theorem ne_brace_of_mem_toDigits {n : Nat} {c : Char} (mem : c ∈ Nat.toDigits 16 n) : c ≠ '}' := by
  have marks : ∀ n < 16, Nat.digitChar n ≠ '}' := by decide
  have all : ∀ c ∈ Nat.toDigits 16 n, c ≠ '}' := by
    refine toDigits_induction (by decide) (motive := fun _ digits => ∀ c ∈ digits, c ≠ '}') ?_ ?_ n
    · intro n single
      exact List.forall_mem_singleton.2 (marks n single)
    · intro n _ front
      exact List.forall_mem_append.2
        ⟨front, List.forall_mem_singleton.2 (marks _ (Nat.mod_lt n (by decide)))⟩
  exact all c mem

end StringSlots
