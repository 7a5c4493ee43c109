import StringSlots.Proofs.Text.Digits
import StringSlots.Text.Quoted

/-!
# Quoted texts are one-to-one

`readShown` reads back the character that is shown first between quotes, whatever follows it
(`readShown_shownChar`): a backslash starts every escape and nothing else, and an escape by a number
goes up to its brace. So where two quoted texts stand in front of anything, equal characters mean
equal texts and equal rests (`shownText_append_inj`), and what is shown for a text that may be
absent is shown for no other (`shownOption_injective`).
-/

namespace StringSlots

/-! ## Reading back -/

/-- The character of an escape of one letter. -/
def shownLetter? : Char → Option Char
  | '"' => some '"'
  | '\\' => some '\\'
  | 'n' => some '\n'
  | 'r' => some '\r'
  | 't' => some '\t'
  | '0' => some '\x00'
  | _ => none

/-- The character that is shown first between quotes, and what follows it; `none` at the closing
quote. -/
def readShown : List Char → Option (Char × List Char)
  | [] => none
  | '"' :: _ => none
  | '\\' :: 'u' :: '{' :: rest =>
      some (Char.ofNat (hexNumber (rest.takeWhile (· ≠ '}'))), (rest.dropWhile (· ≠ '}')).tail)
  | '\\' :: letter :: rest => (shownLetter? letter).map (·, rest)
  | c :: rest => some (c, rest)

/-- A shown character is read back. -/
theorem readShown_shownChar (c : Char) (rest : List Char) :
    readShown (shownChar c ++ rest) = some (c, rest) := by
  by_cases letter : c ∈ ['"', '\\', '\n', '\r', '\t', '\x00']
  · simp only [List.mem_cons, List.not_mem_nil, or_false] at letter
    rcases letter with rfl | rfl | rfl | rfl | rfl | rfl <;> rfl
  · simp only [List.mem_cons, List.not_mem_nil, or_false, not_or] at letter
    obtain ⟨quote, backslash, line, carriage, tab, null⟩ := letter
    rw [shownChar, if_neg quote, if_neg backslash, if_neg line, if_neg carriage, if_neg tab,
      if_neg null]
    by_cases unprintable : isUnprintable c
    · rw [if_pos unprintable]
      have number : ∀ digit ∈ Nat.toDigits 16 c.toNat, decide (digit ≠ '}') = true :=
        fun digit mem => decide_eq_true (ne_brace_of_mem_toDigits mem)
      simp only [List.cons_append, List.nil_append, List.append_assoc, readShown]
      rw [List.takeWhile_append_of_pos number, List.dropWhile_append_of_pos number,
        List.takeWhile_cons_of_neg (by decide), List.dropWhile_cons_of_neg (by decide),
        List.append_nil, hexNumber_toDigits, Char.ofNat_toNat, List.tail_cons]
    · rw [if_neg unprintable, List.singleton_append, readShown]
      · exact quote
      · exact fun _ same => absurd same backslash
      · exact fun _ _ same => absurd same backslash

/-! ## One text for one quotation -/

/-- Characters between quotes end at the closing quote, and no others are shown alike. -/
theorem flatMap_shownChar_inj {cs ds x y : List Char}
    (same : cs.flatMap shownChar ++ '"' :: x = ds.flatMap shownChar ++ '"' :: y) :
    cs = ds ∧ x = y := by
  induction cs generalizing ds with
  | nil =>
      cases ds with
      | nil => exact ⟨rfl, (List.cons.inj same).2⟩
      | cons d ds =>
          have read := congrArg readShown same
          rw [List.flatMap_cons, List.append_assoc, readShown_shownChar] at read
          cases read
  | cons c cs ih =>
      have read := congrArg readShown same
      rw [List.flatMap_cons, List.append_assoc, readShown_shownChar] at read
      cases ds with
      | nil => cases read
      | cons d ds =>
          rw [List.flatMap_cons, List.append_assoc, readShown_shownChar, Option.some.injEq,
            Prod.mk.injEq] at read
          obtain ⟨rfl, rest⟩ := read
          obtain ⟨rfl, tail⟩ := ih rest
          exact ⟨rfl, tail⟩

theorem shownText_append_inj {text other x y : String}
    (same : shownText text ++ x = shownText other ++ y) : text = other ∧ x = y := by
  have chars := congrArg String.toList same
  simp only [shownText, String.toList_append, String.toList_ofList, List.cons_append,
    List.append_assoc, List.cons.injEq, true_and] at chars
  obtain ⟨texts, rests⟩ := flatMap_shownChar_inj chars
  exact ⟨String.toList_inj.1 texts, String.toList_inj.1 rests⟩

theorem shownOption_append_inj {text? other? : Option String} {x y : String}
    (same : shownOption text? ++ x = shownOption other? ++ y) : text? = other? ∧ x = y := by
  have apart : ∀ x y : String, "None" ++ x ≠ "Some(" ++ y := by
    intro x y same
    have chars := congrArg String.toList same
    simp at chars
  cases text? with
  | none =>
      cases other? with
      | none => exact ⟨rfl, (String.append_right_inj "None").1 same⟩
      | some other =>
          rw [shownOption, shownOption, String.append_assoc, String.append_assoc] at same
          exact absurd same (apart _ _)
  | some text =>
      cases other? with
      | none =>
          rw [shownOption, shownOption, String.append_assoc, String.append_assoc] at same
          exact absurd same.symm (apart _ _)
      | some other =>
          simp only [shownOption, String.append_assoc, String.append_right_inj] at same
          obtain ⟨rfl, rests⟩ := shownText_append_inj same
          exact ⟨rfl, (String.append_right_inj ")").1 rests⟩

/-- What is shown for a text that may be absent is shown for no other. -/
theorem shownOption_injective : Function.Injective shownOption := by
  intro text? other? same
  exact (shownOption_append_inj (congrArg (· ++ "") same)).1

end StringSlots
