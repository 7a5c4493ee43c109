import StringSlots.Bytes

/-!
# UTF-8

`utf8` is the byte form of a text and `ofUtf8?` its reader, which refuses ill-formed bytes.
`ofUtf8?_utf8` and `utf8_of_ofUtf8?` say that the two are inverse, hence that distinct texts have
distinct bytes. `utf8Le` is the order of texts by their bytes; it is total, and of two distinct
texts one has the lesser bytes (`utf8_lt_of_utf8Le`).
-/

namespace StringSlots

/-- The UTF-8 bytes of a text. -/
def utf8 (text : String) : Bytes :=
  text.toByteArray.data.toList

/-- The text of well-formed UTF-8 bytes. -/
def ofUtf8? (bytes : Bytes) : Option String :=
  String.fromUTF8? ⟨bytes.toArray⟩

/-- Texts in lexicographic order of their UTF-8 bytes. -/
def utf8Le (a b : String) : Bool :=
  decide (utf8 a ≤ utf8 b)

/-- Writing and reading a text gives it back. -/
theorem ofUtf8?_utf8 (text : String) : ofUtf8? (utf8 text) = some text := by
  have valid : text.toByteArray.IsValidUTF8 := text.isValidUTF8
  simp [ofUtf8?, utf8, String.fromUTF8?, valid, String.fromUTF8]

/-- Bytes that read as a text are the bytes of that text. -/
theorem utf8_of_ofUtf8? {bytes : Bytes} {text : String} (read : ofUtf8? bytes = some text) :
    utf8 text = bytes := by
  unfold ofUtf8? String.fromUTF8? at read
  split at read
  · rw [← Option.some.inj read]
    simp [utf8, String.fromUTF8]
  · exact absurd read (by simp)

/-- Distinct texts have distinct bytes. -/
theorem utf8_inj {a b : String} : utf8 a = utf8 b ↔ a = b := by
  constructor
  · intro same
    exact Option.some.inj (by rw [← ofUtf8?_utf8 a, same, ofUtf8?_utf8])
  · exact fun same => same ▸ rfl

theorem utf8Le_trans {a b c : String} (ab : utf8Le a b = true) (bc : utf8Le b c = true) :
    utf8Le a c = true :=
  decide_eq_true (List.le_trans (of_decide_eq_true ab) (of_decide_eq_true bc))

theorem utf8Le_total (a b : String) : (utf8Le a b || utf8Le b a) = true := by
  rw [Bool.or_eq_true]
  exact (List.le_total (utf8 a) (utf8 b)).imp decide_eq_true decide_eq_true

theorem utf8Le_antisymm {a b : String} (ab : utf8Le a b = true) (ba : utf8Le b a = true) : a = b :=
  utf8_inj.1 (List.le_antisymm (of_decide_eq_true ab) (of_decide_eq_true ba))

theorem utf8Le_refl (a : String) : utf8Le a a = true := by
  rw [← Bool.or_self (utf8Le a a)]
  exact utf8Le_total a a

/-- Between distinct texts the order is strict. -/
theorem utf8_lt_of_utf8Le {a b : String} (le : utf8Le a b = true) (differ : a ≠ b) :
    utf8 a < utf8 b := by
  apply List.not_le.1
  intro above
  exact differ (utf8Le_antisymm le (decide_eq_true above))

end StringSlots
