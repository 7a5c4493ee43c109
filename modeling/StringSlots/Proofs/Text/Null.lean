import Mathlib.Data.List.Basic
import StringSlots.Arena

/-!
# U+0000 in texts

Only U+0000 has a zero among its UTF-8 bytes (`zero_mem_utf8EncodeChar_iff`). So the bytes of a text
hold no NUL when the text has no U+0000 (`Arena.nulPosition?_eq_none_iff`), and the first NUL comes
after the bytes of the characters before the first U+0000 (`Arena.nulPosition?_of_first`).
-/

namespace StringSlots

theorem utf8_eq_flatMap (text : String) :
    utf8 text = text.toList.flatMap String.utf8EncodeChar := by
  rw [utf8, ← String.utf8Encode_toList, List.utf8Encode, List.data_toByteArray]

theorem zero_ne_ofNat {n : Nat} (pos : 0 < n) (small : n < 256) : (0 : UInt8) ≠ UInt8.ofNat n := by
  rw [Ne, ← UInt8.toNat_inj, UInt8.toNat_ofNat']
  show ¬0 = n % 256
  omega

/-- Only U+0000 has a zero in its UTF-8 form. -/
theorem zero_mem_utf8EncodeChar_iff {c : Char} : 0 ∈ String.utf8EncodeChar c ↔ c = '\x00' := by
  have null : c = '\x00' ↔ c.val.toNat = 0 := by
    rw [← Char.toNat_inj]
    rfl
  rw [null, String.utf8EncodeChar]
  split
  · rw [List.mem_singleton, ← UInt8.toNat_inj, UInt8.toNat_ofNat']
    show 0 = c.val.toNat % 256 ↔ _
    omega
  · -- the bytes of a longer form are marked by their leading bits
    refine iff_of_false ?_ (by omega)
    split <;> [skip; split] <;>
    · simp only [List.mem_cons, List.not_mem_nil, or_false, not_or]
      repeat' constructor
      all_goals apply zero_ne_ofNat <;> omega

namespace Arena

theorem nulPosition?_eq_none_iff {text : String} :
    nulPosition? text = none ↔ '\x00' ∉ text.toList := by
  rw [nulPosition?, List.findIdx?_eq_none_iff, utf8_eq_flatMap]
  constructor
  · intro clean nul
    have zero := List.mem_flatMap_of_mem nul (zero_mem_utf8EncodeChar_iff.2 rfl)
    have absent := clean 0 zero
    cases absent
  · intro clean byte mem
    obtain ⟨c, c_mem, byte_mem⟩ := List.mem_flatMap.1 mem
    rw [beq_eq_false_iff_ne]
    rintro rfl
    rw [zero_mem_utf8EncodeChar_iff.1 byte_mem] at c_mem
    exact clean c_mem

/-- The first NUL comes after the bytes of the characters before the first U+0000. -/
theorem nulPosition?_of_first {text : String} {before after : List Char}
    (split : text.toList = before ++ '\x00' :: after) (first : '\x00' ∉ before) :
    nulPosition? text = some (utf8 (String.ofList before)).length := by
  have none_before : nulPosition? (String.ofList before) = none := by
    rwa [nulPosition?_eq_none_iff, String.toList_ofList]
  have bytes : utf8 text =
      utf8 (String.ofList before) ++ 0 :: after.flatMap String.utf8EncodeChar := by
    rw [utf8_eq_flatMap, utf8_eq_flatMap, split, String.toList_ofList, List.flatMap_append,
      List.flatMap_cons]
    rfl
  rw [nulPosition?] at none_before ⊢
  rw [bytes, List.findIdx?_append, none_before, List.findIdx?_cons]
  simp

end Arena

end StringSlots
