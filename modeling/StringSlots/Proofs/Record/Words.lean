import StringSlots.Bytes
import StringSlots.Slot.Width

/-!
# Machine words

Positions are natural numbers here; on a machine they are words of 64 bits, whose sums and products
wrap around. `Word.checkedAdd` and `Word.checkedMul` notice this from the wrapped result alone, and
they answer exactly when the exact number is an address (`Word.map_toNat_checkedAdd`,
`Word.map_toNat_checkedMul`).
-/

namespace StringSlots

/-- A number, if it is an address. -/
def address? (n : Nat) : Option Nat :=
  if n < addressSpace then some n else none

theorem address?_of_lt {n : Nat} (small : n < addressSpace) : address? n = some n :=
  if_pos small

theorem address?_of_le {n : Nat} (large : addressSpace ≤ n) : address? n = none :=
  if_neg (Nat.not_lt.2 large)

namespace Word

/-- The sum of two words unless it wraps around; then it lies below what was added to. -/
def checkedAdd (a b : UInt64) : Option UInt64 :=
  if a ≤ a + b then some (a + b) else none

/-- The product of two words unless it wraps around; then the quotient is not the other factor. -/
def checkedMul (a b : UInt64) : Option UInt64 :=
  if b = 0 ∨ a * b / b = a then some (a * b) else none

theorem toNat_lt_addressSpace (a : UInt64) : a.toNat < addressSpace :=
  a.toNat_lt

theorem toNat_ofNat {n : Nat} (small : n < addressSpace) : (UInt64.ofNat n).toNat = n :=
  UInt64.toNat_ofNat_of_lt' small

/-- A sum that is an address does not wrap around. -/
theorem toNat_add {a b : UInt64} (small : a.toNat + b.toNat < addressSpace) :
    (a + b).toNat = a.toNat + b.toNat := by
  rw [UInt64.toNat_add]
  exact Nat.mod_eq_of_lt small

theorem toNat_add_ofNat {a : UInt64} {n : Nat} (small : a.toNat + n < addressSpace) :
    (a + .ofNat n).toNat = a.toNat + n := by
  have n_eq := toNat_ofNat (Nat.lt_of_le_of_lt (Nat.le_add_left n a.toNat) small)
  rw [← n_eq] at small
  rw [toNat_add small, n_eq]

/-- A product that is an address does not wrap around. -/
theorem toNat_mul {a b : UInt64} (small : a.toNat * b.toNat < addressSpace) :
    (a * b).toNat = a.toNat * b.toNat := by
  rw [UInt64.toNat_mul]
  exact Nat.mod_eq_of_lt small

theorem le_add_iff {a b : UInt64} : a ≤ a + b ↔ a.toNat + b.toNat < addressSpace := by
  -- a sum wraps around at most once, and then it lost more than was added
  have a_lt := toNat_lt_addressSpace a
  have b_lt := toNat_lt_addressSpace b
  rw [UInt64.le_iff_toNat_le, UInt64.toNat_add]
  unfold addressSpace at *
  omega

theorem mul_div_iff {a b : UInt64} :
    (b = 0 ∨ a * b / b = a) ↔ a.toNat * b.toNat < addressSpace := by
  by_cases zero : b = 0
  · simp [zero, addressSpace]
  · have pos : 0 < b.toNat := by
      rw [Nat.pos_iff_ne_zero, Ne, ← UInt64.toNat_zero, UInt64.toNat_inj]
      exact zero
    rw [or_iff_right zero, ← UInt64.toNat_inj, UInt64.toNat_div]
    constructor
    · intro quotient
      -- a product is at least the quotient times the divisor, and this word is below 2 ^ 64
      have multiple := Nat.div_mul_le_self (a * b).toNat b.toNat
      rw [quotient] at multiple
      exact Nat.lt_of_le_of_lt multiple (toNat_lt_addressSpace (a * b))
    · intro small
      rw [toNat_mul small, Nat.mul_div_cancel _ pos]

theorem map_toNat_checkedAdd (a b : UInt64) :
    (checkedAdd a b).map UInt64.toNat = address? (a.toNat + b.toNat) := by
  rw [checkedAdd]
  split
  · next fits =>
    have small := le_add_iff.1 fits
    rw [Option.map_some, toNat_add small, address?_of_lt small]
  · next wraps =>
    rw [Option.map_none, address?_of_le (Nat.not_lt.1 (mt le_add_iff.2 wraps))]

theorem map_toNat_checkedMul (a b : UInt64) :
    (checkedMul a b).map UInt64.toNat = address? (a.toNat * b.toNat) := by
  rw [checkedMul]
  split
  · next fits =>
    have small := mul_div_iff.1 fits
    rw [Option.map_some, toNat_mul small, address?_of_lt small]
  · next wraps =>
    rw [Option.map_none, address?_of_le (Nat.not_lt.1 (mt mul_div_iff.2 wraps))]

/-- A checked word is the exact number, or there is none and the number is no address. -/
theorem eq_some_or_none {checked : Option UInt64} {n : Nat}
    (answers : checked.map UInt64.toNat = address? n) :
    (∃ word, checked = some word ∧ word.toNat = n) ∨ checked = none ∧ addressSpace ≤ n := by
  rcases Nat.lt_or_ge n addressSpace with small | large
  · rw [address?_of_lt small] at answers
    exact Or.inl (Option.map_eq_some_iff.1 answers)
  · rw [address?_of_le large] at answers
    exact Or.inr ⟨Option.map_eq_none_iff.1 answers, large⟩

/-- A product and a sum, each checked, are the exact number when that is an address. -/
theorem map_toNat_checkedMul_bind_checkedAdd (a b c : UInt64) :
    ((checkedMul a b).bind (checkedAdd · c)).map UInt64.toNat =
      address? (a.toNat * b.toNat + c.toNat) := by
  rcases eq_some_or_none (map_toNat_checkedMul a b) with ⟨product, checked, exact_product⟩ |
    ⟨checked, large⟩
  · rw [checked, Option.bind_some, map_toNat_checkedAdd, exact_product]
  · -- the sum is no less than the product
    rw [checked, address?_of_le (Nat.le_trans large (Nat.le_add_right _ _))]
    rfl

end Word

theorem SlotWidth.toNat_ofNat_bytes (width : SlotWidth) :
    (UInt64.ofNat width.bytes).toNat = width.bytes := by
  cases width <;> rfl

/-- Whether a slot ends inside a buffer, decided in machine words. -/
def SlotWidth.fitsWords (width : SlotWidth) (position length : UInt64) : Bool :=
  (Word.checkedAdd position (.ofNat width.bytes)).any (· ≤ length)

theorem SlotWidth.fitsWords_iff {width : SlotWidth} {position length : UInt64} :
    width.fitsWords position length = true ↔
      position.toNat + width.bytes ≤ length.toNat := by
  have stop := Word.map_toNat_checkedAdd position (.ofNat width.bytes)
  rw [width.toNat_ofNat_bytes] at stop
  rw [fitsWords]
  rcases Word.eq_some_or_none stop with ⟨word, checked, word_eq⟩ | ⟨checked, large⟩
  · rw [checked, ← word_eq]
    simp [UInt64.le_iff_toNat_le]
  · -- an end that wraps around is behind every buffer
    have length_lt := Word.toNat_lt_addressSpace length
    rw [checked]
    simp only [Option.any_none, Bool.false_eq_true, false_iff]
    omega

end StringSlots
