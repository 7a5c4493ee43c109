/-!
# Slot widths

A string slot is one machine word of four or eight bytes. `SlotWidth.maxHandle` is the largest
number that a slot of that width can hold; `bytes_pow` and `maxHandle_succ` tie it to the number of
bytes and of bits.
-/

namespace StringSlots

/-- The two widths of a string slot. -/
inductive SlotWidth where
  | w32
  | w64
  deriving DecidableEq

namespace SlotWidth

/-- The width of a machine word of the platform that the records belong to. -/
def native : SlotWidth := .w64

/-- Bytes of one slot. -/
def bytes : SlotWidth → Nat
  | .w32 => 4
  | .w64 => 8

/-- The largest number that fits a slot. -/
def maxHandle : SlotWidth → Nat
  | .w32 => 0xffff_ffff
  | .w64 => 0xffff_ffff_ffff_ffff

/-- The name of a width in stored descriptions. -/
def name : SlotWidth → String
  | .w32 => "w32"
  | .w64 => "w64"

/-- The width of a given name. -/
def ofName? : String → Option SlotWidth
  | "w32" => some .w32
  | "w64" => some .w64
  | _ => none

theorem bytes_eq_or (width : SlotWidth) : width.bytes = 4 ∨ width.bytes = 8 := by
  cases width with
  | w32 => exact Or.inl rfl
  | w64 => exact Or.inr rfl

theorem bytes_pos (width : SlotWidth) : 0 < width.bytes := by
  cases width <;> decide

/-- A slot holds exactly the numbers up to `maxHandle`. -/
theorem bytes_pow (width : SlotWidth) : Nat.pow 256 width.bytes = width.maxHandle + 1 := by
  cases width <;> rfl

/-- These are the numbers of its bits. -/
theorem maxHandle_succ (width : SlotWidth) :
    width.maxHandle + 1 = Nat.pow 2 (8 * width.bytes) := by
  cases width <;> rfl

theorem ofName?_name (width : SlotWidth) : ofName? width.name = some width := by
  cases width <;> rfl

end SlotWidth

end StringSlots
