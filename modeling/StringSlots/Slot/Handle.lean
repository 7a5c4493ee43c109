import Std.Data.TreeMap

/-!
# Handles

A handle is the positive number by which a slot refers to a stored string. Zero is the null marker
of a slot, so reading a raw slot value is `Handle.ofNat?`.
-/

namespace StringSlots

/-- Positive numbers that name stored strings. -/
structure Handle where
  value : Nat
  pos : 0 < value
  deriving DecidableEq

namespace Handle

/-- The handle of a raw slot value; the null marker names nothing. -/
def ofNat? (raw : Nat) : Option Handle :=
  if pos : 0 < raw then some ⟨raw, pos⟩ else none

/-- The raw slot value of a handle or of the null marker. -/
def raw : Option Handle → Nat
  | none => 0
  | some handle => handle.value

/-- The hexadecimal text of a slot value in messages. -/
def hexText (raw : Nat) : String :=
  "0x" ++ String.ofList (Nat.toDigits 16 raw)

/-- The order of slot values: the null marker first, then handles by number. -/
def precedes (a b : Option Handle) : Bool :=
  decide (raw a < raw b)

/-- Handles are ordered by number. -/
instance : Ord Handle where
  compare a b := compare a.value b.value

theorem compare_eq_iff {a b : Handle} : compare a b = .eq ↔ a = b := by
  show compare a.value b.value = .eq ↔ a = b
  rw [Nat.compare_eq_eq]
  cases a
  cases b
  simp

theorem isLE_compare_iff {a b : Handle} : (compare a b).isLE ↔ a.value ≤ b.value :=
  Nat.isLE_compare

instance : Std.TransOrd Handle where
  eq_swap {a b} := (Std.OrientedCmp.eq_swap : compare a.value b.value = _)
  isLE_trans ab bc :=
    isLE_compare_iff.2 (Nat.le_trans (isLE_compare_iff.1 ab) (isLE_compare_iff.1 bc))

instance : Std.LawfulEqOrd Handle where
  eq_of_compare := compare_eq_iff.1

theorem ofNat?_raw (handle : Option Handle) : ofNat? (raw handle) = handle := by
  cases handle with
  | none => rfl
  | some handle => simp [ofNat?, raw, handle.pos]

theorem raw_ofNat? (n : Nat) : raw (ofNat? n) = n := by
  by_cases pos : 0 < n
  · simp [ofNat?, raw, pos]
  · have zero : n = 0 := by omega
    subst zero
    rfl

end Handle

end StringSlots
