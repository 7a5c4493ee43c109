/-!
# Bisection

In an array whose leading entries lie below a mark and whose other entries do not, the number of
leading entries is found by halving the part still in doubt.
-/

namespace StringSlots

/-- The place between `low` and `high` where the entries stop to lie below. -/
def bisect {α : Type} (below : α → Bool) (entries : Array α) (low high : Nat) : Nat :=
  if low < high then
    let middle := low + (high - low) / 2
    match entries[middle]? with
    | some entry =>
        if below entry then bisect below entries (middle + 1) high
        else bisect below entries low middle
    | none => bisect below entries low middle
  else low
termination_by high - low

/-- The number of leading entries that lie below. -/
def partitionPoint {α : Type} (below : α → Bool) (entries : Array α) : Nat :=
  bisect below entries 0 entries.size

end StringSlots
