import StringSlots.Bisect
import StringSlots.Text.Utf8

/-!
# Index of names by hash

An index holds, for a list of names, the pairs of a name's hash and its position, in ascending
order. The positions whose name has a given hash form one run of the pairs; the start of the run is
found by bisection. Distinct names may share a hash, so the positions are candidates, and the
caller compares names. Any hash function will do; `nameHash` is the one in use.
-/

namespace StringSlots

/-- The 64-bit FNV-1a hash of the UTF-8 bytes of a name. -/
def nameHash (name : String) : UInt64 :=
  (utf8 name).foldl (fun hash byte => (hash ^^^ byte.toUInt64) * 0x100000001b3)
    0xcbf29ce484222325

/-- Pairs of hash and position in ascending order, with the hash function that made them. -/
structure NameIndex where
  hash : String → UInt64
  entries : Array (UInt64 × Nat)

namespace NameIndex

/-- The order of pairs: by hash, then by position. -/
def entryLe (a b : UInt64 × Nat) : Bool :=
  decide (a.1 < b.1) || (a.1 == b.1 && decide (a.2 ≤ b.2))

/-- The index of a list of names. -/
def ofNames (hash : String → UInt64) (names : List String) : NameIndex :=
  { hash, entries := ((names.map hash).zipIdx.mergeSort entryLe).toArray }

/-- The positions of the names that share the hash of `name`, in ascending order. -/
def candidates (index : NameIndex) (name : String) : List Nat :=
  let hash := index.hash name
  let first := partitionPoint (fun entry => decide (entry.1 < hash)) index.entries
  ((index.entries.toList.drop first).takeWhile fun entry => entry.1 == hash).map (·.2)

end NameIndex

end StringSlots
