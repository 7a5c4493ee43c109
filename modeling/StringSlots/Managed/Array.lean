/-!
# Managed arrays

A managed array belongs to a runtime on the other side of a boundary. Its contents, a buffer or a
list of numbers, may be touched only while it is pinned. Pinning can be refused, and fails for an
array that is pinned already; each attempt is counted, and so is each unpin.
-/

namespace StringSlots

/-- An array with its pin state and the counts of pin attempts and unpins. -/
structure ManagedArray (σ : Type) where
  contents : σ
  refuses : Bool
  pinned : Bool
  pinAttempts : Nat
  unpins : Nat
  deriving DecidableEq

namespace ManagedArray

variable {σ : Type}

/-- An array that was never pinned. -/
def new (contents : σ) (refuses : Bool) : ManagedArray σ :=
  { contents, refuses, pinned := false, pinAttempts := 0, unpins := 0 }

/-- Whether a pin attempt would succeed. -/
def pinnable (array : ManagedArray σ) : Bool :=
  !array.refuses && !array.pinned

/-- The answer to a pin attempt and the array after it. -/
def pin (array : ManagedArray σ) : Bool × ManagedArray σ :=
  (array.pinnable,
    { array with
      pinned := array.pinned || array.pinnable
      pinAttempts := array.pinAttempts + 1 })

/-- The array after its pin was given back. -/
def unpin (array : ManagedArray σ) : ManagedArray σ :=
  { array with pinned := false, unpins := array.unpins + 1 }

/-- Runs `body` on the contents while the array is pinned and gives the pin back; `none` when the
array cannot be pinned. -/
def withPin {β : Type} (array : ManagedArray σ) (body : σ → β × σ) :
    Option β × ManagedArray σ :=
  match array.pin with
  | (false, array) => (none, array)
  | (true, array) =>
      let (value, contents) := body array.contents
      (some value, { array with contents }.unpin)

/-- Element writes by index; an index beyond the end writes nothing. -/
def setAll {α : Type} (elements : List α) (writes : List (Nat × α)) : List α :=
  writes.foldl (fun elements write => elements.set write.1 write.2) elements

/-- Scoped access leaves the pin flag as it was. -/
theorem pinned_withPin {β : Type} (array : ManagedArray σ) (body : σ → β × σ) :
    (array.withPin body).2.pinned = array.pinned := by
  rcases array with ⟨contents, refuses, pinned, pinAttempts, unpins⟩
  cases refuses <;> cases pinned <;> rfl

end ManagedArray

end StringSlots
