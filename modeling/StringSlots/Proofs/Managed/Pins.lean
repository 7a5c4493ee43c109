import StringSlots.Proofs.Managed.Crossing

/-!
# Pins of one array

A `Touch` is what can happen to a managed array: a pin attempt, a pin given back, elements written.
`PermitsAll` says that pins are given back and elements are written only under a pin, and that no
write changes the length. `Balanced` is the invariant of such touches: the pins granted are those
given back and the one that is held (`Balanced.touchAll`).

`scope` lists the touches of scoped access. It is permitted, attempts one pin and leaves the flag as
it was.
-/

namespace StringSlots

namespace ManagedArray

/-- What can happen to an array. -/
inductive Touch (σ : Type) where
  | pin
  | unpin
  | write (contents : σ)

/-- What a caller does with an array by itself: one touch, or scoped access with a given effect on
the elements. A guard that outlives other actions is a pin, with its unpin later. -/
inductive Use (σ : Type) where
  | touch (touch : Touch σ)
  | guarded (body : σ → σ)

variable {σ β : Type}

/-- The array after a touch. -/
def touch (array : ManagedArray σ) : Touch σ → ManagedArray σ
  | .pin => array.pin.2
  | .unpin => array.unpin
  | .write contents => { array with contents }

/-- The array after a list of touches. -/
def touchAll (array : ManagedArray σ) (touches : List (Touch σ)) : ManagedArray σ :=
  touches.foldl touch array

/-- The number of pins that a touch is granted. -/
def granted (array : ManagedArray σ) : Touch σ → Nat
  | .pin => array.pin.1.toNat
  | .unpin => 0
  | .write _ => 0

/-- The number of pins that a list of touches is granted. -/
def grantedAll (array : ManagedArray σ) : List (Touch σ) → Nat
  | [] => 0
  | touch :: rest => array.granted touch + (array.touch touch).grantedAll rest

/-- The touches of scoped access that leaves the given contents: a pin, and when it is granted the
write and the unpin. -/
def scope (array : ManagedArray σ) (contents : σ) : List (Touch σ) :=
  if array.pinnable then [.pin, .write contents, .unpin] else [.pin]

/-- The array after a use. -/
def use (array : ManagedArray σ) : Use σ → ManagedArray σ
  | .touch touch => array.touch touch
  | .guarded body => (array.withPin fun contents => ((), body contents)).2

/-- The touches of a use. -/
def touches (array : ManagedArray σ) : Use σ → List (Touch σ)
  | .touch touch => [touch]
  | .guarded body => array.scope (body array.contents)

/-! ## What is permitted -/

/-- A pin may be attempted at any time. It is given back and elements are written only while it is
held, and no write changes the length. -/
def Permits (length : σ → Nat) (array : ManagedArray σ) : Touch σ → Prop
  | .pin => True
  | .unpin => array.pinned = true
  | .write contents => array.pinned = true ∧ length contents = length array.contents

/-- Each touch of a list is permitted when its turn comes. -/
def PermitsAll (length : σ → Nat) (array : ManagedArray σ) : List (Touch σ) → Prop
  | [] => True
  | touch :: rest => array.Permits length touch ∧ (array.touch touch).PermitsAll length rest

/-- Scoped access keeps the length; the pin is its own. -/
def PermitsUse (length : σ → Nat) (array : ManagedArray σ) : Use σ → Prop
  | .touch touch => array.Permits length touch
  | .guarded body => length (body array.contents) = length array.contents

section Lists

variable {length : σ → Nat} {array : ManagedArray σ} {first rest : List (Touch σ)}

theorem touchAll_append :
    array.touchAll (first ++ rest) = (array.touchAll first).touchAll rest :=
  List.foldl_append

theorem permitsAll_append :
    array.PermitsAll length (first ++ rest) ↔
      array.PermitsAll length first ∧ (array.touchAll first).PermitsAll length rest := by
  induction first generalizing array with
  | nil => exact (iff_of_eq (true_and _)).symm
  | cons touch others ih =>
      rw [List.cons_append, PermitsAll, PermitsAll, ih, and_assoc]
      rfl

end Lists

/-! ## The invariant -/

/-- The pins granted since `start` are those given back and the one that is held now. An array that
refuses is never pinned, and the length is what it was. -/
structure Balanced (length : σ → Nat) (start now : ManagedArray σ) (pins : Nat) : Prop where
  pins_eq : pins = now.unpins + now.pinned.toNat
  refuses_eq : now.refuses = start.refuses
  never_pinned : start.refuses = true → now.pinned = false ∧ now.unpins = 0
  length_eq : length now.contents = length start.contents

namespace Balanced

variable {length : σ → Nat} {start now : ManagedArray σ} {pins : Nat}

theorem new (contents : σ) (refuses : Bool) :
    Balanced length (.new contents refuses) (.new contents refuses) 0 :=
  ⟨rfl, rfl, fun _ => ⟨rfl, rfl⟩, rfl⟩

/-- A permitted touch keeps the balance. -/
theorem touch (balanced : Balanced length start now pins) {touch : Touch σ}
    (permitted : now.Permits length touch) :
    Balanced length start (now.touch touch) (pins + now.granted touch) := by
  obtain ⟨pins_eq, refuses_eq, never_pinned, length_eq⟩ := balanced
  cases touch with
  | pin =>
      refine ⟨?_, refuses_eq, ?_, length_eq⟩
      · -- a pin is granted exactly when it changes the flag
        rw [pins_eq]
        show _ + _ + now.pinnable.toNat = now.unpins + (now.pinned || now.pinnable).toNat
        rw [pinnable]
        cases now.pinned <;> cases now.refuses <;> rfl
      · intro refuses
        obtain ⟨free, none_given_back⟩ := never_pinned refuses
        refine ⟨?_, none_given_back⟩
        show (now.pinned || now.pinnable) = false
        rw [free, pinnable, refuses_eq, refuses]
        rfl
  | unpin =>
      have held : now.pinned = true := permitted
      refine ⟨?_, refuses_eq, ?_, length_eq⟩
      · rw [pins_eq, held]
        rfl
      · intro refuses
        -- an array that refuses has no pin to give back
        have free := (never_pinned refuses).1
        rw [held] at free
        cases free
  | write contents => exact ⟨pins_eq, refuses_eq, never_pinned, permitted.2.trans length_eq⟩

/-- Permitted touches keep the balance. -/
theorem touchAll (balanced : Balanced length start now pins) {touches : List (Touch σ)}
    (permitted : now.PermitsAll length touches) :
    Balanced length start (now.touchAll touches) (pins + now.grantedAll touches) := by
  induction touches generalizing now pins with
  | nil => exact balanced
  | cons touch rest ih =>
      have later := ih (balanced.touch permitted.1) permitted.2
      rw [Nat.add_assoc] at later
      exact later

end Balanced

/-! ## Scoped access -/

section Scope

variable {length : σ → Nat} (array : ManagedArray σ) (contents : σ)

theorem scope_of_pinnable {array : ManagedArray σ} (free : array.pinnable = true) :
    array.scope contents = [.pin, .write contents, .unpin] :=
  if_pos free

theorem scope_of_not_pinnable {array : ManagedArray σ} (refused : array.pinnable = false) :
    array.scope contents = [.pin] :=
  if_neg (Bool.eq_false_iff.1 refused)

/-- Scoped access is its touches. -/
theorem withPin_eq_touchAll (body : σ → β × σ) :
    (array.withPin body).2 = array.touchAll (array.scope (body array.contents).2) := by
  cases free : array.pinnable with
  | true =>
      rw [withPin_of_pinnable free, scope_of_pinnable _ free]
      rfl
  | false =>
      rw [withPin_of_not_pinnable free, scope_of_not_pinnable _ free]
      show _ = { array with pinned := _, pinAttempts := _ }
      rw [free, Bool.or_false]

theorem eq_touchAll_of_withPin {array after : ManagedArray σ} {body : σ → β × σ}
    {answer : Option β} (pinned : array.withPin body = (answer, after)) :
    after = array.touchAll (array.scope (body array.contents).2) := by
  rw [← withPin_eq_touchAll, pinned]

theorem pinned_scope : (array.touchAll (array.scope contents)).pinned = array.pinned := by
  have same := withPin_eq_touchAll array fun _ => ((), contents)
  rw [← same]
  exact pinned_withPin array _

theorem pinAttempts_scope :
    (array.touchAll (array.scope contents)).pinAttempts = array.pinAttempts + 1 := by
  rw [scope]
  split <;> rfl

/-- The elements change only under a pin that was granted. -/
theorem contents_scope :
    (array.touchAll (array.scope contents)).contents =
      if array.pinnable then contents else array.contents := by
  rw [scope]
  split <;> rfl

/-- Scoped access under a pin that is not granted writes nothing, whatever it would leave. -/
theorem scope_contents_scope :
    array.scope (array.touchAll (array.scope contents)).contents = array.scope contents := by
  rw [contents_scope]
  cases free : array.pinnable with
  | true => rw [if_pos rfl]
  | false => rw [scope_of_not_pinnable _ free, scope_of_not_pinnable _ free]

theorem pinned_touch_pin {array : ManagedArray σ} (free : array.pinnable = true) :
    (array.touch .pin).pinned = true := by
  show (array.pinned || array.pinnable) = true
  rw [free, Bool.or_true]

theorem permitsAll_scope (kept : length contents = length array.contents) :
    array.PermitsAll length (array.scope contents) := by
  cases free : array.pinnable with
  | true =>
      rw [scope_of_pinnable _ free]
      have held := pinned_touch_pin free
      exact ⟨trivial, ⟨held, kept⟩, held, trivial⟩
  | false =>
      rw [scope_of_not_pinnable _ free]
      exact ⟨trivial, trivial⟩

end Scope

section Use

variable {length : σ → Nat} (array : ManagedArray σ) (use : Use σ)

/-- A use is its touches. -/
theorem use_eq_touchAll : array.use use = array.touchAll (array.touches use) := by
  cases use with
  | touch touch => rfl
  | guarded body => exact withPin_eq_touchAll array _

theorem permitsAll_touches (permitted : array.PermitsUse length use) :
    array.PermitsAll length (array.touches use) := by
  cases use with
  | touch touch => exact ⟨permitted, trivial⟩
  | guarded body => exact permitsAll_scope array _ permitted

end Use

/-! ## One array in a call -/

/-- What a call can do to one array, with the number of its pin attempts: leave it alone, access it
once, or hold its pin meanwhile. -/
inductive Treated (length : σ → Nat) (array : ManagedArray σ) : Nat → List (Touch σ) → Prop where
  | spared : Treated length array 0 []
  | accessed (contents : σ) (kept : length contents = length array.contents) :
      Treated length array 1 (array.scope contents)
  | held (granted : array.pin.1 = true) : Treated length array 1 [.pin, .unpin]

namespace Treated

variable {length : σ → Nat} {array : ManagedArray σ} {attempts : Nat} {touches : List (Touch σ)}
  (treated : array.Treated length attempts touches)
include treated

theorem permitsAll : array.PermitsAll length touches := by
  cases treated with
  | spared => trivial
  | accessed contents kept => exact permitsAll_scope array contents kept
  | held granted => exact ⟨trivial, pinned_touch_pin granted, trivial⟩

theorem pinned_eq : (array.touchAll touches).pinned = array.pinned := by
  cases treated with
  | spared => rfl
  | accessed contents _ => exact pinned_scope array contents
  | held granted =>
      have free : (!array.refuses && !array.pinned) = true := granted
      rw [Bool.and_eq_true, Bool.not_eq_true', Bool.not_eq_true'] at free
      exact free.2.symm

theorem attempts_eq : (array.touchAll touches).pinAttempts = array.pinAttempts + attempts := by
  cases treated with
  | spared => rfl
  | accessed contents _ => exact pinAttempts_scope array contents
  | held _ => rfl

theorem granted_of_contents (changed : (array.touchAll touches).contents ≠ array.contents) :
    attempts = 1 ∧ array.pin.1 = true := by
  cases treated with
  | spared => exact absurd rfl changed
  | accessed contents _ =>
      refine ⟨rfl, ?_⟩
      by_contra refused
      apply changed
      rw [contents_scope]
      exact if_neg refused
  | held _ => exact absurd rfl changed

end Treated

end ManagedArray

end StringSlots
