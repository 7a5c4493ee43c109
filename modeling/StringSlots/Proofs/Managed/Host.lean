import Mathlib.Logic.Function.Basic
import StringSlots.Proofs.Managed.Pins
import StringSlots.Proofs.Release.Plan

/-!
# Runs over managed arrays

A `Host` has named codecs and, at each `Place`, a managed array. An `Action` is a use of one array
or a call across the boundary, whose arguments may be absent. `Host.points` lists what an action
does to the arrays, touch by touch, so that a run has a state between any two touches, also inside a
call.

`HostCall.pins` lists the arrays that a call tries to pin. `carried` and `carry_place` say what it
does to the arrays in these terms, and the rest follows: a call is contained (`contains_call`), its
touches are permitted (`permitsAll_points`), and a run is balanced at every point
(`pins_balanced_run`).
-/

namespace StringSlots

open ManagedArray

universe u v

/-! ## Calls on managed arrays -/

namespace Codec

variable (codec : Codec)

theorem size_encode (text : String) (buffer : Buffer) (offset : Nat) :
    (codec.encode text buffer offset).buffer.size = buffer.size := by
  rcases codec.encode_cases buffer offset text with ⟨error, refused⟩ | ⟨handle, arena, -, -, done⟩
  · rw [refused]
    rfl
  · rw [done]
    exact Buffer.size_overwrite ..

theorem size_releaseIndexed (buffer : Buffer) (recordSize : Int) (indices : List Int) :
    (codec.releaseIndexed buffer recordSize indices).buffer.size = buffer.size := by
  rw [releaseIndexed]
  split
  · rfl
  · exact (codec.releaseAll_follows buffer _).size_eq

theorem buffer_ofOutcome {α β : Type} (call : BridgeCall) (onSuccess : β → α) (onFailure : α)
    (buffer : ManagedArray Buffer) (outcome : Outcome β) :
    (Crossing.ofOutcome call onSuccess onFailure buffer outcome).buffer = some buffer := by
  rw [Crossing.ofOutcome]
  split <;> rfl

variable (array : ManagedArray Buffer) (offset : Int)

theorem buffer_copyText (text : String) :
    (codec.copyText (some text) (some array) offset).buffer =
      some (if 0 ≤ offset then array.touchAll
          (array.scope (codec.encode text array.contents offset.toNat).buffer)
        else array) := by
  rw [copyText]
  by_cases natural : 0 ≤ offset
  · rw [offsetOfInt_of_not_neg (Int.not_lt.2 natural), if_pos natural]
    dsimp only
    split
    · next pinned => exact congrArg some (eq_touchAll_of_withPin pinned)
    · next pinned =>
      exact (buffer_ofOutcome ..).trans (congrArg some (eq_touchAll_of_withPin pinned))
  · rw [offsetOfInt_of_neg (Int.not_le.1 natural), if_neg natural]
    rfl

theorem buffer_createText :
    (codec.createText (some array) offset).buffer =
      some (if 0 ≤ offset then array.touchAll (array.scope array.contents) else array) := by
  rw [createText]
  by_cases natural : 0 ≤ offset
  · rw [offsetOfInt_of_not_neg (Int.not_lt.2 natural), if_pos natural]
    dsimp only
    split
    · next pinned => exact congrArg some (eq_touchAll_of_withPin pinned)
    · next pinned =>
      exact (buffer_ofOutcome ..).trans (congrArg some (eq_touchAll_of_withPin pinned))
  · rw [offsetOfInt_of_neg (Int.not_le.1 natural), if_neg natural]
    rfl

variable (recordSize : Int) (offsets : ManagedArray (List Int))

/-- The buffer is touched only when the offsets could be pinned. -/
theorem arrays_freeTexts :
    (codec.freeTexts (some array) recordSize (some offsets)).1.buffer =
        some (if offsets.pinnable then array.touchAll (array.scope
          (codec.releaseIndexed array.contents recordSize offsets.contents).buffer) else array) ∧
      (codec.freeTexts (some array) recordSize (some offsets)).2 =
        some (offsets.touchAll (offsets.scope offsets.contents)) := by
  rw [freeTexts]
  dsimp only
  cases free : offsets.pinnable with
  | false =>
      split
      · next outer => exact ⟨rfl, congrArg some (eq_touchAll_of_withPin outer)⟩
      · next outer =>
        rw [withPin_of_not_pinnable free] at outer
        cases outer
      · next outer =>
        rw [withPin_of_not_pinnable free] at outer
        cases outer
  | true =>
      -- the answer of the outer access is the inner access
      have answer : (offsets.withPin fun indices =>
          (array.withPin fun buffer => (codec.releaseIndexed buffer recordSize indices).withBuffer,
            indices)).1 =
          some (array.withPin fun buffer =>
            (codec.releaseIndexed buffer recordSize offsets.contents).withBuffer) :=
        congrArg Prod.fst (withPin_of_pinnable free _)
      rw [if_pos rfl]
      split
      · next outer =>
        rw [outer] at answer
        cases answer
      · next outer =>
        rw [outer] at answer
        have inner := eq_touchAll_of_withPin (Option.some.inj answer).symm
        exact ⟨congrArg some inner,
          congrArg some (eq_touchAll_of_withPin outer)⟩
      · next outer =>
        rw [outer] at answer
        have inner := eq_touchAll_of_withPin (Option.some.inj answer).symm
        exact ⟨(buffer_ofOutcome ..).trans (congrArg some inner),
          congrArg some (eq_touchAll_of_withPin outer)⟩

end Codec

/-! ## Hosts -/

/-- What the elements of a managed array are. -/
inductive Elements where
  | bytes
  | offsets
  deriving DecidableEq

namespace Elements

/-- The contents of an array of elements. -/
abbrev Contents : Elements → Type
  | bytes => Buffer
  | offsets => List Int

/-- The number of elements. -/
def length : (elements : Elements) → elements.Contents → Nat
  | bytes => Buffer.size
  | offsets => List.length

end Elements

/-- Where a host keeps an array: by its kind of elements, then by name. -/
structure Place (ν : Type v) where
  elements : Elements
  name : ν
  deriving DecidableEq

/-- The managed arrays of a host. -/
abbrev Arrays (ν : Type v) := (place : Place ν) → ManagedArray place.elements.Contents

/-- A touch of one array of a host. -/
structure Point (ν : Type v) where
  place : Place ν
  touch : Touch place.elements.Contents

/-- A call across the boundary by the names of its arguments. -/
inductive HostCall (κ : Type u) (ν : Type v) where
  | copy (codec : κ) (text : Option String) (buffer : Option ν) (offset : Int)
  | create (codec : κ) (buffer : Option ν) (offset : Int)
  | free (codec : κ) (buffer : Option ν) (recordSize : Int) (indices : Option ν)

/-- A use of one array, or a call across the boundary. -/
inductive Action (κ : Type u) (ν : Type v) where
  | use (place : Place ν) (use : Use place.elements.Contents)
  | call (call : HostCall κ ν)

/-- Codecs by name, and managed arrays. -/
structure Host (κ : Type u) (ν : Type v) where
  codecs : κ → Codec
  arrays : Arrays ν

namespace HostCall

variable {κ : Type u} {ν : Type v}

/-- The arrays that a call tries to pin, in order. Arguments that are absent and negative offsets
come before any pin. A release pins its offsets first, and then its buffer if it was granted
these. -/
def pins (arrays : Arrays ν) : HostCall κ ν → List (Place ν)
  | copy _ (some _) (some buffer) offset => if 0 ≤ offset then [⟨.bytes, buffer⟩] else []
  | create _ (some buffer) offset => if 0 ≤ offset then [⟨.bytes, buffer⟩] else []
  | free _ (some buffer) _ (some indices) =>
      if (arrays ⟨.offsets, indices⟩).pin.1 then [⟨.offsets, indices⟩, ⟨.bytes, buffer⟩]
      else [⟨.offsets, indices⟩]
  | _ => []

end HostCall

section Definitions

variable {κ : Type u} {ν : Type v} [DecidableEq κ] [DecidableEq ν]

/-- The touch of the array at a place. -/
def Point.at? (point : Point ν) (place : Place ν) : Option (Touch place.elements.Contents) :=
  if same : point.place = place then some (same ▸ point.touch) else none

/-- The place where a touch attempts a pin. -/
def Point.attempt? (point : Point ν) : Option (Place ν) :=
  match point.touch with
  | .pin => some point.place
  | _ => none

namespace Arrays

/-- The arrays with what a call left of one of its arguments. -/
def put (arrays : Arrays ν) (elements : Elements) :
    Option ν → Option (ManagedArray elements.Contents) → Arrays ν
  | some name, some array => Function.update arrays ⟨elements, name⟩ array
  | _, _ => arrays

/-- The arrays after a touch of one of them. -/
def touch (arrays : Arrays ν) (point : Point ν) : Arrays ν :=
  Function.update arrays point.place ((arrays point.place).touch point.touch)

/-- The arrays after a list of touches. -/
def touchAll (arrays : Arrays ν) (points : List (Point ν)) : Arrays ν :=
  points.foldl touch arrays

/-- All touches of a list are permitted when their turn comes. -/
def PermitsAll (arrays : Arrays ν) (points : List (Point ν)) : Prop :=
  ∀ place : Place ν,
    (arrays place).PermitsAll place.elements.length (points.filterMap (·.at? place))

/-- Every array is balanced after a list of touches. -/
def BalancedAt (start : Arrays ν) (points : List (Point ν)) : Prop :=
  ∀ place : Place ν,
    Balanced place.elements.length (start place) (start.touchAll points place)
      ((start place).grantedAll (points.filterMap (·.at? place)))

end Arrays

namespace Host

/-- A host whose arrays were never pinned; each may refuse to be. -/
def new (codecs : κ → Codec) (contents : (place : Place ν) → place.elements.Contents)
    (refuses : Place ν → Bool) : Host κ ν :=
  { codecs, arrays := fun place => .new (contents place) (refuses place) }

/-- Carries out a call across the boundary. -/
def carry (host : Host κ ν) : HostCall κ ν → Host κ ν
  | .copy codec text buffer offset =>
      let crossing := (host.codecs codec).copyText text
        (buffer.map fun name => host.arrays ⟨.bytes, name⟩) offset
      { codecs := Function.update host.codecs codec crossing.codec
        arrays := host.arrays.put .bytes buffer crossing.buffer }
  | .create codec buffer offset =>
      let crossing := (host.codecs codec).createText
        (buffer.map fun name => host.arrays ⟨.bytes, name⟩) offset
      { codecs := Function.update host.codecs codec crossing.codec
        arrays := host.arrays.put .bytes buffer crossing.buffer }
  | .free codec buffer recordSize indices =>
      let crossing := (host.codecs codec).freeTexts
        (buffer.map fun name => host.arrays ⟨.bytes, name⟩) recordSize
        (indices.map fun name => host.arrays ⟨.offsets, name⟩)
      { codecs := Function.update host.codecs codec crossing.1.codec
        arrays := (host.arrays.put .bytes buffer crossing.1.buffer).put .offsets indices
          crossing.2 }

/-- Carries out an action. -/
def step (host : Host κ ν) : Action κ ν → Host κ ν
  | .use place use =>
      { host with arrays := Function.update host.arrays place ((host.arrays place).use use) }
  | .call call => host.carry call

/-- The host after a list of actions. -/
def run (host : Host κ ν) (actions : List (Action κ ν)) : Host κ ν :=
  actions.foldl step host

/-- What a call does to one array in scoped access. -/
def scopePoints (host : Host κ ν) (call : HostCall κ ν) (place : Place ν) : List (Point ν) :=
  ((host.arrays place).scope ((host.carry call).arrays place).contents).map (Point.mk place)

/-- What a call does to the arrays. A second array is accessed inside the pin of the first. -/
def callPoints (host : Host κ ν) (call : HostCall κ ν) : List (Point ν) :=
  match call.pins host.arrays with
  | [] => []
  | [place] => host.scopePoints call place
  | outer :: inner :: _ => ⟨outer, .pin⟩ :: host.scopePoints call inner ++ [⟨outer, .unpin⟩]

/-- What an action does to the arrays, touch by touch. -/
def points (host : Host κ ν) : Action κ ν → List (Point ν)
  | .use place use => ((host.arrays place).touches use).map (Point.mk place)
  | .call call => host.callPoints call

/-- What a run does to the arrays. -/
def pointsAll (host : Host κ ν) : List (Action κ ν) → List (Point ν)
  | [] => []
  | action :: rest => host.points action ++ (host.step action).pointsAll rest

/-- A caller gives pins back and writes elements only under a pin; calls may be made at any time. -/
def Permits (host : Host κ ν) : Action κ ν → Prop
  | .use place use => (host.arrays place).PermitsUse place.elements.length use
  | .call _ => True

/-- Each action of a list is permitted when its turn comes. -/
def PermitsAll (host : Host κ ν) : List (Action κ ν) → Prop
  | [] => True
  | action :: rest => host.Permits action ∧ (host.step action).PermitsAll rest

/-- A call leaves every pin flag as it was, attempts the pins that it is to attempt, in their order,
and changes contents only under a pin that it was granted, offsets not at all. -/
structure Contains (host : Host κ ν) (call : HostCall κ ν) : Prop where
  pinned_eq : ∀ place, ((host.carry call).arrays place).pinned = (host.arrays place).pinned
  attempts : (host.callPoints call).filterMap Point.attempt? = call.pins host.arrays
  attempts_eq : ∀ place, ((host.carry call).arrays place).pinAttempts =
    (host.arrays place).pinAttempts + (call.pins host.arrays).count place
  granted_of_contents : ∀ place,
    ((host.carry call).arrays place).contents ≠ (host.arrays place).contents →
      place ∈ call.pins host.arrays ∧ (host.arrays place).pin.1 = true
  offsets_eq : ∀ name, ((host.carry call).arrays ⟨.offsets, name⟩).contents =
    (host.arrays ⟨.offsets, name⟩).contents

end Host

end Definitions

/-! ## Touches of one array -/

variable {κ : Type u} {ν : Type v} [DecidableEq κ] [DecidableEq ν]

namespace Point

variable {place own : Place ν}

theorem at?_self (touch : Touch place.elements.Contents) :
    (⟨place, touch⟩ : Point ν).at? place = some touch :=
  dif_pos rfl

theorem at?_of_ne (differ : own ≠ place) (touch : Touch own.elements.Contents) :
    (⟨own, touch⟩ : Point ν).at? place = none :=
  dif_neg differ

theorem filterMap_at?_self (touches : List (Touch place.elements.Contents)) :
    (touches.map (Point.mk place)).filterMap (·.at? place) = touches := by
  rw [List.filterMap_map]
  exact (List.filterMap_congr fun touch _ => at?_self touch).trans List.filterMap_some

theorem filterMap_at?_of_ne (differ : own ≠ place)
    (touches : List (Touch own.elements.Contents)) :
    (touches.map (Point.mk own)).filterMap (·.at? place) = [] := by
  rw [List.filterMap_map]
  exact List.filterMap_eq_nil_iff.2 fun touch _ => at?_of_ne differ touch

omit [DecidableEq ν] in
/-- Scoped access attempts one pin. -/
theorem filterMap_attempt?_scope (array : ManagedArray place.elements.Contents)
    (contents : place.elements.Contents) :
    ((array.scope contents).map (Point.mk place)).filterMap attempt? = [place] := by
  rw [scope]
  split <;> rfl

end Point

namespace Arrays

variable (arrays : Arrays ν)

/-- Each array sees the touches of its own. -/
theorem touchAll_apply (points : List (Point ν)) (place : Place ν) :
    arrays.touchAll points place =
      (arrays place).touchAll (points.filterMap (·.at? place)) := by
  induction points generalizing arrays with
  | nil => rfl
  | cons point rest ih =>
      obtain ⟨own, touch⟩ := point
      show (arrays.touch ⟨own, touch⟩).touchAll rest place = _
      rw [ih, Arrays.touch]
      by_cases same : own = place
      · subst same
        rw [Function.update_self, List.filterMap_cons, Point.at?_self touch]
        rfl
      · rw [Function.update_of_ne (Ne.symm same), List.filterMap_cons, Point.at?_of_ne same touch]

theorem touchAll_append (first rest : List (Point ν)) :
    arrays.touchAll (first ++ rest) = (arrays.touchAll first).touchAll rest :=
  List.foldl_append

theorem permitsAll_append {first rest : List (Point ν)} :
    arrays.PermitsAll (first ++ rest) ↔
      arrays.PermitsAll first ∧ (arrays.touchAll first).PermitsAll rest := by
  simp only [PermitsAll, List.filterMap_append, ManagedArray.permitsAll_append, touchAll_apply,
    forall_and]

/-- An argument that a call hands back as it was leaves the arrays as they were. -/
theorem put_map (elements : Elements) (argument : Option ν) :
    arrays.put elements argument (argument.map fun name => arrays ⟨elements, name⟩) = arrays := by
  cases argument with
  | none => rfl
  | some own => exact Function.update_eq_self ..

/-- Permitted touches leave arrays that were never pinned balanced, at every point. -/
theorem balancedAt_of_isPrefix {contents : (place : Place ν) → place.elements.Contents}
    {refuses : Place ν → Bool} {points seen : List (Point ν)}
    (permitted : PermitsAll (fun place => .new (contents place) (refuses place)) points)
    (earlier : seen <+: points) :
    BalancedAt (fun place => .new (contents place) (refuses place)) seen := by
  intro place
  obtain ⟨rest, rfl⟩ := earlier
  have own := (permitsAll_append _).1 permitted
  rw [touchAll_apply, ← Nat.zero_add (grantedAll ..)]
  exact (Balanced.new (contents place) (refuses place)).touchAll (own.1 place)

end Arrays

/-! ## What a call does to the arrays -/

namespace Host

/-- What a call can do to the arrays, by the arrays that it tries to pin. -/
inductive Carried (host : Host κ ν) (call : HostCall κ ν) : Arrays ν → Prop where
  /-- Nothing is pinned. -/
  | idle (pins : call.pins host.arrays = []) : Carried host call host.arrays
  /-- One array is accessed, a buffer, or offsets that cannot be pinned. -/
  | single (place : Place ν) (contents : place.elements.Contents)
      (pins : call.pins host.arrays = [place])
      (kept : place.elements.length contents =
        place.elements.length (host.arrays place).contents)
      (refused : place.elements = .offsets → (host.arrays place).pin.1 = false) :
      Carried host call (Function.update host.arrays place
        ((host.arrays place).touchAll ((host.arrays place).scope contents)))
  /-- A buffer is accessed while offsets are pinned. -/
  | nested (outer inner : ν) (contents : Buffer)
      (pins : call.pins host.arrays = [⟨.offsets, outer⟩, ⟨.bytes, inner⟩])
      (granted : (host.arrays ⟨.offsets, outer⟩).pin.1 = true)
      (kept : contents.size = (host.arrays ⟨.bytes, inner⟩).contents.size) :
      Carried host call (Function.update
        (Function.update host.arrays ⟨.bytes, inner⟩
          ((host.arrays ⟨.bytes, inner⟩).touchAll
            ((host.arrays ⟨.bytes, inner⟩).scope contents)))
        ⟨.offsets, outer⟩ ((host.arrays ⟨.offsets, outer⟩).touchAll [.pin, .unpin]))

section Call

variable (host : Host κ ν) (call : HostCall κ ν)

omit [DecidableEq κ] in
/-- A call on one buffer accesses it unless the offset is negative. -/
theorem carried_of_offset {call : HostCall κ ν} {own : ν} {offset : Int} {contents : Buffer}
    {left : Option (ManagedArray Buffer)}
    (pins : call.pins host.arrays = if 0 ≤ offset then [⟨.bytes, own⟩] else [])
    (kept : contents.size = (host.arrays ⟨.bytes, own⟩).contents.size)
    (left_eq : left = some (if 0 ≤ offset then
      (host.arrays ⟨.bytes, own⟩).touchAll ((host.arrays ⟨.bytes, own⟩).scope contents)
      else host.arrays ⟨.bytes, own⟩)) :
    Carried host call (host.arrays.put .bytes (some own) left) := by
  subst left_eq
  by_cases natural : 0 ≤ offset
  · rw [if_pos natural] at pins ⊢
    exact Carried.single ⟨.bytes, own⟩ contents pins kept fun other => by cases other
  · rw [if_neg natural] at pins ⊢
    show Carried host call (Function.update host.arrays ⟨.bytes, own⟩ (host.arrays ⟨.bytes, own⟩))
    rw [Function.update_eq_self]
    exact Carried.idle pins

/-- Every call does one of the three. -/
theorem carried : Carried host call (host.carry call).arrays := by
  cases call with
  | copy codec text buffer offset =>
      cases text with
      | none =>
          show Carried host _ (host.arrays.put .bytes buffer (buffer.map _))
          rw [Arrays.put_map]
          exact Carried.idle rfl
      | some text =>
          cases buffer with
          | none => exact Carried.idle rfl
          | some own =>
              exact host.carried_of_offset rfl (Codec.size_encode ..)
                (Codec.buffer_copyText ..)
  | create codec buffer offset =>
      cases buffer with
      | none => exact Carried.idle rfl
      | some own => exact host.carried_of_offset rfl rfl (Codec.buffer_createText ..)
  | free codec buffer recordSize indices =>
      cases buffer with
      | none =>
          show Carried host _ (host.arrays.put .offsets indices (indices.map _))
          rw [Arrays.put_map]
          exact Carried.idle rfl
      | some inner =>
          cases indices with
          | none =>
              have after : (host.carry (.free codec (some inner) recordSize none)).arrays =
                  host.arrays := Function.update_eq_self ..
              rw [after]
              exact Carried.idle rfl
          | some outer =>
              obtain ⟨buffer_eq, offsets_eq⟩ := (host.codecs codec).arrays_freeTexts
                (host.arrays ⟨.bytes, inner⟩) recordSize (host.arrays ⟨.offsets, outer⟩)
              simp only [carry, Option.map_some, buffer_eq, offsets_eq]
              cases granted : (host.arrays ⟨.offsets, outer⟩).pinnable with
              | true =>
                  rw [if_pos rfl, scope_of_pinnable _ granted]
                  exact Carried.nested outer inner _ (if_pos granted) granted
                    (Codec.size_releaseIndexed ..)
              | false =>
                  -- the buffer is not touched
                  show Carried host _ (Function.update (Function.update host.arrays ⟨.bytes, inner⟩
                    (host.arrays ⟨.bytes, inner⟩)) ⟨.offsets, outer⟩ _)
                  rw [Function.update_eq_self]
                  have refused : ¬(host.arrays ⟨.offsets, outer⟩).pin.1 = true :=
                    Bool.eq_false_iff.1 granted
                  exact Carried.single ⟨.offsets, outer⟩ _ (if_neg refused) rfl fun _ => granted

variable {host call} in
theorem scopePoints_eq {place : Place ν} {contents : place.elements.Contents}
    (after : (host.carry call).arrays place =
      (host.arrays place).touchAll ((host.arrays place).scope contents)) :
    host.scopePoints call place =
      ((host.arrays place).scope contents).map (Point.mk place) := by
  rw [scopePoints, after, scope_contents_scope]

/-- A call treats the array at each place as `pins` says, and this is all that it does. -/
theorem carry_place (place : Place ν) :
    let touches := (host.callPoints call).filterMap (·.at? place)
    (host.arrays place).Treated place.elements.length ((call.pins host.arrays).count place)
        touches ∧
      (host.carry call).arrays place = (host.arrays place).touchAll touches := by
  intro touches
  have carried := host.carried call
  generalize after_eq : (host.carry call).arrays = after at carried
  cases carried with
  | idle pins =>
      have untouched : touches = [] := by
        simp only [touches, callPoints, pins, List.filterMap_nil]
      rw [pins, untouched]
      exact ⟨Treated.spared, rfl⟩
  | single own contents pins kept _ =>
      have points : host.callPoints call =
          ((host.arrays own).scope contents).map (Point.mk own) := by
        simp only [callPoints, pins]
        exact scopePoints_eq (by rw [after_eq, Function.update_self])
      by_cases same : own = place
      · subst same
        have touched : touches = (host.arrays own).scope contents := by
          rw [← Point.filterMap_at?_self ((host.arrays own).scope contents), ← points]
        rw [pins, touched, Function.update_self, List.count_singleton_self]
        exact ⟨Treated.accessed contents kept, rfl⟩
      · have untouched : touches = [] := by
          rw [← Point.filterMap_at?_of_ne same ((host.arrays own).scope contents), ← points]
        rw [pins, untouched, Function.update_of_ne (Ne.symm same),
          List.count_eq_zero_of_not_mem (by simpa using Ne.symm same)]
        exact ⟨Treated.spared, rfl⟩
  | nested outer inner contents pins granted kept =>
      have apart : (⟨.offsets, outer⟩ : Place ν) ≠ ⟨.bytes, inner⟩ := by
        intro same
        cases same
      have points : host.callPoints call =
          Point.mk ⟨.offsets, outer⟩ .pin ::
            ((host.arrays ⟨.bytes, inner⟩).scope contents).map (Point.mk ⟨.bytes, inner⟩) ++
            [Point.mk ⟨.offsets, outer⟩ .unpin] := by
        simp only [callPoints, pins]
        rw [scopePoints_eq]
        rw [after_eq, Function.update_of_ne apart.symm, Function.update_self]
      have touches_eq : touches = (Point.mk ⟨.offsets, outer⟩ .pin ::
            ((host.arrays ⟨.bytes, inner⟩).scope contents).map (Point.mk ⟨.bytes, inner⟩) ++
            [Point.mk ⟨.offsets, outer⟩ .unpin]).filterMap (·.at? place) := by
        rw [← points]
      by_cases first : ⟨.offsets, outer⟩ = place
      · subst first
        simp only [List.filterMap_append, List.filterMap_cons, List.filterMap_nil, Point.at?_self,
          Point.filterMap_at?_of_ne apart.symm, List.cons_append] at touches_eq
        rw [pins, touches_eq, Function.update_self, List.count_cons_self,
          List.count_eq_zero_of_not_mem (by simp)]
        exact ⟨Treated.held granted, rfl⟩
      · rw [Function.update_of_ne (Ne.symm first)]
        simp only [List.filterMap_append, List.filterMap_cons, List.filterMap_nil,
          Point.at?_of_ne first, List.cons_append, List.append_nil] at touches_eq
        by_cases second : ⟨.bytes, inner⟩ = place
        · subst second
          rw [Point.filterMap_at?_self] at touches_eq
          rw [pins, touches_eq, Function.update_self, List.count_cons_of_ne apart,
            List.count_singleton_self]
          exact ⟨Treated.accessed contents kept, rfl⟩
        · rw [Point.filterMap_at?_of_ne second] at touches_eq
          rw [pins, touches_eq, Function.update_of_ne (Ne.symm second),
            List.count_eq_zero_of_not_mem (by simpa using ⟨Ne.symm first, Ne.symm second⟩)]
          exact ⟨Treated.spared, rfl⟩

theorem attempts_callPoints :
    (host.callPoints call).filterMap Point.attempt? = call.pins host.arrays := by
  have carried := host.carried call
  generalize after_eq : (host.carry call).arrays = after at carried
  cases carried with
  | idle pins =>
      simp only [callPoints, pins]
      rfl
  | single own contents pins _ _ =>
      simp only [callPoints, pins]
      exact Point.filterMap_attempt?_scope ..
  | nested outer inner contents pins _ _ =>
      simp only [callPoints, pins]
      rw [List.cons_append, List.filterMap_cons, List.filterMap_append]
      rw [scopePoints, Point.filterMap_attempt?_scope]
      rfl

theorem offsets_carry (name : ν) :
    ((host.carry call).arrays ⟨.offsets, name⟩).contents =
      (host.arrays ⟨.offsets, name⟩).contents := by
  have carried := host.carried call
  generalize after_eq : (host.carry call).arrays = after at carried
  cases carried with
  | idle _ => rfl
  | single own contents _ _ refused =>
      by_cases same : own = ⟨.offsets, name⟩
      · subst same
        rw [Function.update_self, contents_scope]
        exact if_neg (Bool.eq_false_iff.1 (refused rfl))
      · rw [Function.update_of_ne (Ne.symm same)]
  | nested outer inner contents _ _ _ =>
      by_cases same : name = outer
      · subst same
        rw [Function.update_self]
        rfl
      · rw [Function.update_of_ne (by simpa using same), Function.update_of_ne (by simp)]

theorem contains_call : host.Contains call where
  pinned_eq place := by
    obtain ⟨treated, after⟩ := host.carry_place call place
    rw [after]
    exact treated.pinned_eq
  attempts := host.attempts_callPoints call
  attempts_eq place := by
    obtain ⟨treated, after⟩ := host.carry_place call place
    rw [after]
    exact treated.attempts_eq
  granted_of_contents place changed := by
    obtain ⟨treated, after⟩ := host.carry_place call place
    rw [after] at changed
    obtain ⟨once, granted⟩ := treated.granted_of_contents changed
    exact ⟨List.count_pos_iff.1 (by omega), granted⟩
  offsets_eq := host.offsets_carry call

end Call

/-! ## Steps and runs -/

section Run

variable (host : Host κ ν)

/-- An action does to the arrays what its touches do. -/
theorem arrays_step (action : Action κ ν) :
    (host.step action).arrays = host.arrays.touchAll (host.points action) := by
  funext place
  rw [Arrays.touchAll_apply]
  cases action with
  | use own use =>
      show Function.update host.arrays own ((host.arrays own).use use) place = _
      rw [points]
      by_cases same : own = place
      · subst same
        rw [Function.update_self, Point.filterMap_at?_self, use_eq_touchAll]
      · rw [Function.update_of_ne (Ne.symm same), Point.filterMap_at?_of_ne same]
        rfl
  | call call => exact (host.carry_place call place).2

/-- The touches of a permitted action are permitted. -/
theorem permitsAll_points {action : Action κ ν} (permitted : host.Permits action) :
    host.arrays.PermitsAll (host.points action) := by
  intro place
  cases action with
  | use own use =>
      rw [points]
      by_cases same : own = place
      · subst same
        rw [Point.filterMap_at?_self]
        exact permitsAll_touches _ use permitted
      · rw [Point.filterMap_at?_of_ne same]
        trivial
  | call call => exact (host.carry_place call place).1.permitsAll

theorem arrays_run (actions : List (Action κ ν)) :
    (host.run actions).arrays = host.arrays.touchAll (host.pointsAll actions) := by
  induction actions generalizing host with
  | nil => rfl
  | cons action rest ih =>
      show ((host.step action).run rest).arrays = _
      rw [ih, arrays_step, pointsAll, Arrays.touchAll_append]

theorem permitsAll_pointsAll {actions : List (Action κ ν)} (permitted : host.PermitsAll actions) :
    host.arrays.PermitsAll (host.pointsAll actions) := by
  induction actions generalizing host with
  | nil => exact fun _ => trivial
  | cons action rest ih =>
      obtain ⟨first, later⟩ := permitted
      rw [pointsAll, Arrays.permitsAll_append, ← arrays_step]
      exact ⟨host.permitsAll_points first, ih _ later⟩

end Run

/-- Along every run of permitted uses and of calls with any arguments, every array is balanced at
every point, also inside a call: as many pins were granted as were given back, and one more while
the array is pinned; an array that refuses is never pinned; no length changes. Every call is
contained, whatever the state of the arrays that it is handed. -/
theorem pins_balanced_run (codecs : κ → Codec)
    (contents : (place : Place ν) → place.elements.Contents) (refuses : Place ν → Bool)
    (actions : List (Action κ ν)) (permitted : (new codecs contents refuses).PermitsAll actions) :
    let start := new codecs contents refuses
    (start.run actions).arrays = start.arrays.touchAll (start.pointsAll actions) ∧
      (∀ seen, seen <+: start.pointsAll actions → start.arrays.BalancedAt seen) ∧
      ∀ (host : Host κ ν) (call : HostCall κ ν), host.Contains call := by
  intro start
  refine ⟨start.arrays_run actions, ?_, contains_call⟩
  intro seen earlier
  exact Arrays.balancedAt_of_isPrefix (start.permitsAll_pointsAll permitted) earlier

/-- A host with one codec, a buffer and offsets that can be pinned, and a buffer that cannot. -/
def small : Host Unit Bool :=
  new (fun _ => Codec.new { width := .w32 })
    (fun place =>
      match place.elements with
      | .bytes => Buffer.filled 8 0
      | .offsets => [0, 4])
    fun place => place.name && place.elements = .bytes

/-- Calls before, under and after a pin that the caller holds, on both buffers. -/
def underOwnPin : List (Action Unit Bool) :=
  [.call (.copy () (some "text") (some false) 4), .use ⟨.bytes, false⟩ (.touch .pin),
    .call (.create () (some false) 4), .call (.free () (some false) 8 (some false)),
    .use ⟨.bytes, false⟩ (.touch .unpin), .use ⟨.offsets, false⟩ (.guarded fun _ => [4, 0]),
    .call (.free () (some true) 8 (some false)), .call (.free () (some false) 8 (some false)),
    .call (.copy () none (some false) (-1))]

theorem pins_balanced_run_underOwnPin :
    small.PermitsAll underOwnPin ∧ small.arrays.BalancedAt (small.pointsAll underOwnPin) := by
  have held : ((small.run (underOwnPin.take 4)).arrays ⟨.bytes, false⟩).pinned = true := by
    decide +kernel
  have two : 2 = ((small.run (underOwnPin.take 5)).arrays ⟨.offsets, false⟩).contents.length := by
    decide +kernel
  have permitted : small.PermitsAll underOwnPin :=
    ⟨trivial, trivial, trivial, trivial, held, two, trivial, trivial, trivial, trivial⟩
  exact ⟨permitted, (pins_balanced_run _ _ _ underOwnPin permitted).2.1 _ List.prefix_rfl⟩

end Host

end StringSlots
