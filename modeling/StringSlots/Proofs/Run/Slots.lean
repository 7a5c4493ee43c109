import StringSlots.Proofs.Run.Workspace

/-!
# Runs on schema slots

A `Setup` fixes the configuration of a codec and, for each buffer, a size and a schema. The calls
that it permits touch schema slots only. `Setup.Move` lists what such a call answers and does to the
handles in the slots of all buffers, and `Owned.move` says that every permitted call is one of these
moves.

`Setup.Owned` is the invariant of such runs: no handle sits in two slots, and every handle in a slot
was issued before. It rests on three facts at once: slots of a buffer are equal or share no byte,
the image of a handle is read back as that handle, and the counter of the arena only grows.
-/

namespace StringSlots

universe u

/-- The shape of a run on slots: a configuration, and for each buffer its size and a schema of the
width of the configuration. -/
structure Setup (ι : Type u) where
  config : CodecConfig
  sizes : ι → Nat
  schemas : ι → SlotSchema
  width_eq : ∀ name, (schemas name).width = config.width

variable {ι : Type u}

namespace Setup

variable (setup : Setup ι)

/-- The slots of a buffer: the positions of its schema that lie inside it. -/
def IsSlot (name : ι) (position : Nat) : Prop :=
  (setup.schemas name).IsSlot (setup.sizes name) position

/-- A codec without strings among buffers of zeros. -/
def start : Workspace ι :=
  Workspace.fresh setup.config setup.sizes

/-- The calls at slots, and the releases of a buffer with its own schema. -/
def Permits : Call ι → Prop
  | .encode name position _ => setup.IsSlot name position
  | .encodeNull name position => setup.IsSlot name position
  | .decode name position => setup.IsSlot name position
  | .releaseAll name schema => schema = setup.schemas name
  | .releaseRecord name schema => schema = setup.schemas name
  | _ => False

/-- Two buffers of records that are one slot; the second ends in a cut record. -/
def pair (tail : TailPolicy) (clearReleased : Bool) : Setup Bool where
  config := { width := .w32, order := .big, tail, clearReleased }
  sizes name := if name then 10 else 8
  schemas _ := .single .w32
  width_eq _ := rfl

instance (name : ι) (position : Nat) : Decidable (setup.IsSlot name position) :=
  decidable_of_iff _ (setup.schemas name).mem_positionsBelow_iff

instance : (call : Call ι) → Decidable (setup.Permits call)
  | .encode name position _ => inferInstanceAs (Decidable (setup.IsSlot name position))
  | .encodeNull name position => inferInstanceAs (Decidable (setup.IsSlot name position))
  | .decode name position => inferInstanceAs (Decidable (setup.IsSlot name position))
  | .releaseAll name schema => inferInstanceAs (Decidable (schema = setup.schemas name))
  | .releaseRecord name schema => inferInstanceAs (Decidable (schema = setup.schemas name))
  | .encodeMember .. => isFalse id
  | .decodeMember .. => isFalse id
  | .releaseLayout .. => isFalse id
  | .write .. => isFalse id

/-- No handle sits in two slots, and the handles in slots were issued before. -/
structure Owned (workspace : Workspace ι) : Prop where
  config : workspace.codec.config = setup.config
  size : ∀ name, (workspace.buffers name).size = setup.sizes name
  formed : workspace.codec.arena.WellFormed setup.config.width
  issued : ∀ {name position handle}, setup.IsSlot name position →
    workspace.slot name position = some handle → handle.value < workspace.codec.arena.next
  distinct : ∀ {name position other place handle}, setup.IsSlot name position →
    setup.IsSlot other place → workspace.slot name position = some handle →
    workspace.slot other place = some handle → name = other ∧ position = place

/-- The calls that release a buffer with its own schema. -/
def Releases (name : ι) (call : Call ι) : Prop :=
  call = .releaseAll name (setup.schemas name) ∨ call = .releaseRecord name (setup.schemas name)

variable {setup}

theorem IsSlot.inside {name : ι} {position : Nat} (slot : setup.IsSlot name position) :
    position + setup.config.width.bytes ≤ setup.sizes name := by
  rw [← setup.width_eq name]
  exact SlotSchema.IsSlot.inside slot

theorem IsSlot.eq_or_apart {name : ι} {p q : Nat} (p_slot : setup.IsSlot name p)
    (q_slot : setup.IsSlot name q) : p = q ∨ SlotsApart setup.config.width.bytes p q := by
  rw [← setup.width_eq name]
  exact SlotSchema.IsSlot.eq_or_apart p_slot q_slot

/-- A call that releases a buffer visits slots of that buffer, each once. -/
theorem Releases.plan_slots {name : ι} {call : Call ι} (release : setup.Releases name call)
    {positions : List Nat} (plan : call.plan setup.config (setup.sizes name) = .ok positions) :
    positions.Nodup ∧ ∀ position ∈ positions, setup.IsSlot name position := by
  have apart : positions.Pairwise (SlotsApart setup.config.width.bytes) ∧
      ∀ position ∈ positions, setup.IsSlot name position := by
    rcases release with rfl | rfl
    · exact Codec.pairwise_of_releasePlan plan
    · exact Codec.pairwise_of_recordPlan plan
  refine ⟨apart.1.imp ?_, apart.2⟩
  intro p q apart
  exact apart.ne

/-- A permitted call is one of four kinds. -/
inductive Kind (setup : Setup ι) : Call ι → Prop where
  | encode {name position} (text : String) (slot : setup.IsSlot name position) :
      Kind setup (.encode name position text)
  | encodeNull {name position} (slot : setup.IsSlot name position) :
      Kind setup (.encodeNull name position)
  | decode {name position} (slot : setup.IsSlot name position) :
      Kind setup (.decode name position)
  | release {name call} (release : setup.Releases name call) : Kind setup call

theorem kind_of_permits {call : Call ι} (permits : setup.Permits call) : setup.Kind call := by
  cases call with
  | encode name position text => exact Kind.encode text permits
  | encodeNull name position => exact Kind.encodeNull permits
  | decode name position => exact Kind.decode permits
  | releaseAll name schema =>
      obtain rfl : schema = setup.schemas name := permits
      exact Kind.release (Or.inl rfl)
  | releaseRecord name schema =>
      obtain rfl : schema = setup.schemas name := permits
      exact Kind.release (Or.inr rfl)
  | encodeMember => cases permits
  | decodeMember => cases permits
  | releaseLayout => cases permits
  | write => cases permits

theorem Releases.target_eq {name : ι} {call : Call ι} (release : setup.Releases name call) :
    call.target = name := by
  rcases release with rfl | rfl <;> rfl

/-! ## Moves -/

variable (setup) [DecidableEq ι]

/-- What a release of a buffer does: the handles that it meets are freed, and the slots that it
clears are null. -/
structure Freed (workspace : Workspace ι) (name : ι) (call : Call ι) (after : Workspace ι) :
    Prop where
  release : setup.Releases name call
  arena_eq : after.codec.arena =
    workspace.codec.arena.discardAll (handlesOf (workspace.met call))
  slot_eq : ∀ {other place}, setup.IsSlot other place → after.slot other place =
    if other = name ∧ place ∈ workspace.clears call then none else workspace.slot other place

/-- What a permitted call answers, and what handles the slots hold after it. -/
inductive Move (workspace : Workspace ι) : Call ι → Reply → Workspace ι → Prop where
  /-- The arena refused a text. -/
  | refused {name position text error} (alloc : workspace.codec.arena.alloc text = .error error) :
      Move workspace (.encode name position text) (.error error) workspace
  /-- A text was stored and its handle put into a slot. -/
  | stored {name position text handle after} (slot : setup.IsSlot name position)
      (alloc : workspace.codec.arena.alloc text = .ok (handle, after.codec.arena))
      (slots : ∀ {other place}, setup.IsSlot other place → after.slot other place =
        if other = name ∧ place = position then some handle else workspace.slot other place) :
      Move workspace (.encode name position text) (.ok (.stored handle)) after
  /-- The null marker was put into a slot. -/
  | nulled {name position after} (slot : setup.IsSlot name position)
      (arena : after.codec.arena = workspace.codec.arena)
      (slots : ∀ {other place}, setup.IsSlot other place → after.slot other place =
        if other = name ∧ place = position then none else workspace.slot other place) :
      Move workspace (.encodeNull name position) (.ok .done) after
  /-- A slot was read. -/
  | read {name position} (slot : setup.IsSlot name position) :
      Move workspace (.decode name position)
        ((workspace.codec.decode (workspace.buffers name) position).map .text) workspace
  /-- The handles in the slots of a plan were freed. -/
  | released {name call after} (freed : setup.Freed workspace name call after) :
      Move workspace call
        (((call.plan setup.config (setup.sizes name)).bind fun _ =>
          Codec.passResult workspace.codec.arena (workspace.met call)).map .released) after

end Setup

/-! ## Handles in slots after a write -/

namespace Workspace

variable [DecidableEq ι] {setup : Setup ι} {workspace : Workspace ι}

/-- A handle that fits the width is in the slot to which it was written; all other slots hold what
they held. -/
theorem slot_put_image (config : workspace.codec.config = setup.config) {name : ι} {position : Nat}
    (slot : setup.IsSlot name position) {codec : Codec}
    (same : codec.config = workspace.codec.config) {handle : Option Handle}
    (fits : Handle.raw handle ≤ setup.config.width.maxHandle) {other : ι} {place : Nat}
    (other_slot : setup.IsSlot other place) :
    (workspace.put name codec ((workspace.buffers name).overwrite position
        (workspace.codec.config.image handle))).slot other place =
      if other = name ∧ place = position then handle else workspace.slot other place := by
  rw [Workspace.slot, Workspace.slot]
  show Buffer.handleAt _ codec.config place = _
  rw [same]
  by_cases here : other = name
  · subst here
    rw [buffers_put_self]
    rcases slot.eq_or_apart other_slot with rfl | apart
    · -- the written slot itself
      rw [if_pos ⟨rfl, rfl⟩]
      exact Buffer.handleAt_overwrite_image _ position (by rw [config]; exact fits)
    · -- another slot of the same buffer shares no byte with it
      rw [if_neg fun both => apart.ne both.2.symm]
      refine Buffer.handleAt_overwrite_of_apart _ ?_
      rw [CodecConfig.length_image, config]
      exact apart
  · rw [buffers_put_of_ne workspace here, if_neg fun both => here both.1]

/-- After a release the slots that were cleared are null, and all others hold what they held. -/
theorem slot_put_released (config : workspace.codec.config = setup.config) {call : Call ι}
    (visited : ∀ visit ∈ workspace.met call, setup.IsSlot call.target visit.1)
    {outcome : Outcome Nat}
    (follows : Codec.Follows workspace.codec (workspace.buffers call.target)
      (call.plan workspace.codec.config (workspace.buffers call.target).size) outcome)
    {other : ι} {place : Nat} (other_slot : setup.IsSlot other place) :
    (workspace.put call.target outcome.codec outcome.buffer).slot other place =
      if other = call.target ∧ place ∈ workspace.clears call then none
      else workspace.slot other place := by
  rw [Workspace.slot, Workspace.slot]
  show Buffer.handleAt _ outcome.codec.config place = _
  rw [follows.codec_eq]
  by_cases here : other = call.target
  · subst here
    rw [buffers_put_self, Buffer.handleAt_congr fun position _ _ => follows.byte_eq position,
      ReleasePass.cleared]
    rw [clears]
    by_cases clear : workspace.codec.config.clearReleased = true
    · rw [if_pos clear, if_pos clear, Buffer.handleAt_clearAll]
      · simp only [true_and]
        rfl
      · -- the cleared slots are slots of the schema, so they are this one or apart from it
        intro position mem
        obtain ⟨visit, freed, rfl⟩ := List.mem_map.1 mem
        have slot := visited visit ((freeing_sublist _ _ _).subset freed)
        rw [config]
        exact slot.eq_or_apart other_slot
    · rw [if_neg clear, if_neg clear, if_neg (by simp)]
  · rw [buffers_put_of_ne workspace here, if_neg fun both => here both.1]

end Workspace

/-! ## Every permitted call is a move -/

namespace Setup

variable {setup : Setup ι} {workspace : Workspace ι}

namespace Owned

/-- Zeros hold no handle, so a codec may start among them whatever strings it holds. -/
theorem of_zeros {codec : Codec} (config : codec.config = setup.config)
    (formed : codec.arena.WellFormed setup.config.width) :
    setup.Owned { codec, buffers := fun name => Buffer.filled (setup.sizes name) 0 } := by
  have null : ∀ name position, Workspace.slot
      { codec, buffers := fun name => Buffer.filled (setup.sizes name) 0 } name position =
        none := by
    intro name position
    exact Buffer.handleAt_filled_zero ..
  refine
    { config := config
      size := fun _ => rfl
      formed := formed
      issued := ?_
      distinct := ?_ }
  · intro name position handle _ held
    rw [null] at held
    cases held
  · intro name position other place handle _ _ held
    rw [null] at held
    cases held

theorem start : setup.Owned setup.start :=
  of_zeros rfl (Arena.WellFormed.empty setup.config.width)

theorem met_of_refused (owned : setup.Owned workspace) {name : ι} {call : Call ι}
    (release : setup.Releases name call) {error : SlotError}
    (plan : call.plan setup.config (setup.sizes name) = .error error) :
    workspace.met call = [] := by
  obtain rfl := release.target_eq
  rw [Workspace.met, owned.config, owned.size, plan]
  rfl

theorem met_of_plan (owned : setup.Owned workspace) {name : ι} {call : Call ι}
    (release : setup.Releases name call) {positions : List Nat}
    (plan : call.plan setup.config (setup.sizes name) = .ok positions) :
    workspace.met call = (workspace.buffers name).visits setup.config positions := by
  obtain rfl := release.target_eq
  rw [Workspace.met, owned.config, owned.size, plan, ← owned.config]
  rfl

/-- A release meets slots of its buffer, and no handle twice. -/
theorem met (owned : setup.Owned workspace) {name : ι} {call : Call ι}
    (release : setup.Releases name call) :
    (∀ visit ∈ workspace.met call,
      setup.IsSlot name visit.1 ∧ workspace.slot name visit.1 = some visit.2) ∧
      (handlesOf (workspace.met call)).Nodup := by
  cases plan : call.plan setup.config (setup.sizes name) with
  | error error =>
      rw [owned.met_of_refused release plan]
      exact ⟨fun visit mem => absurd mem List.not_mem_nil, List.nodup_nil⟩
  | ok positions =>
      obtain ⟨nodup, slots⟩ := release.plan_slots plan
      rw [owned.met_of_plan release plan]
      constructor
      · intro visit mem
        obtain ⟨position, held⟩ := (Buffer.mem_visits_iff _ _).1 mem
        refine ⟨slots _ position, ?_⟩
        rw [Workspace.slot, owned.config]
        exact held
      · -- a handle that was met twice would sit in two slots
        apply Buffer.nodup_handlesOf_visits _ _ nodup
        intro p p_mem q q_mem handle p_held q_held
        rw [← owned.config] at p_held q_held
        exact (owned.distinct (slots p p_mem) (slots q q_mem) p_held q_held).2

variable [DecidableEq ι]

/-- A release that follows its plan is a move. -/
theorem move_of_follows (owned : setup.Owned workspace) {name : ι} {call : Call ι}
    (release : setup.Releases name call) {outcome : Outcome Nat}
    (follows : Codec.Follows workspace.codec (workspace.buffers call.target)
      (call.plan workspace.codec.config (workspace.buffers call.target).size) outcome) :
    setup.Move workspace call (outcome.result.map .released)
      (workspace.put call.target outcome.codec outcome.buffer) := by
  have reply : outcome.result = (call.plan workspace.codec.config
      (workspace.buffers call.target).size).bind fun _ =>
        Codec.passResult workspace.codec.arena (workspace.met call) := follows.result_eq
  have visited := (owned.met release).1
  obtain rfl := release.target_eq
  -- the plan hangs on the setup alone
  rw [owned.config, owned.size] at reply
  rw [reply]
  apply Move.released
  refine ⟨release, ?_, ?_⟩
  · show outcome.codec.arena = _
    rw [follows.codec_eq]
    rfl
  · intro other place slot
    apply Workspace.slot_put_released owned.config _ follows slot
    intro visit mem
    exact (visited visit mem).1

/-- A permitted call is a move. -/
theorem move (owned : setup.Owned workspace) {call : Call ι} (permits : setup.Permits call) :
    setup.Move workspace call (workspace.step call).1 (workspace.step call).2 := by
  cases kind_of_permits permits with
  | @encode name position text slot =>
      rw [Workspace.step, Codec.encode_eq, owned.config, owned.size, if_pos slot.inside]
      cases alloc : workspace.codec.arena.alloc text with
      | error error =>
          rw [Workspace.commit_refuse]
          exact Move.refused alloc
      | ok new =>
          obtain ⟨handle, arena⟩ := new
          obtain ⟨-, room, value, -⟩ := Arena.alloc_eq_ok_iff.1 alloc
          -- an issued handle is within the limit, so the slot can hold it
          have fits : Handle.raw (some handle) ≤ setup.config.width.maxHandle := by
            show handle.value ≤ _
            rw [value, ← owned.formed.limit]
            exact room
          refine Move.stored slot alloc ?_
          intro other place other_slot
          rw [← owned.config]
          exact Workspace.slot_put_image owned.config slot rfl fits other_slot
  | @encodeNull name position slot =>
      rw [Workspace.step, Codec.encodeNull_eq, owned.config, owned.size, if_pos slot.inside]
      refine Move.nulled slot rfl ?_
      intro other place other_slot
      rw [← owned.config]
      exact Workspace.slot_put_image owned.config slot rfl (Nat.zero_le _) other_slot
  | decode slot => exact Move.read slot
  | release release =>
      rcases release with rfl | rfl
      · exact owned.move_of_follows (Or.inl rfl) (workspace.codec.releaseAll_follows _ _)
      · exact owned.move_of_follows (Or.inr rfl) (workspace.codec.releaseRecord_follows _ _)

end Owned

/-! ## What every move keeps -/

variable [DecidableEq ι]

/-- A handle that a slot holds after a move was there before, or the move is an `encode` at that
slot and the handle is the value of the counter. -/
theorem Move.held_cases {call : Call ι} {reply : Reply} {after : Workspace ι}
    (move : setup.Move workspace call reply after) {name : ι} {position : Nat} {handle : Handle}
    (slot : setup.IsSlot name position) (held : after.slot name position = some handle) :
    workspace.slot name position = some handle ∨
      (∃ text, call = .encode name position text) ∧
        handle.value = workspace.codec.arena.next ∧
        after.codec.arena.next = workspace.codec.arena.next + 1 := by
  cases move with
  | refused alloc => exact Or.inl held
  | @stored own place text new after own_slot alloc slots =>
      rw [slots slot] at held
      split at held
      · next here =>
        -- the slot of the call holds the new handle
        obtain ⟨rfl, rfl⟩ := here
        obtain rfl := Option.some.inj held
        obtain ⟨-, -, value, grown⟩ := Arena.alloc_eq_ok_iff.1 alloc
        exact Or.inr ⟨⟨text, rfl⟩, value, by rw [grown]; rfl⟩
      · exact Or.inl held
  | nulled own_slot arena slots =>
      rw [slots slot] at held
      split at held
      · cases held
      · exact Or.inl held
  | read own_slot => exact Or.inl held
  | released freed =>
      rw [freed.slot_eq slot] at held
      split at held
      · cases held
      · exact Or.inl held

namespace Owned

/-- A permitted call keeps the invariant. -/
theorem step (owned : setup.Owned workspace) {call : Call ι} (permits : setup.Permits call) :
    setup.Owned (workspace.step call).2 := by
  have effect := workspace.step_effect call
  have move := owned.move permits
  generalize (workspace.step call).1 = reply at move
  generalize (workspace.step call).2 = after at effect move ⊢
  refine
    { config := effect.config_eq.trans owned.config
      size := fun name => (effect.size_eq name).trans (owned.size name)
      formed := effect.wellFormed owned.formed
      issued := ?_
      distinct := ?_ }
  · intro name position handle slot held
    rcases move.held_cases slot held with old | ⟨-, value, next⟩
    · exact Nat.lt_of_lt_of_le (owned.issued slot old) effect.next_le
    · omega
  · intro name position other place handle slot other_slot held other_held
    rcases move.held_cases slot held with old | ⟨⟨text, here⟩, value, -⟩
    · rcases move.held_cases other_slot other_held with other_old | ⟨-, value, -⟩
      · exact owned.distinct slot other_slot old other_old
      · -- the handle was issued before and is new at once
        have issued := owned.issued slot old
        omega
    · rcases move.held_cases other_slot other_held with other_old | ⟨⟨other_text, there⟩, -, -⟩
      · have issued := owned.issued other_slot other_old
        omega
      · -- both slots are the one at which the text was stored
        rw [here] at there
        cases there
        exact ⟨rfl, rfl⟩

/-- The invariant holds along every run of permitted calls. -/
theorem run (calls : List (Call ι)) (permits : ∀ call ∈ calls, setup.Permits call) :
    setup.Owned (setup.start.run calls) := by
  apply Workspace.run_induction calls Owned.start
  intro now owned call mem
  exact owned.step (permits call mem)

end Owned

end Setup

end StringSlots
