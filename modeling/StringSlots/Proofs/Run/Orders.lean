import StringSlots.Proofs.Run.RoundTrip
import StringSlots.Proofs.Run.Slots

/-!
# Byte orders

Two setups that differ in the byte order only run in step. `Lockstep` relates two workspaces: the
arenas are one, each slot holds one handle in both, and the bytes that belong to no slot are zero.
A call on slots answers the same in both and keeps the relation (`Lockstep.step`), since it reads
and writes nothing but handles.

What the relation says of the bytes follows from the image of a handle: a slot holds the same bytes
in both, once they are put into one order (`Lockstep.segment_eq`). So a byte order is a
representation and nothing else (`byte_orders_run_in_step`).
-/

namespace StringSlots

universe u

/-- The bytes of a slot are the image of the handle in it. -/
theorem Buffer.segment_eq_image (buffer : Buffer) (config : CodecConfig) (offset : Nat) :
    buffer.segment offset (offset + config.width.bytes) =
      config.image (buffer.handleAt config offset) := by
  have length : (buffer.segment offset (offset + config.width.bytes)).length =
      config.width.bytes := by
    rw [length_segment, Nat.add_sub_cancel_left]
  have image := ByteOrder.image_value? config.order config.width _ _ length
    (buffer.value?_segment config offset)
  rw [CodecConfig.image, handleAt, Handle.raw_ofNat?, image]

variable {ι : Type u}

/-- The codec with another byte order. -/
def Codec.withOrder (codec : Codec) (order : ByteOrder) : Codec :=
  { codec with config := { codec.config with order } }

/-- Calls that are about one slot. -/
inductive OnSlot (name : ι) (position : Nat) : Call ι → Prop where
  | encode (text : String) : OnSlot name position (.encode name position text)
  | encodeNull : OnSlot name position (.encodeNull name position)
  | decode : OnSlot name position (.decode name position)

namespace Setup

variable (setup : Setup ι)

/-- The setup with another byte order. -/
def withOrder (order : ByteOrder) : Setup ι :=
  { setup with config := { setup.config with order } }

/-- A codec with a given byte order among the buffers of the setup, filled with zeros. -/
def among (codec : Codec) (order : ByteOrder) : Workspace ι :=
  { codec := codec.withOrder order, buffers := fun name => Buffer.filled (setup.sizes name) 0 }

/-- Calls on a slot that leaves its buffer. -/
def Misses (call : Call ι) : Prop :=
  ∃ name position, OnSlot name position call ∧
    setup.sizes name < position + setup.config.width.bytes

/-- A place that lies in no slot of a buffer. -/
def Apart (name : ι) (place : Nat) : Prop :=
  ∀ position, setup.IsSlot name position →
    place < position ∨ position + setup.config.width.bytes ≤ place

/-- Bytes that belong to no slot are zero. -/
def ZeroApart (workspace : Workspace ι) : Prop :=
  ∀ {name place}, setup.Apart name place → (workspace.buffers name).byte place = 0

/-- Two workspaces that hold the same handles in the same slots, each in its own byte order. -/
structure Lockstep (first second : ByteOrder) (a b : Workspace ι) : Prop where
  left : (setup.withOrder first).Owned a
  right : (setup.withOrder second).Owned b
  arena_eq : b.codec.arena = a.codec.arena
  slot_eq : ∀ {name position}, setup.IsSlot name position →
    b.slot name position = a.slot name position
  left_zero : setup.ZeroApart a
  right_zero : setup.ZeroApart b

/-- Two workspaces with one arena, whose buffers differ only in that the bytes of each slot are
reversed. -/
structure Mirrored (a b : Workspace ι) : Prop where
  arena_eq : b.codec.arena = a.codec.arena
  size_eq : ∀ name, (b.buffers name).size = (a.buffers name).size
  segment_eq : ∀ {name position}, setup.IsSlot name position →
    (b.buffers name).segment position (position + setup.config.width.bytes) =
      ((a.buffers name).segment position (position + setup.config.width.bytes)).reverse
  byte_eq : ∀ {name place}, setup.Apart name place →
    (b.buffers name).byte place = (a.buffers name).byte place

variable {setup} [DecidableEq ι] {workspace : Workspace ι} {call : Call ι}

/-! ## What a call writes -/

namespace Owned

variable (owned : setup.Owned workspace)
include owned

omit [DecidableEq ι] in
theorem isSlot_of_mem_clears (permits : setup.Permits call) {position : Nat}
    (cleared : position ∈ workspace.clears call) : setup.IsSlot call.target position := by
  rw [Workspace.clears] at cleared
  split at cleared
  · obtain ⟨visit, freed, rfl⟩ := List.mem_map.1 cleared
    have met := (freeing_sublist _ _ _).subset freed
    cases kind_of_permits permits with
    | encode text slot => exact absurd met List.not_mem_nil
    | encodeNull slot => exact absurd met List.not_mem_nil
    | decode slot => exact absurd met List.not_mem_nil
    | release release =>
        rw [release.target_eq]
        exact ((owned.met release).1 visit met).1
  · exact absurd cleared List.not_mem_nil

/-- A permitted call writes whole slots. -/
theorem slot_of_mem_writes (permits : setup.Permits call) {range : Nat × Nat}
    (mem : range ∈ workspace.writes call) :
    ∃ position, setup.IsSlot call.target position ∧
      range = (position, setup.config.width.bytes) := by
  have of_clears : range ∈ (workspace.clears call).map (fun position =>
      (position, workspace.codec.config.width.bytes)) →
      ∃ position, setup.IsSlot call.target position ∧
        range = (position, setup.config.width.bytes) := by
    intro cleared
    obtain ⟨position, position_mem, rfl⟩ := List.mem_map.1 cleared
    exact ⟨position, owned.isSlot_of_mem_clears permits position_mem, by rw [owned.config]⟩
  cases kind_of_permits permits with
  | @encode name position text slot =>
      cases reply : (workspace.step (.encode name position text)).1 with
      | ok answer =>
          simp only [Workspace.writes, reply, List.mem_singleton] at mem
          exact ⟨position, slot, by rw [mem, owned.config]⟩
      | error error =>
          simp only [Workspace.writes, reply] at mem
          exact of_clears mem
  | @encodeNull name position slot =>
      cases reply : (workspace.step (.encodeNull name position)).1 with
      | ok answer =>
          simp only [Workspace.writes, reply, List.mem_singleton] at mem
          exact ⟨position, slot, by rw [mem, owned.config]⟩
      | error error =>
          simp only [Workspace.writes, reply] at mem
          exact of_clears mem
  | decode slot =>
      simp only [Workspace.writes] at mem
      exact of_clears mem
  | release release =>
      rcases release with rfl | rfl <;> simp only [Workspace.writes] at mem <;>
        exact of_clears mem

/-- Zeros that belong to no slot stay zeros. -/
theorem zeroApart_step (zero : setup.ZeroApart workspace) (permits : setup.Permits call) :
    setup.ZeroApart (workspace.step call).2 := by
  intro name place apart
  rw [(workspace.step_effect call).byte_eq]
  · exact zero apart
  · rintro ⟨rfl, range, mem, above, below⟩
    obtain ⟨position, slot, rfl⟩ := owned.slot_of_mem_writes permits mem
    have outside := apart position slot
    dsimp only at above below
    omega

/-- A slot that leaves its buffer is refused. -/
theorem step_of_outside {name : ι} {position : Nat} (on_slot : OnSlot name position call)
    (outside : setup.sizes name < position + setup.config.width.bytes) :
    workspace.step call =
      (.error (.slotOutOfBounds position setup.config.width.bytes (setup.sizes name)),
        workspace) := by
  have refused : ¬position + workspace.codec.config.width.bytes ≤
      (workspace.buffers name).size := by
    rw [owned.config, owned.size]
    exact Nat.not_le.2 outside
  have error : workspace.codec.outOfBounds (workspace.buffers name) position =
      .slotOutOfBounds position setup.config.width.bytes (setup.sizes name) := by
    rw [Codec.outOfBounds, owned.config, owned.size]
  cases on_slot with
  | encode text =>
      rw [Workspace.step, Codec.encode_eq, if_neg refused, Workspace.commit_refuse, error]
  | encodeNull =>
      rw [Workspace.step, Codec.encodeNull_eq, if_neg refused, Workspace.commit_refuse, error]
  | decode =>
      rw [Workspace.step, Codec.decode_eq, if_neg refused, error]
      rfl

end Owned

/-! ## Steps in two byte orders -/

namespace Lockstep

variable {first second : ByteOrder} {a b : Workspace ι}

omit [DecidableEq ι] in
/-- Zeros hold no handle in any order. -/
theorem of_zeros {codec : Codec} (config : codec.config = setup.config)
    (formed : codec.arena.WellFormed setup.config.width) :
    setup.Lockstep first second (setup.among codec first) (setup.among codec second) where
  left := Owned.of_zeros (by rw [Codec.withOrder, config]; rfl) formed
  right := Owned.of_zeros (by rw [Codec.withOrder, config]; rfl) formed
  arena_eq := rfl
  slot_eq _ := (Buffer.handleAt_filled_zero ..).trans (Buffer.handleAt_filled_zero ..).symm
  left_zero _ := by simp [among, Buffer.byte, Buffer.filled]
  right_zero _ := by simp [among, Buffer.byte, Buffer.filled]

section Step

variable (lockstep : setup.Lockstep first second a b)
include lockstep

omit [DecidableEq ι] in
theorem decode_eq {name : ι} {position : Nat} (slot : setup.IsSlot name position) :
    b.codec.decode (b.buffers name) position = a.codec.decode (a.buffers name) position := by
  have same : (b.buffers name).handleAt b.codec.config position =
      (a.buffers name).handleAt a.codec.config position := lockstep.slot_eq slot
  have left_inside : position + a.codec.config.width.bytes ≤ (a.buffers name).size := by
    rw [lockstep.left.config, lockstep.left.size]
    exact slot.inside
  have right_inside : position + b.codec.config.width.bytes ≤ (b.buffers name).size := by
    rw [lockstep.right.config, lockstep.right.size]
    exact slot.inside
  rw [Codec.decode_eq, Codec.decode_eq, if_pos left_inside, if_pos right_inside, same,
    lockstep.arena_eq]

omit [DecidableEq ι] in
/-- A release meets the same handles at the same slots. -/
theorem met_eq {name : ι} (release : setup.Releases name call) : b.met call = a.met call := by
  have plan_eq : ∀ order, call.plan (setup.withOrder order).config (setup.sizes name) =
      call.plan setup.config (setup.sizes name) := by
    intro order
    rcases release with rfl | rfl <;> rfl
  cases plan : call.plan setup.config (setup.sizes name) with
  | error error =>
      rw [lockstep.left.met_of_refused release ((plan_eq first).trans plan),
        lockstep.right.met_of_refused release ((plan_eq second).trans plan)]
  | ok positions =>
      rw [lockstep.left.met_of_plan release ((plan_eq first).trans plan),
        lockstep.right.met_of_plan release ((plan_eq second).trans plan)]
      apply List.filterMap_congr
      intro position mem
      -- the slots of a plan are slots of the schema
      have slot := lockstep.slot_eq ((release.plan_slots plan).2 position mem)
      rw [Workspace.slot, Workspace.slot, lockstep.left.config, lockstep.right.config] at slot
      rw [slot]

omit [DecidableEq ι] in
theorem clears_eq {name : ι} (release : setup.Releases name call) :
    b.clears call = a.clears call := by
  rw [Workspace.clears, Workspace.clears, lockstep.met_eq release, lockstep.arena_eq,
    lockstep.left.config, lockstep.right.config]
  rfl

/-- A release answers, frees and clears the same in both orders. -/
theorem released_eq {left_name right_name : ι} {left_after right_after : Workspace ι}
    (left : (setup.withOrder first).Freed a left_name call left_after)
    (right : (setup.withOrder second).Freed b right_name call right_after) :
    ((call.plan (setup.withOrder second).config (setup.sizes right_name)).bind fun _ =>
        Codec.passResult b.codec.arena (b.met call)).map Answer.released =
      ((call.plan (setup.withOrder first).config (setup.sizes left_name)).bind fun _ =>
        Codec.passResult a.codec.arena (a.met call)).map Answer.released ∧
      right_after.codec.arena = left_after.codec.arena ∧
      ∀ {name position}, setup.IsSlot name position →
        right_after.slot name position = left_after.slot name position := by
  have met := lockstep.met_eq left.release
  have clears := lockstep.clears_eq left.release
  obtain rfl := left.release.target_eq
  obtain rfl := right.release.target_eq
  refine ⟨?_, ?_, ?_⟩
  · rw [met, lockstep.arena_eq]
    rcases left.release with same | same <;> rw [same] <;> rfl
  · rw [right.arena_eq, left.arena_eq, lockstep.arena_eq, met]
  · intro other place slot
    rw [right.slot_eq slot, left.slot_eq slot, clears, lockstep.slot_eq slot]

/-- The same call is the same move in both orders. -/
theorem move_eq {left_reply right_reply : Reply} {left_after right_after : Workspace ι}
    (left : (setup.withOrder first).Move a call left_reply left_after)
    (right : (setup.withOrder second).Move b call right_reply right_after) :
    right_reply = left_reply ∧ right_after.codec.arena = left_after.codec.arena ∧
      ∀ {name position}, setup.IsSlot name position →
        right_after.slot name position = left_after.slot name position := by
  cases left with
  | refused left_alloc =>
      cases right with
      | refused alloc =>
          rw [lockstep.arena_eq, left_alloc] at alloc
          cases alloc
          exact ⟨rfl, lockstep.arena_eq, lockstep.slot_eq⟩
      | stored _ alloc _ =>
          rw [lockstep.arena_eq, left_alloc] at alloc
          cases alloc
      | released freed => rcases freed.release with other | other <;> cases other
  | stored slot left_alloc left_slots =>
      cases right with
      | refused alloc =>
          rw [lockstep.arena_eq, left_alloc] at alloc
          cases alloc
      | stored _ alloc slots =>
          rw [lockstep.arena_eq, left_alloc] at alloc
          obtain ⟨same_handle, same_arena⟩ := Prod.mk.inj (Except.ok.inj alloc)
          refine ⟨by rw [same_handle], same_arena.symm, ?_⟩
          intro other place other_slot
          rw [slots other_slot, left_slots other_slot, lockstep.slot_eq other_slot, same_handle]
      | released freed => rcases freed.release with other | other <;> cases other
  | nulled slot left_arena left_slots =>
      cases right with
      | nulled _ arena slots =>
          refine ⟨rfl, arena.trans (lockstep.arena_eq.trans left_arena.symm), ?_⟩
          intro other place other_slot
          rw [slots other_slot, left_slots other_slot, lockstep.slot_eq other_slot]
      | released freed => rcases freed.release with other | other <;> cases other
  | read slot =>
      cases right with
      | read _ => exact ⟨by rw [lockstep.decode_eq slot], lockstep.arena_eq, lockstep.slot_eq⟩
      | released freed => rcases freed.release with other | other <;> cases other
  | released left_freed =>
      rcases left_freed.release with rfl | rfl
      · cases right with
        | released freed => exact lockstep.released_eq left_freed freed
      · cases right with
        | released freed => exact lockstep.released_eq left_freed freed

/-- A call on slots answers the same in both orders and keeps them in step. -/
theorem step (permits : setup.Permits call) :
    (b.step call).1 = (a.step call).1 ∧
      setup.Lockstep first second (a.step call).2 (b.step call).2 := by
  have left_permits : (setup.withOrder first).Permits call := permits
  have right_permits : (setup.withOrder second).Permits call := permits
  obtain ⟨reply, arena, slots⟩ :=
    lockstep.move_eq (lockstep.left.move left_permits) (lockstep.right.move right_permits)
  refine ⟨reply, ?_⟩
  exact
    { left := lockstep.left.step left_permits
      right := lockstep.right.step right_permits
      arena_eq := arena
      slot_eq := slots
      left_zero := lockstep.left.zeroApart_step lockstep.left_zero left_permits
      right_zero := lockstep.right.zeroApart_step lockstep.right_zero right_permits }

/-- A call on a slot that leaves its buffer is refused in both orders. -/
theorem step_of_misses (misses : setup.Misses call) :
    (b.step call).1 = (a.step call).1 ∧
      setup.Lockstep first second (a.step call).2 (b.step call).2 := by
  obtain ⟨name, position, on_slot, outside⟩ := misses
  have left := lockstep.left.step_of_outside on_slot outside
  have right := lockstep.right.step_of_outside on_slot outside
  rw [left, right]
  exact ⟨rfl, lockstep⟩

/-- Runs of the same calls answer the same and stay in step. -/
theorem run {calls : List (Call ι)}
    (permits : ∀ call ∈ calls, setup.Permits call ∨ setup.Misses call) :
    b.replies calls = a.replies calls ∧
      setup.Lockstep first second (a.run calls) (b.run calls) := by
  induction calls generalizing a b with
  | nil => exact ⟨rfl, lockstep⟩
  | cons call rest ih =>
      obtain ⟨reply, stepped⟩ : (b.step call).1 = (a.step call).1 ∧
          setup.Lockstep first second (a.step call).2 (b.step call).2 := by
        rcases permits call List.mem_cons_self with here | misses
        · exact lockstep.step here
        · exact lockstep.step_of_misses misses
      obtain ⟨replies, later⟩ := ih stepped fun other mem =>
        permits other (List.mem_cons_of_mem _ mem)
      rw [Workspace.replies, Workspace.replies, reply, replies]
      exact ⟨rfl, later⟩

/-! ## Bytes in two byte orders -/

omit [DecidableEq ι] in
/-- The bytes of a slot are the same number in both orders. -/
theorem segment_eq {name : ι} {position : Nat} (slot : setup.IsSlot name position) :
    (b.buffers name).segment position (position + setup.config.width.bytes) =
      second.arrange (first.arrange
        ((a.buffers name).segment position (position + setup.config.width.bytes))) := by
  have left := (a.buffers name).segment_eq_image (setup.withOrder first).config position
  have right := (b.buffers name).segment_eq_image (setup.withOrder second).config position
  have held := lockstep.slot_eq slot
  rw [Workspace.slot, Workspace.slot, lockstep.left.config, lockstep.right.config] at held
  rw [held] at right
  -- both are images of one number
  refine right.trans ?_
  rw [show (a.buffers name).segment position (position + setup.config.width.bytes) = _ from left]
  show second.arrange _ = second.arrange (first.arrange (first.arrange _))
  rw [ByteOrder.arrange_arrange]
  rfl

omit [DecidableEq ι] in
theorem byte_eq_of_apart {name : ι} {place : Nat} (apart : setup.Apart name place) :
    (b.buffers name).byte place = (a.buffers name).byte place :=
  (lockstep.right_zero apart).trans (lockstep.left_zero apart).symm

omit [DecidableEq ι] in
theorem size_eq (name : ι) : (b.buffers name).size = (a.buffers name).size :=
  (lockstep.right.size name).trans (lockstep.left.size name).symm

end Step

omit [DecidableEq ι] in
theorem mirrored (lockstep : setup.Lockstep .little .big a b) : setup.Mirrored a b where
  arena_eq := lockstep.arena_eq
  size_eq := lockstep.size_eq
  segment_eq := lockstep.segment_eq
  byte_eq := lockstep.byte_eq_of_apart

omit [DecidableEq ι] in
/-- The native order is the little one. -/
theorem bytes_eq (lockstep : setup.Lockstep .little .native a b) (name : ι) :
    (b.buffers name).bytes = (a.buffers name).bytes := by
  refine Buffer.bytes_eq_iff.2 ⟨lockstep.size_eq name, ?_⟩
  intro place _
  by_cases apart : setup.Apart name place
  · exact lockstep.byte_eq_of_apart apart
  · rw [Apart] at apart
    push Not at apart
    obtain ⟨position, slot, above, below⟩ := apart
    -- the place is one of the bytes of a slot
    have same : (b.buffers name).segment position (position + setup.config.width.bytes) =
        (a.buffers name).segment position (position + setup.config.width.bytes) :=
      lockstep.segment_eq slot
    refine List.map_inj_left.1 same place (List.mem_range'_1.2 ⟨above, ?_⟩)
    omega

end Lockstep

/-- A byte order is only a representation. Runs of the same calls on slots, from buffers of zeros,
answer the same under the little and the big order, with the same arena after every call, and each
slot of a buffer holds reversed bytes; under the native order also the bytes are those of the little
one. Calls on slots that leave their buffer may stand between them. -/
theorem byte_orders_run_in_step {codec : Codec} (reachable : codec.Reachable)
    (config : codec.config = setup.config) {calls : List (Call ι)}
    (permits : ∀ call ∈ calls, setup.Permits call ∨ setup.Misses call) :
    let start := setup.among codec
    ((start .big).replies calls = (start .little).replies calls ∧
      ∀ done, done <+: calls →
        setup.Mirrored ((start .little).run done) ((start .big).run done)) ∧
      (start .native).replies calls = (start .little).replies calls ∧
        ∀ done, done <+: calls →
          ((start .native).run done).codec.arena = ((start .little).run done).codec.arena ∧
            ∀ name, (((start .native).run done).buffers name).bytes =
              (((start .little).run done).buffers name).bytes := by
  intro start
  have formed := reachable.wellFormed
  rw [config] at formed
  have along : ∀ {second done}, done <+: calls →
      (start second).replies done = (start .little).replies done ∧
        setup.Lockstep .little second ((start .little).run done) ((start second).run done) := by
    intro second done earlier
    have zeros : setup.Lockstep .little second (start .little) (start second) :=
      Lockstep.of_zeros config formed
    exact zeros.run fun call mem => permits call (earlier.subset mem)
  refine ⟨⟨(along List.prefix_rfl).1, ?_⟩, (along List.prefix_rfl).1, ?_⟩
  · intro done earlier
    exact (along earlier).2.mirrored
  · intro done earlier
    exact ⟨(along earlier).2.arena_eq, (along earlier).2.bytes_eq⟩

/-- Calls on both buffers: a text with a NUL, a slot behind the end, a handle that is met twice. -/
def storedInBothOrders : List (Call Bool) :=
  [.encode true 4 "a", .encode false 0 "b\x00", .encode false 4 "c", .decode true 8,
    .releaseAll true (.single .w32), .decode true 4, .encodeNull false 4,
    .releaseRecord false (.single .w32), .releaseAll true (.single .w32)]

theorem byte_orders_run_in_step_storedInBothOrders :
    let start := (pair .process false).among (Codec.new (pair .process false).config)
    (start .big).replies storedInBothOrders = (start .little).replies storedInBothOrders ∧
      (pair .process false).Mirrored ((start .little).run storedInBothOrders)
        ((start .big).run storedInBothOrders) ∧
      (start .native).replies storedInBothOrders = (start .little).replies storedInBothOrders := by
  have permits : ∀ call ∈ storedInBothOrders,
      (pair .process false).Permits call ∨ (pair .process false).Misses call := by
    intro call mem
    simp only [storedInBothOrders, List.mem_cons, List.not_mem_nil, or_false] at mem
    rcases mem with rfl | rfl | rfl | rfl | rfl | rfl | rfl | rfl | rfl
    case inr.inr.inr.inl => exact Or.inr ⟨true, 8, OnSlot.decode, by decide⟩
    all_goals exact Or.inl (by decide +kernel)
  have in_step := byte_orders_run_in_step (Codec.Reachable.new _) rfl permits
  exact ⟨in_step.1.1, in_step.1.2 _ List.prefix_rfl, in_step.2.1⟩

end Setup

end StringSlots
