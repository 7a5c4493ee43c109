import Mathlib.Logic.Function.Basic
import StringSlots.Proofs.Release.Plan

/-!
# Runs of calls

A `Workspace` is a codec among named buffers. A `Call` is one operation on the codec and one buffer,
or a write of raw bytes by the owner of a buffer. `Workspace.step` carries out a call,
`Workspace.run` a list of calls, and `Workspace.replies` collects the answers.

`Effect` lists what a step can do to a workspace: nothing, put a fresh handle into a slot, put bytes
into a buffer, or a release along a plan. `step_effect` says that every step does one of these, so
that what a run preserves is proved by these four cases.
-/

namespace StringSlots

universe u

/-- A codec and the buffers that its calls are about. -/
structure Workspace (ι : Type u) where
  codec : Codec
  buffers : ι → Buffer

/-- One operation, with the name of the buffer that it is about. -/
inductive Call (ι : Type u) where
  | encode (target : ι) (offset : Nat) (text : String)
  | encodeNull (target : ι) (offset : Nat)
  | decode (target : ι) (offset : Nat)
  | releaseAll (target : ι) (schema : SlotSchema)
  | releaseRecord (target : ι) (schema : SlotSchema)
  | encodeMember (target : ι) (layout : CompoundLayout) (record : Nat) (name text : String)
  | decodeMember (target : ι) (layout : CompoundLayout) (record : Nat) (name : String)
  | releaseLayout (target : ι) (layout : CompoundLayout)
  /-- Raw bytes written by the owner of the buffer. -/
  | write (target : ι) (offset : Nat) (image : Bytes)

/-- What a call answers when it succeeds. -/
inductive Answer where
  | done
  | stored (handle : Handle)
  | text (text : Option String)
  | released (count : Nat)
  deriving DecidableEq

/-- What a call answers. -/
abbrev Reply := Except SlotError Answer

variable {ι : Type u}

namespace Call

/-- The buffer that a call is about. -/
def target : Call ι → ι
  | encode target _ _ => target
  | encodeNull target _ => target
  | decode target _ => target
  | releaseAll target _ => target
  | releaseRecord target _ => target
  | encodeMember target _ _ _ _ => target
  | decodeMember target _ _ _ => target
  | releaseLayout target _ => target
  | write target _ _ => target

/-- The slots that a call is to release in a buffer of `size` bytes. -/
def plan (config : CodecConfig) (size : Nat) : Call ι → Except SlotError (List Nat)
  | releaseAll _ schema => Codec.releasePlan config schema size
  | releaseRecord _ schema => Codec.recordPlan config schema size
  | releaseLayout _ layout => Codec.layoutPlan config layout size
  | _ => .ok []

end Call

namespace Workspace

/-- A codec without strings among buffers of zeros. -/
def fresh (config : CodecConfig) (sizes : ι → Nat) : Workspace ι :=
  { codec := Codec.new config, buffers := fun name => Buffer.filled (sizes name) 0 }

/-- The handle in a slot of a buffer. -/
def slot (workspace : Workspace ι) (name : ι) (offset : Nat) : Option Handle :=
  (workspace.buffers name).handleAt workspace.codec.config offset

/-- The visits of a release call: the slots of its plan that hold a handle, each with its handle. -/
def met (workspace : Workspace ι) (call : Call ι) : List (Nat × Handle) :=
  let buffer := workspace.buffers call.target
  workspace.codec.plannedVisits buffer (call.plan workspace.codec.config buffer.size)

variable [DecidableEq ι]

/-- The workspace with another codec, and another buffer under a name. -/
def put (workspace : Workspace ι) (name : ι) (codec : Codec) (buffer : Buffer) : Workspace ι :=
  { codec, buffers := Function.update workspace.buffers name buffer }

/-- The reply and the workspace after a call with a given outcome. -/
def commit {α : Type} (workspace : Workspace ι) (name : ι) (answer : α → Answer)
    (outcome : Outcome α) : Reply × Workspace ι :=
  (outcome.result.map answer, workspace.put name outcome.codec outcome.buffer)

/-- Carries out a call. Raw bytes that would leave the buffer are not written. -/
def step (workspace : Workspace ι) : Call ι → Reply × Workspace ι
  | .encode name offset text =>
      workspace.commit name .stored (workspace.codec.encode text (workspace.buffers name) offset)
  | .encodeNull name offset =>
      workspace.commit name (fun _ => .done)
        (workspace.codec.encodeNull (workspace.buffers name) offset)
  | .decode name offset =>
      ((workspace.codec.decode (workspace.buffers name) offset).map .text, workspace)
  | .releaseAll name schema =>
      workspace.commit name .released (workspace.codec.releaseAll (workspace.buffers name) schema)
  | .releaseRecord name schema =>
      workspace.commit name .released
        (workspace.codec.releaseRecord (workspace.buffers name) schema)
  | .encodeMember name layout record member text =>
      workspace.commit name .stored
        (workspace.codec.encodeMember layout (workspace.buffers name) record member text)
  | .decodeMember name layout record member =>
      ((workspace.codec.decodeMember layout (workspace.buffers name) record member).map .text,
        workspace)
  | .releaseLayout name layout =>
      workspace.commit name .released
        (workspace.codec.releaseLayout layout (workspace.buffers name))
  | .write name offset image =>
      if offset + image.length ≤ (workspace.buffers name).size then
        (.ok .done,
          workspace.put name workspace.codec ((workspace.buffers name).overwrite offset image))
      else (.ok .done, workspace)

/-- The workspace after a list of calls. -/
def run (workspace : Workspace ι) (calls : List (Call ι)) : Workspace ι :=
  calls.foldl (fun now call => (now.step call).2) workspace

/-- The replies to a list of calls. -/
def replies (workspace : Workspace ι) : List (Call ι) → List Reply
  | [] => []
  | call :: rest => (workspace.step call).1 :: (workspace.step call).2.replies rest

@[simp] theorem run_nil (workspace : Workspace ι) : workspace.run [] = workspace := rfl

@[simp] theorem run_cons (workspace : Workspace ι) (call : Call ι) (rest : List (Call ι)) :
    workspace.run (call :: rest) = (workspace.step call).2.run rest := rfl

theorem run_append (workspace : Workspace ι) (first rest : List (Call ι)) :
    workspace.run (first ++ rest) = (workspace.run first).run rest :=
  List.foldl_append

/-- What every step keeps, a run keeps. -/
theorem run_induction {motive : Workspace ι → Prop} {workspace : Workspace ι}
    (calls : List (Call ι)) (start : motive workspace)
    (kept : ∀ now, motive now → ∀ call ∈ calls, motive (now.step call).2) :
    motive (workspace.run calls) := by
  induction calls generalizing workspace with
  | nil => exact start
  | cons call rest ih =>
      apply ih (kept workspace start call List.mem_cons_self)
      intro now holds other mem
      exact kept now holds other (List.mem_cons_of_mem _ mem)

/-! ## What a step can do -/

/-- The slots that a release call clears. -/
def clears (workspace : Workspace ι) (call : Call ι) : List Nat :=
  if workspace.codec.config.clearReleased then
    (freeing workspace.codec.arena [] (workspace.met call)).map Prod.fst
  else []

/-- The byte ranges that a call writes in its buffer, each as its first position and its length. -/
def writes (workspace : Workspace ι) (call : Call ι) : List (Nat × Nat) :=
  let width := workspace.codec.config.width.bytes
  match call, (workspace.step call).1 with
  | .encode _ offset _, .ok _ => [(offset, width)]
  | .encodeNull _ offset, .ok _ => [(offset, width)]
  | .encodeMember _ layout record name _, .ok _ =>
      match workspace.codec.memberSlot layout record name with
      | .ok offset => [(offset, width)]
      | .error _ => []
  | .write name offset image, _ =>
      if offset + image.length ≤ (workspace.buffers name).size then [(offset, image.length)] else []
  | call, _ => (workspace.clears call).map fun position => (position, width)

/-- The effects of a call, given by the workspace after it. -/
inductive Effect (workspace : Workspace ι) (call : Call ι) : Workspace ι → Prop where
  /-- Nothing was changed. -/
  | idle : Effect workspace call workspace
  /-- A text was stored and its handle put into a slot. -/
  | stored (offset : Nat) (text : String) (handle : Handle) (arena : Arena)
      (inside : offset + workspace.codec.config.width.bytes ≤
        (workspace.buffers call.target).size)
      (alloc : workspace.codec.arena.alloc text = .ok (handle, arena))
      (writes : workspace.writes call = [(offset, workspace.codec.config.width.bytes)]) :
      Effect workspace call
        (workspace.put call.target { workspace.codec with arena }
          ((workspace.buffers call.target).overwrite offset
            (workspace.codec.config.image (some handle))))
  /-- Bytes were put into the buffer and no string was touched. -/
  | wrote (offset : Nat) (image : Bytes)
      (inside : offset + image.length ≤ (workspace.buffers call.target).size)
      (writes : workspace.writes call = [(offset, image.length)]) :
      Effect workspace call
        (workspace.put call.target workspace.codec
          ((workspace.buffers call.target).overwrite offset image))
  /-- Strings were released along the plan of the call. -/
  | released (outcome : Outcome Nat)
      (follows : Codec.Follows workspace.codec (workspace.buffers call.target)
        (call.plan workspace.codec.config (workspace.buffers call.target).size) outcome)
      (writes : workspace.writes call =
        (workspace.clears call).map fun position =>
          (position, workspace.codec.config.width.bytes)) :
      Effect workspace call (workspace.put call.target outcome.codec outcome.buffer)

theorem put_self (workspace : Workspace ι) (name : ι) :
    workspace.put name workspace.codec (workspace.buffers name) = workspace := by
  rw [put, Function.update_eq_self]

theorem buffers_put_self (workspace : Workspace ι) (name : ι) (codec : Codec) (buffer : Buffer) :
    (workspace.put name codec buffer).buffers name = buffer :=
  Function.update_self ..

theorem buffers_put_of_ne (workspace : Workspace ι) {name other : ι} (differ : other ≠ name)
    (codec : Codec) (buffer : Buffer) :
    (workspace.put name codec buffer).buffers other = workspace.buffers other :=
  Function.update_of_ne differ ..

theorem commit_refuse {α : Type} (workspace : Workspace ι) (name : ι) (answer : α → Answer)
    (error : SlotError) :
    workspace.commit name answer (workspace.codec.refuse (workspace.buffers name) error) =
      (.error error, workspace) := by
  show (_, workspace.put name workspace.codec (workspace.buffers name)) = _
  rw [put_self]
  rfl

section EncodeMember

variable {workspace : Workspace ι} {name : ι} {layout : CompoundLayout} {record : Nat}
  {member text : String}

/-- A member without a slot is refused before anything else is looked at. -/
theorem step_encodeMember_of_error {error : SlotError}
    (place : workspace.codec.memberSlot layout record member = .error error) :
    workspace.step (.encodeMember name layout record member text) = (.error error, workspace) := by
  rw [step, Codec.encodeMember, place]
  exact commit_refuse workspace name .stored error

/-- A member with a slot is an offset. -/
theorem step_encodeMember_of_ok {offset : Nat}
    (place : workspace.codec.memberSlot layout record member = .ok offset) :
    workspace.step (.encodeMember name layout record member text) =
      workspace.step (.encode name offset text) := by
  rw [step, step, Codec.encodeMember, place]

end EncodeMember

theorem effect_of_refused {workspace : Workspace ι} {call : Call ι} (error : SlotError)
    (refused : workspace.step call = (.error error, workspace)) :
    Effect workspace call (workspace.step call).2 := by
  rw [refused]
  exact Effect.idle

/-- A call that comes to `encode` at an offset does nothing or stores a text there. -/
theorem effect_of_encode {workspace : Workspace ι} {call : Call ι} {offset : Nat} {text : String}
    (encodes : workspace.step call = workspace.commit call.target .stored
      (workspace.codec.encode text (workspace.buffers call.target) offset))
    (writes : ∀ handle, (workspace.step call).1 = .ok (.stored handle) →
      workspace.writes call = [(offset, workspace.codec.config.width.bytes)]) :
    Effect workspace call (workspace.step call).2 := by
  rcases workspace.codec.encode_cases (workspace.buffers call.target) offset text with
    ⟨error, refused⟩ | ⟨handle, arena, inside, alloc, done⟩
  · exact effect_of_refused error (by rw [encodes, refused, commit_refuse])
  · -- the allocation and the slot write both took place
    have stepped : workspace.step call = (.ok (.stored handle),
        workspace.put call.target { workspace.codec with arena }
          ((workspace.buffers call.target).overwrite offset
            (workspace.codec.config.image (some handle)))) := by
      rw [encodes, done]
      rfl
    have range := writes handle (by rw [stepped])
    rw [stepped]
    exact Effect.stored offset text handle arena inside alloc range

/-- Every step has one of the four effects. -/
theorem step_effect (workspace : Workspace ι) (call : Call ι) :
    Effect workspace call (workspace.step call).2 := by
  cases call with
  | encode name offset text =>
      refine effect_of_encode rfl ?_
      intro handle stored
      simp only [writes, stored]
  | encodeNull name offset =>
      rcases workspace.codec.encodeNull_cases (workspace.buffers name) offset with
        ⟨error, refused⟩ | ⟨inside, done⟩
      · exact effect_of_refused error (by rw [step, refused, commit_refuse])
      · -- the null marker is an image like any other
        have stepped : workspace.step (.encodeNull name offset) = (.ok .done,
            workspace.put name workspace.codec
              ((workspace.buffers name).overwrite offset (workspace.codec.config.image none))) := by
          rw [step, done]
          rfl
        rw [stepped]
        refine Effect.wrote offset (workspace.codec.config.image none) ?_ ?_
        · rw [CodecConfig.length_image]
          exact inside
        · simp only [writes, stepped, CodecConfig.length_image]
  | decode name offset => exact Effect.idle
  | releaseAll name schema =>
      exact Effect.released _ (workspace.codec.releaseAll_follows (workspace.buffers name) schema)
        (by simp only [writes])
  | releaseRecord name schema =>
      exact Effect.released _
        (workspace.codec.releaseRecord_follows (workspace.buffers name) schema)
        (by simp only [writes])
  | encodeMember name layout record member text =>
      cases place : workspace.codec.memberSlot layout record member with
      | error error => exact effect_of_refused error (step_encodeMember_of_error place)
      | ok offset =>
          -- the member names a slot, and from here on the call is `encode` at that slot
          refine effect_of_encode (step_encodeMember_of_ok place) ?_
          intro handle stored
          simp only [writes, stored, place]
  | decodeMember name layout record member => exact Effect.idle
  | releaseLayout name layout =>
      exact Effect.released _
        (workspace.codec.releaseLayout_follows (workspace.buffers name) layout)
        (by simp only [writes])
  | write name offset image =>
      by_cases inside : offset + image.length ≤ (workspace.buffers name).size
      · rw [step, if_pos inside]
        exact Effect.wrote offset image inside (by simp only [writes, if_pos inside])
      · -- bytes that would leave the buffer are not written
        rw [step, if_neg inside]
        exact Effect.idle

/-! ## What every step keeps -/

namespace Effect

variable {workspace after : Workspace ι} {call : Call ι}

theorem config_eq (effect : Effect workspace call after) :
    after.codec.config = workspace.codec.config := by
  cases effect with
  | idle => rfl
  | stored => rfl
  | wrote => rfl
  | released outcome follows =>
      show outcome.codec.config = _
      rw [follows.codec_eq]

theorem size_eq (effect : Effect workspace call after) (name : ι) :
    (after.buffers name).size = (workspace.buffers name).size := by
  -- no effect changes the size of its buffer, and all other buffers stay as they are
  have updated : ∀ codec (buffer : Buffer), buffer.size = (workspace.buffers call.target).size →
      ((workspace.put call.target codec buffer).buffers name).size =
        (workspace.buffers name).size := by
    intro codec buffer same
    by_cases here : name = call.target
    · rw [here, buffers_put_self]
      exact same
    · rw [buffers_put_of_ne workspace here]
  cases effect with
  | idle => rfl
  | stored => exact updated _ _ (Buffer.size_overwrite _ _ _)
  | wrote => exact updated _ _ (Buffer.size_overwrite _ _ _)
  | released outcome follows => exact updated _ _ follows.size_eq

theorem wellFormed (effect : Effect workspace call after) {width : SlotWidth}
    (formed : workspace.codec.arena.WellFormed width) : after.codec.arena.WellFormed width := by
  cases effect with
  | idle => exact formed
  | stored offset text handle arena inside alloc => exact formed.alloc alloc
  | wrote => exact formed
  | released outcome follows =>
      show outcome.codec.arena.WellFormed width
      rw [follows.codec_eq]
      exact formed.discardAll _

/-- The counter only grows. -/
theorem next_le (effect : Effect workspace call after) :
    workspace.codec.arena.next ≤ after.codec.arena.next := by
  cases effect with
  | idle => exact Nat.le_refl _
  | stored offset text handle arena inside alloc =>
      obtain ⟨-, -, -, rfl⟩ := Arena.alloc_eq_ok_iff.1 alloc
      exact Nat.le_succ _
  | wrote => exact Nat.le_refl _
  | released outcome follows =>
      show _ ≤ outcome.codec.arena.next
      rw [follows.codec_eq]
      exact Nat.le_of_eq (Arena.counters_discardAll _ _).1.symm

end Effect

/-! ## What every run keeps -/

theorem config_run (workspace : Workspace ι) (calls : List (Call ι)) :
    (workspace.run calls).codec.config = workspace.codec.config := by
  refine run_induction (motive := fun now => now.codec.config = workspace.codec.config) calls rfl ?_
  intro now same call _
  exact (now.step_effect call).config_eq.trans same

theorem size_run (workspace : Workspace ι) (calls : List (Call ι)) (name : ι) :
    ((workspace.run calls).buffers name).size = (workspace.buffers name).size := by
  refine run_induction
    (motive := fun now => (now.buffers name).size = (workspace.buffers name).size) calls rfl ?_
  intro now same call _
  exact ((now.step_effect call).size_eq name).trans same

theorem wellFormed_run {workspace : Workspace ι} {width : SlotWidth}
    (formed : workspace.codec.arena.WellFormed width) (calls : List (Call ι)) :
    (workspace.run calls).codec.arena.WellFormed width := by
  refine run_induction (motive := fun now => now.codec.arena.WellFormed width) calls formed ?_
  intro now formed call _
  exact (now.step_effect call).wellFormed formed

/-- The counter only grows along a run. -/
theorem next_le_run (workspace : Workspace ι) (calls : List (Call ι)) :
    workspace.codec.arena.next ≤ (workspace.run calls).codec.arena.next := by
  refine run_induction
    (motive := fun now => workspace.codec.arena.next ≤ now.codec.arena.next) calls
    (Nat.le_refl _) ?_
  intro now above call _
  exact Nat.le_trans above (now.step_effect call).next_le

end Workspace

/-! ## Reachable codecs -/

/-- The codecs that calls on any buffers lead to. -/
inductive Codec.Reachable : Codec → Prop where
  | new (config : CodecConfig) : Reachable (Codec.new config)
  | step {codec : Codec} (reachable : Reachable codec) (buffer : Buffer) (call : Call Unit) :
      Reachable (Workspace.step { codec, buffers := fun _ => buffer } call).2.codec

theorem Codec.Reachable.wellFormed {codec : Codec} (reachable : codec.Reachable) :
    codec.arena.WellFormed codec.config.width := by
  induction reachable with
  | new config => exact Arena.WellFormed.empty config.width
  | @step codec reachable buffer call ih =>
      have effect := Workspace.step_effect { codec, buffers := fun _ => buffer } call
      rw [effect.config_eq]
      exact effect.wellFormed ih

end StringSlots
