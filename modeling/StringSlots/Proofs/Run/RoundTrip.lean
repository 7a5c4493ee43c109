import StringSlots.Proofs.Run.Workspace

/-!
# Texts survive later calls

What `encode` put into a slot is decoded from it after any run that leaves the bytes of the slot
alone and releases no slot with the same handle (`decode_run_of_encode`). The invariant is
`Workspace.Keeps`: the slot holds the handle and the arena holds the text under it. A later
allocation takes a new handle, so only a release that meets the handle could take the text away.
-/

namespace StringSlots

namespace Workspace

universe u

variable {ι : Type u} [DecidableEq ι]

/-- The slot at `offset` of a buffer holds a handle under which the arena holds a text. -/
structure Keeps (workspace : Workspace ι) (name : ι) (offset : Nat) (handle : Handle)
    (text : String) : Prop where
  formed : workspace.codec.arena.WellFormed workspace.codec.config.width
  inside : offset + workspace.codec.config.width.bytes ≤ (workspace.buffers name).size
  slot : workspace.slot name offset = some handle
  entry : workspace.codec.arena.find? handle = some (utf8 text ++ [0])

/-- Whether a call writes the byte at `place` of a buffer. -/
def Touches (workspace : Workspace ι) (call : Call ι) (name : ι) (place : Nat) : Prop :=
  call.target = name ∧
    ∃ range ∈ workspace.writes call, range.1 ≤ place ∧ place < range.1 + range.2

/-- A call writes no byte of a slot and visits no slot with a given handle in a release. -/
structure Spares (workspace : Workspace ι) (name : ι) (offset : Nat) (handle : Handle)
    (call : Call ι) : Prop where
  untouched : ∀ place, offset ≤ place → place < offset + workspace.codec.config.width.bytes →
    ¬workspace.Touches call name place
  unmet : ∀ visit ∈ workspace.met call, visit.2 ≠ handle

/-- Every call of a run spares the slot and the handle in the workspace that it is made in. -/
def SparesAll (workspace : Workspace ι) (name : ι) (offset : Nat) (handle : Handle) :
    List (Call ι) → Prop
  | [] => True
  | call :: rest => workspace.Spares name offset handle call ∧
      (workspace.step call).2.SparesAll name offset handle rest

instance (workspace : Workspace ι) (call : Call ι) (name : ι) (place : Nat) :
    Decidable (workspace.Touches call name place) :=
  inferInstanceAs (Decidable (_ ∧ _))

instance (workspace : Workspace ι) (name : ι) (offset : Nat) (handle : Handle) (call : Call ι) :
    Decidable (workspace.Spares name offset handle call) :=
  decidable_of_iff
    ((∀ place, offset ≤ place → place < offset + workspace.codec.config.width.bytes →
      ¬workspace.Touches call name place) ∧ ∀ visit ∈ workspace.met call, visit.2 ≠ handle)
    ⟨fun spared => ⟨spared.1, spared.2⟩, fun spared => ⟨spared.untouched, spared.unmet⟩⟩

instance decidableSparesAll (workspace : Workspace ι) (name : ι) (offset : Nat) (handle : Handle) :
    (calls : List (Call ι)) → Decidable (workspace.SparesAll name offset handle calls)
  | [] => isTrue trivial
  | call :: rest =>
      have := decidableSparesAll (workspace.step call).2 name offset handle rest
      inferInstanceAs (Decidable (_ ∧ _))

/-! ## One step -/

variable {workspace after : Workspace ι} {call : Call ι} {name : ι} {offset : Nat}
  {handle : Handle} {text : String}

/-- The bytes of a slot that a call does not touch are the same after it. -/
theorem Effect.byte_eq (effect : Effect workspace call after) {place : Nat}
    (untouched : ¬workspace.Touches call name place) :
    (after.buffers name).byte place = (workspace.buffers name).byte place := by
  -- only the buffer of the call can change, and in it only the bytes that are written
  have updated : ∀ codec (buffer : Buffer),
      (call.target = name → buffer.byte place = (workspace.buffers name).byte place) →
      ((workspace.put call.target codec buffer).buffers name).byte place =
        (workspace.buffers name).byte place := by
    intro codec buffer same
    by_cases here : name = call.target
    · rw [← same here.symm, here, buffers_put_self]
    · rw [buffers_put_of_ne workspace here]
  have overwritten : ∀ first (image : Bytes),
      workspace.writes call = [(first, image.length)] → call.target = name →
      ((workspace.buffers call.target).overwrite first image).byte place =
        (workspace.buffers name).byte place := by
    intro first image range here
    rw [← here]
    refine Buffer.byte_overwrite_of_outside _ ?_
    by_contra within
    exact untouched ⟨here, (first, image.length), by rw [range]; exact List.mem_singleton_self _,
      by show first ≤ place; omega, by show place < first + image.length; omega⟩
  cases effect with
  | idle => rfl
  | stored first text handle arena inside alloc range =>
      exact updated _ _ (overwritten first _ (by rw [range, CodecConfig.length_image]))
  | wrote first image inside range => exact updated _ _ (overwritten first image range)
  | released outcome follows range =>
      apply updated
      intro here
      rw [follows.byte_eq, Codec.byte_cleared, here, if_neg]
      -- a byte that was cleared lies in a slot that was freed, hence in a range that is written
      rintro ⟨clear, visit, mem, above, below⟩
      refine untouched ⟨here, (visit.1, workspace.codec.config.width.bytes), ?_, above, below⟩
      rw [range, clears, if_pos clear]
      rw [← here] at mem
      exact List.mem_map_of_mem (List.mem_map_of_mem mem)

/-- A call that spares a slot and its handle keeps the text. -/
theorem Effect.keeps (effect : Effect workspace call after)
    (kept : workspace.Keeps name offset handle text)
    (spared : workspace.Spares name offset handle call) : after.Keeps name offset handle text := by
  have config := effect.config_eq
  refine ⟨?_, ?_, ?_, ?_⟩
  · rw [config]
    exact effect.wellFormed kept.formed
  · rw [config, effect.size_eq]
    exact kept.inside
  · rw [slot, config, ← kept.slot]
    apply Buffer.handleAt_congr
    intro place above below
    exact effect.byte_eq (spared.untouched place above below)
  · cases effect with
    | idle => exact kept.entry
    | stored first other new arena inside alloc =>
        -- the new handle is the counter, which is above all live handles
        obtain ⟨-, -, value, rfl⟩ := Arena.alloc_eq_ok_iff.1 alloc
        have issued := kept.formed.issued (Arena.contains_iff.2 ⟨_, kept.entry⟩)
        have differ : new ≠ handle := by
          rintro rfl
          omega
        show (workspace.codec.arena.push new _).find? handle = _
        rw [Arena.find?_push, if_neg differ]
        exact kept.entry
    | wrote => exact kept.entry
    | released outcome follows =>
        -- only handles that are met are freed
        have unmet : handle ∉ handlesOf (workspace.met call) := by
          intro mem
          obtain ⟨visit, met, same⟩ := List.mem_map.1 mem
          exact spared.unmet visit met same
        show outcome.codec.arena.find? handle = _
        rw [follows.codec_eq, Arena.find?_discardAll]
        exact (if_neg unmet).trans kept.entry

/-! ## Runs -/

theorem Keeps.run (calls : List (Call ι)) (kept : workspace.Keeps name offset handle text)
    (spared : workspace.SparesAll name offset handle calls) :
    (workspace.run calls).Keeps name offset handle text := by
  induction calls generalizing workspace with
  | nil => exact kept
  | cons call rest ih =>
      obtain ⟨now, later⟩ := spared
      exact ih ((workspace.step_effect call).keeps kept now) later

omit [DecidableEq ι] in
/-- What is kept is decoded. -/
theorem Keeps.decode_eq (kept : workspace.Keeps name offset handle text) :
    workspace.codec.decode (workspace.buffers name) offset = .ok (some text) :=
  Codec.decode_of_text kept.inside kept.slot (Arena.getText?_of_find? kept.entry)

/-- An `encode` that succeeds on a well-formed arena leaves the text behind its slot. -/
theorem keeps_of_encode (formed : workspace.codec.arena.WellFormed workspace.codec.config.width)
    (stored : (workspace.step (.encode name offset text)).1 = .ok (.stored handle)) :
    (workspace.step (.encode name offset text)).2.Keeps name offset handle text := by
  rcases workspace.codec.encode_cases (workspace.buffers name) offset text with
    ⟨error, refused⟩ | ⟨new, arena, inside, alloc, done⟩
  · rw [step, refused, commit_refuse] at stored
    cases stored
  · have grown := formed.alloc alloc
    have step_eq : workspace.step (.encode name offset text) = (.ok (.stored new),
        workspace.put name { workspace.codec with arena }
          ((workspace.buffers name).overwrite offset
            (workspace.codec.config.image (some new)))) := by
      rw [step, done]
      rfl
    rw [step_eq] at stored ⊢
    cases stored
    obtain ⟨-, room, value, rfl⟩ := Arena.alloc_eq_ok_iff.1 alloc
    refine ⟨grown, ?_, ?_, ?_⟩
    · rw [buffers_put_self, Buffer.size_overwrite]
      exact inside
    · rw [slot, buffers_put_self]
      -- the limit of the arena is that of the width, so no bit of the handle is cut off
      refine Buffer.handleAt_overwrite_image _ offset ?_
      show handle.value ≤ workspace.codec.config.width.maxHandle
      rw [value, ← formed.limit]
      exact room
    · show (workspace.codec.arena.push handle _).find? handle = _
      rw [Arena.find?_push, if_pos rfl]

/-- A text that was stored is decoded after any run of calls and raw writes that touch no byte of
its slot and release no slot with its handle. -/
theorem decode_run_of_encode (reachable : workspace.codec.Reachable)
    (stored : (workspace.step (.encode name offset text)).1 = .ok (.stored handle))
    (calls : List (Call ι))
    (spared : (workspace.step (.encode name offset text)).2.SparesAll name offset handle calls) :
    (((workspace.step (.encode name offset text)).2.run calls).codec.decode
        (((workspace.step (.encode name offset text)).2.run calls).buffers name) offset) =
      .ok (some text) := by
  have kept := keeps_of_encode reachable.wellFormed stored
  exact (kept.run calls spared).decode_eq

/-- Two buffers of two slots, the first with a text in its first slot. -/
def firstSlotStored : Reply × Workspace Bool :=
  (Workspace.fresh { order := .big, clearReleased := true } fun _ => 16).step (.encode false 0 "ü")

/-- Calls on the second buffer, and calls and a raw write behind the first slot of the first. -/
def besideFirstSlot : List (Call Bool) :=
  [.encode true 0 "b", .encode false 8 "c", .write false 8 [7, 7], .releaseAll true (.single .w64),
    .encodeNull true 8, .encode true 8 "d", .releaseRecord true (.single .w64)]

theorem decode_run_besideFirstSlot :
    (firstSlotStored.2.run besideFirstSlot).codec.decode
      ((firstSlotStored.2.run besideFirstSlot).buffers false) 0 = .ok (some "ü") := by
  have stored : firstSlotStored.1 = .ok (.stored ⟨1, Nat.one_pos⟩) := by decide +kernel
  exact decode_run_of_encode (Codec.Reachable.new _) stored besideFirstSlot (by decide +kernel)

end Workspace

end StringSlots
