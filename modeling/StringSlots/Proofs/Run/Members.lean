import StringSlots.Proofs.Layout.Addressing
import StringSlots.Proofs.Run.Ownership
import StringSlots.Proofs.Run.RoundTrip

/-!
# Layout records as a map

A buffer of layout records is a map from records and member names to texts. `Maps` is the invariant
of runs that store texts by name: the contents of the slots are the last texts, and all other bytes
are zero. `Maps.step` keeps it for one call, since distinct keys have slots that share no byte.

`holdsMap_run` draws the consequences for a run: what is read, which bytes are zero, and how many
texts a release of the whole buffer frees.
-/

namespace StringSlots

/-- A text to store for a member of a record. -/
structure MemberWrite where
  record : Nat
  name : String
  text : String
  deriving DecidableEq

namespace MemberWrite

/-- The record and the member name that a text is stored for. -/
def key (write : MemberWrite) : Nat × String :=
  (write.record, write.name)

/-- The call that stores the text. -/
def call (layout : CompoundLayout) (write : MemberWrite) : Call Unit :=
  .encodeMember () layout write.record write.name write.text

end MemberWrite

/-- The text that was stored last for a key. -/
def lastText (stored : List MemberWrite) (key : Nat × String) : Option String :=
  (stored.reverse.find? fun write => write.key = key).map (·.text)

/-- The keys that a release of a buffer of `size` bytes reaches. -/
def reachedKeys (layout : CompoundLayout) (policy : TailPolicy) (size : Nat)
    (stored : List MemberWrite) : Finset (Nat × String) :=
  (stored.map MemberWrite.key).toFinset.filter fun key =>
    policy = .process ∨ key.1 < size / layout.recordSize

/-- The writes of a run that succeed. -/
def Workspace.accepted (layout : CompoundLayout) (workspace : Workspace Unit) :
    List MemberWrite → List MemberWrite
  | [] => []
  | write :: rest =>
      match (workspace.step (write.call layout)).1 with
      | .ok _ => write :: (workspace.step (write.call layout)).2.accepted layout rest
      | .error _ => (workspace.step (write.call layout)).2.accepted layout rest

/-- What a slot holds for a text, if there is one. -/
def Content.ofText? : Option String → Content
  | none => .null
  | some stored => .text stored

/-- A buffer of layout records that holds the last of the stored texts. -/
structure HoldsMap (layout : CompoundLayout) (size : Nat) (now : Workspace Unit)
    (stored : List MemberWrite) : Prop where
  placed : ∀ write ∈ stored, ∃ member ∈ layout.stringMembers, member.name = write.name ∧
    layout.position write.record member + layout.width.bytes ≤ size
  decode_eq : ∀ record, ∀ member ∈ layout.stringMembers,
    layout.position record member + layout.width.bytes ≤ size →
      now.codec.decodeMember layout (now.buffers ()) record member.name =
        .ok (lastText stored (record, member.name))
  byte_eq_zero : ∀ place,
    (∀ write ∈ stored, ∀ member ∈ layout.stringMembers, member.name = write.name →
      place < layout.position write.record member ∨
        layout.position write.record member + layout.width.bytes ≤ place) →
      (now.buffers ()).byte place = 0
  release_refused : now.codec.config.tail = .reject → size % layout.recordSize ≠ 0 →
    now.codec.releaseLayout layout (now.buffers ()) =
      now.codec.refuse (now.buffers ()) (.partialRecord size layout.recordSize)
  release_eq : (now.codec.config.tail = .reject → size % layout.recordSize = 0) →
    let outcome := now.codec.releaseLayout layout (now.buffers ())
    let reached := reachedKeys layout now.codec.config.tail size stored
    outcome.result = .ok reached.card ∧
      outcome.codec.arena.live + reached.card = now.codec.arena.live
  whole : size % layout.recordSize = 0 → ∀ write ∈ stored, write.record < size / layout.recordSize

/-! ## The last text -/

theorem lastText_append_singleton (stored : List MemberWrite) (write : MemberWrite)
    (key : Nat × String) :
    lastText (stored ++ [write]) key =
      if write.key = key then some write.text else lastText stored key := by
  rw [lastText, List.reverse_append, List.reverse_singleton, List.singleton_append,
    List.find?_cons]
  by_cases same : write.key = key
  · simp [same]
  · simp [same, lastText]

theorem lastText_eq_none_iff {stored : List MemberWrite} {key : Nat × String} :
    lastText stored key = none ↔ ∀ write ∈ stored, write.key ≠ key := by
  simp [lastText]

/-! ## The invariant -/

namespace CompoundLayout.Formed

variable {hash : String → UInt64} {layout : CompoundLayout}

/-- A buffer of layout records as a buffer of slots. -/
def setup (formed : layout.Formed hash) {config : CodecConfig}
    (width : layout.width = config.width) (size : Nat) : Setup Unit where
  config := config
  sizes _ := size
  schemas _ := formed.schema
  width_eq _ := width

variable (formed : layout.Formed hash) {config : CodecConfig}
  (width : layout.width = config.width) (size : Nat)

theorem isSlot_position {size record : Nat} {member : Member}
    (mem : member ∈ layout.stringMembers)
    (inside : layout.position record member + layout.width.bytes ≤ size) :
    (formed.setup width size).IsSlot () (layout.position record member) :=
  formed.isSlot_iff.2 ⟨record, member, mem, rfl, inside⟩

/-- The slots hold the last texts, and all other bytes are zero. -/
structure Maps (now : Workspace Unit) (stored : List MemberWrite) : Prop where
  owned : (formed.setup width size).Owned now
  placed : ∀ write ∈ stored, ∃ member ∈ layout.stringMembers, member.name = write.name ∧
    layout.position write.record member + layout.width.bytes ≤ size
  content_eq : ∀ record, ∀ member ∈ layout.stringMembers,
    layout.position record member + layout.width.bytes ≤ size →
      now.content () (layout.position record member) =
        Content.ofText? (lastText stored (record, member.name))
  byte_eq_zero : ∀ place,
    (∀ write ∈ stored, ∀ member ∈ layout.stringMembers, member.name = write.name →
      place < layout.position write.record member ∨
        layout.position write.record member + layout.width.bytes ≤ place) →
      (now.buffers ()).byte place = 0

variable {formed width size} {now : Workspace Unit} {stored : List MemberWrite}

namespace Maps

theorem of_zeros {codec : Codec} (same : codec.config = config)
    (arena_formed : codec.arena.WellFormed config.width) :
    formed.Maps width size { codec, buffers := fun _ => Buffer.filled size 0 } [] where
  owned := Setup.Owned.of_zeros same arena_formed
  placed _ mem := absurd mem List.not_mem_nil
  content_eq record member _ _ := by
    refine Workspace.content_of_null ?_
    exact Buffer.handleAt_filled_zero ..
  byte_eq_zero place _ := by simp [Buffer.byte, Buffer.filled]

theorem config_eq (maps : formed.Maps width size now stored) : now.codec.config = config :=
  maps.owned.config

theorem size_eq (maps : formed.Maps width size now stored) : (now.buffers ()).size = size :=
  maps.owned.size ()

/-- A write is refused and changes nothing, or it is an `encode` at the slot of its member. -/
theorem step_cases (maps : formed.Maps width size now stored) (write : MemberWrite) :
    (∃ error, now.step (write.call layout) = (.error error, now)) ∨
      ∃ member ∈ layout.stringMembers, member.name = write.name ∧
        layout.position write.record member + layout.width.bytes ≤ size ∧
        (∃ handle, (now.step (write.call layout)).1 = .ok (.stored handle)) ∧
        now.step (write.call layout) =
          now.step (.encode () (layout.position write.record member) write.text) := by
  cases slot : now.codec.memberSlot layout write.record write.name with
  | error error => exact Or.inl ⟨error, Workspace.step_encodeMember_of_error slot⟩
  | ok place =>
      obtain ⟨member, mem, named, rfl⟩ := formed.exists_of_memberSlot slot
      have same : now.step (write.call layout) =
          now.step (.encode () (layout.position write.record member) write.text) :=
        Workspace.step_encodeMember_of_ok slot
      rcases now.codec.encode_cases (now.buffers ()) (layout.position write.record member)
        write.text with ⟨error, refused⟩ | ⟨handle, arena, inside, alloc, done⟩
      · refine Or.inl ⟨error, ?_⟩
        rw [same, Workspace.step, refused, Workspace.commit_refuse]
      · refine Or.inr ⟨member, mem, named, ?_, ⟨handle, ?_⟩, same⟩
        · rw [maps.config_eq, maps.size_eq, ← width] at inside
          exact inside
        · rw [same, Workspace.step, done]
          rfl

/-- Distinct keys have distinct slots. -/
theorem position_eq_iff (formed : layout.Formed hash) {write : MemberWrite} {record : Nat}
    {member other : Member} (mem : member ∈ layout.stringMembers)
    (named : member.name = write.name) (other_mem : other ∈ layout.stringMembers) :
    layout.position record other = layout.position write.record member ↔
      write.key = (record, other.name) := by
  have declared := (mem_stringMembers_iff.1 mem).1
  have other_declared := (mem_stringMembers_iff.1 other_mem).1
  rw [MemberWrite.key, ← named, Prod.mk.injEq]
  constructor
  · intro same
    obtain ⟨rfl, rfl⟩ := formed.position_inj other_declared declared same
    exact ⟨rfl, rfl⟩
  · rintro ⟨rfl, same⟩
    rw [formed.eq_of_name declared other_declared same]

/-- An accepted write leaves its text in its slot, and everything else as it was. -/
theorem step_accepted (maps : formed.Maps width size now stored) {write : MemberWrite}
    {member : Member} (mem : member ∈ layout.stringMembers) (named : member.name = write.name)
    (inside : layout.position write.record member + layout.width.bytes ≤ size) {handle : Handle}
    (reply : (now.step (.encode () (layout.position write.record member) write.text)).1 =
      .ok (.stored handle)) :
    formed.Maps width size
      (now.step (.encode () (layout.position write.record member) write.text)).2
      (stored ++ [write]) := by
  have slot := formed.isSlot_position width mem inside
  have permits : (formed.setup width size).Permits
      (.encode () (layout.position write.record member) write.text) := slot
  -- the text has no NUL and a handle was left, or the reply would be an error
  have room : Arena.nulPosition? write.text = none ∧ now.hasRoom = true := by
    have answered := maps.owned.step_reply permits
    rw [reply, Setup.answer] at answered
    split at answered
    · cases answered
    · next clean =>
      split at answered
      · next left => exact ⟨clean, left⟩
      · cases answered
  refine
    { owned := maps.owned.step permits
      placed := ?_
      content_eq := ?_
      byte_eq_zero := ?_ }
  · intro other other_mem
    rcases List.mem_append.1 other_mem with old | new
    · exact maps.placed other old
    · obtain rfl := List.mem_singleton.1 new
      exact ⟨member, mem, named, inside⟩
  · intro record other other_mem other_inside
    have other_slot := formed.isSlot_position width other_mem other_inside
    rw [maps.owned.step_content permits other_slot, if_pos rfl, Setup.contentsAfter,
      lastText_append_singleton]
    by_cases same : write.key = (record, other.name)
    · rw [if_pos ⟨room, (position_eq_iff formed mem named other_mem).2 same⟩, if_pos same]
      rfl
    · rw [if_neg fun both => same ((position_eq_iff formed mem named other_mem).1 both.2),
        if_neg same]
      exact maps.content_eq record other other_mem other_inside
  · intro place outside
    have effect := now.step_effect (.encode () (layout.position write.record member) write.text)
    rw [effect.byte_eq]
    · apply maps.byte_eq_zero
      intro other other_mem
      exact outside other (List.mem_append_left _ other_mem)
    · -- the call writes the bytes of its slot, and the place is none of them
      have apart := outside write (List.mem_append_right _ (List.mem_singleton_self _)) member mem
        named
      rintro ⟨-, range, range_mem, above, below⟩
      simp only [Workspace.writes, reply, List.mem_singleton] at range_mem
      subst range_mem
      rw [maps.config_eq, ← width] at below
      dsimp only at above below
      omega

/-- The invariant holds along a run. -/
theorem run (maps : formed.Maps width size now stored) (writes : List MemberWrite) :
    formed.Maps width size (now.run (writes.map (MemberWrite.call layout)))
      (stored ++ now.accepted layout writes) := by
  induction writes generalizing now stored with
  | nil =>
      rw [Workspace.accepted, List.append_nil]
      exact maps
  | cons write rest ih =>
      rw [List.map_cons, Workspace.run_cons, Workspace.accepted]
      rcases maps.step_cases write with
        ⟨error, refused⟩ | ⟨member, mem, named, inside, ⟨handle, reply⟩, same⟩
      · rw [refused]
        exact ih maps
      · rw [reply]
        rw [same] at reply ⊢
        have after := ih (maps.step_accepted mem named inside reply)
        rw [List.append_assoc] at after
        exact after

/-! ## What the invariant gives -/

/-- The slot of a key is decoded as the last text. -/
theorem decode_position (maps : formed.Maps width size now stored) {record : Nat} {member : Member}
    (mem : member ∈ layout.stringMembers)
    (inside : layout.position record member + layout.width.bytes ≤ size) :
    now.codec.decode (now.buffers ()) (layout.position record member) =
      .ok (lastText stored (record, member.name)) := by
  have content := maps.content_eq record member mem inside
  have slot_inside : layout.position record member + now.codec.config.width.bytes ≤
      (now.buffers ()).size := by
    rw [maps.size_eq, maps.config_eq, ← width]
    exact inside
  -- the content of the slot is what is decoded from it
  cases last : lastText stored (record, member.name) with
  | none =>
      rw [last] at content
      exact Codec.decode_of_null slot_inside (Workspace.content_eq_null_iff.1 content)
  | some text =>
      rw [last] at content
      obtain ⟨handle, held, found⟩ := Workspace.content_eq_text_iff.1 content
      exact Codec.decode_of_text slot_inside held found

theorem decode_eq (maps : formed.Maps width size now stored) (fits : size ≤ addressSpace)
    {record : Nat} {member : Member} (mem : member ∈ layout.stringMembers)
    (inside : layout.position record member + layout.width.bytes ≤ size) :
    now.codec.decodeMember layout (now.buffers ()) record member.name =
      .ok (lastText stored (record, member.name)) := by
  have same : layout.width = now.codec.config.width := by
    rw [maps.config_eq]
    exact width
  have width_pos := layout.width.bytes_pos
  rw [Codec.decodeMember, formed.memberSlot_eq same mem, if_pos (by omega)]
  exact maps.decode_position mem inside

theorem noStale (maps : formed.Maps width size now stored) :
    (formed.setup width size).NoStale now := by
  rintro ⟨⟩ place slot stale
  obtain ⟨record, member, mem, rfl, inside⟩ := formed.isSlot_iff.1 slot
  rw [maps.content_eq record member mem inside] at stale
  cases last : lastText stored (record, member.name) with
  | none =>
      rw [last] at stale
      cases stale
  | some text =>
      rw [last] at stale
      cases stale

/-- The slots of a release that hold a text are those of the keys that it reaches. -/
theorem visited_filter_eq (maps : formed.Maps width size now stored) (policy : TailPolicy) :
    ((formed.schema.visited policy size).filter fun place =>
        decide (now.content () place ≠ .null)).toFinset =
      (reachedKeys layout policy size stored).image layout.positionOf := by
  ext place
  simp only [List.mem_toFinset, List.mem_filter, decide_eq_true_eq, Finset.mem_image, reachedKeys,
    Finset.mem_filter, List.mem_map]
  constructor
  · rintro ⟨visited, filled⟩
    obtain ⟨record, member, mem, rfl, inside⟩ :=
      formed.isSlot_iff.1 (Codec.isSlot_of_mem_visited visited)
    have reached := ((formed.position_mem_visited_iff mem).1 visited).2
    have written : lastText stored (record, member.name) ≠ none := by
      intro none_written
      rw [maps.content_eq record member mem inside, none_written] at filled
      exact filled rfl
    rw [Ne, lastText_eq_none_iff] at written
    push Not at written
    obtain ⟨write, write_mem, key⟩ := written
    exact ⟨(record, member.name), ⟨⟨write, write_mem, key⟩, reached⟩,
      formed.positionOf_eq (mem_stringMembers_iff.1 mem).1 record⟩
  · rintro ⟨_, ⟨⟨write, write_mem, rfl⟩, reached⟩, rfl⟩
    obtain ⟨member, mem, named, inside⟩ := maps.placed write write_mem
    rw [MemberWrite.key, ← named, formed.positionOf_eq (mem_stringMembers_iff.1 mem).1]
    refine ⟨(formed.position_mem_visited_iff mem).2 ⟨inside, reached⟩, ?_⟩
    rw [maps.content_eq write.record member mem inside]
    -- the key was written, so it has a last text
    cases last : lastText stored (write.record, member.name) with
    | none =>
        rw [named] at last
        exact absurd rfl (lastText_eq_none_iff.1 last write write_mem)
    | some text => exact Content.noConfusion

/-- Keys that were stored have positions of their own. -/
theorem key_eq (maps : formed.Maps width size now stored) {write other : MemberWrite}
    (mem : write ∈ stored) (other_mem : other ∈ stored)
    (same : layout.positionOf write.key = layout.positionOf other.key) : write.key = other.key := by
  obtain ⟨member, member_mem, named, -⟩ := maps.placed write mem
  obtain ⟨other_member, other_member_mem, other_named, -⟩ := maps.placed other other_mem
  rw [MemberWrite.key, MemberWrite.key, ← named, ← other_named] at same ⊢
  rw [formed.positionOf_eq (mem_stringMembers_iff.1 member_mem).1,
    formed.positionOf_eq (mem_stringMembers_iff.1 other_member_mem).1] at same
  obtain ⟨records, rfl⟩ := formed.position_inj (mem_stringMembers_iff.1 member_mem).1
    (mem_stringMembers_iff.1 other_member_mem).1 same
  rw [records]

/-- As many slots of a release hold a text as it reaches keys. -/
theorem countP_visited (maps : formed.Maps width size now stored) (policy : TailPolicy) :
    (formed.schema.visited policy size).countP (fun place => now.content () place ≠ .null) =
      (reachedKeys layout policy size stored).card := by
  have nodup : (formed.schema.visited policy size).Nodup :=
    (Codec.pairwise_visited formed.schema policy size).imp fun apart => apart.ne
  have distinct : Set.InjOn layout.positionOf (reachedKeys layout policy size stored) := by
    intro first first_mem second second_mem same
    simp only [reachedKeys, Finset.coe_filter, List.mem_toFinset, List.mem_map,
      Set.mem_ofPred_eq] at first_mem second_mem
    obtain ⟨⟨write, write_mem, rfl⟩, -⟩ := first_mem
    obtain ⟨⟨other, other_mem, rfl⟩, -⟩ := second_mem
    exact maps.key_eq write_mem other_mem same
  calc
    (formed.schema.visited policy size).countP (fun place => now.content () place ≠ .null)
      = ((formed.schema.visited policy size).filter fun place =>
          decide (now.content () place ≠ .null)).toFinset.card := by
        rw [List.countP_eq_length_filter, List.toFinset_card_of_nodup (nodup.filter _)]
    _ = ((reachedKeys layout policy size stored).image layout.positionOf).card := by
        rw [maps.visited_filter_eq]
    _ = (reachedKeys layout policy size stored).card := Finset.card_image_of_injOn distinct

/-- A cut record makes a release fail at once under the policy that rejects it. -/
theorem release_refused (maps : formed.Maps width size now stored) (reject : config.tail = .reject)
    (cut : size % layout.recordSize ≠ 0) :
    now.codec.releaseLayout layout (now.buffers ()) =
      now.codec.refuse (now.buffers ()) (.partialRecord size layout.recordSize) := by
  have same : ¬formed.schema.width ≠ config.width := not_not.2 width
  have rejected : config.tail = .reject ∧ size % formed.schema.recordSize ≠ 0 := ⟨reject, cut⟩
  rw [Codec.releaseLayout, formed.slotSchema_eq]
  dsimp only
  rw [Codec.releaseAll_eq, maps.config_eq, maps.size_eq, if_neg same, if_pos rejected]
  rfl

/-- A release frees one text for each key that it reaches. -/
theorem release_eq (maps : formed.Maps width size now stored)
    (whole : config.tail = .reject → size % layout.recordSize = 0) :
    (now.codec.releaseLayout layout (now.buffers ())).result =
        .ok (reachedKeys layout config.tail size stored).card ∧
      (now.codec.releaseLayout layout (now.buffers ())).codec.arena.live +
          (reachedKeys layout config.tail size stored).card = now.codec.arena.live := by
  have release : (formed.setup width size).Releases () (.releaseAll () formed.schema) := Or.inl rfl
  have plan : Codec.releasePlan config formed.schema size =
      .ok (formed.schema.visited config.tail size) := by
    have same : ¬formed.schema.width ≠ config.width := not_not.2 width
    rw [Codec.releasePlan, if_neg same, if_neg]
    rintro ⟨reject, cut⟩
    exact cut (whole reject)
  have follows := now.codec.releaseAll_follows (now.buffers ()) formed.schema
  have count := maps.owned.length_met release plan
  rw [maps.countP_visited] at count
  have answered := maps.noStale.passResult_met maps.owned release
  have freed := maps.noStale.live_discardAll_met maps.owned release
  rw [count] at answered freed
  rw [Codec.releaseLayout, formed.slotSchema_eq]
  refine ⟨?_, ?_⟩
  · have result : (now.codec.releaseAll (now.buffers ()) formed.schema).result =
        (Codec.releasePlan now.codec.config formed.schema (now.buffers ()).size).bind fun _ =>
          Codec.passResult now.codec.arena (now.met (.releaseAll () formed.schema)) :=
      follows.result_eq
    rw [maps.config_eq, maps.size_eq, plan, answered] at result
    exact result
  · show (now.codec.releaseAll (now.buffers ()) formed.schema).codec.arena.live + _ = _
    rw [follows.codec_eq]
    exact freed

theorem whole (maps : formed.Maps width size now stored) (whole : size % layout.recordSize = 0) :
    ∀ write ∈ stored, write.record < size / layout.recordSize := by
  intro write write_mem
  obtain ⟨member, mem, -, inside⟩ := maps.placed write write_mem
  have width_pos := layout.width.bytes_pos
  have exact_size := Nat.div_add_mod' size layout.recordSize
  rw [CompoundLayout.position] at inside
  -- a record behind the last one would start at the end of the buffer or behind it
  by_contra behind
  have starts := Nat.mul_le_mul_right layout.recordSize (Nat.le_of_not_lt behind)
  omega

end Maps

end CompoundLayout.Formed

/-- A zero-filled buffer in which texts are stored by record and member name is a map from these to
the texts stored last. A release of the buffer frees one text for each key that it reaches. No
buffer is longer than the address space, and slots behind its end have no address. -/
theorem holdsMap_run {hash : String → UInt64} {builder : LayoutBuilder} {layout : CompoundLayout}
    (built : LayoutBuilder.buildWith hash builder = .ok layout) {codec : Codec}
    (reachable : codec.Reachable) (width : layout.width = codec.config.width) {size : Nat}
    (fits : size ≤ addressSpace) (writes : List MemberWrite) :
    let start : Workspace Unit := { codec, buffers := fun _ => Buffer.filled size 0 }
    HoldsMap layout size (start.run (writes.map (MemberWrite.call layout)))
      (start.accepted layout writes) := by
  intro start
  have formed := (CompoundLayout.buildWith_eq_ok_iff.1 built).1
  have maps : formed.Maps width size (start.run (writes.map (MemberWrite.call layout)))
      (start.accepted layout writes) :=
    (CompoundLayout.Formed.Maps.of_zeros rfl reachable.wellFormed).run writes
  have config := maps.owned.config
  refine
    { placed := maps.placed
      decode_eq := fun record member mem inside => maps.decode_eq fits mem inside
      byte_eq_zero := maps.byte_eq_zero
      release_refused := ?_
      release_eq := ?_
      whole := maps.whole }
  · rw [config]
    exact maps.release_refused
  · rw [config]
    exact maps.release_eq

/-- Records of six bytes, a string and a number. -/
def labelled : CompoundLayout where
  width := .w32
  members := [⟨"label", .vlString, 0⟩, ⟨"number", .int 2, 4⟩]
  recordSize := 6
  index := { hash := nameHash, entries := #[(nameHash "label", 0), (nameHash "number", 1)] }

theorem build_labelled :
    (LayoutBuilder.ofMembers .w32 [("label", .vlString), ("number", .int 2)]).build =
      .ok labelled := by
  -- the hashes are in order as they are
  have sorted : ((labelled.members.map (·.name)).map nameHash).zipIdx.mergeSort NameIndex.entryLe =
      [(nameHash "label", 0), (nameHash "number", 1)] :=
    List.mergeSort_of_pairwise (by decide +kernel)
  have index : NameIndex.ofNames nameHash (labelled.members.map (·.name)) = labelled.index := by
    rw [NameIndex.ofNames, sorted]
    rfl
  have placed : LayoutBuilder.place .w32 ∅ 0 [("label", .vlString), ("number", .int 2)] =
      .ok (labelled.members, labelled.recordSize) := by
    decide +kernel
  simp only [LayoutBuilder.build, LayoutBuilder.buildWith, LayoutBuilder.ofMembers, placed, index]
  rfl

/-- Texts for two records and a cut one, one overwritten, and one for a member that is no string. -/
def labels : List MemberWrite :=
  [⟨0, "label", "a"⟩, ⟨2, "label", "b"⟩, ⟨1, "number", "c"⟩, ⟨0, "label", "d"⟩]

theorem holdsMap_run_labels :
    let start : Workspace Unit :=
      { codec := Codec.new { width := .w32 }, buffers := fun _ => Buffer.filled 16 0 }
    start.accepted labelled labels = [⟨0, "label", "a"⟩, ⟨2, "label", "b"⟩, ⟨0, "label", "d"⟩] ∧
      HoldsMap labelled 16 (start.run (labels.map (MemberWrite.call labelled)))
        (start.accepted labelled labels) := by
  refine ⟨by decide +kernel, ?_⟩
  exact holdsMap_run build_labelled (Codec.Reachable.new _) rfl (by decide) labels

end StringSlots
