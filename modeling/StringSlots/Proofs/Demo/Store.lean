import StringSlots.Demo.Run
import StringSlots.Proofs.Managed.Host
import StringSlots.Proofs.Run.Members

/-!
# The store of a demo

A demo works on one codec and one managed buffer of layout records. `Formed.Filled` is what its
stored texts amount to: they are in the slots of their keys, no key was written twice, and they are
all the live strings of the codec. A text without a NUL can always be stored under another key
(`Filled.encode`), since there are fewer slots than handles (`Filled.room`). What is stored is read
back (`Filled.decode_eq`), and a release of the buffer frees all of it (`Filled.release`).

The demo reaches the codec by calls across the boundary, with positions as 32-bit integers. The
first sections say that these calls deliver what the codec does.
-/

namespace StringSlots

open ManagedArray

/-! ## Calls on a buffer that can be pinned -/

/-- Scoped access leaves an array as pinnable as it was. -/
theorem ManagedArray.pinnable_scope {σ : Type} (array : ManagedArray σ) (contents : σ) :
    (array.touchAll (array.scope contents)).pinnable = array.pinnable := by
  have refuses : (array.touchAll (array.scope contents)).refuses = array.refuses := by
    rw [scope]
    split <;> rfl
  rw [pinnable, pinnable, refuses, pinned_scope]

/-- A call that nothing stands in the way of delivers the outcome of the codec on its buffer, which
can be pinned again. -/
structure Crossing.Passes {α β : Type} (call : BridgeCall) (onSuccess : β → α) (onFailure : α)
    (outcome : Outcome β) (crossing : Crossing α) : Prop where
  delivers : crossing.Delivers call onSuccess onFailure outcome
  buffer : ∃ array, crossing.buffer = some array ∧ array.pinnable = true

namespace Codec

variable {array : ManagedArray Buffer} (codec : Codec) (free : array.pinnable = true)
include free

theorem passes_copyText (text : String) (offset : Nat) :
    (codec.copyText (some text) (some array) offset).Passes .copy (fun _ => .ok) .failure
      (codec.encode text array.contents offset) := by
  have natural : ¬(offset : Int) < 0 := Int.not_lt.2 (Int.natCast_nonneg offset)
  have clear : (Gate.copy (some text) (some array) offset).error? = none := by
    rw [Gate.copy, Gate.below_of_not_neg natural, Gate.blocked_of_pinnable free]
    rfl
  obtain ⟨outcome, asked, delivers⟩ := (codec.refines_copyText _ _ _).passed clear
  cases asked
  refine ⟨delivers, _, codec.buffer_copyText array offset text, ?_⟩
  rw [if_pos (Int.not_lt.1 natural), pinnable_scope]
  exact free

theorem passes_createText (offset : Nat) :
    (codec.createText (some array) offset).Passes .create id none
      (codec.decodeOutcome array.contents offset) := by
  have natural : ¬(offset : Int) < 0 := Int.not_lt.2 (Int.natCast_nonneg offset)
  have clear : (Gate.create (some array) offset).error? = none := by
    rw [Gate.create, Gate.below_of_not_neg natural, Gate.blocked_of_pinnable free]
    rfl
  obtain ⟨outcome, asked, delivers⟩ := (codec.refines_createText _ _).passed clear
  cases asked
  refine ⟨delivers, _, codec.buffer_createText array offset, ?_⟩
  rw [if_pos (Int.not_lt.1 natural), pinnable_scope]
  exact free

theorem delivers_freeTexts (recordSize : Int) (offsets : List Int) :
    (codec.freeTexts (some array) recordSize (some (.new offsets false))).1.Delivers .free
      (fun _ => .ok) .failure (codec.releaseIndexed array.contents recordSize offsets) := by
  have own : (ManagedArray.new offsets false).pinnable = true := rfl
  have clear : (Gate.free (some array) (some (.new offsets false))).error? = none := by
    rw [Gate.free, Gate.blocked_of_pinnable own, Gate.blocked_of_pinnable free]
    rfl
  obtain ⟨outcome, asked, delivers⟩ := (codec.refines_freeTexts _ recordSize _).passed clear
  rw [directFree_eq] at asked
  cases asked
  exact delivers

end Codec

/-! ## Positions as integers -/

theorem int32?_of_lt {n : Nat} (small : n < 0x8000_0000) : int32? n = some (n : Int) :=
  if_pos small

theorem mapM_int32? {offsets : List Nat} (small : ∀ offset ∈ offsets, offset < 0x8000_0000) :
    offsets.mapM int32? = some (offsets.map Nat.cast) := by
  induction offsets with
  | nil => rfl
  | cons offset rest ih =>
      obtain ⟨first, later⟩ := List.forall_mem_cons.1 small
      rw [List.mapM_cons, int32?_of_lt first, ih later]
      rfl

theorem SlotSchema.offsetsOfInts_map (offsets : List Nat) :
    offsetsOfInts (offsets.map Nat.cast) = .ok offsets := by
  have natural : (offsets.map (Nat.cast : Nat → Int)).find? (· < 0) = none := by
    simp [List.find?_eq_none]
  have same : (offsets.map (Nat.cast : Nat → Int)).map Int.toNat = offsets := by
    rw [List.map_map]
    exact List.map_id'' Int.toNat_natCast offsets
  rw [offsetsOfInts_eq, natural]
  exact congrArg Except.ok same

/-- Every schema is the one that is made of its parts as integers. -/
theorem SlotSchema.ofIndices_eq (schema : SlotSchema) :
    ofIndices schema.recordSize (schema.offsets.map Nat.cast) schema.width = .ok schema := by
  rw [ofIndices, if_neg (Int.not_lt.2 (Int.natCast_nonneg _)), offsetsOfInts_map]
  exact schema.ofOffsets_eq

namespace CompoundLayout

/-- Records whose size and whose slots can be handed over as 32-bit integers. -/
structure FitsInt32 (layout : CompoundLayout) (records : Nat) : Prop where
  recordSize_lt : layout.recordSize < 0x8000_0000
  position_lt : ∀ record < records, ∀ member ∈ layout.stringMembers,
    layout.position record member < 0x8000_0000

/-- Records whose slots fit have fewer bytes than there are numbers of 32 bits. -/
theorem FitsInt32.size_lt {layout : CompoundLayout} {records : Nat}
    (fits : layout.FitsInt32 records) {member : Member} (mem : member ∈ layout.stringMembers) :
    layout.recordSize * records < 2 ^ 32 := by
  cases records with
  | zero =>
      rw [Nat.mul_zero]
      decide
  | succ last =>
      have start := fits.position_lt last (Nat.lt_succ_self last) member mem
      have one := fits.recordSize_lt
      rw [position, Nat.mul_comm] at start
      rw [Nat.mul_succ]
      omega

end CompoundLayout

namespace CompoundLayout.Formed

variable {hash : String → UInt64} {layout : CompoundLayout}

/-- A slot of one of the records of a buffer lies inside it. -/
theorem position_inside (formed : layout.Formed hash) {member : Member}
    (mem : member ∈ layout.stringMembers) {record records : Nat} (record_lt : record < records) :
    layout.position record member + layout.width.bytes ≤ layout.recordSize * records := by
  obtain ⟨declared, string⟩ := mem_stringMembers_iff.1 mem
  have inside : member.offset + layout.width.bytes ≤ layout.recordSize := by
    have inside := formed.inside declared
    rw [string] at inside
    exact inside
  calc
    layout.position record member + layout.width.bytes
      = record * layout.recordSize + (member.offset + layout.width.bytes) := Nat.add_assoc ..
    _ ≤ record * layout.recordSize + layout.recordSize := Nat.add_le_add_left inside _
    _ = layout.recordSize * (record + 1) := by rw [Nat.mul_comm, Nat.mul_succ]
    _ ≤ layout.recordSize * records := Nat.mul_le_mul_left _ record_lt

end CompoundLayout.Formed

/-! ## The texts in the buffer -/

/-- A codec and the one buffer that it works on. -/
def Workspace.single (codec : Codec) (buffer : Buffer) : Workspace Unit :=
  { codec, buffers := fun _ => buffer }

theorem Workspace.put_single (codec after : Codec) (buffer left : Buffer) :
    (single codec buffer).put () after left = single after left := rfl

namespace CompoundLayout.Formed

variable {hash : String → UInt64} {layout : CompoundLayout} (formed : layout.Formed hash)
  {config : CodecConfig} (width : layout.width = config.width) (records : Nat)

/-- The texts that were stored, each under its own key, are in the slots of their keys, and no other
strings are live. -/
structure Filled (codec : Codec) (buffer : Buffer) (stored : List MemberWrite) : Prop where
  maps : formed.Maps width (layout.recordSize * records) (.single codec buffer) stored
  distinct : (stored.map MemberWrite.key).Nodup
  next_eq : codec.arena.next = stored.length + 1
  live_eq : codec.arena.live = stored.length

variable {formed width records} {codec : Codec} {buffer : Buffer} {stored : List MemberWrite}

namespace Filled

theorem new : formed.Filled width records (Codec.new config)
    (.filled (layout.recordSize * records) 0) [] where
  maps := Maps.of_zeros rfl (Arena.WellFormed.empty config.width)
  distinct := List.nodup_nil
  next_eq := rfl
  live_eq := rfl

/-- The handles do not run out: there are fewer slots than handles. -/
theorem room (filled : formed.Filled width records codec buffer stored)
    (fits : layout.FitsInt32 records) {member : Member} (mem : member ∈ layout.stringMembers) :
    codec.arena.next ≤ config.width.maxHandle := by
  have size := fits.size_lt mem
  have distinct : (stored.map fun write => layout.positionOf write.key).Nodup := by
    refine filled.distinct.of_map.map_on ?_
    intro write write_mem other other_mem same
    exact List.inj_on_of_nodup_map filled.distinct write_mem other_mem
      (filled.maps.key_eq write_mem other_mem same)
  have inside : (stored.map fun write => layout.positionOf write.key).toFinset ⊆
      Finset.range (2 ^ 32 - 4) := by
    intro place place_mem
    obtain ⟨write, write_mem, rfl⟩ := List.mem_map.1 (List.mem_toFinset.1 place_mem)
    obtain ⟨own, own_mem, named, own_inside⟩ := filled.maps.placed write write_mem
    have sizes := layout.width.bytes_eq_or
    rw [Finset.mem_range, MemberWrite.key, ← named,
      formed.positionOf_eq (mem_stringMembers_iff.1 own_mem).1]
    omega
  have count := Finset.card_le_card inside
  rw [List.toFinset_card_of_nodup distinct, List.length_map, Finset.card_range] at count
  have most : 2 ^ 32 - 1 ≤ config.width.maxHandle := by cases config.width <;> decide
  rw [filled.next_eq]
  omega

variable (filled : formed.Filled width records codec buffer stored)
include filled

theorem inside {member : Member} (mem : member ∈ layout.stringMembers) {record : Nat}
    (record_lt : record < records) :
    layout.position record member + codec.config.width.bytes ≤ buffer.size := by
  have config_eq : codec.config = config := filled.maps.config_eq
  have size_eq : buffer.size = layout.recordSize * records := filled.maps.size_eq
  rw [config_eq, size_eq, ← width]
  exact formed.position_inside mem record_lt

/-- A text with a NUL is refused. -/
theorem encode_of_nul {member : Member} (mem : member ∈ layout.stringMembers) {record : Nat}
    (record_lt : record < records) {text : String} {position : Nat}
    (nul : Arena.nulPosition? text = some position) :
    codec.encode text buffer (layout.position record member) =
      codec.refuse buffer (.interiorNul position) := by
  have arena_formed : codec.arena.WellFormed config.width := filled.maps.owned.formed
  rw [codec.encode_eq, if_pos (filled.inside mem record_lt), arena_formed.alloc_eq, nul]

/-- Another text is stored, and is then the text of its key. -/
theorem encode (fits : layout.FitsInt32 records) {member : Member}
    (mem : member ∈ layout.stringMembers) {write : MemberWrite} (named : member.name = write.name)
    (record_lt : write.record < records) (clean : Arena.nulPosition? write.text = none)
    (fresh : ∀ other ∈ stored, other.key ≠ write.key) :
    let outcome := codec.encode write.text buffer (layout.position write.record member)
    (∃ handle, outcome.result = .ok handle) ∧
      formed.Filled width records outcome.codec outcome.buffer (stored ++ [write]) := by
  intro outcome
  have arena_formed : codec.arena.WellFormed config.width := filled.maps.owned.formed
  have done := codec.encode_eq buffer (layout.position write.record member) write.text
  rw [if_pos (filled.inside mem record_lt), arena_formed.alloc_eq, clean] at done
  simp only [if_pos (filled.room fits mem)] at done
  have answered : ∃ handle, outcome.result = .ok handle := ⟨_, congrArg Outcome.result done⟩
  obtain ⟨handle, result⟩ := answered
  have arena_eq := congrArg (fun outcome => outcome.codec.arena) done
  have step_eq : (Workspace.single codec buffer).step
      (.encode () (layout.position write.record member) write.text) =
        (.ok (.stored handle), .single outcome.codec outcome.buffer) := by
    rw [Workspace.step, Workspace.commit]
    show (outcome.result.map _, (Workspace.single codec buffer).put () outcome.codec
      outcome.buffer) = _
    rw [result, Workspace.put_single]
    rfl
  have maps := filled.maps.step_accepted mem named (formed.position_inside mem record_lt)
    (congrArg Prod.fst step_eq)
  rw [step_eq] at maps
  refine ⟨⟨handle, result⟩, maps, ?_, ?_, ?_⟩
  · rw [List.map_append, List.map_singleton, List.nodup_append_comm]
    refine List.nodup_cons.2 ⟨?_, filled.distinct⟩
    intro again
    obtain ⟨other, other_mem, same⟩ := List.mem_map.1 again
    exact fresh other other_mem same
  · rw [arena_eq, List.length_append, List.length_singleton, ← filled.next_eq]
    rfl
  · -- the handle is the counter's value, which names nothing yet
    rw [arena_eq, List.length_append, List.length_singleton, ← filled.live_eq]
    exact Arena.live_push (arena_formed.find?_fresh (Nat.le_refl _)) _

/-- A slot is read as the text that was stored for its key. -/
theorem decode_eq {member : Member} (mem : member ∈ layout.stringMembers) {record : Nat}
    (record_lt : record < records) :
    codec.decode buffer (layout.position record member) =
      .ok (lastText stored (record, member.name)) :=
  filled.maps.decode_position mem (formed.position_inside mem record_lt)

/-- A release of the whole buffer frees every string. -/
theorem release :
    (codec.releaseIndexed buffer layout.recordSize (layout.slotOffsets.map Nat.cast)).result =
        .ok stored.length ∧
      (codec.releaseIndexed buffer layout.recordSize
        (layout.slotOffsets.map Nat.cast)).codec.arena.live = 0 := by
  have config_eq : codec.config = config := filled.maps.config_eq
  have whole : layout.recordSize * records % layout.recordSize = 0 := Nat.mul_mod_right ..
  -- the release by indices is the release of the layout
  have same : codec.releaseIndexed buffer layout.recordSize (layout.slotOffsets.map Nat.cast) =
      codec.releaseLayout layout buffer := by
    have schema_eq := formed.schema.ofIndices_eq
    rw [Codec.releaseIndexed, Codec.releaseLayout, formed.slotSchema_eq, config_eq, ← width]
    rw [show SlotSchema.ofIndices layout.recordSize (layout.slotOffsets.map Nat.cast)
      layout.width = .ok formed.schema from schema_eq]
  have reached : (reachedKeys layout config.tail (layout.recordSize * records) stored).card =
      stored.length := by
    rw [reachedKeys, Finset.filter_true_of_mem, List.toFinset_card_of_nodup filled.distinct,
      List.length_map]
    intro key key_mem
    obtain ⟨write, write_mem, rfl⟩ := List.mem_map.1 (List.mem_toFinset.1 key_mem)
    exact Or.inr (filled.maps.whole whole write write_mem)
  obtain ⟨result, live⟩ := filled.maps.release_eq fun _ => whole
  have live_eq := filled.live_eq
  rw [reached] at result live
  rw [same]
  refine ⟨result, ?_⟩
  have live : (codec.releaseLayout layout buffer).codec.arena.live + stored.length =
    codec.arena.live := live
  omega

end Filled

end CompoundLayout.Formed

end StringSlots
