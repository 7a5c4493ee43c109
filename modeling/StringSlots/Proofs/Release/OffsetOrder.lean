import StringSlots.Proofs.Release.Again

/-!
# The order of the offsets

Two schemas with the same offsets in different orders visit the same slots, so a pass meets the same
handles in another order (`visited_perm`). What a pass frees hangs on the set of these handles
alone: the arenas that are left hold the same (`alike_discardAll`). A pass succeeds when no handle
is met twice and all are live, which does not hang on the order either, and it then clears the slots
of all of them. Only the slots that win among those with a repeated handle can differ, and then the
pass fails. `releaseAll_offsetOrder` puts this together.
-/

namespace StringSlots

/-! ## Arenas with the same strings -/

namespace Arena

/-- Arenas that hold the same strings under the same handles, with equal counters and tallies. -/
structure Alike (a b : Arena) : Prop where
  entries : a.entries.toList = b.entries.toList
  next : a.next = b.next
  maxHandle : a.maxHandle = b.maxHandle
  liveBytes : a.liveBytes = b.liveBytes
  totalAllocated : a.totalAllocated = b.totalAllocated

theorem Alike.refl (arena : Arena) : arena.Alike arena where
  entries := rfl
  next := rfl
  maxHandle := rfl
  liveBytes := rfl
  totalAllocated := rfl

theorem liveAmong_perm (arena : Arena) {handles others : List Handle}
    (perm : handles.Perm others) : arena.liveAmong handles = arena.liveAmong others := by
  rw [liveAmong, liveAmong, List.toFinset_eq_of_perm handles others perm]

/-- Freeing the same handles in another order leaves the same strings. -/
theorem alike_discardAll (arena : Arena) {handles others : List Handle}
    (perm : handles.Perm others) :
    (arena.discardAll handles).Alike (arena.discardAll others) := by
  obtain ⟨next, maxHandle, totalAllocated⟩ := arena.counters_discardAll handles
  obtain ⟨other_next, other_maxHandle, other_totalAllocated⟩ := arena.counters_discardAll others
  refine
    { entries := ?_
      next := next.trans other_next.symm
      maxHandle := maxHandle.trans other_maxHandle.symm
      liveBytes := ?_
      totalAllocated := totalAllocated.trans other_totalAllocated.symm }
  · have found : ∀ handle, (arena.discardAll handles).find? handle =
        (arena.discardAll others).find? handle := by
      intro handle
      simp only [find?_discardAll, perm.mem_iff]
    exact (Std.TreeMap.Equiv.of_forall_constGet?_eq found).toList_eq
  · rw [liveBytes_discardAll, liveBytes_discardAll, arena.liveAmong_perm perm]

end Arena

/-! ## The same slots in another order -/

/-- The schema that lists the same slots from the last to the first. -/
def SlotSchema.reversed (schema : SlotSchema) : SlotSchema where
  recordSize := schema.recordSize
  width := schema.width
  offsets := schema.offsets.reverse
  recordSize_pos := schema.recordSize_pos
  inside offset mem := schema.inside offset (List.mem_reverse.1 mem)
  apart := List.pairwise_reverse.2 (schema.apart.imp fun apart => apart.symm)

theorem SlotSchema.visited_perm {schema other : SlotSchema}
    (size : schema.recordSize = other.recordSize) (width : schema.width = other.width)
    (perm : schema.offsets.Perm other.offsets) (policy : TailPolicy) (length : Nat) :
    (schema.visited policy length).Perm (other.visited policy length) := by
  have whole : (schema.wholeSlots length).Perm (other.wholeSlots length) := by
    rw [wholeSlots, wholeSlots, ← size]
    exact List.Perm.flatMap_left _ fun record _ => perm.map _
  have tail : (schema.tailSlots length).Perm (other.tailSlots length) := by
    rw [tailSlots, tailSlots, ← size, ← width]
    exact (perm.filter _).map _
  rw [visited, visited]
  split
  · exact whole.append tail
  · exact whole

/-- When all handles are live and none is met twice, every visit frees its string. -/
theorem freeing_eq_self {arena : Arena} {visits : List (Nat × Handle)}
    (distinct : (handlesOf visits).Nodup)
    (live : ∀ handle ∈ handlesOf visits, arena.contains handle = true) :
    freeing arena [] visits = visits := by
  rw [freeing_eq_filter arena distinct fun _ _ => List.not_mem_nil, List.filter_eq_self]
  intro visit mem
  exact live visit.2 (List.mem_map_of_mem mem)

namespace Codec

/-- A pass succeeds exactly when no handle is met twice and all are live; it then counts them. -/
theorem passResult_eq_ok_iff {arena : Arena} {visits : List (Nat × Handle)} {count : Nat} :
    passResult arena visits = .ok count ↔
      (handlesOf visits).Nodup ∧ (∀ handle ∈ handlesOf visits, arena.contains handle = true) ∧
        visits.length = count := by
  have counted : (handlesOf visits).Nodup →
      (∀ handle ∈ handlesOf visits, arena.contains handle = true) →
      passResult arena visits = .ok visits.length := by
    intro distinct live
    have none_dead : visits.find? (fun visit => !arena.contains visit.2) = none := by
      rw [List.find?_eq_none]
      intro visit mem
      simp [live visit.2 (List.mem_map_of_mem mem)]
    rw [passResult_of_distinct arena distinct, none_dead]
  constructor
  · intro answered
    rcases passResult_cases arena visits with ⟨distinct, live, -⟩ | ⟨_, _, _, -, -, -, -, failed⟩
    · rw [counted distinct live] at answered
      exact ⟨distinct, live, Except.ok.inj answered⟩
    · rw [failed] at answered
      cases answered
  · rintro ⟨distinct, live, rfl⟩
    exact counted distinct live

/-- What two calls have in common that differ in the order of their visits only. -/
structure OrderFree (one other : Outcome Nat) : Prop where
  config : one.codec.config = other.codec.config
  arena : one.codec.arena.Alike other.codec.arena
  /-- One call succeeds exactly when the other does, and with the same count. -/
  answer : ∀ count, one.result = .ok count ↔ other.result = .ok count
  /-- After calls that succeed the buffers hold the same bytes. -/
  bytes : ∀ count, one.result = .ok count → one.buffer.bytes = other.buffer.bytes

theorem orderFree_refuse (codec : Codec) (buffer : Buffer) (error : SlotError) :
    OrderFree (codec.refuse buffer error) (codec.refuse buffer error) where
  config := rfl
  arena := Arena.Alike.refl codec.arena
  answer _ := Iff.rfl
  bytes _ _ := rfl

theorem orderFree_releaseReference (codec : Codec) (buffer : Buffer) {positions others : List Nat}
    (perm : positions.Perm others) (notes : List Event) (records : Nat) :
    OrderFree (codec.releaseReference buffer positions notes records)
      (codec.releaseReference buffer others notes records) := by
  have visits : (buffer.visits codec.config positions).Perm (buffer.visits codec.config others) :=
    perm.filterMap _
  rw [releaseReference_eq, releaseReference_eq]
  generalize buffer.visits codec.config positions = met at visits ⊢
  generalize buffer.visits codec.config others = other_met at visits ⊢
  have handles : (handlesOf met).Perm (handlesOf other_met) := visits.map _
  have answer : ∀ count, passResult codec.arena met = .ok count ↔
      passResult codec.arena other_met = .ok count := by
    intro count
    simp only [passResult_eq_ok_iff, handles.nodup_iff, handles.mem_iff, visits.length_eq]
  refine
    { config := rfl
      arena := codec.arena.alike_discardAll handles
      answer := answer
      bytes := ?_ }
  intro count answered
  obtain ⟨distinct, live, -⟩ := passResult_eq_ok_iff.1 answered
  obtain ⟨other_distinct, other_live, -⟩ := passResult_eq_ok_iff.1 ((answer count).1 answered)
  -- all slots that were met are cleared, and these are the same
  dsimp only
  rw [freeing_eq_self distinct live, freeing_eq_self other_distinct other_live, Buffer.bytes_eq_iff]
  refine ⟨by simp, fun place _ => ?_⟩
  simp only [byte_cleared, visits.mem_iff]

/-- A release does not hang on the order in which the schema lists its offsets: the same strings are
freed, and it succeeds in both orders or in none. When it succeeds, the counts and the buffers that
are left are the same. -/
theorem releaseAll_offsetOrder (codec : Codec) (buffer : Buffer) {schema other : SlotSchema}
    (size : schema.recordSize = other.recordSize) (width : schema.width = other.width)
    (perm : schema.offsets.Perm other.offsets) :
    OrderFree (codec.releaseAll buffer schema) (codec.releaseAll buffer other) := by
  rw [releaseAll_eq, releaseAll_eq, ← size, ← width]
  split
  · exact orderFree_refuse codec buffer _
  · split
    · exact orderFree_refuse codec buffer _
    · exact orderFree_releaseReference codec buffer
        (SlotSchema.visited_perm size width perm codec.config.tail buffer.size) _ _

theorem releaseAll_offsetOrder_spaced :
    let repeated := Buffer.ofBytes [2, 0, 0, 0, 7, 2, 0, 0, 0]
    let distinct := Buffer.ofBytes [2, 0, 0, 0, 7, 1, 0, 0, 0, 0, 0, 0, 0]
    let forward := fun buffer => (withTwoTexts true).releaseAll buffer (.spaced .w32)
    let backward := fun buffer =>
      (withTwoTexts true).releaseAll buffer (SlotSchema.spaced .w32).reversed
    (forward repeated).codec.arena.Alike (backward repeated).codec.arena ∧
      (forward repeated).buffer.bytes ≠ (backward repeated).buffer.bytes ∧
      (forward distinct).result = .ok 2 ∧ (backward distinct).result = .ok 2 ∧
      (forward distinct).buffer.bytes = (backward distinct).buffer.bytes := by
  intro repeated distinct forward backward
  have size : (SlotSchema.spaced .w32).recordSize =
      (SlotSchema.spaced .w32).reversed.recordSize := rfl
  have width : (SlotSchema.spaced .w32).width = (SlotSchema.spaced .w32).reversed.width := rfl
  have perm : (SlotSchema.spaced .w32).offsets.Perm (SlotSchema.spaced .w32).reversed.offsets :=
    (List.reverse_perm _).symm
  have failed := releaseAll_offsetOrder (withTwoTexts true) repeated size width perm
  have succeeded := releaseAll_offsetOrder (withTwoTexts true) distinct size width perm
  have answered : (forward distinct).result = .ok 2 := by decide +kernel
  exact ⟨failed.arena, by decide +kernel, answered, (succeeded.answer 2).1 answered,
    succeeded.bytes 2 answered⟩

end Codec

end StringSlots
