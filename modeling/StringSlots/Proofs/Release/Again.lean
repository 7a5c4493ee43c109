import StringSlots.Proofs.Release.Plan

/-!
# Passes that are repeated

A pass leaves no live handle behind among those that it met. A second pass over the same slots meets
only such handles: the strays of the first pass where freed slots are cleared (`visits_released`),
and all of them again where slots keep their stale handles. A pass that meets only dead handles
frees nothing, clears nothing and answers with the first of them (`releaseReference_of_dead`). So
releasing twice leaves what releasing once leaves (`releaseAll_again`).
-/

namespace StringSlots

namespace Arena

theorem discardAll_of_dead {arena : Arena} {handles : List Handle}
    (dead : ∀ handle ∈ handles, arena.contains handle = false) :
    arena.discardAll handles = arena := by
  induction handles with
  | nil => rfl
  | cons handle rest ih =>
      obtain ⟨here, later⟩ := List.forall_mem_cons.1 dead
      rw [discardAll_cons, discard_of_dead here, ih later]

end Arena

/-! ## Visits of dead handles -/

section Dead

variable {arena : Arena} {visits : List (Nat × Handle)}

theorem freeing_of_dead (dead : ∀ handle ∈ handlesOf visits, arena.contains handle = false) :
    freeing arena [] visits = [] := by
  induction visits with
  | nil => rfl
  | cons visit rest ih =>
      obtain ⟨here, later⟩ := List.forall_mem_cons.1 dead
      rw [freeing_cons_of_dead rest here, ih later]

theorem strays_of_dead (dead : ∀ handle ∈ handlesOf visits, arena.contains handle = false) :
    strays arena [] visits = visits := by
  induction visits with
  | nil => rfl
  | cons visit rest ih =>
      obtain ⟨here, later⟩ := List.forall_mem_cons.1 dead
      rw [strays_cons_of_dead rest here, ih later]

end Dead

theorem strays_sublist (arena : Arena) (seen : List Handle) (visits : List (Nat × Handle)) :
    (strays arena seen visits).Sublist visits := by
  induction visits generalizing seen with
  | nil => exact List.Sublist.slnil
  | cons visit rest ih =>
      rw [strays]
      split
      · exact (ih _).cons _
      · exact (ih _).cons_cons _

/-- The strays are the visits of slots that are not freed. -/
theorem strays_eq_filter_unfreed (arena : Arena) (seen : List Handle)
    {visits : List (Nat × Handle)} (nodup : (visits.map Prod.fst).Nodup) :
    strays arena seen visits =
      visits.filter fun visit => visit.1 ∉ (freeing arena seen visits).map Prod.fst := by
  induction visits generalizing seen with
  | nil => rfl
  | cons visit rest ih =>
      obtain ⟨position, handle⟩ := visit
      obtain ⟨new, rest_nodup⟩ := List.nodup_cons.1 nodup
      rw [strays, freeing]
      by_cases freed : frees arena seen handle = true
      · -- the slot is freed; no later visit is of this slot
        have later : rest.filter (fun visit => visit.1 ∉
              ((position, handle) :: freeing arena (handle :: seen) rest).map Prod.fst) =
            rest.filter fun visit => visit.1 ∉
              (freeing arena (handle :: seen) rest).map Prod.fst := by
          apply List.filter_congr
          intro visit mem
          have other : visit.1 ≠ position := by
            rintro rfl
            exact new (List.mem_map.2 ⟨visit, mem, rfl⟩)
          simp [other]
        rw [if_pos freed, if_pos freed, List.filter_cons_of_neg (by simp), later,
          ih (handle :: seen) rest_nodup]
      · -- only later visits can free, and these are of other slots
        have unfreed : position ∉ (freeing arena (handle :: seen) rest).map Prod.fst := by
          intro mem
          exact new (((freeing_sublist arena _ rest).map Prod.fst).subset mem)
        rw [if_neg freed, if_neg freed, List.filter_cons_of_pos (by simpa using unfreed),
          ih (handle :: seen) rest_nodup]

/-! ## What is left in the slots -/

namespace Buffer

variable (buffer : Buffer) (config : CodecConfig)

theorem nodup_visits {positions : List Nat} (nodup : positions.Nodup) :
    ((buffer.visits config positions).map Prod.fst).Nodup := by
  rw [List.Nodup, List.pairwise_map, visits, List.pairwise_filterMap]
  apply nodup.imp
  intro p q differ first first_eq second second_eq
  obtain ⟨_, -, rfl⟩ := Option.map_eq_some_iff.1 first_eq
  obtain ⟨_, -, rfl⟩ := Option.map_eq_some_iff.1 second_eq
  exact differ

theorem handlesOf_visits (positions : List Nat) :
    handlesOf (buffer.visits config positions) =
      positions.filterMap (buffer.handleAt config) := by
  rw [handlesOf, visits, List.map_filterMap]
  apply List.filterMap_congr
  intro position _
  cases buffer.handleAt config position <;> rfl

/-- After some slots were cleared, a walk meets the handles of the others. -/
theorem visits_clearAll {positions cleared : List Nat}
    (apart : positions.Pairwise (SlotsApart config.width.bytes)) (among : cleared ⊆ positions) :
    (buffer.clearAll config cleared).visits config positions =
      (buffer.visits config positions).filter fun visit => visit.1 ∉ cleared := by
  rw [visits, visits, List.filter_filterMap]
  apply List.filterMap_congr
  intro position mem
  have slots : ∀ other ∈ cleared,
      other = position ∨ SlotsApart config.width.bytes other position := by
    intro other other_mem
    by_cases same : other = position
    · exact Or.inl same
    · exact Or.inr (apart.forall (among other_mem) mem same)
  rw [handleAt_clearAll buffer config slots]
  by_cases gone : position ∈ cleared <;>
    cases buffer.handleAt config position <;> simp [Option.filter, gone]

end Buffer

/-- A second walk over slots that were released meets the strays of the first one where freed slots
were cleared, and otherwise the same handles again. -/
theorem visits_released (arena : Arena) (config : CodecConfig) (buffer : Buffer)
    {positions : List Nat} (apart : positions.Pairwise (SlotsApart config.width.bytes)) :
    let met := buffer.visits config positions
    (ReleasePass.cleared config buffer ((freeing arena [] met).map Prod.fst)).visits config
        positions =
      if config.clearReleased then strays arena [] met else met := by
  intro met
  have nodup : positions.Nodup := apart.imp SlotsApart.ne
  cases clear : config.clearReleased with
  | false =>
      rw [ReleasePass.cleared_of_keep clear]
      rfl
  | true =>
      have among : (freeing arena [] met).map Prod.fst ⊆ positions := by
        intro position mem
        obtain ⟨visit, visit_mem, rfl⟩ := List.mem_map.1 mem
        have visited := (freeing_sublist arena [] met).subset visit_mem
        exact ((buffer.mem_visits_iff config).1 visited).1
      rw [ReleasePass.cleared_of_clear clear, buffer.visits_clearAll config apart among, if_pos rfl,
        strays_eq_filter_unfreed arena [] (buffer.nodup_visits config nodup)]

namespace Codec

/-- The answer of a pass that meets the given handles and frees none of them. -/
def strayResult (handles : List Handle) : Except SlotError Nat :=
  match handles.head? with
  | some handle => .error (.unknownHandle handle.value)
  | none => .ok 0

/-- A pass that meets only dead handles changes nothing. -/
theorem releaseReference_of_dead {codec : Codec} {buffer : Buffer} {positions : List Nat}
    (dead : ∀ handle ∈ handlesOf (buffer.visits codec.config positions),
      codec.arena.contains handle = false) (notes : List Event) (records : Nat) :
    let outcome := codec.releaseReference buffer positions notes records
    outcome.codec = codec ∧ outcome.buffer = buffer ∧
      outcome.result = strayResult (handlesOf (buffer.visits codec.config positions)) := by
  intro outcome
  have outcome_eq := releaseReference_eq codec buffer positions notes records
  simp only [passResult, freeing_of_dead dead, strays_of_dead dead,
    Arena.discardAll_of_dead dead] at outcome_eq
  refine ⟨congrArg Outcome.codec outcome_eq, ?_, ?_⟩
  · refine (congrArg Outcome.buffer outcome_eq).trans ?_
    exact cleared_nil codec.config buffer
  · refine (congrArg Outcome.result outcome_eq).trans ?_
    rw [strayResult, List.head?_map]
    cases (buffer.visits codec.config positions).head? <;> rfl

/-- The slots of a plan that held a handle are met by the next call with this plan: all of them when
freed slots keep their handles, the strays when they are cleared. -/
theorem releaseReference_again {codec : Codec} {buffer : Buffer} {positions : List Nat}
    (apart : positions.Pairwise (SlotsApart codec.config.width.bytes)) (notes : List Event)
    (records : Nat) :
    let first := codec.releaseReference buffer positions notes records
    let second := first.codec.releaseReference first.buffer positions notes records
    second.codec = first.codec ∧ second.buffer = first.buffer ∧
      second.result =
        if codec.config.clearReleased then first.result.map fun _ => 0
        else strayResult (handlesOf (buffer.visits codec.config positions)) := by
  intro first second
  have first_eq := releaseReference_eq codec buffer positions notes records
  have arena_eq : first.codec.arena =
      codec.arena.discardAll (handlesOf (buffer.visits codec.config positions)) :=
    congrArg (fun outcome => outcome.codec.arena) first_eq
  have left_eq : first.buffer.visits codec.config positions =
      if codec.config.clearReleased then
        strays codec.arena [] (buffer.visits codec.config positions)
      else buffer.visits codec.config positions := by
    rw [← visits_released codec.arena codec.config buffer apart]
    exact congrArg (fun outcome => outcome.buffer.visits codec.config positions) first_eq
  -- whatever is met again was met before, and is gone by now
  have met_before : first.buffer.visits codec.config positions ⊆
      buffer.visits codec.config positions := by
    rw [left_eq]
    split
    · exact (strays_sublist codec.arena [] _).subset
    · exact List.Subset.refl _
  have dead : ∀ handle ∈ handlesOf (first.buffer.visits first.codec.config positions),
      first.codec.arena.contains handle = false := by
    intro handle mem
    rw [arena_eq]
    exact Arena.contains_discardAll_of_mem codec.arena (List.map_subset Prod.snd met_before mem)
  obtain ⟨codec_eq, buffer_eq, result_eq⟩ := releaseReference_of_dead dead notes records
  refine ⟨codec_eq, buffer_eq, result_eq.trans ?_⟩
  show strayResult (handlesOf (first.buffer.visits codec.config positions)) = _
  rw [left_eq]
  split
  · -- the first stray is what the first call reported
    have reported : first.result = passResult codec.arena (buffer.visits codec.config positions) :=
      congrArg Outcome.result first_eq
    rw [reported, strayResult, passResult, List.head?_map]
    cases (strays codec.arena [] (buffer.visits codec.config positions)).head? <;> rfl
  · rfl

/-- A second call has the plan of the first: neither the configuration nor the size changes. -/
theorem releaseAll_again_of_planned {codec : Codec} {buffer : Buffer} {schema : SlotSchema}
    {positions : List Nat} (plan : releasePlan codec.config schema buffer.size = .ok positions) :
    let first := codec.releaseAll buffer schema
    let second := first.codec.releaseAll first.buffer schema
    second.codec = first.codec ∧ second.buffer = first.buffer ∧
      second.result =
        if codec.config.clearReleased then first.result.map fun _ => 0
        else strayResult (handlesOf (buffer.visits codec.config positions)) := by
  intro first second
  have follows : Follows codec buffer _ first := releaseAll_follows codec buffer schema
  have second_plan : releasePlan first.codec.config schema first.buffer.size = .ok positions := by
    rw [follows.config_eq, follows.size_eq, plan]
  have first_eq : first = codec.releaseReference buffer positions _ _ := releaseAll_of_planned plan
  have second_eq : second = first.codec.releaseReference first.buffer positions _ _ :=
    releaseAll_of_planned second_plan
  rw [follows.config_eq, follows.size_eq] at second_eq
  rw [second_eq, first_eq]
  exact releaseReference_again (pairwise_of_releasePlan plan).1 _ _

/-- An answer of a pass that came to its end. -/
def EndsPass (answer : Except SlotError Nat) : Prop :=
  (∃ count, answer = .ok count) ∨ ∃ raw, answer = .error (.unknownHandle raw)

/-- Releasing once more changes neither the codec nor the buffer. Where freed slots are cleared, the
second answer is that nothing was freed, or the failure of the first call again. Where they keep
their handles, it names the first handle in a visited slot, if there is one. -/
theorem releaseAll_again (codec : Codec) (buffer : Buffer) (schema : SlotSchema)
    (ended : EndsPass (codec.releaseAll buffer schema).result) :
    let first := codec.releaseAll buffer schema
    let second := first.codec.releaseAll first.buffer schema
    second.codec = first.codec ∧ second.buffer = first.buffer ∧
      (codec.config.clearReleased = true →
        (∀ count, first.result = .ok count → second.result = .ok 0) ∧
          ∀ raw, first.result = .error (.unknownHandle raw) →
            second.result = .error (.unknownHandle raw)) ∧
      (codec.config.clearReleased = false →
        second.result =
          match (schema.visited codec.config.tail buffer.size).findSome?
              (buffer.handleAt codec.config) with
          | none => .ok 0
          | some handle => .error (.unknownHandle handle.value)) := by
  cases plan : releasePlan codec.config schema buffer.size with
  | error error =>
      -- a refused call is no pass
      have refused : (codec.releaseAll buffer schema).result = .error error := by
        rw [releaseAll_of_refused plan]
        rfl
      rw [refused] at ended
      rcases ended with ⟨_, same⟩ | ⟨raw, same⟩
      · cases same
      · cases same
        exact absurd rfl (releasePlan_error plan raw)
  | ok positions =>
      obtain ⟨codec_eq, buffer_eq, result_eq⟩ := releaseAll_again_of_planned plan
      refine ⟨codec_eq, buffer_eq, ?_, ?_⟩
      · intro clear
        rw [if_pos clear] at result_eq
        constructor
        · intro count first_ok
          rw [result_eq, first_ok]
          rfl
        · intro raw first_failed
          rw [result_eq, first_failed]
          rfl
      · intro keep
        rw [if_neg (by simp [keep])] at result_eq
        rw [result_eq, visited_of_releasePlan plan, strayResult, buffer.handlesOf_visits,
          List.head?_filterMap]
        cases positions.findSome? (buffer.handleAt codec.config) <;> rfl

/-- A codec of four-byte slots that processes cut records, with two texts. -/
def withTwoTexts (clearReleased : Bool) : Codec :=
  let first := (Codec.new { width := .w32, tail := .process, clearReleased }).encode "a"
    (Buffer.filled 8 0) 0
  (first.codec.encode "ü" first.buffer 4).codec

/-- A null slot, a handle that is met twice, another one, an unknown one, and half a slot. -/
def repeatedHandle : Buffer :=
  Buffer.ofBytes [0, 0, 0, 0, 2, 0, 0, 0, 2, 0, 0, 0, 1, 0, 0, 0, 9, 0, 0, 0, 7, 7]

theorem releaseAll_again_repeatedHandle :
    let first := fun clear => (withTwoTexts clear).releaseAll repeatedHandle (.single .w32)
    let second := fun clear => (first clear).codec.releaseAll (first clear).buffer (.single .w32)
    (first true).result = .error (.unknownHandle 2) ∧
      (second true).result = .error (.unknownHandle 2) ∧
      (second true).codec = (first true).codec ∧ (second true).buffer = (first true).buffer ∧
      (second false).result = .error (.unknownHandle 2) := by
  intro first second
  have failed : (first true).result = .error (.unknownHandle 2) := by decide +kernel
  have cleared := releaseAll_again (withTwoTexts true) repeatedHandle (.single .w32)
    (Or.inr ⟨2, failed⟩)
  have kept := releaseAll_again (withTwoTexts false) repeatedHandle (.single .w32)
    (Or.inr ⟨2, by decide +kernel⟩)
  have met : ((SlotSchema.single .w32).visited .process repeatedHandle.size).findSome?
      (repeatedHandle.handleAt (withTwoTexts false).config) = some ⟨2, Nat.two_pos⟩ := by
    decide +kernel
  refine ⟨failed, (cleared.2.2.1 rfl).2 2 failed, cleared.1, cleared.2.1, ?_⟩
  refine (kept.2.2.2 rfl).trans ?_
  show (match ((SlotSchema.single .w32).visited .process repeatedHandle.size).findSome?
    (repeatedHandle.handleAt (withTwoTexts false).config) with
    | none => Except.ok 0
    | some handle => Except.error (SlotError.unknownHandle handle.value)) = _
  rw [met]

end Codec

end StringSlots
