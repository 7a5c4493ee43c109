import StringSlots.Proofs.Arena.Lifetime
import StringSlots.Proofs.Record.HandleAt
import StringSlots.Proofs.Record.Visited

/-!
# Visits of a release pass

A pass meets the handles of the non-null slots in order: `Buffer.visits` lists them, read from the
buffer at the start. A visit frees its string when the handle is live at the start and has not been
met before (`freeing`); all others are strays (`strays`). Both lists are computed in one pass from
the arena at the start. The threaded equations (`freeing_cons_of_live` and its siblings) say that
looking at an arena from which the met handles are gone comes to the same.

`length_freeing` counts the freed strings, and `strays_cases` finds the first stray.
-/

namespace StringSlots

/-! ## Clearing slots -/

theorem littleEndian_zero (count : Nat) : littleEndian count 0 = List.replicate count 0 := by
  induction count with
  | zero => rfl
  | succ count ih => rw [littleEndian, Nat.zero_div, ih]; rfl

theorem CodecConfig.image_none (config : CodecConfig) :
    config.image none = List.replicate config.width.bytes 0 := by
  rw [image, ByteOrder.image, Handle.raw, littleEndian_zero]
  cases config.order with
  | native => rfl
  | little => rfl
  | big => exact List.reverse_replicate

namespace Buffer

/-- The buffer with the null marker in the slots at the given positions. -/
def clearAll (buffer : Buffer) (config : CodecConfig) (positions : List Nat) : Buffer :=
  positions.foldl (fun cleared position => cleared.overwrite position (config.image none)) buffer

variable (buffer : Buffer) (config : CodecConfig)

@[simp] theorem clearAll_nil : buffer.clearAll config [] = buffer := rfl

@[simp] theorem clearAll_cons (position : Nat) (rest : List Nat) :
    buffer.clearAll config (position :: rest) =
      (buffer.overwrite position (config.image none)).clearAll config rest := rfl

@[simp] theorem size_clearAll (positions : List Nat) :
    (buffer.clearAll config positions).size = buffer.size := by
  induction positions generalizing buffer with
  | nil => rfl
  | cons position rest ih => rw [clearAll_cons, ih, size_overwrite]

theorem byte_overwrite_null (first position : Nat) :
    (buffer.overwrite first (config.image none)).byte position =
      if first ≤ position ∧ position < first + config.width.bytes then 0
      else buffer.byte position := by
  by_cases within : first ≤ position ∧ position < first + config.width.bytes
  · rw [if_pos within, byte_overwrite, if_pos within.1, CodecConfig.image_none,
      List.getD_eq_getElem?_getD, List.getElem?_replicate, if_pos (by omega), Option.getD_some]
  · rw [if_neg within]
    exact byte_overwrite_of_outside buffer (by rw [CodecConfig.length_image]; omega)

/-- A buffer of zeros holds no handle. -/
theorem handleAt_filled_zero (size : Nat) (config : CodecConfig) (offset : Nat) :
    (Buffer.filled size 0).handleAt config offset = none := by
  rw [← handleAt_overwrite_null (Buffer.filled size 0) config offset]
  apply handleAt_congr
  intro position above below
  rw [byte_overwrite_null, if_pos ⟨above, below⟩]
  simp [byte, filled]

/-- Clearing writes zeros over the slots and nothing else. -/
theorem byte_clearAll (positions : List Nat) (place : Nat) :
    (buffer.clearAll config positions).byte place =
      if ∃ position ∈ positions, position ≤ place ∧ place < position + config.width.bytes then 0
      else buffer.byte place := by
  induction positions generalizing buffer with
  | nil => simp
  | cons position rest ih =>
      rw [clearAll_cons, ih, byte_overwrite_null]
      simp only [List.exists_mem_cons_iff]
      by_cases here : position ≤ place ∧ place < position + config.width.bytes
      · simp [here]
      · simp [here]

/-- Cleared slots hold the null marker, and slots apart from these what they held. -/
theorem handleAt_clearAll {positions : List Nat} {offset : Nat}
    (slots : ∀ position ∈ positions,
      position = offset ∨ SlotsApart config.width.bytes position offset) :
    (buffer.clearAll config positions).handleAt config offset =
      if offset ∈ positions then none else buffer.handleAt config offset := by
  induction positions generalizing buffer with
  | nil => simp
  | cons position rest ih =>
      obtain ⟨here_slot, later_slots⟩ := List.forall_mem_cons.1 slots
      rw [clearAll_cons, ih _ later_slots]
      by_cases later : offset ∈ rest
      · rw [if_pos later, if_pos (List.mem_cons_of_mem _ later)]
      · rw [if_neg later]
        rcases here_slot with rfl | apart
        · rw [if_pos List.mem_cons_self, handleAt_overwrite_null]
        · rw [if_neg (by simp [apart.ne.symm, later])]
          apply handleAt_overwrite_of_apart
          rw [CodecConfig.length_image]
          exact apart

/-! ## Visits -/

/-- The slots among `positions` that hold a handle, each with its handle. -/
def visits (positions : List Nat) : List (Nat × Handle) :=
  positions.filterMap fun position =>
    (buffer.handleAt config position).map fun handle => (position, handle)

theorem visits_cons_of_null {position : Nat} (null : buffer.handleAt config position = none)
    (rest : List Nat) :
    buffer.visits config (position :: rest) = buffer.visits config rest := by
  rw [visits, List.filterMap_cons, null]
  rfl

theorem visits_cons_of_handle {position : Nat} {handle : Handle}
    (held : buffer.handleAt config position = some handle) (rest : List Nat) :
    buffer.visits config (position :: rest) = (position, handle) :: buffer.visits config rest := by
  rw [visits, List.filterMap_cons, held]
  rfl

theorem mem_visits_iff {positions : List Nat} {visit : Nat × Handle} :
    visit ∈ buffer.visits config positions ↔
      visit.1 ∈ positions ∧ buffer.handleAt config visit.1 = some visit.2 := by
  rw [visits, List.mem_filterMap]
  constructor
  · rintro ⟨position, mem, same⟩
    obtain ⟨handle, held, rfl⟩ := Option.map_eq_some_iff.1 same
    exact ⟨mem, held⟩
  · rintro ⟨mem, held⟩
    exact ⟨visit.1, mem, by rw [held]; rfl⟩

/-- Slots with distinct handles are met with distinct handles. -/
theorem nodup_handlesOf_visits {positions : List Nat} (nodup : positions.Nodup)
    (distinct : ∀ p ∈ positions, ∀ q ∈ positions, ∀ handle,
      buffer.handleAt config p = some handle → buffer.handleAt config q = some handle → p = q) :
    ((buffer.visits config positions).map Prod.snd).Nodup := by
  rw [List.Nodup, List.pairwise_map, visits, List.pairwise_filterMap]
  apply nodup.imp_of_mem
  intro p q p_mem q_mem differ first first_eq second second_eq same
  obtain ⟨handle, p_held, rfl⟩ := Option.map_eq_some_iff.1 first_eq
  obtain ⟨other, q_held, rfl⟩ := Option.map_eq_some_iff.1 second_eq
  obtain rfl : handle = other := same
  exact differ (distinct p p_mem q q_mem handle p_held q_held)

theorem visits_congr {a b : Buffer} {config : CodecConfig} {positions : List Nat}
    (same : ∀ position ∈ positions, a.handleAt config position = b.handleAt config position) :
    a.visits config positions = b.visits config positions :=
  List.filterMap_congr fun position mem => by rw [same position mem]

end Buffer

/-! ## Freeing visits and strays -/

/-- The handles of visits, in order. -/
abbrev handlesOf (visits : List (Nat × Handle)) : List Handle :=
  visits.map Prod.snd

/-- Whether a visit that meets `handle` after the handles `seen` frees a string: the handle is live
in the arena at the start and is met for the first time. -/
def frees (arena : Arena) (seen : List Handle) (handle : Handle) : Bool :=
  arena.contains handle && !seen.contains handle

/-- The visits that free a string when the handles `seen` were met before. -/
def freeing (arena : Arena) : List Handle → List (Nat × Handle) → List (Nat × Handle)
  | _, [] => []
  | seen, (position, handle) :: rest =>
      if frees arena seen handle then (position, handle) :: freeing arena (handle :: seen) rest
      else freeing arena (handle :: seen) rest

/-- The visits that find nothing to free when the handles `seen` were met before. -/
def strays (arena : Arena) : List Handle → List (Nat × Handle) → List (Nat × Handle)
  | _, [] => []
  | seen, (position, handle) :: rest =>
      if frees arena seen handle then strays arena (handle :: seen) rest
      else (position, handle) :: strays arena (handle :: seen) rest

theorem frees_iff {arena : Arena} {seen : List Handle} {handle : Handle} :
    frees arena seen handle = true ↔ arena.contains handle = true ∧ handle ∉ seen := by
  simp [frees]

section Threaded

variable {a b : Arena} {seen met : List Handle}

theorem frees_cons (same : ∀ handle, frees a seen handle = frees b met handle)
    (handle other : Handle) : frees a (handle :: seen) other = frees b (handle :: met) other := by
  have now := same other
  by_cases eq : other = handle
  · simp [frees, eq]
  · simpa [frees, eq] using now

theorem freeing_congr (same : ∀ handle, frees a seen handle = frees b met handle)
    (visits : List (Nat × Handle)) : freeing a seen visits = freeing b met visits := by
  induction visits generalizing seen met with
  | nil => rfl
  | cons visit rest ih => rw [freeing, freeing, same visit.2, ih (frees_cons same visit.2)]

theorem strays_congr (same : ∀ handle, frees a seen handle = frees b met handle)
    (visits : List (Nat × Handle)) : strays a seen visits = strays b met visits := by
  induction visits generalizing seen met with
  | nil => rfl
  | cons visit rest ih => rw [strays, strays, same visit.2, ih (frees_cons same visit.2)]

end Threaded

section Equations

variable {arena : Arena} {position : Nat} {handle : Handle} (rest : List (Nat × Handle))

/-- A handle that was met is as good as freed. -/
theorem frees_singleton (arena : Arena) (handle other : Handle) :
    frees arena [handle] other = frees (arena.discard handle) [] other := by
  have after := Arena.contains_discardAll arena [handle] other
  rw [Arena.discardAll_cons, Arena.discardAll_nil] at after
  simp [frees, after]

theorem freeing_cons_of_live (live : arena.contains handle = true) :
    freeing arena [] ((position, handle) :: rest) =
      (position, handle) :: freeing (arena.discard handle) [] rest := by
  rw [freeing, if_pos (by simp [frees, live]), freeing_congr (frees_singleton arena handle)]

theorem freeing_cons_of_dead (dead : arena.contains handle = false) :
    freeing arena [] ((position, handle) :: rest) = freeing arena [] rest := by
  rw [freeing, if_neg (by simp [frees, dead]), freeing_congr (frees_singleton arena handle),
    Arena.discard_of_dead dead]

theorem strays_cons_of_live (live : arena.contains handle = true) :
    strays arena [] ((position, handle) :: rest) = strays (arena.discard handle) [] rest := by
  rw [strays, if_pos (by simp [frees, live]), strays_congr (frees_singleton arena handle)]

theorem strays_cons_of_dead (dead : arena.contains handle = false) :
    strays arena [] ((position, handle) :: rest) = (position, handle) :: strays arena [] rest := by
  rw [strays, if_neg (by simp [frees, dead]), strays_congr (frees_singleton arena handle),
    Arena.discard_of_dead dead]

end Equations

/-- A pass frees as many strings as there are distinct live handles among those it meets. -/
theorem length_freeing (arena : Arena) (visits : List (Nat × Handle)) :
    (freeing arena [] visits).length = (arena.liveAmong (handlesOf visits)).card := by
  induction visits generalizing arena with
  | nil => rfl
  | cons visit rest ih =>
      obtain ⟨position, handle⟩ := visit
      show _ = (arena.liveAmong (handle :: handlesOf rest)).card
      cases live : arena.contains handle with
      | true =>
          -- counted in the arena without the handle, later visits of it free nothing
          rw [freeing_cons_of_live rest live, List.length_cons, ih,
            Arena.liveAmong_cons_of_live live,
            Finset.card_insert_of_notMem (Arena.not_mem_liveAmong_discard arena handle _)]
      | false => rw [freeing_cons_of_dead rest live, ih, Arena.liveAmong_cons_of_dead live]

/-- A visit that frees its string goes before visits that free theirs. -/
theorem all_free_cons {arena : Arena} {seen : List Handle} {visit : Nat × Handle}
    {rest : List (Nat × Handle)} (here : frees arena seen visit.2 = true)
    (distinct : (handlesOf rest).Nodup)
    (all : ∀ handle ∈ handlesOf rest,
      arena.contains handle = true ∧ handle ∉ visit.2 :: seen) :
    (handlesOf (visit :: rest)).Nodup ∧
      ∀ handle ∈ handlesOf (visit :: rest), arena.contains handle = true ∧ handle ∉ seen := by
  constructor
  · refine List.nodup_cons.2 ⟨?_, distinct⟩
    intro mem
    exact (all visit.2 mem).2 List.mem_cons_self
  · intro handle mem
    rcases List.mem_cons.1 mem with rfl | mem
    · exact frees_iff.1 here
    · obtain ⟨live, unmet⟩ := all handle mem
      exact ⟨live, fun met => unmet (List.mem_cons_of_mem _ met)⟩

/-- Either every handle is live and met once, and there are no strays; or there is a first handle
that is dead or was met before, and it is the first stray. -/
theorem strays_cases (arena : Arena) (seen : List Handle) (visits : List (Nat × Handle)) :
    (strays arena seen visits = [] ∧ (handlesOf visits).Nodup ∧
        ∀ handle ∈ handlesOf visits, arena.contains handle = true ∧ handle ∉ seen) ∨
      ∃ before visit after more, visits = before ++ visit :: after ∧
        strays arena seen visits = visit :: more ∧ (handlesOf before).Nodup ∧
        (∀ handle ∈ handlesOf before, arena.contains handle = true ∧ handle ∉ seen) ∧
        (arena.contains visit.2 = false ∨ visit.2 ∈ seen ∨ visit.2 ∈ handlesOf before) := by
  induction visits generalizing seen with
  | nil => exact Or.inl ⟨rfl, List.nodup_nil, fun handle mem => absurd mem List.not_mem_nil⟩
  | cons visit rest ih =>
      obtain ⟨position, handle⟩ := visit
      by_cases first_live : frees arena seen handle = true
      · -- this visit frees its string, so the first stray is one of the rest
        have skip : strays arena seen ((position, handle) :: rest) =
            strays arena (handle :: seen) rest := by
          rw [strays, if_pos first_live]
        rcases ih (handle :: seen) with ⟨none_left, distinct, all⟩ |
          ⟨before, visit, after, more, split, first, distinct, all, stray⟩
        · exact Or.inl ⟨skip.trans none_left, all_free_cons first_live distinct all⟩
        · have all_free :=
            @all_free_cons arena seen (position, handle) before first_live distinct all
          refine Or.inr ⟨(position, handle) :: before, visit, after, more, by rw [split]; rfl,
            skip.trans first, all_free.1, all_free.2, ?_⟩
          rcases stray with dead | met | met
          · exact Or.inl dead
          · rcases List.mem_cons.1 met with same | met
            · exact Or.inr (Or.inr (List.mem_cons.2 (Or.inl same)))
            · exact Or.inr (Or.inl met)
          · exact Or.inr (Or.inr (List.mem_cons_of_mem _ met))
      · -- this visit is the first stray
        refine Or.inr ⟨[], (position, handle), rest, strays arena (handle :: seen) rest, rfl, ?_,
          List.nodup_nil, fun other mem => absurd mem List.not_mem_nil, ?_⟩
        · rw [strays, if_neg first_live]
        · by_cases live : arena.contains handle = true
          · refine Or.inr (Or.inl ?_)
            by_contra unmet
            exact first_live (frees_iff.2 ⟨live, unmet⟩)
          · exact Or.inl (by simpa using live)

theorem freeing_sublist (arena : Arena) (seen : List Handle) (visits : List (Nat × Handle)) :
    (freeing arena seen visits).Sublist visits := by
  induction visits generalizing seen with
  | nil => exact List.Sublist.slnil
  | cons visit rest ih =>
      rw [freeing]
      split
      · exact (ih _).cons_cons _
      · exact (ih _).cons _

section Distinct

variable {seen : List Handle} {visits : List (Nat × Handle)}

theorem unmet_tail {visit : Nat × Handle} {rest : List (Nat × Handle)}
    (distinct : (handlesOf (visit :: rest)).Nodup)
    (unmet : ∀ handle ∈ handlesOf (visit :: rest), handle ∉ seen) :
    ∀ handle ∈ handlesOf rest, handle ∉ visit.2 :: seen := by
  intro handle mem met
  rcases List.mem_cons.1 met with rfl | met
  · exact (List.nodup_cons.1 distinct).1 mem
  · exact unmet handle (List.mem_cons_of_mem _ mem) met

variable (arena : Arena)

/-- When no handle is met twice, the visits of live handles free their strings. -/
theorem freeing_eq_filter (distinct : (handlesOf visits).Nodup)
    (unmet : ∀ handle ∈ handlesOf visits, handle ∉ seen) :
    freeing arena seen visits = visits.filter fun visit => arena.contains visit.2 := by
  induction visits generalizing seen with
  | nil => rfl
  | cons visit rest ih =>
      have here := unmet visit.2 List.mem_cons_self
      rw [freeing, ih distinct.of_cons (unmet_tail distinct unmet), List.filter_cons]
      simp only [frees, Bool.and_eq_true, Bool.not_eq_true', List.contains_eq_mem,
        decide_eq_false_iff_not, here, not_false_eq_true, and_true]

/-- When no handle is met twice, the visits of dead handles are the strays. -/
theorem strays_eq_filter (distinct : (handlesOf visits).Nodup)
    (unmet : ∀ handle ∈ handlesOf visits, handle ∉ seen) :
    strays arena seen visits = visits.filter fun visit => !arena.contains visit.2 := by
  induction visits generalizing seen with
  | nil => rfl
  | cons visit rest ih =>
      have here := unmet visit.2 List.mem_cons_self
      rw [strays, ih distinct.of_cons (unmet_tail distinct unmet), List.filter_cons]
      cases live : arena.contains visit.2 <;> simp [frees, live, here]

end Distinct

end StringSlots
