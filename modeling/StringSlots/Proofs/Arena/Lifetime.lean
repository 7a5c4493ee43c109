import Mathlib.Algebra.BigOperators.Group.Finset.Basic
import Mathlib.Algebra.Order.BigOperators.Group.Finset
import StringSlots.Arena

/-!
# Lifetimes of stored strings

`Arena.WellFormed` is what every arena of a codec satisfies: its handles lie below the counter, and
what it stores is a text and a terminator. An allocation takes the counter's value and changes no
other entry (`alloc_eq_ok_iff`); only a NUL in the text or a counter past the limit stops it
(`alloc_error_cases`).

`Arena.discardAll` frees a list of handles in order. A handle that names nothing by then is passed
over, so of each live handle only the first occurrence counts: `find?_discardAll` and
`live_discardAll` say what is left in terms of the arena at the start.
-/

namespace StringSlots

theorem Handle.ofNat?_eq_some_iff {raw : Nat} {handle : Handle} :
    ofNat? raw = some handle ↔ handle.value = raw := by
  constructor
  · intro read
    have back := raw_ofNat? raw
    rw [read] at back
    exact back
  · rintro rfl
    exact ofNat?_raw (some handle)

namespace Arena

/-- The arena after freeing a handle; one that names no string frees nothing. -/
def discard (arena : Arena) (handle : Handle) : Arena :=
  (arena.free? handle).getD arena

/-- The arena after freeing handles in order. -/
def discardAll (arena : Arena) (handles : List Handle) : Arena :=
  handles.foldl discard arena

/-- The stored size of a handle, zero when it names no string. -/
def storedSize (arena : Arena) (handle : Handle) : Nat :=
  (arena.allocSize? handle).getD 0

/-- The live handles of a list, each once. -/
def liveAmong (arena : Arena) (handles : List Handle) : Finset Handle :=
  handles.toFinset.filter fun handle => arena.contains handle = true

/-- Limit and counter suit the width, live handles were issued, and each entry is a text without a
NUL and a terminator. -/
structure WellFormed (arena : Arena) (width : SlotWidth) : Prop where
  limit : arena.maxHandle = width.maxHandle
  next_pos : 0 < arena.next
  issued : ∀ {handle : Handle}, arena.contains handle = true → handle.value < arena.next
  stored : ∀ {handle : Handle} {bytes : Bytes}, arena.find? handle = some bytes →
    ∃ text, nulPosition? text = none ∧ bytes = utf8 text ++ [0]

/-! ## Allocation -/

/-- An allocation succeeds with the counter's value as handle, and stores the text under it. -/
theorem alloc_eq_ok_iff {arena grown : Arena} {text : String} {handle : Handle} :
    arena.alloc text = .ok (handle, grown) ↔
      nulPosition? text = none ∧ arena.next ≤ arena.maxHandle ∧ handle.value = arena.next ∧
        grown = arena.push handle (utf8 text ++ [0]) := by
  rw [alloc]
  cases nul : nulPosition? text with
  | some position => simp
  | none =>
      by_cases full : arena.maxHandle < arena.next
      · simp only [if_pos full, reduceCtorEq, true_and, false_iff]
        omega
      · have room : arena.next ≤ arena.maxHandle := Nat.le_of_not_lt full
        simp only [if_neg full, room, true_and]
        cases first : Handle.ofNat? arena.next with
        | none =>
            -- no handle has the value zero
            simp only [reduceCtorEq, false_iff]
            rintro ⟨value, -⟩
            rw [Handle.ofNat?_eq_some_iff.2 value] at first
            cases first
        | some new =>
            have value := Handle.ofNat?_eq_some_iff.1 first
            simp only [Except.ok.injEq, Prod.mk.injEq]
            constructor
            · rintro ⟨rfl, rfl⟩
              exact ⟨value, rfl⟩
            · rintro ⟨same, rfl⟩
              have eq : new = handle :=
                Option.some.inj (first.symm.trans (Handle.ofNat?_eq_some_iff.2 same))
              exact ⟨eq, by rw [eq]⟩

/-- An allocation fails on a NUL in the text, and then when the counter has passed the limit. -/
theorem alloc_error_cases {arena : Arena} (pos : 0 < arena.next) {text : String}
    {error : SlotError} (refused : arena.alloc text = .error error) :
    (∃ position, nulPosition? text = some position ∧ error = .interiorNul position) ∨
      nulPosition? text = none ∧ arena.maxHandle < arena.next ∧ error = .handleOverflow := by
  cases nul : nulPosition? text with
  | some position =>
      rw [alloc, nul] at refused
      cases refused
      exact Or.inl ⟨position, rfl, rfl⟩
  | none =>
      by_cases room : arena.next ≤ arena.maxHandle
      · -- with a clean text and room for a handle nothing is refused
        have stored : arena.alloc text = .ok (⟨arena.next, pos⟩, arena.push _ _) :=
          alloc_eq_ok_iff.2 ⟨nul, room, rfl, rfl⟩
        rw [stored] at refused
        cases refused
      · have full := Nat.lt_of_not_le room
        rw [alloc, nul] at refused
        simp only [if_pos full] at refused
        cases refused
        exact Or.inr ⟨rfl, full, rfl⟩

theorem contains_eq_false_iff {arena : Arena} {handle : Handle} :
    arena.contains handle = false ↔ arena.find? handle = none := by
  simp [contains]

theorem contains_iff {arena : Arena} {handle : Handle} :
    arena.contains handle = true ↔ ∃ bytes, arena.find? handle = some bytes := by
  rw [contains, Option.isSome_iff_exists]

/-- The text behind an entry. -/
theorem getText?_of_find? {arena : Arena} {handle : Handle} {text : String}
    (found : arena.find? handle = some (utf8 text ++ [0])) :
    arena.getText? handle = some text := by
  rw [getText?, get?, found, Option.map_some, List.dropLast_concat, Option.bind_some, ofUtf8?_utf8]

theorem getText?_of_not_contains {arena : Arena} {handle : Handle}
    (dead : arena.contains handle = false) : arena.getText? handle = none := by
  rw [getText?, get?, contains_eq_false_iff.1 dead]
  rfl

namespace WellFormed

variable {arena : Arena} {width : SlotWidth}

theorem empty (width : SlotWidth) : (Arena.empty width).WellFormed width where
  limit := rfl
  next_pos := Nat.one_pos
  issued {handle} live := by
    simp [contains, find?, Arena.empty, startingAt] at live
  stored {handle bytes} found := by
    simp [find?, Arena.empty, startingAt] at found

/-- The counter's value names nothing yet. -/
theorem find?_fresh (formed : arena.WellFormed width) {handle : Handle}
    (fresh : arena.next ≤ handle.value) : arena.find? handle = none := by
  rw [← contains_eq_false_iff, Bool.eq_false_iff]
  intro live
  exact absurd (formed.issued live) (Nat.not_lt.2 fresh)

theorem alloc (formed : arena.WellFormed width) {text : String} {handle : Handle} {grown : Arena}
    (stored : arena.alloc text = .ok (handle, grown)) : grown.WellFormed width := by
  obtain ⟨clean, -, value, rfl⟩ := alloc_eq_ok_iff.1 stored
  refine ⟨formed.limit, Nat.succ_pos _, ?_, ?_⟩
  · -- the new handle is the old counter, all others are below it
    intro other live
    show other.value < arena.next + 1
    obtain ⟨bytes, found⟩ := contains_iff.1 live
    rw [find?_push] at found
    split at found
    · next same => rw [← same, value]; exact Nat.lt_succ_self _
    · exact Nat.lt_succ_of_lt (formed.issued (contains_iff.2 ⟨bytes, found⟩))
  · intro other bytes found
    rw [find?_push] at found
    split at found
    · exact ⟨text, clean, (Option.some.inj found).symm⟩
    · exact formed.stored found

/-- An allocation in a well-formed arena: a NUL in the text is found before the counter is looked
at. -/
theorem alloc_eq (formed : arena.WellFormed width) (text : String) :
    arena.alloc text =
      match nulPosition? text with
      | some position => .error (.interiorNul position)
      | none =>
          if arena.next ≤ width.maxHandle then
            .ok (⟨arena.next, formed.next_pos⟩,
              arena.push ⟨arena.next, formed.next_pos⟩ (utf8 text ++ [0]))
          else .error .handleOverflow := by
  rw [← formed.limit]
  cases nul : nulPosition? text with
  | some position => rw [Arena.alloc, nul]
  | none =>
      dsimp only
      by_cases room : arena.next ≤ arena.maxHandle
      · rw [if_pos room]
        exact alloc_eq_ok_iff.2 ⟨nul, room, rfl, rfl⟩
      · rw [if_neg room, Arena.alloc, nul]
        exact if_pos (Nat.lt_of_not_le room)

/-- A live handle names a text. -/
theorem getText?_isSome (formed : arena.WellFormed width) {handle : Handle}
    (live : arena.contains handle = true) : ∃ text, arena.getText? handle = some text := by
  obtain ⟨bytes, found⟩ := contains_iff.1 live
  obtain ⟨text, -, rfl⟩ := formed.stored found
  exact ⟨text, getText?_of_find? found⟩

end WellFormed

/-! ## Freeing -/

theorem discard_of_dead {arena : Arena} {handle : Handle}
    (dead : arena.contains handle = false) : arena.discard handle = arena := by
  rw [discard, free?_eq_none_iff.2 dead, Option.getD_none]

theorem free?_of_live {arena : Arena} {handle : Handle} (live : arena.contains handle = true) :
    arena.free? handle = some (arena.discard handle) := by
  cases freed : arena.free? handle with
  | none => rw [free?_eq_none_iff.1 freed] at live; cases live
  | some rest => rw [discard, freed, Option.getD_some]

theorem find?_discard (arena : Arena) (handle other : Handle) :
    (arena.discard handle).find? other =
      if handle = other then none else arena.find? other := by
  cases live : arena.contains handle with
  | true => exact find?_free (free?_of_live live) other
  | false =>
      rw [discard_of_dead live]
      split
      · next same => rw [← same]; exact contains_eq_false_iff.1 live
      · rfl

@[simp] theorem discardAll_nil (arena : Arena) : arena.discardAll [] = arena := rfl

@[simp] theorem discardAll_cons (arena : Arena) (handle : Handle) (rest : List Handle) :
    arena.discardAll (handle :: rest) = (arena.discard handle).discardAll rest := rfl

/-- What freeing a list leaves: every handle of the list is gone, all others are as before. -/
theorem find?_discardAll (arena : Arena) (handles : List Handle) (other : Handle) :
    (arena.discardAll handles).find? other =
      if other ∈ handles then none else arena.find? other := by
  induction handles generalizing arena with
  | nil => simp
  | cons handle rest ih =>
      rw [discardAll_cons, ih, find?_discard]
      by_cases same : handle = other
      · simp [same]
      · simp [same, Ne.symm same]

theorem contains_discardAll (arena : Arena) (handles : List Handle) (other : Handle) :
    (arena.discardAll handles).contains other =
      (arena.contains other && !handles.contains other) := by
  rw [contains, find?_discardAll, contains]
  by_cases mem : other ∈ handles <;> simp [mem]

theorem contains_discardAll_of_mem (arena : Arena) {handles : List Handle} {handle : Handle}
    (mem : handle ∈ handles) : (arena.discardAll handles).contains handle = false := by
  simp [contains_discardAll, mem]

/-- What a property of arenas keeps under each free, it keeps under freeing a list. -/
theorem discardAll_induction {motive : Arena → Prop} (arena : Arena) (handles : List Handle)
    (start : motive arena)
    (free : ∀ arena freed handle, arena.free? handle = some freed → motive arena → motive freed) :
    motive (arena.discardAll handles) := by
  induction handles generalizing arena with
  | nil => exact start
  | cons handle rest ih =>
      apply ih
      cases freed : arena.free? handle with
      | none => rwa [discard, freed]
      | some less => rw [discard, freed]; exact free arena less handle freed start

/-- Freeing touches neither the counter nor the limit nor the number of allocations. -/
theorem counters_discardAll (arena : Arena) (handles : List Handle) :
    (arena.discardAll handles).next = arena.next ∧
      (arena.discardAll handles).maxHandle = arena.maxHandle ∧
      (arena.discardAll handles).totalAllocated = arena.totalAllocated := by
  refine discardAll_induction arena handles
    (motive := fun left => left.next = arena.next ∧ left.maxHandle = arena.maxHandle ∧
      left.totalAllocated = arena.totalAllocated) ⟨rfl, rfl, rfl⟩ ?_
  intro before freed handle free kept
  obtain ⟨bytes, -, rfl⟩ := Option.map_eq_some_iff.1 free
  exact kept

theorem WellFormed.discardAll {arena : Arena} {width : SlotWidth} (formed : arena.WellFormed width)
    (handles : List Handle) : (arena.discardAll handles).WellFormed width := by
  obtain ⟨next, limit, -⟩ := counters_discardAll arena handles
  refine ⟨limit.trans formed.limit, next ▸ formed.next_pos, ?_, ?_⟩
  · intro handle live
    rw [contains_discardAll, Bool.and_eq_true] at live
    rw [next]
    exact formed.issued live.1
  · intro handle bytes found
    rw [find?_discardAll] at found
    split at found
    · cases found
    · exact formed.stored found

/-! ## How much is freed -/

theorem liveAmong_cons_of_live {arena : Arena} {handle : Handle}
    (live : arena.contains handle = true) (rest : List Handle) :
    arena.liveAmong (handle :: rest) = insert handle ((arena.discard handle).liveAmong rest) := by
  ext other
  have after : (arena.discard handle).contains other =
      (arena.contains other && !decide (other = handle)) := by
    simpa using contains_discardAll arena [handle] other
  simp only [liveAmong, Finset.mem_filter, List.mem_toFinset, List.mem_cons, Finset.mem_insert,
    after, Bool.and_eq_true, Bool.not_eq_true', decide_eq_false_iff_not]
  by_cases same : other = handle
  · simp [same, live]
  · simp [same]

theorem liveAmong_cons_of_dead {arena : Arena} {handle : Handle}
    (dead : arena.contains handle = false) (rest : List Handle) :
    arena.liveAmong (handle :: rest) = arena.liveAmong rest := by
  rw [liveAmong, List.toFinset_cons, Finset.filter_insert, if_neg (by simp [dead])]
  rfl

theorem not_mem_liveAmong_discard (arena : Arena) (handle : Handle) (rest : List Handle) :
    handle ∉ (arena.discard handle).liveAmong rest := by
  have gone : (arena.discard handle).contains handle = false := by
    rw [contains_eq_false_iff, find?_discard, if_pos rfl]
  simp [liveAmong, gone]

/-- Freeing a list lowers the number of live strings by that of the distinct live handles in it. -/
theorem live_discardAll (arena : Arena) (handles : List Handle) :
    (arena.discardAll handles).live + (arena.liveAmong handles).card = arena.live := by
  induction handles generalizing arena with
  | nil => rfl
  | cons handle rest ih =>
      have step := ih (arena.discard handle)
      rw [discardAll_cons]
      cases live : arena.contains handle with
      | true =>
          -- freeing it takes one string away, and the handle out of those still to come
          rw [liveAmong_cons_of_live live,
            Finset.card_insert_of_notMem (not_mem_liveAmong_discard arena handle rest)]
          have one := live_free (free?_of_live live)
          omega
      | false =>
          rw [liveAmong_cons_of_dead live]
          rwa [discard_of_dead live] at step ⊢

theorem storedSize_discard {arena : Arena} {handle other : Handle} (differ : other ≠ handle) :
    (arena.discard handle).storedSize other = arena.storedSize other := by
  rw [storedSize, storedSize, allocSize?, allocSize?, find?_discard, if_neg (Ne.symm differ)]

theorem liveBytes_discard {arena : Arena} {handle : Handle} (live : arena.contains handle = true) :
    (arena.discard handle).liveBytes = arena.liveBytes - arena.storedSize handle := by
  obtain ⟨bytes, found, same⟩ := Option.map_eq_some_iff.1 (free?_of_live live)
  rw [← same, storedSize, allocSize?, found]
  rfl

/-- Freeing a list takes the stored sizes of the distinct live handles in it off the tally. -/
theorem liveBytes_discardAll (arena : Arena) (handles : List Handle) :
    (arena.discardAll handles).liveBytes =
      arena.liveBytes - ∑ handle ∈ arena.liveAmong handles, arena.storedSize handle := by
  induction handles generalizing arena with
  | nil => simp [liveAmong]
  | cons handle rest ih =>
      rw [discardAll_cons, ih]
      cases live : arena.contains handle with
      | true =>
          have absent := not_mem_liveAmong_discard arena handle rest
          rw [liveAmong_cons_of_live live, Finset.sum_insert absent, liveBytes_discard live,
            Nat.sub_sub]
          -- the other live handles have the sizes that they had before
          congr 2
          apply Finset.sum_congr rfl
          intro other mem
          apply storedSize_discard
          rintro rfl
          exact absent mem
      | false => rw [liveAmong_cons_of_dead live, discard_of_dead live]

end Arena

end StringSlots
