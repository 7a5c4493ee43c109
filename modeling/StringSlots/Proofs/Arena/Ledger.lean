import Mathlib.Algebra.BigOperators.Group.List.Basic
import Mathlib.Algebra.GroupWithZero.Nat
import StringSlots.Proofs.Arena.Lifetime

/-!
# Ledgers of arenas

A `Ledger` is an arena beside what happened in it: the texts that it took in, each with its handle,
and the handles that it freed. `serveAll` answers any list of requests, also frees of handles that
were never issued or are gone.

`Ledger.Balanced` is what every request keeps (`Balanced.serve`): handles are issued in the order
1, 2, 3, each is freed at most once, and the arena holds the texts that were taken in and not freed.
`Ledger.Accounts` says what follows for the tallies and the readers of the arena, and
`Balanced.accounts` that it does.
-/

namespace StringSlots

/-- A request to an arena. -/
inductive ArenaRequest where
  | alloc (text : String)
  | free (handle : Handle)

/-- An arena, the texts that it took in with their handles, and the handles that it freed, both
oldest first. -/
structure Ledger where
  arena : Arena
  taken : List (Handle × String)
  freed : List Handle

namespace Ledger

/-- The ledger of an arena without strings. -/
def opened (width : SlotWidth) : Ledger :=
  { arena := Arena.empty width, taken := [], freed := [] }

/-- The ledger after a request. A request that the arena refuses leaves no trace. -/
def serve (ledger : Ledger) : ArenaRequest → Ledger
  | .alloc text =>
      match ledger.arena.alloc text with
      | .ok (handle, arena) => { ledger with arena, taken := ledger.taken ++ [(handle, text)] }
      | .error _ => ledger
  | .free handle =>
      match ledger.arena.free? handle with
      | some arena => { ledger with arena, freed := ledger.freed ++ [handle] }
      | none => ledger

/-- The ledger after a list of requests. -/
def serveAll (ledger : Ledger) (requests : List ArenaRequest) : Ledger :=
  requests.foldl serve ledger

/-- The texts taken in whose handles have not been freed. -/
def kept (ledger : Ledger) : List (Handle × String) :=
  ledger.taken.filter fun entry => entry.1 ∉ ledger.freed

/-- The stored size of a text: its UTF-8 bytes and a terminator. -/
def sizeOfText (text : String) : Nat :=
  (utf8 text).length + 1

/-- The invariant of requests. -/
structure Balanced (ledger : Ledger) : Prop where
  next : ledger.arena.next = ledger.taken.length + 1
  handles : (ledger.taken.map fun entry => entry.1.value) = List.range' 1 ledger.taken.length
  clean : ∀ entry ∈ ledger.taken, Arena.nulPosition? entry.2 = none
  freed_nodup : ledger.freed.Nodup
  freed_taken : ∀ handle ∈ ledger.freed, ∃ text, (handle, text) ∈ ledger.taken
  find?_iff : ∀ handle bytes, ledger.arena.find? handle = some bytes ↔
    ∃ text, (handle, text) ∈ ledger.kept ∧ bytes = utf8 text ++ [0]
  live : ledger.arena.live + ledger.freed.length = ledger.taken.length
  liveBytes : ledger.arena.liveBytes = (ledger.kept.map fun entry => sizeOfText entry.2).sum
  total : ledger.arena.totalAllocated = ledger.taken.length

/-- What the tallies and the readers of an arena say, in terms of its ledger. -/
structure Accounts (ledger : Ledger) : Prop where
  /-- No handle is issued twice, so a handle stands for one text. -/
  issued_once : (ledger.taken.map Prod.fst).Nodup
  /-- Only issued handles are freed, each at most once. -/
  freed_once : ledger.freed.Nodup ∧ ∀ handle ∈ ledger.freed, handle ∈ ledger.taken.map Prod.fst
  /-- The entries are the texts taken in and not freed: the UTF-8 bytes of each and a NUL. -/
  entries : ledger.arena.entries.toList.Perm
    (ledger.kept.map fun entry => (entry.1, utf8 entry.2 ++ [0]))
  /-- The terminator is the first NUL of an entry. -/
  clean : ∀ entry ∈ ledger.taken, 0 ∉ utf8 entry.2
  liveBytes : ledger.arena.liveBytes =
    (ledger.kept.map fun entry => (utf8 entry.2).length + 1).sum
  /-- Freeing a live handle takes no more off the tally of bytes than is on it. -/
  no_underflow : ∀ handle bytes, ledger.arena.find? handle = some bytes →
    bytes.length ≤ ledger.arena.liveBytes
  /-- The allocations ever made are the live strings and the frees that succeeded. -/
  total : ledger.arena.totalAllocated = ledger.arena.live + ledger.freed.length
  /-- All readers find nothing under a handle, or all find the text that was taken in under it. -/
  readers : ∀ handle,
    (ledger.arena.contains handle = false ∧ ledger.arena.get? handle = none ∧
        ledger.arena.getText? handle = none ∧ ledger.arena.allocSize? handle = none) ∨
      ∃ text, (handle, text) ∈ ledger.taken ∧ ledger.arena.contains handle = true ∧
        ledger.arena.get? handle = some (utf8 text) ∧
        ledger.arena.getText? handle = some text ∧
        ledger.arena.allocSize? handle = some ((utf8 text).length + 1)

@[simp] theorem serveAll_nil (ledger : Ledger) : ledger.serveAll [] = ledger := rfl

@[simp] theorem serveAll_cons (ledger : Ledger) (request : ArenaRequest)
    (rest : List ArenaRequest) :
    ledger.serveAll (request :: rest) = (ledger.serve request).serveAll rest := rfl

theorem serveAll_append (ledger : Ledger) (first rest : List ArenaRequest) :
    ledger.serveAll (first ++ rest) = (ledger.serveAll first).serveAll rest :=
  List.foldl_append

theorem serve_alloc_of_ok {ledger : Ledger} {text : String} {handle : Handle} {arena : Arena}
    (stored : ledger.arena.alloc text = .ok (handle, arena)) :
    ledger.serve (.alloc text) =
      { ledger with arena, taken := ledger.taken ++ [(handle, text)] } := by
  simp only [serve, stored]

theorem serve_alloc_of_error {ledger : Ledger} {text : String} {error : SlotError}
    (refused : ledger.arena.alloc text = .error error) : ledger.serve (.alloc text) = ledger := by
  simp only [serve, refused]

theorem serve_free_of_some {ledger : Ledger} {handle : Handle} {arena : Arena}
    (freed : ledger.arena.free? handle = some arena) :
    ledger.serve (.free handle) = { ledger with arena, freed := ledger.freed ++ [handle] } := by
  simp only [serve, freed]

theorem serve_free_of_none {ledger : Ledger} {handle : Handle}
    (gone : ledger.arena.free? handle = none) : ledger.serve (.free handle) = ledger := by
  simp only [serve, gone]

namespace Balanced

theorem opened (width : SlotWidth) : (Ledger.opened width).Balanced where
  next := rfl
  handles := rfl
  clean entry mem := absurd mem List.not_mem_nil
  freed_nodup := List.nodup_nil
  freed_taken handle mem := absurd mem List.not_mem_nil
  find?_iff handle bytes := by
    simp [Ledger.opened, kept, Arena.find?, Arena.empty, Arena.startingAt]
  live := rfl
  liveBytes := rfl
  total := rfl

variable {ledger : Ledger}

/-! ## Handles taken in -/

theorem value_le (balanced : ledger.Balanced) {entry : Handle × String}
    (mem : entry ∈ ledger.taken) : entry.1.value ≤ ledger.taken.length := by
  have listed : entry.1.value ∈ ledger.taken.map fun entry => entry.1.value :=
    List.mem_map_of_mem mem
  rw [balanced.handles, List.mem_range'_1] at listed
  omega

theorem nodup_values (balanced : ledger.Balanced) :
    (ledger.taken.map fun entry => entry.1.value).Nodup := by
  rw [balanced.handles]
  exact List.nodup_range'

theorem nodup_handles (balanced : ledger.Balanced) : (ledger.taken.map Prod.fst).Nodup := by
  have values := balanced.nodup_values
  rw [show (fun entry : Handle × String => entry.1.value) = Handle.value ∘ Prod.fst from rfl,
    ← List.map_map] at values
  exact values.of_map

theorem text_unique (balanced : ledger.Balanced) {handle : Handle} {text other : String}
    (mem : (handle, text) ∈ ledger.taken) (other_mem : (handle, other) ∈ ledger.taken) :
    text = other := by
  have same := List.inj_on_of_nodup_map balanced.nodup_handles mem other_mem rfl
  exact congrArg Prod.snd same

/-! ## One request -/

theorem serve_alloc (balanced : ledger.Balanced) (text : String) :
    (ledger.serve (.alloc text)).Balanced := by
  cases stored : ledger.arena.alloc text with
  | error error => rwa [serve_alloc_of_error stored]
  | ok new =>
      obtain ⟨handle, arena⟩ := new
      obtain ⟨clean, -, value, rfl⟩ := Arena.alloc_eq_ok_iff.1 stored
      rw [serve_alloc_of_ok stored]
      -- the handle is above all that were issued, so it was neither freed nor is it an entry
      have above : ∀ entry ∈ ledger.taken, entry.1 ≠ handle := by
        rintro entry mem rfl
        have below := balanced.value_le mem
        rw [value, balanced.next] at below
        omega
      have unfreed : handle ∉ ledger.freed := by
        intro mem
        obtain ⟨old, taken⟩ := balanced.freed_taken handle mem
        exact above _ taken rfl
      have fresh : ledger.arena.find? handle = none := by
        rw [Option.eq_none_iff_forall_ne_some]
        intro bytes found
        obtain ⟨old, mem, -⟩ := (balanced.find?_iff handle bytes).1 found
        exact above _ (List.mem_of_mem_filter mem) rfl
      have kept_eq : (ledger.taken ++ [(handle, text)]).filter (fun entry =>
          entry.1 ∉ ledger.freed) = ledger.kept ++ [(handle, text)] := by
        rw [List.filter_append, kept]
        simp [unfreed]
      refine
        { next := ?_, handles := ?_, clean := ?_, freed_nodup := balanced.freed_nodup
          freed_taken := ?_, find?_iff := ?_, live := ?_, liveBytes := ?_, total := ?_ }
      · show ledger.arena.next + 1 = _
        rw [balanced.next, List.length_append, List.length_singleton]
      · rw [List.map_append, balanced.handles, List.length_append, List.length_singleton,
          List.range'_1_concat, List.map_singleton, value, balanced.next, Nat.add_comm 1]
      · intro entry mem
        rcases List.mem_append.1 mem with old | new
        · exact balanced.clean entry old
        · rw [List.mem_singleton.1 new]
          exact clean
      · intro other mem
        obtain ⟨old, taken⟩ := balanced.freed_taken other mem
        exact ⟨old, List.mem_append_left _ taken⟩
      · intro other bytes
        rw [Arena.find?_push, kept, kept_eq]
        by_cases same : handle = other
        · subst same
          rw [if_pos rfl]
          constructor
          · intro found
            exact ⟨text, by simp, (Option.some.inj found).symm⟩
          · rintro ⟨found, mem, rfl⟩
            rcases List.mem_append.1 mem with old | new
            · exact absurd rfl (above _ (List.mem_of_mem_filter old))
            · rw [(Prod.mk.inj (List.mem_singleton.1 new)).2]
        · rw [if_neg same, balanced.find?_iff]
          simp [Ne.symm same]
      · show (ledger.arena.push handle (utf8 text ++ [0])).live + ledger.freed.length = _
        rw [Arena.live_push fresh, List.length_append, List.length_singleton, ← balanced.live]
        omega
      · show ledger.arena.liveBytes + (utf8 text ++ [0]).length = _
        rw [kept, kept_eq, List.map_append, List.sum_append, balanced.liveBytes]
        simp [sizeOfText]
      · show ledger.arena.totalAllocated + 1 = _
        rw [balanced.total, List.length_append, List.length_singleton]

theorem nodup_kept (balanced : ledger.Balanced) : (ledger.kept.map Prod.fst).Nodup :=
  balanced.nodup_handles.sublist (List.filter_sublist.map Prod.fst)

/-- Freeing a handle takes its text, and no other, out of those that are kept. -/
theorem kept_perm_free (balanced : ledger.Balanced) {handle : Handle} {text : String}
    (mem : (handle, text) ∈ ledger.kept) :
    ledger.kept.Perm ((handle, text) ::
      ledger.taken.filter fun entry => entry.1 ∉ ledger.freed ++ [handle]) := by
  obtain ⟨taken, unfreed⟩ := List.mem_filter.1 mem
  have rest_nodup : ((handle, text) ::
      ledger.taken.filter fun entry => entry.1 ∉ ledger.freed ++ [handle]).Nodup := by
    refine List.nodup_cons.2 ⟨?_, balanced.nodup_handles.of_map.filter _⟩
    simp
  refine (List.perm_ext_iff_of_nodup balanced.nodup_kept.of_map rest_nodup).2 ?_
  rintro ⟨other, old⟩
  simp only [kept, List.mem_cons, List.mem_filter, List.mem_append, not_or, Prod.mk.injEq,
    decide_eq_true_eq] at unfreed ⊢
  by_cases same : other = handle
  · -- the handle has one text, so this is the entry that goes
    subst same
    constructor
    · rintro ⟨old_taken, -⟩
      exact Or.inl ⟨rfl, balanced.text_unique old_taken taken⟩
    · rintro (⟨-, rfl⟩ | ⟨-, -, differ, -⟩)
      · exact ⟨taken, unfreed⟩
      · exact absurd rfl differ
  · simp [same]

theorem serve_free (balanced : ledger.Balanced) (handle : Handle) :
    (ledger.serve (.free handle)).Balanced := by
  cases freed : ledger.arena.free? handle with
  | none => rwa [serve_free_of_none freed]
  | some arena =>
      rw [serve_free_of_some freed]
      obtain ⟨bytes, found, arena_eq⟩ := Option.map_eq_some_iff.1 freed
      obtain ⟨text, mem, rfl⟩ := (balanced.find?_iff handle bytes).1 found
      have kept_perm := balanced.kept_perm_free mem
      have unfreed : handle ∉ ledger.freed := by
        simpa using (List.mem_filter.1 mem).2
      have one_less := Arena.live_free freed
      refine
        { next := ?_, handles := balanced.handles, clean := balanced.clean, freed_nodup := ?_
          freed_taken := ?_, find?_iff := ?_, live := ?_, liveBytes := ?_, total := ?_ }
      · rw [← arena_eq]
        exact balanced.next
      · rw [← List.concat_eq_append]
        exact balanced.freed_nodup.concat unfreed
      · intro other other_mem
        rcases List.mem_append.1 other_mem with old | new
        · exact balanced.freed_taken other old
        · rw [List.mem_singleton.1 new]
          exact ⟨text, List.mem_of_mem_filter mem⟩
      · intro other other_bytes
        rw [Arena.find?_free freed]
        simp only [kept, List.mem_filter, List.mem_append, List.mem_singleton, not_or,
          decide_eq_true_eq, Bool.decide_and, Bool.and_eq_true]
        by_cases same : handle = other
        · simp [same]
        · rw [if_neg same, balanced.find?_iff]
          simp [kept, Ne.symm same]
      · rw [List.length_append, List.length_singleton, ← balanced.live]
        show arena.live + _ = _
        omega
      · -- the size that the tally loses is that of the entry that goes
        have sum := (kept_perm.map fun entry => sizeOfText entry.2).sum_eq
        rw [← balanced.liveBytes, List.map_cons, List.sum_cons] at sum
        rw [← arena_eq]
        show ledger.arena.liveBytes - (utf8 text ++ [0]).length = _
        rw [sum, List.length_append, List.length_singleton, sizeOfText, Nat.add_sub_cancel_left]
        rfl
      · rw [← arena_eq]
        exact balanced.total

/-- Every request keeps the ledger balanced. -/
theorem serve (balanced : ledger.Balanced) (request : ArenaRequest) :
    (ledger.serve request).Balanced := by
  cases request with
  | alloc text => exact balanced.serve_alloc text
  | free handle => exact balanced.serve_free handle

theorem serveAll (balanced : ledger.Balanced) (requests : List ArenaRequest) :
    (ledger.serveAll requests).Balanced := by
  induction requests generalizing ledger with
  | nil => exact balanced
  | cons request rest ih => exact ih (balanced.serve request)

/-! ## Consequences -/

theorem entries_perm (balanced : ledger.Balanced) :
    ledger.arena.entries.toList.Perm
      (ledger.kept.map fun entry => (entry.1, utf8 entry.2 ++ [0])) := by
  have entries_nodup : ledger.arena.entries.toList.Nodup := by
    refine Std.TreeMap.distinct_keys_toList.imp ?_
    rintro a b differ rfl
    exact differ (Handle.compare_eq_iff.2 rfl)
  have kept_nodup :
      (ledger.kept.map fun entry => (entry.1, utf8 entry.2 ++ [0])).Nodup := by
    apply List.Nodup.of_map Prod.fst
    rw [List.map_map]
    exact balanced.nodup_kept
  refine (List.perm_ext_iff_of_nodup entries_nodup kept_nodup).2 ?_
  rintro ⟨handle, bytes⟩
  rw [Std.TreeMap.mem_toList_iff_getElem?_eq_some, List.mem_map]
  refine (balanced.find?_iff handle bytes).trans ?_
  constructor
  · rintro ⟨text, mem, rfl⟩
    exact ⟨_, mem, rfl⟩
  · rintro ⟨entry, mem, same⟩
    cases same
    exact ⟨entry.2, mem, rfl⟩

theorem readers (balanced : ledger.Balanced) (handle : Handle) :
    (ledger.arena.contains handle = false ∧ ledger.arena.get? handle = none ∧
        ledger.arena.getText? handle = none ∧ ledger.arena.allocSize? handle = none) ∨
      ∃ text, (handle, text) ∈ ledger.taken ∧ ledger.arena.contains handle = true ∧
        ledger.arena.get? handle = some (utf8 text) ∧
        ledger.arena.getText? handle = some text ∧
        ledger.arena.allocSize? handle = some ((utf8 text).length + 1) := by
  cases found : ledger.arena.find? handle with
  | none =>
      have dead := Arena.contains_eq_false_iff.2 found
      exact Or.inl ⟨dead, by rw [Arena.get?, found]; rfl, Arena.getText?_of_not_contains dead,
        by rw [Arena.allocSize?, found]; rfl⟩
  | some bytes =>
      obtain ⟨text, mem, rfl⟩ := (balanced.find?_iff handle bytes).1 found
      refine Or.inr ⟨text, List.mem_of_mem_filter mem, Arena.contains_iff.2 ⟨_, found⟩, ?_,
        Arena.getText?_of_find? found, ?_⟩
      · rw [Arena.get?, found, Option.map_some, List.dropLast_concat]
      · rw [Arena.allocSize?, found, Option.map_some, List.length_append, List.length_singleton]

/-- A balanced ledger accounts for its arena. -/
theorem accounts (balanced : ledger.Balanced) : ledger.Accounts where
  issued_once := balanced.nodup_handles
  freed_once := by
    refine ⟨balanced.freed_nodup, ?_⟩
    intro handle mem
    obtain ⟨text, taken⟩ := balanced.freed_taken handle mem
    exact List.mem_map_of_mem taken
  entries := balanced.entries_perm
  clean entry mem nul := by
    have absent := List.findIdx?_eq_none_iff.1 (balanced.clean entry mem) 0 nul
    cases absent
  liveBytes := balanced.liveBytes
  no_underflow handle bytes found := by
    obtain ⟨text, mem, rfl⟩ := (balanced.find?_iff handle bytes).1 found
    rw [balanced.liveBytes, List.length_append, List.length_singleton]
    exact List.le_sum_of_mem (List.mem_map_of_mem (f := fun entry => sizeOfText entry.2) mem)
  total := by rw [balanced.total, balanced.live]
  readers := balanced.readers

end Balanced

end Ledger

end StringSlots
