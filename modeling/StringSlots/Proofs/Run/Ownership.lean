import Mathlib.Data.Finset.Sigma
import Mathlib.Data.Fintype.Basic
import StringSlots.Proofs.Run.Contents

/-!
# Ownership of strings

A handle is put into one slot and never turns up in another, at no time of a run
(`handle_stays`). When released slots are cleared, no slot is ever stale, so no permitted call meets
an unknown handle, and the live strings are those in slots and those whose slot was overwritten:
`Move.account` keeps this account for each call.
-/

namespace StringSlots

universe u

variable {ι : Type u}

theorem Content.released_ne_stale {content : Content} (fresh : content ≠ .stale) :
    content.released true ≠ .stale := by
  intro stale
  cases content with
  | null => cases stale
  | stale => exact fresh rfl
  | text text => cases stale

namespace Setup

variable {setup : Setup ι} {workspace after : Workspace ι} {call : Call ι} {reply : Reply}

/-! ## Stale slots -/

/-- No slot holds a handle whose string is gone. -/
def NoStale (setup : Setup ι) (workspace : Workspace ι) : Prop :=
  ∀ name position, setup.IsSlot name position → workspace.content name position ≠ .stale

/-- When released slots are cleared, no call makes a slot stale. -/
theorem contentsAfter_ne_stale (permits : setup.Permits call)
    (clear : setup.config.clearReleased = true) (room : Bool) {contents : Nat → Content}
    {place : Nat} (fresh : contents place ≠ .stale) :
    setup.contentsAfter room contents call place ≠ .stale := by
  intro stale
  cases kind_of_permits permits with
  | encode text slot =>
      rw [contentsAfter] at stale
      split at stale
      · cases stale
      · exact fresh stale
  | encodeNull slot =>
      rw [contentsAfter] at stale
      split at stale
      · cases stale
      · exact fresh stale
  | decode slot => exact fresh stale
  | @release name call release =>
      rw [release.contentsAfter_eq, clear] at stale
      cases plan : call.plan setup.config (setup.sizes name) with
      | error error =>
          rw [plan] at stale
          exact fresh stale
      | ok positions =>
          -- a visited slot is emptied, another one keeps its content
          rw [plan, releaseContents] at stale
          split at stale
          · exact Content.released_ne_stale fresh stale
          · exact fresh stale

/-- Without stale slots no call meets an unknown handle. -/
theorem answer_ne_unknownHandle (permits : setup.Permits call) (room : Bool)
    {contents : Nat → Content}
    (fresh : ∀ place, setup.IsSlot call.target place → contents place ≠ .stale) (raw : Nat) :
    setup.answer room contents call ≠ .error (.unknownHandle raw) := by
  intro unknown
  cases kind_of_permits permits with
  | encode text slot =>
      -- a text is refused for a NUL in it or because the handles have run out
      rw [answer] at unknown
      split at unknown
      · cases unknown
      · split at unknown <;> cases unknown
  | encodeNull slot => cases unknown
  | @decode name position slot =>
      rw [answer] at unknown
      have content := fresh position slot
      cases held : contents position with
      | stale => exact content held
      | null =>
          rw [held] at unknown
          cases unknown
      | text text =>
          rw [held] at unknown
          cases unknown
  | @release name call release =>
      rw [release.answer_eq] at unknown
      obtain rfl := release.target_eq
      cases plan : call.plan setup.config (setup.sizes call.target) with
      | error error =>
          -- a plan is refused before any handle is read
          rw [plan] at unknown
          cases unknown
          exact release.plan_error plan raw rfl
      | ok positions =>
          rw [plan, releaseAnswer, if_neg] at unknown
          · cases unknown
          · rintro ⟨position, mem, stale⟩
            exact fresh position ((release.plan_slots plan).2 position mem) stale

namespace NoStale

theorem start (setup : Setup ι) : setup.NoStale setup.start := by
  intro name position _ stale
  have null : setup.start.slot name position = none := Buffer.handleAt_filled_zero ..
  rw [Workspace.content_of_null null] at stale
  cases stale

theorem contains (fresh : setup.NoStale workspace) {name : ι} {position : Nat}
    {handle : Handle} (slot : setup.IsSlot name position)
    (held : workspace.slot name position = some handle) :
    workspace.codec.arena.contains handle = true := by
  rw [← Bool.not_eq_false]
  intro dead
  exact fresh _ _ slot (Workspace.content_of_dead held dead)

/-- Without stale slots every handle that a release meets is live. -/
theorem met_live (fresh : setup.NoStale workspace) (owned : setup.Owned workspace) {name : ι}
    (release : setup.Releases name call) :
    ∀ visit ∈ workspace.met call, workspace.codec.arena.contains visit.2 = true := by
  intro visit mem
  obtain ⟨slot, held⟩ := (owned.met release).1 visit mem
  exact fresh.contains slot held

/-- Without stale slots a release answers with the number of handles that it meets. -/
theorem passResult_met (fresh : setup.NoStale workspace) (owned : setup.Owned workspace) {name : ι}
    (release : setup.Releases name call) :
    Codec.passResult workspace.codec.arena (workspace.met call) =
      .ok (workspace.met call).length := by
  rw [Codec.passResult_of_distinct _ (owned.met release).2]
  cases found : (workspace.met call).find? fun visit =>
      !workspace.codec.arena.contains visit.2 with
  | none => rfl
  | some stray =>
      have dead := List.find?_some found
      rw [fresh.met_live owned release stray (List.mem_of_find?_eq_some found)] at dead
      cases dead

/-- All handles that are met are live and distinct, so each visit frees a string. -/
theorem live_discardAll_met (fresh : setup.NoStale workspace) (owned : setup.Owned workspace)
    {name : ι} (release : setup.Releases name call) :
    (workspace.codec.arena.discardAll (handlesOf (workspace.met call))).live +
      (workspace.met call).length = workspace.codec.arena.live := by
  have count := length_freeing workspace.codec.arena (workspace.met call)
  rw [freeing_eq_filter _ (owned.met release).2 fun _ _ => List.not_mem_nil,
    List.filter_eq_self.2 (fresh.met_live owned release)] at count
  rw [count]
  exact Arena.live_discardAll _ _

end NoStale

end Setup

variable [DecidableEq ι]

namespace Workspace

/-- The number of handles that a call with a given reply overwrote, and so left without a slot. -/
def overwritten (workspace : Workspace ι) : Call ι → Reply → Nat
  | .encode name position _, .ok _ => if workspace.slot name position = none then 0 else 1
  | .encodeNull name position, .ok _ => if workspace.slot name position = none then 0 else 1
  | _, _ => 0

/-- The number of handles that a run overwrites. -/
def overwrites (workspace : Workspace ι) : List (Call ι) → Nat
  | [] => 0
  | call :: rest =>
      workspace.overwritten call (workspace.step call).1 +
        (workspace.step call).2.overwrites rest

/-- Every reply of a run is the reply of one step of it. -/
theorem exists_of_mem_replies {workspace : Workspace ι} {calls : List (Call ι)} {reply : Reply}
    (mem : reply ∈ workspace.replies calls) :
    ∃ first call rest, calls = first ++ call :: rest ∧
      reply = ((workspace.run first).step call).1 := by
  induction calls generalizing workspace with
  | nil => cases mem
  | cons call rest ih =>
      rcases List.mem_cons.1 mem with rfl | mem
      · exact ⟨[], call, rest, rfl, rfl⟩
      · obtain ⟨first, other, more, split, reply_eq⟩ := ih mem
        exact ⟨call :: first, other, more, by rw [split]; rfl, reply_eq⟩

end Workspace

namespace Setup

variable {setup : Setup ι} {workspace after : Workspace ι} {call : Call ι} {reply : Reply}

/-! ## Handles stay where they are -/

namespace Owned

/-- A handle that was issued before a run and is in a slot after it was in that slot before. -/
theorem slot_of_issued_run (owned : setup.Owned workspace) (calls : List (Call ι))
    (permits : ∀ call ∈ calls, setup.Permits call) {name : ι} {position : Nat} {handle : Handle}
    (slot : setup.IsSlot name position)
    (held : (workspace.run calls).slot name position = some handle)
    (issued : handle.value < workspace.codec.arena.next) :
    workspace.slot name position = some handle := by
  induction calls generalizing workspace with
  | nil => exact held
  | cons call rest ih =>
      obtain ⟨permitted, rest_permitted⟩ := List.forall_mem_cons.1 permits
      have later := Nat.lt_of_lt_of_le issued (workspace.step_effect call).next_le
      have now := ih (owned.step permitted) rest_permitted held later
      rcases (owned.move permitted).held_cases slot now with old | ⟨-, value, -⟩
      · exact old
      · omega

/-- A handle that is in a slot now is in no other slot later. -/
theorem handle_stays (owned : setup.Owned workspace) (calls : List (Call ι))
    (permits : ∀ call ∈ calls, setup.Permits call) {name other : ι} {position place : Nat}
    {handle : Handle} (slot : setup.IsSlot name position) (other_slot : setup.IsSlot other place)
    (held : workspace.slot name position = some handle)
    (other_held : (workspace.run calls).slot other place = some handle) :
    name = other ∧ position = place := by
  have issued := owned.issued slot held
  have now := owned.slot_of_issued_run calls permits other_slot other_held issued
  exact owned.distinct slot other_slot held now

end Owned

/-! ## Runs without stale slots -/

namespace NoStale

/-- Clearing released slots keeps stale slots away. -/
theorem step (fresh : setup.NoStale workspace) (clear : setup.config.clearReleased = true)
    (owned : setup.Owned workspace) (permits : setup.Permits call) :
    setup.NoStale (workspace.step call).2 := by
  intro name position slot
  rw [owned.step_content permits slot]
  split
  · next here =>
    rw [here] at slot
    exact contentsAfter_ne_stale permits clear _ (fresh _ _ slot)
  · exact fresh _ _ slot

theorem step_reply (fresh : setup.NoStale workspace) (owned : setup.Owned workspace)
    (permits : setup.Permits call) (raw : Nat) :
    (workspace.step call).1 ≠ .error (.unknownHandle raw) := by
  intro unknown
  have answered := owned.step_reply permits
  rw [unknown] at answered
  exact answer_ne_unknownHandle permits _ (fun place slot => fresh _ place slot) 0 answered.symm

theorem run (clear : setup.config.clearReleased = true) (calls : List (Call ι))
    (permits : ∀ call ∈ calls, setup.Permits call) :
    setup.NoStale (setup.start.run calls) := by
  have both : setup.Owned (setup.start.run calls) ∧ setup.NoStale (setup.start.run calls) := by
    refine Workspace.run_induction
      (motive := fun now => setup.Owned now ∧ setup.NoStale now) calls
      ⟨Owned.start, NoStale.start setup⟩ ?_
    rintro now ⟨owned, fresh⟩ call mem
    exact ⟨owned.step (permits call mem), fresh.step clear owned (permits call mem)⟩
  exact both.2

end NoStale

/-! ## The account of live strings -/

/-- The slots that a release meets. -/
def metSlots (workspace : Workspace ι) (name : ι) (call : Call ι) : Finset (Σ _ : ι, Nat) :=
  ((workspace.met call).map fun visit => (⟨name, visit.1⟩ : Σ _ : ι, Nat)).toFinset

theorem mem_metSlots_iff {name : ι} {slot : Σ _ : ι, Nat} :
    slot ∈ metSlots workspace name call ↔
      ∃ visit ∈ workspace.met call, ⟨name, visit.1⟩ = slot := by
  rw [metSlots, List.mem_toFinset, List.mem_map]

theorem Owned.card_metSlots (owned : setup.Owned workspace) {name : ι}
    (release : setup.Releases name call) :
    (metSlots workspace name call).card = (workspace.met call).length := by
  obtain ⟨visited, distinct⟩ := owned.met release
  rw [metSlots, List.toFinset_card_of_nodup, List.length_map]
  -- a slot that was met twice would hold two handles
  refine distinct.of_map.map_on ?_
  rintro ⟨position, handle⟩ first_mem second second_mem same
  cases same
  have held := (visited _ second_mem).2
  rw [owned.handle_of_met release held first_mem]

variable [Fintype ι]

/-- The slots of all buffers. -/
def slots (setup : Setup ι) : Finset (Σ _ : ι, Nat) :=
  Finset.univ.sigma fun name => ((setup.schemas name).positionsBelow (setup.sizes name)).toFinset

/-- The slots that hold a handle. -/
def filled (setup : Setup ι) (workspace : Workspace ι) : Finset (Σ _ : ι, Nat) :=
  setup.slots.filter fun slot => workspace.slot slot.1 slot.2 ≠ none

omit [DecidableEq ι] in
theorem mem_filled_iff {name : ι} {position : Nat} :
    ⟨name, position⟩ ∈ setup.filled workspace ↔
      setup.IsSlot name position ∧ workspace.slot name position ≠ none := by
  rw [filled, Finset.mem_filter, slots, Finset.mem_sigma, List.mem_toFinset,
    SlotSchema.mem_positionsBelow_iff]
  simp only [Finset.mem_univ, true_and]
  rfl

theorem filled_of_stored {name : ι} {position : Nat} {handle : Handle}
    (own_slot : setup.IsSlot name position)
    (slots : ∀ {other place}, setup.IsSlot other place → after.slot other place =
      if other = name ∧ place = position then some handle else workspace.slot other place) :
    setup.filled after = insert ⟨name, position⟩ (setup.filled workspace) := by
  ext ⟨other, place⟩
  have same : (⟨other, place⟩ : Σ _ : ι, Nat) = ⟨name, position⟩ ↔
      other = name ∧ place = position := by simp
  rw [Finset.mem_insert, mem_filled_iff, mem_filled_iff, same]
  by_cases here : other = name ∧ place = position
  · -- the slot that was written holds a handle, whether it did before or not
    obtain ⟨rfl, rfl⟩ := here
    simp [own_slot, slots own_slot]
  · constructor
    · rintro ⟨slot, held⟩
      rw [slots slot, if_neg here] at held
      exact Or.inr ⟨slot, held⟩
    · rintro (there | ⟨slot, held⟩)
      · exact absurd there here
      · rw [slots slot, if_neg here]
        exact ⟨slot, held⟩

theorem filled_of_emptied {emptied : Finset (Σ _ : ι, Nat)}
    (slots : ∀ {other place}, setup.IsSlot other place → after.slot other place =
      if ⟨other, place⟩ ∈ emptied then none else workspace.slot other place) :
    setup.filled after = setup.filled workspace \ emptied := by
  ext ⟨other, place⟩
  rw [Finset.mem_sdiff, mem_filled_iff, mem_filled_iff]
  by_cases mem : (⟨other, place⟩ : Σ _ : ι, Nat) ∈ emptied
  · simp only [mem, not_true_eq_false, and_false, iff_false]
    rintro ⟨slot, held⟩
    rw [slots slot, if_pos mem] at held
    exact held rfl
  · simp only [mem, not_false_eq_true, and_true]
    constructor
    · rintro ⟨slot, held⟩
      rw [slots slot, if_neg mem] at held
      exact ⟨slot, held⟩
    · rintro ⟨slot, held⟩
      rw [slots slot, if_neg mem]
      exact ⟨slot, held⟩

theorem Owned.metSlots_subset (owned : setup.Owned workspace) {name : ι}
    (release : setup.Releases name call) :
    metSlots workspace name call ⊆ setup.filled workspace := by
  intro slot mem
  obtain ⟨visit, met, rfl⟩ := mem_metSlots_iff.1 mem
  obtain ⟨own_slot, held⟩ := (owned.met release).1 visit met
  rw [mem_filled_iff, held]
  exact ⟨own_slot, Option.some_ne_none _⟩

/-- A release of live strings empties as many slots as it frees strings. -/
theorem Freed.account {name : ι} (freed : setup.Freed workspace name call after)
    (owned : setup.Owned workspace) (fresh : setup.NoStale workspace)
    (clear : setup.config.clearReleased = true) :
    after.codec.arena.live + (setup.filled workspace).card =
      workspace.codec.arena.live + (setup.filled after).card := by
  have strings := fresh.live_discardAll_met owned freed.release
  rw [← freed.arena_eq] at strings
  -- each visit frees a string and empties its slot
  have emptied : setup.filled after = setup.filled workspace \ metSlots workspace name call := by
    apply filled_of_emptied
    intro other place slot
    have cleared_iff : ⟨other, place⟩ ∈ metSlots workspace name call ↔
        other = name ∧ place ∈ workspace.clears call := by
      rw [mem_metSlots_iff, owned.mem_clears_iff freed.release]
      constructor
      · rintro ⟨visit, mem, same⟩
        cases same
        exact ⟨rfl, clear, visit.2, mem, fresh.met_live owned freed.release visit mem⟩
      · rintro ⟨rfl, -, handle, mem, -⟩
        exact ⟨(place, handle), mem, rfl⟩
    simp only [freed.slot_eq slot, cleared_iff]
  have slots := Finset.card_sdiff_add_card_eq_card (owned.metSlots_subset freed.release)
  rw [owned.card_metSlots freed.release] at slots
  rw [emptied]
  omega

/-- The account of one call. -/
theorem Move.account (owned : setup.Owned workspace)
    (move : setup.Move workspace call reply after) (fresh : setup.NoStale workspace)
    (clear : setup.config.clearReleased = true) :
    after.codec.arena.live + (setup.filled workspace).card =
      workspace.codec.arena.live + (setup.filled after).card +
        workspace.overwritten call reply := by
  cases move with
  | refused alloc => rfl
  | @stored name position text handle after own_slot alloc slots =>
      obtain ⟨-, -, value, grown⟩ := Arena.alloc_eq_ok_iff.1 alloc
      have one_more : after.codec.arena.live = workspace.codec.arena.live + 1 := by
        rw [grown]
        exact Arena.live_push (owned.formed.find?_fresh (Nat.le_of_eq value.symm)) _
      rw [filled_of_stored own_slot slots, one_more, Workspace.overwritten]
      -- a null slot is filled, a filled one loses the handle that it held
      by_cases null : workspace.slot name position = none
      · have empty : (⟨name, position⟩ : Σ _ : ι, Nat) ∉ setup.filled workspace :=
          fun mem => (mem_filled_iff.1 mem).2 null
        rw [if_pos null, Finset.card_insert_of_notMem empty]
        omega
      · have full := mem_filled_iff.2 ⟨own_slot, null⟩
        rw [if_neg null, Finset.insert_eq_of_mem full]
        omega
  | @nulled name position after own_slot arena slots =>
      have emptied : setup.filled after = setup.filled workspace \ {⟨name, position⟩} := by
        refine filled_of_emptied fun {other place} slot => ?_
        rw [slots slot]
        simp
      rw [emptied, Finset.sdiff_singleton_eq_erase, arena, Workspace.overwritten]
      by_cases null : workspace.slot name position = none
      · have empty : (⟨name, position⟩ : Σ _ : ι, Nat) ∉ setup.filled workspace :=
          fun mem => (mem_filled_iff.1 mem).2 null
        rw [if_pos null, Finset.erase_eq_of_notMem empty]
        rfl
      · have full := mem_filled_iff.2 ⟨own_slot, null⟩
        have erased := Finset.card_erase_add_one full
        rw [if_neg null]
        omega
  | read own_slot => rfl
  | released freed =>
      rw [freed.account owned fresh clear]
      rcases freed.release with rfl | rfl <;> rfl

/-- The account of a run. -/
theorem Owned.account_run (owned : setup.Owned workspace) (fresh : setup.NoStale workspace)
    (clear : setup.config.clearReleased = true) (calls : List (Call ι))
    (permits : ∀ call ∈ calls, setup.Permits call) :
    (workspace.run calls).codec.arena.live + (setup.filled workspace).card =
      workspace.codec.arena.live + (setup.filled (workspace.run calls)).card +
        workspace.overwrites calls := by
  induction calls generalizing workspace with
  | nil => rfl
  | cons call rest ih =>
      obtain ⟨permitted, rest_permitted⟩ := List.forall_mem_cons.1 permits
      have one := (owned.move permitted).account owned fresh clear
      have more := ih (owned.step permitted) (fresh.step clear owned permitted) rest_permitted
      rw [Workspace.run_cons, Workspace.overwrites]
      omega

omit [DecidableEq ι] in
theorem filled_start (setup : Setup ι) : setup.filled setup.start = ∅ := by
  refine Finset.filter_eq_empty_iff.2 fun slot _ held => held ?_
  exact Buffer.handleAt_filled_zero ..

/-- Along every run of permitted calls, a handle that is in a slot at some time is in no other slot
at that time or later. When released slots are cleared, every handle in a slot is live, no reply is
about an unknown handle, and each live string is in a slot or was overwritten there. -/
theorem slots_own_strings (setup : Setup ι) (calls : List (Call ι))
    (permits : ∀ call ∈ calls, setup.Permits call) :
    (∀ earlier, earlier <+: calls → ∀ name position other place handle,
      setup.IsSlot name position → setup.IsSlot other place →
      (setup.start.run earlier).slot name position = some handle →
      (setup.start.run calls).slot other place = some handle →
        name = other ∧ position = place) ∧
    (setup.config.clearReleased = true →
      (∀ name position handle, setup.IsSlot name position →
        (setup.start.run calls).slot name position = some handle →
          (setup.start.run calls).codec.arena.contains handle = true) ∧
      (∀ reply ∈ setup.start.replies calls, ∀ raw, reply ≠ .error (.unknownHandle raw)) ∧
      (setup.start.run calls).codec.arena.live =
        (setup.filled (setup.start.run calls)).card + setup.start.overwrites calls) := by
  constructor
  · rintro earlier ⟨later, rfl⟩ name position other place handle slot other_slot held other_held
    -- the run is cut at the earlier time
    obtain ⟨first_permits, more_permits⟩ := List.forall_mem_append.1 permits
    rw [Workspace.run_append] at other_held
    exact (Owned.run earlier first_permits).handle_stays later more_permits slot other_slot held
      other_held
  · intro clear
    refine ⟨?_, ?_, ?_⟩
    · intro name position handle slot held
      exact (NoStale.run clear calls permits).contains slot held
    · intro reply mem raw
      -- no slot is stale in the workspace that the call was made in
      obtain ⟨first, call, rest, rfl, rfl⟩ := Workspace.exists_of_mem_replies mem
      obtain ⟨first_permits, more_permits⟩ := List.forall_mem_append.1 permits
      have permitted := more_permits call List.mem_cons_self
      exact (NoStale.run clear first first_permits).step_reply (Owned.run first first_permits)
        permitted raw
    · have account := Owned.start.account_run (NoStale.start setup) clear calls permits
      have none_live : setup.start.codec.arena.live = 0 := rfl
      rw [filled_start, Finset.card_empty, none_live] at account
      omega

/-- Calls that store, overwrite, release and store again. -/
def storedAndReleased : List (Call Bool) :=
  [.encode true 4 "a", .encode false 0 "b", .encode true 4 "c", .releaseAll true (.single .w32),
    .encode true 0 "d", .encodeNull true 0, .releaseRecord false (.single .w32), .decode false 0]

theorem slots_own_strings_storedAndReleased :
    ((pair .process true).start.run storedAndReleased).codec.arena.live =
      ((pair .process true).filled ((pair .process true).start.run storedAndReleased)).card +
        (pair .process true).start.overwrites storedAndReleased :=
  ((slots_own_strings (pair .process true) storedAndReleased (by decide +kernel)).2 rfl).2.2

end Setup

end StringSlots
