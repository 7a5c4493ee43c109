import StringSlots.Proofs.Run.Slots

/-!
# Contents of slots

What a client sees of a slot is not its handle but its `Content`: nothing, a text, or a stale handle
whose string is gone. `Move.reply_eq` and `Move.content_eq` say that the reply to a permitted call,
with the handle numbers erased, and the contents after it are functions of the contents of the one
buffer that the call is about and of `Workspace.hasRoom`. So the other buffers and the handle
counter show only in whether the handles have run out.
-/

namespace StringSlots

universe u

/-- What a slot holds: the null marker, a handle whose string is gone, or a live text. -/
inductive Content where
  | null
  | stale
  | text (text : String)
  deriving DecidableEq

namespace Content

/-- The reply to a `decode`, without handle numbers. -/
def decoded : Content → Reply
  | null => .ok (.text none)
  | stale => .error (.unknownHandle 0)
  | text stored => .ok (.text (some stored))

/-- The content of a slot after a release visited it. -/
def released (clear : Bool) : Content → Content
  | text _ => if clear then null else stale
  | content => content

end Content

/-- A reply with the handle numbers erased. -/
def Reply.anonymous : Reply → Reply
  | .ok (.stored _) => .ok (.stored ⟨1, Nat.one_pos⟩)
  | .error (.unknownHandle _) => .error (.unknownHandle 0)
  | reply => reply

variable {ι : Type u}

namespace Workspace

/-- The content of the slot at a position of a buffer. -/
def content (workspace : Workspace ι) (name : ι) (position : Nat) : Content :=
  match workspace.slot name position with
  | none => .null
  | some handle =>
      match workspace.codec.arena.getText? handle with
      | none => .stale
      | some text => .text text

/-- Whether there are handles left. -/
def hasRoom (workspace : Workspace ι) : Bool :=
  decide (workspace.codec.arena.next ≤ workspace.codec.arena.maxHandle)

end Workspace

namespace Setup

/-- The reply to a release along a plan, in terms of the contents of the buffer. -/
def releaseAnswer (contents : Nat → Content) : Except SlotError (List Nat) → Reply
  | .error error => .error error
  | .ok positions =>
      if ∃ position ∈ positions, contents position = .stale then .error (.unknownHandle 0)
      else .ok (.released (positions.countP fun position => contents position ≠ .null))

/-- The contents of a buffer after a release along a plan. -/
def releaseContents (clear : Bool) (contents : Nat → Content) :
    Except SlotError (List Nat) → Nat → Content
  | .error _, place => contents place
  | .ok positions, place =>
      if place ∈ positions then (contents place).released clear else contents place

variable (setup : Setup ι)

/-- The reply to a call, in terms of the contents of its buffer and whether handles are left. -/
def answer (room : Bool) (contents : Nat → Content) : Call ι → Reply
  | .encode _ _ text =>
      match Arena.nulPosition? text with
      | some position => .error (.interiorNul position)
      | none => if room then .ok (.stored ⟨1, Nat.one_pos⟩) else .error .handleOverflow
  | .encodeNull _ _ => .ok .done
  | .decode _ position => (contents position).decoded
  | call => releaseAnswer contents (call.plan setup.config (setup.sizes call.target))

/-- The contents of the buffer of a call after the call. -/
def contentsAfter (room : Bool) (contents : Nat → Content) : Call ι → Nat → Content
  | .encode _ position text, place =>
      if (Arena.nulPosition? text = none ∧ room) ∧ place = position then .text text
      else contents place
  | .encodeNull _ position, place => if place = position then .null else contents place
  | .decode _ _, place => contents place
  | call, place =>
      releaseContents setup.config.clearReleased contents
        (call.plan setup.config (setup.sizes call.target)) place

end Setup

/-! ## The content of a slot -/

namespace Workspace

variable {workspace after : Workspace ι} {name : ι} {position : Nat} {handle : Handle}

theorem content_of_null (null : workspace.slot name position = none) :
    workspace.content name position = .null := by
  rw [content, null]

theorem content_of_lost (held : workspace.slot name position = some handle)
    (lost : workspace.codec.arena.getText? handle = none) :
    workspace.content name position = .stale := by
  rw [content, held]
  simp only [lost]

theorem content_of_text (held : workspace.slot name position = some handle) {text : String}
    (found : workspace.codec.arena.getText? handle = some text) :
    workspace.content name position = .text text := by
  rw [content, held]
  simp only [found]

theorem content_of_dead (held : workspace.slot name position = some handle)
    (dead : workspace.codec.arena.contains handle = false) :
    workspace.content name position = .stale :=
  content_of_lost held (Arena.getText?_of_not_contains dead)

theorem content_of_live {width : SlotWidth} (formed : workspace.codec.arena.WellFormed width)
    (held : workspace.slot name position = some handle)
    (live : workspace.codec.arena.contains handle = true) :
    ∃ text, workspace.content name position = .text text := by
  obtain ⟨text, found⟩ := formed.getText?_isSome live
  exact ⟨text, content_of_text held found⟩

/-- A slot with a handle is stale exactly when the handle is dead. -/
theorem content_eq_stale_iff {width : SlotWidth} (formed : workspace.codec.arena.WellFormed width)
    (held : workspace.slot name position = some handle) :
    workspace.content name position = .stale ↔
      workspace.codec.arena.contains handle = false := by
  constructor
  · intro stale
    rw [← Bool.not_eq_true]
    intro live
    obtain ⟨text, content⟩ := content_of_live formed held live
    rw [content] at stale
    cases stale
  · exact content_of_dead held

theorem content_eq_null_iff :
    workspace.content name position = .null ↔ workspace.slot name position = none := by
  constructor
  · intro null
    cases held : workspace.slot name position with
    | none => rfl
    | some handle =>
        rw [content, held] at null
        dsimp only at null
        split at null <;> cases null
  · exact content_of_null

theorem content_eq_text_iff {text : String} :
    workspace.content name position = .text text ↔
      ∃ handle, workspace.slot name position = some handle ∧
        workspace.codec.arena.getText? handle = some text := by
  constructor
  · intro content_eq
    rw [content] at content_eq
    split at content_eq
    · cases content_eq
    · next handle held =>
      split at content_eq
      · cases content_eq
      · next stored found =>
        cases content_eq
        exact ⟨handle, held, found⟩
  · rintro ⟨handle, held, found⟩
    exact content_of_text held found

/-- The content of a slot hangs on its handle and the entry of the handle. -/
theorem content_congr (slots : after.slot name position = workspace.slot name position)
    (entries : ∀ handle, workspace.slot name position = some handle →
      after.codec.arena.find? handle = workspace.codec.arena.find? handle) :
    after.content name position = workspace.content name position := by
  rw [content, content, slots]
  cases held : workspace.slot name position with
  | none => rfl
  | some handle =>
      simp only [Arena.getText?, Arena.get?, entries handle held]

end Workspace

/-! ## What a release meets -/

namespace Setup

variable {setup : Setup ι} {workspace after : Workspace ι} {call : Call ι} {reply : Reply}

theorem Releases.answer_eq {name : ι} (release : setup.Releases name call)
    (room : Bool) (contents : Nat → Content) :
    setup.answer room contents call =
      releaseAnswer contents (call.plan setup.config (setup.sizes name)) := by
  rcases release with rfl | rfl <;> rfl

theorem Releases.contentsAfter_eq {name : ι} (release : setup.Releases name call)
    (room : Bool) (contents : Nat → Content) (place : Nat) :
    setup.contentsAfter room contents call place =
      releaseContents setup.config.clearReleased contents
        (call.plan setup.config (setup.sizes name)) place := by
  rcases release with rfl | rfl <;> rfl

theorem Releases.plan_error {name : ι} (release : setup.Releases name call) {error : SlotError}
    (plan : call.plan setup.config (setup.sizes name) = .error error) :
    ∀ raw, error ≠ .unknownHandle raw := by
  rcases release with rfl | rfl
  · exact Codec.releasePlan_error plan
  · exact Codec.recordPlan_error plan

section Met

variable (owned : setup.Owned workspace) {name : ι} (release : setup.Releases name call)
include owned release

namespace Owned

/-- A slot is met with its own handle only. -/
theorem handle_of_met {place : Nat} {handle other : Handle}
    (held : workspace.slot name place = some handle)
    (visit : (place, other) ∈ workspace.met call) : other = handle :=
  Option.some.inj (((owned.met release).1 _ visit).2.symm.trans held)

/-- A slot is cleared when it is met with a live handle and the configuration says so. -/
theorem mem_clears_iff {place : Nat} :
    place ∈ workspace.clears call ↔ setup.config.clearReleased = true ∧
      ∃ handle, (place, handle) ∈ workspace.met call ∧
        workspace.codec.arena.contains handle = true := by
  have distinct := (owned.met release).2
  rw [Workspace.clears, owned.config,
    freeing_eq_filter _ distinct fun _ _ => List.not_mem_nil]
  by_cases clear : setup.config.clearReleased = true
  · simp [clear]
  · simp [clear]

/-- The handle of a slot is met exactly when the slot itself is met. -/
theorem mem_handlesOf_met_iff {other : ι} {place : Nat} {handle : Handle}
    (slot : setup.IsSlot other place) (held : workspace.slot other place = some handle) :
    handle ∈ handlesOf (workspace.met call) ↔
      other = name ∧ (place, handle) ∈ workspace.met call := by
  constructor
  · intro mem
    obtain ⟨visit, met, rfl⟩ := List.mem_map.1 mem
    -- another slot with that handle would break ownership
    obtain ⟨visit_slot, visit_held⟩ := (owned.met release).1 visit met
    obtain ⟨rfl, rfl⟩ := owned.distinct slot visit_slot held visit_held
    exact ⟨rfl, met⟩
  · rintro ⟨-, met⟩
    exact List.mem_map_of_mem met

section Plan

variable {positions : List Nat} (plan : call.plan setup.config (setup.sizes name) = .ok positions)
include plan

/-- A release meets the slots of its plan that hold a handle. -/
theorem mem_met_iff {visit : Nat × Handle} :
    visit ∈ workspace.met call ↔
      visit.1 ∈ positions ∧ workspace.slot name visit.1 = some visit.2 := by
  rw [owned.met_of_plan release plan, Buffer.mem_visits_iff, Workspace.slot, owned.config]

theorem length_met :
    (workspace.met call).length =
      positions.countP fun position => workspace.content name position ≠ .null := by
  rw [owned.met_of_plan release plan, Buffer.visits, List.length_filterMap_eq_countP]
  apply List.countP_congr
  intro position mem
  rw [Option.isSome_map, decide_eq_true_eq, Ne, Workspace.content_eq_null_iff, Workspace.slot,
    owned.config, Option.isSome_iff_ne_none]

/-- A slot of the plan is stale exactly when a dead handle is met. -/
theorem exists_stale_iff :
    (∃ position ∈ positions, workspace.content name position = .stale) ↔
      ∃ visit ∈ workspace.met call, workspace.codec.arena.contains visit.2 = false := by
  constructor
  · rintro ⟨position, mem, stale⟩
    cases held : workspace.slot name position with
    | none =>
        rw [Workspace.content_of_null held] at stale
        cases stale
    | some handle =>
        have visit : (position, handle) ∈ workspace.met call :=
          (owned.mem_met_iff release plan).2 ⟨mem, held⟩
        exact ⟨_, visit, (Workspace.content_eq_stale_iff owned.formed held).1 stale⟩
  · rintro ⟨visit, met, dead⟩
    obtain ⟨mem, held⟩ := (owned.mem_met_iff release plan).1 met
    exact ⟨visit.1, mem, Workspace.content_of_dead held dead⟩

end Plan

/-- A refused release answers why, an accepted one counts its visits unless one is stale. -/
theorem releaseAnswer_eq :
    Reply.anonymous (((call.plan setup.config (setup.sizes name)).bind fun _ =>
        Codec.passResult workspace.codec.arena (workspace.met call)).map .released) =
      releaseAnswer (workspace.content name) (call.plan setup.config (setup.sizes name)) := by
  cases plan : call.plan setup.config (setup.sizes name) with
  | error error =>
      -- a refusal names no handle, so there is nothing to erase
      have kept := release.plan_error plan
      cases error <;> first | rfl | exact absurd rfl (kept _)
  | ok positions =>
      have stale_iff := owned.exists_stale_iff release plan
      rw [releaseAnswer, Except.bind, Codec.passResult_of_distinct _ (owned.met release).2]
      cases found : (workspace.met call).find? fun visit =>
          !workspace.codec.arena.contains visit.2 with
      | some stray =>
          have dead : workspace.codec.arena.contains stray.2 = false := by
            simpa using List.find?_some found
          rw [if_pos (stale_iff.2 ⟨stray, List.mem_of_find?_eq_some found, dead⟩)]
          rfl
      | none =>
          have fresh : ¬∃ visit ∈ workspace.met call,
              workspace.codec.arena.contains visit.2 = false := by
            rintro ⟨visit, met, dead⟩
            have live := List.find?_eq_none.1 found visit met
            simp [dead] at live
          rw [if_neg (stale_iff.not.2 fresh), ← owned.length_met release plan]
          rfl

end Owned

end Met

/-! ## Contents at slots -/

section Agreement

variable {a b : Nat → Content} (room : Bool)

/-- A reply hangs on the contents at slots only. -/
theorem answer_congr (permits : setup.Permits call)
    (same : ∀ place, setup.IsSlot call.target place → a place = b place) :
    setup.answer room a call = setup.answer room b call := by
  cases kind_of_permits permits with
  | encode text slot => rfl
  | encodeNull slot => rfl
  | @decode name position slot => rw [answer, answer, same position slot]
  | @release name call release =>
      rw [release.answer_eq, release.answer_eq]
      obtain rfl := release.target_eq
      cases plan : call.plan setup.config (setup.sizes call.target) with
      | error error => rfl
      | ok positions =>
          -- only slots are visited
          have agree : ∀ position ∈ positions, a position = b position := by
            intro position mem
            exact same position ((release.plan_slots plan).2 position mem)
          have stale : (∃ position ∈ positions, a position = .stale) ↔
              ∃ position ∈ positions, b position = .stale := by
            apply exists_congr
            intro position
            apply and_congr_right
            intro mem
            rw [agree position mem]
          have count : positions.countP (fun position => a position ≠ .null) =
              positions.countP fun position => b position ≠ .null := by
            apply List.countP_congr
            intro position mem
            rw [agree position mem]
          simp only [releaseAnswer, stale, count]

/-- The content of a slot after a call hangs on its content before. -/
theorem contentsAfter_congr (permits : setup.Permits call) {place : Nat}
    (same : a place = b place) :
    setup.contentsAfter room a call place = setup.contentsAfter room b call place := by
  cases kind_of_permits permits with
  | encode text slot => rw [contentsAfter, contentsAfter, same]
  | encodeNull slot => rw [contentsAfter, contentsAfter, same]
  | decode slot => exact same
  | @release name call release =>
      rw [release.contentsAfter_eq, release.contentsAfter_eq]
      cases call.plan setup.config (setup.sizes name) with
      | error error => exact same
      | ok positions => rw [releaseContents, releaseContents, same]

end Agreement

/-! ## What a release does to contents -/

theorem content_ite (workspace : Workspace ι) (other name : ι) (place : Nat)
    [Decidable (other = name)] :
    (if other = name then workspace.content name place else workspace.content other place) =
      workspace.content other place := by
  split
  · next here => rw [here]
  · rfl

variable [DecidableEq ι]

/-- A slot whose handle is not met keeps its content. -/
theorem Freed.content_of_unmet {name : ι} (freed : setup.Freed workspace name call after)
    (owned : setup.Owned workspace) {other : ι} {place : Nat} (slot : setup.IsSlot other place)
    (unmet : ∀ handle, workspace.slot other place = some handle →
      handle ∉ handlesOf (workspace.met call)) :
    after.content other place = workspace.content other place := by
  apply Workspace.content_congr
  · rw [freed.slot_eq slot, ite_eq_right_iff]
    rintro ⟨rfl, cleared⟩
    obtain ⟨-, handle, visit, -⟩ := (owned.mem_clears_iff freed.release).1 cleared
    have held := ((owned.met freed.release).1 _ visit).2
    exact absurd (List.mem_map_of_mem visit) (unmet handle held)
  · intro handle held
    rw [freed.arena_eq, Arena.find?_discardAll, if_neg (unmet handle held)]

/-- A slot that is met with a handle is stale or null after the release, depending on whether the
handle was dead, or live and the slot not cleared, or live and the slot cleared. -/
theorem Freed.content_of_met {name : ι} (freed : setup.Freed workspace name call after)
    (owned : setup.Owned workspace) {place : Nat} (slot : setup.IsSlot name place)
    {handle : Handle} (visit : (place, handle) ∈ workspace.met call) :
    after.content name place =
      (workspace.content name place).released setup.config.clearReleased := by
  have held := ((owned.met freed.release).1 _ visit).2
  have now := freed.slot_eq slot
  -- whatever becomes of the slot, its handle names nothing any more
  have gone : after.codec.arena.contains handle = false := by
    rw [Arena.contains_eq_false_iff, freed.arena_eq, Arena.find?_discardAll,
      if_pos (List.mem_map_of_mem visit)]
  have kept : place ∉ workspace.clears call → after.content name place = .stale := by
    intro absent
    rw [if_neg fun both => absent both.2] at now
    exact Workspace.content_of_dead (now.trans held) gone
  cases live : workspace.codec.arena.contains handle with
  | false =>
      -- a dead handle frees nothing, and a slot is cleared only when its string was freed
      rw [Workspace.content_of_dead held live]
      apply kept
      intro cleared
      obtain ⟨-, other, again, other_live⟩ := (owned.mem_clears_iff freed.release).1 cleared
      rw [owned.handle_of_met freed.release held again, live] at other_live
      cases other_live
  | true =>
      obtain ⟨text, content⟩ := Workspace.content_of_live owned.formed held live
      rw [content, Content.released]
      by_cases clear : setup.config.clearReleased = true
      · have cleared := (owned.mem_clears_iff freed.release).2 ⟨clear, handle, visit, live⟩
        rw [if_pos ⟨rfl, cleared⟩] at now
        rw [if_pos clear]
        exact Workspace.content_of_null now
      · rw [if_neg clear]
        exact kept fun cleared => clear ((owned.mem_clears_iff freed.release).1 cleared).1

/-- The contents after a release, in terms of the contents at its start. -/
theorem Freed.content_eq {name : ι} (freed : setup.Freed workspace name call after)
    (owned : setup.Owned workspace) {other : ι} {place : Nat} (slot : setup.IsSlot other place) :
    after.content other place =
      if other = name then
        releaseContents setup.config.clearReleased (workspace.content name)
          (call.plan setup.config (setup.sizes name)) place
      else workspace.content other place := by
  by_cases here : other = name
  · subst here
    rw [if_pos rfl]
    cases plan : call.plan setup.config (setup.sizes other) with
    | error error =>
        apply freed.content_of_unmet owned slot
        intro handle _
        rw [owned.met_of_refused freed.release plan]
        exact List.not_mem_nil
    | ok positions =>
        rw [releaseContents]
        by_cases mem : place ∈ positions
        · rw [if_pos mem]
          cases held : workspace.slot other place with
          | none =>
              -- a null slot is passed over
              have same := freed.content_of_unmet owned slot (by simp [held])
              rw [same, Workspace.content_of_null held]
              rfl
          | some handle =>
              have visit : (place, handle) ∈ workspace.met call :=
                (owned.mem_met_iff freed.release plan).2 ⟨mem, held⟩
              exact freed.content_of_met owned slot visit
        · -- a slot outside the plan keeps its content: its handle is in no slot of the plan
          rw [if_neg mem]
          apply freed.content_of_unmet owned slot
          intro handle held met
          have visit := ((owned.mem_handlesOf_met_iff freed.release slot held).1 met).2
          exact mem ((owned.mem_met_iff freed.release plan).1 visit).1
  · -- nor is the handle of a slot of another buffer
    rw [if_neg here]
    apply freed.content_of_unmet owned slot
    intro handle held met
    exact here ((owned.mem_handlesOf_met_iff freed.release slot held).1 met).1

/-! ## What a move does to contents -/

/-- The reply to a permitted call hangs on the contents of its buffer, and on whether handles are
left. -/
theorem Move.reply_eq (owned : setup.Owned workspace)
    (move : setup.Move workspace call reply after) :
    Reply.anonymous reply =
      setup.answer workspace.hasRoom (workspace.content call.target) call := by
  cases move with
  | refused alloc =>
      -- the text is looked at before the counter is
      rcases Arena.alloc_error_cases owned.formed.next_pos alloc with
        ⟨position, nul, rfl⟩ | ⟨nul, full, rfl⟩
      · rw [answer, nul]
        rfl
      · rw [answer, nul, Workspace.hasRoom, decide_eq_false (Nat.not_le_of_lt full)]
        rfl
  | stored slot alloc slots =>
      obtain ⟨nul, room, -, -⟩ := Arena.alloc_eq_ok_iff.1 alloc
      rw [answer, nul, Workspace.hasRoom, decide_eq_true room]
      rfl
  | nulled slot arena slots => rfl
  | @read name position slot =>
      have inside : position + workspace.codec.config.width.bytes ≤
          (workspace.buffers name).size := by
        rw [owned.config, owned.size]
        exact slot.inside
      show _ = (workspace.content name position).decoded
      cases held : workspace.slot name position with
      | none =>
          rw [Codec.decode_of_null inside held, Workspace.content_of_null held]
          rfl
      | some handle =>
          cases read : workspace.codec.arena.getText? handle with
          | none =>
              rw [Codec.decode_of_stale inside held read, Workspace.content_of_lost held read]
              rfl
          | some text =>
              rw [Codec.decode_of_text inside held read, Workspace.content_of_text held read]
              rfl
  | released freed =>
      rw [owned.releaseAnswer_eq freed.release, freed.release.target_eq, freed.release.answer_eq]

/-- A write to one slot changes the content of that slot only, when all handles in slots keep their
entries. -/
theorem content_of_written {name : ι} {position : Nat} {handle : Option Handle}
    (slots : ∀ {other place}, setup.IsSlot other place → after.slot other place =
      if other = name ∧ place = position then handle else workspace.slot other place)
    (entries : ∀ {other place old}, setup.IsSlot other place →
      workspace.slot other place = some old →
      after.codec.arena.find? old = workspace.codec.arena.find? old)
    {other : ι} {place : Nat} (slot : setup.IsSlot other place) :
    after.content other place =
      if other = name then
        if place = position then after.content name position else workspace.content name place
      else workspace.content other place := by
  by_cases here : other = name ∧ place = position
  · rw [here.1, here.2, if_pos rfl, if_pos rfl]
  · -- any other slot keeps its handle, and the handle its entry
    have unchanged : after.content other place = workspace.content other place := by
      apply Workspace.content_congr
      · rw [slots slot, if_neg here]
      · intro old held
        exact entries slot held
    rw [unchanged]
    by_cases buffer : other = name
    · rw [if_pos buffer, if_neg fun spot => here ⟨buffer, spot⟩, buffer]
    · rw [if_neg buffer]

/-- The contents after a permitted call hang on the contents of its buffer, and on whether handles
are left; those of all other buffers are as before. -/
theorem Move.content_eq (owned : setup.Owned workspace)
    (move : setup.Move workspace call reply after) {other : ι} {place : Nat}
    (slot : setup.IsSlot other place) :
    after.content other place =
      if other = call.target then
        setup.contentsAfter workspace.hasRoom (workspace.content call.target) call place
      else workspace.content other place := by
  cases move with
  | refused alloc =>
      rcases Arena.alloc_error_cases owned.formed.next_pos alloc with
        ⟨position, nul, rfl⟩ | ⟨nul, full, rfl⟩
      · simp only [contentsAfter, nul, reduceCtorEq, false_and, if_false]
        exact (content_ite workspace other _ place).symm
      · have no_room : workspace.hasRoom = false := decide_eq_false (Nat.not_le_of_lt full)
        simp only [contentsAfter, no_room, Bool.false_eq_true, and_false, false_and, if_false]
        exact (content_ite workspace other _ place).symm
  | @stored name position text handle after own_slot alloc slots =>
      obtain ⟨nul, room, value, grown⟩ := Arena.alloc_eq_ok_iff.1 alloc
      have has_room : workspace.hasRoom = true := decide_eq_true room
      have new : after.content name position = .text text := by
        have held := slots own_slot
        rw [if_pos ⟨rfl, rfl⟩] at held
        refine Workspace.content_of_text held (Arena.getText?_of_find? ?_)
        rw [grown, Arena.find?_push, if_pos rfl]
      -- the handles in slots were issued before, so their entries are not overwritten
      have entries : ∀ {other place old}, setup.IsSlot other place →
          workspace.slot other place = some old →
          after.codec.arena.find? old = workspace.codec.arena.find? old := by
        intro other place old old_slot held
        have issued := owned.issued old_slot held
        have differ : handle ≠ old := by
          rintro rfl
          omega
        rw [grown, Arena.find?_push, if_neg differ]
      have written := content_of_written slots entries slot
      rw [new] at written
      rw [written]
      simp only [contentsAfter, nul, has_room, true_and, and_self]
      rfl
  | @nulled name position after own_slot arena slots =>
      have new : after.content name position = .null := by
        have null := slots own_slot
        rw [if_pos ⟨rfl, rfl⟩] at null
        exact Workspace.content_of_null null
      have written := content_of_written slots (fun _ _ => by rw [arena]) slot
      rw [new] at written
      exact written
  | read own_slot => exact (content_ite workspace other _ place).symm
  | released freed =>
      rw [freed.content_eq owned slot, freed.release.target_eq, freed.release.contentsAfter_eq]

/-- The number of handles that a call takes. -/
def handlesTaken (room : Bool) : Call ι → Nat
  | .encode _ _ text => if Arena.nulPosition? text = none ∧ room then 1 else 0
  | _ => 0

theorem Move.next_eq (owned : setup.Owned workspace)
    (move : setup.Move workspace call reply after) :
    after.codec.arena.next = workspace.codec.arena.next + handlesTaken workspace.hasRoom call := by
  cases move with
  | refused alloc =>
      rcases Arena.alloc_error_cases owned.formed.next_pos alloc with
        ⟨position, nul, rfl⟩ | ⟨nul, full, rfl⟩
      · rw [handlesTaken, if_neg (by simp [nul])]
        rfl
      · rw [handlesTaken, if_neg (by simp [Workspace.hasRoom, full])]
        rfl
  | stored slot alloc slots =>
      obtain ⟨nul, room, -, grown⟩ := Arena.alloc_eq_ok_iff.1 alloc
      rw [handlesTaken, if_pos ⟨nul, decide_eq_true room⟩, grown]
      rfl
  | nulled slot arena slots => rw [arena]; rfl
  | read slot => rfl
  | released freed =>
      -- freeing never turns the counter back
      have counter := (Arena.counters_discardAll workspace.codec.arena
        (handlesOf (workspace.met call))).1
      rw [freed.arena_eq, counter]
      rcases freed.release with rfl | rfl <;> rfl

/-! ## Steps -/

namespace Owned

theorem step_reply (owned : setup.Owned workspace) (permits : setup.Permits call) :
    Reply.anonymous (workspace.step call).1 =
      setup.answer workspace.hasRoom (workspace.content call.target) call :=
  (owned.move permits).reply_eq owned

theorem step_content (owned : setup.Owned workspace) (permits : setup.Permits call) {other : ι}
    {place : Nat} (slot : setup.IsSlot other place) :
    (workspace.step call).2.content other place =
      if other = call.target then
        setup.contentsAfter workspace.hasRoom (workspace.content call.target) call place
      else workspace.content other place :=
  (owned.move permits).content_eq owned slot

theorem step_next (owned : setup.Owned workspace) (permits : setup.Permits call) :
    (workspace.step call).2.codec.arena.next =
      workspace.codec.arena.next + handlesTaken workspace.hasRoom call :=
  (owned.move permits).next_eq owned

end Owned

end Setup

end StringSlots
