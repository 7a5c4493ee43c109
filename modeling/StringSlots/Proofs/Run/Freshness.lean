import StringSlots.Proofs.Run.Requests

/-!
# Handles are fresh for ever

Each reply of a run hands out at most one handle, and the handles that it hands out are 1, 2, 3 and
so on (`issued_run`): a call that fails takes none. A handle whose string is gone stays without one
(`not_contains_run`), since the counter has passed it; so a handle that a release meets is retired
by it (`retired_of_not_contains`, `not_contains_of_met`). Once the counter has passed the limit of
the width, every further text is refused, however many strings are released in between.
-/

namespace StringSlots

universe u

variable {ι : Type u}

/-- The handle that a reply hands out. -/
def Reply.handle? : Reply → Option Handle
  | .ok (.stored handle) => some handle
  | _ => none

/-- The handles that replies hand out, in order. -/
def issuedIn (replies : List Reply) : List Handle :=
  replies.filterMap Reply.handle?

/-- Whether a call is to store a text. -/
def Call.stores : Call ι → Bool
  | .encode .. => true
  | .encodeMember .. => true
  | _ => false

theorem Reply.handle?_map {α : Type} (result : Except SlotError α) {answer : α → Answer}
    (other : ∀ value handle, answer value ≠ .stored handle) :
    Reply.handle? (result.map answer) = none := by
  cases result with
  | error error => rfl
  | ok value =>
      show Reply.handle? (.ok (answer value)) = none
      cases answered : answer value with
      | stored handle => exact absurd answered (other value handle)
      | _ => rfl

/-- A member without a slot is refused for its layout, its name, its kind or its address. -/
theorem Codec.memberSlot_ne_handleOverflow (codec : Codec) (layout : CompoundLayout) (record : Nat)
    (name : String) : codec.memberSlot layout record name ≠ .error .handleOverflow := by
  intro overflow
  rw [memberSlot, checkWidth] at overflow
  by_cases width : layout.width = codec.config.width
  · simp only [if_pos width] at overflow
    split at overflow
    · cases overflow
    · split at overflow
      · split at overflow <;> cases overflow
      · cases overflow
  · simp only [if_neg width] at overflow
    cases overflow

namespace Workspace

variable [DecidableEq ι] {workspace : Workspace ι} {call : Call ι} {width : SlotWidth}

/-! ## One call -/

/-- A call that stores a text but has no slot for it is refused by name, kind or address. -/
theorem step_of_no_slot (stores : call.stores = true) (storing : workspace.storing? call = none) :
    ∃ error, error ≠ .handleOverflow ∧ workspace.step call = (.error error, workspace) := by
  cases call with
  | encode name offset text => cases storing
  | encodeMember name layout record member text =>
      obtain ⟨error, place, refused⟩ := step_of_unplaced storing
      refine ⟨error, ?_, refused⟩
      rintro rfl
      exact Codec.memberSlot_ne_handleOverflow workspace.codec layout record member place
  | _ => cases stores

/-- A call that stores no text hands out no handle. -/
theorem handle?_of_not_storing (storing : workspace.storing? call = none) :
    (workspace.step call).1.handle? = none := by
  cases call with
  | encode name offset text => cases storing
  | encodeMember name layout record member text =>
      obtain ⟨error, -, refused⟩ := step_of_unplaced storing
      rw [refused]
      rfl
  | encodeNull name offset => exact Reply.handle?_map _ fun _ _ => nofun
  | decode name offset => exact Reply.handle?_map _ fun _ _ => nofun
  | decodeMember name layout record member => exact Reply.handle?_map _ fun _ _ => nofun
  | releaseAll name schema => exact Reply.handle?_map _ fun _ _ => nofun
  | releaseRecord name schema => exact Reply.handle?_map _ fun _ _ => nofun
  | releaseLayout name layout => exact Reply.handle?_map _ fun _ _ => nofun
  | write name offset image =>
      rw [step]
      split <;> rfl

/-- A reply hands out the value of the counter and moves the counter on, or it hands out nothing and
leaves the counter. -/
theorem step_issues (formed : workspace.codec.arena.WellFormed width) (call : Call ι) :
    (∃ handle, (workspace.step call).1 = .ok (.stored handle) ∧
        handle.value = workspace.codec.arena.next ∧ handle.value ≤ width.maxHandle ∧
        (workspace.step call).2.codec.arena.next = workspace.codec.arena.next + 1) ∨
      (workspace.step call).1.handle? = none ∧
        (workspace.step call).2.codec.arena.next = workspace.codec.arena.next := by
  cases storing : workspace.storing? call with
  | none =>
      refine Or.inr ⟨handle?_of_not_storing storing, ?_⟩
      rw [arena_of_not_storing storing]
      exact (Arena.counters_discardAll _ _).1
  | some slot =>
      obtain ⟨offset, text⟩ := slot
      by_cases inside : workspace.Fits call.target offset
      · rw [step_of_fits storing inside]
        cases stored : workspace.codec.arena.alloc text with
        | error error => exact Or.inr ⟨rfl, rfl⟩
        | ok new =>
            obtain ⟨handle, arena⟩ := new
            obtain ⟨-, room, value, rfl⟩ := Arena.alloc_eq_ok_iff.1 stored
            refine Or.inl ⟨handle, rfl, value, ?_, rfl⟩
            rw [value, ← formed.limit]
            exact room
      · rw [step_of_not_fits storing inside]
        exact Or.inr ⟨rfl, rfl⟩

/-- A text without a NUL, at a slot inside the buffer, takes the value of the counter, unless the
counter has passed the limit. -/
theorem reply_of_clean (formed : workspace.codec.arena.WellFormed width) {offset : Nat}
    {text : String} (storing : workspace.storing? call = some (offset, text))
    (inside : workspace.Fits call.target offset) (clean : Arena.nulPosition? text = none) :
    (workspace.step call).1 =
      if workspace.codec.arena.next ≤ width.maxHandle then
        .ok (.stored ⟨workspace.codec.arena.next, formed.next_pos⟩)
      else .error .handleOverflow := by
  rw [step_of_fits storing inside, formed.alloc_eq, clean]
  by_cases room : workspace.codec.arena.next ≤ width.maxHandle
  · simp only [if_pos room]
  · simp only [if_neg room]

/-- A call that fails to store a text changes nothing. -/
theorem step_of_failed_store (stores : call.stores = true) {error : SlotError}
    (failed : (workspace.step call).1 = .error error) : (workspace.step call).2 = workspace := by
  cases storing : workspace.storing? call with
  | none =>
      obtain ⟨cause, -, refused⟩ := step_of_no_slot stores storing
      rw [refused]
  | some slot =>
      obtain ⟨offset, text⟩ := slot
      by_cases inside : workspace.Fits call.target offset
      · rw [step_of_fits storing inside] at failed ⊢
        cases stored : workspace.codec.arena.alloc text with
        | error error => rfl
        | ok new =>
            rw [stored] at failed
            cases failed
      · rw [step_of_not_fits storing inside]

/-- The handles have run out when a call that stores a text says so. -/
theorem limit_lt_of_overflow (formed : workspace.codec.arena.WellFormed width)
    (stores : call.stores = true) (overflow : (workspace.step call).1 = .error .handleOverflow) :
    width.maxHandle < workspace.codec.arena.next := by
  cases storing : workspace.storing? call with
  | none =>
      obtain ⟨error, other, refused⟩ := step_of_no_slot stores storing
      rw [refused] at overflow
      cases overflow
      exact absurd rfl other
  | some slot =>
      obtain ⟨offset, text⟩ := slot
      by_cases inside : workspace.Fits call.target offset
      · rw [step_of_fits storing inside, formed.alloc_eq] at overflow
        cases nul : Arena.nulPosition? text with
        | some position =>
            rw [nul] at overflow
            cases overflow
        | none =>
            by_cases room : workspace.codec.arena.next ≤ width.maxHandle
            · simp only [nul, if_pos room] at overflow
              cases overflow
            · exact Nat.lt_of_not_le room
      · rw [step_of_not_fits storing inside] at overflow
        cases overflow

/-- A handle that was issued and names nothing now names nothing after the next call. -/
theorem not_contains_step {handle : Handle} (issued : handle.value < workspace.codec.arena.next)
    (gone : workspace.codec.arena.contains handle = false) (call : Call ι) :
    (workspace.step call).2.codec.arena.contains handle = false := by
  have effect := workspace.step_effect call
  generalize (workspace.step call).2 = after at effect ⊢
  cases effect with
  | idle => exact gone
  | wrote => exact gone
  | stored offset text new arena inside alloc =>
      -- the new handle is the counter, and the handle lies below it
      obtain ⟨-, -, value, rfl⟩ := Arena.alloc_eq_ok_iff.1 alloc
      have differ : new ≠ handle := by
        rintro rfl
        omega
      show (workspace.codec.arena.push new _).contains handle = false
      rw [Arena.contains_eq_false_iff, Arena.find?_push, if_neg differ]
      exact Arena.contains_eq_false_iff.1 gone
  | released outcome follows =>
      show outcome.codec.arena.contains handle = false
      rw [follows.codec_eq, Arena.contains_discardAll, gone]
      rfl

/-! ## Runs -/

theorem not_contains_run {handle : Handle} (issued : handle.value < workspace.codec.arena.next)
    (gone : workspace.codec.arena.contains handle = false) (calls : List (Call ι)) :
    (workspace.run calls).codec.arena.contains handle = false := by
  have both : handle.value < (workspace.run calls).codec.arena.next ∧
      (workspace.run calls).codec.arena.contains handle = false := by
    refine run_induction
      (motive := fun now => handle.value < now.codec.arena.next ∧
        now.codec.arena.contains handle = false) calls ⟨issued, gone⟩ ?_
    rintro now ⟨issued, gone⟩ call -
    exact ⟨Nat.lt_of_lt_of_le issued (now.step_effect call).next_le,
      not_contains_step issued gone call⟩
  exact both.2

/-- From here on a handle names nothing, and every slot that reads it decodes as unknown. -/
def Retired (workspace : Workspace ι) (handle : Handle) : Prop :=
  ∀ later, (workspace.run later).codec.arena.contains handle = false ∧
    ∀ (buffer : Buffer) (offset : Nat), offset + workspace.codec.config.width.bytes ≤ buffer.size →
      buffer.handleAt workspace.codec.config offset = some handle →
        (workspace.run later).codec.decode buffer offset = .error (.unknownHandle handle.value)

theorem retired_of_not_contains {handle : Handle}
    (issued : handle.value < workspace.codec.arena.next)
    (gone : workspace.codec.arena.contains handle = false) : workspace.Retired handle := by
  intro later
  have gone_later := not_contains_run issued gone later
  refine ⟨gone_later, ?_⟩
  intro buffer offset inside held
  rw [← config_run workspace later] at inside held
  exact Codec.decode_of_stale inside held (Arena.getText?_of_not_contains gone_later)

/-- A handle that a call meets names nothing after the call. -/
theorem not_contains_of_met {handle : Handle} (met : handle ∈ handlesOf (workspace.met call)) :
    (workspace.step call).2.codec.arena.contains handle = false := by
  cases storing : workspace.storing? call with
  | none =>
      rw [arena_of_not_storing storing]
      exact Arena.contains_discardAll_of_mem _ met
  | some slot =>
      -- a call that stores a text meets no slot
      cases call with
      | encode name offset text => cases met
      | encodeMember name layout record member text => cases met
      | _ => cases storing

/-- A run hands out the values of the counter in order. -/
theorem issued_run (formed : workspace.codec.arena.WellFormed width) (calls : List (Call ι)) :
    (issuedIn (workspace.replies calls)).map Handle.value =
        List.range' workspace.codec.arena.next (issuedIn (workspace.replies calls)).length ∧
      (workspace.run calls).codec.arena.next =
        workspace.codec.arena.next + (issuedIn (workspace.replies calls)).length := by
  induction calls generalizing workspace with
  | nil => exact ⟨rfl, rfl⟩
  | cons call rest ih =>
      obtain ⟨values, next⟩ := ih ((workspace.step_effect call).wellFormed formed)
      rcases step_issues formed call with ⟨handle, reply, value, -, counter⟩ | ⟨reply, counter⟩
      · have head : issuedIn (workspace.replies (call :: rest)) =
            handle :: issuedIn ((workspace.step call).2.replies rest) := by
          rw [issuedIn, replies, reply]
          rfl
        rw [head, run_cons, List.map_cons, values, next, counter, value, List.length_cons]
        exact ⟨rfl, by omega⟩
      · have head : issuedIn (workspace.replies (call :: rest)) =
            issuedIn ((workspace.step call).2.replies rest) := by
          rw [issuedIn, replies, List.filterMap_cons, reply]
          rfl
        rw [head, run_cons, ← counter]
        exact ⟨values, next⟩

/-- The counter stops right behind the limit. -/
theorem next_run_le (formed : workspace.codec.arena.WellFormed width)
    (room : workspace.codec.arena.next ≤ width.maxHandle + 1) (calls : List (Call ι)) :
    (workspace.run calls).codec.arena.next ≤ width.maxHandle + 1 := by
  have both : (workspace.run calls).codec.arena.WellFormed width ∧
      (workspace.run calls).codec.arena.next ≤ width.maxHandle + 1 := by
    refine run_induction
      (motive := fun now => now.codec.arena.WellFormed width ∧
        now.codec.arena.next ≤ width.maxHandle + 1) calls ⟨formed, room⟩ ?_
    rintro now ⟨formed, room⟩ call -
    refine ⟨(now.step_effect call).wellFormed formed, ?_⟩
    rcases step_issues formed call with ⟨handle, -, value, le, counter⟩ | ⟨-, counter⟩
    · omega
    · omega
  exact both.2

/-- Along every run of a codec on any buffers the `k`-th text that is stored gets handle `k`, and no
handle is above the limit of the width. A text without a NUL is stored at a slot inside its buffer
until the handles have run out, and a call that fails to store a text changes nothing. A handle
whose string is gone is retired, and a release retires each live handle that it meets. When the
handles have run out they stay so. -/
theorem handles_fresh_run (config : CodecConfig) (buffers : ι → Buffer) (calls : List (Call ι)) :
    let now := (among config buffers).run calls
    let issued := issuedIn ((among config buffers).replies calls)
    (issued.map Handle.value = List.range' 1 issued.length ∧
        issued.length ≤ config.width.maxHandle) ∧
      (∀ call offset text, now.storing? call = some (offset, text) →
        now.Fits call.target offset → Arena.nulPosition? text = none →
          (now.step call).1 =
            if issued.length < config.width.maxHandle then
              .ok (.stored ⟨issued.length + 1, Nat.succ_pos _⟩)
            else .error .handleOverflow) ∧
      (∀ call error, call.stores = true → (now.step call).1 = .error error →
        (now.step call).2 = now) ∧
      (∀ earlier, earlier <+: calls → ∀ handle,
        ((among config buffers).run earlier).codec.arena.contains handle = true →
        now.codec.arena.contains handle = false → now.Retired handle) ∧
      (∀ call, ∀ handle ∈ handlesOf (now.met call),
        now.codec.arena.contains handle = true → (now.step call).2.Retired handle) ∧
      ∀ call, call.stores = true → (now.step call).1 = .error .handleOverflow →
        ∀ between later offset text,
          let last := (now.step call).2.run between
          last.storing? later = some (offset, text) → last.Fits later.target offset →
            Arena.nulPosition? text = none → (last.step later).1 = .error .handleOverflow := by
  intro now issued
  have start_formed : (among config buffers).codec.arena.WellFormed config.width :=
    Arena.WellFormed.empty config.width
  have formed : now.codec.arena.WellFormed config.width := wellFormed_run start_formed calls
  obtain ⟨values, next⟩ := issued_run start_formed calls
  have counter : now.codec.arena.next = issued.length + 1 := by
    rw [next, Nat.add_comm]
    rfl
  refine ⟨⟨values, ?_⟩, ?_, ?_, ?_, ?_, ?_⟩
  · have stops : now.codec.arena.next ≤ config.width.maxHandle + 1 :=
      next_run_le start_formed (Nat.le_add_left 1 _) calls
    omega
  · intro call offset text storing inside clean
    rw [reply_of_clean formed storing inside clean]
    simp only [counter, Nat.succ_le_iff]
  · intro call error stores failed
    exact step_of_failed_store stores failed
  · rintro earlier ⟨rest, rfl⟩ handle live gone
    have issued_before := (wellFormed_run start_formed earlier).issued live
    refine retired_of_not_contains (Nat.lt_of_lt_of_le issued_before ?_) gone
    show _ ≤ ((among config buffers).run (earlier ++ rest)).codec.arena.next
    rw [run_append]
    exact next_le_run _ rest
  · intro call handle met live
    have issued_after := Nat.lt_of_lt_of_le (formed.issued live) (now.step_effect call).next_le
    exact retired_of_not_contains issued_after (not_contains_of_met met)
  · intro call stores overflow between later offset text last storing inside clean
    -- the counter passed the limit before and never turns back
    have full := limit_lt_of_overflow formed stores overflow
    have step_le := (now.step_effect call).next_le
    have run_le := next_le_run (now.step call).2 between
    have last_formed : last.codec.arena.WellFormed config.width :=
      wellFormed_run ((now.step_effect call).wellFormed formed) between
    rw [reply_of_clean last_formed storing inside clean, if_neg]
    show ¬((now.step call).2.run between).codec.arena.next ≤ _
    omega

/-- Storing a text again and again at one slot uses the handles up one by one. -/
theorem next_run_replicate (config : CodecConfig) (buffers : ι → Buffer) (name : ι) (offset : Nat)
    (text : String) (inside : offset + config.width.bytes ≤ (buffers name).size)
    (clean : Arena.nulPosition? text = none) {count : Nat} (room : count ≤ config.width.maxHandle) :
    ((among config buffers).run
      (List.replicate count (.encode name offset text))).codec.arena.next = count + 1 := by
  induction count with
  | zero => rfl
  | succ count ih =>
      have next := ih (Nat.le_of_succ_le room)
      rw [List.replicate_succ', run_append]
      have formed := wellFormed_run_among config buffers
        (List.replicate count (.encode name offset text))
      have same := config_run (among config buffers)
        (List.replicate count (.encode name offset text))
      have size := size_run (among config buffers)
        (List.replicate count (.encode name offset text)) name
      generalize (among config buffers).run (List.replicate count (.encode name offset text)) = now
        at next formed same size
      have fits : now.Fits name offset := by
        rw [Fits, same, size]
        exact inside
      have reply : (now.step (.encode name offset text)).1 = _ :=
        reply_of_clean formed rfl fits clean
      rw [if_pos (by rw [next]; exact room)] at reply
      rcases step_issues formed (.encode name offset text) with ⟨-, -, -, -, counter⟩ | ⟨none, -⟩
      · show (now.step _).2.codec.arena.next = _
        rw [counter, next]
      · rw [reply] at none
        cases none

/-- When all handles of the narrow width are used up, a text is refused also after a release. -/
theorem handles_fresh_run_exhausted :
    let start : Workspace Unit := among { width := .w32 } fun _ => Buffer.filled 4 0
    let full := start.run (List.replicate SlotWidth.w32.maxHandle (.encode () 0 "a"))
    (((full.step (.encode () 0 "b")).2.run [.releaseAll () (.single .w32)]).step
      (.encode () 0 "c")).1 = .error .handleOverflow := by
  intro start full
  -- the run is long, so its end is named and only the facts about it are used
  have inside : 0 + SlotWidth.w32.bytes ≤ (Buffer.filled 4 0).size := by decide
  have last : ∀ count, count = SlotWidth.w32.maxHandle →
      ((((start.run (List.replicate count (.encode () 0 "a"))).step (.encode () 0 "b")).2.run
        [.releaseAll () (.single .w32)]).step (.encode () 0 "c")).1 = .error .handleOverflow := by
    intro count limit
    have next := next_run_replicate { width := .w32 } (fun _ => Buffer.filled 4 0) () 0 "a" inside
      (by decide +kernel) (Nat.le_of_eq limit)
    have formed := wellFormed_run_among { width := .w32 } (fun _ : Unit => Buffer.filled 4 0)
      (List.replicate count (.encode () 0 "a"))
    have same := config_run start (List.replicate count (.encode () 0 "a"))
    have size := size_run start (List.replicate count (.encode () 0 "a")) ()
    obtain ⟨-, -, -, -, -, stays⟩ := handles_fresh_run { width := .w32 }
      (fun _ : Unit => Buffer.filled 4 0) (List.replicate count (.encode () 0 "a"))
    change (start.run _).codec.arena.next = _ at next
    change (start.run _).codec.arena.WellFormed _ at formed
    generalize start.run (List.replicate count (.encode () 0 "a")) = now
      at next formed same size stays ⊢
    have fits : now.Fits () 0 := by
      rw [Fits, same, size]
      exact inside
    have overflow : (now.step (.encode () 0 "b")).1 = .error .handleOverflow := by
      have reply : (now.step (.encode () 0 "b")).1 = _ :=
        reply_of_clean formed rfl fits (by decide +kernel)
      rw [if_neg (by rw [next, limit]; exact Nat.not_succ_le_self _)] at reply
      exact reply
    have last_fits :
        ((now.step (.encode () 0 "b")).2.run [.releaseAll () (.single .w32)]).Fits () 0 := by
      rw [Fits, config_run, size_run, (now.step_effect _).config_eq, (now.step_effect _).size_eq]
      exact fits
    exact stays (.encode () 0 "b") rfl overflow [.releaseAll () (.single .w32)] (.encode () 0 "c") 0
      "c" rfl last_fits (by decide +kernel)
  exact last _ rfl

end Workspace

end StringSlots
