import StringSlots.Proofs.Arena.Ledger
import StringSlots.Proofs.Run.Workspace

/-!
# What runs ask of the arena

A call reaches the arena in two ways: a call that stores a text at a slot inside its buffer asks for
one allocation, and a release asks to free each handle that it meets. `Workspace.requestsOf` lists
the requests of a run, and `arena_run` says that the arena after the run is that of the ledger of
these requests. So what a ledger accounts for holds after every run, whatever the buffers hold and
whoever writes to them (`arena_accounts_run`).
-/

namespace StringSlots

universe u

variable {ι : Type u}

namespace Ledger

/-- Freeing a list of handles one after the other. -/
theorem arena_serveAll_free (ledger : Ledger) (handles : List Handle) :
    (ledger.serveAll (handles.map .free)).arena = ledger.arena.discardAll handles := by
  induction handles generalizing ledger with
  | nil => rfl
  | cons handle rest ih =>
      rw [List.map_cons, serveAll_cons, ih, Arena.discardAll_cons]
      cases freed : ledger.arena.free? handle with
      | none => rw [serve_free_of_none freed, Arena.discard, freed, Option.getD_none]
      | some arena => rw [serve_free_of_some freed, Arena.discard, freed, Option.getD_some]

end Ledger

namespace Workspace

/-- A codec without strings among any buffers. -/
def among (config : CodecConfig) (buffers : ι → Buffer) : Workspace ι :=
  { codec := Codec.new config, buffers }

/-- The slot and the text of a call that stores a text. A member that names no slot gives none. -/
def storing? (workspace : Workspace ι) : Call ι → Option (Nat × String)
  | .encode _ offset text => some (offset, text)
  | .encodeMember _ layout record name text =>
      match workspace.codec.memberSlot layout record name with
      | .ok offset => some (offset, text)
      | .error _ => none
  | _ => none

/-- Whether the slot at an offset lies inside a buffer. -/
def Fits (workspace : Workspace ι) (name : ι) (offset : Nat) : Prop :=
  offset + workspace.codec.config.width.bytes ≤ (workspace.buffers name).size

instance (workspace : Workspace ι) (name : ι) (offset : Nat) :
    Decidable (workspace.Fits name offset) :=
  inferInstanceAs (Decidable (_ ≤ _))

/-- What a call asks of the arena. -/
def requests (workspace : Workspace ι) (call : Call ι) : List ArenaRequest :=
  match workspace.storing? call with
  | some (offset, text) => if workspace.Fits call.target offset then [.alloc text] else []
  | none => (handlesOf (workspace.met call)).map .free

variable [DecidableEq ι]

/-- What a run asks of the arena. -/
def requestsOf (workspace : Workspace ι) : List (Call ι) → List ArenaRequest
  | [] => []
  | call :: rest => workspace.requests call ++ (workspace.step call).2.requestsOf rest

variable {workspace : Workspace ι} {call : Call ι}

/-! ## Calls that store and calls that do not -/

/-- A call that stores a text is `encode` at its slot. -/
theorem step_of_storing {offset : Nat} {text : String}
    (storing : workspace.storing? call = some (offset, text)) :
    workspace.step call = workspace.commit call.target .stored
      (workspace.codec.encode text (workspace.buffers call.target) offset) := by
  cases call with
  | encode name place other =>
      cases storing
      rfl
  | encodeMember name layout record member other =>
      rw [storing?] at storing
      split at storing
      · next place =>
        cases storing
        exact step_encodeMember_of_ok place
      · cases storing
  | _ => cases storing

/-- A call that stores a text at a slot inside its buffer answers what the arena answers. -/
theorem step_of_fits {offset : Nat} {text : String}
    (storing : workspace.storing? call = some (offset, text))
    (inside : workspace.Fits call.target offset) :
    workspace.step call =
      match workspace.codec.arena.alloc text with
      | .error error => (.error error, workspace)
      | .ok (handle, arena) =>
          (.ok (.stored handle), workspace.put call.target { workspace.codec with arena }
            ((workspace.buffers call.target).overwrite offset
              (workspace.codec.config.image (some handle)))) := by
  rw [Fits] at inside
  rw [step_of_storing storing, Codec.encode_eq, if_pos inside]
  cases workspace.codec.arena.alloc text with
  | error error => exact commit_refuse workspace call.target .stored error
  | ok new => rfl

/-- A call that stores a text at a slot that leaves its buffer is refused. -/
theorem step_of_not_fits {offset : Nat} {text : String}
    (storing : workspace.storing? call = some (offset, text))
    (outside : ¬workspace.Fits call.target offset) :
    workspace.step call =
      (.error (workspace.codec.outOfBounds (workspace.buffers call.target) offset), workspace) := by
  rw [Fits] at outside
  rw [step_of_storing storing, Codec.encode_eq, if_neg outside]
  exact commit_refuse workspace call.target .stored _

/-- A member under which no text is stored names no slot, and the call is refused. -/
theorem step_of_unplaced {name : ι} {layout : CompoundLayout} {record : Nat} {member text : String}
    (storing : workspace.storing? (.encodeMember name layout record member text) = none) :
    ∃ error, workspace.codec.memberSlot layout record member = .error error ∧
      workspace.step (.encodeMember name layout record member text) =
        (.error error, workspace) := by
  rw [storing?] at storing
  split at storing
  · cases storing
  · next error place => exact ⟨error, place, step_encodeMember_of_error place⟩

/-- A call that stores no text frees the handles that it meets and does nothing else to the
arena. -/
theorem arena_of_not_storing (storing : workspace.storing? call = none) :
    (workspace.step call).2.codec.arena =
      workspace.codec.arena.discardAll (handlesOf (workspace.met call)) := by
  cases call with
  | encode name offset text => cases storing
  | encodeMember name layout record member text =>
      obtain ⟨error, -, refused⟩ := step_of_unplaced storing
      rw [refused]
      rfl
  | encodeNull name offset =>
      rcases workspace.codec.encodeNull_cases (workspace.buffers name) offset with
        ⟨error, refused⟩ | ⟨-, done⟩
      · rw [step, refused]
        rfl
      · rw [step, done]
        rfl
  | decode name offset => rfl
  | decodeMember name layout record member => rfl
  | write name offset image =>
      rw [step]
      split <;> rfl
  | releaseAll name schema =>
      have follows := workspace.codec.releaseAll_follows (workspace.buffers name) schema
      exact congrArg Codec.arena follows.codec_eq
  | releaseRecord name schema =>
      have follows := workspace.codec.releaseRecord_follows (workspace.buffers name) schema
      exact congrArg Codec.arena follows.codec_eq
  | releaseLayout name layout =>
      have follows := workspace.codec.releaseLayout_follows (workspace.buffers name) layout
      exact congrArg Codec.arena follows.codec_eq

/-! ## The arena of a run -/

/-- The arena after a call is that of the ledger of its requests. -/
theorem arena_step {ledger : Ledger} (same : ledger.arena = workspace.codec.arena) :
    (ledger.serveAll (workspace.requests call)).arena = (workspace.step call).2.codec.arena := by
  rw [requests]
  cases storing : workspace.storing? call with
  | none => rw [arena_of_not_storing storing, Ledger.arena_serveAll_free, same]
  | some slot =>
      obtain ⟨offset, text⟩ := slot
      dsimp only
      by_cases inside : workspace.Fits call.target offset
      · rw [step_of_fits storing inside, if_pos inside, Ledger.serveAll_cons, Ledger.serveAll_nil]
        cases stored : workspace.codec.arena.alloc text with
        | error error => rw [Ledger.serve_alloc_of_error (same ▸ stored), same]
        | ok new =>
            rw [Ledger.serve_alloc_of_ok (same ▸ stored)]
            rfl
      · -- a slot that leaves the buffer is refused before the arena is asked
        rw [step_of_not_fits storing inside, if_neg inside, Ledger.serveAll_nil, same]

/-- The arena after a run is that of the ledger of its requests. -/
theorem arena_run {ledger : Ledger} (same : ledger.arena = workspace.codec.arena)
    (calls : List (Call ι)) :
    (ledger.serveAll (workspace.requestsOf calls)).arena =
      (workspace.run calls).codec.arena := by
  induction calls generalizing workspace ledger with
  | nil => exact same
  | cons call rest ih =>
      rw [requestsOf, Ledger.serveAll_append, run_cons]
      exact ih (arena_step same)

theorem wellFormed_run_among (config : CodecConfig) (buffers : ι → Buffer)
    (calls : List (Call ι)) :
    ((among config buffers).run calls).codec.arena.WellFormed config.width :=
  wellFormed_run (Arena.WellFormed.empty config.width) calls

/-- After every list of requests the ledger accounts for the arena. So it does after every run of
calls on any buffers, and after such a run a slot decodes as an unknown handle exactly when its
handle is not live. -/
theorem arena_accounts_run (config : CodecConfig) (buffers : ι → Buffer) :
    (∀ requests : List ArenaRequest,
      ((Ledger.opened config.width).serveAll requests).Accounts) ∧
    ∀ calls : List (Call ι),
      let workspace := (among config buffers).run calls
      let ledger := (Ledger.opened config.width).serveAll ((among config buffers).requestsOf calls)
      workspace.codec.arena = ledger.arena ∧ ledger.Accounts ∧
      ∀ (buffer : Buffer) (offset raw : Nat),
        workspace.codec.decode buffer offset = .error (.unknownHandle raw) ↔
          offset + config.width.bytes ≤ buffer.size ∧
            ∃ handle, buffer.handleAt config offset = some handle ∧ handle.value = raw ∧
              workspace.codec.arena.contains handle = false := by
  have balanced := fun requests => (Ledger.Balanced.opened config.width).serveAll requests
  refine ⟨fun requests => (balanced requests).accounts, ?_⟩
  intro calls workspace ledger
  refine ⟨(arena_run rfl calls).symm, (balanced _).accounts, ?_⟩
  intro buffer offset raw
  have formed := wellFormed_run_among config buffers calls
  have same := config_run (among config buffers) calls
  have decoded := Codec.decode_eq_unknownHandle_iff workspace.codec buffer offset formed raw
  rw [same] at decoded
  exact decoded

end Workspace

end StringSlots
