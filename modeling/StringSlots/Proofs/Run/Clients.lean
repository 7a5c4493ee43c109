import StringSlots.Proofs.Run.Contents

/-!
# Clients of one codec

Several clients share a codec; each calls it for its own buffers. `client_replies_alone` says that
none of them can tell: as long as the handles do not run out, the replies to the calls of a client,
with the handle numbers erased, are those that it gets when it makes its calls alone.

The two runs are compared step by step. `Agree` relates them: the slots of the client have the same
contents in both, though they hold different handles, and the run alone has used no more handles. A
call of the client is made in both runs, a call of another client in the joint run only.
-/

namespace StringSlots

universe u v

variable {ι : Type u}

namespace Workspace

variable [DecidableEq ι]

/-- The replies of a run to the calls on some of the buffers. -/
def repliesTo (workspace : Workspace ι) (mine : ι → Bool) (calls : List (Call ι)) : List Reply :=
  ((calls.zip (workspace.replies calls)).filter fun event => mine event.1.target).map Prod.snd

theorem repliesTo_cons (workspace : Workspace ι) (mine : ι → Bool) (call : Call ι)
    (rest : List (Call ι)) :
    workspace.repliesTo mine (call :: rest) =
      if mine call.target then
        (workspace.step call).1 :: (workspace.step call).2.repliesTo mine rest
      else (workspace.step call).2.repliesTo mine rest := by
  rw [repliesTo, replies, List.zip_cons_cons, List.filter_cons]
  split <;> rfl

end Workspace

namespace Setup

variable {setup : Setup ι} {mine : ι → Bool} {joint alone : Workspace ι}

/-- The joint run and the run of one client alone: the client's slots have the same contents, and
the run alone has used no more handles. -/
structure Agree (setup : Setup ι) (mine : ι → Bool) (joint alone : Workspace ι) : Prop where
  joint_owned : setup.Owned joint
  alone_owned : setup.Owned alone
  next_le : alone.codec.arena.next ≤ joint.codec.arena.next
  same : ∀ {name place}, mine name = true → setup.IsSlot name place →
    joint.content name place = alone.content name place

namespace Agree

theorem start (setup : Setup ι) (mine : ι → Bool) : setup.Agree mine setup.start setup.start where
  joint_owned := Owned.start
  alone_owned := Owned.start
  next_le := Nat.le_refl _
  same _ _ := rfl

theorem hasRoom (agree : setup.Agree mine joint alone)
    (room : joint.codec.arena.next ≤ setup.config.width.maxHandle) :
    joint.hasRoom = true ∧ alone.hasRoom = true := by
  have joint_limit := agree.joint_owned.formed.limit
  have alone_limit := agree.alone_owned.formed.limit
  have le := agree.next_le
  exact ⟨decide_eq_true (by omega), decide_eq_true (by omega)⟩

variable [DecidableEq ι] {call : Call ι}

/-- A call of the client is answered alike in both runs. -/
theorem reply_eq (agree : setup.Agree mine joint alone)
    (room : joint.codec.arena.next ≤ setup.config.width.maxHandle)
    (permits : setup.Permits call) (own : mine call.target = true) :
    Reply.anonymous (joint.step call).1 = Reply.anonymous (alone.step call).1 := by
  obtain ⟨joint_room, alone_room⟩ := agree.hasRoom room
  -- both replies are computed from the same contents
  rw [agree.joint_owned.step_reply permits, agree.alone_owned.step_reply permits, joint_room,
    alone_room]
  exact answer_congr true permits fun place slot => agree.same own slot

/-- A call of the client is made in both runs. -/
theorem step_both (agree : setup.Agree mine joint alone)
    (room : joint.codec.arena.next ≤ setup.config.width.maxHandle)
    (permits : setup.Permits call) (own : mine call.target = true) :
    setup.Agree mine (joint.step call).2 (alone.step call).2 := by
  obtain ⟨joint_room, alone_room⟩ := agree.hasRoom room
  refine ⟨agree.joint_owned.step permits, agree.alone_owned.step permits, ?_, ?_⟩
  · -- both runs take the same number of handles
    rw [agree.joint_owned.step_next permits, agree.alone_owned.step_next permits, joint_room,
      alone_room]
    exact Nat.add_le_add_right agree.next_le _
  · intro name place name_mine slot
    rw [agree.joint_owned.step_content permits slot, agree.alone_owned.step_content permits slot,
      joint_room, alone_room]
    split
    · next here =>
      rw [here] at slot
      exact contentsAfter_congr true permits (agree.same own slot)
    · exact agree.same name_mine slot

/-- A call of another client is made in the joint run only. -/
theorem step_joint (agree : setup.Agree mine joint alone) (permits : setup.Permits call)
    (foreign : mine call.target = false) : setup.Agree mine (joint.step call).2 alone := by
  refine ⟨agree.joint_owned.step permits, agree.alone_owned, ?_, ?_⟩
  · exact Nat.le_trans agree.next_le (joint.step_effect call).next_le
  · intro name place name_mine slot
    have other : name ≠ call.target := by
      rintro rfl
      rw [foreign] at name_mine
      cases name_mine
    rw [agree.joint_owned.step_content permits slot, if_neg other]
    exact agree.same name_mine slot

/-- The replies to the client along the two runs. -/
theorem replies_eq (agree : setup.Agree mine joint alone) (calls : List (Call ι))
    (permits : ∀ call ∈ calls, setup.Permits call)
    (room : (joint.run calls).codec.arena.next ≤ setup.config.width.maxHandle) :
    (joint.repliesTo mine calls).map Reply.anonymous =
      (alone.replies (calls.filter fun call => mine call.target)).map Reply.anonymous := by
  induction calls generalizing joint alone with
  | nil => rfl
  | cons call rest ih =>
      obtain ⟨permitted, rest_permitted⟩ := List.forall_mem_cons.1 permits
      -- the counter never shrinks, so there is room at the end only if there is room now
      have now : joint.codec.arena.next ≤ setup.config.width.maxHandle :=
        Nat.le_trans (joint.next_le_run (call :: rest)) room
      rw [Workspace.repliesTo_cons]
      cases own : mine call.target with
      | true =>
          rw [if_pos rfl, List.filter_cons, if_pos own, Workspace.replies, List.map_cons,
            List.map_cons, agree.reply_eq now permitted own,
            ih (agree.step_both now permitted own) rest_permitted room]
      | false =>
          rw [if_neg Bool.false_ne_true, List.filter_cons, if_neg (by simp [own])]
          exact ih (agree.step_joint permitted own) rest_permitted room

end Agree

variable [DecidableEq ι]

/-- Clients that share a codec do not interfere: while the handles last, each client gets the
replies that it gets alone, up to the numbers of the handles. -/
theorem client_replies_alone {γ : Type v} [DecidableEq γ] (setup : Setup ι) (owner : ι → γ)
    (client : γ) (calls : List (Call ι)) (permits : ∀ call ∈ calls, setup.Permits call)
    (room : (setup.start.run calls).codec.arena.next ≤ setup.config.width.maxHandle) :
    (setup.start.repliesTo (fun name => owner name = client) calls).map Reply.anonymous =
      (setup.start.replies (calls.filter fun call => owner call.target = client)).map
        Reply.anonymous :=
  (Agree.start setup fun name => owner name = client).replies_eq calls permits room

/-- Calls of two clients, each of which decodes and releases a string twice. -/
def interleaved : List (Call Bool) :=
  [.encode true 0 "a", .encode false 4 "b", .releaseAll true (.single .w32), .decode false 4,
    .decode true 0, .releaseRecord false (.single .w32), .releaseAll false (.single .w32),
    .releaseAll true (.single .w32), .encode true 4 "c", .decode false 4, .decode true 4]

theorem client_replies_alone_interleaved :
    ((pair .process false).start.repliesTo (fun name => name = true) interleaved).map
        Reply.anonymous =
      ((pair .process false).start.replies
        (interleaved.filter fun call => call.target = true)).map Reply.anonymous :=
  client_replies_alone (pair .process false) id true interleaved (by decide +kernel)
    (by decide +kernel)

end Setup

end StringSlots
