import Mathlib.Algebra.Order.Floor.Div
import StringSlots.Proofs.Layout.Placement
import StringSlots.Proofs.Record.Words
import StringSlots.Proofs.Release.Reference

/-!
# The walk of a release pass

A release pass walks from record to record by adding the record size to the start of the last one,
and it adds an offset and the slot width to find the end of a slot. `ReleasePass.walk?` is this loop
in machine words that wrap around, with a bound on its turns. `Codec.releaseAll_walks_safely` says
that it is the pass over the exact positions: a buffer has fewer than `2 ^ 63` bytes, so a record
that starts inside it starts at zero or is itself shorter than that, and no sum wraps around.
-/

namespace StringSlots

/-! ## Turns -/

namespace SlotSchema

variable (schema : SlotSchema) {stop base : Nat}

/-- The slots that lie wholly below `stop`, in the records from `base` on; those of `positionsBelow`
are the ones from zero on. -/
def positionsFrom (stop base : Nat) : List Nat :=
  ((schema.recordStarts stop base).flatMap schema.slotsOfRecord).filter fun position =>
    position + schema.width.bytes ≤ stop

theorem positionsFrom_of_le (reached : stop ≤ base) : schema.positionsFrom stop base = [] := by
  rw [positionsFrom, recordStarts_of_le schema reached]
  rfl

theorem positionsFrom_of_lt (below : base < stop) :
    schema.positionsFrom stop base =
      (schema.slotsOfRecord base).filter (fun position => position + schema.width.bytes ≤ stop) ++
        schema.positionsFrom stop (base + schema.recordSize) := by
  rw [positionsFrom, recordStarts_of_lt schema below, List.flatMap_cons, List.filter_append]
  rfl

/-- There are as many starts as records, with a cut one at the end counted. -/
theorem length_recordStarts (stop base : Nat) :
    (schema.recordStarts stop base).length = (stop - base) ⌈/⌉ schema.recordSize := by
  have size_pos := schema.recordSize_pos
  induction base using recordStarts.induct schema stop with
  | case1 base below ih =>
      -- one record more than from the next start on, which may lie behind the end
      have rest : (stop - (base + schema.recordSize) + schema.recordSize - 1) / schema.recordSize =
          (stop - base - 1) / schema.recordSize := by
        by_cases whole : base + schema.recordSize ≤ stop
        · rw [show stop - (base + schema.recordSize) + schema.recordSize - 1 = stop - base - 1 by
            omega]
        · rw [Nat.div_eq_of_lt (by omega), Nat.div_eq_of_lt (by omega)]
      rw [recordStarts_of_lt schema below, List.length_cons, ih, Nat.ceilDiv_eq_add_pred_div,
        Nat.ceilDiv_eq_add_pred_div, rest,
        show stop - base + schema.recordSize - 1 = stop - base - 1 + schema.recordSize by omega,
        Nat.add_div_right _ size_pos]
  | case2 base reached =>
      rw [recordStarts_of_le schema (by omega), show stop - base = 0 by omega]
      simp

/-- A record that starts inside a buffer at zero or behind another one ends at an address. -/
theorem next_lt (size_lt : schema.recordSize < addressSpace)
    (stop_lt : stop < 0x8000_0000_0000_0000) (start : base = 0 ∨ schema.recordSize ≤ base)
    (below : base < stop) : base + schema.recordSize < addressSpace := by
  rcases start with first | later
  · rw [first, Nat.zero_add]
    exact size_lt
  · unfold addressSpace
    omega

theorem start_of_mem (mem : base ∈ schema.recordStarts stop 0) :
    (base = 0 ∨ schema.recordSize ≤ base) ∧ base < stop := by
  obtain ⟨record, rfl, below⟩ := schema.mem_recordStarts_iff.1 mem
  refine ⟨?_, below⟩
  cases record with
  | zero => exact Or.inl (by simp)
  | succ record =>
      rw [Nat.succ_mul]
      exact Or.inr (by omega)

end SlotSchema

/-! ## The loop in machine words -/

namespace ReleasePass

/-- The visits of the slots at some offsets of the record at `base`. Sums are those of machine
words, and a slot that ends behind `stop` is passed over. -/
def visitOffsets (config : CodecConfig) (width : SlotWidth) (stop base : UInt64)
    (offsets : List Nat) (pass : ReleasePass) : Except SlotError ReleasePass :=
  offsets.foldlM (fun pass offset =>
    let place := base + .ofNat offset
    if stop < place + .ofNat width.bytes then .ok pass else visit config pass place.toNat) pass

/-- The visits of the records from `base` on in machine words; `none` when the end is not reached
after the given number of turns. -/
def walk? (config : CodecConfig) (schema : SlotSchema) (stop : UInt64) :
    Nat → UInt64 → ReleasePass → Option (Except SlotError ReleasePass)
  | 0, base, pass => if base < stop then none else some (.ok pass)
  | turns + 1, base, pass =>
      if base < stop then
        match visitOffsets config schema.width stop base schema.offsets pass with
        | .error error => some (.error error)
        | .ok next => walk? config schema stop turns (base + .ofNat schema.recordSize) next
      else some (.ok pass)

variable {config : CodecConfig} {schema : SlotSchema} {stop base : UInt64} {pass next : ReleasePass}
  {position : Nat} {positions : List Nat}

/-! ### Visits succeed -/

theorem exists_visit (inside : position + config.width.bytes ≤ pass.buffer.size) :
    ∃ next, visit config pass position = .ok next ∧ next.buffer.size = pass.buffer.size := by
  cases held : pass.buffer.handleAt config position with
  | none => exact ⟨_, visit_of_null inside held, rfl⟩
  | some handle =>
      cases live : pass.arena.contains handle with
      | false => exact ⟨_, visit_of_dead inside held live, rfl⟩
      | true => exact ⟨_, visit_of_live inside held live, size_cleared _ _ _⟩

theorem visitAll_cons_of_ok (rest : List Nat) (done : visit config pass position = .ok next) :
    visitAll config pass (position :: rest) = visitAll config next rest := by
  rw [visitAll, List.foldlM_cons, done]
  rfl

theorem visitAll_append_of_ok (rest : List Nat) (done : visitAll config pass positions = .ok next) :
    visitAll config pass (positions ++ rest) = visitAll config next rest := by
  rw [visitAll] at done
  rw [visitAll, List.foldlM_append, done]
  rfl

/-- Visits of slots inside the buffer succeed. The buffer keeps its size, so the slots that are
still to be visited stay inside. -/
theorem exists_visitAll
    (inside : ∀ position ∈ positions, position + config.width.bytes ≤ pass.buffer.size) :
    ∃ next, visitAll config pass positions = .ok next ∧
      next.buffer.size = pass.buffer.size := by
  induction positions generalizing pass with
  | nil => exact ⟨pass, rfl, rfl⟩
  | cons position rest ih =>
      obtain ⟨here, later⟩ := List.forall_mem_cons.1 inside
      obtain ⟨next, visited, size⟩ := exists_visit here
      rw [← size] at later
      obtain ⟨last, done, last_size⟩ := ih later
      exact ⟨last, (visitAll_cons_of_ok rest visited).trans done, last_size.trans size⟩

/-- A pass has no failure to report but that of an unknown handle. -/
theorem cause_of_result {error : SlotError} (failed : pass.result = .error error) :
    ∃ raw, error = .unknownHandle raw := by
  rw [result] at failed
  split at failed
  · next handle _ => exact ⟨handle.value, (Except.error.inj failed).symm⟩
  · cases failed

/-! ### Words agree with numbers -/

/-- One turn of the loop visits the slots of its record that end below `stop`. -/
theorem visitOffsets_eq {width : SlotWidth} (offsets : List Nat)
    (fits : ∀ offset ∈ offsets, base.toNat + offset + width.bytes < addressSpace) :
    visitOffsets config width stop base offsets pass =
      visitAll config pass ((offsets.map (base.toNat + ·)).filter fun position =>
        position + width.bytes ≤ stop.toNat) := by
  induction offsets generalizing pass with
  | nil => rfl
  | cons offset rest ih =>
      obtain ⟨here, later⟩ := List.forall_mem_cons.1 fits
      have place : (base + UInt64.ofNat offset).toNat = base.toNat + offset :=
        Word.toNat_add_ofNat (by omega)
      have ends : (base + UInt64.ofNat offset + UInt64.ofNat width.bytes).toNat =
          base.toNat + offset + width.bytes := by
        rw [Word.toNat_add_ofNat (by rwa [place]), place]
      -- from here on both sides compare and visit the same numbers
      rw [visitOffsets, List.foldlM_cons]
      simp only [UInt64.lt_iff_toNat_lt, ends, place]
      by_cases cut : stop.toNat < base.toNat + offset + width.bytes
      · rw [if_pos cut, List.map_cons, List.filter_cons_of_neg (by simpa using cut), ← ih later]
        rfl
      · rw [if_neg cut, List.map_cons, List.filter_cons_of_pos (by simpa using cut)]
        cases visited : visit config pass (base.toNat + offset) with
        | error error =>
            rw [visitAll, List.foldlM_cons, visited]
            rfl
        | ok next =>
            rw [visitAll_cons_of_ok _ visited, ← ih later]
            rfl

/-- Behind the end there is nothing left to visit. -/
theorem walk?_of_le (reached : stop.toNat ≤ base.toNat) (turns : Nat) :
    walk? config schema stop turns base pass =
      some (visitAll config pass (schema.positionsFrom stop.toNat base.toNat)) := by
  have behind : ¬base < stop := by
    rw [UInt64.lt_iff_toNat_lt]
    omega
  rw [schema.positionsFrom_of_le reached]
  cases turns with
  | zero => exact if_neg behind
  | succ turns => exact if_neg behind

/-- The loop in machine words is the pass over the exact positions, and takes as many turns as there
are records. The induction is on the turns; every start but zero is at least a record size. -/
theorem walk?_eq (width : schema.width = config.width) (size_lt : schema.recordSize < addressSpace)
    (stop_lt : stop.toNat < 0x8000_0000_0000_0000) (turns : Nat)
    (start : base.toNat = 0 ∨ schema.recordSize ≤ base.toNat)
    (covers : stop.toNat ≤ pass.buffer.size) :
    walk? config schema stop turns base pass =
      if (schema.recordStarts stop.toNat base.toNat).length ≤ turns then
        some (visitAll config pass (schema.positionsFrom stop.toNat base.toNat))
      else none := by
  induction turns generalizing base pass with
  | zero =>
      -- without turns the loop is done only where no record starts
      by_cases below : base.toNat < stop.toNat
      · rw [walk?, if_pos (UInt64.lt_iff_toNat_lt.2 below), schema.recordStarts_of_lt below,
          if_neg (by simp)]
      · rw [walk?_of_le (Nat.le_of_not_lt below),
          schema.recordStarts_of_le (Nat.le_of_not_lt below), if_pos (by simp)]
  | succ turns ih =>
      by_cases below : base.toNat < stop.toNat
      · have next_lt := schema.next_lt size_lt stop_lt start below
        have advanced : (base + UInt64.ofNat schema.recordSize).toNat =
            base.toNat + schema.recordSize := Word.toNat_add_ofNat next_lt
        have fits : ∀ offset ∈ schema.offsets,
            base.toNat + offset + schema.width.bytes < addressSpace := by
          intro offset mem
          have inside := schema.inside offset mem
          omega
        have inside : ∀ position ∈ (schema.slotsOfRecord base.toNat).filter fun position =>
            position + schema.width.bytes ≤ stop.toNat,
            position + config.width.bytes ≤ pass.buffer.size := by
          intro position mem
          have ends := of_decide_eq_true (List.mem_filter.1 mem).2
          rw [width] at ends
          omega
        obtain ⟨next, visited, size⟩ := exists_visitAll inside
        have turn : visitOffsets config schema.width stop base schema.offsets pass = .ok next :=
          (visitOffsets_eq schema.offsets fits).trans visited
        -- the rest of the loop starts with one turn less at the next record
        rw [walk?, if_pos (UInt64.lt_iff_toNat_lt.2 below), turn]
        dsimp only
        rw [ih (by omega) (by omega), advanced, schema.recordStarts_of_lt below,
          schema.positionsFrom_of_lt below, visitAll_append_of_ok _ visited, List.length_cons]
        simp only [Nat.succ_le_succ_iff]
      · rw [walk?_of_le (Nat.le_of_not_lt below),
          schema.recordStarts_of_le (Nat.le_of_not_lt below), if_pos (by simp)]

end ReleasePass

/-! ## A release -/

namespace Codec

/-- What holds of the loop of a release whose pass ends at `stop`. -/
structure WalksSafely (codec : Codec) (buffer : Buffer) (schema : SlotSchema) (stop : Nat) :
    Prop where
  /-- Every record that starts below the end takes one turn. -/
  turns : (schema.recordStarts stop 0).length = stop ⌈/⌉ schema.recordSize
  /-- No sum leaves the address space: neither the start of a next record nor a slot and its end. -/
  next_lt : ∀ base ∈ schema.recordStarts stop 0, base + schema.recordSize < addressSpace
  slot_lt : ∀ base ∈ schema.recordStarts stop 0, ∀ offset ∈ schema.offsets,
    base + offset < addressSpace ∧ base + offset + schema.width.bytes < addressSpace
  /-- So the loop in machine words is the pass, once it has that many turns. -/
  walk_eq : ∀ turns,
    ReleasePass.walk? codec.config schema (.ofNat stop) turns 0 (.start codec.arena buffer) =
      if stop ⌈/⌉ schema.recordSize ≤ turns then
        some (ReleasePass.visitAll codec.config (.start codec.arena buffer)
          (schema.positionsBelow stop))
      else none
  /-- When a slot is visited it can be read and cleared. -/
  access : ∀ front position rest, schema.positionsBelow stop = front ++ position :: rest →
    ∃ pass, ReleasePass.visitAll codec.config (.start codec.arena buffer) front = .ok pass ∧
      (∃ held, (codec.view pass.buffer).readHandle position = .ok held) ∧
      ∃ cleared, (codec.view pass.buffer).clearSlot position = .ok cleared
  /-- The pass succeeds, and what it met is the answer. -/
  answer : ∃ pass,
    ReleasePass.visitAll codec.config (.start codec.arena buffer) (schema.positionsBelow stop) =
        .ok pass ∧
      (codec.releaseAll buffer schema).result = pass.result
  unknownHandle : ∀ error, (codec.releaseAll buffer schema).result = .error error →
    ∃ raw, error = .unknownHandle raw

variable {codec : Codec} {buffer : Buffer} {schema : SlotSchema} {stop : Nat} {notes : List Event}

theorem stop_le_of_passEnd {recordSize length : Nat}
    (reached : codec.passEnd recordSize length = .ok (stop, notes)) : stop ≤ length := by
  rw [passEnd_eq] at reached
  split at reached
  · cases reached
  · cases reached
    rw [stopOf]
    split
    · exact Nat.le_refl length
    · exact Nat.sub_le _ _

/-- The accesses to a slot inside the buffer succeed, also after visits of other slots. -/
theorem access_of_inside {front : List Nat} {position : Nat}
    (front_inside : ∀ position ∈ front, position + codec.config.width.bytes ≤ buffer.size)
    (inside : position + codec.config.width.bytes ≤ buffer.size) :
    ∃ pass, ReleasePass.visitAll codec.config (.start codec.arena buffer) front = .ok pass ∧
      (∃ held, (codec.view pass.buffer).readHandle position = .ok held) ∧
      ∃ cleared, (codec.view pass.buffer).clearSlot position = .ok cleared := by
  obtain ⟨pass, visited, size⟩ :=
    @ReleasePass.exists_visitAll codec.config (.start codec.arena buffer) front front_inside
  -- no visit changes the size of the buffer
  have still : position + codec.config.width.bytes ≤ pass.buffer.size := by
    rw [size]
    exact inside
  have read := RecordView.readHandle_eq pass.buffer codec.config position
  have written := RecordView.writeHandle_eq pass.buffer codec.config position none
  rw [if_pos still] at read written
  exact ⟨pass, visited, ⟨_, read⟩, ⟨_, written⟩⟩

/-- A release is safe in machine words. Its loop ends after as many turns as there are records, a
cut one included, no sum wraps around on the way, and all slots that it comes to can be read and
cleared. So once the loop has started, the only failure is that of an unknown handle. -/
theorem releaseAll_walks_safely {recordSize : Nat} {offsets : List Nat}
    (accepted : SlotSchema.ofOffsets recordSize codec.config.width offsets = .ok schema)
    (size_lt : recordSize < addressSpace) (buffer_lt : buffer.size < 0x8000_0000_0000_0000) :
    schema.recordSize ≠ 0 ∧
      ∀ stop notes, codec.passEnd schema.recordSize buffer.size = .ok (stop, notes) →
        codec.WalksSafely buffer schema stop := by
  obtain ⟨rfl, width, -⟩ := SlotSchema.parts_of_ofOffsets accepted
  refine ⟨Nat.ne_of_gt schema.recordSize_pos, ?_⟩
  intro stop notes reached
  have stop_le := stop_le_of_passEnd reached
  have stop_lt : stop < 0x8000_0000_0000_0000 := by omega
  have turns : (schema.recordStarts stop 0).length = stop ⌈/⌉ schema.recordSize :=
    schema.length_recordStarts stop 0
  have next_lt : ∀ base ∈ schema.recordStarts stop 0, base + schema.recordSize < addressSpace := by
    intro base mem
    obtain ⟨start, below⟩ := schema.start_of_mem mem
    exact schema.next_lt size_lt stop_lt start below
  have inside : ∀ position ∈ schema.positionsBelow stop,
      position + codec.config.width.bytes ≤ buffer.size := by
    intro position mem
    have inside := (schema.mem_positionsBelow_iff.1 mem).inside
    rw [width] at inside
    omega
  obtain ⟨pass, visited, -⟩ :=
    @ReleasePass.exists_visitAll codec.config (.start codec.arena buffer) _ inside
  have answer : (codec.releaseAll buffer schema).result = pass.result := by
    rw [releaseAll, checkWidth, if_pos width]
    simp only [reached, visited]
  refine
    { turns := turns
      next_lt := next_lt
      slot_lt := ?_
      walk_eq := ?_
      access := ?_
      answer := ⟨pass, visited, answer⟩
      unknownHandle := fun _ failed => ReleasePass.cause_of_result (answer.symm.trans failed) }
  · -- a slot ends before the next record starts
    intro base base_mem offset offset_mem
    have ends := next_lt base base_mem
    have inside := schema.inside offset offset_mem
    exact ⟨by omega, by omega⟩
  · intro bound
    have stop_eq : (UInt64.ofNat stop).toNat = stop :=
      Word.toNat_ofNat (by unfold addressSpace; omega)
    have walked : ReleasePass.walk? codec.config schema (.ofNat stop) bound 0
        (.start codec.arena buffer) = _ :=
      ReleasePass.walk?_eq width size_lt (by rwa [stop_eq]) bound (Or.inl UInt64.toNat_zero)
        (by rwa [stop_eq])
    rw [walked, stop_eq, UInt64.toNat_zero, turns]
    rfl
  · intro front position rest split
    rw [split] at inside
    obtain ⟨front_inside, later⟩ := List.forall_mem_append.1 inside
    exact access_of_inside front_inside (later position List.mem_cons_self)

/-- Records of `2 ^ 64 - 1` bytes with a slot at either end. -/
def widest : SlotSchema where
  recordSize := 0xffff_ffff_ffff_ffff
  width := .w64
  offsets := [0, 0xffff_ffff_ffff_fff7]
  recordSize_pos := by decide
  inside := by decide
  apart := List.pairwise_pair.2 (Or.inl (by decide))

/-- Of a record that is cut after twelve bytes only the first slot is visited, in one turn. -/
theorem releaseAll_walks_safely_widest :
    let codec := Codec.new { width := .w64, tail := .process }
    let buffer := Buffer.filled 12 1
    codec.WalksSafely buffer widest 12 ∧ widest.positionsBelow 12 = [0] ∧
      ReleasePass.walk? codec.config widest 12 0 0 (.start codec.arena buffer) = none ∧
      (∃ pass, ReleasePass.walk? codec.config widest 12 1 0 (.start codec.arena buffer) =
        some (.ok pass)) ∧
      (codec.releaseAll buffer widest).result = .error (.unknownHandle 0x0101_0101_0101_0101) := by
  intro codec buffer
  obtain ⟨-, walks⟩ := @releaseAll_walks_safely codec buffer widest _ _ widest.ofOffsets_eq
    (by decide) (by decide)
  have safe : codec.WalksSafely buffer widest 12 := walks 12 [] (by decide)
  obtain ⟨pass, visited, -⟩ := safe.answer
  refine ⟨safe, ?_, (safe.walk_eq 0).trans (if_neg (by decide)), ⟨pass, ?_⟩, by decide +kernel⟩
  · rw [SlotSchema.positionsBelow, SlotSchema.recordStarts_of_lt _ (by decide),
      SlotSchema.recordStarts_of_le _ (by decide)]
    decide
  · refine (safe.walk_eq 1).trans ?_
    rw [if_pos (by decide), visited]

end Codec

end StringSlots
