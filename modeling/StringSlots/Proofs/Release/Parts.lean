import Mathlib.Algebra.BigOperators.Ring.List
import Mathlib.Algebra.Ring.Nat
import StringSlots.Proofs.Release.Again

/-!
# Release in parts

A pass over a buffer is a pass over its first records followed by a pass over the rest: the slots of
the rest are visited last (`visited_add`), hold the handles that they hold in the rest alone
(`visits_joins`), and meet an arena from which the handles of the first part are gone
(`freeing_append`, `strays_append`). `releaseAll_joins` states this of the whole call, and
`releaseAll_in_parts` adds that the release of one record is such a part, so that an array is
released record by record.
-/

namespace StringSlots

theorem Arena.discardAll_append (arena : Arena) (first second : List Handle) :
    arena.discardAll (first ++ second) = (arena.discardAll first).discardAll second :=
  List.foldl_append

/-! ## Joined buffers -/

namespace Buffer

/-- A buffer that holds the bytes of two others, one behind the other. -/
structure Joins (whole front rest : Buffer) : Prop where
  size_eq : whole.size = front.size + rest.size
  front_eq : ∀ place < front.size, whole.byte place = front.byte place
  rest_eq : ∀ place < rest.size, whole.byte (front.size + place) = rest.byte place

variable {whole front rest : Buffer}

theorem dvd_length_flatMap {divisor : Nat} {parts : List Buffer}
    (divides : ∀ part ∈ parts, divisor ∣ part.size) :
    divisor ∣ (parts.flatMap bytes).length := by
  rw [List.length_flatMap]
  apply List.dvd_sum
  intro length mem
  obtain ⟨part, part_mem, rfl⟩ := List.mem_map.1 mem
  rw [length_bytes]
  exact divides part part_mem

/-- The bytes of a buffer in two parts. -/
theorem bytes_eq_append (sizes : whole.size = front.size + rest.size) :
    whole.bytes = (List.range front.size).map whole.byte ++
      (List.range rest.size).map fun place => whole.byte (front.size + place) := by
  rw [bytes, sizes, List.range_add, List.map_append, List.map_map]
  rfl

theorem joins_iff : whole.Joins front rest ↔ whole.bytes = front.bytes ++ rest.bytes := by
  constructor
  · intro joins
    rw [bytes_eq_append joins.size_eq, bytes, bytes]
    congr 1
    · exact List.map_congr_left fun place mem => joins.front_eq place (List.mem_range.1 mem)
    · exact List.map_congr_left fun place mem => joins.rest_eq place (List.mem_range.1 mem)
  · intro same
    have sizes := congrArg List.length same
    rw [List.length_append, length_bytes, length_bytes, length_bytes] at sizes
    rw [bytes_eq_append sizes] at same
    obtain ⟨fronts, rests⟩ := List.append_inj same (by simp)
    exact
      { size_eq := sizes
        front_eq := fun place below =>
          List.map_inj_left.1 fronts place (List.mem_range.2 below)
        rest_eq := fun place below =>
          List.map_inj_left.1 rests place (List.mem_range.2 below) }

/-- Slots in the first part of a buffer hold what they hold in this part alone. -/
theorem Joins.handleAt_front (joins : whole.Joins front rest) {config : CodecConfig}
    {offset : Nat} (inside : offset + config.width.bytes ≤ front.size) :
    whole.handleAt config offset = front.handleAt config offset :=
  handleAt_congr fun position _ below => joins.front_eq position (by omega)

/-- Slots in the second part of a buffer hold what they hold in that part alone. -/
theorem Joins.handleAt_rest (joins : whole.Joins front rest) {config : CodecConfig}
    {offset : Nat} (inside : offset + config.width.bytes ≤ rest.size) :
    whole.handleAt config (front.size + offset) = rest.handleAt config offset :=
  handleAt_congr_shift fun distance below => by
    rw [Nat.add_assoc]
    exact joins.rest_eq (offset + distance) (by omega)

end Buffer

/-! ## Slots of joined buffers -/

namespace SlotSchema

variable (schema : SlotSchema)

/-- Behind whole records the slots of a buffer are those of the rest, moved. -/
theorem visited_add (policy : TailPolicy) {front : Nat} (whole : schema.recordSize ∣ front)
    (rest : Nat) :
    schema.visited policy (front + rest) =
      schema.visited policy front ++ (schema.visited policy rest).map (front + ·) := by
  obtain ⟨count, rfl⟩ := whole
  have size_pos := schema.recordSize_pos
  have records : (schema.recordSize * count + rest) / schema.recordSize =
      count + rest / schema.recordSize := Nat.mul_add_div size_pos count rest
  have front_records : schema.recordSize * count / schema.recordSize = count :=
    Nat.mul_div_cancel_left count size_pos
  -- a record of the rest lies as many records further back as the front has
  have start : ∀ record, (count + record) * schema.recordSize =
      schema.recordSize * count + record * schema.recordSize := by
    intro record
    rw [Nat.add_mul, Nat.mul_comm count]
  have whole_slots : schema.wholeSlots (schema.recordSize * count + rest) =
      schema.wholeSlots (schema.recordSize * count) ++
        (schema.wholeSlots rest).map (schema.recordSize * count + ·) := by
    simp only [wholeSlots, records, front_records, List.range_add, List.flatMap_append,
      List.flatMap_map, List.map_flatMap, List.map_map, start, Function.comp_def, Nat.add_assoc]
  have tail_slots : schema.tailSlots (schema.recordSize * count + rest) =
      (schema.tailSlots rest).map (schema.recordSize * count + ·) := by
    simp only [tailSlots, records, Nat.mul_add_mod, List.map_map, start, Function.comp_def,
      Nat.add_assoc]
  have no_tail : schema.tailSlots (schema.recordSize * count) = [] := by
    rw [tailSlots, Nat.mul_mod_right, filter_fits_zero, List.map_nil]
  rw [visited, visited, visited]
  split
  · rw [whole_slots, tail_slots, no_tail, List.append_nil, List.map_append, List.append_assoc]
  · exact whole_slots

theorem visited_zero (policy : TailPolicy) : schema.visited policy 0 = [] := by
  have none_whole : schema.wholeSlots 0 = [] := by rw [wholeSlots, Nat.zero_div]; rfl
  have no_tail : schema.tailSlots 0 = [] := by rw [tailSlots, Nat.zero_mod, filter_fits_zero]; rfl
  rw [visited, none_whole, no_tail, List.append_nil, ite_self]

end SlotSchema

/-! ## Visits of joined buffers -/

/-- A visit of a slot that lies further back. -/
def moveVisit (distance : Nat) (visit : Nat × Handle) : Nat × Handle :=
  (distance + visit.1, visit.2)

theorem handlesOf_append (first second : List (Nat × Handle)) :
    handlesOf (first ++ second) = handlesOf first ++ handlesOf second :=
  List.map_append

theorem handlesOf_moved (distance : Nat) (visits : List (Nat × Handle)) :
    handlesOf (visits.map (moveVisit distance)) = handlesOf visits :=
  List.map_map

theorem Buffer.visits_joins {whole front rest : Buffer} (joins : whole.Joins front rest)
    {config : CodecConfig} {first second : List Nat}
    (first_inside : ∀ position ∈ first, position + config.width.bytes ≤ front.size)
    (second_inside : ∀ position ∈ second, position + config.width.bytes ≤ rest.size) :
    whole.visits config (first ++ second.map (front.size + ·)) =
      front.visits config first ++ (rest.visits config second).map (moveVisit front.size) := by
  rw [visits, List.filterMap_append, List.filterMap_map, visits, visits, List.map_filterMap]
  congr 1
  · apply List.filterMap_congr
    intro position mem
    rw [joins.handleAt_front (first_inside position mem)]
  · apply List.filterMap_congr
    intro position mem
    rw [Function.comp_apply, joins.handleAt_rest (second_inside position mem), Option.map_map]
    rfl

section Moved

variable (arena : Arena) (seen : List Handle) (distance : Nat) (visits : List (Nat × Handle))

theorem freeing_moved :
    freeing arena seen (visits.map (moveVisit distance)) =
      (freeing arena seen visits).map (moveVisit distance) := by
  induction visits generalizing seen with
  | nil => rfl
  | cons visit rest ih =>
      rw [List.map_cons, moveVisit, freeing, freeing]
      split
      · rw [ih, List.map_cons, moveVisit]
      · exact ih _

theorem strays_moved :
    strays arena seen (visits.map (moveVisit distance)) =
      (strays arena seen visits).map (moveVisit distance) := by
  induction visits generalizing seen with
  | nil => rfl
  | cons visit rest ih =>
      rw [List.map_cons, moveVisit, strays, strays]
      split
      · exact ih _
      · rw [ih, List.map_cons, moveVisit]

end Moved

/-- What is met later meets an arena from which the handles met before are gone. -/
theorem freeing_append (arena : Arena) (first second : List (Nat × Handle)) :
    freeing arena [] (first ++ second) =
      freeing arena [] first ++ freeing (arena.discardAll (handlesOf first)) [] second := by
  induction first generalizing arena with
  | nil => rfl
  | cons visit rest ih =>
      rw [List.cons_append, handlesOf, List.map_cons, Arena.discardAll_cons]
      cases live : arena.contains visit.2 with
      | true =>
          rw [freeing_cons_of_live _ live, freeing_cons_of_live _ live, ih, List.cons_append]
      | false =>
          rw [freeing_cons_of_dead _ live, freeing_cons_of_dead _ live, ih,
            Arena.discard_of_dead live]

theorem strays_append (arena : Arena) (first second : List (Nat × Handle)) :
    strays arena [] (first ++ second) =
      strays arena [] first ++ strays (arena.discardAll (handlesOf first)) [] second := by
  induction first generalizing arena with
  | nil => rfl
  | cons visit rest ih =>
      rw [List.cons_append, handlesOf, List.map_cons, Arena.discardAll_cons]
      cases live : arena.contains visit.2 with
      | true => rw [strays_cons_of_live _ live, strays_cons_of_live _ live, ih]
      | false =>
          rw [strays_cons_of_dead _ live, strays_cons_of_dead _ live, ih, List.cons_append,
            Arena.discard_of_dead live]

/-- Clearing slots of both parts clears them in the joined buffer. -/
theorem ReleasePass.joins_cleared {whole front rest : Buffer} (joins : whole.Joins front rest)
    (config : CodecConfig) {first : List (Nat × Handle)}
    (first_inside : ∀ visit ∈ first, visit.1 + config.width.bytes ≤ front.size)
    (second : List (Nat × Handle)) :
    (cleared config whole ((first ++ second.map (moveVisit front.size)).map Prod.fst)).Joins
      (cleared config front (first.map Prod.fst)) (cleared config rest (second.map Prod.fst)) where
  size_eq := by simpa using joins.size_eq
  front_eq place below := by
    rw [size_cleared] at below
    -- the slots of the second part lie behind this place
    have slots : (∃ visit ∈ first ++ second.map (moveVisit front.size),
        visit.1 ≤ place ∧ place < visit.1 + config.width.bytes) ↔
        ∃ visit ∈ first, visit.1 ≤ place ∧ place < visit.1 + config.width.bytes := by
      constructor
      · rintro ⟨visit, mem, above, within⟩
        rcases List.mem_append.1 mem with here | moved
        · exact ⟨visit, here, above, within⟩
        · obtain ⟨original, -, rfl⟩ := List.mem_map.1 moved
          simp only [moveVisit] at above
          omega
      · rintro ⟨visit, mem, within⟩
        exact ⟨visit, List.mem_append_left _ mem, within⟩
    rw [Codec.byte_cleared, Codec.byte_cleared, joins.front_eq place below]
    simp only [slots]
  rest_eq place below := by
    rw [size_cleared] at below
    -- the slots of the first part end before this place
    have slots : (∃ visit ∈ first ++ second.map (moveVisit front.size),
        visit.1 ≤ front.size + place ∧ front.size + place < visit.1 + config.width.bytes) ↔
        ∃ visit ∈ second, visit.1 ≤ place ∧ place < visit.1 + config.width.bytes := by
      constructor
      · rintro ⟨visit, mem, above, within⟩
        rcases List.mem_append.1 mem with before | moved
        · have inside := first_inside visit before
          omega
        · obtain ⟨original, original_mem, rfl⟩ := List.mem_map.1 moved
          simp only [moveVisit] at above within
          exact ⟨original, original_mem, by omega, by omega⟩
      · rintro ⟨visit, mem, above, within⟩
        refine ⟨moveVisit front.size visit,
          List.mem_append_right _ (List.mem_map_of_mem mem), ?_, ?_⟩
        · exact Nat.add_le_add_left above front.size
        · simp only [moveVisit]
          omega
    rw [size_cleared, Codec.byte_cleared, Codec.byte_cleared, joins.rest_eq place below]
    simp only [slots]

namespace Codec

/-- The answer of two calls in a row: the first failure, or else both counts together. -/
def both : Except SlotError Nat → Except SlotError Nat → Except SlotError Nat
  | .error error, _ => .error error
  | .ok _, .error error => .error error
  | .ok count, .ok more => .ok (count + more)

theorem passResult_append (arena : Arena) (first second : List (Nat × Handle)) :
    passResult arena (first ++ second) =
      both (passResult arena first)
        (passResult (arena.discardAll (handlesOf first)) second) := by
  rw [passResult, strays_append, freeing_append, List.head?_append, List.length_append, passResult,
    passResult]
  cases (strays arena [] first).head? with
  | some stray => rfl
  | none =>
      cases (strays (arena.discardAll (handlesOf first)) [] second).head? <;> rfl

theorem passResult_moved (arena : Arena) (distance : Nat) (visits : List (Nat × Handle)) :
    passResult arena (visits.map (moveVisit distance)) = passResult arena visits := by
  rw [passResult, strays_moved, freeing_moved, List.head?_map, List.length_map, passResult]
  cases (strays arena [] visits).head? <;> rfl

theorem both_ok_zero (answer : Except SlotError Nat) : both answer (.ok 0) = answer := by
  cases answer <;> rfl

theorem endsPass_passResult (arena : Arena) (visits : List (Nat × Handle)) :
    EndsPass (passResult arena visits) := by
  rcases passResult_cases arena visits with ⟨-, -, counted⟩ | ⟨_, visit, _, -, -, -, -, failed⟩
  · exact Or.inl ⟨_, counted⟩
  · exact Or.inr ⟨visit.2.value, failed⟩

/-! ## Calls -/

/-- What a call answers and leaves, its buffer taken as bytes. -/
structure Leaves (outcome : Outcome Nat) (answer : Except SlotError Nat) (codec : Codec)
    (bytes : Bytes) : Prop where
  result_eq : outcome.result = answer
  codec_eq : outcome.codec = codec
  bytes_eq : outcome.buffer.bytes = bytes

variable {codec : Codec} {schema : SlotSchema}

/-- A call that is not refused follows the list of the visited slots. -/
theorem releaseAll_follows_visited (width : schema.width = codec.config.width) {buffer : Buffer}
    (accepted : codec.config.tail ≠ .reject ∨ schema.recordSize ∣ buffer.size) :
    Follows codec buffer (.ok (schema.visited codec.config.tail buffer.size))
      (codec.releaseAll buffer schema) := by
  have not_rejected : ¬(codec.config.tail = .reject ∧ buffer.size % schema.recordSize ≠ 0) := by
    rintro ⟨reject, cut⟩
    rcases accepted with other | whole
    · exact other reject
    · exact cut (Nat.mod_eq_zero_of_dvd whole)
  have follows := releaseAll_follows codec buffer schema
  rwa [releasePlan, if_neg (not_not.2 width), if_neg not_rejected] at follows

theorem visited_inside (width : schema.width = codec.config.width) (policy : TailPolicy)
    (size : Nat) :
    ∀ position ∈ schema.visited policy size, position + codec.config.width.bytes ≤ size := by
  intro position mem
  rw [← width]
  exact (isSlot_of_mem_visited mem).inside

/-- A pass over both parts of a buffer is a pass over the first followed by one over the second. -/
theorem Follows.joins {whole front rest : Buffer} (joins : whole.Joins front rest)
    {first_slots second_slots : List Nat}
    (first_inside : ∀ position ∈ first_slots, position + codec.config.width.bytes ≤ front.size)
    (second_inside : ∀ position ∈ second_slots, position + codec.config.width.bytes ≤ rest.size)
    {outcome first second : Outcome Nat}
    (whole_follows :
      Follows codec whole (.ok (first_slots ++ second_slots.map (front.size + ·))) outcome)
    (first_follows : Follows codec front (.ok first_slots) first)
    (second_follows : Follows first.codec rest (.ok second_slots) second) :
    EndsPass first.result ∧ EndsPass second.result ∧
      Leaves outcome (both first.result second.result) second.codec
        (first.buffer.bytes ++ second.buffer.bytes) := by
  let first_met := front.visits codec.config first_slots
  let second_met := rest.visits codec.config second_slots
  have met : whole.visits codec.config (first_slots ++ second_slots.map (front.size + ·)) =
      first_met ++ second_met.map (moveVisit front.size) :=
    Buffer.visits_joins joins first_inside second_inside
  -- the second call meets the arena from which the handles of the first part are gone
  have first_codec : first.codec =
      { codec with arena := codec.arena.discardAll (handlesOf first_met) } :=
    first_follows.codec_eq
  rw [first_codec] at second_follows
  have first_result : first.result = passResult codec.arena first_met := first_follows.result_eq
  have second_result : second.result =
      passResult (codec.arena.discardAll (handlesOf first_met)) second_met :=
    second_follows.result_eq
  have whole_result : outcome.result =
      passResult codec.arena (whole.visits codec.config _) := whole_follows.result_eq
  refine ⟨?_, ?_, ?_, ?_, ?_⟩
  · rw [first_result]
    exact endsPass_passResult codec.arena first_met
  · rw [second_result]
    exact endsPass_passResult _ second_met
  · rw [whole_result, met, passResult_append, passResult_moved, first_result, second_result]
  · have whole_codec : outcome.codec = { codec with
        arena := codec.arena.discardAll (handlesOf (whole.visits codec.config _)) } :=
      whole_follows.codec_eq
    rw [whole_codec, met, handlesOf_append, handlesOf_moved, Arena.discardAll_append]
    exact second_follows.codec_eq.symm
  · have freed_inside : ∀ visit ∈ freeing codec.arena [] first_met,
        visit.1 + codec.config.width.bytes ≤ front.size := by
      intro visit mem
      have visited := (freeing_sublist codec.arena [] first_met).subset mem
      exact first_inside visit.1 ((front.mem_visits_iff codec.config).1 visited).1
    have cleared := ReleasePass.joins_cleared joins codec.config freed_inside
      (freeing (codec.arena.discardAll (handlesOf first_met)) [] second_met)
    rw [← freeing_moved, ← freeing_append, ← met] at cleared
    rw [whole_follows.bytes_eq, first_follows.bytes_eq, second_follows.bytes_eq]
    exact Buffer.joins_iff.1 cleared

/-- A release of a buffer is a release of its first whole records followed by one of the rest. -/
theorem releaseAll_joins (width : schema.width = codec.config.width) {whole front rest : Buffer}
    (joins : whole.Joins front rest) (records : schema.recordSize ∣ front.size)
    (accepted : codec.config.tail ≠ .reject ∨ schema.recordSize ∣ whole.size) :
    let first := codec.releaseAll front schema
    let second := first.codec.releaseAll rest schema
    EndsPass first.result ∧ EndsPass second.result ∧
      Leaves (codec.releaseAll whole schema) (both first.result second.result) second.codec
        (first.buffer.bytes ++ second.buffer.bytes) := by
  intro first second
  have first_follows : Follows codec front _ first :=
    releaseAll_follows_visited width (Or.inr records)
  have config_eq : first.codec.config = codec.config := first_follows.config_eq
  have second_accepted : first.codec.config.tail ≠ .reject ∨ schema.recordSize ∣ rest.size := by
    rw [joins.size_eq] at accepted
    rw [config_eq]
    exact accepted.imp_right (Nat.dvd_add_right records).1
  have second_follows : Follows first.codec rest _ second :=
    releaseAll_follows_visited (width.trans (congrArg CodecConfig.width config_eq.symm))
      second_accepted
  have whole_follows := releaseAll_follows_visited width accepted
  rw [joins.size_eq, schema.visited_add codec.config.tail records] at whole_follows
  rw [config_eq] at second_follows
  exact whole_follows.joins joins (visited_inside width codec.config.tail front.size)
    (visited_inside width codec.config.tail rest.size) first_follows second_follows

/-- A release of no bytes leaves everything as it was. -/
theorem releaseAll_empty (width : schema.width = codec.config.width) {buffer : Buffer}
    (empty : buffer.size = 0) : Leaves (codec.releaseAll buffer schema) (.ok 0) codec [] := by
  have follows : Follows codec buffer _ (codec.releaseAll buffer schema) :=
    releaseAll_follows_visited width (Or.inr (empty ▸ Nat.dvd_zero _))
  rw [empty, schema.visited_zero] at follows
  refine ⟨follows.result_eq, follows.codec_eq, ?_⟩
  rw [← List.length_eq_zero_iff, Buffer.length_bytes, follows.size_eq, empty]

/-- A release of the first record is a release of the buffer of this record; the rest stays. -/
theorem releaseRecord_joins (width : schema.width = codec.config.width)
    {buffer record rest : Buffer} (joins : buffer.Joins record rest)
    (one : record.size = schema.recordSize) :
    let first := codec.releaseAll record schema
    Leaves (codec.releaseRecord buffer schema) first.result first.codec
      (first.buffer.bytes ++ rest.bytes) := by
  intro first
  -- the front of the buffer is the record with nothing behind it
  have front : (buffer.take schema.recordSize).Joins record (Buffer.filled 0 0) :=
    { size_eq := by
        rw [Buffer.size_take, joins.size_eq, Buffer.size_filled]
        omega
      front_eq := joins.front_eq
      rest_eq := fun place below => absurd below (Nat.not_lt_zero place) }
  have whole : schema.recordSize ∣ (buffer.take schema.recordSize).size := by
    rw [front.size_eq, one]
    exact Nat.dvd_refl _
  have first_follows := releaseAll_follows codec record schema
  have first_config : first.codec.config = codec.config := first_follows.config_eq
  obtain ⟨-, -, leaves⟩ := releaseAll_joins width front (one ▸ Nat.dvd_refl _) (Or.inr whole)
  have nothing := @releaseAll_empty first.codec schema
    (width.trans (congrArg CodecConfig.width first_config.symm)) (Buffer.filled 0 0) rfl
  rw [nothing.result_eq, nothing.codec_eq, nothing.bytes_eq, both_ok_zero, List.append_nil]
    at leaves
  have long : ¬buffer.size < schema.recordSize := by
    rw [joins.size_eq]
    omega
  rw [releaseRecord, if_neg long]
  refine ⟨leaves.result_eq, leaves.codec_eq, ?_⟩
  -- the record is written back in front of the rest
  show (buffer.overwrite 0 (codec.releaseAll (buffer.take schema.recordSize) schema).buffer.bytes
    ).bytes = _
  have length : first.buffer.bytes.length = record.bytes.length := by
    rw [Buffer.length_bytes, Buffer.length_bytes]
    exact first_follows.size_eq
  rw [leaves.bytes_eq, Buffer.bytes_overwrite, overwrite, Buffer.joins_iff.1 joins, length,
    List.take_zero, List.nil_append, Nat.zero_add, List.drop_left]
  rw [length, Buffer.length_bytes, joins.size_eq]
  omega

/-- In a buffer of one record the two calls do the same. -/
theorem releaseRecord_alone (width : schema.width = codec.config.width) {record : Buffer}
    (one : record.size = schema.recordSize) :
    let first := codec.releaseAll record schema
    Leaves (codec.releaseRecord record schema) first.result first.codec first.buffer.bytes := by
  intro first
  have nothing_behind : record.Joins record (Buffer.filled 0 0) := by
    rw [Buffer.joins_iff]
    exact (List.append_nil _).symm
  obtain ⟨result_eq, codec_eq, bytes_eq⟩ := releaseRecord_joins width nothing_behind one
  exact ⟨result_eq, codec_eq, bytes_eq.trans (List.append_nil _)⟩

/-- What `releaseRecord` on each of a list of buffers in turn answers and leaves, also after a
failure: the answers together, the codec, and the bytes of the buffers one behind the other. -/
def releaseEach (codec : Codec) (schema : SlotSchema) :
    List Buffer → Except SlotError Nat × Codec × Bytes
  | [] => (.ok 0, codec, [])
  | record :: rest =>
      let first := codec.releaseRecord record schema
      let others := releaseEach first.codec schema rest
      (both first.result others.1, others.2.1, first.buffer.bytes ++ others.2.2)

/-- A release of an array of records is a release of each record in turn. The induction is on the
records; the codec of the next step is the one that the release of the first record leaves. -/
theorem releaseAll_eq_releaseEach (width : schema.width = codec.config.width)
    {records : List Buffer} (ones : ∀ record ∈ records, record.size = schema.recordSize)
    {whole : Buffer} (array : whole.bytes = records.flatMap Buffer.bytes) :
    let each := codec.releaseEach schema records
    Leaves (codec.releaseAll whole schema) each.1 each.2.1 each.2.2 := by
  induction records generalizing codec whole with
  | nil =>
      apply releaseAll_empty width
      rw [← Buffer.length_bytes, array]
      rfl
  | cons record rest ih =>
      obtain ⟨one, rest_ones⟩ := List.forall_mem_cons.1 ones
      let others := Buffer.ofBytes (rest.flatMap Buffer.bytes)
      have others_bytes : others.bytes = rest.flatMap Buffer.bytes := Buffer.bytes_ofBytes _
      have joins : whole.Joins record others := by
        rw [Buffer.joins_iff, array, others_bytes, List.flatMap_cons]
      have array_whole : schema.recordSize ∣ whole.size := by
        rw [← Buffer.length_bytes, array]
        exact Buffer.dvd_length_flatMap fun record mem => dvd_of_eq (ones record mem).symm
      obtain ⟨-, -, leaves⟩ :=
        releaseAll_joins width joins (dvd_of_eq one.symm) (Or.inr array_whole)
      have first_config : (codec.releaseAll record schema).codec.config = codec.config :=
        (releaseAll_follows codec record schema).config_eq
      have rest_leaves := ih (width.trans (congrArg CodecConfig.width first_config.symm)) rest_ones
        others_bytes
      rw [rest_leaves.result_eq, rest_leaves.codec_eq, rest_leaves.bytes_eq] at leaves
      have alone := releaseRecord_alone width one
      simpa only [releaseEach, alone.result_eq, alone.codec_eq, alone.bytes_eq] using leaves

/-- Releasing a buffer is releasing its parts in order, where a part is a number of whole records or
the rest behind these. The release of a record is such a part, whatever lies behind it, so an array
is released record by record. -/
theorem releaseAll_in_parts (codec : Codec) (schema : SlotSchema)
    (width : schema.width = codec.config.width) :
    (∀ (count : Nat) (whole front rest : Buffer), whole.bytes = front.bytes ++ rest.bytes →
      front.size = count * schema.recordSize →
      codec.config.tail ≠ .reject ∨ schema.recordSize ∣ whole.size →
        let first := codec.releaseAll front schema
        let second := first.codec.releaseAll rest schema
        EndsPass first.result ∧ EndsPass second.result ∧
          Leaves (codec.releaseAll whole schema) (both first.result second.result) second.codec
            (first.buffer.bytes ++ second.buffer.bytes)) ∧
    (∀ buffer record rest : Buffer, buffer.bytes = record.bytes ++ rest.bytes →
      record.size = schema.recordSize →
        let first := codec.releaseAll record schema
        Leaves (codec.releaseRecord buffer schema) first.result first.codec
          (first.buffer.bytes ++ rest.bytes)) ∧
    ∀ (whole : Buffer) (records : List Buffer), whole.bytes = records.flatMap Buffer.bytes →
      (∀ record ∈ records, record.size = schema.recordSize) →
        let each := codec.releaseEach schema records
        Leaves (codec.releaseAll whole schema) each.1 each.2.1 each.2.2 := by
  refine ⟨?_, ?_, ?_⟩
  · intro count whole front rest bytes records accepted
    exact releaseAll_joins width (Buffer.joins_iff.2 bytes) (records ▸ Nat.dvd_mul_left _ count)
      accepted
  · intro buffer record rest bytes one
    exact releaseRecord_joins width (Buffer.joins_iff.2 bytes) one
  · intro whole records bytes ones
    exact releaseAll_eq_releaseEach width ones bytes

theorem releaseAll_in_parts_cutRecord :
    let codec := withTwoTexts true
    -- a record with one handle in both slots; a record behind it and a slot of a cut one
    let front := Buffer.ofBytes [2, 0, 0, 0, 7, 2, 0, 0, 0]
    let rest := Buffer.ofBytes [0, 0, 0, 0, 7, 9, 0, 0, 0, 1, 0, 0, 0, 7]
    let whole := Buffer.ofBytes (front.bytes ++ rest.bytes)
    let array := Buffer.ofBytes (front.bytes ++ front.bytes)
    let first := codec.releaseAll front (.spaced .w32)
    let second := first.codec.releaseAll rest (.spaced .w32)
    second.result = .error (.unknownHandle 9) ∧ second.codec.arena.live = 0 ∧
      Leaves (codec.releaseAll whole (.spaced .w32)) (.error (.unknownHandle 2)) second.codec
        (first.buffer.bytes ++ second.buffer.bytes) ∧
      Leaves (codec.releaseRecord whole (.spaced .w32)) (.error (.unknownHandle 2)) first.codec
        (first.buffer.bytes ++ rest.bytes) ∧
      (codec.releaseAll array (.spaced .w32)).codec =
        (codec.releaseEach (.spaced .w32) [front, front]).2.1 := by
  intro codec front rest whole array first second
  obtain ⟨parts, record, each⟩ := releaseAll_in_parts codec (.spaced .w32) rfl
  have first_failed : first.result = .error (.unknownHandle 2) := by decide +kernel
  have joined : Leaves (codec.releaseAll whole (.spaced .w32)) (both first.result second.result)
      second.codec (first.buffer.bytes ++ second.buffer.bytes) :=
    (parts 1 whole front rest (Buffer.bytes_ofBytes _) rfl (Or.inl (by decide))).2.2
  have alone : Leaves (codec.releaseRecord whole (.spaced .w32)) first.result first.codec
      (first.buffer.bytes ++ rest.bytes) :=
    record whole front rest (Buffer.bytes_ofBytes _) rfl
  have in_turn := each array [front, front] (by simp [array]) (by decide +kernel)
  rw [first_failed] at joined alone
  exact ⟨by decide +kernel, by decide +kernel, joined, alone, in_turn.codec_eq⟩

end Codec

end StringSlots
