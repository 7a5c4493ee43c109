import StringSlots.Proofs.Demo.Store

/-!
# A demo under way

`Formed.Holds` is what is known of a demo between two of its steps: what it has stored, the lines
that it has printed, and that it has not failed. Each step keeps it, with one more text or one more
line: storing a field (`Holds.storeField`), showing a record (`Holds.showRecord`). So it holds after
all rows are stored and after all records are shown, and then everything can be freed
(`Holds.freeAll`).

`CompoundLayout.write?` says which fields of a row are stored; all others are complained of and
change nothing.
-/

namespace StringSlots

/-! ## What is printed -/

/-- The output of lines. -/
def Transcript.ofLines (lines : List String) : String :=
  String.join (lines.map (· ++ "\n"))

/-- A member with the text of its name. -/
def Member.shown (text? : String → Option String) (member : Member) : String :=
  member.name ++ "=" ++ shownOption (text? member.name)

namespace CompoundLayout

variable (layout : CompoundLayout)

/-- The lines that show the sizes and the members of a layout. -/
def headLines : List String :=
  s!"record size {layout.recordSize} bytes, pointer size {layout.width.bytes}" ::
    layout.members.map fun member => "  " ++ member.text

/-- The line that shows a record with the given texts. -/
def recordLine (text? : String → Option String) (record : Nat) : String :=
  s!"record {record}: " ++ ", ".intercalate (layout.stringMembers.map (·.shown text?))

/-- The line that tells how many strings were freed. -/
def releaseLine (count : Nat) : String :=
  s!"released {count} strings (status 0), 0 live"

/-! ## What is stored -/

/-- What is stored for a value of a name, if it is a text without a NUL. -/
def textWrite? (record : Nat) (name : String) (value : Option String) : Option MemberWrite := do
  let text ← value
  if Arena.nulPosition? text = none then some { record, name, text } else none

/-- What is stored for a field of a row whose name is that of a string member. -/
def write? (record : Nat) (field : String × Option String) : Option MemberWrite := do
  let member ← layout.member? field.1
  if member.kind.isStringSlot then textWrite? record field.1 field.2 else none

/-- What is stored for rows, the first of them in record `record`. -/
def writes (record : Nat) (rows : List Row) : List MemberWrite :=
  (rows.zipIdx record).flatMap fun entry => entry.1.filterMap (layout.write? entry.2)

variable {layout} {record : Nat} {name text : String} {write : MemberWrite}

theorem textWrite?_of_nul {position : Nat} (nul : Arena.nulPosition? text = some position) :
    textWrite? record name (some text) = none := by
  show ite _ _ _ = _
  rw [nul]
  exact if_neg nofun

theorem textWrite?_of_clean (clean : Arena.nulPosition? text = none) :
    textWrite? record name (some text) = some { record, name, text } :=
  if_pos clean

/-- The fields that are stored are texts without a NUL, under names of string members. -/
theorem write?_eq_some_iff {field : String × Option String} :
    layout.write? record field = some write ↔
      (∃ member, layout.member? write.name = some member ∧ member.kind.isStringSlot = true) ∧
        write.record = record ∧ field = (write.name, some write.text) ∧
        Arena.nulPosition? write.text = none := by
  obtain ⟨name, value⟩ := field
  obtain ⟨own_record, own_name, own_text⟩ := write
  constructor
  · intro written
    obtain ⟨member, found, chosen⟩ := Option.bind_eq_some_iff.1 written
    split at chosen
    · next slot =>
      obtain ⟨text, rfl, kept⟩ := Option.bind_eq_some_iff.1 chosen
      split at kept
      · next clean =>
        cases kept
        exact ⟨⟨member, found, slot⟩, rfl, rfl, clean⟩
      · cases kept
    · cases chosen
  · rintro ⟨⟨member, found, slot⟩, rfl, same, clean⟩
    cases same
    rw [write?]
    refine Option.bind_eq_some_iff.2 ⟨member, found, ?_⟩
    rw [if_pos slot]
    exact textWrite?_of_clean clean

theorem key_of_write? {field : String × Option String}
    (written : layout.write? record field = some write) : write.key = (record, field.1) := by
  obtain ⟨-, rfl, rfl, -⟩ := write?_eq_some_iff.1 written
  rfl

end CompoundLayout

/-! ## The demo under way -/

namespace Transcript

theorem ofLines_cons (line : String) (lines : List String) :
    ofLines (line :: lines) = line ++ ("\n" ++ ofLines lines) := by
  rw [ofLines, List.map_cons, String.join_cons, String.append_assoc]
  rfl

theorem ofLines_append (lines more : List String) :
    ofLines (lines ++ more) = ofLines lines ++ ofLines more := by
  rw [ofLines, List.map_append, String.join_append]
  rfl

theorem ofLines_append_singleton (lines : List String) (line : String) :
    ofLines (lines ++ [line]) = ofLines lines ++ line ++ "\n" := by
  rw [ofLines_append, ofLines_cons, String.append_assoc]
  rfl

end Transcript

theorem CompoundLayout.releaseLine_eq (count : Nat) :
    s!"released {count} strings (status {Status.ok.code}), {0} live" = releaseLine count := by
  have tail : " strings (status " ++ toString Status.ok.code ++ "), " ++ toString 0 ++ " live" =
      " strings (status 0), 0 live" := by decide
  rw [releaseLine, ← tail]
  simp only [String.append_assoc]
  rfl

/-- A call changes the codec and the buffer as it says, and may add complaints. -/
theorem DemoState.afterCall_eq {α : Type} (state : DemoState) (crossing : Crossing α) :
    ∃ err, state.afterCall crossing =
      { codec := crossing.codec
        buffer := crossing.buffer.getD state.buffer
        transcript := { state.transcript with err } } := by
  have complaints : ∀ (reports : List Report) (state : DemoState), ∃ err,
      reports.foldl (fun state report =>
          state.complain (reportName report.kind ++ ": " ++ report.message)) state =
        { state with transcript := { state.transcript with err } } := by
    intro reports
    induction reports with
    | nil => exact fun state => ⟨state.transcript.err, rfl⟩
    | cons report rest ih => exact fun state => ih (state.complain _)
  exact complaints crossing.reports _

namespace CompoundLayout.Formed

variable {hash : String → UInt64} {layout : CompoundLayout} (formed : layout.Formed hash)
  {config : CodecConfig} (width : layout.width = config.width) (records : Nat)

/-- A demo that goes on, with the texts that it has stored and the lines that it has printed. -/
structure Holds (state : DemoState) (stored : List MemberWrite) (lines : List String) : Prop where
  filled : formed.Filled width records state.codec state.buffer.contents stored
  pinnable : state.buffer.pinnable = true
  running : state.transcript.failure = none
  out_eq : state.transcript.out = Transcript.ofLines lines

variable {formed width records} {state : DemoState} {stored : List MemberWrite}
  {lines : List String}

namespace Holds

/-- At the start nothing is stored. The width of the layout takes the place of the given one. -/
theorem start (formed : layout.Formed hash) (given : CodecConfig) (records : Nat) :
    @Holds hash layout formed { given with width := layout.width } rfl records
      (.start given layout records) [] [] where
  filled := Filled.new
  pinnable := rfl
  running := rfl
  out_eq := rfl

theorem print (holds : formed.Holds width records state stored lines) (line : String) :
    formed.Holds width records (state.print line) stored (lines ++ [line]) where
  filled := holds.filled
  pinnable := holds.pinnable
  running := holds.running
  out_eq := by
    rw [Transcript.ofLines_append_singleton, ← holds.out_eq]
    rfl

theorem printAll {α : Type} (holds : formed.Holds width records state stored lines)
    (line : α → String) (items : List α) :
    formed.Holds width records (items.foldl (fun state item => state.print (line item)) state)
      stored (lines ++ items.map line) := by
  induction items generalizing state lines with
  | nil =>
      rw [List.map_nil, List.append_nil]
      exact holds
  | cons item rest ih =>
      have later := ih (holds.print (line item))
      rw [List.append_assoc] at later
      exact later

theorem complain (holds : formed.Holds width records state stored lines) (line : String) :
    formed.Holds width records (state.complain line) stored lines :=
  ⟨holds.filled, holds.pinnable, holds.running, holds.out_eq⟩

theorem andThen_eq (holds : formed.Holds width records state stored lines)
    (step : DemoState → DemoState) : state.andThen step = step state := by
  rw [DemoState.andThen, holds.running]

/-- The demo goes on after a call, with what the call left in the codec and in the buffer. -/
theorem afterCall {α : Type} {crossing : Crossing α} {array : ManagedArray Buffer}
    {after : List MemberWrite} (holds : formed.Holds width records state stored lines)
    (buffer : crossing.buffer = some array) (free : array.pinnable = true)
    (filled : formed.Filled width records crossing.codec array.contents after) :
    formed.Holds width records (state.afterCall crossing) after lines := by
  obtain ⟨err, same⟩ := state.afterCall_eq crossing
  rw [same, buffer]
  exact ⟨filled, free, holds.running, holds.out_eq⟩

theorem passed {α β : Type} {call : BridgeCall} {onSuccess : β → α} {onFailure : α}
    {outcome : Outcome β} {crossing : Crossing α} {after : List MemberWrite}
    (holds : formed.Holds width records state stored lines)
    (passes : crossing.Passes call onSuccess onFailure outcome)
    (filled : formed.Filled width records outcome.codec outcome.buffer after) :
    formed.Holds width records (state.afterCall crossing) after lines := by
  obtain ⟨array, buffer, free⟩ := passes.buffer
  have contents := passes.delivers.contents_eq
  rw [buffer, Option.map_some, Option.some.injEq] at contents
  rw [← passes.delivers.codec_eq, ← contents] at filled
  exact holds.afterCall buffer free filled

/-! ### Storing -/

theorem unwritten {write : Option MemberWrite} (absent : write = none)
    (holds : formed.Holds width records state stored lines) :
    formed.Holds width records state (stored ++ write.toList) lines := by
  rw [absent, Option.toList_none, List.append_nil]
  exact holds

/-- A call that is refused for an absent text changes nothing. -/
theorem copy_absent (holds : formed.Holds width records state stored lines) (offset : Int) :
    formed.Holds width records
      (state.afterCall (state.codec.copyText none (some state.buffer) offset)) stored lines :=
  holds.afterCall rfl holds.pinnable holds.filled

/-- A value is stored in a slot, or complained of. -/
theorem storeSlot (holds : formed.Holds width records state stored lines)
    (fits : layout.FitsInt32 records) {member : Member} (mem : member ∈ layout.stringMembers)
    {record : Nat} (record_lt : record < records)
    (fresh : ∀ write ∈ stored, write.key ≠ (record, member.name)) (value : Option String)
    (complaint : String) :
    let crossing := state.codec.copyText value (some state.buffer) (layout.position record member)
    formed.Holds width records
      (match crossing.value with
        | .ok => state.afterCall crossing
        | .failure => (state.afterCall crossing).complain complaint)
      (stored ++ (textWrite? record member.name value).toList) lines := by
  intro crossing
  cases value with
  | none => exact ((holds.copy_absent _).complain complaint).unwritten rfl
  | some text =>
      have passes := state.codec.passes_copyText holds.pinnable text
        (layout.position record member)
      cases nul : Arena.nulPosition? text with
      | some position =>
          -- the codec refuses the text and changes nothing
          rw [holds.filled.encode_of_nul mem record_lt nul] at passes
          have failed : crossing.value = .failure := (passes.delivers.failure _ rfl).2.1
          rw [failed]
          exact ((holds.passed passes holds.filled).complain complaint).unwritten
            (textWrite?_of_nul nul)
      | none =>
          let write : MemberWrite := { record, name := member.name, text }
          have named : member.name = write.name := rfl
          obtain ⟨⟨handle, result⟩, filled⟩ :=
            holds.filled.encode fits mem named record_lt nul fresh
          have stored_text : crossing.value = .ok := (passes.delivers.success handle result).1
          rw [textWrite?_of_clean nul, Option.toList_some, stored_text]
          exact holds.passed passes filled

/-- A field is stored in the slot of its name, or complained of. -/
theorem storeField (holds : formed.Holds width records state stored lines)
    (fits : layout.FitsInt32 records) {record : Nat} (record_lt : record < records)
    (field : String × Option String) (fresh : ∀ write ∈ stored, write.key ≠ (record, field.1)) :
    formed.Holds width records (DemoState.storeField layout record state field)
      (stored ++ (layout.write? record field).toList) lines := by
  obtain ⟨name, value⟩ := field
  rw [DemoState.storeField, holds.andThen_eq, write?]
  cases found : layout.member? name with
  | none => exact (holds.complain _).unwritten rfl
  | some member =>
      obtain ⟨declared, rfl⟩ := formed.member?_eq_some_iff.1 found
      cases slot : member.kind.isStringSlot with
      | false =>
          dsimp only
          rw [slot]
          refine (holds.complain _).unwritten ?_
          show ite (member.kind.isStringSlot = true) _ _ = _
          rw [slot]
          rfl
      | true =>
          have mem : member ∈ layout.stringMembers := List.mem_filter.2 ⟨declared, slot⟩
          have small : record * layout.recordSize + member.offset < 0x8000_0000 :=
            fits.position_lt record record_lt member mem
          dsimp only
          rw [if_pos slot, int32?_of_lt small]
          show formed.Holds width records _ (stored ++ Option.toList (ite _ _ _)) lines
          rw [if_pos slot]
          exact holds.storeSlot fits mem record_lt fresh value _

/-- The fields of a row are stored in turn. No name stands twice in a row, so none of them is stored
over another one. -/
theorem storeRow (holds : formed.Holds width records state stored lines)
    (fits : layout.FitsInt32 records) {record : Nat} (record_lt : record < records) {row : Row}
    (distinct : row.Pairwise fun a b => a.1 ≠ b.1)
    (fresh : ∀ write ∈ stored, ∀ field ∈ row, write.key ≠ (record, field.1)) :
    formed.Holds width records (row.foldl (DemoState.storeField layout record) state)
      (stored ++ row.filterMap (layout.write? record)) lines := by
  induction row generalizing state stored with
  | nil =>
      rw [List.filterMap_nil, List.append_nil]
      exact holds
  | cons field rest ih =>
      obtain ⟨others, distinct⟩ := List.pairwise_cons.1 distinct
      have first := holds.storeField fits record_lt field fun write mem =>
        fresh write mem field List.mem_cons_self
      have later := ih first distinct ?_
      · rw [List.append_assoc] at later
        rw [List.filterMap_cons]
        cases written : layout.write? record field with
        | none =>
            rw [written] at later
            exact later
        | some write =>
            rw [written] at later
            exact later
      · intro write mem other other_mem
        rcases List.mem_append.1 mem with old | new
        · exact fresh write old other (List.mem_cons_of_mem _ other_mem)
        · -- the field before has another name
          rw [key_of_write? (Option.mem_toList.1 new)]
          intro same
          exact others other other_mem (congrArg Prod.snd same)

/-- The rows are stored in turn, each in a record of its own. -/
theorem storeRows (holds : formed.Holds width records state stored lines)
    (fits : layout.FitsInt32 records) {record : Nat} {rows : List Row}
    (inside : record + rows.length ≤ records)
    (distinct : ∀ row ∈ rows, row.Pairwise fun a b => a.1 ≠ b.1)
    (earlier : ∀ write ∈ stored, write.record < record) :
    formed.Holds width records (state.storeRows layout record rows)
      (stored ++ layout.writes record rows) lines := by
  induction rows generalizing state stored record with
  | nil =>
      rw [writes, List.zipIdx_nil, List.flatMap_nil, List.append_nil]
      exact holds
  | cons row rest ih =>
      obtain ⟨first_distinct, distinct⟩ := List.forall_mem_cons.1 distinct
      rw [List.length_cons] at inside
      have record_lt : record < records := by omega
      have rest_inside : record + 1 + rest.length ≤ records := by omega
      have first := holds.storeRow fits record_lt first_distinct fun write mem field _ same =>
        absurd (congrArg Prod.fst same) (Nat.ne_of_lt (earlier write mem))
      have later := ih first rest_inside distinct ?_
      · rw [List.append_assoc] at later
        rw [writes, List.zipIdx_cons, List.flatMap_cons]
        exact later
      · intro write mem
        rcases List.mem_append.1 mem with old | new
        · exact Nat.lt_succ_of_lt (earlier write old)
        · obtain ⟨field, -, written⟩ := List.mem_filterMap.1 new
          have own := congrArg Prod.fst (key_of_write? written)
          exact Nat.lt_succ_of_le (Nat.le_of_eq own)

/-! ### Showing -/

/-- The members of a record are shown with the texts that are stored for them. -/
theorem showMembers (holds : formed.Holds width records state stored lines)
    (fits : layout.FitsInt32 records) {record : Nat} (record_lt : record < records)
    {members : List Member} (declared : ∀ member ∈ members, member ∈ layout.stringMembers)
    (shown : List String) :
    formed.Holds width records (state.showMembers layout record shown members) stored
      (lines ++ [s!"record {record}: " ++ ", ".intercalate
        (shown ++ members.map (·.shown fun name => lastText stored (record, name)))]) := by
  induction members generalizing state shown with
  | nil =>
      rw [List.map_nil, List.append_nil]
      exact holds.print _
  | cons member rest ih =>
      obtain ⟨mem, rest_declared⟩ := List.forall_mem_cons.1 declared
      have small : record * layout.recordSize + member.offset < 0x8000_0000 :=
        fits.position_lt record record_lt member mem
      have passes := state.codec.passes_createText holds.pinnable (layout.position record member)
      have answered : (state.codec.createText (some state.buffer)
          (record * layout.recordSize + member.offset : Nat)).value =
            lastText stored (record, member.name) :=
        (passes.delivers.success _ (holds.filled.decode_eq mem record_lt)).1
      have later := ih (holds.passed passes holds.filled) rest_declared
        (shown ++ [member.shown fun name => lastText stored (record, name)])
      rw [List.append_assoc] at later
      rw [DemoState.showMembers, int32?_of_lt small]
      dsimp only
      rw [answered]
      exact later

theorem showRecord (holds : formed.Holds width records state stored lines)
    (fits : layout.FitsInt32 records) {record : Nat} (record_lt : record < records) :
    formed.Holds width records (state.showRecord layout record) stored
      (lines ++ [layout.recordLine (fun name => lastText stored (record, name)) record]) := by
  rw [DemoState.showRecord, holds.andThen_eq]
  exact holds.showMembers fits record_lt (fun _ mem => mem) []

theorem showRecords (holds : formed.Holds width records state stored lines)
    (fits : layout.FitsInt32 records) {numbers : List Nat}
    (inside : ∀ record ∈ numbers, record < records) :
    formed.Holds width records (numbers.foldl (DemoState.showRecord layout) state) stored
      (lines ++ numbers.map fun record =>
        layout.recordLine (fun name => lastText stored (record, name)) record) := by
  induction numbers generalizing state lines with
  | nil =>
      rw [List.map_nil, List.append_nil]
      exact holds
  | cons record rest ih =>
      obtain ⟨record_lt, rest_inside⟩ := List.forall_mem_cons.1 inside
      have later := ih (holds.showRecord fits record_lt) rest_inside
      rw [List.append_assoc] at later
      exact later

theorem showLayout (holds : formed.Holds width records state stored lines) :
    formed.Holds width records (state.showLayout layout) stored (lines ++ layout.headLines) := by
  have size : state.codec.pointerSize = layout.width.bytes := by
    have config_eq : state.codec.config = config := holds.filled.maps.config_eq
    rw [Codec.pointerSize, config_eq, width]
  have later := (holds.print s!"record size {layout.recordSize} bytes, pointer size {
    state.codec.pointerSize}").printAll (fun member : Member => "  " ++ member.text) layout.members
  rw [List.append_assoc, size] at later
  rw [DemoState.showLayout, size]
  exact later

/-! ### Freeing -/

/-- At the end every string is freed, and none is left. -/
theorem freeAll (holds : formed.Holds width records state stored lines)
    (fits : layout.FitsInt32 records) :
    (state.freeAll layout).transcript.failure = none ∧
      (state.freeAll layout).transcript.out =
        Transcript.ofLines (lines ++ [releaseLine stored.length]) := by
  have small : ∀ offset ∈ layout.slotOffsets, offset < 0x8000_0000 := by
    intro offset offset_mem
    have inside := formed.schema.inside offset offset_mem
    have limit := fits.recordSize_lt
    have inside : offset + layout.width.bytes ≤ layout.recordSize := inside
    omega
  obtain ⟨result, live⟩ := holds.filled.release
  have delivers := state.codec.delivers_freeTexts holds.pinnable layout.recordSize
    (layout.slotOffsets.map Nat.cast)
  have answered := (delivers.success _ result).1
  rw [← delivers.codec_eq] at live
  rw [DemoState.freeAll, formed.slotSchema_eq]
  dsimp only
  rw [show formed.schema.offsets = layout.slotOffsets from rfl, mapM_int32? small,
    int32?_of_lt fits.recordSize_lt]
  dsimp only
  obtain ⟨err, same⟩ := state.afterCall_eq (state.codec.freeTexts (some state.buffer)
    layout.recordSize (some (.new (layout.slotOffsets.map Nat.cast) false))).1
  rw [same, answered]
  refine ⟨holds.running, ?_⟩
  rw [Transcript.ofLines_append_singleton, ← holds.out_eq]
  show state.transcript.out ++ _ ++ "\n" = _
  dsimp only
  rw [live, holds.filled.live_eq, Nat.sub_zero, ← releaseLine_eq]

end Holds

end CompoundLayout.Formed

end StringSlots
