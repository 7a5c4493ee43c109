import Mathlib.Data.List.Nodup
import StringSlots.Proofs.Demo.Lines
import StringSlots.Proofs.Layout.Rendered

/-!
# The transcript of a demo

`DemoDocument.transcript_shows_rows` says, for the bytes of any document whose layout is accepted
and whose slots fit 32-bit integers, that the demo succeeds and prints the lines of its rows, and
that it would print something else for rows with other texts.

Since no name stands twice in a row, no key is written twice. So the text that is stored for a
string member of a record is the text of its row (`Formed.lastText_writes`), and there are as many
of them as the rows have for string members (`Formed.length_writes`).
-/

namespace StringSlots

/-! ## The texts of the rows -/

/-- Where no key was written twice, the text of a key is the one that was written for it. -/
theorem lastText_eq_some_iff {stored : List MemberWrite}
    (distinct : (stored.map MemberWrite.key).Nodup) {record : Nat} {name text : String} :
    lastText stored (record, name) = some text ↔ ⟨record, name, text⟩ ∈ stored := by
  rw [lastText, Option.map_eq_some_iff]
  constructor
  · rintro ⟨write, found, rfl⟩
    have mem := List.mem_reverse.1 (List.mem_of_find?_eq_some found)
    have key := List.find?_some found
    rw [decide_eq_true_eq, MemberWrite.key, Prod.mk.injEq] at key
    obtain ⟨rfl, rfl⟩ := key
    exact mem
  · intro mem
    cases found : stored.reverse.find? fun write => write.key = (record, name) with
    | none =>
        have other := List.find?_eq_none.1 found _ (List.mem_reverse.2 mem)
        exact absurd (decide_eq_true rfl) other
    | some write =>
        have write_mem := List.mem_reverse.1 (List.mem_of_find?_eq_some found)
        have key := List.find?_some found
        rw [decide_eq_true_eq] at key
        have same := List.inj_on_of_nodup_map distinct write_mem mem key
        exact ⟨write, rfl, congrArg MemberWrite.text same⟩

namespace CompoundLayout

variable {hash : String → UInt64} {layout : CompoundLayout}

theorem mem_writes_iff {rows : List Row} {write : MemberWrite} :
    write ∈ layout.writes 0 rows ↔
      (∃ member, layout.member? write.name = some member ∧ member.kind.isStringSlot = true) ∧
        (∃ row, rows[write.record]? = some row ∧ (write.name, some write.text) ∈ row) ∧
        Arena.nulPosition? write.text = none := by
  rw [writes, List.mem_flatMap]
  constructor
  · rintro ⟨⟨row, record⟩, entry_mem, mem⟩
    obtain ⟨field, field_mem, written⟩ := List.mem_filterMap.1 mem
    obtain ⟨slot, rfl, rfl, clean⟩ := write?_eq_some_iff.1 written
    exact ⟨slot, ⟨row, List.mk_mem_zipIdx_iff_getElem?.1 entry_mem, field_mem⟩, clean⟩
  · rintro ⟨slot, ⟨row, here, field_mem⟩, clean⟩
    refine ⟨(row, write.record), List.mk_mem_zipIdx_iff_getElem?.2 here, ?_⟩
    exact List.mem_filterMap.2 ⟨_, field_mem, write?_eq_some_iff.2 ⟨slot, rfl, rfl, clean⟩⟩

/-- The members with a slot are found by their names. -/
theorem Formed.mem_stringMembers_iff_found (formed : layout.Formed hash) {member : Member} :
    member ∈ layout.stringMembers ↔
      layout.member? member.name = some member ∧ member.kind.isStringSlot = true := by
  rw [stringMembers, List.mem_filter, formed.member?_eq_some_iff, and_iff_left rfl]

section Row

variable {value : Json} {row : Row} (read : Row.ofJson? value = some row) (record : Nat)
include read

/-- Each field of a row is stored under a name of its own. -/
theorem nodup_names_write? :
    ((row.filterMap (layout.write? record)).map MemberWrite.name).Nodup := by
  refine List.pairwise_map.2 (List.pairwise_filterMap.2 ?_)
  refine (Row.pairwise_of_ofJson? read).imp ?_
  intro a b differ write written other other_written same
  have own := congrArg Prod.snd (key_of_write? written)
  have other_own := congrArg Prod.snd (key_of_write? other_written)
  exact differ (own.symm.trans (same.trans other_own))

/-- What is stored for a row is stored under the names of the string members that have a text. -/
theorem Formed.mem_names_write?_iff (formed : layout.Formed hash) {name : String} :
    name ∈ (row.filterMap (layout.write? record)).map MemberWrite.name ↔
      ∃ member ∈ layout.stringMembers,
        (value.storedText? member.name).isSome = true ∧ member.name = name := by
  rw [List.mem_map]
  constructor
  · rintro ⟨write, mem, rfl⟩
    obtain ⟨field, field_mem, written⟩ := List.mem_filterMap.1 mem
    obtain ⟨⟨member, found, slot⟩, -, rfl, clean⟩ := write?_eq_some_iff.1 written
    obtain ⟨declared, named⟩ := formed.member?_eq_some_iff.1 found
    have stored := (Row.storedText?_eq_some_iff read).2 ⟨field_mem, clean⟩
    rw [← named] at stored
    exact ⟨member, List.mem_filter.2 ⟨declared, slot⟩, Option.isSome_of_eq_some stored, named⟩
  · rintro ⟨member, mem, some_text, rfl⟩
    obtain ⟨text, stored⟩ := Option.isSome_iff_exists.1 some_text
    obtain ⟨field_mem, clean⟩ := (Row.storedText?_eq_some_iff read).1 stored
    have slot := formed.mem_stringMembers_iff_found.1 mem
    exact ⟨⟨record, member.name, text⟩, List.mem_filterMap.2
      ⟨_, field_mem, write?_eq_some_iff.2 ⟨⟨member, slot⟩, rfl, rfl, clean⟩⟩, rfl⟩

/-- For each string member that has a text in a row, one text is stored. -/
theorem Formed.length_filterMap_write? (formed : layout.Formed hash) :
    (row.filterMap (layout.write? record)).length = layout.textCount value.storedText? := by
  let shown := layout.stringMembers.filter fun member => (value.storedText? member.name).isSome
  have shown_distinct : (shown.map (·.name)).Nodup :=
    formed.nodup.sublist ((List.filter_sublist.trans List.filter_sublist).map _)
  have same : ∀ name, name ∈ (row.filterMap (layout.write? record)).map MemberWrite.name ↔
      name ∈ shown.map (·.name) := by
    intro name
    rw [formed.mem_names_write?_iff read]
    simp only [shown, List.mem_map, List.mem_filter, and_assoc]
  have lengths := ((List.perm_ext_iff_of_nodup (nodup_names_write? read record)
    shown_distinct).2 same).length_eq
  rw [List.length_map, List.length_map] at lengths
  rw [lengths, textCount, List.countP_eq_length_filter]

end Row

variable {values : List Json} {rows : List Row}
  (read : List.Forall₂ (fun value row => Row.ofJson? value = some row) values rows)
include read

/-- The text that is stored for a string member of a record is that of its row. -/
theorem Formed.lastText_writes (formed : layout.Formed hash)
    (distinct : ((layout.writes 0 rows).map MemberWrite.key).Nodup) {member : Member}
    (mem : member ∈ layout.stringMembers) {record : Nat} {value : Json}
    (here : values[record]? = some value) :
    lastText (layout.writes 0 rows) (record, member.name) = value.storedText? member.name := by
  obtain ⟨row, row_here, row_read⟩ : ∃ row, rows[record]? = some row ∧
      Row.ofJson? value = some row := by
    obtain ⟨lengths, each⟩ := List.forall₂_iff_get.1 read
    obtain ⟨value_lt, rfl⟩ := List.getElem?_eq_some_iff.1 here
    have row_lt : record < rows.length := lengths ▸ value_lt
    exact ⟨rows[record], List.getElem?_eq_getElem row_lt, each record value_lt row_lt⟩
  ext text
  rw [lastText_eq_some_iff distinct, mem_writes_iff, Row.storedText?_eq_some_iff row_read]
  have slot := formed.mem_stringMembers_iff_found.1 mem
  constructor
  · rintro ⟨-, ⟨other, other_here, field_mem⟩, clean⟩
    rw [row_here] at other_here
    cases other_here
    exact ⟨field_mem, clean⟩
  · rintro ⟨field_mem, clean⟩
    exact ⟨⟨member, slot⟩, ⟨row, row_here, field_mem⟩, clean⟩

/-- As many texts are stored as the rows have for string members. -/
theorem Formed.length_writes (formed : layout.Formed hash) (record : Nat) :
    (layout.writes record rows).length =
      (values.map fun value => layout.textCount value.storedText?).sum := by
  induction read generalizing record with
  | nil => rfl
  | cons first _ ih =>
      rw [writes, List.zipIdx_cons, List.flatMap_cons, List.length_append,
        formed.length_filterMap_write? first, List.map_cons, List.sum_cons, ← ih (record + 1)]
      rfl

/-- The records are shown with the texts of their rows. -/
theorem Formed.recordLines_eq (formed : layout.Formed hash)
    (distinct : ((layout.writes 0 rows).map MemberWrite.key).Nodup) :
    (List.range rows.length).map (fun record =>
        layout.recordLine (fun name => lastText (layout.writes 0 rows) (record, name)) record) =
      values.mapIdx fun record value => layout.recordLine value.storedText? record := by
  apply List.ext_getElem
  · rw [List.length_map, List.length_range, List.length_mapIdx, read.length_eq]
  · intro record _ inside
    rw [List.length_mapIdx] at inside
    rw [List.getElem_map, List.getElem_range, List.getElem_mapIdx]
    apply recordLine_congr
    intro member mem
    exact formed.lastText_writes read distinct mem (List.getElem?_eq_getElem inside)

end CompoundLayout

/-! ## The whole demo -/

namespace DemoDocument

/-- A demo that neither fails nor leaves a string behind prints the lines of its rows. -/
theorem run_shows_rows {document : DemoDocument} {layout : CompoundLayout}
    (built : CompoundLayout.ofSpec document.layout = .ok layout)
    (fits : layout.FitsInt32 document.rows.length) {values : List Json}
    (read : List.Forall₂ (fun value row => Row.ofJson? value = some row) values document.rows) :
    document.run.failure = none ∧
      document.run.out = Transcript.ofLines (layout.demoLines values) := by
  have formed : layout.Formed nameHash := (CompoundLayout.buildWith_eq_ok_iff.1 built).1
  have started := CompoundLayout.Formed.Holds.start formed document.config document.rows.length
  have stored := started.showLayout.storeRows fits (Nat.le_of_eq (Nat.zero_add _))
    (Row.pairwise_of_forall₂ read)
    fun write mem => absurd mem List.not_mem_nil
  have shown := stored.showRecords fits fun record mem => List.mem_range.1 mem
  obtain ⟨running, out⟩ := shown.freeAll fits
  rw [List.nil_append, List.nil_append] at out
  rw [formed.recordLines_eq read shown.filled.distinct, formed.length_writes read] at out
  rw [run, built]
  dsimp only
  rw [shown.andThen_eq]
  exact ⟨running, out⟩

/-- A document whose layout is accepted, and whose slots fit 32-bit integers, makes the demo
succeed. It prints each string member of each record with the text that the row has for it, and
frees as many strings as there are such texts, so that none is left. Rows with other texts are
printed otherwise. -/
theorem transcript_shows_rows {bytes : Bytes} {document : DemoDocument} {layout : CompoundLayout}
    (parsed : parse? bytes = some document)
    (built : CompoundLayout.ofSpec document.layout = .ok layout)
    (fits : layout.FitsInt32 document.rows.length) :
    ∃ rows, rowValues? bytes = some rows ∧ rows.length = document.rows.length ∧
      (runBytes bytes).code = 0 ∧
      (runBytes bytes).out = Transcript.ofLines (layout.demoLines rows) ∧
      ∀ others, (runBytes bytes).out = Transcript.ofLines (layout.demoLines others) ↔
        List.Forall₂ layout.SameTexts rows others := by
  obtain ⟨values, values_eq, read⟩ := exists_rowValues parsed
  obtain ⟨running, out⟩ := run_shows_rows built fits read
  have printed : (runBytes bytes).out = Transcript.ofLines (layout.demoLines values) := by
    rw [runBytes, parsed]
    exact out
  refine ⟨values, values_eq, read.length_eq, ?_, printed, ?_⟩
  · rw [runBytes, parsed]
    show ite (document.run.failure.isSome = true) 1 0 = 0
    rw [running]
    rfl
  · intro others
    rw [printed, CompoundLayout.ofLines_demoLines_eq_iff]

/-- Two texts under one name, then a text with U+0000 and one for a number. The slots are narrower
than those of the default configuration. -/
def repeatedNames : String :=
  "\x7b\"layout\":\x7b\"width\":\"w32\",\"members\":" ++
    "[[\"label\",\"vl_string\"],[\"number\",\x7b\"int\":2\x7d]]\x7d," ++
    "\"rows\":[\x7b\"label\":\"a\",\"label\":\"b\"\x7d," ++
    "\x7b\"label\":\"\\u0000\",\"number\":\"c\"\x7d]\x7d"

/-- The values of the rows in `repeatedNames`. -/
def repeatedRows : List Json :=
  [.ofFields [("label", .ofText "a"), ("label", .ofText "b")],
    .ofFields [("label", .ofText "\x00"), ("number", .ofText "c")]]

/-- What `repeatedNames` reads as. -/
def repeatedDocument : DemoDocument where
  config := {}
  layout := labelled.toSpec
  rows := [[("label", some "b")], [("label", some "\x00"), ("number", some "c")]]

theorem reads_repeatedRows : (Json.array repeatedRows).Reads := by
  have texts : ∀ fields : List (String × String),
      (Json.ofFields (fields.map fun field => (field.1, .ofText field.2))).Reads := by
    intro fields
    refine Json.reads_ofFields fun field mem => ?_
    obtain ⟨text, -, rfl⟩ := List.mem_map.1 mem
    exact Json.reads_ofText text.2
  refine Json.reads_array fun row mem => ?_
  simp only [repeatedRows, List.mem_cons, List.not_mem_nil, or_false] at mem
  rcases mem with rfl | rfl
  · exact texts [("label", "a"), ("label", "b")]
  · exact texts [("label", "\x00"), ("number", "c")]

theorem jsonParse_repeatedNames :
    Json.parse? repeatedNames =
      some (.ofFields [("layout", labelled.toSpec.toJson), ("rows", .array repeatedRows)]) := by
  have written : repeatedNames = Json.compact
      (.ofFields [("layout", labelled.toSpec.toJson), ("rows", .array repeatedRows)]) := by
    decide +kernel
  rw [written]
  refine Json.Reads.parse?_compact (Json.reads_ofFields fun field mem => ?_)
  simp only [List.mem_cons, List.not_mem_nil, or_false] at mem
  rcases mem with rfl | rfl
  · exact labelled.toSpec.reads_toJson
  · exact reads_repeatedRows

theorem mapM_repeatedRows : repeatedRows.mapM Row.ofJson? = some repeatedDocument.rows := by
  have first : Row.ofJson? (.ofFields [("label", .ofText "a"), ("label", .ofText "b")]) =
      some [("label", some "b")] := by
    show some (Row.ofFields [("label", some "a"), ("label", some "b")]) = _
    rw [Row.ofFields, List.mergeSort_of_pairwise (by decide +kernel)]
    rfl
  have second : Row.ofJson? (.ofFields [("label", .ofText "\x00"), ("number", .ofText "c")]) =
      some [("label", some "\x00"), ("number", some "c")] := by
    show some (Row.ofFields [("label", some "\x00"), ("number", some "c")]) = _
    rw [Row.ofFields, List.mergeSort_of_pairwise (by decide +kernel)]
    rfl
  rw [repeatedRows, List.mapM_cons, List.mapM_cons, List.mapM_nil, first, second]
  rfl

theorem parse_repeatedNames : parse? (utf8 repeatedNames) = some repeatedDocument := by
  have record : (Json.ofFields [("layout", labelled.toSpec.toJson),
      ("rows", .array repeatedRows)]).record? jsonKeys =
        some [none, some labelled.toSpec.toJson, some (.array repeatedRows)] := rfl
  have layout : LayoutSpec.ofJson? labelled.toSpec.toJson = some labelled.toSpec := by
    decide +kernel
  rw [parse?_utf8 jsonParse_repeatedNames]
  simp only [ofJson?, record, layout, Json.orDefault, Json.items?, mapM_repeatedRows,
    Option.bind_eq_bind, Option.bind_some]
  rfl

theorem rowValues_repeatedNames : rowValues? (utf8 repeatedNames) = some repeatedRows := by
  rw [rowValues?_utf8 jsonParse_repeatedNames]
  rfl

theorem demoLines_repeatedRows :
    labelled.demoLines repeatedRows =
      ["record size 6 bytes, pointer size 4", "  label:VlString@0", "  number:Int(2)@4",
        "record 0: label=Some(\"b\")", "record 1: label=None",
        "released 1 strings (status 0), 0 live"] := by
  have shown : shownOption (some "b") = "Some(\"b\")" := by decide +kernel
  have members : labelled.stringMembers = [⟨"label", .vlString, 0⟩] := by decide
  have first : (Json.ofFields [("label", .ofText "a"), ("label", .ofText "b")]).storedText?
      "label" = some "b" := by decide +kernel
  have second : (Json.ofFields [("label", .ofText "\x00"), ("number", .ofText "c")]).storedText?
      "label" = none := by decide +kernel
  simp only [CompoundLayout.demoLines, CompoundLayout.recordLine, CompoundLayout.textCount,
    repeatedRows, members, List.mapIdx_cons, List.mapIdx_nil, List.map_cons, List.map_nil,
    List.countP_cons, List.countP_nil, Member.shown, first, second, shown]
  decide +kernel

theorem fitsInt32_labelled : labelled.FitsInt32 2 where
  recordSize_lt := by decide
  position_lt := by decide

theorem transcript_shows_rows_repeatedNames :
    parse? (utf8 repeatedNames) = some repeatedDocument ∧
      CompoundLayout.ofSpec repeatedDocument.layout = .ok labelled ∧
      labelled.FitsInt32 repeatedDocument.rows.length ∧
      (runBytes (utf8 repeatedNames)).code = 0 ∧
      (runBytes (utf8 repeatedNames)).out = Transcript.ofLines
        ["record size 6 bytes, pointer size 4", "  label:VlString@0", "  number:Int(2)@4",
          "record 0: label=Some(\"b\")", "record 1: label=None",
          "released 1 strings (status 0), 0 live"] := by
  obtain ⟨rows, values, -, code, out, -⟩ :=
    transcript_shows_rows parse_repeatedNames build_labelled fitsInt32_labelled
  rw [rowValues_repeatedNames] at values
  cases values
  rw [demoLines_repeatedRows] at out
  exact ⟨parse_repeatedNames, build_labelled, fitsInt32_labelled, code, out⟩

end DemoDocument

end StringSlots
