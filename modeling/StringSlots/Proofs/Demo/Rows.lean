import Mathlib.Data.List.Forall2
import StringSlots.Demo.Document
import StringSlots.Proofs.Text.Null

/-!
# Rows of a document

A row is made from the fields of an object by sorting them by name and keeping the last of each run
of one name. Sorting is stable, so that is the last field of the name in the object
(`Row.mem_ofFields_iff`), and no name stands twice in a row (`Row.pairwise_ofFields`).

`Json.storedText?` is the text that an object has for a name when texts with U+0000 do not count.
`Row.storedText?_eq_some_iff` finds it in the row that the object reads as, and
`DemoDocument.exists_rowValues` finds the objects behind the rows of a document.
-/

namespace StringSlots

/-! ## Fields of a name -/

section Fields

variable {α β : Type}

/-- The last field of a name. -/
def lastNamed? (name : String) (fields : List (String × α)) : Option (String × α) :=
  (fields.filter fun field => field.1 = name).getLast?

theorem lastNamed?_cons (name : String) (field : String × α) (rest : List (String × α)) :
    lastNamed? name (field :: rest) =
      (lastNamed? name rest).or (if field.1 = name then some field else none) := by
  rw [lastNamed?, List.filter_cons]
  by_cases named : field.1 = name
  · simp only [named, decide_true, if_true, List.getLast?_cons]
    show some (Option.getD (lastNamed? name rest) field) = _
    cases lastNamed? name rest <;> rfl
  · simp only [named, decide_false, if_false, Option.or_none]
    rfl

theorem lastNamed?_eq_none_iff {name : String} {fields : List (String × α)} :
    lastNamed? name fields = none ↔ ∀ field ∈ fields, field.1 ≠ name := by
  simp [lastNamed?]

theorem lastNamed?_map (name : String) (read : α → β) (fields : List (String × α)) :
    lastNamed? name (fields.map fun field => (field.1, read field.2)) =
      (lastNamed? name fields).map fun field => (field.1, read field.2) := by
  rw [lastNamed?, List.filter_map, List.getLast?_map]
  rfl

theorem name_of_lastNamed? {name : String} {fields : List (String × α)} {field : String × α}
    (last : lastNamed? name fields = some field) : field.1 = name := by
  have mem := List.mem_of_getLast? last
  exact of_decide_eq_true (List.mem_filter.1 mem).2

end Fields

/-! ## Rows of fields -/

namespace Row

variable {field next own : String × Option String} {fields rest : List (String × Option String)}

/-- Fields in ascending order of their names. -/
abbrev Ascends (fields : List (String × Option String)) : Prop :=
  fields.Pairwise fun a b => utf8Le a.1 b.1 = true

/-- The field that is kept first has the name that comes first. -/
theorem exists_lastOfEach_cons (field : String × Option String)
    (rest : List (String × Option String)) :
    ∃ value others, lastOfEach (field :: rest) = (field.1, value) :: others := by
  rw [lastOfEach]
  split
  · exact ⟨field.2, [], rfl⟩
  · next kept fields _ =>
    split
    · next same => exact ⟨kept.2, fields, by rw [same]⟩
    · exact ⟨field.2, kept :: fields, rfl⟩

theorem lastOfEach_cons_of_eq (same : field.1 = next.1) :
    lastOfEach (field :: next :: rest) = lastOfEach (next :: rest) := by
  obtain ⟨value, others, first⟩ := exists_lastOfEach_cons next rest
  rw [lastOfEach, first]
  exact if_pos same

theorem lastOfEach_cons_of_ne (differ : field.1 ≠ next.1) :
    lastOfEach (field :: next :: rest) = field :: lastOfEach (next :: rest) := by
  obtain ⟨value, others, first⟩ := exists_lastOfEach_cons next rest
  rw [lastOfEach, first]
  exact if_neg differ

theorem lastOfEach_sublist (fields : List (String × Option String)) :
    (lastOfEach fields).Sublist fields := by
  induction fields with
  | nil => exact List.Sublist.slnil
  | cons field rest ih =>
      rw [lastOfEach]
      split
      · exact List.Sublist.cons_cons field (List.nil_sublist rest)
      · next kept =>
        rw [kept] at ih
        split
        · exact ih.cons field
        · exact ih.cons_cons field

/-- A name that differs from the next one does not come again. -/
theorem Ascends.ne_of_mem (ascends : Ascends (field :: next :: rest)) (differ : field.1 ≠ next.1)
    (mem : own ∈ next :: rest) : field.1 ≠ own.1 := by
  intro same
  obtain ⟨before, behind⟩ := List.pairwise_cons.1 ascends
  have above := before next List.mem_cons_self
  rcases List.mem_cons.1 mem with rfl | later
  · exact differ same
  · have below := (List.pairwise_cons.1 behind).1 own later
    rw [← same] at below
    exact differ (utf8Le_antisymm above below)

theorem pairwise_lastOfEach (ascends : Ascends fields) :
    (lastOfEach fields).Pairwise fun a b => a.1 ≠ b.1 := by
  induction fields with
  | nil => exact List.Pairwise.nil
  | cons field rest ih =>
      cases rest with
      | nil => exact List.pairwise_singleton ..
      | cons next rest =>
          have kept := ih (List.pairwise_cons.1 ascends).2
          by_cases same : field.1 = next.1
          · rw [lastOfEach_cons_of_eq same]
            exact kept
          · rw [lastOfEach_cons_of_ne same]
            refine List.pairwise_cons.2 ⟨?_, kept⟩
            intro other mem
            exact ascends.ne_of_mem same ((lastOfEach_sublist _).subset mem)

theorem mem_lastOfEach_iff (ascends : Ascends fields) :
    own ∈ lastOfEach fields ↔ lastNamed? own.1 fields = some own := by
  induction fields with
  | nil => exact iff_of_false List.not_mem_nil nofun
  | cons field rest ih =>
      rw [lastNamed?_cons]
      cases rest with
      | nil =>
          show own ∈ [field] ↔ (if field.1 = own.1 then some field else none) = some own
          rw [List.mem_singleton]
          constructor
          · rintro rfl
            exact if_pos rfl
          · intro found
            split at found
            · exact (Option.some.inj found).symm
            · cases found
      | cons next rest =>
          have kept := ih (List.pairwise_cons.1 ascends).2
          by_cases same : field.1 = next.1
          · -- a later field of the name takes the place of this one
            rw [lastOfEach_cons_of_eq same, kept, lastNamed?_cons, same, Option.or_assoc]
            split <;> rfl
          · rw [lastOfEach_cons_of_ne same, List.mem_cons, kept]
            by_cases named : field.1 = own.1
            · -- no later field has the name
              have unnamed : lastNamed? own.1 (next :: rest) = none := by
                rw [lastNamed?_eq_none_iff]
                intro other mem other_named
                exact ascends.ne_of_mem same mem (named.trans other_named.symm)
              rw [unnamed, if_pos named, Option.none_or, Option.some.injEq, eq_comm]
              exact or_iff_left nofun
            · rw [if_neg named, Option.or_none, or_iff_right]
              rintro rfl
              exact named rfl

theorem ascends_mergeSort (fields : List (String × Option String)) :
    Ascends (fields.mergeSort fun a b => utf8Le a.1 b.1) :=
  @List.pairwise_mergeSort (String × Option String) (fun a b => utf8Le a.1 b.1)
    (fun _ _ _ => utf8Le_trans) (fun a b => utf8Le_total a.1 b.1) fields

/-- Sorting by name keeps the order of the fields of one name. -/
theorem lastNamed?_mergeSort (name : String) (fields : List (String × Option String)) :
    lastNamed? name (fields.mergeSort fun a b => utf8Le a.1 b.1) = lastNamed? name fields := by
  have own : Ascends (fields.filter fun field => field.1 = name) := by
    refine List.pairwise_of_forall_mem_list ?_
    intro a a_mem b b_mem
    simp only [List.mem_filter, decide_eq_true_eq] at a_mem b_mem
    rw [a_mem.2, b_mem.2]
    exact utf8Le_refl name
  have kept := @List.sublist_mergeSort (String × Option String) (fun a b => utf8Le a.1 b.1) fields
    (fun _ _ _ => utf8Le_trans) (fun a b => utf8Le_total a.1 b.1) _ own List.filter_sublist
  have within := kept.filter fun field => field.1 = name
  rw [List.filter_filter] at within
  simp only [Bool.and_self] at within
  -- both lists have the same elements, so the shorter one is all of the longer one
  have lengths := ((List.mergeSort_perm fields fun a b => utf8Le a.1 b.1).filter
    fun field => field.1 = name).length_eq
  rw [lastNamed?, lastNamed?, within.eq_of_length lengths.symm]

/-- No name stands twice in a row. -/
theorem pairwise_ofFields (fields : List (String × Option String)) :
    (ofFields fields).Pairwise fun a b => a.1 ≠ b.1 :=
  pairwise_lastOfEach (ascends_mergeSort fields)

/-- A row has the last field of each name. -/
theorem mem_ofFields_iff : own ∈ ofFields fields ↔ lastNamed? own.1 fields = some own := by
  rw [ofFields, mem_lastOfEach_iff (ascends_mergeSort fields), lastNamed?_mergeSort]

end Row

/-! ## Texts of an object -/

/-- The text of the last field of a name, unless U+0000 is in it; `none` when that field is no text
or when there is no such field. -/
def Json.storedText? (value : Json) (name : String) : Option String := do
  let fields ← value.fields?
  let field ← lastNamed? name fields
  let text ← field.2.text?
  if '\x00' ∈ text.toList then none else some text

namespace Row

variable {value : Json} {row : Row}

theorem exists_of_ofJson? (read : ofJson? value = some row) :
    ∃ fields, value.fields? = some fields ∧
      row = ofFields (fields.map fun field => (field.1, field.2.text?)) := by
  rw [ofJson?] at read
  obtain ⟨fields, found, rest⟩ := Option.bind_eq_some_iff.1 read
  split at rest
  · exact ⟨fields, found, (Option.some.inj rest).symm⟩
  · cases rest

/-- No name stands twice in the row of an object. -/
theorem pairwise_of_ofJson? (read : ofJson? value = some row) :
    row.Pairwise fun a b => a.1 ≠ b.1 := by
  obtain ⟨fields, -, rfl⟩ := exists_of_ofJson? read
  exact pairwise_ofFields _

theorem pairwise_of_forall₂ {values : List Json} {rows : List Row}
    (read : List.Forall₂ (fun value row => ofJson? value = some row) values rows) :
    ∀ row ∈ rows, row.Pairwise fun a b => a.1 ≠ b.1 := by
  induction read with
  | nil => exact fun row mem => absurd mem List.not_mem_nil
  | cons first _ ih => exact List.forall_mem_cons.2 ⟨pairwise_of_ofJson? first, ih⟩

/-- The texts of an object are those of its row. -/
theorem storedText?_eq_some_iff (read : ofJson? value = some row) {name text : String} :
    value.storedText? name = some text ↔
      (name, some text) ∈ row ∧ Arena.nulPosition? text = none := by
  obtain ⟨fields, found, rfl⟩ := exists_of_ofJson? read
  rw [mem_ofFields_iff, Arena.nulPosition?_eq_none_iff, lastNamed?_map, Json.storedText?, found]
  show ((lastNamed? name fields).bind fun field => field.2.text?.bind fun text =>
    if '\x00' ∈ text.toList then none else some text) = _ ↔ _
  cases last : lastNamed? name fields with
  | none => simp
  | some field =>
      have named := name_of_lastNamed? last
      rw [Option.bind_some, Option.map_some, Option.some.injEq, Prod.mk.injEq]
      cases field.2.text? with
      | none => simp
      | some other =>
          rw [Option.bind_some, Option.some.injEq]
          by_cases nul : '\x00' ∈ other.toList
          · rw [if_pos nul]
            refine iff_of_false nofun ?_
            rintro ⟨⟨-, rfl⟩, clean⟩
            exact clean nul
          · rw [if_neg nul, Option.some.injEq]
            constructor
            · rintro rfl
              exact ⟨⟨named, rfl⟩, nul⟩
            · rintro ⟨⟨-, same⟩, -⟩
              exact same

end Row

/-! ## The objects behind the rows -/

namespace DemoDocument

/-- The values of the rows of a document. -/
def rowItems? (value : Json) : Option (List Json) := do
  match ← value.record? jsonKeys with
  | [_, _, some rows] => rows.items?
  | _ => none

/-- The values of the rows of the document in the bytes of a file. -/
def rowValues? (bytes : Bytes) : Option (List Json) := do
  let text ← ofUtf8? bytes
  let value ← Json.parse? text
  rowItems? value

theorem parse?_utf8 {text : String} {value : Json} (found : Json.parse? text = some value) :
    parse? (utf8 text) = ofJson? value := by
  rw [parse?, ofUtf8?_utf8]
  show (Json.parse? text).bind ofJson? = _
  rw [found]
  rfl

theorem rowValues?_utf8 {text : String} {value : Json} (found : Json.parse? text = some value) :
    rowValues? (utf8 text) = rowItems? value := by
  rw [rowValues?, ofUtf8?_utf8]
  show (Json.parse? text).bind rowItems? = _
  rw [found]
  rfl

theorem forall₂_of_mapM {α β : Type} {read : α → Option β} {values : List α} {rows : List β}
    (done : values.mapM read = some rows) :
    List.Forall₂ (fun value row => read value = some row) values rows := by
  induction values generalizing rows with
  | nil =>
      rw [List.mapM_nil] at done
      cases done
      exact List.Forall₂.nil
  | cons value rest ih =>
      rw [List.mapM_cons] at done
      obtain ⟨row, first, more⟩ := Option.bind_eq_some_iff.1 done
      obtain ⟨others, later, same⟩ := Option.bind_eq_some_iff.1 more
      cases same
      exact List.Forall₂.cons first (ih later)

/-- Each row of a document is read from the value that stands in its place. -/
theorem exists_rowItems {value : Json} {document : DemoDocument}
    (read : ofJson? value = some document) :
    ∃ values, rowItems? value = some values ∧
      List.Forall₂ (fun value row => Row.ofJson? value = some row) values document.rows := by
  rw [ofJson?] at read
  obtain ⟨parts, listed, read⟩ := Option.bind_eq_some_iff.1 read
  split at read
  · next config layout rows =>
    obtain ⟨own_config, -, read⟩ := Option.bind_eq_some_iff.1 read
    obtain ⟨own_layout, -, read⟩ := Option.bind_eq_some_iff.1 read
    obtain ⟨values, items, read⟩ := Option.bind_eq_some_iff.1 read
    obtain ⟨own_rows, each, same⟩ := Option.bind_eq_some_iff.1 read
    cases same
    refine ⟨values, ?_, forall₂_of_mapM each⟩
    rw [rowItems?, listed]
    exact items
  · cases read

theorem exists_rowValues {bytes : Bytes} {document : DemoDocument}
    (parsed : parse? bytes = some document) :
    ∃ values, rowValues? bytes = some values ∧
      List.Forall₂ (fun value row => Row.ofJson? value = some row) values document.rows := by
  rw [parse?] at parsed
  obtain ⟨text, decoded, parsed⟩ := Option.bind_eq_some_iff.1 parsed
  obtain ⟨value, found, read⟩ := Option.bind_eq_some_iff.1 parsed
  obtain ⟨values, items, each⟩ := exists_rowItems read
  refine ⟨values, ?_, each⟩
  rw [rowValues?, decoded]
  show (Json.parse? text).bind rowItems? = some values
  rw [found]
  exact items

end DemoDocument

end StringSlots
