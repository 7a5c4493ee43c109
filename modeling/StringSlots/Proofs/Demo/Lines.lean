import Mathlib.Data.List.Forall2
import StringSlots.Proofs.Demo.Rows
import StringSlots.Proofs.Demo.Session
import StringSlots.Proofs.Text.Quoted

/-!
# The lines of a demo

What a demo prints is a function of its layout and of the values of its rows
(`CompoundLayout.demoLines`), and it hides no text: rows that are printed alike have the same texts
for the string members of each record (`CompoundLayout.ofLines_demoLines_eq_iff`).

Names of members are printed as they are and may hold anything, also line breaks. What tells two
outputs apart is that the names are the same in both, and that no text is shown as the beginning of
another.
-/

namespace StringSlots

theorem Member.shown_append_inj {member : Member} {text? other? : String → Option String}
    {x y : String} (same : member.shown text? ++ x = member.shown other? ++ y) :
    text? member.name = other? member.name ∧ x = y := by
  simp only [shown, String.append_assoc, String.append_right_inj] at same
  exact shownOption_append_inj same

namespace CompoundLayout

section Lines

variable (layout : CompoundLayout)

/-- The number of string members that have a text. -/
def textCount (text? : String → Option String) : Nat :=
  layout.stringMembers.countP fun member => (text? member.name).isSome

/-- The lines of a demo on rows. -/
def demoLines (rows : List Json) : List String :=
  layout.headLines ++ rows.mapIdx (fun record row => layout.recordLine row.storedText? record) ++
    [releaseLine (rows.map fun row => layout.textCount row.storedText?).sum]

/-- The lines of records that have any numbers. -/
def recordLines (number : Nat → Nat) (rows : List Json) : List String :=
  rows.mapIdx fun record row => layout.recordLine row.storedText? (number record)

theorem recordLines_cons (number : Nat → Nat) (row : Json) (rows : List Json) :
    layout.recordLines number (row :: rows) =
      layout.recordLine row.storedText? (number 0) ::
        layout.recordLines (fun record => number (record + 1)) rows :=
  List.mapIdx_cons

theorem demoLines_eq (rows : List Json) :
    layout.demoLines rows = layout.headLines ++ (layout.recordLines id rows ++
      [releaseLine (rows.map fun row => layout.textCount row.storedText?).sum]) :=
  List.append_assoc ..

/-- Two rows have the same texts for the string members. -/
def SameTexts (row other : Json) : Prop :=
  ∀ member ∈ layout.stringMembers, row.storedText? member.name = other.storedText? member.name

end Lines

variable {layout : CompoundLayout} {text? other? : String → Option String} {rows others : List Json}

/-! ## Lines of the same texts -/

theorem recordLine_congr
    (same : ∀ member ∈ layout.stringMembers, text? member.name = other? member.name)
    (record : Nat) : layout.recordLine text? record = layout.recordLine other? record := by
  rw [recordLine, recordLine]
  have shown : layout.stringMembers.map (·.shown text?) =
      layout.stringMembers.map (·.shown other?) := by
    apply List.map_congr_left
    intro member mem
    rw [Member.shown, Member.shown, same member mem]
  rw [shown]

theorem textCount_congr
    (same : ∀ member ∈ layout.stringMembers, text? member.name = other? member.name) :
    layout.textCount text? = layout.textCount other? := by
  apply List.countP_congr
  intro member mem
  rw [same member mem]

theorem recordLines_congr (same : List.Forall₂ layout.SameTexts rows others)
    (number : Nat → Nat) : layout.recordLines number rows = layout.recordLines number others := by
  induction same generalizing number with
  | nil => rfl
  | cons texts _ ih => rw [recordLines_cons, recordLines_cons, recordLine_congr texts, ih]

theorem map_textCount_congr (same : List.Forall₂ layout.SameTexts rows others) :
    rows.map (fun row => layout.textCount row.storedText?) =
      others.map fun row => layout.textCount row.storedText? := by
  induction same with
  | nil => rfl
  | cons texts _ ih => rw [List.map_cons, List.map_cons, textCount_congr texts, ih]

/-! ## The texts of a line -/

/-- The texts of members that are shown alike, whatever follows them, are the same. -/
theorem intercalate_shown_append_inj {members : List Member} {x y : String}
    (same : ", ".intercalate (members.map (·.shown text?)) ++ x =
      ", ".intercalate (members.map (·.shown other?)) ++ y) :
    (∀ member ∈ members, text? member.name = other? member.name) ∧ x = y := by
  induction members with
  | nil =>
      simp only [List.map_nil, String.intercalate_nil, String.append_right_inj] at same
      exact ⟨fun member mem => absurd mem List.not_mem_nil, same⟩
  | cons member rest ih =>
      cases rest with
      | nil =>
          simp only [List.map_cons, List.map_nil, String.intercalate_singleton] at same
          obtain ⟨text, rests⟩ := Member.shown_append_inj same
          exact ⟨List.forall_mem_singleton.2 text, rests⟩
      | cons next others =>
          simp only [List.map_cons, String.intercalate_cons_cons, String.append_assoc] at same
          obtain ⟨text, later⟩ := Member.shown_append_inj same
          obtain ⟨texts, rests⟩ := ih ((String.append_right_inj ", ").1 later)
          exact ⟨List.forall_mem_cons.2 ⟨text, texts⟩, rests⟩

theorem recordLine_append_inj {record : Nat} {x y : String}
    (same : layout.recordLine text? record ++ x = layout.recordLine other? record ++ y) :
    (∀ member ∈ layout.stringMembers, text? member.name = other? member.name) ∧ x = y := by
  simp only [recordLine, String.append_assoc, String.append_right_inj] at same
  exact intercalate_shown_append_inj same

/-- The line of a record differs from the last line in its third letter. -/
theorem recordLine_append_ne (text? : String → Option String) (record count : Nat) (x y : String) :
    layout.recordLine text? record ++ x ≠ releaseLine count ++ y := by
  intro same
  have chars := congrArg String.toList same
  simp only [recordLine, releaseLine, String.toList_append, List.append_assoc] at chars
  change "record ".toList ++ _ = "released ".toList ++ _ at chars
  simp at chars

/-! ## The texts of an output -/

/-- Records that are printed alike up to the last line have the same texts. -/
theorem sameTexts_of_ofLines_eq {number : Nat → Nat} {count total : Nat}
    (same : Transcript.ofLines (layout.recordLines number rows ++ [releaseLine count]) =
      Transcript.ofLines (layout.recordLines number others ++ [releaseLine total])) :
    List.Forall₂ layout.SameTexts rows others := by
  induction rows generalizing number others with
  | nil =>
      cases others with
      | nil => exact List.Forall₂.nil
      | cons other others =>
          rw [recordLines_cons, List.cons_append, Transcript.ofLines_cons] at same
          exact absurd same.symm (recordLine_append_ne _ _ _ _ _)
  | cons row rows ih =>
      rw [recordLines_cons, List.cons_append, Transcript.ofLines_cons] at same
      cases others with
      | nil => exact absurd same (recordLine_append_ne _ _ _ _ _)
      | cons other others =>
          rw [recordLines_cons, List.cons_append, Transcript.ofLines_cons] at same
          obtain ⟨texts, later⟩ := recordLine_append_inj same
          exact List.Forall₂.cons texts (ih ((String.append_right_inj "\n").1 later))

/-- Two lists of rows are printed alike exactly when they have the same texts for the string members
of each record. -/
theorem ofLines_demoLines_eq_iff :
    Transcript.ofLines (layout.demoLines rows) = Transcript.ofLines (layout.demoLines others) ↔
      List.Forall₂ layout.SameTexts rows others := by
  rw [demoLines_eq, demoLines_eq, Transcript.ofLines_append layout.headLines,
    Transcript.ofLines_append layout.headLines, String.append_right_inj]
  constructor
  · exact sameTexts_of_ofLines_eq
  · intro same
    rw [recordLines_congr same, map_textCount_congr same]

end CompoundLayout

end StringSlots
