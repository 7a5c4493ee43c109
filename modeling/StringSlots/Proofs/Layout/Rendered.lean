import StringSlots.Layout.Json
import StringSlots.Proofs.Json.Reading
import StringSlots.Proofs.Layout.Stored

/-!
# Layouts written as JSON

A description that is written as JSON is read back as it was, whatever its names hold and whatever a
builder thinks of it (`LayoutSpec.ofJson?_toJson`, `LayoutSpec.reads_toJson`). A builder has causes
of its own to refuse members (`LayoutBuilder.Cause`), so what comes out of a written description is
what the description is worth, and never that the document is malformed.
-/

namespace StringSlots

/-! ## Parts of a description -/

namespace Json

theorem mapM_map_eq_some {α β : Type} {write : α → β} {read : β → Option α} {items : List α}
    (back : ∀ item ∈ items, read (write item) = some item) :
    (items.map write).mapM read = some items := by
  induction items with
  | nil => rfl
  | cons item items ih =>
      obtain ⟨first, others⟩ := List.forall_mem_cons.1 back
      rw [List.map_cons, List.mapM_cons, first, ih others]
      rfl

theorem fields?_ofFields (fields : List (String × Json)) :
    (ofFields fields).fields? = some fields :=
  mapM_map_eq_some fun _ _ => rfl

end Json

theorem SlotWidth.ofJson?_ofText_name (width : SlotWidth) :
    ofJson? (.ofText width.name) = some width :=
  ofName?_name width

namespace MemberKind

variable {kind : MemberKind}

theorem ofJson?_toJson (small : ∀ size, kind.declaredSize? = some size → size < addressSpace) :
    ofJson? kind.toJson = some kind := by
  rw [ofJson?, toJson]
  cases declared : kind.declaredSize? with
  | none =>
      have plain : (Json.ofText kind.name).plainVariant?.bind plainOfName? = some kind :=
        plainOfName?_name declared
      dsimp only
      rw [plain]
  | some size =>
      -- a size is no null, so the kind is not taken for one without a size
      obtain ⟨-, ofSize, sized, same⟩ := sizedOfName?_name declared
      have natural : (Json.ofNat size).natural? = some size :=
        Json.NumberLiteral.natural?_ofNat (small size declared)
      show (do
        let kind ← sizedOfName? kind.name
        let size ← (Json.ofNat size).natural?
        some (kind size)) = some kind
      rw [sized, natural, ← same]
      rfl

theorem reads_toJson (kind : MemberKind) : kind.toJson.Reads := by
  rw [toJson]
  split
  · exact Json.reads_ofText kind.name
  · next size _ =>
    refine Json.reads_ofFields fun field mem => ?_
    rw [List.mem_singleton.1 mem]
    exact Json.reads_ofNat size

end MemberKind

namespace LayoutSpec

variable {spec : LayoutSpec}

theorem memberOfJson?_toJson {member : String × MemberKind}
    (small : ∀ size, member.2.declaredSize? = some size → size < addressSpace) :
    memberOfJson? (.array [.ofText member.1, member.2.toJson]) = some member := by
  show (do
    let kind ← MemberKind.ofJson? member.2.toJson
    some (member.1, kind)) = some member
  rw [MemberKind.ofJson?_toJson small]
  rfl

/-- The value of a description stands for this description. -/
theorem ofJson?_toJson
    (small : ∀ member ∈ spec.members, ∀ size, member.2.declaredSize? = some size →
      size < addressSpace) :
    ofJson? spec.toJson = some spec := by
  have members := Json.mapM_map_eq_some fun member mem => memberOfJson?_toJson (small member mem)
  have record : spec.toJson.record? jsonKeys =
      some [some (.ofText spec.width.name), some (.array (spec.members.map fun member =>
        .array [.ofText member.1, member.2.toJson]))] := by
    rw [toJson, Json.record?, Json.fields?_ofFields]
    · simp [jsonKeys, Json.once?]
    · exact fun items => nofun
  simp only [ofJson?, record, Option.bind_eq_bind, Option.bind_some, Json.orDefault,
    SlotWidth.ofJson?_ofText_name, Json.items?, members]

theorem reads_toJson (spec : LayoutSpec) : spec.toJson.Reads := by
  refine Json.reads_ofFields fun field mem => ?_
  simp only [List.mem_cons, List.not_mem_nil, or_false] at mem
  rcases mem with rfl | rfl
  · exact Json.reads_ofText _
  · refine Json.reads_array fun item item_mem => ?_
    obtain ⟨member, -, rfl⟩ := List.mem_map.1 item_mem
    refine Json.reads_array fun part part_mem => ?_
    simp only [List.mem_cons, List.not_mem_nil, or_false] at part_mem
    rcases part_mem with rfl | rfl
    · exact Json.reads_ofText member.1
    · exact member.2.reads_toJson

/-- Reading the document of a description gives the description back. -/
theorem ofJson?_render
    (small : ∀ member ∈ spec.members, ∀ size, member.2.declaredSize? = some size →
      size < addressSpace) :
    (Json.parse? spec.render).bind ofJson? = some spec := by
  rw [render, spec.reads_toJson.parse?_compact, Option.bind_some, ofJson?_toJson small]

example :
    render { width := .w32, members := [("\"\\/\n\x1fß", .blob 300), ("", .vlString)] } =
      "\x7b\"width\":\"w32\",\"members\":" ++
        "[[\"\\\"\\\\/\\n\\u001fß\",\x7b\"opaque\":300\x7d],[\"\",\"vl_string\"]]\x7d" := by
  decide +kernel

end LayoutSpec

/-! ## Layouts -/

namespace CompoundLayout

/-- The document of a description is worth what the description is worth: the same layout, or the
refusal of the builder, which is never that of a malformed document. -/
theorem parse_render (spec : LayoutSpec)
    (small : ∀ member ∈ spec.members, ∀ size, member.2.declaredSize? = some size →
      size < addressSpace) :
    (Json.parse? spec.render).bind LayoutSpec.ofJson? = some spec ∧
      parse spec.render = ofSpec spec ∧
      ∀ detail, parse spec.render ≠ .error (.malformedConfig detail) := by
  have read := LayoutSpec.ofJson?_render small
  have same : parse spec.render = ofSpec spec := by
    rw [parse, read]
  refine ⟨read, same, ?_⟩
  intro detail malformed
  rw [same] at malformed
  cases LayoutBuilder.cause_of_buildWith malformed

/-- A name of escapes and of characters that need none, and a record that fills the memory. -/
def overfull : LayoutSpec where
  width := .w32
  members := [("\"\\/\x00\n\x1f\x7fß𝄞", .blob 18446744073709551615), ("", .vlString)]

theorem parse_render_overfull :
    parse overfull.render = .error (.layoutTooLarge "") ∧
      (Json.parse? overfull.render).bind LayoutSpec.ofJson? = some overfull := by
  have small : ∀ member ∈ overfull.members, ∀ size, member.2.declaredSize? = some size →
      size < addressSpace := by
    simp [overfull, MemberKind.declaredSize?, addressSpace]
  have placed : LayoutBuilder.place .w32 ∅ 0 overfull.members = .error (.layoutTooLarge "") := by
    decide +kernel
  have refused : ofSpec overfull = .error (.layoutTooLarge "") := by
    simp only [ofSpec, LayoutBuilder.build, LayoutBuilder.buildWith, LayoutBuilder.ofMembers,
      overfull] at placed ⊢
    rw [placed]
  obtain ⟨read, same, -⟩ := parse_render overfull small
  exact ⟨same.trans refused, read⟩

end CompoundLayout

end StringSlots
