import StringSlots.Proofs.Cbor.Prefix
import StringSlots.Proofs.Layout.Stored

/-!
# Stored layouts cut short

The reader of descriptions is prefix-stable part by part: names of variants, kinds, members,
entries, among these also entries under unknown keys. It takes all of a stored form, hence no part
of one, and the bytes of a layout that was not stored to its end are never read as some other
layout, nor do they reach a builder (`CompoundLayout.truncated_refused`).
-/

namespace StringSlots

open Cbor

namespace LayoutSpec

/-! ## Parts of a description -/

theorem prefixStable_readVariantName : PrefixStable readVariantName := by
  intro bytes name rest taken more
  cases bytes with
  | nil => cases taken
  | cons byte behind =>
      rw [readVariantName] at taken
      rw [List.cons_append, readVariantName]
      split at taken
      · next entry =>
        rw [if_pos entry]
        exact prefixStable_readText taken more
      · next plain =>
        rw [if_neg plain]
        exact prefixStable_readText taken more

theorem prefixStable_readWidth : PrefixStable readWidth := by
  unfold readWidth
  refine prefixStable_readVariantName.bind ?_
  intro name
  exact PrefixStable.bind_option (SlotWidth.ofName? name) .pure

theorem prefixStable_readKind : PrefixStable readKind := by
  unfold readKind
  refine prefixStable_readVariantName.bind ?_
  intro name
  dsimp only
  cases MemberKind.plainOfName? name with
  | some kind => exact .pure kind
  | none =>
      refine PrefixStable.bind_option (MemberKind.sizedOfName? name) ?_
      intro kind
      exact prefixStable_readNat.bind fun size => .pure (kind size)

theorem prefixStable_readMember (before : List (String × MemberKind)) :
    PrefixStable (readMember before) := by
  unfold readMember
  refine (prefixStable_readCount .array).bind ?_
  intro length
  refine PrefixStable.ite ?_ .fail
  refine prefixStable_readText.bind ?_
  intro name
  exact prefixStable_readKind.bind fun kind => .pure ((name, kind) :: before)

theorem prefixStable_readMembers : PrefixStable readMembers := by
  unfold readMembers
  refine (prefixStable_readHead .array).bind ?_
  intro argument
  refine PrefixStable.bind ?_ fun members => .pure members.reverse
  exact prefixStable_repeated prefixStable_readMember (fun _ => rfl) argument []

/-- An entry under an unknown key ends where its value ends. -/
theorem prefixStable_readEntry (entries : Entries) : PrefixStable (readEntry entries) := by
  unfold readEntry
  refine prefixStable_readText.bind ?_
  intro key
  refine PrefixStable.ite ?_ (PrefixStable.ite ?_ ?_)
  · cases entries.width with
    | some _ => exact .fail
    | none => exact prefixStable_readWidth.bind fun width => .pure _
  · cases entries.members with
    | some _ => exact .fail
    | none => exact prefixStable_readMembers.bind fun members => .pure _
  · exact (skipStable_skipItem (cborDepth - 1)).bind (.pure entries)

theorem prefixStable_read : PrefixStable read := by
  unfold read
  refine (prefixStable_readHead .map).bind ?_
  intro argument
  refine PrefixStable.bind
    (prefixStable_repeated prefixStable_readEntry (fun _ => rfl) argument _) ?_
  intro entries
  exact PrefixStable.bind_option entries.members fun members => .pure _

/-! ## Descriptions -/

/-- Bytes behind a description are ignored, whoever wrote the description. -/
theorem ofCbor?_append {bytes : Bytes} {spec : LayoutSpec} (stored : ofCbor? bytes = some spec)
    (more : Bytes) : ofCbor? (bytes ++ more) = some spec := by
  rw [ofCbor?_eq] at stored ⊢
  obtain ⟨⟨found, rest⟩, taken, rfl⟩ := Option.map_eq_some_iff.1 stored
  rw [prefixStable_read taken more]
  rfl

/-- A part of a stored form is no description. -/
theorem ofCbor?_of_cut {spec : LayoutSpec} (addressable : spec.Addressable) {cut : Bytes}
    (part : cut <+: spec.toCbor) (proper : cut ≠ spec.toCbor) : ofCbor? cut = none := by
  rw [ofCbor?_eq, prefixStable_read.eq_none_of_cut (takes_read addressable) part proper]
  rfl

end LayoutSpec

namespace CompoundLayout

/-- The stored form of a layout is refused as malformed when any bytes are missing at its end, and
with any bytes behind its end it is read as the layout. -/
theorem truncated_refused {layout : CompoundLayout} (storable : layout.Storable) :
    (∀ cut : Bytes, cut <+: layout.toCbor → cut ≠ layout.toCbor →
        ∃ detail, ofCbor cut = .error (.malformedCbor detail)) ∧
      ∀ more : Bytes, ofCbor (layout.toCbor ++ more) = .ok layout := by
  have addressable := storable.addressable_toSpec
  constructor
  · intro cut part proper
    have refused := LayoutSpec.ofCbor?_of_cut addressable part proper
    exact ⟨_, by rw [ofCbor, refused]⟩
  · intro more
    have stored := LayoutSpec.ofCbor?_append (LayoutSpec.ofCbor?_toCbor addressable) more
    rw [toCbor, ofCbor, stored]
    exact ofSpec_toSpec storable.formed

/-- The form of a layout cut inside the bytes of a size and between two members. -/
theorem truncated_refused_unnamed :
    unnamed.toCbor.length = 60 ∧
      (∃ detail, ofCbor [] = .error (.malformedCbor detail)) ∧
      (∃ detail, ofCbor (unnamed.toCbor.take 46) = .error (.malformedCbor detail)) ∧
      (∃ detail, ofCbor (unnamed.toCbor.take 48) = .error (.malformedCbor detail)) ∧
      ofCbor (unnamed.toCbor ++ [0xff]) = .ok unnamed := by
  have length_eq : unnamed.toCbor.length = 60 := by decide +kernel
  have refused := (truncated_refused storable_unnamed).1
  have cut : ∀ kept < 60,
      ∃ detail, ofCbor (unnamed.toCbor.take kept) = .error (.malformedCbor detail) := by
    intro kept below
    refine refused _ (List.take_prefix kept _) ?_
    intro whole
    have same_length := congrArg List.length whole
    rw [List.length_take, length_eq] at same_length
    omega
  exact ⟨length_eq, cut 0 (by decide), cut 46 (by decide), cut 48 (by decide),
    (truncated_refused storable_unnamed).2 [0xff]⟩

end CompoundLayout

end StringSlots
