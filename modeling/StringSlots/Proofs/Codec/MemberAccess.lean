import StringSlots.Proofs.Codec.Access
import StringSlots.Proofs.Layout.Addressing
import StringSlots.Proofs.Record.Words
import StringSlots.Proofs.Run.Members

/-!
# Access by record and member name

A call that names a record and a member is the call at the exact position of the member, or it is
refused (`Codec.member_access_exact`). The product and the sums that make up the position and the
end of its slot are those of machine words unless one of these wraps around, and then the call is
refused. So what a call reads and writes lies in the record that it names, also when there is no
such record.
-/

namespace StringSlots

/-- The position of a member in machine words, unless it wraps around. -/
def CompoundLayout.wordPosition? (layout : CompoundLayout) (record : UInt64) (member : Member) :
    Option UInt64 :=
  (Word.checkedMul record (.ofNat layout.recordSize)).bind
    (Word.checkedAdd · (.ofNat member.offset))

namespace CompoundLayout.Formed

variable {hash : String → UInt64} {layout : CompoundLayout} {member : Member}

/-- All bytes of a member lie in the record that it is a member of. -/
theorem position_add_div (formed : layout.Formed hash) (mem : member ∈ layout.members)
    (record : Nat) {distance : Nat} (within : distance < member.kind.size layout.width) :
    (layout.position record member + distance) / layout.recordSize = record := by
  have inside := formed.inside mem
  rw [position, Nat.add_assoc, Nat.mul_comm, Nat.mul_add_div formed.recordSize_pos,
    Nat.div_eq_of_lt (by omega), Nat.add_zero]

/-- The position is an address exactly when no word wraps around. -/
theorem map_toNat_wordPosition? (formed : layout.Formed hash) (mem : member ∈ layout.members)
    (record : UInt64) :
    (layout.wordPosition? record member).map UInt64.toNat =
      address? (layout.position record.toNat member) := by
  have size_lt := formed.recordSize_lt
  have inside := formed.inside mem
  have offset_lt : member.offset < addressSpace := by omega
  rw [wordPosition?, Word.map_toNat_checkedMul_bind_checkedAdd, Word.toNat_ofNat size_lt,
    Word.toNat_ofNat offset_lt, position]

end CompoundLayout.Formed

namespace Codec

/-- Both calls on a slot by record and member name fail with an error. -/
structure RefusesMember (codec : Codec) (layout : CompoundLayout) (buffer : Buffer) (record : Nat)
    (name text : String) (error : SlotError) : Prop where
  encode_eq : codec.encodeMember layout buffer record name text = codec.refuse buffer error
  decode_eq : codec.decodeMember layout buffer record name = .error error

/-- What the calls do that name a string member. -/
structure AddressesSlot (codec : Codec) (layout : CompoundLayout) (buffer : Buffer) (record : Nat)
    (member : Member) (text : String) : Prop where
  unreachable : addressSpace ≤ layout.position record member →
    codec.RefusesMember layout buffer record member.name text (.invalidOffset 0x7fff_ffff_ffff_ffff)
  encode_eq : layout.position record member < addressSpace →
    codec.encodeMember layout buffer record member.name text =
      codec.encode text buffer (layout.position record member)
  decode_eq : layout.position record member < addressSpace →
    codec.decodeMember layout buffer record member.name =
      codec.decode buffer (layout.position record member)
  outside : layout.position record member < addressSpace →
    buffer.size < layout.position record member + codec.config.width.bytes →
      codec.RefusesMember layout buffer record member.name text
        (.slotOutOfBounds (layout.position record member) codec.config.width.bytes buffer.size)
  /-- A slot inside the buffer is never reported as outside. -/
  inside : layout.position record member < addressSpace →
    layout.position record member + codec.config.width.bytes ≤ buffer.size →
      ∀ offset bytes size,
        (codec.encodeMember layout buffer record member.name text).result ≠
            .error (.slotOutOfBounds offset bytes size) ∧
          codec.decodeMember layout buffer record member.name ≠
            .error (.slotOutOfBounds offset bytes size)
  /-- Machine words give the position, unless it is no address. -/
  wordPosition_eq : ∀ word : UInt64, word.toNat = record →
    (layout.wordPosition? word member).map UInt64.toNat =
      address? (layout.position record member)
  /-- They also tell whether the slot there lies inside the buffer. -/
  fitsWords_iff : ∀ position length : UInt64, position.toNat = layout.position record member →
    length.toNat = buffer.size →
      (codec.config.width.fitsWords position length = true ↔
        layout.position record member + codec.config.width.bytes ≤ buffer.size)

/-- What the calls do that name a record and a member: the causes of a refusal in the order in which
they are looked at, and which bytes are read and written otherwise. -/
structure AddressesMember (codec : Codec) (layout : CompoundLayout) (buffer : Buffer) (record : Nat)
    (name text : String) : Prop where
  otherWidth : layout.width ≠ codec.config.width →
    codec.RefusesMember layout buffer record name text
      (.widthMismatch codec.config.width.bytes layout.width.bytes)
  unknown : layout.width = codec.config.width → (∀ member ∈ layout.members, member.name ≠ name) →
    codec.RefusesMember layout buffer record name text (.unknownMember name)
  noSlot : layout.width = codec.config.width → ∀ member ∈ layout.members, member.name = name →
    member.kind ≠ .vlString →
      codec.RefusesMember layout buffer record name text (.notAStringSlot name)
  slot : layout.width = codec.config.width → ∀ member ∈ layout.members, member.name = name →
    member.kind = .vlString → codec.AddressesSlot layout buffer record member text
  /-- A failure leaves codec and buffer as they were. -/
  refused : ∀ error, (codec.encodeMember layout buffer record name text).result = .error error →
    codec.encodeMember layout buffer record name text = codec.refuse buffer error
  /-- Only bytes of the record change. -/
  written : ∀ place,
    (codec.encodeMember layout buffer record name text).buffer.byte place ≠ buffer.byte place →
      place / layout.recordSize = record
  /-- Bytes of other records make no difference. -/
  read : ∀ other : Buffer, other.size = buffer.size →
    (∀ place, place / layout.recordSize = record → other.byte place = buffer.byte place) →
      codec.decodeMember layout other record name = codec.decodeMember layout buffer record name
  /-- There is no slot in a record that starts behind the buffer. -/
  behind : buffer.size ≤ record * layout.recordSize →
    ∃ error, codec.RefusesMember layout buffer record name text error

/-! ## A call that has no slot -/

variable {hash : String → UInt64} {codec : Codec} {layout : CompoundLayout} {buffer : Buffer}
  {record : Nat} {name text : String} {member : Member}

theorem refusesMember_of_error {error : SlotError}
    (failed : codec.memberSlot layout record name = .error error) :
    codec.RefusesMember layout buffer record name text error := by
  constructor
  · rw [encodeMember, failed]
  · rw [decodeMember, failed]

theorem memberSlot_of_otherWidth (other : layout.width ≠ codec.config.width) :
    codec.memberSlot layout record name =
      .error (.widthMismatch codec.config.width.bytes layout.width.bytes) := by
  rw [memberSlot, checkWidth, if_neg other]

theorem memberSlot_of_unknown (width : layout.width = codec.config.width)
    (missing : layout.member? name = none) :
    codec.memberSlot layout record name = .error (.unknownMember name) := by
  rw [memberSlot, checkWidth, if_pos width]
  simp only [missing]

theorem memberSlot_of_noSlot (width : layout.width = codec.config.width)
    (found : layout.member? name = some member) (noSlot : member.kind ≠ .vlString) :
    codec.memberSlot layout record name = .error (.notAStringSlot name) := by
  rw [memberSlot, checkWidth, if_pos width]
  simp only [found, if_neg (mt MemberKind.isStringSlot_iff.1 noSlot)]

/-! ## A call that has a slot -/

theorem refusesMember_of_outside {place : Nat}
    (slot : codec.memberSlot layout record name = .ok place)
    (outside : buffer.size < place + codec.config.width.bytes) :
    codec.RefusesMember layout buffer record name text
      (.slotOutOfBounds place codec.config.width.bytes buffer.size) := by
  constructor
  · rw [encodeMember, slot]
    simp only [encode_eq, if_neg (Nat.not_le.2 outside)]
    rfl
  · rw [decodeMember, slot]
    simp only [decode_eq, if_neg (Nat.not_le.2 outside)]
    rfl

theorem encode_ne_slotOutOfBounds (text : String) {place : Nat}
    (inside : place + codec.config.width.bytes ≤ buffer.size) (offset bytes size : Nat) :
    (codec.encode text buffer place).result ≠ .error (.slotOutOfBounds offset bytes size) := by
  intro failed
  rw [encode_eq, if_pos inside, Arena.alloc] at failed
  -- the errors that are left are those of the text and of the counter
  cases nul : Arena.nulPosition? text with
  | some position => simp [nul, refuse] at failed
  | none =>
      by_cases full : codec.arena.maxHandle < codec.arena.next
      · simp [nul, full, refuse] at failed
      · cases handle : Handle.ofNat? codec.arena.next <;> simp [nul, full, handle, refuse] at failed

theorem decode_ne_slotOutOfBounds {place : Nat}
    (inside : place + codec.config.width.bytes ≤ buffer.size) (offset bytes size : Nat) :
    codec.decode buffer place ≠ .error (.slotOutOfBounds offset bytes size) := by
  rw [decode_eq, if_pos inside]
  cases buffer.handleAt codec.config place with
  | none => simp
  | some handle =>
      dsimp only
      cases codec.arena.getText? handle <;> simp

/-- The whole slot of a call is in the record that it names. -/
theorem div_of_memberSlot (formed : layout.Formed hash) {place : Nat}
    (slot : codec.memberSlot layout record name = .ok place) {distance : Nat}
    (within : distance < codec.config.width.bytes) :
    (place + distance) / layout.recordSize = record := by
  obtain ⟨member, mem, -, rfl⟩ := formed.exists_of_memberSlot slot
  obtain ⟨declared, string⟩ := CompoundLayout.mem_stringMembers_iff.1 mem
  -- under another width the call has no slot
  have width : layout.width = codec.config.width := by
    by_contra other
    rw [memberSlot_of_otherWidth other] at slot
    cases slot
  apply formed.position_add_div declared
  rw [string, width]
  exact within

/-- A call that stores a text fails without a trace, or writes a handle into the slot that it
names. -/
theorem encodeMember_cases (codec : Codec) (layout : CompoundLayout) (buffer : Buffer)
    (record : Nat) (name text : String) :
    (∃ error, codec.encodeMember layout buffer record name text = codec.refuse buffer error) ∨
      ∃ place handle arena, codec.memberSlot layout record name = .ok place ∧
        codec.encodeMember layout buffer record name text =
          { result := .ok handle
            codec := { codec with arena }
            buffer := buffer.overwrite place (codec.config.image (some handle))
            log := [] } := by
  cases slot : codec.memberSlot layout record name with
  | error error => exact Or.inl ⟨error, (refusesMember_of_error slot).encode_eq⟩
  | ok place =>
      rw [encodeMember, slot]
      rcases codec.encode_cases buffer place text with
        ⟨error, refused⟩ | ⟨handle, arena, -, -, done⟩
      · exact Or.inl ⟨error, refused⟩
      · exact Or.inr ⟨place, handle, arena, rfl, done⟩

theorem encodeMember_refused {error : SlotError}
    (failed : (codec.encodeMember layout buffer record name text).result = .error error) :
    codec.encodeMember layout buffer record name text = codec.refuse buffer error := by
  rcases codec.encodeMember_cases layout buffer record name text with
    ⟨cause, refused⟩ | ⟨place, handle, arena, -, done⟩
  · rw [refused] at failed ⊢
    rw [Except.error.inj failed]
  · rw [done] at failed
    cases failed

theorem encodeMember_written (formed : layout.Formed hash) {place : Nat}
    (changed : (codec.encodeMember layout buffer record name text).buffer.byte place ≠
      buffer.byte place) :
    place / layout.recordSize = record := by
  rcases codec.encodeMember_cases layout buffer record name text with
    ⟨cause, refused⟩ | ⟨start, handle, arena, slot, done⟩
  · rw [refused] at changed
    exact absurd rfl changed
  · rw [done] at changed
    -- a byte outside the slot would not have changed
    have within : ¬(place < start ∨ start + codec.config.width.bytes ≤ place) := by
      intro outside
      apply changed
      apply Buffer.byte_overwrite_of_outside
      rwa [CodecConfig.length_image]
    obtain ⟨distance, rfl⟩ := Nat.exists_eq_add_of_le (show start ≤ place by omega)
    exact div_of_memberSlot formed slot (by omega)

theorem decodeMember_congr (formed : layout.Formed hash) {other : Buffer}
    (size : other.size = buffer.size)
    (same : ∀ place, place / layout.recordSize = record → other.byte place = buffer.byte place) :
    codec.decodeMember layout other record name = codec.decodeMember layout buffer record name := by
  cases slot : codec.memberSlot layout record name with
  | error cause => rw [decodeMember, decodeMember, slot]
  | ok start =>
      -- the slot lies in the record, where the buffers agree
      have held : other.handleAt codec.config start = buffer.handleAt codec.config start := by
        apply Buffer.handleAt_congr
        intro place above below
        apply same
        obtain ⟨distance, rfl⟩ := Nat.exists_eq_add_of_le above
        exact div_of_memberSlot formed slot (by omega)
      rw [decodeMember, decodeMember, slot]
      simp only [decode_eq, size, held, outOfBounds]

theorem refusesMember_of_behind (formed : layout.Formed hash)
    (behind : buffer.size ≤ record * layout.recordSize) :
    ∃ error, codec.RefusesMember layout buffer record name text error := by
  cases slot : codec.memberSlot layout record name with
  | error error => exact ⟨error, refusesMember_of_error slot⟩
  | ok place =>
      refine ⟨_, refusesMember_of_outside slot ?_⟩
      obtain ⟨member, -, -, rfl⟩ := formed.exists_of_memberSlot slot
      -- the slot starts no earlier than its record and has at least one byte
      have width_pos := codec.config.width.bytes_pos
      rw [CompoundLayout.position]
      omega

/-- The calls on a string member are those at its exact position. -/
theorem addressesSlot (formed : layout.Formed hash) (width : layout.width = codec.config.width)
    (mem : member ∈ layout.members) (string : member.kind = .vlString) (buffer : Buffer)
    (record : Nat) (text : String) : codec.AddressesSlot layout buffer record member text := by
  have slot : codec.memberSlot layout record member.name =
      if layout.position record member < addressSpace then .ok (layout.position record member)
      else .error (.invalidOffset unreachableOffset) :=
    formed.memberSlot_eq width (CompoundLayout.mem_stringMembers_iff.2 ⟨mem, string⟩)
  have reached (below : layout.position record member < addressSpace) :
      codec.memberSlot layout record member.name = .ok (layout.position record member) := by
    rw [slot, if_pos below]
  have encoded (below : layout.position record member < addressSpace) :
      codec.encodeMember layout buffer record member.name text =
        codec.encode text buffer (layout.position record member) := by
    rw [encodeMember, reached below]
  have decoded (below : layout.position record member < addressSpace) :
      codec.decodeMember layout buffer record member.name =
        codec.decode buffer (layout.position record member) := by
    rw [decodeMember, reached below]
  refine
    { unreachable := ?_
      encode_eq := encoded
      decode_eq := decoded
      outside := fun below leaves => refusesMember_of_outside (reached below) leaves
      inside := ?_
      wordPosition_eq := ?_
      fitsWords_iff := ?_ }
  · intro above
    apply refusesMember_of_error
    rw [slot, if_neg (Nat.not_lt.2 above)]
    rfl
  · intro below fits offset bytes size
    rw [encoded below, decoded below]
    exact ⟨encode_ne_slotOutOfBounds text fits offset bytes size,
      decode_ne_slotOutOfBounds fits offset bytes size⟩
  · rintro word rfl
    exact formed.map_toNat_wordPosition? mem word
  · intro position length position_eq length_eq
    rw [SlotWidth.fitsWords_iff, position_eq, length_eq]

/-- Members are addressed exactly. No call wraps around into a slot of another record, however large
the layout and the index of the record are. -/
theorem member_access_exact {builder : LayoutBuilder}
    (built : LayoutBuilder.buildWith hash builder = .ok layout) (codec : Codec) (buffer : Buffer)
    (record : Nat) (name text : String) :
    codec.AddressesMember layout buffer record name text := by
  have formed := (CompoundLayout.buildWith_eq_ok_iff.1 built).1
  refine
    { otherWidth := fun other => refusesMember_of_error (memberSlot_of_otherWidth other)
      unknown := ?_
      noSlot := ?_
      slot := ?_
      refused := fun _ failed => encodeMember_refused failed
      written := fun _ changed => encodeMember_written formed changed
      read := fun _ size same => decodeMember_congr formed size same
      behind := refusesMember_of_behind formed }
  · intro width absent
    apply refusesMember_of_error
    exact memberSlot_of_unknown width (formed.member?_eq_none_iff.2 absent)
  · intro width member mem named noSlot
    apply refusesMember_of_error
    exact memberSlot_of_noSlot width (formed.member?_eq_some_iff.2 ⟨mem, named⟩) noSlot
  · rintro width member mem rfl string
    exact addressesSlot formed width mem string buffer record text

/-- Records of nearly `2 ^ 64` bytes, with a string in front. -/
def spacious : CompoundLayout :=
  { labelled with
    members := [⟨"label", .vlString, 0⟩, ⟨"number", .blob 0xffff_ffff_ffff_fff8, 4⟩]
    recordSize := 0xffff_ffff_ffff_fffc }

theorem build_spacious :
    (LayoutBuilder.ofMembers .w32
        [("label", .vlString), ("number", .blob 0xffff_ffff_ffff_fff8)]).build = .ok spacious := by
  have named := (CompoundLayout.buildWith_eq_ok_iff.1 build_labelled).1
  refine CompoundLayout.buildWith_eq_ok_iff.2 ⟨?_, rfl, rfl⟩
  -- the names are those of the labels, and so is their index
  exact
    { nodup := named.nodup
      valid := by decide
      members_eq := by decide
      recordSize_eq := by decide
      recordSize_pos := by decide
      recordSize_lt := by decide
      index_eq := named.index_eq }

/-- In a buffer of one slot only the first record has one. The words of the next record wrap around
in the end of its slot, those of record `2 ^ 62` in its start, which would be that of the first. -/
theorem member_access_exact_spacious :
    let codec := Codec.new { width := .w32 }
    let buffer := Buffer.filled 4 7
    codec.encodeMember spacious buffer 0 "label" "a" = codec.encode "a" buffer 0 ∧
      codec.RefusesMember spacious buffer 1 "label" "a"
        (.slotOutOfBounds 0xffff_ffff_ffff_fffc 4 4) ∧
      (0x4000_0000_0000_0000 * .ofNat spacious.recordSize : UInt64) = 0 ∧
      codec.RefusesMember spacious buffer 0x4000_0000_0000_0000 "label" "a"
        (.invalidOffset 0x7fff_ffff_ffff_ffff) ∧
      codec.RefusesMember spacious buffer 0 "number" "a" (.notAStringSlot "number") ∧
      codec.RefusesMember spacious buffer 0 "Label" "a" (.unknownMember "Label") := by
  intro codec buffer
  have label : (⟨"label", .vlString, 0⟩ : Member) ∈ spacious.members := List.mem_cons_self
  have slots (record : Nat) :=
    (member_access_exact build_spacious codec buffer record "label" "a").slot rfl _ label rfl rfl
  have number := member_access_exact build_spacious codec buffer 0 "number" "a"
  have absent := member_access_exact build_spacious codec buffer 0 "Label" "a"
  refine ⟨(slots 0).encode_eq (by decide), (slots 1).outside (by decide) (by decide), by decide,
    (slots 0x4000_0000_0000_0000).unreachable (by decide), ?_, absent.unknown rfl (by decide)⟩
  exact number.noSlot rfl ⟨"number", .blob 0xffff_ffff_ffff_fff8, 4⟩ (by decide) rfl nofun

end Codec

end StringSlots
