import StringSlots.Proofs.Record.HandleAt
import StringSlots.Proofs.Record.Words
import StringSlots.Record.Schema

/-!
# Reads and writes of a view

A write of a slot inside the buffer is read back modulo the range of the slot, and no slot beside it
reads differently afterwards; all other writes change nothing (`RecordView.access_exact`). Two
writes at slots apart can be exchanged, so any number of writes at slots apart can be done in any
order (`RecordView.writeAll_perm`), and each of them is read back at the end.

The buffers after such writes hold the same bytes, but they need not be the same value: what was
written is kept in a search tree, whose shape depends on the order. Views are therefore compared by
their bytes (`RecordView.SameBytes`).
-/

namespace StringSlots

theorem Handle.ofNat?_eq_none_iff {raw : Nat} : Handle.ofNat? raw = none ↔ raw = 0 := by
  rw [Handle.ofNat?]
  split <;> simp <;> omega

namespace Buffer

theorem byte_overwrite_congr {a b : Buffer} {position : Nat}
    (same : a.byte position = b.byte position) (first : Nat) (image : Bytes) :
    (a.overwrite first image).byte position = (b.overwrite first image).byte position := by
  rw [byte_overwrite, byte_overwrite, same]

/-- Outside one of two writes it makes no difference when that one was done. -/
theorem byte_overwrite_comm (buffer : Buffer) {first second position : Nat} {image other : Bytes}
    (outside : position < second ∨ second + other.length ≤ position) :
    ((buffer.overwrite first image).overwrite second other).byte position =
      ((buffer.overwrite second other).overwrite first image).byte position := by
  rw [byte_overwrite_of_outside _ outside]
  exact byte_overwrite_congr (byte_overwrite_of_outside buffer outside).symm first image

theorem bytes_overwrite_comm (buffer : Buffer) {first second : Nat} {image other : Bytes}
    (apart : first + image.length ≤ second ∨ second + other.length ≤ first) :
    ((buffer.overwrite first image).overwrite second other).bytes =
      ((buffer.overwrite second other).overwrite first image).bytes := by
  refine bytes_eq_iff.2 ⟨by simp only [size_overwrite], ?_⟩
  intro position _
  -- no position lies in both images
  have outside : (position < second ∨ second + other.length ≤ position) ∨
      (position < first ∨ first + image.length ≤ position) := by
    omega
  rcases outside with of_second | of_first
  · exact byte_overwrite_comm buffer of_second
  · exact (byte_overwrite_comm buffer of_first).symm

end Buffer

namespace RecordView

/-! ## Writes with their outcome -/

/-- The width and the byte order of a view. -/
def shape (view : RecordView) : CodecConfig :=
  { width := view.width, order := view.order }

/-- The answer of a write, and the view with which its caller goes on; that of a failed write is the
view from before. -/
def write (view : RecordView) (offset : Nat) (handle : Option Handle) :
    Except SlotError Unit × RecordView :=
  match view.writeHandle offset handle with
  | .ok written => (.ok (), written)
  | .error error => (.error error, view)

variable {view : RecordView} {offset : Nat} {handle : Option Handle}

theorem write_of_inside (inside : offset + view.width.bytes ≤ view.buffer.size) :
    view.write offset handle =
      (.ok (), { view with buffer := view.buffer.overwrite offset (view.shape.image handle) }) := by
  have written := writeHandle_eq view.buffer view.shape offset handle
  rw [shape, if_pos inside] at written
  rw [write, written]
  rfl

theorem write_of_outside (outside : view.buffer.size < offset + view.width.bytes) :
    view.write offset handle =
      (.error (.slotOutOfBounds offset view.width.bytes view.buffer.size), view) := by
  have refused := writeHandle_eq view.buffer view.shape offset handle
  rw [shape, if_neg (Nat.not_le.2 outside)] at refused
  rw [write, refused]

/-- The two outcomes of a write. -/
theorem write_cases (view : RecordView) (offset : Nat) (handle : Option Handle) :
    (offset + view.width.bytes ≤ view.buffer.size ∧ view.write offset handle =
        (.ok (), { view with buffer := view.buffer.overwrite offset (view.shape.image handle) })) ∨
      (view.buffer.size < offset + view.width.bytes ∧ view.write offset handle =
        (.error (.slotOutOfBounds offset view.width.bytes view.buffer.size), view)) := by
  rcases Nat.lt_or_ge view.buffer.size (offset + view.width.bytes) with outside | inside
  · exact Or.inr ⟨outside, write_of_outside outside⟩
  · exact Or.inl ⟨inside, write_of_inside inside⟩

section

variable (view offset handle)

@[simp] theorem width_write : (view.write offset handle).2.width = view.width := by
  rcases view.write_cases offset handle with ⟨_, done⟩ | ⟨_, refused⟩
  · rw [done]
  · rw [refused]

@[simp] theorem order_write : (view.write offset handle).2.order = view.order := by
  rcases view.write_cases offset handle with ⟨_, done⟩ | ⟨_, refused⟩
  · rw [done]
  · rw [refused]

@[simp] theorem size_write : (view.write offset handle).2.buffer.size = view.buffer.size := by
  rcases view.write_cases offset handle with ⟨_, done⟩ | ⟨_, refused⟩
  · rw [done]
    exact Buffer.size_overwrite view.buffer offset _
  · rw [refused]

end

/-- Width and size of a view decide the answer of a write. -/
theorem write_answer_eq {other : RecordView} (width : other.width = view.width)
    (size : other.buffer.size = view.buffer.size) :
    (other.write offset handle).1 = (view.write offset handle).1 := by
  rcases view.write_cases offset handle with ⟨inside, done⟩ | ⟨outside, refused⟩
  · rw [done, write_of_inside (by rwa [width, size])]
  · rw [refused, write_of_outside (by rwa [width, size]), width, size]

theorem readRaw_eq_rawAt (view : RecordView) (offset : Nat) :
    view.readRaw offset =
      if offset + view.width.bytes ≤ view.buffer.size then
        .ok (view.buffer.rawAt view.shape offset)
      else .error (.slotOutOfBounds offset view.width.bytes view.buffer.size) :=
  readRaw_eq view.buffer view.shape offset

/-- A slot that was written holds the number modulo its range. -/
theorem readRaw_write_self (inside : offset + view.width.bytes ≤ view.buffer.size) :
    (view.write offset handle).2.readRaw offset =
      .ok (Handle.raw handle % Nat.pow 2 (8 * view.width.bytes)) := by
  rw [readRaw_eq_rawAt, size_write, width_write, if_pos inside, write_of_inside inside,
    ← SlotWidth.maxHandle_succ]
  exact congrArg Except.ok
    (Buffer.rawAt_overwrite_image view.buffer view.shape offset (Handle.raw handle))

theorem readHandle_write_self (inside : offset + view.width.bytes ≤ view.buffer.size) :
    (view.write offset handle).2.readHandle offset =
      .ok (Handle.ofNat? (Handle.raw handle % Nat.pow 2 (8 * view.width.bytes))) := by
  rw [readHandle, readRaw_write_self inside]
  rfl

/-- A write, done or not, leaves what is read from slots that share no byte with its own. -/
theorem readRaw_write_of_apart {other : Nat} (apart : SlotsApart view.width.bytes offset other) :
    (view.write offset handle).2.readRaw other = view.readRaw other := by
  rcases view.write_cases offset handle with ⟨_, done⟩ | ⟨_, refused⟩
  · have raw : (view.buffer.overwrite offset (view.shape.image handle)).rawAt view.shape other =
        view.buffer.rawAt view.shape other := by
      apply Buffer.rawAt_overwrite_of_apart
      rwa [CodecConfig.length_image]
    rw [readRaw_eq_rawAt, readRaw_eq_rawAt, size_write, width_write, done, ← raw]
    rfl
  · rw [refused]

/-! ## Views over the same bytes -/

/-- Views of the same shape whose buffers hold the same bytes. -/
structure SameBytes (a b : RecordView) : Prop where
  width_eq : a.width = b.width
  order_eq : a.order = b.order
  bytes_eq : a.buffer.bytes = b.buffer.bytes

namespace SameBytes

variable {a b c : RecordView}

theorem refl (view : RecordView) : view.SameBytes view :=
  ⟨rfl, rfl, rfl⟩

theorem trans (first : a.SameBytes b) (second : b.SameBytes c) : a.SameBytes c :=
  ⟨first.width_eq.trans second.width_eq, first.order_eq.trans second.order_eq,
    first.bytes_eq.trans second.bytes_eq⟩

theorem size_eq (same : a.SameBytes b) : a.buffer.size = b.buffer.size :=
  (Buffer.bytes_eq_iff.1 same.bytes_eq).1

theorem byte_eq (same : a.SameBytes b) {position : Nat} (below : position < a.buffer.size) :
    a.buffer.byte position = b.buffer.byte position :=
  (Buffer.bytes_eq_iff.1 same.bytes_eq).2 position below

theorem shape_eq (same : a.SameBytes b) : a.shape = b.shape := by
  rw [shape, shape, same.width_eq, same.order_eq]

/-- What is read hangs on the bytes alone. -/
theorem readRaw_eq (same : a.SameBytes b) (offset : Nat) : a.readRaw offset = b.readRaw offset := by
  rw [readRaw_eq_rawAt, readRaw_eq_rawAt, same.width_eq, same.size_eq]
  split
  · next inside =>
    rw [same.shape_eq, Buffer.rawAt_congr_shift]
    intro distance below
    have within : distance < b.width.bytes := below
    apply same.byte_eq
    rw [same.size_eq]
    omega
  · rfl

/-- And so does what is written. -/
theorem write (same : a.SameBytes b) (offset : Nat) (handle : Option Handle) :
    (a.write offset handle).2.SameBytes (b.write offset handle).2 := by
  have ends : offset + a.width.bytes = offset + b.width.bytes := by rw [same.width_eq]
  rcases b.write_cases offset handle with ⟨inside, done⟩ | ⟨outside, refused⟩
  · rw [done, write_of_inside (by rwa [ends, same.size_eq])]
    refine ⟨same.width_eq, same.order_eq, ?_⟩
    rw [same.shape_eq]
    refine Buffer.bytes_eq_iff.2 ⟨by simpa using same.size_eq, ?_⟩
    intro position below
    rw [Buffer.size_overwrite] at below
    exact Buffer.byte_overwrite_congr (same.byte_eq below) offset _
  · rw [refused, write_of_outside (by rwa [ends, same.size_eq])]
    exact same

end SameBytes

/-- Writes at slots apart can be exchanged, also when one of them fails. -/
theorem write_comm (handle second : Option Handle) {other : Nat}
    (apart : SlotsApart view.width.bytes offset other) :
    ((view.write offset handle).2.write other second).2.SameBytes
      ((view.write other second).2.write offset handle).2 := by
  rcases view.write_cases offset handle with ⟨inside, done⟩ | ⟨outside, refused⟩
  · rcases view.write_cases other second with ⟨other_inside, other_done⟩ | ⟨outside, refused⟩
    · rw [done, other_done, write_of_inside (by simpa using other_inside),
        write_of_inside (by simpa using inside)]
      refine ⟨rfl, rfl, ?_⟩
      apply Buffer.bytes_overwrite_comm
      rw [CodecConfig.length_image, CodecConfig.length_image]
      exact apart
    · have still : (view.write offset handle).2.buffer.size <
          other + (view.write offset handle).2.width.bytes := by
        rwa [size_write, width_write]
      rw [refused, write_of_outside still]
      exact .refl _
  · have still : (view.write other second).2.buffer.size <
        offset + (view.write other second).2.width.bytes := by
      rwa [size_write, width_write]
    rw [refused, write_of_outside still]
    exact .refl _

/-! ## Any number of writes -/

/-- A view after writes one after the other, whatever their answers. -/
def writeAll (view : RecordView) (writes : List (Nat × Option Handle)) : RecordView :=
  writes.foldl (fun view write => (view.write write.1 write.2).2) view

/-- Writes whose slots share no byte. -/
def Apart (width : SlotWidth) (writes : List (Nat × Option Handle)) : Prop :=
  writes.Pairwise fun a b => SlotsApart width.bytes a.1 b.1

theorem Apart.perm {width : SlotWidth} {writes others : List (Nat × Option Handle)}
    (apart : Apart width writes) (perm : writes.Perm others) : Apart width others :=
  (perm.pairwise_iff fun h => h.symm).1 apart

theorem SameBytes.writeAll {a b : RecordView} (same : a.SameBytes b)
    (writes : List (Nat × Option Handle)) : (a.writeAll writes).SameBytes (b.writeAll writes) := by
  induction writes generalizing a b with
  | nil => exact same
  | cons first rest ih => exact ih (same.write first.1 first.2)

/-- A slot that none of the writes touches reads as before. -/
theorem readRaw_writeAll_of_apart {writes : List (Nat × Option Handle)} {other : Nat}
    (apart : ∀ write ∈ writes, SlotsApart view.width.bytes write.1 other) :
    (view.writeAll writes).readRaw other = view.readRaw other := by
  induction writes generalizing view with
  | nil => rfl
  | cons first rest ih =>
      have head := apart first List.mem_cons_self
      have tail : ∀ write ∈ rest,
          SlotsApart (view.write first.1 first.2).2.width.bytes write.1 other := by
        intro write mem
        rw [width_write]
        exact apart write (List.mem_cons_of_mem first mem)
      exact (ih tail).trans (readRaw_write_of_apart head)

/-- Writes whose slots share no byte can be done in any order. -/
theorem writeAll_perm {writes others : List (Nat × Option Handle)} (perm : writes.Perm others)
    (apart : Apart view.width writes) :
    (view.writeAll writes).SameBytes (view.writeAll others) := by
  -- the writes in front change the view, so it is not fixed
  induction perm generalizing view with
  | nil => exact .refl view
  | cons first _ ih =>
      apply ih
      rw [width_write]
      exact (List.pairwise_cons.1 apart).2
  | swap first second rest =>
      have head := (List.pairwise_cons.1 apart).1 first List.mem_cons_self
      exact (write_comm second.2 first.2 head).writeAll rest
  | trans left_perm _ left right =>
      exact (left apart).trans (right (apart.perm left_perm))

/-- Among writes whose slots share no byte, each is read back at the end. -/
theorem readRaw_writeAll_of_mem {writes : List (Nat × Option Handle)}
    (apart : Apart view.width writes) (mem : (offset, handle) ∈ writes)
    (inside : offset + view.width.bytes ≤ view.buffer.size) :
    (view.writeAll writes).readRaw offset =
      .ok (Handle.raw handle % Nat.pow 2 (8 * view.width.bytes)) := by
  -- done first, the write is followed by writes that leave its slot alone
  have first := List.perm_cons_erase mem
  have first_apart := apart.perm first
  have untouched : ∀ write ∈ writes.erase (offset, handle),
      SlotsApart (view.write offset handle).2.width.bytes write.1 offset := by
    intro write later
    rw [width_write]
    exact ((List.pairwise_cons.1 first_apart).1 write later).symm
  rw [(writeAll_perm first apart).readRaw_eq, ← readRaw_write_self inside]
  exact readRaw_writeAll_of_apart untouched

/-! ## All views, offsets and handles -/

/-- What a view has become when a handle, or the null marker, was written into the slot at an
offset. -/
structure Writes (view : RecordView) (offset : Nat) (handle : Option Handle)
    (written : RecordView) : Prop where
  width_eq : written.width = view.width
  order_eq : written.order = view.order
  size_eq : written.buffer.size = view.buffer.size
  /-- The number of the handle is read back modulo the range of the slot. -/
  readHandle_eq : written.readHandle offset =
    .ok (Handle.ofNat? (Handle.raw handle % Nat.pow 2 (8 * view.width.bytes)))
  readNull_iff : written.readHandle offset = .ok none ↔
    Handle.raw handle % Nat.pow 2 (8 * view.width.bytes) = 0
  /-- A handle that fits the slot is read back itself. -/
  readHandle_eq_self : Handle.raw handle ≤ view.width.maxHandle →
    written.readHandle offset = .ok handle
  byte_eq : ∀ place, place < offset ∨ offset + view.width.bytes ≤ place →
    written.buffer.byte place = view.buffer.byte place
  readRaw_eq : ∀ other, SlotsApart view.width.bytes offset other →
    written.readRaw other = view.readRaw other

/-- What a view does with the slot at an offset. -/
structure AccessExact (view : RecordView) (offset : Nat) (handle : Option Handle) : Prop where
  /-- A write is done exactly when its slot lies inside the buffer. -/
  done_iff : (view.write offset handle).1 = .ok () ↔
    offset + view.width.bytes ≤ view.buffer.size
  /-- Otherwise the write is refused and the view is the one from before. -/
  refused : view.buffer.size < offset + view.width.bytes → view.write offset handle =
    (.error (.slotOutOfBounds offset view.width.bytes view.buffer.size), view)
  writes : (view.write offset handle).1 = .ok () →
    view.Writes offset handle (view.write offset handle).2
  /-- Two writes whose slots share no byte have the same answers and leave the same bytes in either
  order. -/
  commutes : ∀ other second, SlotsApart view.width.bytes offset other →
    ((view.write offset handle).2.write other second).1 = (view.write other second).1 ∧
      ((view.write other second).2.write offset handle).1 = (view.write offset handle).1 ∧
      ((view.write offset handle).2.write other second).2.SameBytes
        ((view.write other second).2.write offset handle).2
  /-- Among any number of writes whose slots share no byte it makes no difference when this one is
  done. -/
  anyOrder : ∀ rest writes, writes.Perm ((offset, handle) :: rest) → Apart view.width writes →
    (view.writeAll writes).SameBytes ((view.write offset handle).2.writeAll rest)
  /-- Whenever it was done, it is read back at the end. -/
  kept : offset + view.width.bytes ≤ view.buffer.size → ∀ writes, (offset, handle) ∈ writes →
    Apart view.width writes → (view.writeAll writes).readRaw offset =
      .ok (Handle.raw handle % Nat.pow 2 (8 * view.width.bytes))
  /-- The bytes of a slot that was found are always those of a number, and an image fills them. -/
  decodes : ∀ range, view.slotRange offset = .ok range →
    (view.order.image view.width (Handle.raw handle)).length = range.2 - range.1 ∧
      ∃ raw, view.order.value? (view.buffer.segment range.1 range.2) = some raw ∧
        view.readRaw offset = .ok raw
  /-- Machine words decide about the slot as exact numbers do, also at the last addresses. -/
  fitsWords_iff : ∀ position length : UInt64, position.toNat = offset →
    length.toNat = view.buffer.size →
      (view.width.fitsWords position length = true ↔
        offset + view.width.bytes ≤ view.buffer.size)

theorem writes_of_inside (inside : offset + view.width.bytes ≤ view.buffer.size) :
    view.Writes offset handle (view.write offset handle).2 where
  width_eq := width_write view offset handle
  order_eq := order_write view offset handle
  size_eq := size_write view offset handle
  readHandle_eq := readHandle_write_self inside
  readNull_iff := by
    rw [readHandle_write_self inside, Except.ok.injEq, Handle.ofNat?_eq_none_iff]
  readHandle_eq_self fits := by
    rw [readHandle_write_self inside, ← SlotWidth.maxHandle_succ,
      Nat.mod_eq_of_lt (Nat.lt_succ_of_le fits), Handle.ofNat?_raw]
  byte_eq place outside := by
    rw [write_of_inside inside]
    apply Buffer.byte_overwrite_of_outside
    rwa [CodecConfig.length_image]
  readRaw_eq _ apart := readRaw_write_of_apart apart

/-- Reads and writes of a view are exact and local, at every offset and for every handle. -/
theorem access_exact (view : RecordView) (offset : Nat) (handle : Option Handle) :
    view.AccessExact offset handle where
  done_iff := by
    rcases view.write_cases offset handle with ⟨inside, done⟩ | ⟨outside, refused⟩
    · simp [done, inside]
    · simp [refused, Nat.not_le.2 outside]
  refused := write_of_outside
  writes done := by
    rcases view.write_cases offset handle with ⟨inside, _⟩ | ⟨_, refused⟩
    · exact writes_of_inside inside
    · rw [refused] at done
      cases done
  commutes other second apart :=
    ⟨write_answer_eq (width_write ..) (size_write ..),
      write_answer_eq (width_write ..) (size_write ..), write_comm handle second apart⟩
  anyOrder _ _ perm apart := writeAll_perm perm apart
  kept inside _ mem apart := readRaw_writeAll_of_mem apart mem inside
  decodes range found := by
    obtain ⟨inside, rfl⟩ := slotRange_eq_ok_iff.1 found
    refine ⟨?_, view.buffer.rawAt view.shape offset, ?_, ?_⟩
    · rw [ByteOrder.length_image, Nat.add_sub_cancel_left]
    · exact view.buffer.value?_segment view.shape offset
    · rw [readRaw_eq_rawAt, if_pos inside]
  fitsWords_iff position length position_eq length_eq := by
    rw [SlotWidth.fitsWords_iff, position_eq, length_eq]

end RecordView

end StringSlots
