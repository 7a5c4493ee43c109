import StringSlots.Cbor.Item

/-!
# Items read back

`Takes` relates a reader to the written form of a value: the reader takes just this form off the
front of any bytes. Heads of all lengths are taken (`takes_writeHead`), and so are the numbers and
the texts that are built from them (`takes_writeNat`, `takes_writeText`). `times_flatMap` reads a
list whose items are written one behind the other.
-/

namespace StringSlots.Cbor

variable {α σ : Type}

/-- A reader takes the written form of a value off the front of any bytes. -/
def Takes (read : Bytes → Option (α × Bytes)) (written : Bytes) (value : α) : Prop :=
  ∀ rest, read (written ++ rest) = some (value, rest)

/-! ## Head bytes -/

theorem toNat_headByte (major : Major) {info : Nat} (small : info < 32) :
    (headByte major info).toNat = 32 * major.code + info := by
  have code_lt : major.code < 8 := by cases major <;> decide
  rw [headByte, UInt8.toNat_ofNat']
  exact Nat.mod_eq_of_lt (by omega)

theorem ofByte_headByte (major : Major) {info : Nat} (small : info < 32) :
    Major.ofByte (headByte major info) = major := by
  have high : (headByte major info).toNat / 32 = major.code := by
    rw [toNat_headByte major small]
    omega
  rw [Major.ofByte, high]
  cases major <;> rfl

theorem headInfo_headByte (major : Major) {info : Nat} (small : info < 32) :
    headInfo (headByte major info) = info := by
  rw [headInfo, toNat_headByte major small]
  omega

/-- Head bytes of different major types differ. -/
theorem headByte_ne {major other : Major} (differ : major ≠ other) {info other_info : Nat}
    (small : info < 32) (other_small : other_info < 32) :
    headByte major info ≠ headByte other other_info := by
  intro same
  apply differ
  rw [← ofByte_headByte major small, same, ofByte_headByte other other_small]

theorem readHead_headByte (major : Major) {info : Nat} (small : info < 32) (bytes : Bytes) :
    readHead major (headByte major info :: bytes) = readArgument info bytes := by
  rw [readHead, if_pos (ofByte_headByte major small), headInfo_headByte major small]

/-! ## Numbers behind a head byte -/

theorem takes_bigEndian {k n : Nat} (fits : n < Nat.pow 256 k) :
    Takes (readBigEndian k) (bigEndian k n) n := by
  intro rest
  have parts : splitExact k (bigEndian k n ++ rest) = some (bigEndian k n, rest) := by
    refine splitExact_eq_some_iff.2 ⟨rfl, ?_⟩
    rw [bigEndian, List.length_reverse, length_littleEndian]
  rw [readBigEndian, parts, Option.map_some, bigEndian, List.reverse_reverse,
    littleEndianValue_littleEndian, Nat.mod_eq_of_lt fits]

/-- The low bits 24 to 27 of a head byte announce a number of one, two, four or eight bytes. -/
theorem readArgument_bigEndian {info k n : Nat}
    (announces : (info, k) ∈ [(24, 1), (25, 2), (26, 4), (27, 8)]) (fits : n < Nat.pow 256 k)
    (rest : Bytes) : readArgument info (bigEndian k n ++ rest) = some (.count n, rest) := by
  have read := takes_bigEndian fits rest
  simp only [List.mem_cons, Prod.mk.injEq, List.not_mem_nil, or_false] at announces
  rcases announces with ⟨rfl, rfl⟩ | ⟨rfl, rfl⟩ | ⟨rfl, rfl⟩ | ⟨rfl, rfl⟩ <;>
    simp [readArgument, read]

/-- The written head of a number is a head byte of its major type and further bytes, which are read
as that number. -/
theorem writeHead_cases (major : Major) {n : Nat} (small : n < addressSpace) :
    ∃ info < 32, ∃ bytes, writeHead major n = headByte major info :: bytes ∧
      ∀ rest, readArgument info (bytes ++ rest) = some (.count n, rest) := by
  rw [writeHead]
  split
  · next direct =>
    exact ⟨n, by omega, [], rfl, fun rest => if_pos direct⟩
  · split
    · next one => exact ⟨24, by omega, _, rfl, readArgument_bigEndian (by simp) one⟩
    · split
      · next two => exact ⟨25, by omega, _, rfl, readArgument_bigEndian (by simp) two⟩
      · split
        · next four => exact ⟨26, by omega, _, rfl, readArgument_bigEndian (by simp) four⟩
        · exact ⟨27, by omega, _, rfl, readArgument_bigEndian (by simp) small⟩

theorem takes_writeHead (major : Major) {n : Nat} (small : n < addressSpace) :
    Takes (readHead major) (writeHead major n) (.count n) := by
  intro rest
  obtain ⟨info, info_small, bytes, written, read⟩ := writeHead_cases major small
  rw [written, List.cons_append, readHead_headByte major info_small, read]

theorem takes_count (major : Major) {n : Nat} (small : n < addressSpace) :
    Takes (readCount major) (writeHead major n) n := by
  intro rest
  rw [readCount, takes_writeHead major small rest]

theorem takes_writeNat {n : Nat} (small : n < addressSpace) : Takes readNat (writeNat n) n :=
  takes_count .unsigned small

/-! ## Texts -/

theorem takes_writeText {text : String} (small : (utf8 text).length < addressSpace) :
    Takes readText (writeText text) text := by
  intro rest
  have content : splitExact (utf8 text).length (utf8 text ++ rest) = some (utf8 text, rest) :=
    splitExact_eq_some_iff.2 ⟨rfl, rfl⟩
  rw [readText, writeText, List.append_assoc, takes_writeHead .text small]
  simp only [Option.bind_eq_bind, Option.bind_some, content, ofUtf8?_utf8]

/-- A written text starts with a head byte of a text. -/
theorem writeText_eq_cons {text : String} (small : (utf8 text).length < addressSpace) :
    ∃ info < 32, ∃ bytes, writeText text = headByte .text info :: bytes := by
  obtain ⟨info, info_small, bytes, written, -⟩ := writeHead_cases .text small
  exact ⟨info, info_small, bytes ++ utf8 text, by rw [writeText, written, List.cons_append]⟩

/-! ## Lists of items -/

/-- A reader that takes each item of a list into its state takes the whole list. -/
theorem times_flatMap {step : σ → Bytes → Option (σ × Bytes)} {write : α → Bytes}
    {next : σ → α → σ} {items : List α}
    (takes : ∀ item ∈ items, ∀ state, Takes (step state) (write item) (next state item))
    (state : σ) :
    Takes (times step items.length state) (items.flatMap write) (items.foldl next state) := by
  induction items generalizing state with
  | nil => exact fun rest => rfl
  | cons item items ih =>
      intro rest
      obtain ⟨first, others⟩ := List.forall_mem_cons.1 takes
      rw [List.flatMap_cons, List.append_assoc, List.length_cons, times, first state]
      exact ih others (next state item) rest

end StringSlots.Cbor
