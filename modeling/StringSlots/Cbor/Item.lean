import StringSlots.Bytes
import StringSlots.Text.Utf8

/-!
# CBOR items

An item starts with a head: a major type and an argument, which is a number or says that the length
is open, in which case a break byte ends the item. `writeHead` writes the shortest head of a number;
`readHead` also takes longer ones. The readers take an item off the front of the bytes and answer it
with the bytes behind it; `skipItem` takes any well-formed item up to a depth.
-/

namespace StringSlots.Cbor

/-- The byte that ends an item of open length. -/
def breakByte : UInt8 := 0xff

/-- The argument of a head. -/
inductive Argument where
  | count (n : Nat)
  | indefinite
  deriving DecidableEq

/-- Major types of items. -/
inductive Major where
  | unsigned
  | negative
  | bytes
  | text
  | array
  | map
  | tag
  | simple
  deriving DecidableEq

/-- The number of a major type. -/
def Major.code : Major → Nat
  | unsigned => 0
  | negative => 1
  | bytes => 2
  | text => 3
  | array => 4
  | map => 5
  | tag => 6
  | simple => 7

/-- The major type in the high bits of a head byte. -/
def Major.ofByte (byte : UInt8) : Major :=
  match byte.toNat / 32 with
  | 0 => unsigned
  | 1 => negative
  | 2 => bytes
  | 3 => text
  | 4 => array
  | 5 => map
  | 6 => tag
  | _ => simple

/-- The head byte of a major type with the given low bits. -/
def headByte (major : Major) (info : Nat) : UInt8 :=
  UInt8.ofNat (32 * major.code + info)

/-- The low bits of a head byte. -/
def headInfo (byte : UInt8) : Nat :=
  byte.toNat % 32

/-- `k` bytes of a number, most significant first. -/
def bigEndian (k n : Nat) : Bytes :=
  (littleEndian k n).reverse

/-- The shortest head of a major type and a number below `2 ^ 64`. -/
def writeHead (major : Major) (n : Nat) : Bytes :=
  if n < 24 then [headByte major n]
  else if n < 0x100 then headByte major 24 :: bigEndian 1 n
  else if n < 0x1_0000 then headByte major 25 :: bigEndian 2 n
  else if n < 0x1_0000_0000 then headByte major 26 :: bigEndian 4 n
  else headByte major 27 :: bigEndian 8 n

/-- An unsigned integer. -/
def writeNat (n : Nat) : Bytes :=
  writeHead .unsigned n

/-- A text. -/
def writeText (text : String) : Bytes :=
  writeHead .text (utf8 text).length ++ utf8 text

/-- The first `n` bytes and those behind them. -/
def splitExact (n : Nat) (bytes : Bytes) : Option (Bytes × Bytes) :=
  if (bytes.take n).length = n then some (bytes.take n, bytes.drop n) else none

theorem splitExact_eq_some_iff {n : Nat} {bytes first rest : Bytes} :
    splitExact n bytes = some (first, rest) ↔ bytes = first ++ rest ∧ first.length = n := by
  unfold splitExact
  constructor
  · intro read
    split at read
    · rename_i whole
      obtain ⟨rfl, rfl⟩ := Prod.mk.inj (Option.some.inj read)
      exact ⟨(List.take_append_drop n bytes).symm, whole⟩
    · exact absurd read (by simp)
  · rintro ⟨rfl, rfl⟩
    simp

/-- The number in the first `k` bytes, most significant first. -/
def readBigEndian (k : Nat) (bytes : Bytes) : Option (Nat × Bytes) :=
  (splitExact k bytes).map fun parts => (littleEndianValue parts.1.reverse, parts.2)

/-- The argument that the low bits of a head byte announce. -/
def readArgument (info : Nat) (bytes : Bytes) : Option (Argument × Bytes) :=
  let counted (k : Nat) := (readBigEndian k bytes).map fun read => (Argument.count read.1, read.2)
  if info < 24 then some (.count info, bytes)
  else
    match info with
    | 24 => counted 1
    | 25 => counted 2
    | 26 => counted 4
    | 27 => counted 8
    | 31 => some (.indefinite, bytes)
    | _ => none

/-- The argument of a head of the given major type. -/
def readHead (major : Major) : Bytes → Option (Argument × Bytes)
  | [] => none
  | byte :: rest =>
      if Major.ofByte byte = major then readArgument (headInfo byte) rest else none

/-- The number of a head of the given major type. -/
def readCount (major : Major) (bytes : Bytes) : Option (Nat × Bytes) :=
  match readHead major bytes with
  | some (.count n, rest) => some (n, rest)
  | _ => none

variable {σ : Type}

/-- A step of a reader, `n` times in a row. -/
def times (step : σ → Bytes → Option (σ × Bytes)) : Nat → σ → Bytes → Option (σ × Bytes)
  | 0, state, bytes => some (state, bytes)
  | n + 1, state, bytes =>
      match step state bytes with
      | none => none
      | some (next, rest) => times step n next rest

/-- A step of a reader until the break byte. The budget has an element for each step that may be
made and for the break byte. -/
def untilBreakWithin (step : σ → Bytes → Option (σ × Bytes)) :
    Bytes → σ → Bytes → Option (σ × Bytes)
  | [], _, _ => none
  | _ :: budget, state, bytes =>
      if bytes.head? = some breakByte then some (state, bytes.tail)
      else
        match step state bytes with
        | none => none
        | some (next, rest) => untilBreakWithin step budget next rest

/-- A step of a reader until the break byte. Steps that each take a byte stay inside the budget,
which is the bytes themselves. -/
def untilBreak (step : σ → Bytes → Option (σ × Bytes)) (state : σ) (bytes : Bytes) :
    Option (σ × Bytes) :=
  untilBreakWithin step bytes state bytes

/-- A step of a reader as often as an argument says. -/
def Argument.repeated (argument : Argument) (step : σ → Bytes → Option (σ × Bytes)) (state : σ)
    (bytes : Bytes) : Option (σ × Bytes) :=
  match argument with
  | count n => times step n state bytes
  | indefinite => untilBreak step state bytes

/-- An unsigned integer. -/
def readNat (bytes : Bytes) : Option (Nat × Bytes) :=
  readCount .unsigned bytes

/-- A text chunk of known length, after the bytes of the chunks before, last byte first. -/
def readChunk (before : Bytes) (bytes : Bytes) : Option (Bytes × Bytes) := do
  let (length, bytes) ← readCount .text bytes
  let (chunk, bytes) ← splitExact length bytes
  some (chunk.reverse ++ before, bytes)

/-- A text, in one piece or in chunks of known length up to the break; the whole must be UTF-8. -/
def readText (bytes : Bytes) : Option (String × Bytes) := do
  let (argument, behind) ← readHead .text bytes
  let (content, rest) ←
    match argument with
    | .count length => splitExact length behind
    | .indefinite => (untilBreak readChunk [] behind).map fun read => (read.1.reverse, read.2)
  let text ← ofUtf8? content
  some (text, rest)

/-- The bytes behind a simple value: false, true, null, undefined, or a float of two, four or eight
bytes. -/
def skipSimple (info : Nat) (bytes : Bytes) : Option Bytes :=
  match info with
  | 20 | 21 | 22 | 23 => some bytes
  | 25 => (splitExact 2 bytes).map (·.2)
  | 26 => (splitExact 4 bytes).map (·.2)
  | 27 => (splitExact 8 bytes).map (·.2)
  | _ => none

/-- The bytes behind the item at the front, which may nest at most `depth` items. In a text or byte
string of open length any items may stand before the break. -/
def skipItem : Nat → Bytes → Option Bytes
  | 0, _ => none
  | _ + 1, [] => none
  | depth + 1, byte :: rest =>
      let one (_ : Unit) (bytes : Bytes) := (skipItem depth bytes).map ((), ·)
      let two (_ : Unit) (bytes : Bytes) := do
        let bytes ← skipItem depth bytes
        let bytes ← skipItem depth bytes
        some ((), bytes)
      match Major.ofByte byte, readArgument (headInfo byte) rest with
      | .unsigned, some (.count _, rest) => some rest
      | .negative, some (.count _, rest) => some rest
      | .bytes, some (.count length, rest) => (splitExact length rest).map (·.2)
      | .bytes, some (.indefinite, rest) => (untilBreak one () rest).map (·.2)
      | .text, some (.count length, rest) => (splitExact length rest).map (·.2)
      | .text, some (.indefinite, rest) => (untilBreak one () rest).map (·.2)
      | .array, some (argument, rest) => (argument.repeated one () rest).map (·.2)
      | .map, some (argument, rest) => (argument.repeated two () rest).map (·.2)
      | .tag, some (.count _, rest) => skipItem depth rest
      | .simple, _ => skipSimple (headInfo byte) rest
      | _, _ => none

end StringSlots.Cbor
