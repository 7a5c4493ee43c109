import StringSlots.Demo.Document
import StringSlots.Managed.Bridge
import StringSlots.Text.Quoted

/-!
# The demo

The demo lays out records, stores the texts of the rows through the boundary calls, shows what each
record then holds, and frees everything. It is a function from a document to a transcript: the text
of both output streams, and the failure that ended it early, if any. What was written before a
failure stays in the transcript.
-/

namespace StringSlots

/-- Why a demo ends early: the document is malformed, a number leaves the range of 32-bit integers,
or the layout is refused. -/
inductive DemoFailure where
  | malformedDocument
  | beyondInt32
  | slots (error : SlotError)
  deriving DecidableEq

/-- The output of a demo. -/
structure Transcript where
  out : String
  err : String
  failure : Option DemoFailure

/-- The exit code of a demo. -/
def Transcript.code (transcript : Transcript) : Nat :=
  if transcript.failure.isSome then 1 else 0

/-- A demo under way. -/
structure DemoState where
  codec : Codec
  buffer : ManagedArray Buffer
  transcript : Transcript

/-- A number that is handed over as a 32-bit integer. -/
def int32? (n : Nat) : Option Int :=
  if n < 0x8000_0000 then some n else none

namespace DemoState

/-- One more line of output. -/
def print (state : DemoState) (line : String) : DemoState :=
  { state with
    transcript := { state.transcript with out := state.transcript.out ++ line ++ "\n" } }

/-- One more line of complaint. -/
def complain (state : DemoState) (line : String) : DemoState :=
  { state with
    transcript := { state.transcript with err := state.transcript.err ++ line ++ "\n" } }

/-- The end of the demo. -/
def fail (state : DemoState) (failure : DemoFailure) : DemoState :=
  { state with transcript := { state.transcript with failure := some failure } }

/-- The next step, unless the demo has ended. -/
def andThen (state : DemoState) (step : DemoState → DemoState) : DemoState :=
  match state.transcript.failure with
  | some _ => state
  | none => step state

/-- The name under which a report is shown. -/
def reportName : FailureKind → String
  | .absentArgument => "NullPointerException"
  | .fatal => "InternalError"
  | .library => "LibraryException"

/-- The state after a call across the boundary, its reports shown. -/
def afterCall {α : Type} (state : DemoState) (crossing : Crossing α) : DemoState :=
  crossing.reports.foldl
    (fun state report => state.complain (reportName report.kind ++ ": " ++ report.message))
    { state with
      codec := crossing.codec
      buffer := crossing.buffer.getD state.buffer }

/-- Stores one field of a row in its record. -/
def storeField (layout : CompoundLayout) (row : Nat) (state : DemoState)
    (field : String × Option String) : DemoState :=
  state.andThen fun state =>
    match layout.member? field.1 with
    | none => state.complain s!"row {row}: no member '{field.1}'"
    | some member =>
        if member.kind.isStringSlot then
          match int32? (row * layout.recordSize + member.offset) with
          | none => state.fail .beyondInt32
          | some offset =>
              let crossing := state.codec.copyText field.2 (some state.buffer) offset
              let state := state.afterCall crossing
              match crossing.value with
              | .ok => state
              | .failure => state.complain s!"row {row}: failed to store '{field.1}'"
        else
          state.complain
            s!"row {row}: member '{field.1}' is {member.kind.text}, not a string slot"

/-- Stores the fields of rows in order, the first row in record `row`. -/
def storeRows (layout : CompoundLayout) (row : Nat) (state : DemoState) : List Row → DemoState
  | [] => state
  | fields :: rest => storeRows layout (row + 1) (fields.foldl (storeField layout row) state) rest

/-- What the given string members of a record hold, shown after those in `shown`, and printed when
all are fetched. -/
def showMembers (layout : CompoundLayout) (record : Nat) (shown : List String)
    (state : DemoState) : List Member → DemoState
  | [] => state.print (s!"record {record}: " ++ ", ".intercalate shown)
  | member :: rest =>
      match int32? (record * layout.recordSize + member.offset) with
      | none => state.fail .beyondInt32
      | some offset =>
          let crossing := state.codec.createText (some state.buffer) offset
          showMembers layout record (shown ++ [member.name ++ "=" ++ shownOption crossing.value])
            (state.afterCall crossing) rest

/-- Shows what a record holds. -/
def showRecord (layout : CompoundLayout) (state : DemoState) (record : Nat) : DemoState :=
  state.andThen fun state => showMembers layout record [] state layout.stringMembers

/-- Frees the strings of all records and tells how many were freed. -/
def freeAll (layout : CompoundLayout) (state : DemoState) : DemoState :=
  match layout.slotSchema with
  | .error error => state.fail (.slots error)
  | .ok schema =>
      match schema.offsets.mapM int32?, int32? layout.recordSize with
      | some offsets, some recordSize =>
          let before := state.codec.arena.live
          let (crossing, _) :=
            state.codec.freeTexts (some state.buffer) recordSize (some (.new offsets false))
          let state := state.afterCall crossing
          let after := state.codec.arena.live
          state.print
            s!"released {before - after} strings (status {crossing.value.code}), {after} live"
      | _, _ => state.fail .beyondInt32

/-- The state before the first row: an empty codec and a zero-filled buffer of `records` records. -/
def start (config : CodecConfig) (layout : CompoundLayout) (records : Nat) : DemoState :=
  { codec := Codec.new { config with width := layout.width }
    buffer := .new (.filled (layout.recordSize * records) 0) false
    transcript := { out := "", err := "", failure := none } }

/-- Shows the sizes and the members of a layout. -/
def showLayout (layout : CompoundLayout) (state : DemoState) : DemoState :=
  layout.members.foldl (fun state member => state.print ("  " ++ member.text))
    (state.print
      s!"record size {layout.recordSize} bytes, pointer size {state.codec.pointerSize}")

end DemoState

namespace DemoDocument

/-- The transcript of a demo on a document. The slot width of the layout takes the place of the one
in the configuration. -/
def run (document : DemoDocument) : Transcript :=
  match CompoundLayout.ofSpec document.layout with
  | .error error => { out := "", err := "", failure := some (.slots error) }
  | .ok layout =>
      let state := (DemoState.start document.config layout document.rows.length).showLayout layout
      let state := state.storeRows layout 0 document.rows
      let state := (List.range document.rows.length).foldl (DemoState.showRecord layout) state
      (state.andThen (DemoState.freeAll layout)).transcript

/-- The transcript of a demo on the bytes of a file. -/
def runBytes (bytes : Bytes) : Transcript :=
  match parse? bytes with
  | none => { out := "", err := "", failure := some .malformedDocument }
  | some document => document.run

end DemoDocument

end StringSlots
