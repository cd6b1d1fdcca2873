import Casebook.Json.Decoder
import Casebook.Json.Printer
import Casebook.Result
import Casebook.Subject

/-!
# Results as JSON

The JSON form of intervals, statuses, failures, test ids and results: `toJson` writes a value,
`ofJson` reads it. Records are objects with their fields in a fixed order; fields that may be missing
are written as `null`.
-/

namespace Casebook

open Json (Decoded Fault DataError Field RecordShape)

/-! ## Statuses

A status is an alternative without data. Its name inside JSON is written down on its own, next to the one
that is shown to people. -/

namespace Status

/-- The name of a status inside JSON, made of that of the alternative. -/
def tag : Status → String
  | skipped => "skipped"
  | interrupted => "interrupted"
  | suppressed => "suppressed"
  | cancelled => "cancelled"
  | completed => "completed"

/-- The names inside JSON, in the order of the alternatives. -/
def tags : List String := all.map tag

/-- The status of a name inside JSON. -/
def ofTag? (s : String) : Option Status := all.find? fun v => v.tag == s

/-- The JSON form of a status: its name there. -/
def toJson (v : Status) : Json := .ofString v.tag

/-- Reads a status. -/
def ofJson (room : Nat) : Json → Decoded Status := Json.decodeVariant ofTag? tags room

end Status

/-! ## Test ids -/

namespace TestId

/-- The JSON form of a test id: its text. -/
def toJson (id : TestId) : Json := .ofString id.text

/-- Reads a test id. -/
def ofJson (j : Json) : Decoded TestId := (j.decodeText .text).map TestId.mk

end TestId

/-! ## Intervals

An interval is read by its bounds, since a record under construction may have them in any order. The order
is checked when both are there, and a fault is told in the words of `Interval.Inverted`. -/

namespace Interval

/-- The JSON form of an interval. -/
def toJson (i : Interval) : Json :=
  .object (.ofList [("startMillis", .ofNat i.start.toNat), ("endMillis", .ofNat i.stop.toNat)])

/-- The JSON form of an interval, or `null` for none. -/
def toJson? : Option Interval → Json
  | some i => i.toJson
  | none => .null

/-- The bounds of an interval whose order has not been looked at. -/
structure Bounds where
  start : Millis := 0
  stop : Millis := 0
deriving DecidableEq, Repr

/-- The bounds of an interval as a record. -/
def shape : RecordShape Bounds where
  name := "RawInterval"
  fields := [
    ⟨"startMillis", true, fun j => (j.decodeNat .millis).map fun n b => { b with start := .ofNat n }⟩,
    ⟨"endMillis", true, fun j => (j.decodeNat .millis).map fun n b => { b with stop := .ofNat n }⟩]

/-- Reads an interval; bounds in the wrong order are refused. -/
def ofJson (room : Nat) (j : Json) : Decoded Interval := do
  let b ← j.decodeRecord shape {} room
  match ofBounds b.start b.stop with
  | .ok i => return i
  | .error e => throw (.data (.rule e.message))

end Interval

/-! ## Failures

The three fields are all optional. They are written in any case, as `null` where there is nothing. -/

namespace Failure

/-- The JSON form of a failure. -/
def toJson (f : Failure) : Json :=
  .object (.ofList [("message", .ofString? f.message), ("kind", .ofString? f.kind),
    ("description", .ofString? f.description)])

/-- A failure as a record; each field may be missing. -/
def shape : RecordShape Failure where
  name := "TestFailure"
  fields := [
    ⟨"message", false, fun j => (j.decodeOption (Json.decodeText .text)).map fun s f =>
      { f with message := s }⟩,
    ⟨"kind", false, fun j => (j.decodeOption (Json.decodeText .text)).map fun s f =>
      { f with kind := s }⟩,
    ⟨"description", false, fun j => (j.decodeOption (Json.decodeText .text)).map fun s f =>
      { f with description := s }⟩]

/-- Reads a failure. -/
def ofJson (room : Nat) (j : Json) : Decoded Failure := j.decodeRecord shape {} room

end Failure

/-! ## Properties

Properties are an object of texts. A name that is repeated is no fault here, other than for records. -/

namespace Properties

/-- The JSON form of properties: an object with the names in ascending order. -/
def toJson (p : Properties) : Json :=
  .object (.ofList (p.entries.map fun e => (e.1, .ofString e.2)))

/-- Reads properties; of several values under a name the last one stays. -/
def ofJson (room : Nat) (j : Json) : Decoded Properties := (j.decodeTexts room).map ofList

end Properties

/-! ## Results

Results are records with results inside, and so the only data here without a bound on their depth. The
reader recurses on the room that is left. -/

namespace Result

mutual

/-- The JSON form of a result. -/
def toJson : Result → Json
  | ⟨name, className, properties, failures, interval?, status, numTests, numFailures, children⟩ =>
    .object (.ofList [
      ("name", .ofString name),
      ("className", .ofString className),
      ("properties", properties.toJson),
      ("failures", .array (.ofList (failures.map Failure.toJson))),
      ("runTimeInterval", Interval.toJson? interval?),
      ("status", status.toJson),
      ("numTests", .ofNat numTests),
      ("numFailures", .ofNat numFailures),
      ("childResults", .array (itemsOf children))])

/-- The JSON forms of results. -/
def itemsOf : List Result → Json.Items
  | [] => .close
  | r :: rs => .item r.toJson (itemsOf rs)

end

/-- A result of which nothing has been read yet. -/
def blank : Result := ⟨"", "", ∅, [], none, .skipped, 0, 0, []⟩

/-- A result as a record, in an object inside of which `room` more may be opened; `child` reads the
result of a sub-test. -/
def shape (room : Nat) (child : Json → Decoded Result) : RecordShape Result where
  name := "TestResult"
  fields := [
    ⟨"name", true, fun j => (j.decodeText .text).map fun s r => { r with name := s }⟩,
    ⟨"className", true, fun j => (j.decodeText .text).map fun s r => { r with className := s }⟩,
    ⟨"properties", true, fun j => (Properties.ofJson room j).map fun p r =>
      { r with properties := p }⟩,
    ⟨"failures", true, fun j => (j.decodeList room (Failure.ofJson (room - 1))).map fun l r =>
      { r with failures := l }⟩,
    ⟨"runTimeInterval", false, fun j => (j.decodeOption (Interval.ofJson room)).map fun i r =>
      { r with interval? := i }⟩,
    ⟨"status", true, fun j => (Status.ofJson room j).map fun v r => { r with status := v }⟩,
    ⟨"numTests", true, fun j => (j.decodeNat .count).map fun n r => { r with numTests := n }⟩,
    ⟨"numFailures", true, fun j => (j.decodeNat .count).map fun n r => { r with numFailures := n }⟩,
    ⟨"childResults", true, fun j => (j.decodeList room child).map fun l r =>
      { r with children := l }⟩]

/-- Reads a result. A level of results takes two levels of JSON: the object and its list of
sub-tests. -/
def ofJson : (room : Nat) → Json → Decoded Result
  | 0, j => j.decodeRecord (shape 0 fun _ => .error .malformed) blank 0
  | 1, j => j.decodeRecord (shape 0 fun _ => .error .malformed) blank 1
  | room + 2, j => j.decodeRecord (shape (room + 1) (ofJson room)) blank (room + 2)

/-- The result as a line of JSON. -/
def render (r : Result) : String := r.toJson.render

end Result

end Casebook
