import Casebook.Json.Number
import Casebook.Json.Reader
import Casebook.Mismatch

/-!
# Decoding JSON

Decoders turn a tree into a value of a data model. They walk the tree in the order of the text and
stop at the first thing that is wrong, which is either a fault of the text (`Fault.malformed`) or
data that do not fit the model (`Fault.data`).

At most `maxOpen` arrays and objects may be open at once. A decoder is told how many more may be
opened (its *room*). What is not decoded, because nobody asks for it, may be nested to any depth.

A record (`RecordShape`) is read from an object, in any order of its members, or from an array of all its
fields in their order.
-/

namespace Casebook.Json

/-! ## What may be wrong

A text can be wrong, or its data can. A decoder stops at the first fault of either kind, so which of them
is reported depends on where it stands. -/

/-- Data that do not fit the data model. -/
inductive DataError where
  /-- A value of the wrong type or range. -/
  | mismatch (m : Mismatch)
  /-- An array of `found` items where a record of `size` fields is expected. -/
  | length (found : Nat) (record : String) (size : Nat)
  | missing (field : String)
  | duplicate (field : String)
  | unknownVariant (name : String) (known : List String)
  /-- A value that breaks a rule of its own, in that rule's words. -/
  | rule (message : String)
deriving DecidableEq, Repr

/-- The words of the complaint. -/
def DataError.message : DataError → String
  | mismatch m => m.message .moderatePlain
  | length found record size =>
    "invalid length " ++ toString found ++ ", expected struct " ++ record ++ " with "
      ++ toString size ++ " elements"
  | missing field => "missing field `" ++ field ++ "`"
  | duplicate field => "duplicate field `" ++ field ++ "`"
  | unknownVariant name known =>
    "unknown variant `" ++ name ++ "`, expected one of "
      ++ ", ".intercalate (known.map fun k => "`" ++ k ++ "`")
  | rule m => m

/-- Why a text was not decoded. -/
inductive Fault where
  /-- The text is not JSON, or is nested too deep, or goes on where it should end. -/
  | malformed
  | data (e : DataError)
deriving DecidableEq, Repr

/-- A value, or why there is none. -/
abbrev Decoded (α : Type) := Except Fault α

/-- The number of arrays and objects that may be open at once. -/
def maxOpen : Nat := 127

/-! ## Strings

Pieces are characters or units of UTF-16. Two units make up one character if they are halves of a pair,
and a half on its own is no text. -/

/-- The characters that pieces spell. Units that are halves of a pair have to stand together. -/
def spelled? : List Piece → Option (List Char)
  | [] => some []
  | .char c :: rest => (spelled? rest).map (c :: ·)
  | .unit n :: rest =>
    if n < 0xD800 || 0xE000 ≤ n then (spelled? rest).map (Char.ofNat n :: ·)
    else
      -- a half of a pair: a high one needs a low one behind it, and a low one never comes first
      match rest with
      | .unit m :: rest =>
        if n < 0xDC00 && 0xDC00 ≤ m && m < 0xE000 then
          (spelled? rest).map
            (Char.ofNat (0x10000 + (n - 0xD800) * 0x400 + (m - 0xDC00)) :: ·)
        else none
      | _ => none

/-- The text that pieces spell. -/
def textOf (pieces : List Piece) : Decoded String :=
  match spelled? pieces with
  | some cs => .ok (String.ofList cs)
  | none => .error .malformed

/-! ## Scalars

A complaint about a value says what was found, and needs the value to be well-formed: a broken one is a
fault of the text instead. -/

/-- What stands at a place, for a complaint. -/
def found : Json → Decoded Found
  | null => .ok .null
  | bool b => .ok (.boolean b)
  | number n =>
    match n.value? with
    | some (.integer i) => .ok (.integer i)
    | some (.float x) => .ok (.float x)
    | none => .error .malformed
  | string pieces => (textOf pieces).map .text
  | array _ => .ok .sequence
  | object _ => .ok .map
  | broken => .error .malformed

/-- Refuses what stands at a place. -/
def refuse {α : Type} (expected : Expected) (j : Json) : Decoded α :=
  match j.found with
  | .ok f => .error (.data (.mismatch (.type f expected)))
  | .error e => .error e

/-- Decodes a text. -/
def decodeText (expected : Expected) : Json → Decoded String
  | string pieces => textOf pieces
  | j => j.refuse expected

/-- Decodes a natural number of 64 bits. -/
def decodeNat (expected : Expected) : Json → Decoded Nat
  | number n =>
    match n.value? with
    | some (.integer (.ofNat m)) => .ok m
    | some (.integer i) => .error (.data (.mismatch (.value (.integer i) expected)))
    | some (.float x) => .error (.data (.mismatch (.type (.float x) expected)))
    | none => .error .malformed
  | j => j.refuse expected

/-- Decodes `null` as none, and everything else with a decoder. -/
def decodeOption {α : Type} (decode : Json → Decoded α) : Json → Decoded (Option α)
  | null => .ok none
  | j => (decode j).map some

/-! ## Lists

An array that is decoded takes up room, even if nothing stands in it, and so does an object. -/

/-- Decodes the items of an array. -/
def Items.decodeAll {α : Type} (decode : Json → Decoded α) : Items → Decoded (List α)
  | .close => .ok []
  | .cut => .error .malformed
  | .item value rest => do
    let a ← decode value
    let as ← rest.decodeAll decode
    return a :: as

/-- Decodes an array. -/
def decodeList {α : Type} (room : Nat) (decode : Json → Decoded α) : Json → Decoded (List α)
  | array items => if room = 0 then .error .malformed else items.decodeAll decode
  | j => j.refuse .sequence

/-- The text of a key; only a string can be one. -/
def keyText : Json → Decoded String
  | string pieces => textOf pieces
  | _ => .error .malformed

/-- Decodes the members of an object of texts, in their order. -/
def Members.decodeTexts : Members → Decoded (List (String × String))
  | .close => .ok []
  | .cut => .error .malformed
  | .member key value rest => do
    let k ← key.keyText
    let v ← value.decodeText .text
    let entries ← rest.decodeTexts
    return (k, v) :: entries

/-- Decodes an object of texts. -/
def decodeTexts (room : Nat) : Json → Decoded (List (String × String))
  | object members => if room = 0 then .error .malformed else members.decodeTexts
  | j => j.refuse .map

/-! ## Records

Members of an object are met in the order of the text. Each puts its value into the draft of the record, a
member of no field is passed over, and what is missing is looked for at the end. -/

/-- A field of a record under construction. -/
structure Field (δ : Type) where
  name : String
  required : Bool
  /-- Decodes the value of the field, and says how to put it into the record. -/
  decode : Json → Decoded (δ → δ)

/-- The shape of a record. -/
structure RecordShape (δ : Type) where
  name : String
  fields : List (Field δ)

/-- Decodes the members of an object into a record. `seen` holds the names of the fields that have
been met. -/
def Members.decodeFields {δ : Type} (fields : List (Field δ)) :
    List String → δ → Members → Decoded (δ × List String)
  | seen, draft, .close => .ok (draft, seen)
  | _, _, .cut => .error .malformed
  | seen, draft, .member key value rest => do
    let name ← key.keyText
    match fields.find? (fun f => f.name == name) with
    -- a value that nobody asked for still has to be one
    | none => if value.complete then rest.decodeFields fields seen draft else throw .malformed
    | some f =>
      if name ∈ seen then throw (.data (.duplicate name))
      let put ← f.decode value
      rest.decodeFields fields (name :: seen) (put draft)

/-- Decodes the items of an array into a record, one field each; `count` of them have been met. -/
def Items.decodeFields {δ : Type} (shape : RecordShape δ) :
    List (Field δ) → Nat → δ → Items → Decoded δ
  | [], _, draft, .close => .ok draft
  | _ :: _, count, _, .close => .error (.data (.length count shape.name shape.fields.length))
  | f :: fields, count, draft, .item value rest => do
    let put ← f.decode value
    rest.decodeFields shape fields (count + 1) (put draft)
  | _, _, _, _ => .error .malformed

/-- Decodes a record, starting from `draft`. -/
def decodeRecord {δ : Type} (shape : RecordShape δ) (draft : δ) (room : Nat) : Json → Decoded δ
  | object members => do
    if room = 0 then throw .malformed
    let (record, seen) ← members.decodeFields shape.fields [] draft
    match shape.fields.find? (fun f => f.required && !seen.contains f.name) with
    | some f => throw (.data (.missing f.name))
    | none => return record
  | array items => do
    if room = 0 then throw .malformed
    items.decodeFields shape shape.fields 0 draft
  | j => j.refuse (.record shape.name)

/-! ## Alternatives

In an object, the first key is the name. What follows it is looked at only if there is such a name. -/

/-- Decodes the name of an alternative. It is written as a string, or as the only key of an object
with the value `null`. -/
def decodeVariant {α : Type} (ofName? : String → Option α) (known : List String) (room : Nat) :
    Json → Decoded α
  | string pieces => do
    let name ← textOf pieces
    match ofName? name with
    | some a => return a
    | none => throw (.data (.unknownVariant name known))
  | object (.member key value rest) => do
    if room = 0 then throw .malformed
    let name ← key.decodeText .variant
    match ofName? name with
    | none => throw (.data (.unknownVariant name known))
    | some a =>
      match value, rest with
      | null, .close => return a
      | null, _ => throw .malformed
      | j, _ => j.refuse .unit
  | _ => .error .malformed

/-! ## Whole texts

Behind the value there may be blanks. Whatever else stands there is a fault, but is noticed only after the
value was decoded. -/

/-- Decodes a text that holds one value and nothing else. -/
def decode {α : Type} (decoder : Json → Decoded α) (text : String) : Decoded α := do
  let s := readValue text.toList
  let a ← decoder s.value
  if (skipSpace s.rest).isEmpty then return a else throw .malformed

end Casebook.Json
