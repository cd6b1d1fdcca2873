import Casebook.Log
import Casebook.Settings.Document
import Casebook.Storage

/-!
# Loading settings

Settings are loaded from a text (`Loading.ofText`) or from a file (`Loading.ofFile`). A `Loading` has
what came of it, the settings or an `Error`, and the notes that were made on the way. The keys that
mean nothing are noted only if there are settings.

Where there is no file the settings are the default ones.
-/

namespace Casebook.Settings

/-- Why settings were not loaded. -/
inductive Error where
  | read (path : String)
  /-- The text gives no settings; it may be that of a file. -/
  | parse (path? : Option String) (fault : Fault)
deriving DecidableEq, Repr

/-- The words of the complaint. -/
def Error.message : Error → String
  | read path => "failed to read tracker config at `" ++ path ++ "`"
  | parse none _ => "failed to parse tracker config"
  | parse (some path) _ => "failed to parse tracker config at `" ++ path ++ "`"

/-- A warning that keys mean nothing. -/
structure Warning where
  /-- The path of the file, if the text comes from one. -/
  path? : Option String
  keys : List String
deriving DecidableEq, Repr

/-- What is noted while settings are loaded. -/
inductive Note where
  | attempting (path : String)
  | absent (path : String)
  /-- Keys mean nothing. -/
  | unknownKeys (w : Warning)
  | loaded (path : String)
deriving DecidableEq, Repr

/-- The warning in a note. -/
def Note.warning? : Note → Option Warning
  | unknownKeys w => some w
  | _ => none

/-- The log record of a note. -/
def Note.record : Note → Log.Record
  | attempting path =>
    { level := .debug, message := "tracker config: attempting to load from " ++ path }
  | absent path =>
    { level := .debug
      message := "tracker config: file does not exist at " ++ path ++ ", using defaults" }
  | unknownKeys ⟨none, keys⟩ =>
    { level := .warn
      message := "ignoring unknown tracker config keys: " ++ ", ".intercalate keys }
  | unknownKeys ⟨some path, keys⟩ =>
    { level := .warn
      message := "ignoring unknown tracker config keys in " ++ path ++ ": "
        ++ ", ".intercalate keys }
  | loaded path =>
    { level := .debug, message := "tracker config: loaded successfully from " ++ path }

/-- What came of loading settings. -/
structure Loading where
  result : Except Error Settings
  notes : List Note
deriving Repr

namespace Loading

/-- The warnings that were given. -/
def warnings (l : Loading) : List Warning := l.notes.filterMap Note.warning?

/-- The lines of the log. -/
def records (l : Loading) : List Log.Record := l.notes.map Note.record

/-- The note that keys mean nothing, if there are any. -/
def keyNotes (path? : Option String) (keys : List String) : List Note :=
  if keys.isEmpty then [] else [.unknownKeys ⟨path?, keys⟩]

/-- Loads settings from a document. -/
def ofDocument (path? : Option String) (d : Toml.Document) : Loading :=
  match Settings.ofDocument d with
  | .ok s => { result := .ok s, notes := keyNotes path? (Settings.unknownKeys d) }
  | .error f => { result := .error (.parse path? f), notes := [] }

/-- Loads settings from a text, which may be that of a file. -/
def ofTextAt (path? : Option String) (text : String) : Loading :=
  match Toml.Document.parse? text with
  | some d => ofDocument path? d
  | none => { result := .error (.parse path? .malformed), notes := [] }

/-- Loads settings from a text. -/
def ofText (text : String) : Loading := ofTextAt none text

/-- Loads settings from a file, given what was found under its path. -/
def ofReading (path : String) : Reading → Loading
  | .text text =>
    let l := ofTextAt (some path) text
    let last := match l.result with
      | .ok _ => [Note.loaded path]
      | .error _ => []
    { result := l.result, notes := .attempting path :: (l.notes ++ last) }
  | .notFound => { result := .ok {}, notes := [.attempting path, .absent path] }
  | .unreadable => { result := .error (.read path), notes := [.attempting path] }

/-- Loads settings from the file of a path. -/
def ofFile (storage : Storage) (path : String) : Loading := ofReading path (storage.read path)

end Loading

end Casebook.Settings
