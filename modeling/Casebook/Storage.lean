/-!
# Stored files

A `Storage` is a directory with all that is in it. `Storage.read` finds a file by its path, written
as text with slashes, and gives its text. There are two ways to fail: no file has the path
(`Reading.notFound`), or there is something that cannot be read as a text (`Reading.unreadable`).

Names are followed one by one. An empty name and a single dot stay where they are, two dots go up,
and all of them need a directory to start from. Nothing is found above the directory and outside it.
-/

namespace Casebook

/-- What was found under a path. -/
inductive Reading where
  | text (s : String)
  | notFound
  /-- Something that cannot be read as a text. -/
  | unreadable
deriving DecidableEq, Repr

namespace Storage

/-- Something in a directory. -/
inductive Entry where
  | file (bytes : List UInt8)
  | directory
deriving DecidableEq

end Storage

/-- A directory with all that is in it: what was stored, the last first, by the names that lead
there. -/
structure Storage where
  /-- Names and what they lead to. -/
  entries : List (List String × Storage.Entry) := []
deriving DecidableEq

namespace Storage

/-! ## Paths

A path is followed one name at a time, with a fault at the first name that leads nowhere. Directories need
not have been stored: whatever leads on to something stored is one. -/

/-- The greatest number of bytes in a name. -/
def maxName : Nat := 255

/-- The greatest number of bytes in a path. -/
def maxPath : Nat := 4095

/-- The names in a path, of which some may be empty. -/
def namesOf (path : String) : List String := (path.toList.splitOn '/').map String.ofList

/-- Stores a file or a directory under a path. -/
def add (s : Storage) (path : String) (e : Entry) : Storage :=
  ⟨((namesOf path).filter fun n => n ≠ "" && n ≠ ".", e) :: s.entries⟩

/-- What names lead to from the directory itself. What leads on is a directory. -/
def entry? (s : Storage) (names : List String) : Option Entry :=
  match s.entries.lookup names with
  | some e => some e
  | none => if s.entries.any fun e => names.isPrefixOf e.1 then some .directory else none

/-- A place that a path has led to. -/
inductive Place where
  /-- A file or directory, with the names that lead there. -/
  | inside (names : List String) (e : Entry)
  /-- A directory outside. -/
  | outside

/-- The place of the directory itself. -/
def start : Place := .inside [] .directory

/-- Follows a name. -/
def follow (s : Storage) (name : String) : Place → Except Reading Place
  | .inside _ (.file _) => .error .unreadable
  | .inside names .directory =>
    if name = "" ∨ name = "." then .ok (.inside names .directory)
    else if name = ".." then
      if names.isEmpty then .ok .outside else .ok (.inside names.dropLast .directory)
    else if maxName < name.utf8ByteSize then .error .unreadable
    else
      match s.entry? (names ++ [name]) with
      | some e => .ok (.inside (names ++ [name]) e)
      | none => .error .notFound
  | .outside =>
    if name = "" ∨ name = "." ∨ name = ".." then .ok .outside
    else if maxName < name.utf8ByteSize then .error .unreadable
    else .error .notFound

/-- The place that a path leads to. A path that begins with a slash starts outside. -/
def locate (s : Storage) (path : String) : Except Reading Place :=
  match namesOf path with
  | "" :: names => names.foldlM (fun p n => s.follow n p) .outside
  | names => names.foldlM (fun p n => s.follow n p) start

/-! ## Reading

A place is read as a text if it is a file whose bytes are UTF-8. -/

/-- The reading of a place. -/
def Place.reading : Place → Reading
  | .inside _ (.file bytes) =>
    match String.fromUTF8? ⟨bytes.toArray⟩ with
    | some s => .text s
    | none => .unreadable
  | .inside _ .directory | .outside => .unreadable

/-- Reads the file of a path. The empty path is that of no file, and no path has a null character. -/
def read (s : Storage) (path : String) : Reading :=
  if path = "" then .notFound
  else if path.contains '\x00' || maxPath < path.utf8ByteSize then .unreadable
  else
    match s.locate path with
    | .ok p => p.reading
    | .error r => r

end Storage

end Casebook
