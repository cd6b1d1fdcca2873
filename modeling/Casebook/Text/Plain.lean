/-!
# Plain text

`Text.plain` leaves of a text what a report may hold: the control sequences for terminals are taken
out, and then the control characters, apart from line ends.
-/

namespace Casebook.Text

/-- Where a reader of terminal text stands. -/
inductive Terminal where
  | text
  /-- After an escape character. -/
  | escape
  /-- In an escape sequence of several characters, before the last one. -/
  | intermediate
  /-- In a control sequence, before its final character. -/
  | control
  /-- In a command to the operating system, which a bell ends. -/
  | command
  /-- In a string that only another escape character ends. -/
  | string
deriving DecidableEq, Repr

namespace Terminal

/-- The character that begins a sequence. -/
def escapeChar : Char := '\x1b'

/-- Whether a character breaks off the sequence it stands in. -/
def breaksOff (c : Char) : Bool := c = '\x18' || c = '\x1a'

/-- Whether a code point is one of an inclusive range. -/
def between (first last : Nat) (c : Char) : Bool := first ≤ c.toNat && c.toNat ≤ last

/-- Where the character after an escape character leads. -/
def afterEscape (c : Char) : Terminal :=
  if c = '[' then control
  else if c = ']' then command
  else if c = 'P' || c = 'X' || c = '^' || c = '_' then string
  else if between 0x20 0x2F c then intermediate
  else if between 0x30 0x7E c then text
  else escape

/-- Where a character leads. -/
def next : Terminal → Char → Terminal
  | text, c => if c = escapeChar then escape else text
  | state, c =>
    if c = escapeChar then escape
    else if breaksOff c then text
    else
      match state with
      | text => text
      | escape => afterEscape c
      | intermediate => if between 0x30 0x7E c then text else intermediate
      | control => if between 0x40 0x7E c then text else control
      | command => if c = '\x07' then text else command
      | string => string

/-- Whether a character is text where it stands. In the sequences that are not strings a line end
still counts. -/
def isText : Terminal → Char → Bool
  | text, c => c ≠ escapeChar
  | escape, c | intermediate, c | control, c => c = '\n'
  | command, _ | string, _ => false

end Terminal

/-- The text without control sequences, read from a state. -/
def dropSequences : Terminal → List Char → List Char
  | _, [] => []
  | state, c :: cs =>
    if state.isText c then c :: dropSequences (state.next c) cs
    else dropSequences (state.next c) cs

/-- Whether a character is a control character that is taken out. -/
def isControl (c : Char) : Bool :=
  (c < ' ' && c ≠ '\n') || Terminal.between 0x80 0x9F c

/-- The text without control sequences and control characters. -/
def plain (s : String) : String :=
  String.ofList ((dropSequences .text s.toList).filter fun c => !isControl c)

/-! ## Text that stays

Sequences for terminals begin with a control character, so a text that has none is left as it is. -/

theorem dropSequences_text {cs : List Char} (h : ∀ c ∈ cs, c ≠ Terminal.escapeChar) :
    dropSequences .text cs = cs := by
  induction cs with
  | nil => rfl
  | cons c cs ih =>
    have hc : c ≠ Terminal.escapeChar := h c List.mem_cons_self
    have hcs : dropSequences .text cs = cs := ih fun d hd => h d (List.mem_cons_of_mem c hd)
    simp [dropSequences, Terminal.isText, Terminal.next, hc, hcs]

/-- A text without control characters is plain as it is. -/
theorem plain_eq_self {s : String} (h : s.toList.any isControl = false) : plain s = s := by
  have hcontrol : ∀ c ∈ s.toList, isControl c = false := by simpa using h
  have hescape : ∀ c ∈ s.toList, c ≠ Terminal.escapeChar := by
    rintro c hc rfl
    exact absurd (hcontrol _ hc) (by decide)
  have hfilter : s.toList.filter (fun c => !isControl c) = s.toList :=
    List.filter_eq_self.2 fun c hc => by simp [hcontrol c hc]
  rw [plain, dropSequences_text hescape, hfilter, String.ofList_toList]

end Casebook.Text
