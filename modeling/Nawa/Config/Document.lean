import Nawa.Config.Ini

/-!
# Configuration files, as they are written

A configuration file consists of named values in sections. Its author is free to indent lines, to
put white space around names and values, to comment, to continue a value on indented lines and to
begin the file with a byte order mark. `Document` is such a file with its layout, `Document.text`
what is on the disk and `Document.entries` what it says.

The parts carry what makes them what they are: a name cannot contain a separator, and a value
cannot contain what begins a comment.
-/

namespace Nawa.Ini

/-- Neither a line nor a C string ends within the text. -/
def OneLine (s : Bytes) : Prop := ∀ c ∈ s, c ≠ '\n'.toUInt8 ∧ c ≠ 0

/-- The text neither begins nor ends with white space. -/
structure Trimmed (s : Bytes) : Prop where
  first : ∀ c ∈ s.head?, isspace c = false
  last : ∀ c ∈ s.getLast?, isspace c = false

/-- No comment begins within the text: no semicolon follows white space. -/
def Commentless (s : Bytes) : Prop := ∀ c, isspace c = true → ¬ [c, ';'.toUInt8] <:+: s

/-- White space within a line. A carriage return is white space. -/
structure Blanks where
  text : Bytes
  isBlank : ∀ c ∈ text, isspace c = true ∧ c ≠ '\n'.toUInt8

/-- What stands behind a value: white space, and a comment if there is one. -/
structure Remark where
  gap : Blanks
  comment : Option Bytes
  spaced : comment ≠ none → gap.text ≠ []
  oneLine : ∀ s ∈ comment, OneLine s

def Remark.text (r : Remark) : Bytes :=
  r.gap.text ++ (r.comment.map (';'.toUInt8 :: ·)).getD []

/-- A line that says nothing. -/
inductive Noise where
  | blank (blanks : Blanks)
  | comment (indent : Blanks) (mark : UInt8) (text : Bytes) (isMark : mark ∈ bytes ";#")
    (oneLine : OneLine text)

def Noise.line : Noise → Bytes
  | .blank blanks => blanks.text
  | .comment indent mark text _ _ => indent.text ++ mark :: text

/-- The line that begins a section. What stands behind the bracket does not count. -/
structure Header where
  name : Bytes
  rest : Bytes
  oneLine : OneLine (name ++ rest)
  noBracket : ']'.toUInt8 ∉ name
  commentless : Commentless name

def Header.line (h : Header) : Bytes := '['.toUInt8 :: h.name ++ ']'.toUInt8 :: h.rest

/-- The line that gives a value to a name. -/
structure Pair where
  name : Bytes
  /-- The white space before the separator. -/
  gap : Blanks
  separator : UInt8
  /-- The white space behind the separator. -/
  indent : Blanks
  value : Bytes
  remark : Remark
  nameOneLine : OneLine name
  nameTrimmed : Trimmed name
  nameCommentless : Commentless name
  nameNonempty : name ≠ []
  nameFirst : ∀ c ∈ name.head?, c ∉ bytes ";#["
  noSeparator : ∀ c ∈ name, c ∉ bytes "=:"
  isSeparator : separator ∈ bytes "=:"
  valueOneLine : OneLine value
  valueTrimmed : Trimmed value
  valueCommentless : Commentless (indent.text ++ value)

def Pair.line (p : Pair) : Bytes :=
  p.name ++ p.gap.text ++ p.separator :: (p.indent.text ++ p.value ++ p.remark.text)

/-- An indented line below a value. It cannot have a comment of its own. -/
structure Continuation where
  indent : Blanks
  text : Bytes
  gap : Blanks
  indented : indent.text ≠ []
  oneLine : OneLine text
  trimmed : Trimmed text
  nonempty : text ≠ []
  first : ∀ c ∈ text.head?, c ∉ bytes ";#"

def Continuation.line (c : Continuation) : Bytes := c.indent.text ++ c.text ++ c.gap.text

/-- A named value, with what stands before its line and the lines that continue it. -/
structure Item where
  before : List Noise
  pair : Pair
  more : List (List Noise × Continuation)

def Item.lines (i : Item) : List Bytes :=
  i.before.map Noise.line ++ i.pair.line ::
    i.more.flatMap fun m => m.1.map Noise.line ++ [m.2.line]

/-- The values of an item. A continued value is another value of the name, of which the reader
has kept 49 bytes. -/
def Item.entries (sectionName : Bytes) (i : Item) : List Entry :=
  ((sectionName, i.pair.name), i.pair.value) ::
    i.more.map fun m => ((sectionName, i.pair.name.take 49), m.2.text)

structure Section where
  before : List Noise
  header : Header
  items : List Item

def Section.lines (s : Section) : List Bytes :=
  s.before.map Noise.line ++ s.header.line :: s.items.flatMap Item.lines

def Section.entries (s : Section) : List Entry :=
  s.items.flatMap (Item.entries (s.header.name.take 49))

/-- The byte order mark of UTF-8. -/
def byteOrderMark : Bytes := [0xEF, 0xBB, 0xBF]

def documentLines (leading : List Item) (sections : List Section) (trailing : List Noise) :
    List Bytes :=
  leading.flatMap Item.lines ++ sections.flatMap Section.lines ++ trailing.map Noise.line

/-- A configuration file whose lines fit into the buffer of the reader. -/
structure Document where
  marked : Bool
  /-- The items before the first section. -/
  leading : List Item
  sections : List Section
  trailing : List Noise
  fits : ∀ l ∈ documentLines leading sections trailing, l.length ≤ 198
  markFits : marked = true → ∀ l ∈ (documentLines leading sections trailing).head?, l.length ≤ 195
  unmarked : ∀ l ∈ (documentLines leading sections trailing).head?, ¬ byteOrderMark <+: l

namespace Document

def lines (d : Document) : List Bytes := documentLines d.leading d.sections d.trailing

/-- The bytes of the file. -/
def text (d : Document) : Bytes :=
  (if d.marked then byteOrderMark else []) ++ d.lines.flatMap (· ++ ['\n'.toUInt8])

/-- What the file says, in the order in which it says it. -/
def entries (d : Document) : List Entry :=
  d.leading.flatMap (Item.entries []) ++ d.sections.flatMap Section.entries

end Document

end Nawa.Ini
