import Nawa.Util.Bytes

/-!
# The reader of configuration files

The vendored `inih` with its default settings: lines of at most 199 characters, names and sections
cut after 49, continuation lines, a byte order mark, comments that begin a line or follow a blank.
A malformed line is passed over; its number, which the parser answers, is not looked at.
-/

namespace Nawa.Ini

/-- The lines that `fgets` answers, with `room` characters left for the one that has begun. -/
def readLines : Nat → Bytes → Bytes → List Bytes
  | _, [], [] => []
  | _, line, [] => [line]
  | room, line, c :: s =>
    if c = '\n'.toUInt8 ∨ room ≤ 1 then (line ++ [c]) :: readLines 199 [] s
    else readLines (room - 1) (line ++ [c]) s

def lskip (s : Bytes) : Bytes := trimLeft s

def rstrip (s : Bytes) : Bytes := (trimLeft s.reverse).reverse

/-- `find_chars_or_comment`: the length of the text before one of the characters or a comment. -/
def findCharsOrComment (chars : Bytes) : Bool → Bytes → Nat
  | _, [] => 0
  | wasSpace, c :: s =>
    if c ∈ chars ∨ (wasSpace = true ∧ c = ';'.toUInt8) then 0
    else findCharsOrComment chars (isspace c) s + 1

/-- A call of the handler: section, name and value. -/
abbrev Entry := (Bytes × Bytes) × Bytes

structure State where
  lineno : Nat := 0
  sectionName : Bytes := []
  prevName : Bytes := []
  entries : List Entry := []

/-- A line with a name and a value, whose comment is taken off. -/
def pair (state : State) (start : Bytes) : State :=
  let n := findCharsOrComment (bytes "=:") false start
  match start.drop n with
  | [] => state
  | separator :: rest =>
    if separator ∈ bytes "=:" then
      let name := rstrip (start.take n)
      let value := rstrip (lskip (rest.take (findCharsOrComment [] false rest)))
      { state with
        prevName := name.take 49
        entries := state.entries ++ [((state.sectionName, name), value)] }
    else state

/-- A line that begins a section. -/
def beginSection (state : State) (rest : Bytes) : State :=
  let n := findCharsOrComment (bytes "]") false rest
  if (rest.drop n).head? = some ']'.toUInt8 then
    { state with sectionName := (rest.take n).take 49, prevName := [] }
  else state

/-- One line, which ends where a C string does. -/
def parseLine (state : State) (line : Bytes) : State :=
  let line := line.takeWhile (· ≠ 0)
  let state := { state with lineno := state.lineno + 1 }
  let bom := state.lineno = 1 ∧ line.take 3 = [0xEF, 0xBB, 0xBF]
  let stripped := rstrip (if bom then line.drop 3 else line)
  let start := lskip stripped
  match start with
  | [] => state
  | c :: rest =>
    if c ∈ bytes ";#" then state
    else if state.prevName ≠ [] ∧ (bom ∨ start.length < stripped.length) then
      { state with entries := state.entries ++ [((state.sectionName, state.prevName), start)] }
    else if c = '['.toUInt8 then beginSection state rest
    else pair state start

/-- The calls of the handler for a file. -/
def parse (content : Bytes) : List Entry :=
  ((readLines 199 [] content).foldl parseLine {}).entries

example : parse (bytes "[http]\nport = 80 ; web\n listen=::1\n#x\n[post\nmax_size:1") =
    [((bytes "http", bytes "port"), bytes "80"), ((bytes "http", bytes "port"), bytes "listen=::1"),
      ((bytes "http", bytes "max_size"), bytes "1")] := by decide

end Nawa.Ini
