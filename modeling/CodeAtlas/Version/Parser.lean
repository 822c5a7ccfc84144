import CodeAtlas.Text.Printable
import CodeAtlas.Text.Split
import CodeAtlas.Version.Basic

/-! Reading versions from text. -/
namespace CodeAtlas.Version

/-- The parts of a version, in the order of its text. -/
inductive Part where
  | major
  | minor
  | patch
  | pre
  | build
  deriving DecidableEq, Repr

def Part.name : Part → String
  | .major => "major version number"
  | .minor => "minor version number"
  | .patch => "patch version number"
  | .pre => "pre-release identifier"
  | .build => "build metadata"

/-- Why a text is not a version. -/
inductive Fault where
  | empty
  /-- The text ends where a part, or the point after it, should be. -/
  | unexpectedEnd (part : Part)
  /-- A character stands where a number should start. -/
  | unexpectedChar (part : Part) (found : Char)
  /-- A character stands where a point or the end should be. -/
  | unexpectedAfter (part : Part) (found : Char)
  | leadingZero (part : Part)
  | tooLarge (part : Part)
  | emptySegment (part : Part)
  deriving DecidableEq, Repr

def Fault.message : Fault → String
  | .empty => "empty string, expected a semver version"
  | .unexpectedEnd part => "unexpected end of input while parsing " ++ part.name
  | .unexpectedChar part found =>
    "unexpected character " ++ Text.quoted found ++ " while parsing " ++ part.name
  | .unexpectedAfter part found =>
    "unexpected character " ++ Text.quoted found ++ " after " ++ part.name
  | .leadingZero part => "invalid leading zero in " ++ part.name
  | .tooLarge part => "value of " ++ part.name ++ " exceeds u64::MAX"
  | .emptySegment part => "empty identifier segment in " ++ part.name

/-- A number at the start of a text, and what follows it. No zero stands before another digit. -/
def number (part : Part) (cs : List Char) : Except Fault (Nat × List Char) :=
  let digits := cs.takeWhile Char.isDigit
  let rest := cs.dropWhile Char.isDigit
  if digits.isEmpty then
    match rest with
    | [] => .error (.unexpectedEnd part)
    | c :: _ => .error (.unexpectedChar part c)
  else if digits.head? = some '0' ∧ 1 < digits.length then .error (.leadingZero part)
  else
    let value := (Text.digits? 10 0 digits).getD 0
    if value < Text.wordBound then .ok (value, rest) else .error (.tooLarge part)

/-- The text after a point that must follow a part. -/
def point (part : Part) : List Char → Except Fault (List Char)
  | '.' :: rest => .ok rest
  | c :: _ => .error (.unexpectedAfter part c)
  | [] => .error (.unexpectedEnd part)

def inSegment (c : Char) : Bool := c.isAlphanum || c == '-'

/-- Checks one segment: it is not empty, and a number in a pre-release has no leading zero. -/
def checkSegment (part : Part) (segment : List Char) : Except Fault String :=
  if segment.isEmpty then .error (.emptySegment part)
  else if part = .pre ∧ segment.all Char.isDigit ∧ 1 < segment.length ∧ segment.head? = some '0' then
    .error (.leadingZero part)
  else .ok (String.ofList segment)

/-- The segments at the start of a text, and what follows them. -/
def segments (part : Part) (cs : List Char) : Except Fault (List String × List Char) := do
  let text := cs.takeWhile fun c => inSegment c || c == '.'
  let rest := cs.dropWhile fun c => inSegment c || c == '.'
  let found ← (Text.splitWhere (· == '.') text).mapM (checkSegment part)
  return (found, rest)

/-- The segments after a mark, none if the mark is not there; with them the last part read. -/
def marked (mark : Char) (part last : Part) : List Char →
    Except Fault (List String × Part × List Char)
  | [] => .ok ([], last, [])
  | c :: rest =>
    if c = mark then do
      let (found, rest) ← segments part rest
      return (found, part, rest)
    else .ok ([], last, c :: rest)

/-- Reads a version; nothing may follow it. -/
def parseChars (cs : List Char) : Except Fault Version := do
  if cs.isEmpty then throw .empty
  let (major, cs) ← number .major cs
  let cs ← point .major cs
  let (minor, cs) ← number .minor cs
  let cs ← point .minor cs
  let (patch, cs) ← number .patch cs
  let (pre, last, cs) ← marked '-' .pre .patch cs
  let (build, last, cs) ← marked '+' .build last cs
  match cs with
  | [] => return { major, minor, patch, pre, build }
  | c :: _ => throw (.unexpectedAfter last c)

def parse (s : String) : Except Fault Version := parseChars s.toList

/-- The bare `major.minor.patch` inside a text such as a tag or a version with a commit: the digits
and points from the first digit on, without points at the end. -/
def bare? (s : String) : Option String :=
  let run := (s.toList.dropWhile (!·.isDigit)).takeWhile fun c => c.isDigit || c == '.'
  let found := (run.reverse.dropWhile (· == '.')).reverse
  if (Text.splitWhere (· == '.') found).length = 3 ∧ (parseChars found).toBool then
    some (String.ofList found)
  else none

end CodeAtlas.Version
