import CodeAtlas.Error
import CodeAtlas.Json.Decode
import CodeAtlas.Text.Split

/-! Ranges of bytes in a source file, written `start:length:file`, and source maps, which give one
range for each instruction, written as changes to the one before. -/
namespace CodeAtlas

/-- A range of bytes in one of the source files; a negative file index means no file. -/
structure Span where
  start : Nat
  length : Nat
  file : Int
  deriving DecidableEq, Repr, Inhabited

/-- The index that an integer is, if it is not negative. -/
def index? (n : Int) : Option Nat := if 0 ≤ n then some n.toNat else none

namespace Span

/-- The first byte after the range. The sum is a machine word and wraps. -/
def stop (s : Span) : Nat := (s.start + s.length) % Text.wordBound

def file? (s : Span) : Option Nat := index? s.file

def render (s : Span) : String :=
  Text.decimal s.start ++ ":" ++ Text.decimal s.length ++ ":" ++ Text.signedDecimal s.file

/-- Reads a range. Fields after the third are ignored. -/
def parse (text : String) : Except Error Span :=
  let fault (part : SpanPart) : Error := .schema (.span part text)
  match Text.splitOn ':' text with
  | start :: length :: file :: _ => do
    let start ← orError (fault .start) (Text.unsigned? 10 start.toList)
    let length ← orError (fault .length) (Text.unsigned? 10 length.toList)
    let file ← orError (fault .file) (Text.signed? file.toList)
    return { start, length, file }
  | _ => .error (fault .fields)

def toJson (s : Span) : Json :=
  .obj [("start", .nat s.start), ("length", .nat s.length), ("file_index", .int s.file)]

def ofJson? (v : Json) : Option Span := do
  let fields ← v.fields? ["start", "length", "file_index"]
  let start ← Json.required? "start" Json.natural? fields
  let length ← Json.required? "length" Json.natural? fields
  let file ← Json.required? "file_index" Json.integer? fields
  return { start, length, file }

end Span

namespace SourceMap

/-- The range that the first entry changes. -/
def initial : Span := ⟨0, 0, -1⟩

/-- The range of an entry after another. A field that is empty, missing or no number keeps its
value; fields after the third are ignored. -/
def entry (last : Span) (text : String) : Span :=
  let fields := Text.splitOn ':' text
  { start := (fields[0]?.bind (Text.unsigned? 10 ·.toList)).getD last.start
    length := (fields[1]?.bind (Text.unsigned? 10 ·.toList)).getD last.length
    file := (fields[2]?.bind (Text.signed? ·.toList)).getD last.file }

/-- The ranges of entries after a range. -/
def entries : (last : Span) → List String → List Span
  | _, [] => []
  | last, text :: rest =>
    let next := entry last text
    next :: entries next rest

/-- The ranges of a source map; an empty text has none. -/
def decode (text : String) : List Span :=
  if text.isEmpty then [] else entries initial (Text.splitOn ';' text)

end SourceMap
end CodeAtlas
