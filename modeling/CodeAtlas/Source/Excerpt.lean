import CodeAtlas.Json.Basic
import CodeAtlas.Text.Split
import CodeAtlas.Text.Utf8

/-! Cutting a range of bytes out of a text, with the lines it spans. -/
namespace CodeAtlas

/-- The first and the last line of a range, counted from one. -/
abbrev Lines := Nat × Nat

def Lines.toJson (lines : Lines) : Json := .arr [.nat lines.1, .nat lines.2]

/-- A part of a text and its lines. -/
structure Excerpt where
  lines : Lines
  text : String
  deriving DecidableEq, Repr

namespace Excerpt

/-- Cuts `length` bytes from `start` on out of a source; nothing if the source ends before. A
character cut in two is replaced. -/
def locate? (source : String) (start length : Nat) : Option Excerpt :=
  let bytes := Text.bytes source
  if start + length < Text.wordBound ∧ start + length ≤ bytes.length then
    let slice := (bytes.drop start).take length
    let first := Text.lineFeeds (bytes.take start) + 1
    some ⟨(first, first + Text.lineFeeds slice), String.ofList (Text.decodeLossy slice)⟩
  else none

def toJson (e : Excerpt) : Json := .obj [("lines", e.lines.toJson), ("text", .str e.text)]

end Excerpt

/-- The lines of a text from `start` up to but not including `stop`, counted from zero. -/
def lineSlice (text : String) (start stop : Nat) : List String :=
  ((Text.splitOn '\n' text).take stop).drop start

end CodeAtlas
