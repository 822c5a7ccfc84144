import CodeAtlas.Json.Decode
import CodeAtlas.Text.Split

/-! What the kinds of compiler output have in common: how contracts are named, and the sources that
the compiler generates. -/
namespace CodeAtlas

/-! ### Qualified names

A qualified name says which file a contract stands in: a path, a colon and the contract's own name. A
path may hold colons too, so the last colon divides. -/

def splitQualified? (qualified : String) : Option (String × String) := Text.splitLast? ':' qualified

/-- The path in a qualified name; the whole name if it has no colon. -/
def pathOf (qualified : String) : String := ((splitQualified? qualified).map (·.1)).getD qualified

/-- The contract's own name in a qualified name; the whole name if it has no colon. -/
def shortName (qualified : String) : String :=
  ((splitQualified? qualified).map (·.2)).getD qualified

def qualify (file name : String) : String := file ++ ":" ++ name

/-! ### Generated sources -/

structure GeneratedSource where
  id : Option Int := none
  name : Option String := none
  contents : String := ""
  language : Option String := none
  deriving DecidableEq, Repr

namespace GeneratedSource

def toJson (g : GeneratedSource) : Json :=
  .obj [("id", .ofOption Json.int g.id), ("name", .ofOption Json.str g.name),
    ("contents", .str g.contents), ("language", .ofOption Json.str g.language)]

def ofJson? (v : Json) : Option GeneratedSource := do
  let fields ← v.fields? ["id", "name", "contents", "language"]
  let id ← Json.optional? "id" Json.integer? fields
  let name ← Json.optional? "name" Json.text? fields
  let contents ← Json.defaulting? "contents" "" Json.text? fields
  let language ← Json.optional? "language" Json.text? fields
  return { id, name, contents, language }

/-- The generated source for a file index: the one with that number, else the first. -/
def select? (generated : List GeneratedSource) (file : Int) : Option GeneratedSource :=
  (generated.find? (·.id == some file)).or generated.head?

/-- The lines of the first generated source. -/
def leadingLines (generated : List GeneratedSource) : List String :=
  match generated with
  | [] => []
  | g :: _ => Text.splitOn '\n' g.contents

end GeneratedSource

end CodeAtlas
