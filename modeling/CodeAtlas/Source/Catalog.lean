import CodeAtlas.Source.Excerpt
import CodeAtlas.Span

/-! The source files of a compilation, in the order of the indexes that the compiler gave them. -/
namespace CodeAtlas

/-- A source file, with its text when that is known. -/
structure SourceFile where
  path : String
  content : Option String := none
  deriving DecidableEq, Repr

/-- The path under which the compiler lists the code that it generates. -/
def yulPath : String := "#utility.yul"

/-- The path under which the compiler lists what it read from its input. -/
def inputPath : String := "<stdin>"

/-- The files of a compilation. The last entry may stand for generated code; a fallback serves
where a file or its text is not known. -/
structure Catalog where
  files : List SourceFile := []
  fallback : Option String := none
  hasYul : Bool := false
  deriving DecidableEq, Repr

namespace Catalog

/-- The catalog of files in index order. A last entry under the path of generated code is taken for
generated code. -/
def ofFiles (files : List SourceFile) : Catalog :=
  { files, hasYul := files.getLast?.any (·.path == yulPath) }

def withFallback (c : Catalog) (text : String) : Catalog := { c with fallback := some text }

/-- The catalog with an entry for generated code at its end. -/
def withYul (c : Catalog) : Catalog :=
  if c.hasYul then c else { c with files := c.files ++ [⟨yulPath, none⟩], hasYul := true }

def paths (c : Catalog) : List String := c.files.map (·.path)

def realCount (c : Catalog) : Nat := c.files.length - if c.hasYul then 1 else 0

def yulIndex? (c : Catalog) : Option Nat := if c.hasYul then some c.realCount else none

def isYul (c : Catalog) (index : Int) : Bool := (CodeAtlas.index? index).any (c.yulIndex? == some ·)

def file? (c : Catalog) (index : Int) : Option SourceFile :=
  (CodeAtlas.index? index).bind fun i => c.files[i]?

def path? (c : Catalog) (index : Int) : Option String := (c.file? index).map (·.path)

/-- The text at an index, or the fallback where there is none. Generated code has no text here. -/
def text? (c : Catalog) (index : Int) : Option String :=
  if c.isYul index then none else ((c.file? index).bind (·.content)).or c.fallback

/-- The part of a source that a range covers. -/
def locate? (c : Catalog) (s : Span) : Option Excerpt :=
  (c.text? s.file).bind fun text => Excerpt.locate? text s.start s.length

end Catalog
end CodeAtlas
