import CodeAtlas.Artifact.Output
import CodeAtlas.Assembly.PcTable
import CodeAtlas.Source.Catalog

/-! From a program counter to the piece of source it stems from. The item at the program counter
gives the range of bytes; the file is the item's own or that of the source map. Indexes from the
number of real files on belong to generated code. -/
namespace CodeAtlas

/-- A piece of source for a program counter. -/
structure Fragment where
  pc : Nat
  text : String
  start : Nat
  stop : Nat
  lines : Lines
  file : Int
  path : Option String
  deriving DecidableEq, Repr

def Fragment.toJson (f : Fragment) : Json :=
  .obj [("pc", .nat f.pc), ("fragment", .str f.text), ("begin", .nat f.start), ("end", .nat f.stop),
    ("linenums", f.lines.toJson), ("source_idx", .int f.file),
    ("source_path", .ofOption Json.str f.path)]

/-- A section of code: its program counters, its source map, the generated sources, and the file to
assume where nothing else is known. -/
structure Section where
  table : Assembly.PcTable
  map : List Span
  generated : List GeneratedSource
  defaultFile : Option Int

namespace Section

/-- The file of an instruction: the one its item names, else the one in the source map. -/
def file? (s : Section) (record : Assembly.PcRecord) (item : Assembly.Item) : Option Int :=
  (item.source.filter (0 ≤ ·)).or ((s.map[record.ordinal]?.map (·.file)).filter (0 ≤ ·))

def isGenerated (s : Section) (catalog : Catalog) (file : Int) : Bool :=
  !s.generated.isEmpty && (catalog.isYul file || (catalog.realCount : Int) ≤ file)

/-- The path that a catalog has for a file, unless it is empty. -/
def listedPath? (catalog : Catalog) (file : Int) : Option String :=
  (catalog.path? file).filter (· ≠ "")

/-- The text of a file and the path to report with it. Generated code is named by its own name if
the catalog has none. -/
def textOf? (s : Section) (catalog : Catalog) (file : Int) : Option (String × Option String) :=
  if s.isGenerated catalog file then
    (GeneratedSource.select? s.generated file).map fun g =>
      (g.contents, (listedPath? catalog file).or g.name)
  else (catalog.text? file).map fun text => (text, listedPath? catalog file)

/-- The line of a byte offset, counted from one. -/
def lineAt (bytes : List UInt8) (offset : Nat) : Nat := Text.lineFeeds (bytes.take offset) + 1

/-- The fragment of an item in a file; nothing if the item has no range or the text ends before. -/
def fragment? (s : Section) (catalog : Catalog) (pc : Nat) (item : Assembly.Item) (file : Int) :
    Option Fragment := do
  let (start, stop) ← item.range?
  let (text, path) ← s.textOf? catalog file
  let bytes := Text.bytes text
  if stop ≤ bytes.length then
    some {
      pc
      text := String.ofList (Text.decodeLossy ((bytes.take stop).drop start))
      start
      stop
      lines := (lineAt bytes start, lineAt bytes stop)
      file
      path }
  else none

def annotated? (s : Section) (record : Assembly.PcRecord) : Option (Assembly.Item × Int) := do
  let item ← s.table.code[record.index]?
  let file ← s.file? record item
  return (item, file)

/-- The fragment of exactly the instruction at a program counter. -/
def resolve? (s : Section) (catalog : Catalog) (pc : Nat) : Option Fragment := do
  let record ← s.table.record? pc
  let item ← s.table.code[record.index]?
  let file ← (s.file? record item).or s.defaultFile
  s.fragment? catalog pc item file

def isKnown (s : Section) (catalog : Catalog) (file : Int) : Bool :=
  file < catalog.files.length || s.isGenerated catalog file

/-- The fragment of the nearest instruction, at or before a program counter, whose file is known. -/
def nearest? (s : Section) (catalog : Catalog) (pc : Nat) : Option Fragment := do
  let _ ← s.table.record? pc
  let (item, file) ← (s.table.upTo pc).findSome? fun (_, record) =>
    (s.annotated? record).filter fun (_, file) => s.isKnown catalog file
  s.fragment? catalog pc item file

end Section
end CodeAtlas
