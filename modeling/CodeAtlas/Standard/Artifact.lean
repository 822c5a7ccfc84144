import CodeAtlas.Artifact.Compilation
import CodeAtlas.Artifact.Fragment
import CodeAtlas.Artifact.Output
import CodeAtlas.Assembly.Preamble
import CodeAtlas.Keccak
import CodeAtlas.Source.Files
import CodeAtlas.Span
import CodeAtlas.Standard.Input
import CodeAtlas.Standard.Output

/-! Questions about standard compiler output. Several files may have contracts of one name; a
qualified name selects one of them. -/
namespace CodeAtlas.Standard

structure Artifact where
  version : String
  output : Output
  compilation : Compilation

/-- The syntax trees of the files. They have the flat form whatever the version. -/
def unitsOf (files : Std.ExtTreeMap String FileOutput) : Except Error Units :=
  Units.ofTrees .flat (files.toList.filterMap fun (path, file) => file.ast.map (path, ·))

/-- The text of a file: the one in the input, else the one that can be read. -/
def textOf? (store : SourceStore) (texts : InputTexts) (path : String) : Option String :=
  texts[path]?.join.or (store.read path).toOption

/-- The files at the indexes that the compiler gave them. -/
def filesOf (store : SourceStore) (texts : InputTexts)
    (files : Std.ExtTreeMap String FileOutput) : List SourceFile :=
  tabulateIndexed ⟨"", none⟩ (files.toList.filterMap fun (path, file) =>
    (index? file.index).map fun i => (i, ⟨path, textOf? store texts path⟩))

structure Occurrence where
  file : String
  name : String
  output : ContractOutput

def Occurrence.qualified (o : Occurrence) : String := qualify o.file o.name

namespace Artifact

/-- Loads the output of a compiler version for an input. Output that reports errors is refused. -/
def load (order : Model.Traversal) (store : SourceStore) (version : String)
    (input output : Json) : Except Error Artifact := do
  let _ ← Dialect.parse version
  let output ← decoded (Output.ofJson? output)
  let errors := Diagnostic.errors output.diagnostics
  unless errors.isEmpty do throw (.compilation errors)
  let texts ← decoded (inputTexts? input)
  let units ← unitsOf output.files
  let catalog := Catalog.ofFiles (filesOf store texts output.files)
  let catalog := if output.hasYul then catalog.withYul else catalog
  let compilation ← Compilation.load order catalog units
  return { version, output, compilation }

def occurrence? (a : Artifact) (file name : String) : Option Occurrence := do
  let output ← (← a.output.contracts[file]?)[name]?
  return { file, name, output }

/-- The contracts that a name stands for: the one that it selects as a qualified name, else all of
that name in the order of their files. -/
def occurrences (a : Artifact) (name : String) : List Occurrence :=
  match (splitQualified? name).bind fun (file, short) => a.occurrence? file short with
  | some o => [o]
  | none => a.output.contracts.keys.filterMap (a.occurrence? · name)

def first (a : Artifact) (name : String) : Except Error Occurrence :=
  orError (.missingContract name) (a.occurrences name).head?

def filesWith (a : Artifact) (name : String) : List String := (a.occurrences name).map (·.file)

def contract (a : Artifact) (name : String) : Except Error ContractOutput :=
  (a.first name).map (·.output)

def abi (a : Artifact) (name : String) : Except Error (Option Json) := (a.contract name).map (·.abi)

/-- The byte code of each contract of a name that has some. -/
def binaries (a : Artifact) (name : String) (deploy : Bool) : List (Occurrence × String) :=
  (a.occurrences name).filterMap fun o => (o.output.binaryFor? deploy).map (o, ·)

/-- All contracts, by file and then by name. -/
def allOccurrences (a : Artifact) : List Occurrence :=
  a.output.contracts.toList.flatMap fun (file, contracts) =>
    contracts.toList.map fun (name, output) => ⟨file, name, output⟩

/-- The contract whose link placeholder has a hash. -/
def ofHash? (a : Artifact) (hash : String) : Option Occurrence :=
  a.allOccurrences.find? (Keccak.placeholder ·.qualified == hash)

/-- The deployment code of the contract whose link placeholder has a hash. -/
def binaryOfHash? (a : Artifact) (hash : String) : Option String :=
  (a.ofHash? hash).bind (·.output.binaryFor? true)

def yulLines (a : Artifact) (name : String) (deploy : Bool) : Except Error (List String) :=
  (a.contract name).map fun o => GeneratedSource.leadingLines (o.generatedFor deploy)

def fileIndex? (a : Artifact) (file : String) : Option Int := a.output.files[file]?.map (·.index)

def sourceLines (a : Artifact) (name : String) (start stop : Nat) :
    Except Error (List String) := do
  let o ← a.first name
  let text ← orError (.notFound (.sourceOf o.file))
    ((a.fileIndex? o.file).bind a.compilation.catalog.text?)
  return lineSlice text start stop

/-! ### Code and source -/

/-- The table of a contract's code. Each kind of code has a listing of its own. -/
def tableOf (qualified : String) (o : ContractOutput) (deploy : Bool) :
    Except Error Assembly.PcTable := do
  let machine ← orError (.notFound (.evmOf qualified)) o.machine
  let code ← orError (.notFound (.legacyAssemblyOf qualified))
    (machine.assembly.bind (·.codeFor? deploy))
  let opcodes ← orError (.notFound (.opcodesOf qualified))
    ((machine.codeFor? deploy).bind (·.opcodes))
  Assembly.PcTable.build code (Assembly.listingTokens opcodes)

/-- A contract's code with all that ties it to its source. -/
def sectionOf (a : Artifact) (file : String) (o : ContractOutput) (deploy : Bool)
    (table : Assembly.PcTable) (map : List Span) : Section :=
  { table, map, generated := o.generatedFor deploy, defaultFile := a.fileIndex? file }

def pcTableIn (a : Artifact) (file name : String) (deploy : Bool) :
    Except Error Assembly.PcTable := do
  let qualified := qualify file name
  let o ← a.first qualified
  tableOf qualified o.output deploy

def pcTable (a : Artifact) (name : String) (deploy : Bool) : Except Error Assembly.PcTable := do
  let o ← a.first name
  a.pcTableIn o.file o.name deploy

def fragmentIn (a : Artifact) (file name : String) (pc : Nat) (deploy : Bool) :
    Except Error (Option Fragment) := do
  let o ← a.first (qualify file name)
  let table ← a.pcTableIn file name deploy
  let map := SourceMap.decode (o.output.mapFor deploy)
  return (a.sectionOf file o.output deploy table map).nearest? a.compilation.catalog pc

/-- Asks about contracts one after the other until one has a piece of source. With several
contracts, one that lacks something is passed over; any other failure ends the search. -/
def search {m : Type → Type} [Monad m] (several : Bool)
    (ask : Occurrence → m (Except Error (Option Fragment))) :
    List Occurrence → m (Except Error (Option Fragment))
  | [] => return .ok none
  | o :: rest => do
    match ← ask o with
    | .ok (some fragment) => return .ok (some fragment)
    | .ok none => search several ask rest
    | .error e => if several && e.isMissing then search several ask rest else return .error e

/-- The piece of source for a program counter, from the first contract of a name that has one. -/
def fragment (a : Artifact) (name : String) (pc : Nat) (deploy : Bool) :
    Except Error (Option Fragment) :=
  match a.occurrences name with
  | [] => .error (.missingContract name)
  | found =>
    Id.run (search (1 < found.length) (fun o => pure (a.fragmentIn o.file o.name pc deploy)) found)

end Artifact
end CodeAtlas.Standard
