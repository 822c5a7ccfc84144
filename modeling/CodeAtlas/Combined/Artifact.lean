import CodeAtlas.Artifact.Compilation
import CodeAtlas.Artifact.Config
import CodeAtlas.Artifact.Fragment
import CodeAtlas.Assembly.Preamble
import CodeAtlas.Combined.Output
import CodeAtlas.Json.Reader
import CodeAtlas.Keccak
import CodeAtlas.Source.Files
import CodeAtlas.Span

/-! Questions about combined compiler output. Contracts are named by their own name or by their
qualified name. -/
namespace CodeAtlas.Combined

structure Artifact where
  version : String
  dialect : Dialect
  outputs : Outputs
  compilation : Compilation

/-- The syntax trees of the files, under their paths. The first contract of a file that has a tree
gives it. -/
def unitsOf (form : Form) (outputs : Outputs) : Except Error Units :=
  Units.ofTrees form (outputs.toList.filterMap fun (name, o) => o.ast.map (pathOf name, ·))

/-- The list of files in the first assembly that has one. -/
def assemblySources? (outputs : Outputs) : Option (List String) :=
  outputs.toList.findSome? fun (_, o) => o.assembly.bind (·.sources)

/-- The list of files by the indexes in their trees. A file that no tree is about has no name. -/
def unitSources (units : Units) : List String :=
  tabulateIndexed "" (units.toList.filterMap fun (path, unit) =>
    (unit.fileIndex?.bind index?).map fun i => (i, unit.path?.getD path))

/-- The text of a listed file, if it is a real one and can be read. -/
def textOf? (store : SourceStore) (path : String) : Option String :=
  if path ∈ ["", inputPath, yulPath] then none else (store.read path).toOption

def catalogOf (store : SourceStore) (paths : List String) (hasYul : Bool)
    (input : Option String) : Catalog :=
  let catalog := Catalog.ofFiles (paths.map fun path => ⟨path, textOf? store path⟩)
  let catalog := if hasYul then catalog.withYul else catalog
  match input with
  | some text => catalog.withFallback text
  | none => catalog

namespace Artifact

/-- Loads output of a compiler version. The text that the compiler read from its input, if given,
serves where a file's own text is not known. -/
def load (order : Model.Traversal) (config : Config) (store : SourceStore) (version : String)
    (input : Option String) (output : Json) : Except Error Artifact := do
  let dialect ← Dialect.parse version
  let (outputs, listed) ← decode output
  let units ← unitsOf dialect.form outputs
  let listed := if config.preferListedSources then listed.or (assemblySources? outputs) else none
  let hasYul := outputs.values.any ContractOutput.hasYul
  let catalog := catalogOf store (listed.getD (unitSources units)) hasYul input
  let compilation ← Compilation.load order catalog units
  return { version, dialect, outputs, compilation }

/-- How deeply arrays and objects may nest in a text of output. -/
def nestingLimit : Nat := 127

def loadText (order : Model.Traversal) (config : Config) (store : SourceStore)
    (version text : String) : Except Error Artifact := do
  load order config store version none (← decoded (Json.parse? (some nestingLimit) text))

def contractNames (a : Artifact) : Std.ExtTreeSet String :=
  Std.ExtTreeSet.ofList (a.outputs.keys.map shortName) compare

/-- The qualified name that a name stands for: the first whose contract has that own name, else the
name itself. -/
def qualifiedName (a : Artifact) (name : String) : String :=
  (a.outputs.keys.find? (shortName · == name)).getD name

def entry (a : Artifact) (name : String) : Except Error (String × ContractOutput) :=
  let qualified := a.qualifiedName name
  (orError (.missingContract name) a.outputs[qualified]?).map (qualified, ·)

def contract (a : Artifact) (name : String) : Except Error ContractOutput :=
  (a.entry name).map (·.2)

def abi (a : Artifact) (name : String) : Except Error (Option Json) := (a.contract name).map (·.abi)

/-- The byte code of a contract. -/
def binary (a : Artifact) (name : String) (deploy : Bool) : Except Error (Option String) :=
  (a.contract name).map (·.binaryFor? deploy)

/-- The qualified name whose link placeholder has a hash. -/
def nameOfHash? (a : Artifact) (hash : String) : Option String :=
  a.outputs.keys.find? (Keccak.placeholder · == hash)

/-- The deployment code of the contract whose link placeholder has a hash. -/
def binaryOfHash? (a : Artifact) (hash : String) : Option String := do
  let o ← a.outputs[← a.nameOfHash? hash]?
  o.binaryFor? true

/-- The lines of the generated code. The oldest compilers, with trees of the nested form, have
none. -/
def yulLines (a : Artifact) (name : String) (deploy : Bool) : Except Error (List String) := do
  let o ← a.contract name
  if a.dialect.form.isNested then return []
  else return GeneratedSource.leadingLines (o.generatedFor deploy)

def fileIndex? (a : Artifact) (qualified : String) : Option Int :=
  a.compilation.units[pathOf qualified]?.bind (·.fileIndex?)

def sourceLines (a : Artifact) (name : String) (start stop : Nat) :
    Except Error (List String) := do
  let (qualified, _) ← a.entry name
  let catalog := a.compilation.catalog
  let text ← orError (.notFound (.sourceOf name))
    (((a.fileIndex? qualified).bind catalog.text?).or catalog.fallback)
  return lineSlice text start stop

/-! ### Code and source -/

/-- The table of a contract's code. The listing is one of the deployment code, with the deployed
code in it. -/
def tableOf (qualified : String) (o : ContractOutput) (deploy : Bool) :
    Except Error Assembly.PcTable := do
  let assembly ← orError (.notFound (.assemblyOf qualified)) o.assembly
  let code ← orError (.notFound (.runtimeAssemblyOf qualified)) (assembly.codeFor? deploy)
  let opcodes ← orError (.notFound (.opcodesOf qualified)) o.opcodes
  let tokens := Assembly.listingTokens opcodes
  let tokens ← if deploy then pure tokens else Assembly.deployedTokens tokens
  Assembly.PcTable.build code tokens

/-- A contract's code with all that ties it to its source. -/
def sectionOf (a : Artifact) (qualified : String) (o : ContractOutput) (deploy : Bool)
    (table : Assembly.PcTable) (map : List Span) : Section :=
  { table, map, generated := o.generatedFor deploy, defaultFile := a.fileIndex? qualified }

def pcTable (a : Artifact) (name : String) (deploy : Bool) : Except Error Assembly.PcTable := do
  let (qualified, o) ← a.entry name
  tableOf qualified o deploy

def sourceMap (a : Artifact) (name : String) (deploy : Bool) : Except Error (List Span) := do
  let (_, o) ← a.entry name
  return SourceMap.decode (o.mapFor deploy)

def fragment (a : Artifact) (name : String) (pc : Nat) (deploy : Bool) :
    Except Error (Option Fragment) := do
  let (qualified, o) ← a.entry name
  let table ← a.pcTable name deploy
  let map ← a.sourceMap name deploy
  return (a.sectionOf qualified o deploy table map).resolve? a.compilation.catalog pc

end Artifact
end CodeAtlas.Combined
