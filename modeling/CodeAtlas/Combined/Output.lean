import CodeAtlas.Artifact.Output
import CodeAtlas.Assembly.Block
import CodeAtlas.Error
import Std.Data.ExtTreeMap

/-! Combined compiler output: what there is about each contract, under its qualified name. It comes
as one flat object, where each contract carries the syntax tree of its file, or with the trees set
apart by file. -/
namespace CodeAtlas.Combined

/-- What the compiler gives for a contract. -/
structure ContractOutput where
  ast : Option Json := none
  abi : Option Json := none
  bin : Option String := none
  runtimeBin : Option String := none
  map : Option String := none
  runtimeMap : Option String := none
  assembly : Option Assembly.Block := none
  opcodes : Option String := none
  generated : Option (List GeneratedSource) := none
  runtimeGenerated : Option (List GeneratedSource) := none

namespace ContractOutput

def keys : List String :=
  ["ast", "abi", "bin", "bin-runtime", "srcmap", "srcmap-runtime", "asm", "opcodes",
    "generated-sources", "generated-sources-runtime"]

def toJson (o : ContractOutput) : Json :=
  let sources := Json.ofOption (Json.ofList GeneratedSource.toJson)
  .obj [("ast", .ofOption id o.ast), ("abi", .ofOption id o.abi), ("bin", .ofOption Json.str o.bin),
    ("bin-runtime", .ofOption Json.str o.runtimeBin), ("srcmap", .ofOption Json.str o.map),
    ("srcmap-runtime", .ofOption Json.str o.runtimeMap),
    ("asm", .ofOption Assembly.Block.toJson o.assembly), ("opcodes", .ofOption Json.str o.opcodes),
    ("generated-sources", sources o.generated),
    ("generated-sources-runtime", sources o.runtimeGenerated)]

def ofJson? (v : Json) : Option ContractOutput := do
  let fields ← v.fields? keys
  let ast ← Json.optional? "ast" Json.any? fields
  let abi ← Json.optional? "abi" Json.any? fields
  let bin ← Json.optional? "bin" Json.text? fields
  let runtimeBin ← Json.optional? "bin-runtime" Json.text? fields
  let map ← Json.optional? "srcmap" Json.text? fields
  let runtimeMap ← Json.optional? "srcmap-runtime" Json.text? fields
  let assembly ← Json.optional? "asm" Assembly.Block.ofJson? fields
  let opcodes ← Json.optional? "opcodes" Json.text? fields
  let generated ←
    Json.optional? "generated-sources" (Json.list? GeneratedSource.ofJson?) fields
  let runtimeGenerated ←
    Json.optional? "generated-sources-runtime" (Json.list? GeneratedSource.ofJson?) fields
  return { ast, abi, bin, runtimeBin, map, runtimeMap, assembly, opcodes, generated,
           runtimeGenerated }

def generatedFor (o : ContractOutput) (deploy : Bool) : List GeneratedSource :=
  (if deploy then o.generated else o.runtimeGenerated).getD []

/-- Whether there is generated code both for deployment and for the deployed code. -/
def hasYul (o : ContractOutput) : Bool :=
  !(o.generatedFor true).isEmpty && !(o.generatedFor false).isEmpty

/-- The source map of either code, empty if there is none. -/
def mapFor (o : ContractOutput) (deploy : Bool) : String :=
  (if deploy then o.map else o.runtimeMap).getD ""

/-- The byte code of either kind, unless it is empty. -/
def binaryFor? (o : ContractOutput) (deploy : Bool) : Option String :=
  (if deploy then o.bin else o.runtimeBin).filter (· ≠ "")

/-- The output with a syntax tree for when it has none of its own. -/
def withTree (o : ContractOutput) (tree : Option Json) : ContractOutput :=
  { o with ast := o.ast.or tree }

end ContractOutput

/-- Outputs under the qualified names of their contracts. -/
abbrev Outputs := Std.ExtTreeMap String ContractOutput

def outputs? (v : Json) : Option Outputs :=
  (Json.table? ContractOutput.ofJson? v).map (Std.ExtTreeMap.ofList · compare)

/-- The syntax tree in the entry of a file, which has one of two names but not both. -/
def tree? : Json → Option (Option Json)
  | .obj members =>
    match members.lookup "ast", members.lookup "AST" with
    | some _, some _ => none
    | some tree, none | none, some tree => Json.nullable? Json.any? tree
    | none, none => some none
  | v => (v.fields? ["ast"]).bind (Json.optional? "ast" Json.any?)

/-- Decodes output with the trees set apart: the outputs, each with the tree of its file, and the
list of the files if there is one. -/
def grouped? (members : List (String × Json)) : Option (Outputs × Option (List String)) := do
  let outputs ← Json.required? "contracts" outputs? members
  let trees ← Json.defaulting? "sources" [] (Json.table? tree?) members
  let listed ← Json.optional? "sourceList" (Json.list? Json.text?) members
  return (outputs.map fun name o => o.withTree (trees.lookup (pathOf name)).join, listed)

/-- Decodes combined output of either shape. -/
def decode (v : Json) : Except Error (Outputs × Option (List String)) :=
  match v with
  | .obj members =>
    match members.lookup "contracts" with
    | some (.obj _) => decoded (grouped? members)
    | _ => decoded ((outputs? v).map (·, none))
  | _ => .error (.schema .combinedRoot)

end CodeAtlas.Combined
