import CodeAtlas.Artifact.Output
import CodeAtlas.Assembly.Block
import CodeAtlas.Standard.Diagnostic
import Std.Data.ExtTreeMap

/-! Standard compiler output: files with their indexes and syntax trees, and what there is about
each contract of each file. -/
namespace CodeAtlas.Standard

/-- What the compiler gives for one kind of code. -/
structure CodeOutput where
  object : Option String := none
  opcodes : Option String := none
  map : Option String := none
  generated : Option (List GeneratedSource) := none

namespace CodeOutput

def toJson (o : CodeOutput) : Json :=
  .obj [("object", .ofOption Json.str o.object), ("opcodes", .ofOption Json.str o.opcodes),
    ("sourceMap", .ofOption Json.str o.map),
    ("generatedSources", .ofOption (Json.ofList GeneratedSource.toJson) o.generated)]

def ofJson? (v : Json) : Option CodeOutput := do
  let fields ← v.fields? ["object", "opcodes", "sourceMap", "generatedSources"]
  let object ← Json.optional? "object" Json.text? fields
  let opcodes ← Json.optional? "opcodes" Json.text? fields
  let map ← Json.optional? "sourceMap" Json.text? fields
  let generated ← Json.optional? "generatedSources" (Json.list? GeneratedSource.ofJson?) fields
  return { object, opcodes, map, generated }

end CodeOutput

/-- What the compiler gives for the virtual machine. -/
structure MachineOutput where
  assembly : Option Assembly.Block := none
  deployment : Option CodeOutput := none
  deployed : Option CodeOutput := none

namespace MachineOutput

def toJson (o : MachineOutput) : Json :=
  .obj [("legacyAssembly", .ofOption Assembly.Block.toJson o.assembly),
    ("bytecode", .ofOption CodeOutput.toJson o.deployment),
    ("deployedBytecode", .ofOption CodeOutput.toJson o.deployed)]

def ofJson? (v : Json) : Option MachineOutput := do
  let fields ← v.fields? ["legacyAssembly", "bytecode", "deployedBytecode"]
  let assembly ← Json.optional? "legacyAssembly" Assembly.Block.ofJson? fields
  let deployment ← Json.optional? "bytecode" CodeOutput.ofJson? fields
  let deployed ← Json.optional? "deployedBytecode" CodeOutput.ofJson? fields
  return { assembly, deployment, deployed }

def codeFor? (o : MachineOutput) (deploy : Bool) : Option CodeOutput :=
  if deploy then o.deployment else o.deployed

end MachineOutput

/-- What the compiler gives for a contract. -/
structure ContractOutput where
  abi : Option Json := none
  machine : Option MachineOutput := none

namespace ContractOutput

def toJson (o : ContractOutput) : Json :=
  .obj [("abi", .ofOption id o.abi), ("evm", .ofOption MachineOutput.toJson o.machine)]

def ofJson? (v : Json) : Option ContractOutput := do
  let fields ← v.fields? ["abi", "evm"]
  let abi ← Json.optional? "abi" Json.any? fields
  let machine ← Json.optional? "evm" MachineOutput.ofJson? fields
  return { abi, machine }

def codeFor? (o : ContractOutput) (deploy : Bool) : Option CodeOutput :=
  o.machine.bind (·.codeFor? deploy)

/-- The byte code of either kind, unless it is empty. -/
def binaryFor? (o : ContractOutput) (deploy : Bool) : Option String :=
  ((o.codeFor? deploy).bind (·.object)).filter (· ≠ "")

def generatedFor (o : ContractOutput) (deploy : Bool) : List GeneratedSource :=
  ((o.codeFor? deploy).bind (·.generated)).getD []

/-- Whether there is generated code of either kind. -/
def hasYul (o : ContractOutput) : Bool :=
  !(o.generatedFor true).isEmpty || !(o.generatedFor false).isEmpty

/-- The source map of either code, empty if there is none. -/
def mapFor (o : ContractOutput) (deploy : Bool) : String :=
  ((o.codeFor? deploy).bind (·.map)).getD ""

end ContractOutput

/-- A file: the index that the compiler gave it, and its syntax tree. -/
structure FileOutput where
  index : Int
  ast : Option Json := none

def FileOutput.ofJson? (v : Json) : Option FileOutput := do
  let fields ← v.fields? ["id", "ast"]
  let index ← Json.required? "id" Json.integer? fields
  let ast ← Json.optional? "ast" Json.any? fields
  return { index, ast }

/-- Output: reports, files by path, and contracts by path and name. -/
structure Output where
  diagnostics : List Diagnostic
  files : Std.ExtTreeMap String FileOutput
  contracts : Std.ExtTreeMap String (Std.ExtTreeMap String ContractOutput)

namespace Output

def contractsIn? (v : Json) : Option (Std.ExtTreeMap String ContractOutput) :=
  (Json.table? ContractOutput.ofJson? v).map (Std.ExtTreeMap.ofList · compare)

def ofJson? (v : Json) : Option Output := do
  let fields ← v.fields? ["errors", "sources", "contracts"]
  let diagnostics ← Json.defaulting? "errors" [] (Json.list? Diagnostic.ofJson?) fields
  let files ← Json.defaulting? "sources" [] (Json.table? FileOutput.ofJson?) fields
  let contracts ← Json.defaulting? "contracts" [] (Json.table? contractsIn?) fields
  return {
    diagnostics
    files := Std.ExtTreeMap.ofList files compare
    contracts := Std.ExtTreeMap.ofList contracts compare }

/-- Whether some contract has generated code. -/
def hasYul (o : Output) : Bool :=
  o.contracts.values.any fun contracts => contracts.values.any ContractOutput.hasYul

end Output
end CodeAtlas.Standard
