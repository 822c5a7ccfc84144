import CodeAtlas.Hex
import CodeAtlas.Version.Parser

/-! Everything that can go wrong, by cause, and the wording of each cause. -/
namespace CodeAtlas

/-- The part of a source range that cannot be read. -/
inductive SpanPart where
  /-- There are fewer than three fields. -/
  | fields
  | start
  | length
  | file
  deriving DecidableEq, Repr

/-- What a syntax-tree node lacks. -/
inductive NodeFault where
  | noSource
  | noParameters
  | noReturns
  | untypedParameter
  /-- A list of parameters is missing under its key. -/
  | noList (key : String)
  /-- A parameter has nothing at the path of its type. -/
  | noType (path : List String)
  /-- What stands at the path of a parameter's type is no text. -/
  | typeNotText (path : List String)
  | contractWithoutId
  | contractWithoutName
  | undecidedAbstraction (contract : String)
  | eventWithoutName
  deriving DecidableEq, Repr

def NodeFault.detail : NodeFault → String
  | .noSource => "nó sem campo src"
  | .noParameters => "lista de parâmetros ausente"
  | .noReturns => "lista de retornos ausente"
  | .untypedParameter => "parâmetro sem attributes.type"
  | .noList key => "'" ++ key ++ "' ausente"
  | .noType path => "parâmetro sem '" ++ String.intercalate "." path ++ "'"
  | .typeNotText path => "'" ++ String.intercalate "." path ++ "' não é string"
  | .contractWithoutId => "contrato sem id"
  | .contractWithoutName => "contrato sem nome"
  | .undecidedAbstraction contract => "abstração indefinida em " ++ contract
  | .eventWithoutName => "evento sem nome"

/-- A value that does not have the shape its place asks for. -/
inductive SchemaFault where
  | span (part : SpanPart) (text : String)
  | contractKind (value : String)
  | functionKind (value : String)
  | node (kind : String) (fault : NodeFault)
  | combinedRoot
  | standardInput
  | standardSettings
  deriving DecidableEq, Repr

def SchemaFault.detail : SchemaFault → String
  | .span .fields text => "src: esperado start:length:fileIndex em '" ++ text ++ "'"
  | .span .start text => "src: start inválido em '" ++ text ++ "'"
  | .span .length text => "src: length inválido em '" ++ text ++ "'"
  | .span .file text => "src: fileIndex inválido em '" ++ text ++ "'"
  | .contractKind value => "contractKind: valor desconhecido '" ++ value ++ "'"
  | .functionKind value => "kind: valor desconhecido '" ++ value ++ "'"
  | .node kind fault => kind ++ ": " ++ fault.detail
  | .combinedRoot => "combined-json: a raiz deve ser um objeto"
  | .standardInput => "standard-json: a entrada deve ser um objeto"
  | .standardSettings => "standard-json: settings deve ser um objeto"

/-- Code that cannot be decoded. -/
inductive CodeFault where
  | hex (fault : Hex.Fault)
  /-- The token for a deploy address, at a position of the listing, is no `PUSH20`. -/
  | notDeployAddress (position : Nat) (found : Option String)
  /-- The listing ends before an item of the assembly. -/
  | listingEnded (item : Nat) (name : String)
  /-- The token for a push, at a position of the listing, is no push of known width. -/
  | notPush (position : Nat) (found : String)
  deriving DecidableEq, Repr

def CodeFault.detail : CodeFault → String
  | .hex fault => "bytecode hexadecimal inválido: " ++ fault.message
  | .notDeployAddress position found =>
    "esperado PUSH20 para PUSHDEPLOYADDRESS na posição " ++ Text.decimal position ++
      " dos opcodes, encontrado '" ++ found.getD "<fim>" ++ "'"
  | .listingEnded item name =>
    "opcodes terminaram antes do item " ++ Text.decimal item ++ " (" ++ name ++ ") da assembly"
  | .notPush position found =>
    "esperado PUSHn na posição " ++ Text.decimal position ++ " dos opcodes, encontrado '" ++
      found ++ "'"

/-- Something asked for that is not there. -/
inductive Absent where
  /-- No file under a path. -/
  | file (path : String)
  /-- No text for a contract or file. -/
  | sourceOf (owner : String)
  | assemblyOf (contract : String)
  | runtimeAssemblyOf (contract : String)
  | opcodesOf (contract : String)
  | evmOf (contract : String)
  | legacyAssemblyOf (contract : String)
  | versionBefore (current : Version)
  deriving DecidableEq, Repr

def Absent.detail : Absent → String
  | .file path => "fonte " ++ path
  | .sourceOf owner => "fonte de " ++ owner
  | .assemblyOf contract => "asm de " ++ contract
  | .runtimeAssemblyOf contract => "assembly de runtime de " ++ contract
  | .opcodesOf contract => "opcodes de " ++ contract
  | .evmOf contract => "evm de " ++ contract
  | .legacyAssemblyOf contract => "legacyAssembly de " ++ contract
  | .versionBefore current => "versão anterior a " ++ current.render

/-- The ways in which an operation fails. -/
inductive Error where
  | schema (fault : SchemaFault)
  /-- The root of a syntax tree is no source unit, but a node of another kind. -/
  | invalidRoot (kind : String)
  | missingContract (name : String)
  | missingFunction (contract function : String)
  | missingEvent (contract event : String)
  /-- A listing of so many tokens holds no start of deployed code. -/
  | noPreamble (tokens : Nat)
  /-- The compiler reported errors. -/
  | compilation (messages : List String)
  | undecodable (fault : CodeFault)
  | invalidVersion (text : String) (fault : Version.Fault)
  | notFound (what : Absent)
  /-- A file cannot be read. -/
  | unreadable
  /-- A JSON text or value does not decode. -/
  | malformed
  /-- An error of a collaborator, in its own words. -/
  | other (text : String)
  deriving DecidableEq, Repr

namespace Error

def message : Error → String
  | schema fault => "Erro de esquema da AST: " ++ fault.detail
  | invalidRoot kind => "Raiz de AST inválida: " ++ kind
  | missingContract name => "Contrato não encontrado: " ++ name
  | missingFunction contract function =>
    "Função " ++ function ++ " não encontrada no contrato " ++ contract
  | missingEvent contract event =>
    "Evento " ++ event ++ " não encontrado no contrato " ++ contract
  | noPreamble tokens =>
    "Sequência de deploy não encontrada nos opcodes (" ++ Text.decimal tokens ++ " tokens)"
  | compilation messages => "Falha de compilação: " ++ String.intercalate "; " messages
  | undecodable fault => "Erro de decodificação: " ++ fault.detail
  | invalidVersion text fault => "Versão inválida: " ++ text ++ ": " ++ fault.message
  | notFound what => "Não encontrado: " ++ what.detail
  | unreadable => "Erro de I/O"
  | malformed => "Erro de JSON"
  | other text => text

/-- Whether the error only says that something asked for is not there. -/
def isMissing : Error → Bool
  | missingContract _ | missingFunction _ _ | missingEvent _ _ | notFound _ => true
  | _ => false

end Error

def nodeError {α : Type} (kind : String) (fault : NodeFault) : Except Error α :=
  .error (.schema (.node kind fault))

/-- The value of an option, or an error when there is none. -/
def orError {α : Type} (error : Error) : Option α → Except Error α
  | some a => .ok a
  | none => .error error

/-- A decoded value, or the error that nothing decodes. -/
def decoded {α : Type} (value : Option α) : Except Error α := orError .malformed value

end CodeAtlas
