import CodeAtlas.Ast.Declaration
import CodeAtlas.Contract.Basic
import CodeAtlas.Source.Catalog

/-! Contracts from the nodes that declare them. -/
namespace CodeAtlas

/-- A name with types in parentheses; constructors have no signature. -/
def signatureText (name : String) (types : List String) (kind : FunctionKind) : String :=
  if kind = .constructor then "" else name ++ "(" ++ String.intercalate ", " types ++ ")"

def Ast.Node.visibility (n : Ast.Node) : Visibility := Visibility.ofKeyword (n.text? "visibility")

/-- The place of a node. Without the source there are no lines and no text. -/
def Anchor.ofNode (catalog : Catalog) (n : Ast.Node) : Except Error Anchor := do
  let span ← n.span
  match catalog.locate? span with
  | some excerpt => return ⟨span, some excerpt.lines, excerpt.text⟩
  | none => return ⟨span, none, ""⟩

def StateVar.ofNode (catalog : Catalog) (n : Ast.Node) : Except Error StateVar := do
  let anchor ← Anchor.ofNode catalog n
  return { name := n.name?.getD "", visibility := n.visibility, anchor }

/-- The function that a node declares. It is abstract unless it is marked as implemented. -/
def Method.ofNode (catalog : Catalog) (n : Ast.Node) : Except Error Method := do
  let types ← n.signature
  let kind ← n.functionKind
  let name ← n.functionName
  let anchor ← Anchor.ofNode catalog n
  return {
    name
    kind
    visibility := n.visibility
    mutability := n.mutability?
    isAbstract := !(n.truth? "implemented").getD false
    signature := signatureText name types.parameters kind
    returnSignature := signatureText "" types.returns kind
    modifiers := n.modifierNames
    anchor }

def Event.ofNode (catalog : Catalog) (n : Ast.Node) : Except Error Event := do
  let name ← orError (.schema (.node n.kind .eventWithoutName)) n.name?
  let types ← n.eventTypes
  let anchor ← Anchor.ofNode catalog n
  return {
    name
    visibility := n.visibility
    anonymous := (n.truth? "anonymous").getD false
    signature := signatureText name types .event
    anchor }

def Modifier.ofNode (catalog : Catalog) (n : Ast.Node) : Except Error Modifier := do
  let anchor ← Anchor.ofNode catalog n
  return { name := n.name?.getD "", visibility := n.visibility, anchor }

namespace Contract

/-- The contract with one more member, if the node declares one. -/
def addMember (catalog : Catalog) (c : Contract) (n : Ast.Node) : Except Error Contract :=
  match n.kind with
  | "FunctionDefinition" => do
    let m ← Method.ofNode catalog n
    return { c with methods := c.methods ++ [m] }
  | "VariableDeclaration" => do
    let v ← StateVar.ofNode catalog n
    return { c with fields := c.fields ++ [v] }
  | "ModifierDefinition" => do
    let m ← Modifier.ofNode catalog n
    return { c with modifiers := c.modifiers ++ [m] }
  | "EventDefinition" => do
    let e ← Event.ofNode catalog n
    return { c with events := c.events ++ [e] }
  | _ => .ok c

/-- The contract that a node of a unit defines, with its members in order. It needs an identity that
is not negative, a name, and a statement on being abstract. -/
def ofNode (catalog : Catalog) (unit : String) (n : Ast.Node) : Except Error Contract := do
  let id ← orError (.schema (.node n.kind .contractWithoutId)) (n.id.filter (0 ≤ ·))
  let name ← orError (.schema (.node n.kind .contractWithoutName)) n.name?
  let isAbstract ← orError (.schema (.node n.kind (.undecidedAbstraction name))) n.abstract?
  let kind ← match n.text? "contractKind" with
    | some kind => ContractKind.parse kind
    | none => .ok .contract
  let anchor ← Anchor.ofNode catalog n
  let bare : Contract :=
    { id, name, kind, isAbstract, bases := n.bases, unit, span := anchor.span,
      lines := anchor.lines }
  n.parts.foldlM (addMember catalog) bare

end Contract
end CodeAtlas
