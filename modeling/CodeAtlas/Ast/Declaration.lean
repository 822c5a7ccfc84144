import CodeAtlas.Ast.Node
import CodeAtlas.Contract.Kind

/-! What the nodes of declarations say: types, modifiers, bases, kinds. -/
namespace CodeAtlas.Ast

structure Signature where
  parameters : List String
  returns : List String
  deriving DecidableEq, Repr

namespace Node

/-! ### Parameters -/

def nestedTypes (owner : String) (list : Node) : Except Error (List String) :=
  list.parts.mapM fun p => orError (.schema (.node owner .untypedParameter)) (p.text? "type")

/-- The parts of a nested node from its first list of parameters on. -/
def fromParameters (n : Node) : List Node := n.parts.dropWhile (!·.is "ParameterList")

def typePath : List String := ["typeDescriptions", "typeString"]

def flatType (owner : String) (parameter : Json) : Except Error String :=
  match parameter.path? typePath with
  | none => nodeError owner (.noType typePath)
  | some v => orError (.schema (.node owner (.typeNotText typePath))) v.text?

def flatTypes (n : Node) (key : String) : Except Error (List String) :=
  let list := (n.properties.bind (·.lookup key)).bind fun v => (v.member? "parameters").bind Json.items?
  match list with
  | none => nodeError n.kind (.noList key)
  | some parameters => parameters.mapM (flatType n.kind)

/-- The types of a function. In the nested form the list of results comes right after the list of
parameters. -/
def signature (n : Node) : Except Error Signature :=
  match n.form with
  | .nested =>
    match n.fromParameters with
    | [] => nodeError n.kind .noParameters
    | [_] => nodeError n.kind .noReturns
    | parameters :: returns :: _ =>
      if returns.is "ParameterList" then do
        let parameters ← nestedTypes n.kind parameters
        let returns ← nestedTypes n.kind returns
        return { parameters, returns }
      else nodeError n.kind .noReturns
  | .flat => do
    let parameters ← n.flatTypes "parameters"
    let returns ← n.flatTypes "returnParameters"
    return { parameters, returns }

def eventTypes (n : Node) : Except Error (List String) :=
  match n.form with
  | .nested =>
    match n.fromParameters with
    | [] => nodeError n.kind .noParameters
    | parameters :: _ => nestedTypes n.kind parameters
  | .flat => n.flatTypes "parameters"

/-! ### Functions -/

/-- The name of the modifier that a nested invocation applies. Calls of a base's constructor have
another type. -/
def nestedModifier? (invocation : Node) : Option String := do
  let target ← invocation.parts.head?
  let type ← target.text? "type"
  if Text.startsWith type "modifier" then target.text? "value" else none

def modifierNames (n : Node) : List String :=
  match n.form with
  | .nested => (n.parts.filter (·.is "ModifierInvocation")).filterMap nestedModifier?
  | .flat =>
    (((n.property? "modifiers").bind Json.items?).getD []).filterMap fun m =>
      (m.path? ["modifierName", "name"]).bind Json.text?

/-- The kind of a function: as it is stated, else by the constructor mark, else by having a name. -/
def functionKind (n : Node) : Except Error FunctionKind :=
  match n.text? "kind" with
  | some kind => FunctionKind.parse kind
  | none =>
    if (n.truth? "isConstructor").getD false then .ok .constructor
    else if n.name?.isSome then .ok .function
    else .ok .fallback

/-- The name of a function; one without a name is called by its kind. -/
def functionName (n : Node) : Except Error String :=
  match n.name? with
  | some name => .ok name
  | none => n.functionKind.map FunctionKind.keyword

/-- The mutability of a function, in old trees by the marks for payable and constant. -/
def mutability? (n : Node) : Option String :=
  match n.text? "stateMutability" with
  | some m => some m
  | none =>
    if n.truth? "payable" = some true then some "payable"
    else (n.truth? "constant").map fun constant => if constant then "view" else "nonpayable"

/-! ### Contracts -/

/-- The identities of the bases that are spelled out, if any list of them is there. -/
def explicitBases? (n : Node) : Option (List Int) :=
  match n.form with
  | .nested =>
    let specifiers := n.parts.filter (·.is "InheritanceSpecifier")
    if specifiers.isEmpty then none
    else some <| specifiers.filterMap fun s =>
      (s.parts.head?.bind (·.property? "referencedDeclaration")).bind Json.integer?
  | .flat =>
    ((n.property? "baseContracts").bind Json.items?).map fun bases =>
      bases.filterMap fun b => (b.path? ["baseName", "referencedDeclaration"]).bind Json.integer?

def dependencies (n : Node) : List Int :=
  (((n.property? "contractDependencies").bind Json.items?).getD []).filterMap Json.integer?

/-- The bases of a contract: those spelled out, else its dependencies. -/
def bases (n : Node) : List Int := n.explicitBases?.getD n.dependencies

/-- Whether a contract is abstract, if the tree tells. -/
def abstract? (n : Node) : Option Bool :=
  let incomplete := (n.truth? "fullyImplemented").map (!·)
  match n.form with
  | .nested => incomplete
  | .flat => (n.truth? "abstract").or incomplete

/-- The symbols that a unit exports, each with the identity of its first declaration. -/
def exportedSymbols (n : Node) : List (String × Int) :=
  (((n.property? "exportedSymbols").bind Json.members?).getD []).filterMap fun (name, ids) =>
    ((ids.items?.bind List.head?).bind Json.integer?).map (name, ·)

end Node
end CodeAtlas.Ast
