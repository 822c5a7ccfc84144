import CodeAtlas.Ast.Node
import CodeAtlas.Literal.Basic

/-! The literals in a syntax tree. -/
namespace CodeAtlas.Ast

/-- A literal from properties under given keys. -/
def literalWith (subType : Option String) (token value hexValue : String)
    (properties : List (String × Json)) : Literal where
  token := (properties.lookup token).bind Json.text?
  subType := subType
  value := (properties.lookup value).bind Json.text?
  hexValue := (properties.lookup hexValue).bind Json.text?

def nestedLiteral (properties : List (String × Json)) : Literal :=
  literalWith ((properties.lookup "type").bind Json.text?) "token" "value" "hexvalue" properties

/-- The literal of a flat node's properties; it must have a description of its type. -/
def flatLiteral? (properties : List (String × Json)) : Option Literal :=
  (properties.lookup "typeDescriptions").map fun types =>
    literalWith ((types.member? "typeString").bind Json.text?) "kind" "value" "hexValue" properties

mutual

/-- The literals in a value, in the order of the text. A node that is a literal is not searched. -/
def literalsIn : Json → List Literal
  | .arr items => literalsInItems items
  | .obj members =>
    if (members.lookup "nodeType").bind Json.text? = some "Literal" then
      (flatLiteral? members).toList
    else literalsInMembers members
  | _ => []

def literalsInItems : List Json → List Literal
  | [] => []
  | v :: rest => literalsIn v ++ literalsInItems rest

def literalsInMembers : List (String × Json) → List Literal
  | [] => []
  | (_, v) :: rest => literalsIn v ++ literalsInMembers rest

end

namespace Node

def literal? (n : Node) : Option Literal :=
  if n.is "Literal" then
    match n.form with
    | .nested => n.properties.map nestedLiteral
    | .flat => n.properties.bind flatLiteral?
  else none

/-- The literals in the properties of a node; only flat nodes keep expressions there. -/
def propertyLiterals (n : Node) : List Literal :=
  match n.form with
  | .nested => []
  | .flat => literalsInMembers (n.properties.getD [])

mutual

/-- The literals of a tree. A node that is a literal is not searched. -/
def literals : Node → List Literal
  | ⟨form, kind, id, src, properties, children⟩ =>
    let n : Node := ⟨form, kind, id, src, properties, none⟩
    match n.literal? with
    | some l => [l]
    | none =>
      n.propertyLiterals ++
        match children with
        | none => []
        | some nodes => literalsOfAll nodes

def literalsOfAll : List Node → List Literal
  | [] => []
  | n :: rest => n.literals ++ literalsOfAll rest

end

end Node
end CodeAtlas.Ast
