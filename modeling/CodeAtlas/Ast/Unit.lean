import CodeAtlas.Ast.Declaration
import CodeAtlas.Ast.Literals

/-! Source units: the roots of syntax trees. -/
namespace CodeAtlas.Ast

/-- The tree of a source file. -/
structure SourceUnit where
  root : Node

namespace SourceUnit

/-- Decodes the root of a tree. It must be a source unit and, in the nested form, have parts. -/
def ofJson (form : Form) (v : Json) : Except Error SourceUnit := do
  let root ← decoded (Node.ofJson? form v)
  if root.is "SourceUnit" && root.children.isSome then return ⟨root⟩
  else throw (.invalidRoot root.kind)

def path? (u : SourceUnit) : Option String := u.root.text? "absolutePath"

def fileIndex? (u : SourceUnit) : Option Int := u.root.span.toOption.map (·.file)

def contracts (u : SourceUnit) : List Node := u.root.parts.filter (·.is "ContractDefinition")

/-- The literals of the first contract with a name. -/
def literalsOf? (u : SourceUnit) (name : String) : Option (List Literal) :=
  (u.contracts.find? (·.name? == some name)).map Node.literals

end SourceUnit
end CodeAtlas.Ast
